import Shading.Span

/-!
# Source maps

A source map tells for lines of generated code which place of the source they come from.
-/

namespace Shading

/-- One place of generated code with the place it comes from. -/
structure Mapping where
  generatedLine : Nat
  generatedColumn : Nat
  sourceLine : Nat
  sourceColumn : Nat
  /-- The name that is declared there. -/
  name : Option String
deriving DecidableEq, Repr, Inhabited

/-- The mappings for the code generated from one file, in order. -/
structure SourceMap where
  file : String
  mappings : List Mapping := []
deriving DecidableEq, Repr, Inhabited

namespace Mapping

/-- Maps a place of generated code to the start of a span. -/
def toSpan (line column : Nat) (source : Span) (name : Option String) : Mapping where
  generatedLine := line
  generatedColumn := column
  sourceLine := source.line
  sourceColumn := source.column
  name := name

/-- Whether the generated place of a mapping is not behind that of another. -/
def notBehind (first second : Mapping) : Bool :=
  first.generatedLine < second.generatedLine ||
    first.generatedLine = second.generatedLine && first.generatedColumn ≤ second.generatedColumn

end Mapping

namespace SourceMap

/-- Adds a mapping behind all others. -/
def add (map : SourceMap) (mapping : Mapping) : SourceMap :=
  { map with mappings := map.mappings ++ [mapping] }

/-- The last of the mappings whose place no other exceeds. -/
def furthest? : List Mapping → Option Mapping
  | [] => none
  | first :: rest =>
    match furthest? rest with
    | some found => if first.notBehind found then some found else some first
    | none => some first

/-- The mapping closest to a generated line, on it or before it. -/
def lookup? (map : SourceMap) (line : Nat) : Option Mapping :=
  furthest? (map.mappings.filter fun mapping => mapping.generatedLine ≤ line)

end SourceMap

end Shading
