import Shading.Diagnostic
import Shading.SourceText

/-!
# Excerpts and notes

What all forms of a report share: the marks under a line of the source, and the notes at the end.
-/

namespace Shading.Report

/-- How many characters start within the first `length` bytes, behind `before` others. -/
def charactersWithin (length before : Nat) : List Char → Nat
  | [] => 0
  | character :: rest =>
    if before < length then 1 + charactersWithin length (before + byteLength [character]) rest
    else 0

/-- The space before the marks under a line, and the marks. They start at a column, which is moved
to the end of the line if it lies behind it, and cover `length` bytes or, if that is zero, the rest
of the line; there is always one mark. Tabs are kept, so that the marks stand under their text. -/
def underline (line : String) (column length : Nat) : String × String :=
  let characters := line.toList
  let before := characters.take (column - 1)
  let rest := characters.drop (column - 1)
  let width := if length = 0 then rest.length else charactersWithin length 0 rest
  (String.ofList (before.map fun character => if character = '\t' then '\t' else ' '),
    String.ofList (List.replicate (max width 1) '^'))

/-- The question that suggestions are put as. -/
def suggestionNote : List String → List String
  | [] => []
  | [only] => ["help: did you mean `" ++ only ++ "`?"]
  | many =>
    let quoted := many.map fun suggestion => "`" ++ suggestion ++ "`"
    ["help: did you mean one of " ++ ", ".intercalate quoted ++ "?"]

/-- The note about a second place. -/
def relatedNote (related : Related) : String :=
  "note: " ++ related.message ++ match related.location with
    | some span => " (" ++ span.line.repr ++ ":" ++ span.column.repr ++ ")"
    | none => ""

/-- The notes of a report: suggestions, second places, documentation. -/
def notes (diagnostic : Diagnostic) : List String :=
  suggestionNote diagnostic.suggestions ++ diagnostic.related.map relatedNote ++
    diagnostic.documentation.toList.map ("note: see " ++ ·)

/-- A number of spaces. -/
def spaces (count : Nat) : String := String.ofList (List.replicate count ' ')

/-- Number of digits of a line number. -/
def digitCount (number : Nat) : Nat := number.repr.length

/-- A place as `name:line:column`. -/
def place (source : SourceText) (span : Span) : String :=
  source.name ++ ":" ++ span.line.repr ++ ":" ++ span.column.repr

/-- The text of a line, empty if there is no such line. -/
def lineText (source : SourceText) (number : Nat) : String := (source.line? number).getD ""

end Shading.Report
