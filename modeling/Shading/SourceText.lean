import Shading.Span

/-!
# Source texts

A source text has a name, which reports show, and its characters. Byte offsets are located in it by a
table of the offsets at which its lines start, and its lines are numbered from one.
-/

namespace Shading

/-- A named text. -/
structure SourceText where
  name : String
  text : String
deriving Repr, Inhabited

namespace SourceText

/-- The characters of the text, in order. -/
def characters (source : SourceText) : List Char := source.text.toList

/-- The bytes of the text, in order. -/
def bytes (source : SourceText) : List UInt8 := source.text.toUTF8.data.toList

/-! ### The table of lines -/

/-- The offsets behind the newlines of bytes from `offset` on. -/
def startsFrom (offset : Nat) : List UInt8 → List Nat
  | [] => []
  | byte :: rest =>
    if byte = 10 then (offset + 1) :: startsFrom (offset + 1) rest else startsFrom (offset + 1) rest

/-- The offsets at which the lines of the text start. -/
def lineStarts (source : SourceText) : List Nat := 0 :: startsFrom 0 source.bytes

/-- Number of lines; a text without newlines has one. -/
def lineCount (source : SourceText) : Nat := source.lineStarts.length

/-- Halves the `size` entries of a table from `base` on until one is left, keeping the half of an
offset. -/
def narrow (table : List Nat) (offset base size : Nat) : Nat :=
  if size ≤ 1 then base
  else
    let middle := base + size / 2
    narrow table offset (if offset < table.getD middle 0 then base else middle) (size - size / 2)
termination_by size

/-- Where an offset stands in a sorted table, or would stand. -/
def search (table : List Nat) (offset : Nat) : Except Nat Nat :=
  let base := narrow table offset 0 table.length
  let entry := table.getD base 0
  if entry = offset then .ok base else .error (if entry < offset then base + 1 else base)

/-- The line of an offset, from zero: the last that starts there or before. -/
def lineIndex (table : List Nat) (offset : Nat) : Nat :=
  match search table offset with
  | .ok index => index
  | .error index => index - 1

/-! ### Pieces of the text -/

/-- Divides characters behind a number of bytes, unless inside one or beyond all. -/
def divide? (bytes : Nat) : List Char → Option (List Char × List Char)
  | [] => if bytes = 0 then some ([], []) else none
  | first :: rest =>
    if bytes = 0 then some ([], first :: rest)
    else if bytes < first.utf8Size then none
    else (divide? (bytes - first.utf8Size) rest).map fun (front, back) => (first :: front, back)

/-- The characters between two offsets. -/
def slice? (source : SourceText) (start stop : Nat) : Option (List Char) := do
  let (_, behind) ← divide? start source.characters
  let (inside, _) ← divide? (stop - start) behind
  return inside

/-- The place of a byte offset, unless inside a character; beyond the end it is the end. -/
def position? (source : SourceText) (offset : Nat) : Option Position :=
  let offset := min offset source.text.utf8ByteSize
  let index := lineIndex source.lineStarts offset
  (source.slice? (source.lineStarts.getD index 0) offset).map fun before =>
    ⟨toWord (index + 1), toWord (before.length + 1), offset⟩

/-- The span of `length` bytes from an offset on, which is kept as given also beyond the end. -/
def span? (source : SourceText) (offset length : Nat) : Option Span :=
  (source.position? offset).map fun here => ⟨here.line, here.column, offset, length⟩

/-- The characters that lines may end with. -/
def isLineEnd (character : Char) : Bool := character = '\r' || character = '\n'

/-- The line with a number from one on, without its line ends. -/
def line? (source : SourceText) : (number : Nat) → Option String
  | 0 => none
  | index + 1 => do
    let start ← source.lineStarts[index]?
    let stop := source.lineStarts[index + 1]?.getD source.text.utf8ByteSize
    let line ← source.slice? start stop
    return String.ofList (line.reverse.dropWhile isLineEnd).reverse

end SourceText

end Shading
