import Shading.Powers

/-!
# Places in a source text

A place is a line, a column and a byte offset; a span is the place where a piece of text starts
together with its length in bytes. Lines and columns start at one, count characters and are 32-bit
words; offsets and lengths count bytes of the UTF-8 encoding.
-/

namespace Shading

/-- The 32-bit word of a count: behind the largest it starts again at zero. -/
def toWord (count : Nat) : Nat := count % twoTo 32

/-- A place between two characters of a text. -/
structure Position where
  /-- The word of one more than the number of newlines before the place. -/
  line : Nat
  /-- The word of one more than the number of characters since the last newline. -/
  column : Nat
  /-- Number of bytes before the place. -/
  offset : Nat
deriving DecidableEq, Repr, Inhabited

namespace Position

/-- The place before the first character of a text. -/
def start : Position := ⟨1, 1, 0⟩

/-- The place behind `character`, which stands at `here`. -/
def advance (here : Position) (character : Char) : Position :=
  if character = '\n' then ⟨toWord (here.line + 1), 1, here.offset + character.utf8Size⟩
  else ⟨here.line, toWord (here.column + 1), here.offset + character.utf8Size⟩

/-- The place behind all of `characters`, from `here` on. -/
def advanceAll (here : Position) (characters : List Char) : Position :=
  characters.foldl advance here

/-- Behind nothing is the same place. -/
@[simp] theorem advanceAll_nil (here : Position) : here.advanceAll [] = here := rfl

/-- Characters are passed one by one. -/
@[simp] theorem advanceAll_cons (here : Position) (character : Char) (rest : List Char) :
    here.advanceAll (character :: rest) = (here.advance character).advanceAll rest := rfl

/-- Joined characters are passed one after the other. -/
theorem advanceAll_append (here : Position) (left right : List Char) :
    here.advanceAll (left ++ right) = (here.advanceAll left).advanceAll right :=
  List.foldl_append

end Position

/-- Number of bytes that `characters` take in UTF-8. -/
def byteLength : List Char → Nat
  | [] => 0
  | first :: rest => first.utf8Size + byteLength rest

/-- Where a piece of source text starts, and its bytes. -/
structure Span where
  line : Nat
  column : Nat
  offset : Nat
  length : Nat
deriving DecidableEq, Repr, Inhabited

namespace Span

/-- The span of things that no source text holds. -/
def none : Span := ⟨0, 0, 0, 0⟩

/-- The span of `length` bytes that starts at `here`. -/
def startingAt (here : Position) (length : Nat) : Span :=
  ⟨here.line, here.column, here.offset, length⟩

/-- The first offset behind the span. -/
def stop (span : Span) : Nat := span.offset + span.length

/-- From the start of `first` to the later of both ends. -/
def through (first last : Span) : Span :=
  { first with length := max last.stop first.stop - first.offset }

end Span

end Shading
