/-!
# Similar names

Misspelt names get suggestions: the candidates within a few single-character edits, closest first.
The distance of two texts is the least number of insertions, deletions and substitutions of one
character that turn one into the other. It is computed row by row, where a row holds the distances
of the characters that were read of one text to all beginnings of the other.
-/

namespace Shading.Names

/-- The last complete row, and one that is written over. -/
structure Rows where
  previous : Array Nat
  current : Array Nat

namespace Rows

/-- The rows before a character is read, for a text of the given length. -/
def start (length : Nat) : Rows := ⟨Array.range (length + 1), Array.replicate (length + 1) 0⟩

/-- Writes the entry behind `column`: a substitution, deletion or insertion. -/
def put (character other : Char) (rows : Rows) (column : Nat) : Rows :=
  let substituted := rows.previous.getD column 0 + if character = other then 0 else 1
  let entry := min (min substituted (rows.previous.getD (column + 1) 0 + 1))
    (rows.current.getD column 0 + 1)
  { rows with current := rows.current.setIfInBounds (column + 1) entry }

/-- Writes the entries behind `column`, one for each character left. -/
def fill (character : Char) (rows : Rows) (column : Nat) : (target : List Char) → Rows
  | [] => rows
  | other :: rest => fill character (rows.put character other column) (column + 1) rest

/-- Writes the row of a character behind `row` others, and swaps the rows. -/
def extend (target : List Char) (rows : Rows) (row : Nat) (character : Char) : Rows :=
  let started := { rows with current := rows.current.setIfInBounds 0 (row + 1) }
  let filled := started.fill character 0 target
  ⟨filled.current, filled.previous⟩

/-- Writes the rows of all characters left behind `row` others. -/
def extendAll (target : List Char) (rows : Rows) (row : Nat) : (source : List Char) → Rows
  | [] => rows
  | character :: rest => extendAll target (rows.extend target row character) (row + 1) rest

end Rows

/-- The least number of single-character edits between two texts. -/
def distance (left right : String) : Nat :=
  let target := right.toList
  let rows := Rows.extendAll target (.start target.length) 0 left.toList
  rows.previous.getD target.length 0

/-- How far a suggestion may lie from the name it replaces. -/
def suggestionLimit : Nat := 2

/-- Keeps a candidate with its distance if near enough, other than the name and not kept already. -/
def keep (target : String) (limit : Nat) (kept : List (Nat × String)) (candidate : String) :
    List (Nat × String) :=
  if candidate = target || kept.any fun (_, name) => name = candidate then kept
  else if distance target candidate ≤ limit then kept ++ [(distance target candidate, candidate)]
  else kept

/-- The candidates other than `target` within `limit` edits, each once, closest first; equally close
ones keep their order. -/
def similar (target : String) (candidates : List String) (limit : Nat) : List String :=
  let kept := candidates.foldl (keep target limit) []
  (kept.mergeSort fun left right => left.1 ≤ right.1).map (·.2)

end Shading.Names
