import Shading.Names.Similar

/-!
# Swizzles

The components of a vector are named by letters of one of two sets. A swizzle names one to four
components of a vector, in any order and also repeatedly.
-/

namespace Shading.Swizzle

/-- The letters of positions. -/
def positions : List Char := ['x', 'y', 'z', 'w']

/-- The letters of colors. -/
def colors : List Char := ['r', 'g', 'b', 'a']

/-- The set that a letter belongs to. -/
def letters? (letter : Char) : Option (List Char) :=
  if letter ∈ positions then some positions
  else if letter ∈ colors then some colors
  else none

/-- The component that a letter of a set names in a vector of some size. -/
def component? (letters : List Char) (size : Nat) (letter : Char) : Option Nat :=
  (letters.idxOf? letter).filter (· < size)

/-- The components that a valid swizzle names in a vector. -/
def components? (swizzle : String) (size : Nat) : Option (List Nat) :=
  match swizzle.toList with
  | [] => none
  | first :: rest =>
    if 4 < swizzle.utf8ByteSize then none
    else (letters? first).bind fun letters => (first :: rest).mapM (component? letters size)

/-- All texts that are one letter longer than those of a list. -/
def extend (letters : List Char) (texts : List (List Char)) : List (List Char) :=
  texts.flatMap fun text => letters.map fun letter => text ++ [letter]

/-- All texts of one to `length` letters, shorter first; `texts` have length zero. -/
def words (letters : List Char) (texts : List (List Char)) : (length : Nat) → List (List Char)
  | 0 => []
  | length + 1 =>
    let next := extend letters texts
    next ++ words letters next length

/-- How many suggestions are made. -/
def suggestionCount : Nat := 3

/-- Valid swizzles that are one edit away from an invalid one. -/
def suggestions (swizzle : String) (size : Nat) : List String :=
  let letters := (swizzle.toList.findSome? letters?).getD positions
  let length := min 4 (max 1 swizzle.utf8ByteSize)
  let candidates := (words (letters.take size) [[]] length).map String.ofList
  (Names.similar swizzle candidates 1).take suggestionCount

end Shading.Swizzle
