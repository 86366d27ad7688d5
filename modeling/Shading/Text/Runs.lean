/-!
# Runs of characters

A class of characters is given by the lengths of the runs of code points, from the first code point on,
that are outside of it and inside of it by turns.
-/

namespace Shading.Text

/-- Whether a code point is in a run inside, runs being so by turns from `inside` on. Behind all
runs none is. -/
def isWithin (inside : Bool) : (runs : List Nat) → (code : Nat) → Bool
  | [], _ => false
  | length :: rest, code =>
    if code < length then inside else isWithin (!inside) rest (code - length)

end Shading.Text
