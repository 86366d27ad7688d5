import Shading.Powers

/-!
# Numbers of the 64-bit binary format

Every finite number of the format is a whole multiple of the least positive one, `2 ^ -1074`, so a
number is kept as a sign and a count of such units and all arithmetic is exact arithmetic on
natural numbers followed by one rounding. The narrower 32-bit format is a subset of the same
multiples and differs only in its `Format`. Sums, products and quotients that do not fit the
format have no result.
-/

namespace Shading

/-- A number of the 64-bit format other than "not a number". -/
inductive Binary64 where
  /-- Plus or minus `units` times `2 ^ -1074`; zero has both signs. -/
  | finite (negative : Bool) (units : Nat)
  /-- A number beyond the range of the format. -/
  | infinite (negative : Bool)
deriving DecidableEq, Repr, Inhabited

/-- The nearest whole number to a quotient, of two the even. -/
def roundQuotient (numerator denominator : Nat) : Nat :=
  let quotient := numerator / denominator
  let twice := 2 * (numerator % denominator)
  if twice < denominator then quotient
  else if denominator < twice then quotient + 1
  else if quotient % 2 = 0 then quotient
  else quotient + 1

/-- Number of binary digits; zero has none. -/
def bitLength (value : Nat) : Nat :=
  if value = 0 then 0 else value.log2 + 1

namespace Binary64

/-- How many units make one. -/
def one : Nat := twoTo 1074

/-- A binary format whose numbers are whole multiples of the unit. -/
structure Format where
  /-- Number of significant binary digits. -/
  precision : Nat
  /-- The least distance of two numbers is `2 ^ quantum` units. -/
  quantum : Nat
  /-- All numbers lie below `2 ^ limit` units. -/
  limit : Nat

namespace Format

/-- The 64-bit format. -/
def double : Format := ⟨53, 0, 2098⟩

/-- The 32-bit format. -/
def single : Format := ⟨24, 925, 1202⟩

/-- Numbers of the size of `units` are `2 ^ step` units apart. -/
def step (format : Format) (units : Nat) : Nat :=
  max format.quantum (bitLength units - format.precision)

/-- The number of the format nearest to `numerator / denominator` units, unless too large; of two
the even one. -/
def round? (format : Format) (numerator denominator : Nat) : Option Nat :=
  let spacing := twoTo (format.step (numerator / denominator))
  let rounded := roundQuotient numerator (denominator * spacing) * spacing
  if rounded < twoTo format.limit then some rounded else none

end Format

/-- The number with a rounded magnitude, infinite if too large. -/
def ofRounded (negative : Bool) : Option Nat → Binary64
  | some units => .finite negative units
  | none => .infinite negative

/-- The whole number `value`, rounded to the format. -/
def ofInt (value : Int) : Binary64 :=
  ofRounded (value < 0) (Format.double.round? (value.natAbs * one) 1)

/-- Whether the number is not beyond the range. -/
def isFinite : Binary64 → Bool
  | .finite .. => true
  | .infinite _ => false

/-- The number with the other sign. -/
def negate : Binary64 → Binary64
  | .finite negative units => .finite (!negative) units
  | .infinite negative => .infinite (!negative)

/-- The number in units, infinite ones beyond all: numbers compare as their keys. -/
def key : Binary64 → Int
  | .finite negative units => if negative then -units else units
  | .infinite negative => if negative then -(twoTo 2098) else twoTo 2098

/-- Whether the number has no fraction. -/
def isWhole : Binary64 → Bool
  | .finite _ units => units % one = 0
  | .infinite _ => false

/-- The number without its fraction, clamped to a range. -/
def truncate (least greatest : Int) : Binary64 → Int
  | .finite negative units =>
    let magnitude : Int := (units / one : Nat)
    max least (min greatest (if negative then -magnitude else magnitude))
  | .infinite negative => if negative then least else greatest

/-- The number nearest to a sum; zero is negative only if both terms are. -/
def ofSum? (bothNegative : Bool) (sum : Int) : Option Binary64 :=
  (Format.double.round? sum.natAbs 1).map fun units =>
    .finite (if sum = 0 then bothNegative else sum < 0) units

/-- The rounded sum of two finite numbers. -/
def add? : Binary64 → Binary64 → Option Binary64
  | .finite leftSign left, .finite rightSign right =>
    ofSum? (leftSign && rightSign) (key (.finite leftSign left) + key (.finite rightSign right))
  | _, _ => none

/-- The rounded difference of two finite numbers. -/
def subtract? (left right : Binary64) : Option Binary64 := left.add? right.negate

/-- The rounded product of two finite numbers. -/
def multiply? : Binary64 → Binary64 → Option Binary64
  | .finite leftSign left, .finite rightSign right =>
    (Format.double.round? (left * right) one).map (.finite (leftSign != rightSign))
  | _, _ => none

/-- The rounded quotient of two finite numbers, the second not zero. -/
def divide? : Binary64 → Binary64 → Option Binary64
  | .finite leftSign left, .finite rightSign right =>
    if right = 0 then none
    else (Format.double.round? (left * one) right).map (.finite (leftSign != rightSign))
  | _, _ => none

/-- The nearest number of the 32-bit format. -/
def toSingle : Binary64 → Binary64
  | .finite negative units => ofRounded negative (Format.single.round? units 1)
  | .infinite negative => .infinite negative

/-- The 64-bit pattern: sign, biased exponent, and the significand without its leading digit. -/
def toBits (value : Binary64) : Nat :=
  let withSign (negative : Bool) (rest : Nat) : Nat := if negative then twoTo 63 + rest else rest
  match value with
  | .finite negative units =>
    if units < twoTo 52 then withSign negative units
    else
      let shift := bitLength units - 53
      withSign negative (shift * twoTo 52 + units / twoTo shift)
  | .infinite negative => withSign negative (2047 * twoTo 52)

end Binary64

end Shading
