import Shading.Binary64

/-!
# The shortest decimal text of a binary number

A number of a binary format is written with the fewest decimal digits that read back as the same
number. The reals that round to a number form an interval around it, which holds its ends if the
significand is even; of the decimal grids `10 ^ exponent` the coarsest one with a point in the
interval is taken, and of two such points the nearer to the number, the upper if both are equally
near. The text never has an exponent.
-/

namespace Shading.Decimal

/-- The number `significand` times `10 ^ exponent`. -/
structure Digits where
  significand : Nat
  exponent : Int
deriving DecidableEq, Repr

/-- The reals that round to a number, in quarters of a unit. -/
structure Interval where
  low : Nat
  value : Nat
  high : Nat
  /-- Whether the ends round to the number as well. -/
  closed : Bool

/-- The interval of the number with `units` in `format`; below a power of two it is half as wide. -/
def Interval.around (format : Binary64.Format) (units : Nat) : Interval :=
  let step := format.step units
  let spacing := twoTo step
  let below := if units = twoTo (step + format.precision - 1) ∧ format.quantum < step
    then spacing else 2 * spacing
  { low := 4 * units - below
    value := 4 * units
    high := 4 * units + 2 * spacing
    closed := units / spacing % 2 = 0 }

/-- The point of the grid `10 ^ exponent` for the interval's number, if there is one. -/
def Interval.pick? (interval : Interval) (exponent : Int) : Option Nat :=
  let quarters := 4 * Binary64.one
  let cell := if 0 ≤ exponent then quarters * tenTo exponent.toNat else quarters
  let scale := if 0 ≤ exponent then 1 else tenTo (-exponent).toNat
  let floor := interval.value * scale / cell
  let holds (point : Nat) : Bool :=
    if interval.closed then interval.low * scale ≤ point * cell ∧ point * cell ≤ interval.high * scale
    else interval.low * scale < point * cell ∧ point * cell < interval.high * scale
  let upperNearer : Bool := cell ≤ 2 * (interval.value * scale - floor * cell)
  match holds floor, holds (floor + 1) with
  | true, true => some (if upperNearer then floor + 1 else floor)
  | true, false => some floor
  | false, true => some (floor + 1)
  | false, false => none

/-- Tries finer grids from `10 ^ exponent` on, at most `attempts`. -/
def Interval.search (interval : Interval) : (attempts : Nat) → (exponent : Int) → Digits
  | 0, exponent => ⟨0, exponent⟩
  | attempts + 1, exponent =>
    match interval.pick? exponent with
    | some significand => ⟨significand, exponent⟩
    | none => interval.search attempts (exponent - 1)

/-- Enough grids for every number of the 64-bit format. -/
def attemptLimit : Nat := 400

/-- The fewest digits that read back as the number with `units` in `format`. -/
def shortest (format : Binary64.Format) (units : Nat) : Digits :=
  let whole := units / Binary64.one
  let wholeDigits := if whole = 0 then 0 else (Nat.toDigits 10 whole).length
  (Interval.around format units).search attemptLimit wholeDigits

/-- Writes the digits with a point where needed, without exponent. -/
def Digits.positional (digits : Digits) : String :=
  let text := (Nat.repr digits.significand).toList
  if 0 ≤ digits.exponent then
    String.ofList (text ++ List.replicate digits.exponent.toNat '0')
  else
    let places := (-digits.exponent).toNat
    let padded := List.replicate (places + 1 - text.length) '0' ++ text
    let split := padded.length - places
    String.ofList (padded.take split ++ '.' :: padded.drop split)

/-- The text of a number of `format`: a sign, also of negative zero, the shortest digits, and no
point in whole numbers. -/
def text (format : Binary64.Format) : Binary64 → String
  | .finite negative units =>
    let magnitude := if units = 0 then "0" else (shortest format units).positional
    if negative then "-" ++ magnitude else magnitude
  | .infinite negative => if negative then "-inf" else "inf"

end Shading.Decimal
