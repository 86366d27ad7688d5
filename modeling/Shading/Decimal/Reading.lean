import Shading.Binary64

/-!
# Reading decimal numbers

A decimal text is an optional sign, digits with an optional point, at least one digit in all, and
an optional exponent. Its value is the number of the 64-bit format nearest to what it says.
-/

namespace Shading.Decimal

/-- What a decimal text says: `significand` times `10 ^ exponent`, with a sign. -/
structure Written where
  negative : Bool
  significand : Nat
  exponent : Int
deriving DecidableEq, Repr

/-- The number that a list of digits spells. -/
def digitsValue (digits : List Char) : Nat :=
  digits.foldl (fun value digit => 10 * value + (digit.toNat - '0'.toNat)) 0

/-- Divides a text into its leading digits and the rest. -/
def spanDigits (characters : List Char) : List Char × List Char :=
  (characters.takeWhile Char.isDigit, characters.dropWhile Char.isDigit)

/-- Divides a text into an optional sign, told as "is negative", and the rest. -/
def takeSign : List Char → Bool × List Char
  | '-' :: rest => (true, rest)
  | '+' :: rest => (false, rest)
  | rest => (false, rest)

/-- Reads an optional exponent that has to end the text. -/
def readExponent? : List Char → Option Int
  | [] => some 0
  | mark :: rest =>
    if mark = 'e' ∨ mark = 'E' then
      let (negative, rest) := takeSign rest
      let (digits, rest) := spanDigits rest
      if digits.isEmpty ∨ !rest.isEmpty then none
      else some (if negative then -(digitsValue digits : Int) else digitsValue digits)
    else none

/-- Divides what follows the whole digits into a fraction and the rest. -/
def takeFraction : List Char → List Char × List Char
  | '.' :: rest => spanDigits rest
  | rest => ([], rest)

/-- Reads a whole text as a decimal number. -/
def read? (characters : List Char) : Option Written :=
  let (negative, unsigned) := takeSign characters
  let (whole, afterWhole) := spanDigits unsigned
  let (fraction, afterFraction) := takeFraction afterWhole
  if whole.isEmpty ∧ fraction.isEmpty then none
  else
    (readExponent? afterFraction).map fun exponent =>
      { negative
        significand := digitsValue (whole ++ fraction)
        exponent := exponent - fraction.length }

/-- With this many digits numbers are infinite, and with this many zeros behind the point they are
zero. -/
def exponentLimit : Int := 400

/-- The nearest number of the 64-bit format. -/
def Written.toBinary64 (written : Written) : Binary64 :=
  if written.significand = 0 then .finite written.negative 0
  else
    let order : Int := written.exponent + (Nat.toDigits 10 written.significand).length
    if exponentLimit < order then .infinite written.negative
    else if order < -exponentLimit then .finite written.negative 0
    else
      let rounded :=
        if 0 ≤ written.exponent then
          Binary64.Format.double.round?
            (written.significand * tenTo written.exponent.toNat * Binary64.one) 1
        else
          Binary64.Format.double.round? (written.significand * Binary64.one)
            (tenTo (-written.exponent).toNat)
      .ofRounded written.negative rounded

end Shading.Decimal
