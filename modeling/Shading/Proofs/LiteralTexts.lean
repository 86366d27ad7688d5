import Shading.Printed.Expressions
import Shading.Proofs.Lexing

/-!
# Literals are read as they are written

A literal is written with the suffix of its kind, and a float with a fraction. The text of an integer
spells a minus sign, if there is one, and the literal of the same kind and size, but for the least
`i32`, whole numbers out of range and floats beyond the 32-bit format.
-/

namespace Shading

open List

variable {value : Binary64} {size : Nat} {text : List Char} {negative : Bool} {bound : Int}

namespace Binary64

/-- The number without its sign. -/
def magnitude : Binary64 → Binary64
  | .finite _ units => .finite false units
  | .infinite _ => .infinite false

/-- Whether the number has a minus sign; zero may have one. -/
def isNegative : Binary64 → Bool
  | .finite negative _ => negative
  | .infinite negative => negative

/-- Without a fraction, it is a whole number with a sign. -/
theorem exists_whole (whole : value.isWhole) :
    ∃ negative size, value = .finite negative (size * one) := by
  cases value with
  | finite negative units =>
    have divides : units % one = 0 := of_decide_eq_true whole
    exact ⟨negative, units / one, by rw [Nat.div_mul_cancel (Nat.dvd_of_mod_eq_zero divides)]⟩
  | infinite negative => simp [isWhole] at whole

/-- The key of a whole number lies in the scaled range. -/
theorem key_whole (negative : Bool) (size : Nat) :
    (Binary64.finite negative (size * one)).key =
      (if negative then -(size : Int) else size) * (one : Int) := by
  cases negative with
  | false => rw [key, if_neg Bool.false_ne_true, if_neg Bool.false_ne_true, Int.natCast_mul]
  | true => rw [key, if_pos rfl, if_pos rfl, Int.natCast_mul, Int.neg_mul]

/-- Whole numbers compare as their keys. -/
theorem key_whole_le (atMost : (Binary64.finite negative (size * one)).key ≤ bound * one) :
    (if negative then -(size : Int) else size) ≤ bound := by
  rw [key_whole] at atMost
  exact Int.le_of_mul_le_mul_right atMost (Int.natCast_pos.mpr one_pos)

/-- Whole numbers compare as their keys. -/
theorem le_key_whole (atLeast : bound * one ≤ (Binary64.finite negative (size * one)).key) :
    bound ≤ if negative then -(size : Int) else size := by
  rw [key_whole] at atLeast
  exact Int.le_of_mul_le_mul_right atLeast (Int.natCast_pos.mpr one_pos)

/-- The key of a whole number is negative if the number is. -/
theorem key_whole_neg (negative : Bool) (size : Nat) :
    decide ((Binary64.finite negative (size * one)).key < 0) = (negative && size != 0) := by
  have positive : (0 : Int) < (one : Int) := Int.natCast_pos.mpr one_pos
  rw [key_whole]
  cases negative with
  | false =>
    have least := Int.mul_nonneg (Int.natCast_nonneg size) (Int.natCast_nonneg one)
    rw [if_neg Bool.false_ne_true, Bool.false_and]
    exact decide_eq_false (Int.not_lt.mpr least)
  | true =>
    cases size with
    | zero =>
      rw [if_pos rfl, Int.natCast_zero, Int.neg_zero, Int.zero_mul]
      rfl
    | succ less =>
      have below : -((less + 1 : Nat) : Int) < 0 := by omega
      rw [if_pos rfl]
      exact decide_eq_true (Int.mul_neg_of_neg_of_pos below positive)

/-- Whole numbers in a range are not clamped to it. -/
theorem truncate_whole {negative : Bool} {size : Nat} {least greatest : Int}
    (atLeast : least ≤ if negative then -(size : Int) else size)
    (atMost : (if negative then -(size : Int) else size) ≤ greatest) :
    (Binary64.finite negative (size * one)).truncate least greatest =
      if negative then -(size : Int) else size := by
  simp only [truncate, Nat.mul_div_cancel _ one_pos]
  omega

end Binary64

/-- A whole number is written as sign and digits. -/
theorem toList_repr_signed (negative : Bool) (size : Nat) :
    (if negative then -(size : Int) else size).repr.toList =
      (if negative && size != 0 then ['-'] else []) ++ size.repr.toList := by
  cases negative with
  | false => rfl
  | true =>
    cases size with
    | zero => rfl
    | succ less =>
      show (Int.negSucc less).repr.toList = _
      simp [Int.repr]

namespace Decimal

namespace Digits

/-- The digits before the point. -/
def whole (digits : Digits) : List Char :=
  let text := digits.significand.repr.toList
  if 0 ≤ digits.exponent then text ++ List.replicate digits.exponent.toNat '0'
  else
    let places := (-digits.exponent).toNat
    let padded := List.replicate (places + 1 - text.length) '0' ++ text
    padded.take (padded.length - places)

/-- The digits behind the point. -/
def fraction (digits : Digits) : List Char :=
  let text := digits.significand.repr.toList
  if 0 ≤ digits.exponent then []
  else
    let places := (-digits.exponent).toNat
    let padded := List.replicate (places + 1 - text.length) '0' ++ text
    padded.drop (padded.length - places)

variable (digits : Digits)

/-- As many digits follow the point as the exponent has. -/
theorem length_fraction : (fraction digits).length = (-digits.exponent).toNat := by
  simp only [fraction]
  split
  · simp only [length_nil]
    omega
  · simp only [length_drop, length_append, length_replicate]
    omega

/-- The digits around the point are those of the number. -/
theorem whole_append_fraction : ∃ before, whole digits ++ fraction digits =
    List.replicate before '0' ++ digits.significand.repr.toList ++
      List.replicate digits.exponent.toNat '0' := by
  simp only [whole, fraction]
  split
  · exact ⟨0, by simp⟩
  · rename_i negative
    have none : digits.exponent.toNat = 0 := by omega
    exact ⟨(-digits.exponent).toNat + 1 - digits.significand.repr.toList.length, by
      rw [take_append_drop, none]; simp⟩

/-- The digits around the point are digits. -/
theorem isDigit_of_mem {digit : Char} (member : digit ∈ whole digits ++ fraction digits) :
    digit.isDigit := by
  obtain ⟨before, equal⟩ := whole_append_fraction digits
  rw [equal] at member
  simp only [mem_append, mem_replicate] at member
  rcases member with (⟨_, rfl⟩ | inside) | ⟨_, rfl⟩
  · decide
  · exact isDigit_of_mem_repr inside
  · decide

/-- A number is its digits with the point among them. -/
theorem toList_positional :
    (positional digits).toList = whole digits ++ fractionText (fraction digits) := by
  have length := length_fraction digits
  simp only [positional, whole, fraction] at length ⊢
  split
  · simp [fractionText]
  · rename_i negative
    simp only [if_neg negative] at length
    have nonempty : ∀ characters : List Char, characters.length = (-digits.exponent).toNat →
        fractionText characters = '.' :: characters := by
      intro characters same
      cases characters with
      | nil =>
        simp only [length_nil] at same
        omega
      | cons first rest => rfl
    rw [String.toList_ofList, nonempty _ length]

/-- The digits behind the point, at least one. -/
def floatFraction : List Char := if (fraction digits).isEmpty then ['0'] else fraction digits

end Digits

/-- The digits that are written for a 32-bit number. -/
def written (units : Nat) : Digits :=
  if units = 0 then ⟨0, 0⟩ else shortest .single units

end Decimal

namespace Number

open Lexer

/-- The float read from these digits. -/
def floatRead (units : Nat) : Binary64 :=
  let digits := Decimal.written units
  Decimal.Written.toBinary64
    ⟨false, Decimal.digitsValue (digits.whole ++ digits.floatFraction),
      -(digits.floatFraction.length : Int)⟩

variable (number : Number) (type : Option Ty)

/-- Whether the text of a literal starts with a minus sign. -/
def printsSign : Bool :=
  match printedKind number.kind type with
  | .i32 => number.value.key < 0
  | .u32 => false
  | .f16 | .f32 | .abstract => number.value.isNegative

/-- The float read from the text, without its sign. -/
def rereadFloat : Binary64 → Binary64
  | .finite _ units => floatRead units
  | .infinite _ => .infinite false

/-- What is read behind the sign: the whole number, or the number nearest to the digits of a float. -/
def reread : Number :=
  match printedKind number.kind type with
  | .i32 => ⟨number.value.magnitude, .i32, true⟩
  | .u32 => ⟨number.value.magnitude, .u32, true⟩
  | .f16 => ⟨rereadFloat number.value.toSingle, .f16, false⟩
  | .f32 | .abstract => ⟨rereadFloat number.value.toSingle, .abstract, false⟩

/-- A whole number whose size is in range, only an `i32` with a sign, or a float in the 32-bit
range. -/
def Legible : Prop :=
  match printedKind number.kind type with
  | .i32 => number.value.isWhole ∧ -greatestI32 * Binary64.one ≤ number.value.key ∧
      number.value.key ≤ greatestI32 * Binary64.one
  | .u32 => number.value.isWhole ∧ 0 ≤ number.value.key ∧
      number.value.key ≤ greatestU32 * Binary64.one
  | .f16 | .f32 | .abstract => number.value.toSingle.isFinite

instance : Decidable (number.Legible type) := by
  unfold Legible
  split <;> infer_instance

/-- The tokens that a literal is written with. -/
def tokens : List Token :=
  (if number.printsSign type then [.minus] else []) ++ [.number (number.reread type)]

end Number

namespace Lexer

/-- The text makes no longer operator of a sign before it. -/
def Leads (text : List Char) : Prop := ∃ first ∈ text.head?, first ≠ '>' ∧ first ≠ '='

/-- It starts with no such character. -/
theorem Leads.head_ne (leads : Leads text) (rest : List Char) :
    (text ++ rest).head? ≠ some '>' ∧ (text ++ rest).head? ≠ some '=' := by
  obtain ⟨first, head, notAngle, notEqual⟩ := leads
  have start : text.head? = some first := head
  simp [head?_append, start, notAngle, notEqual]

/-- More text may follow. -/
theorem Leads.append (leads : Leads text) (rest : List Char) : Leads (text ++ rest) := by
  obtain ⟨first, head, plain⟩ := leads
  have start : text.head? = some first := head
  exact ⟨first, by simp [head?_append, start], plain⟩

/-- Digits start no longer operator. -/
theorem leads_of_digits {digits : List Char} (nonempty : digits ≠ [])
    (all : ∀ digit ∈ digits, digit.isDigit) : Leads digits := by
  obtain ⟨first, others, rfl⟩ := exists_cons_of_ne_nil nonempty
  have digit := all first (by simp)
  refine ⟨first, by simp, ?_, ?_⟩ <;>
  · rintro rfl
    simp +decide at digit

/-- A name starts no longer operator. -/
theorem IsName.leads {name : String} (isName : IsName name) : Leads name.toList := by
  obtain ⟨first, head, starts⟩ := isName.starts
  refine ⟨first, head, ?_, ?_⟩ <;>
  · rintro rfl
    simp +decide at starts

/-- A minus sign may stand before such a text. -/
theorem spells_signed {tokens : List Token} (signed : Bool) (spells : Spells Stops text tokens)
    (leads : Leads text) :
    Spells Stops ((if signed then ['-'] else []) ++ text)
        ((if signed then [.minus] else []) ++ tokens) ∧
      Leads ((if signed then ['-'] else []) ++ text) := by
  cases signed with
  | false => exact ⟨spells, leads⟩
  | true =>
    exact ⟨spells_minus.append spells fun rest _ => (leads.head_ne rest).1,
      '-', by simp, by decide, by decide⟩

end Lexer

namespace Number

open Lexer

/-- A whole number with a suffix spells sign and size. -/
theorem spells_integer {negative : Bool} {size : Nat} {letter : Char} {kind : Kind}
    (known : suffixKind? [letter] = some kind) (small : size < twoTo 53)
    (fits : inRange kind (natural size kind).value) :
    Spells Stops ((if negative then -(size : Int) else size).repr.toList ++ [letter])
        ((if negative && size != 0 then [.minus] else []) ++ [.number (natural size kind)]) ∧
      Leads ((if negative then -(size : Int) else size).repr.toList ++ [letter]) := by
  have noPoint : letter ≠ '.' := by
    rintro rfl
    cases known
  have digits : Leads (size.repr.toList ++ [letter]) :=
    (leads_of_digits (Decimal.repr_ne_nil size) fun _ => Decimal.isDigit_of_mem_repr).append _
  have unsigned : Spells Stops (size.repr.toList ++ [letter]) [.number (natural size kind)] :=
    (spells_natural small known fits).weaken fun rest stops => ⟨stops, by simpa using noPoint⟩
  rw [toList_repr_signed, append_assoc]
  exact spells_signed _ unsigned digits

/-- Sizes in the range of a `u32` have few binary digits. -/
theorem lt_twoTo_of_le (atMost : (size : Int) ≤ greatestU32) : size < twoTo 53 := by
  have limit : 4294967296 ≤ twoTo 53 := by decide
  simp only [greatestU32] at atMost
  omega

/-- A natural number is its size. -/
theorem natural_eq (negative : Bool) (size : Nat) (kind : Kind) : natural size kind =
    ⟨(Binary64.finite negative (size * Binary64.one)).magnitude, kind, true⟩ := rfl

/-- The text of an `i32` spells its sign and its size. -/
theorem spells_i32 (whole : value.isWhole) (atLeast : -greatestI32 * Binary64.one ≤ value.key)
    (atMost : value.key ≤ greatestI32 * Binary64.one) :
    Spells Stops ((value.truncate leastWord greatestWord).repr.toList ++ ['i'])
        ((if value.key < 0 then [.minus] else []) ++ [.number ⟨value.magnitude, .i32, true⟩]) ∧
      Leads ((value.truncate leastWord greatestWord).repr.toList ++ ['i']) := by
  obtain ⟨negative, size, rfl⟩ := Binary64.exists_whole whole
  have least := Binary64.le_key_whole atLeast
  have greatest := Binary64.key_whole_le atMost
  simp only [greatestI32] at least greatest
  have bound : (size : Int) ≤ greatestI32 := by
    simp only [greatestI32]
    omega
  have truncated := @Binary64.truncate_whole negative size leastWord greatestWord
    (by simp only [leastWord]; omega) (by simp only [greatestWord]; omega)
  have sign := Binary64.key_whole_neg negative size
  have small := lt_twoTo_of_le (Int.le_trans bound (by decide))
  have spelled := @spells_integer negative size 'i' .i32 rfl small (inRange_natural_i32 bound)
  rw [← sign, natural_eq negative] at spelled
  rw [truncated]
  simpa using spelled

/-- The text of a `u32` spells its size. -/
theorem spells_u32 (whole : value.isWhole) (atLeast : 0 ≤ value.key)
    (atMost : value.key ≤ greatestU32 * Binary64.one) :
    Spells Stops ((value.truncate 0 greatestUnsignedWord).repr.toList ++ ['u'])
        [.number ⟨value.magnitude, .u32, true⟩] ∧
      Leads ((value.truncate 0 greatestUnsignedWord).repr.toList ++ ['u']) := by
  obtain ⟨negative, size, rfl⟩ := Binary64.exists_whole whole
  have scaled : 0 * (Binary64.one : Int) ≤
      (Binary64.finite negative (size * Binary64.one)).key := by rwa [Int.zero_mul]
  have least := Binary64.le_key_whole scaled
  have greatest := Binary64.key_whole_le atMost
  have bound : (size : Int) ≤ greatestU32 := by
    simp only [greatestU32] at greatest ⊢
    omega
  have truncated := @Binary64.truncate_whole negative size 0 greatestUnsignedWord least
    (by simp only [greatestUnsignedWord, greatestU32] at greatest ⊢; omega)
  have unsigned : (negative && size != 0) = false := by
    cases negative with
    | false => rfl
    | true =>
      have zero : size = 0 := by
        rw [if_pos rfl] at least
        omega
      rw [zero]
      rfl
  have small := lt_twoTo_of_le bound
  have spelled := @spells_integer negative size 'u' .u32 rfl small (inRange_natural_u32 bound)
  rw [unsigned, natural_eq negative] at spelled
  rw [truncated]
  simpa using spelled

/-- A legible integer spells its sign and what is read. -/
theorem spells {number : Number} {type : Option Ty} (legible : number.Legible type)
    (integer : number.kind.isInteger := by assumption) :
    Spells Stops (number.text type).toList (number.tokens type) ∧
      Leads (number.text type).toList := by
  obtain ⟨value, kind, integral⟩ := number
  unfold text tokens printsSign reread
  cases kind with
  | i32 => simpa [printedKind] using spells_i32 legible.1 legible.2.1 legible.2.2
  | u32 => simpa [printedKind] using spells_u32 legible.1 legible.2.1 legible.2.2
  | abstract | f16 | f32 => cases integer

end Number

end Shading
