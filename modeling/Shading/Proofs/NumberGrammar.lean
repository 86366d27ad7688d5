import Mathlib.Algebra.Order.Field.Power
import Mathlib.Data.Rat.Cast.Order
import Mathlib.Tactic.NormNum
import Mathlib.Tactic.Positivity
import Mathlib.Tactic.Ring
import Shading.Proofs.Tiles

/-!
# The grammar and the range of numeric literals

The lexer takes the text of a number, and the reader of literals divides it again. What is taken and
read is a numeral, and a numeral is read unless its value is out of range. The range is tested behind
the rounding to the 64-bit format, but says what the exact value says: rounding moves no whole number
across the greatest integers, and leaves everything finite below the middle between the greatest number
of the format and `2 ^ 1024`.
-/

namespace Shading

open List

variable {numerator denominator value exponent : Nat} {first : Char} {rest whole : List Char}
  {written : Written} {literal : Number}

namespace Decimal

/-- A decimal number is digits, perhaps a fraction and perhaps an exponent. -/
theorem exists_parts (digit : first.isDigit) (read : read? (first :: rest) = some written) :
    ∃ whole point fraction exponent, whole ≠ [] ∧ (∀ digit ∈ whole, digit.isDigit) ∧
      (∀ digit ∈ fraction, digit.isDigit) ∧ (point = [] ∧ fraction = [] ∨ point = ['.']) ∧
        first :: rest = whole ++ (point ++ (fraction ++ exponentText exponent)) := by
  have divided (text : List Char) : text.takeWhile Char.isDigit ++ text.dropWhile Char.isDigit = text :=
    takeWhile_append_dropWhile
  have digits (text : List Char) : ∀ digit ∈ text.takeWhile Char.isDigit, digit.isDigit :=
    all_eq_true.mp all_takeWhile
  have nonempty := @Lexer.takeWhile_ne_nil _ first rest digit
  simp only [read?, takeSign_digit rest digit, spanDigits] at read
  have whole := divided (first :: rest)
  generalize (first :: rest).dropWhile Char.isDigit = behind at read whole
  have pointed : ∃ point, (point = [] ∧ (takeFraction behind).1 = [] ∨ point = ['.']) ∧
      (∀ digit ∈ (takeFraction behind).1, digit.isDigit) ∧
        behind = point ++ ((takeFraction behind).1 ++ (takeFraction behind).2) := by
    unfold takeFraction
    split
    · rename_i others
      exact ⟨['.'], .inr rfl, digits others, congrArg ('.' :: ·) (divided others).symm⟩
    · exact ⟨[], .inl ⟨rfl, rfl⟩, by simp, rfl⟩
  obtain ⟨point, isPoint, fractionDigits, parts⟩ := pointed
  split at read
  · cases read
  · obtain ⟨value, exponentRead, -⟩ := Option.map_eq_some_iff.mp read
    obtain ⟨exponent, text⟩ := exists_exponent exponentRead
    refine ⟨_, point, _, exponent, nonempty, digits _, fractionDigits, isPoint, ?_⟩
    rw [← text, ← parts, whole]

end Decimal

namespace Lexer

/-- A number goes on behind a point if a digit follows. -/
theorem numberLength_point (wholeDigits : ∀ digit ∈ whole, digit.isDigit) (rest : List Char) :
    if rest.head?.any Char.isDigit then whole.length + 2 ≤ numberLength (whole ++ '.' :: rest)
    else numberLength (whole ++ '.' :: rest) = whole.length := by
  have taken : (whole ++ '.' :: rest).takeWhile Char.isDigit = whole :=
    congrArg Prod.fst (Decimal.spanDigits_append wholeDigits (by rintro _ ⟨⟩; rfl))
  unfold numberLength
  dsimp only
  rw [taken, drop_left, fractionLength]
  cases rest with
  | nil => simp [exponentLength, continuesWord]
  | cons next others =>
    cases digit : next.isDigit with
    | false =>
      have noPoint : continuesWord '.' = false := rfl
      simp [digit, exponentLength, noPoint]
    | true =>
      simp [digit]
      omega

/-- In the text of a number a digit follows the point. -/
theorem digit_behind_point {input others : List Char} (wholeDigits : ∀ digit ∈ whole, digit.isDigit)
    (text : input.take (numberLength input) = whole ++ '.' :: others) :
    others.head?.any Char.isDigit := by
  obtain ⟨rest, rfl⟩ : ∃ rest, input = whole ++ '.' :: rest := by
    refine ⟨others ++ input.drop (numberLength input), ?_⟩
    rw [← cons_append, ← append_assoc, ← text, take_append_drop]
  have length := numberLength_point wholeDigits rest
  split at length
  · rename_i digit
    obtain ⟨more, enough⟩ := Nat.exists_eq_add_of_le length
    rw [enough, Nat.add_assoc, take_length_add_append, append_cancel_left_eq] at text
    cases rest with
    | nil => cases digit
    | cons next rest =>
      rw [Nat.add_comm 2 more, take_succ_cons, take_succ_cons] at text
      rw [← (List.cons.inj text).2]
      exact digit
  · rw [length, take_left] at text
    simp at text

end Lexer

namespace Numeral

/-- What is read as a literal is a numeral. -/
theorem exists_text (digit : first.isDigit) (read : Number.read (String.ofList
      ((first :: rest).take (Lexer.numberLength (first :: rest)))) = .ok literal) :
    ∃ numeral : Numeral,
      numeral.text = (first :: rest).take (Lexer.numberLength (first :: rest)) := by
  have positive := Lexer.numberLength_pos rest digit
  obtain ⟨count, length⟩ := Nat.exists_eq_add_of_lt positive
  obtain ⟨written, known, integer, decimal, -, -⟩ := Number.read_eq_ok_iff.mp read
  rw [String.toList_ofList] at known integer decimal
  have parts := Number.splitSuffix_whole true
    ((first :: rest).take (Lexer.numberLength (first :: rest)))
  have body : ∃ more, (Number.splitSuffix true
      ((first :: rest).take (Lexer.numberLength (first :: rest)))).1 = first :: more := by
    rw [length, Nat.zero_add, take_succ_cons]
    exact ⟨_, Number.splitSuffix_digit digit _⟩
  obtain ⟨more, starts⟩ := body
  rw [starts] at integer decimal parts
  obtain ⟨whole, point, fraction, exponent, nonempty, wholeDigits, fractionDigits, isPoint, split⟩ :=
    Decimal.exists_parts digit decimal
  rw [Number.eq_suffix known] at parts
  have pointed : point ++ (fraction ++ Decimal.exponentText exponent) =
      Decimal.fractionText fraction ++ Decimal.exponentText exponent := by
    rcases isPoint with ⟨rfl, rfl⟩ | rfl
    · rfl
    · rw [split, append_assoc, append_assoc, singleton_append] at parts
      have behind := Lexer.digit_behind_point wholeDigits parts.symm
      cases fraction with
      | cons next others => rfl
      | nil =>
        have noDigit : ((Decimal.exponentText exponent ++ literal.kind.suffix).head?.any
            Char.isDigit) = false := by
          cases exponent with
          | none => cases literal.kind <;> rfl
          | some exponent => exact exponent.isDigit_mark
        rw [nil_append, noDigit] at behind
        cases behind
  rw [pointed] at split
  have plain (isInteger : literal.kind.isInteger) : fraction = [] ∧ exponent = none := by
    have told := integer isInteger
    rw [split, Number.isIntegral_append wholeDigits] at told
    simpa using told
  refine ⟨⟨whole, fraction, exponent, literal.kind, nonempty, wholeDigits, fractionDigits, plain⟩, ?_⟩
  rw [← parts, split]
  rfl

end Numeral

/-- A quotient is rounded down up to the middle, there if even. -/
theorem roundQuotient_eq (numerator denominator : Nat) : roundQuotient numerator denominator =
    if 2 * (numerator % denominator) < denominator ∨
        2 * (numerator % denominator) = denominator ∧ numerator / denominator % 2 = 0 then
      numerator / denominator
    else numerator / denominator + 1 := by
  unfold roundQuotient
  grind

/-- What is below the middle behind an odd number is rounded to it. -/
theorem roundQuotient_le_iff {numerator denominator bound : Nat} (positive : 0 < denominator)
    (odd : bound % 2 = 1) : roundQuotient numerator denominator ≤ bound ↔
      2 * numerator < (2 * bound + 1) * denominator := by
  have divided := Nat.div_add_mod numerator denominator
  have remainder := Nat.mod_lt numerator positive
  have expanded : (2 * bound + 1) * denominator = 2 * (denominator * bound) + denominator := by
    rw [Nat.add_mul, Nat.one_mul, Nat.mul_assoc, Nat.mul_comm bound]
  rw [roundQuotient_eq, expanded]
  generalize numerator / denominator = quotient at divided
  generalize numerator % denominator = rest at divided remainder
  rcases Nat.lt_trichotomy quotient bound with below | rfl | above
  · have scaled := Nat.mul_le_mul_left denominator below
    rw [Nat.mul_succ] at scaled
    split <;> omega
  · split <;> omega
  · have scaled := Nat.mul_le_mul_left denominator above
    rw [Nat.mul_succ] at scaled
    split <;> omega

/-- Numbers have no more binary digits than they need. -/
theorem twoTo_bitLength_le (nonzero : value ≠ 0) : twoTo (bitLength value - 1) ≤ value := by
  rw [bitLength, if_neg nonzero]
  exact Nat.log2_self_le nonzero

/-- From a power of two on, they have more than its exponent. -/
theorem lt_bitLength (atLeast : twoTo exponent ≤ value) : exponent < bitLength value := by
  have nonzero : value ≠ 0 := Nat.ne_of_gt (Nat.lt_of_lt_of_le (twoTo_pos exponent) atLeast)
  rw [bitLength, if_neg nonzero]
  exact Nat.lt_succ_of_le ((Nat.le_log2 nonzero).mpr atLeast)

namespace Binary64

open Format (double)

/-- What is not below a power of two is not rounded below it. -/
theorem twoTo_le_rounded (atLeast : twoTo exponent ≤ numerator / denominator) :
    twoTo exponent ≤ roundQuotient numerator
        (denominator * twoTo (double.step (numerator / denominator))) *
      twoTo (double.step (numerator / denominator)) := by
  have floor : numerator / denominator / twoTo (double.step (numerator / denominator)) ≤
      roundQuotient numerator
        (denominator * twoTo (double.step (numerator / denominator))) := by
    rw [roundQuotient_eq, Nat.div_div_eq_div_mul]
    split <;> omega
  generalize numerator / denominator = quotient at atLeast floor ⊢
  refine Nat.le_trans ?_ (Nat.mul_le_mul_right _ floor)
  have nonzero : quotient ≠ 0 := Nat.ne_of_gt (Nat.lt_of_lt_of_le (twoTo_pos exponent) atLeast)
  -- The greatest power of two up to the quotient is a multiple of the spacing.
  have digits : exponent ≤ bitLength quotient - 1 := Nat.le_sub_one_of_lt (lt_bitLength atLeast)
  have fine : double.step quotient ≤ bitLength quotient - 1 := by
    simp only [Format.step, double]
    omega
  obtain ⟨count, multiple⟩ := twoTo_dvd fine
  calc twoTo exponent ≤ twoTo (bitLength quotient - 1) := twoTo_le digits
    _ = count * twoTo (double.step quotient) := by rw [multiple, Nat.mul_comm]
    _ ≤ quotient / twoTo (double.step quotient) * twoTo (double.step quotient) := by
        refine Nat.mul_le_mul_right _ ((Nat.le_div_iff_mul_le (twoTo_pos _)).mpr ?_)
        rw [Nat.mul_comm, ← multiple]
        exact twoTo_bitLength_le nonzero

/-- A quotient is too large if it is rounded to the limit. -/
theorem Format.round?_eq_none {format : Format} :
    format.round? numerator denominator = none ↔
      twoTo format.limit ≤ roundQuotient numerator
          (denominator * twoTo (format.step (numerator / denominator))) *
        twoTo (format.step (numerator / denominator)) := by
  unfold Format.round?
  dsimp only
  split
  · rename_i below
    exact iff_of_false (Option.some_ne_none _) (Nat.not_le.mpr below)
  · rename_i above
    exact iff_of_true rfl (Nat.not_lt.mp above)

/-- What is not below a power of two is read so. -/
theorem twoTo_le_key_ofRounded (atLeast : twoTo exponent ≤ numerator / denominator)
    (small : exponent ≤ 2098) :
    (twoTo exponent : Int) ≤ (ofRounded false (double.round? numerator denominator)).key := by
  have rounded := twoTo_le_rounded atLeast
  have limit : twoTo exponent ≤ twoTo 2098 := twoTo_le small
  unfold Format.round?
  dsimp only
  split
  · exact Int.ofNat_le.mpr rounded
  · exact Int.ofNat_le.mpr limit

/-- From the middle before the limit on, it is too large. -/
theorem round?_eq_none_iff (positive : 0 < denominator) :
    double.round? numerator denominator = none ↔
      (twoTo 2098 - twoTo 2044) * denominator ≤ numerator := by
  have low := Nat.div_mul_le_self numerator denominator
  have limit : double.limit = 2098 := rfl
  by_cases small : numerator / denominator < twoTo 2097
  · have step : double.step (numerator / denominator) ≤ 2044 := by
      have digits := bitLength_le small
      simp only [Format.step, double]
      omega
    have room : twoTo 2097 + twoTo 2044 < twoTo 2098 := by decide +kernel
    have fits : numerator / denominator + twoTo (double.step (numerator / denominator)) <
        twoTo double.limit := by
      have spacing := twoTo_le step
      rw [limit]
      omega
    obtain ⟨units, rounded⟩ := Format.exists_round? fits
    have below : numerator < (twoTo 2098 - twoTo 2044) * denominator := by
      refine (Nat.div_lt_iff_lt_mul positive).mp ?_
      omega
    rw [rounded]
    exact iff_of_false (Option.some_ne_none _) (Nat.not_le.mpr below)
  · rw [Format.round?_eq_none, limit]
    by_cases large : twoTo 2098 ≤ numerator / denominator
    · have reached := (Nat.le_div_iff_mul_le positive).mp large
      refine iff_of_true (twoTo_le_rounded large) (Nat.le_trans (Nat.mul_le_mul_right _ ?_) reached)
      exact Nat.sub_le ..
    · have digits : bitLength (numerator / denominator) = 2098 := by
        exact Nat.le_antisymm (bitLength_le (Nat.not_le.mp large)) (lt_bitLength (Nat.not_lt.mp small))
      have step : double.step (numerator / denominator) = 2045 := by
        rw [Format.step, digits]
        rfl
      have middle := @roundQuotient_le_iff numerator (denominator * twoTo 2045) (twoTo 53 - 1)
        (Nat.mul_pos positive (twoTo_pos _)) (by decide)
      have greatest : twoTo 2098 = twoTo 53 * twoTo 2045 := twoTo_add 53 2045
      have doubled : twoTo 2045 = 2 * twoTo 2044 := twoTo_succ 2044
      have bound : (2 * (twoTo 53 - 1) + 1) * (denominator * twoTo 2045) =
          2 * ((twoTo 2098 - twoTo 2044) * denominator) := by
        obtain ⟨count, one⟩ := Nat.exists_eq_add_of_lt (twoTo_pos 53)
        have whole : twoTo 2098 = (2 * count + 1) * twoTo 2044 + twoTo 2044 := by
          rw [greatest, doubled, one]
          ring
        rw [whole, doubled, one, Nat.add_sub_cancel, Nat.add_sub_cancel]
        ring
      rw [bound] at middle
      rw [step, greatest, Nat.mul_le_mul_right_iff (twoTo_pos _), ← greatest]
      have some := twoTo_pos 53
      omega

/-- The middle between the greatest number and `2 ^ 1024`, the least that is rounded to infinity. -/
def overflow : ℚ := 2 ^ 1024 - 2 ^ 970

/-- The least overflow in units. -/
theorem overflow_mul_one : overflow * (one : ℚ) = ((twoTo 2098 - twoTo 2044 : Nat) : ℚ) := by
  have smaller : twoTo 2044 ≤ twoTo 2098 := twoTo_le (by decide)
  have power (exponent : Nat) : (twoTo exponent : ℚ) = 2 ^ exponent := by
    rw [twoTo, Nat.pow_eq]
    exact Nat.cast_pow ..
  rw [Nat.cast_sub smaller, one_eq, power, power, power, overflow, sub_mul, ← pow_add, ← pow_add]

/-- The least overflow is more than one. -/
theorem one_lt_overflow : 1 < overflow := by
  have half : (2 : ℚ) ^ 970 ≤ 2 ^ 1022 := pow_le_pow_right₀ (by norm_num) (by decide)
  have whole : (2 : ℚ) ^ 1024 = 4 * 2 ^ 1022 := by rw [pow_add 2 2 1022]; norm_num
  have some : (1 : ℚ) ≤ 2 ^ 1022 := one_le_pow₀ (by norm_num)
  rw [overflow, whole, lt_sub_iff_add_lt]
  calc (1 : ℚ) + 2 ^ 970 ≤ 2 ^ 1022 + 2 ^ 1022 := add_le_add some half
    _ = 2 * 2 ^ 1022 := (two_mul _).symm
    _ < 4 * 2 ^ 1022 := mul_lt_mul_of_pos_right (by norm_num) (by positivity)

/-- The least overflow has at most 400 digits. -/
theorem overflow_lt : overflow < 10 ^ (400 : ℤ) := by
  have large : (2 : ℕ) ^ 1024 < 10 ^ 400 := by decide +kernel
  have cast : ((2 ^ 1024 : ℕ) : ℚ) < ((10 ^ 400 : ℕ) : ℚ) := Nat.cast_lt.mpr large
  rw [Nat.cast_pow, Nat.cast_pow] at cast
  have some : (0 : ℚ) < 2 ^ 970 := by positivity
  exact lt_of_le_of_lt (sub_le_self _ some.le) cast

/-- A quotient can be rounded if it lies below that. -/
theorem isFinite_ofRounded_iff (positive : 0 < denominator) {exact : ℚ}
    (same : exact * (one : ℚ) * denominator = numerator) (negative : Bool) :
    (ofRounded negative (double.round? numerator denominator)).isFinite ↔ exact < overflow := by
  have units : (0 : ℚ) < one := Nat.cast_pos.mpr one_pos
  have parts : (0 : ℚ) < denominator := Nat.cast_pos.mpr positive
  have finite (rounded : Option Nat) : (ofRounded negative rounded).isFinite ↔ ¬ rounded = none := by
    cases rounded <;> simp [ofRounded, isFinite]
  rw [finite, round?_eq_none_iff positive, not_le, ← @Nat.cast_lt ℚ, ← same, Nat.cast_mul,
    ← overflow_mul_one, mul_lt_mul_iff_left₀ parts, mul_lt_mul_iff_left₀ units]

end Binary64

namespace Decimal

/-- The exact value of a decimal number without its sign. -/
def Written.exact (written : Written) : ℚ := written.significand * 10 ^ written.exponent

/-- Powers of ten are those of the rationals. -/
theorem cast_tenTo (exponent : Nat) : (tenTo exponent : ℚ) = 10 ^ exponent := by
  rw [tenTo, Nat.pow_eq]
  exact Nat.cast_pow ..

/-- A decimal number has the size of its digits and exponent. -/
theorem exact_bounds (nonzero : written.significand ≠ 0) :
    (10 : ℚ) ^ (written.exponent + (Nat.toDigits 10 written.significand).length - 1) ≤ written.exact ∧
      written.exact < 10 ^ (written.exponent + (Nat.toDigits 10 written.significand).length) := by
  have some := length_pos_iff.mpr (@Nat.toDigits_ne_nil written.significand 10)
  have high := (Nat.length_toDigits_le_iff (by decide) some).mp
    (Nat.le_refl (Nat.toDigits 10 written.significand).length)
  have low : 10 ^ ((Nat.toDigits 10 written.significand).length - 1) ≤ written.significand := by
    rcases Nat.eq_zero_or_pos ((Nat.toDigits 10 written.significand).length - 1) with one | more
    · rw [one]
      exact Nat.pos_of_ne_zero nonzero
    · refine Nat.not_lt.mp fun less => ?_
      have shorter := (Nat.length_toDigits_le_iff (by decide) more).mpr less
      omega
  generalize (Nat.toDigits 10 written.significand).length = count at some high low ⊢
  have power : (0 : ℚ) < 10 ^ written.exponent := by positivity
  have ten : (10 : ℚ) ≠ 0 := by norm_num
  have split : written.exponent + (count : ℤ) - 1 = ((count - 1 : ℕ) : ℤ) + written.exponent := by omega
  rw [Written.exact, split, add_comm written.exponent, zpow_add₀ ten, zpow_add₀ ten, zpow_natCast,
    zpow_natCast, mul_le_mul_iff_left₀ power, mul_lt_mul_iff_left₀ power]
  exact_mod_cast And.intro low high

/-- A decimal number is finite if it lies below that. -/
theorem isFinite_toBinary64_iff (written : Written) :
    written.toBinary64.isFinite ↔ written.exact < Binary64.overflow := by
  unfold Written.toBinary64
  split
  · rename_i zero
    refine iff_of_true rfl ?_
    rw [Written.exact, zero, Nat.cast_zero, zero_mul]
    exact zero_lt_one.trans Binary64.one_lt_overflow
  · rename_i nonzero
    obtain ⟨low, high⟩ := exact_bounds nonzero
    dsimp only
    split
    · rename_i large
      refine iff_of_false (by simp [Binary64.isFinite]) (not_lt.mpr ?_)
      calc Binary64.overflow ≤ 10 ^ (400 : ℤ) := Binary64.overflow_lt.le
        _ ≤ 10 ^ (written.exponent + (Nat.toDigits 10 written.significand).length - 1) :=
            zpow_le_zpow_right₀ (by norm_num) (Int.le_sub_one_of_lt large)
        _ ≤ written.exact := low
    · split
      · rename_i small
        refine iff_of_true rfl ?_
        calc written.exact < 10 ^ (written.exponent + (Nat.toDigits 10 written.significand).length) := high
          _ ≤ 10 ^ (0 : ℤ) := zpow_le_zpow_right₀ (by norm_num) (by unfold exponentLimit at small; omega)
          _ = 1 := zpow_zero _
          _ < Binary64.overflow := Binary64.one_lt_overflow
      · split
        · rename_i whole
          refine Binary64.isFinite_ofRounded_iff Nat.one_pos ?_ _
          have power : (10 : ℚ) ^ written.exponent = 10 ^ written.exponent.toNat := by
            rw [← zpow_natCast, Int.toNat_of_nonneg whole]
          rw [Written.exact, power, Nat.cast_mul, Nat.cast_mul, cast_tenTo, Nat.cast_one, mul_one]
        · rename_i part
          have positive : 0 < tenTo (-written.exponent).toNat := Nat.pow_pos (by decide)
          refine Binary64.isFinite_ofRounded_iff positive ?_ _
          have power : (10 : ℚ) ^ written.exponent * 10 ^ (-written.exponent).toNat = 1 := by
            rw [← zpow_natCast, Int.toNat_of_nonneg (by omega), zpow_neg]
            exact mul_inv_cancel₀ (by positivity)
          rw [Written.exact, Nat.cast_mul, cast_tenTo, mul_right_comm,
            mul_assoc (written.significand : ℚ), power, mul_one]

/-- Bounds of at most 53 binary digits compare exactly. -/
theorem key_toBinary64_le_iff {bound : Nat} (small : bound < twoTo 53) :
    (Written.toBinary64 ⟨false, value, 0⟩).key ≤ (bound : Int) * (Binary64.one : Int) ↔
      value ≤ bound := by
  by_cases exact : value < twoTo 53
  · rw [toBinary64_whole exact]
    change ((value * Binary64.one : Nat) : Int) ≤ _ ↔ _
    rw [← Int.natCast_mul, Int.ofNat_le, Nat.mul_le_mul_right_iff Binary64.one_pos]
  · have large := Nat.not_lt.mp exact
    have product : twoTo 1127 = twoTo 53 * Binary64.one := by rw [Binary64.one, ← twoTo_add]
    have beyond : bound * Binary64.one < twoTo 1127 := by
      rw [product]
      exact Nat.mul_lt_mul_of_pos_right small Binary64.one_pos
    have reached : (twoTo 1127 : Int) ≤ (Written.toBinary64 ⟨false, value, 0⟩).key := by
      have nonzero : value ≠ 0 := Nat.ne_of_gt (Nat.lt_of_lt_of_le (twoTo_pos 53) large)
      by_cases atMost : exponentLimit < 0 + ((Nat.toDigits 10 value).length : Int)
      · have limit : twoTo 1127 ≤ twoTo 2098 := twoTo_le (by decide)
        rw [Written.toBinary64, if_neg nonzero, if_pos atMost]
        exact Int.ofNat_le.mpr limit
      · rw [toBinary64_of_nonneg nonzero atMost (Int.le_refl 0)]
        refine Binary64.twoTo_le_key_ofRounded ?_ (by decide)
        have scale : value * tenTo (Int.toNat 0) = value := Nat.mul_one value
        rw [scale, Nat.div_one, product]
        exact Nat.mul_le_mul_right _ large
    refine iff_of_false ?_ (Nat.not_le.mpr (Nat.lt_of_lt_of_le small large))
    rw [← Int.natCast_mul]
    omega

end Decimal

namespace Numeral

open Number

variable (numeral : Numeral)

/-- An integer is at most the greatest one, and a float is not rounded to infinity. -/
def InRange : Prop :=
  match numeral.kind with
  | .i32 => numeral.written.exact ≤ 2 ^ 31 - 1
  | .u32 => numeral.written.exact ≤ 2 ^ 32 - 1
  | .abstract | .f32 | .f16 => numeral.written.exact < Binary64.overflow

/-- The literal that a numeral stands for. -/
structure Denotes (literal : Number) : Prop where
  kind : literal.kind = numeral.kind
  integral : literal.integral ↔ numeral.fraction = [] ∧ numeral.exponent = none
  value : literal.value = numeral.written.toBinary64
  exact : numeral.kind.isInteger →
    literal.value = .finite false (Decimal.digitsValue numeral.whole * Binary64.one)

/-- An integer is its digits. -/
theorem written_of_isInteger (isInteger : numeral.kind.isInteger) :
    numeral.written = ⟨false, Decimal.digitsValue numeral.whole, 0⟩ := by
  obtain ⟨fraction, exponent⟩ := numeral.integer isInteger
  rw [written, fraction, exponent, append_nil]
  rfl

/-- The exact value of an integer is that of its digits. -/
theorem exact_of_isInteger (isInteger : numeral.kind.isInteger) :
    numeral.written.exact = Decimal.digitsValue numeral.whole := by
  rw [numeral.written_of_isInteger isInteger, Decimal.Written.exact, zpow_zero, mul_one]

/-- The test behind the rounding tells what the exact value says. -/
theorem inRange_iff : inRange numeral.kind numeral.written.toBinary64 ↔ numeral.InRange := by
  have whole (bound : Nat) (small : bound < twoTo 53) {greatest : ℚ} (same : (bound : ℚ) = greatest)
      (isInteger : numeral.kind.isInteger) :
      numeral.written.toBinary64.key ≤ (bound : Int) * (Binary64.one : Int) ↔
        numeral.written.exact ≤ greatest := by
    rw [← same, numeral.exact_of_isInteger isInteger, numeral.written_of_isInteger isInteger,
      Decimal.key_toBinary64_le_iff small, Nat.cast_le]
  unfold inRange InRange
  cases kind : numeral.kind with
  | i32 =>
    rw [decide_eq_true_iff]
    exact whole 2147483647 (by decide) (by norm_num) (by rw [kind]; rfl)
  | u32 =>
    rw [decide_eq_true_iff]
    exact whole 4294967295 (by decide) (by norm_num) (by rw [kind]; rfl)
  | abstract | f32 | f16 => exact Decimal.isFinite_toBinary64_iff _

/-- What is read is the literal that it stands for. -/
theorem denotes_of_read (read : read (String.ofList numeral.text) = .ok literal) :
    numeral.Denotes literal := by
  obtain ⟨fits, rfl⟩ := numeral.read_text_iff.mp read
  refine ⟨rfl, by simp [isPlain], rfl, fun isInteger => ?_⟩
  have most : Decimal.digitsValue numeral.whole < twoTo 53 := by
    have range := numeral.inRange_iff.mp fits
    unfold InRange at range
    rw [numeral.exact_of_isInteger isInteger] at range
    refine Nat.cast_lt.mp (lt_of_le_of_lt ?_ (by norm_num [twoTo] : (2 ^ 32 - 1 : ℚ) < (twoTo 53 : ℕ)))
    cases kind : numeral.kind <;> rw [kind] at isInteger range
    case i32 => exact range.trans (by norm_num)
    case u32 => exact range
    all_goals cases isInteger
  rw [numeral.written_of_isInteger isInteger, Decimal.toBinary64_whole most]

end Numeral

/-- Among the texts taken as numbers, exactly the numerals whose value fits their kind are read,
each as the literal it stands for. -/
theorem read_number_iff_numeral {first : Char} {rest text : List Char} (digit : first.isDigit)
    (taken : (first :: rest).take (Lexer.numberLength (first :: rest)) = text) :
    ((∃ literal, Number.read (String.ofList text) = .ok literal) ↔
        ∃ numeral : Numeral, numeral.text = text ∧ numeral.InRange) ∧
      ∀ literal, Number.read (String.ofList text) = .ok literal →
        ∀ numeral : Numeral, numeral.text = text → numeral.Denotes literal := by
  refine ⟨⟨?_, ?_⟩, ?_⟩
  · rintro ⟨literal, read⟩
    rw [← taken] at read
    obtain ⟨numeral, same⟩ := Numeral.exists_text digit read
    rw [← same] at read
    refine ⟨numeral, same.trans taken, numeral.inRange_iff.mp ?_⟩
    exact (numeral.read_text_iff.mp read).1
  · rintro ⟨numeral, rfl, range⟩
    exact ⟨_, numeral.read_text_iff.mpr ⟨numeral.inRange_iff.mpr range, rfl⟩⟩
  · rintro literal read numeral rfl
    exact numeral.denotes_of_read read

/-- The greatest integer is read, also behind a zero. -/
theorem greatest_behind_zero_is_read :
    '0'.isDigit ∧
      ('0' :: "4294967295u]".toList).take (Lexer.numberLength ('0' :: "4294967295u]".toList)) =
        "04294967295u".toList ∧
      ∃ literal, Number.read (String.ofList "04294967295u".toList) = .ok literal ∧
        literal.kind = .u32 ∧ literal.integral ∧
          literal.value = .finite false (4294967295 * Binary64.one) := by
  have taken : ('0' :: "4294967295u]".toList).take (Lexer.numberLength ('0' :: "4294967295u]".toList)) =
      "04294967295u".toList := by decide +kernel
  obtain ⟨accepted, denoted⟩ := read_number_iff_numeral (by decide) taken
  let numeral : Numeral := ⟨"04294967295".toList, [], none, .u32, by simp,
    all_eq_true.mp (by decide), by simp, by simp⟩
  have text : numeral.text = "04294967295u".toList := by decide +kernel
  have value : Decimal.digitsValue numeral.whole = 4294967295 := by decide +kernel
  have range : numeral.InRange := by
    change numeral.written.exact ≤ 2 ^ 32 - 1
    rw [numeral.exact_of_isInteger rfl, value]
    norm_num
  obtain ⟨literal, read⟩ := accepted.mpr ⟨numeral, text, range⟩
  have meaning := denoted literal read numeral text
  refine ⟨by decide, taken, literal, read, meaning.kind, meaning.integral.mpr ⟨rfl, rfl⟩, ?_⟩
  rw [meaning.exact rfl, value]

end Shading
