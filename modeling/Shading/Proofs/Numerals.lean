import Shading.Number

/-!
# Reading numerals

A numeral of digits with an optional fraction, exponent and suffix letter is read as the literal it
writes. Whole numbers of at most 53 binary digits are read without rounding.
-/

namespace Shading

open List

variable {exponent larger numerator denominator : Nat} {format : Format} {first : Char}
  {whole : List Char} {literal : Number}

/-- Powers of two are positive. -/
theorem twoTo_pos (exponent : Nat) : 0 < twoTo exponent := Nat.two_pow_pos exponent

/-- Powers of two grow with the exponent. -/
theorem twoTo_le (atMost : exponent ≤ larger) : twoTo exponent ≤ twoTo larger :=
  Nat.pow_le_pow_right (by decide) atMost

/-- Smaller powers of two divide larger ones. -/
theorem twoTo_dvd (atMost : exponent ≤ larger) : twoTo exponent ∣ twoTo larger :=
  Nat.pow_dvd_pow 2 atMost

/-- The next power of two is twice as large. -/
theorem twoTo_succ (exponent : Nat) : twoTo (exponent + 1) = 2 * twoTo exponent := by
  rw [twoTo, Nat.pow_eq, Nat.pow_succ, Nat.mul_comm]
  rfl

/-- Powers of two multiply as exponents add. -/
theorem twoTo_add (left right : Nat) : twoTo (left + right) = twoTo left * twoTo right :=
  Nat.pow_add 2 left right

/-- Scaling by a power of two adds as many binary digits. -/
theorem mul_twoTo_lt {value digits : Nat} (small : value < twoTo digits) (shift : Nat) :
    value * twoTo shift < twoTo (digits + shift) := by
  rw [twoTo_add]
  exact Nat.mul_lt_mul_of_pos_right small (twoTo_pos shift)

/-- A multiple is divided without rounding. -/
theorem roundQuotient_mul_of_dvd (positive : 0 < denominator) (divides : denominator ∣ numerator) :
    roundQuotient numerator denominator * denominator = numerator := by
  obtain ⟨quotient, rfl⟩ := divides
  simp [roundQuotient, Nat.mul_div_cancel_left _ positive, positive, Nat.mul_comm]

/-- Rounding adds at most one. -/
theorem roundQuotient_le (numerator denominator : Nat) :
    roundQuotient numerator denominator ≤ numerator / denominator + 1 := by
  simp only [roundQuotient]
  split
  · omega
  · split
    · omega
    · split <;> omega

/-- Below a power of two, its exponent suffices. -/
theorem bitLength_le {value : Nat} (below : value < twoTo exponent) :
    bitLength value ≤ exponent := by
  unfold bitLength
  split
  · exact Nat.zero_le _
  · rename_i nonzero
    exact (Nat.log2_lt nonzero).mpr below

namespace Binary64

/-- One is that many units. -/
theorem one_eq : one = twoTo 1074 := rfl

/-- One is positive. -/
theorem one_pos : 0 < one := twoTo_pos 1074

/-- A number of a format is not rounded. -/
theorem Format.round?_exact {units : Nat} (whole : twoTo (format.step units) ∣ units)
    (below : units < twoTo format.limit) : format.round? units 1 = some units := by
  have rounded := roundQuotient_mul_of_dvd (twoTo_pos (format.step units)) whole
  unfold round?
  simp only [Nat.div_one, Nat.one_mul, rounded]
  exact if_pos below

/-- What is below the limit by a step can be rounded. -/
theorem Format.exists_round?
    (below : numerator / denominator + twoTo (format.step (numerator / denominator)) <
      twoTo format.limit) : ∃ units, format.round? numerator denominator = some units := by
  have rounded : roundQuotient numerator
        (denominator * twoTo (format.step (numerator / denominator))) *
      twoTo (format.step (numerator / denominator)) < twoTo format.limit := by
    generalize twoTo (format.step (numerator / denominator)) = spacing at below ⊢
    calc roundQuotient numerator (denominator * spacing) * spacing
        ≤ (numerator / (denominator * spacing) + 1) * spacing :=
          Nat.mul_le_mul_right _ (roundQuotient_le ..)
      _ = numerator / denominator / spacing * spacing + spacing := by
          rw [← Nat.div_div_eq_div_mul, Nat.succ_mul]
      _ ≤ numerator / denominator + spacing := Nat.add_le_add_right (Nat.div_mul_le_self ..) _
      _ < twoTo format.limit := below
  exact ⟨_, if_pos rounded⟩

/-- 53 binary digits are kept by the 64-bit format. -/
theorem round?_whole {value : Nat} (small : value < twoTo 53) :
    Format.double.round? (value * one) 1 = some (value * one) := by
  have bound : value * one < twoTo (53 + 1074) := mul_twoTo_lt small 1074
  have step : Format.double.step (value * one) ≤ 1074 := by
    have digits := bitLength_le bound
    simp only [Format.step, Format.double]
    omega
  apply Format.round?_exact
  · exact Nat.dvd_mul_left_of_dvd (twoTo_dvd step) value
  · exact Nat.lt_of_lt_of_le bound (twoTo_le (by decide))

/-- Integers of 53 binary digits are kept. -/
theorem ofInt_small {value : Int} (small : value.natAbs < twoTo 53) :
    ofInt value = .finite (value < 0) (value.natAbs * one) := by
  rw [ofInt, round?_whole small, ofRounded]

end Binary64

namespace Decimal

/-- The value of digits is the number that they write. -/
theorem digitsValue_eq (digits : List Char) : digitsValue digits = Nat.ofDigitChars 10 digits 0 := by
  rw [Nat.ofDigitChars_eq_foldl]
  rfl

/-- The decimal digits of a number write it. -/
theorem digitsValue_repr (value : Nat) : digitsValue value.repr.toList = value := by
  rw [digitsValue_eq, Nat.toList_repr, Nat.ofDigitChars_ten_toDigits]

/-- The decimal digits of a number are digits. -/
theorem isDigit_of_mem_repr {value : Nat} {character : Char}
    (member : character ∈ value.repr.toList) : character.isDigit := by
  rw [Nat.toList_repr] at member
  exact Nat.isDigit_of_mem_toDigits (by decide) (by decide) member

/-- A number has a decimal digit. -/
theorem repr_ne_nil (value : Nat) : value.repr.toList ≠ [] := by
  rw [Nat.toList_repr]
  exact Nat.toDigits_ne_nil

/-- A fraction is a point with digits behind it, or nothing. -/
def fractionText (fraction : List Char) : List Char :=
  if fraction.isEmpty then [] else '.' :: fraction

/-- Digits are taken up to the first character that is none. -/
theorem spanDigits_append {digits rest : List Char} (all : ∀ digit ∈ digits, digit.isDigit)
    (stops : ∀ next ∈ rest.head?, next.isDigit = false) :
    spanDigits (digits ++ rest) = (digits, rest) := by
  unfold spanDigits
  rw [takeWhile_append_of_pos all, dropWhile_append_of_pos all]
  cases rest with
  | nil => simp
  | cons next others => simp [stops next (by simp)]

/-- A text that starts with a digit has no sign. -/
theorem takeSign_digit (rest : List Char) (digit : first.isDigit) :
    takeSign (first :: rest) = (false, first :: rest) := by
  unfold takeSign
  split <;> simp_all +decide

/-- An exponent: its mark, perhaps a sign, and digits. -/
structure Exponent where
  mark : Char
  sign : List Char
  digits : List Char
  isMark : mark = 'e' ∨ mark = 'E'
  isSign : sign = [] ∨ sign = ['+'] ∨ sign = ['-']
  nonempty : digits ≠ []
  areDigits : ∀ digit ∈ digits, digit.isDigit

namespace Exponent

/-- The exponent as it is written. -/
def text (exponent : Exponent) : List Char := exponent.mark :: (exponent.sign ++ exponent.digits)

/-- The number that the exponent stands for. -/
def value (exponent : Exponent) : Int :=
  if exponent.sign = ['-'] then -(Nat.ofDigitChars 10 exponent.digits 0 : Int)
  else Nat.ofDigitChars 10 exponent.digits 0

/-- No exponent starts with a point. -/
theorem mark_ne_point (exponent : Exponent) : exponent.mark ≠ '.' := by
  rcases exponent.isMark with mark | mark <;> rw [mark] <;> decide

/-- No exponent starts with a digit. -/
theorem isDigit_mark (exponent : Exponent) : exponent.mark.isDigit = false := by
  rcases exponent.isMark with mark | mark <;> rw [mark] <;> decide

/-- The sign of an exponent is taken off its digits. -/
theorem takeSign_text (exponent : Exponent) : takeSign (exponent.sign ++ exponent.digits) =
    (decide (exponent.sign = ['-']), exponent.digits) := by
  rcases exponent.isSign with sign | sign | sign <;> rw [sign]
  · obtain ⟨first, rest, digits⟩ := exists_cons_of_ne_nil exponent.nonempty
    rw [nil_append, digits]
    exact takeSign_digit rest (exponent.areDigits first (by rw [digits]; exact mem_cons_self))
  · rfl
  · rfl

end Exponent

/-- An optional exponent as it is written. -/
def exponentText (exponent : Option Exponent) : List Char := (exponent.map Exponent.text).getD []

/-- The number that an optional exponent stands for. -/
def exponentValue (exponent : Option Exponent) : Int := (exponent.map Exponent.value).getD 0

/-- An optional exponent starts with no point and no digit. -/
theorem head_exponentText (exponent : Option Exponent) :
    ∀ next ∈ (exponentText exponent).head?, next ≠ '.' ∧ next.isDigit = false := by
  cases exponent with
  | none => simp [exponentText]
  | some exponent =>
    rintro _ ⟨⟩
    exact ⟨exponent.mark_ne_point, exponent.isDigit_mark⟩

/-- An exponent is read as the number it stands for. -/
theorem readExponent?_text (exponent : Option Exponent) :
    readExponent? (exponentText exponent) = some (exponentValue exponent) := by
  cases exponent with
  | none => rfl
  | some exponent =>
    have digits := @spanDigits_append exponent.digits [] exponent.areDigits (by simp)
    rw [append_nil] at digits
    change readExponent? (exponent.mark :: (exponent.sign ++ exponent.digits)) = _
    simp [readExponent?, exponent.isMark, exponent.takeSign_text, digits, exponent.nonempty,
      exponentValue, Exponent.value, digitsValue_eq]

/-- What is read as an exponent is one. -/
theorem exists_exponent {text : List Char} {value : Int} (read : readExponent? text = some value) :
    ∃ exponent, text = exponentText exponent := by
  cases text with
  | nil => exact ⟨none, rfl⟩
  | cons mark rest =>
    rw [readExponent?] at read
    split at read
    · rename_i isMark
      have signed : ∃ sign, (sign = [] ∨ sign = ['+'] ∨ sign = ['-']) ∧
          rest = sign ++ (takeSign rest).2 := by
        unfold takeSign
        split
        · exact ⟨['-'], by simp, rfl⟩
        · exact ⟨['+'], by simp, rfl⟩
        · exact ⟨[], by simp, rfl⟩
      obtain ⟨sign, isSign, whole⟩ := signed
      generalize takeSign rest = divided at read whole
      obtain ⟨negative, digits⟩ := divided
      dsimp only [spanDigits] at read whole
      split at read
      · cases read
      · rename_i complete
        obtain ⟨nonempty, ended⟩ := not_or.mp complete
        have nothing : digits.dropWhile Char.isDigit = [] := by simpa using ended
        have taken := @takeWhile_append_dropWhile _ Char.isDigit digits
        rw [nothing, append_nil] at taken
        have all : ∀ digit ∈ digits, digit.isDigit := by
          rw [← taken]
          exact all_eq_true.mp all_takeWhile
        have some : digits ≠ [] := by
          rintro rfl
          exact nonempty rfl
        exact ⟨.some ⟨mark, sign, digits, isMark, isSign, some, all⟩, congrArg (mark :: ·) whole⟩
    · cases read

/-- Digits, fraction and exponent are read as what they write. -/
theorem read?_numeral {fraction : List Char} (nonempty : whole ≠ [])
    (wholeDigits : ∀ digit ∈ whole, digit.isDigit)
    (fractionDigits : ∀ digit ∈ fraction, digit.isDigit) (exponent : Option Exponent) :
    read? (whole ++ (fractionText fraction ++ exponentText exponent)) =
      some ⟨false, digitsValue (whole ++ fraction), exponentValue exponent - fraction.length⟩ := by
  have ends := head_exponentText exponent
  have stops : ∀ next ∈ (fractionText fraction ++ exponentText exponent).head?,
      next.isDigit = false := by
    unfold fractionText
    split
    · exact fun next member => (ends next member).2
    · rintro _ ⟨⟩
      rfl
  have sign : takeSign (whole ++ (fractionText fraction ++ exponentText exponent)) =
      (false, whole ++ (fractionText fraction ++ exponentText exponent)) := by
    obtain ⟨first, others, rfl⟩ := exists_cons_of_ne_nil nonempty
    exact takeSign_digit _ (wholeDigits first mem_cons_self)
  have point : takeFraction (fractionText fraction ++ exponentText exponent) =
      (fraction, exponentText exponent) := by
    unfold fractionText
    split
    · rename_i empty
      rw [isEmpty_iff.mp empty, nil_append]
      unfold takeFraction
      split
      · rename_i rest start
        exact absurd rfl (ends '.' (by rw [start]; rfl)).1
      · rfl
    · exact spanDigits_append fractionDigits fun next member => (ends next member).2
  simp [read?, sign, spanDigits_append wholeDigits stops, point, nonempty, readExponent?_text]

/-- Without a fraction it is rounded once. -/
theorem toBinary64_of_nonneg {written : Written} (nonzero : written.significand ≠ 0)
    (atMost : ¬ exponentLimit < written.exponent + (Nat.toDigits 10 written.significand).length)
    (whole : 0 ≤ written.exponent) :
    written.toBinary64 = .ofRounded written.negative (Binary64.Format.double.round?
      (written.significand * tenTo written.exponent.toNat * Binary64.one) 1) := by
  have atLeast :
      ¬ written.exponent + (Nat.toDigits 10 written.significand).length < -exponentLimit := by
    omega
  unfold Written.toBinary64
  rw [if_neg nonzero, if_neg atMost, if_neg atLeast, if_pos whole]

/-- 53 binary digits are read without rounding. -/
theorem toBinary64_whole {value : Nat} (small : value < twoTo 53) :
    Written.toBinary64 ⟨false, value, 0⟩ = .finite false (value * Binary64.one) := by
  by_cases zero : value = 0
  · rw [zero, Nat.zero_mul, Written.toBinary64, if_pos rfl]
  · have bound : value < 10 ^ 16 := Nat.lt_trans small (by decide)
    have length : (Nat.toDigits 10 value).length ≤ 16 :=
      (Nat.length_toDigits_le_iff (by decide) (by decide)).mpr bound
    have atMost : ¬ exponentLimit < 0 + ((Nat.toDigits 10 value).length : Int) := by
      unfold exponentLimit
      omega
    have scale : value * tenTo (Int.toNat 0) = value := Nat.mul_one value
    rw [toBinary64_of_nonneg zero atMost (Int.le_refl 0), scale, Binary64.round?_whole small,
      Binary64.ofRounded]

end Decimal

namespace Number

/-- The suffix of a kind. -/
def Kind.suffix : Kind → List Char
  | .abstract => []
  | .f32 => ['f']
  | .f16 => ['h']
  | .i32 => ['i']
  | .u32 => ['u']

/-- Suffixes tell their kinds. -/
theorem suffixKind?_suffix (kind : Kind) : suffixKind? kind.suffix = some kind := by
  cases kind <;> rfl

/-- Only the suffix of a kind names it. -/
theorem eq_suffix {suffix : List Char} {kind : Kind} (known : suffixKind? suffix = some kind) :
    suffix = kind.suffix := by
  match suffix, known with
  | [], known =>
    obtain rfl := Option.some.inj known
    rfl
  | [letter], known =>
    change Kind.ofSuffix? letter = some kind at known
    unfold Kind.ofSuffix? at known
    split at known <;> cases known <;> rfl

/-- What is no letter belongs to the body. -/
theorem splitSuffix_append {front : List Char}
    (plain : ∀ character ∈ front, character.isAlpha = false) (first : Bool) (rest : List Char) :
    splitSuffix first (front ++ rest) =
      (front ++ (splitSuffix (first && front.isEmpty) rest).1,
        (splitSuffix (first && front.isEmpty) rest).2) := by
  induction front generalizing first with
  | nil => simp
  | cons character others ih =>
    have later := ih (fun other member => plain other (mem_cons_of_mem _ member)) false
    simp only [Bool.false_and] at later
    simp [splitSuffix, startsSuffix, plain character mem_cons_self, later]

/-- A suffix has no body. -/
theorem splitSuffix_suffix (first : Bool) (kind : Kind) :
    splitSuffix first kind.suffix = ([], kind.suffix) := by
  cases kind <;> cases first <;> rfl

/-- The two parts of a literal are all of it. -/
theorem splitSuffix_whole (first : Bool) (text : List Char) :
    (splitSuffix first text).1 ++ (splitSuffix first text).2 = text := by
  induction text generalizing first with
  | nil => rfl
  | cons character rest ih =>
    rw [splitSuffix]
    split
    · rfl
    · exact congrArg (character :: ·) (ih false)

/-- Digits are no letters. -/
theorem isAlpha_eq_false_of_isDigit {character : Char} (digit : character.isDigit) :
    character.isAlpha = false := by
  rw [Bool.eq_false_iff]
  intro letter
  unfold Char.isAlpha Char.isUpper Char.isLower at letter
  simp only [Char.isDigit, Bool.or_eq_true, Bool.and_eq_true, decide_eq_true_eq,
    UInt32.le_iff_toNat_le] at letter digit
  simp at letter digit
  omega

/-- A literal that starts with a digit has it in its body. -/
theorem splitSuffix_digit (digit : first.isDigit) (rest : List Char) :
    (splitSuffix true (first :: rest)).1 = first :: (splitSuffix false rest).1 := by
  rw [splitSuffix]
  simp [startsSuffix, isAlpha_eq_false_of_isDigit digit]

/-- A body is integral without fraction and exponent. -/
theorem isIntegral_append (wholeDigits : ∀ digit ∈ whole, digit.isDigit) (fraction : List Char)
    (exponent : Option Decimal.Exponent) :
    isIntegral (whole ++ (Decimal.fractionText fraction ++ Decimal.exponentText exponent)) =
      (fraction.isEmpty && exponent.isNone) := by
  have plain : whole.all (fun character => character != '.' && character != 'e' && character != 'E') := by
    rw [all_eq_true]
    intro digit member
    have isOne := wholeDigits digit member
    refine Bool.and_eq_true_iff.mpr ⟨Bool.and_eq_true_iff.mpr ⟨?_, ?_⟩, ?_⟩ <;>
    · rw [bne_iff_ne]
      rintro rfl
      simp +decide at isOne
  have ended : isIntegral (Decimal.exponentText exponent) = exponent.isNone := by
    cases exponent with
    | none => rfl
    | some exponent =>
      rcases exponent.isMark with mark | mark <;>
        simp [Decimal.exponentText, Decimal.Exponent.text, isIntegral, mark]
  unfold isIntegral at ended ⊢
  rw [all_append, all_append, plain, ended]
  cases fraction <;> simp [Decimal.fractionText]

/-- A text is read if its suffix is known, its body is a decimal number as the suffix asks, and the
value is in range. -/
theorem read_eq_ok_iff {text : String} : read text = .ok literal ↔
    ∃ written, suffixKind? (splitSuffix true text.toList).2 = some literal.kind ∧
      (literal.kind.isInteger → isIntegral (splitSuffix true text.toList).1) ∧
      Decimal.read? (splitSuffix true text.toList).1 = some written ∧
      inRange literal.kind written.toBinary64 ∧
      literal = ⟨written.toBinary64, literal.kind, isIntegral (splitSuffix true text.toList).1⟩ := by
  obtain ⟨value, kind, integral⟩ := literal
  unfold read
  generalize splitSuffix true text.toList = divided
  obtain ⟨body, suffix⟩ := divided
  dsimp only
  constructor
  · intro success
    split at success
    · cases success
    · rename_i known
      split at success
      · cases success
      · rename_i admitted
        split at success
        · cases success
        · rename_i written decimal
          split at success
          · rename_i fits
            cases success
            exact ⟨written, known, by simpa using admitted, decimal, fits, rfl⟩
          · cases success
  · rintro ⟨written, known, integer, decimal, fits, same⟩
    have admitted : ¬ (kind.isInteger && !isIntegral body) = true := by
      simpa using integer
    simp only [known, if_neg admitted, decimal, fits, if_true, same]

end Number

open Number in
/-- Digits, an optional fraction with digits, an optional exponent, and a suffix. Integers have only
the first and the last. -/
structure Numeral where
  whole : List Char
  fraction : List Char
  exponent : Option Decimal.Exponent
  kind : Kind
  nonempty : whole ≠ []
  wholeDigits : ∀ digit ∈ whole, digit.isDigit
  fractionDigits : ∀ digit ∈ fraction, digit.isDigit
  integer : kind.isInteger → fraction = [] ∧ exponent = none

namespace Numeral

open Number

variable (numeral : Numeral)

/-- The digits with their fraction and exponent. -/
def body : List Char :=
  numeral.whole ++
    (Decimal.fractionText numeral.fraction ++ Decimal.exponentText numeral.exponent)

/-- The numeral as it is written. -/
def text : List Char := numeral.body ++ numeral.kind.suffix

/-- The decimal number that the numeral writes. -/
def written : Decimal.Written :=
  ⟨false, Decimal.digitsValue (numeral.whole ++ numeral.fraction),
    Decimal.exponentValue numeral.exponent - numeral.fraction.length⟩

/-- Whether it has neither fraction nor exponent. -/
def isPlain : Bool := numeral.fraction.isEmpty && numeral.exponent.isNone

/-- A numeral is divided where its suffix starts. -/
theorem splitSuffix_text : splitSuffix true numeral.text = (numeral.body, numeral.kind.suffix) := by
  have front : ∀ character ∈ numeral.whole ++ Decimal.fractionText numeral.fraction,
      character.isAlpha = false := by
    intro character member
    rcases mem_append.mp member with inWhole | inFraction
    · exact isAlpha_eq_false_of_isDigit (numeral.wholeDigits character inWhole)
    · unfold Decimal.fractionText at inFraction
      split at inFraction
      · cases inFraction
      · rcases mem_cons.mp inFraction with rfl | digit
        · rfl
        · exact isAlpha_eq_false_of_isDigit (numeral.fractionDigits character digit)
  have behind : splitSuffix false (Decimal.exponentText numeral.exponent ++ numeral.kind.suffix) =
      (Decimal.exponentText numeral.exponent, numeral.kind.suffix) := by
    cases numeral.exponent with
    | none => exact splitSuffix_suffix false _
    | some exponent =>
      have plain : ∀ character ∈ exponent.sign ++ exponent.digits, character.isAlpha = false := by
        intro character member
        rcases mem_append.mp member with inSign | inDigits
        · rcases exponent.isSign with sign | sign | sign <;> rw [sign] at inSign <;>
            simp at inSign <;> rw [inSign] <;> rfl
        · exact isAlpha_eq_false_of_isDigit (exponent.areDigits character inDigits)
      have continues : continuesExponent (exponent.sign ++ exponent.digits ++ numeral.kind.suffix) := by
        obtain ⟨first, rest, digits⟩ := exists_cons_of_ne_nil exponent.nonempty
        have digit := exponent.areDigits first (by rw [digits]; exact mem_cons_self)
        have noSign : first ≠ '+' ∧ first ≠ '-' := by
          constructor <;> rintro rfl <;> simp +decide at digit
        rcases exponent.isSign with sign | sign | sign <;>
          simp [continuesExponent, sign, digits, noSign, digit]
      have mark : (exponent.mark = 'e' || exponent.mark = 'E') = true := by
        simpa using exponent.isMark
      change splitSuffix false (exponent.mark :: (exponent.sign ++ exponent.digits ++ _)) = _
      rw [splitSuffix, startsSuffix, mark, continues, splitSuffix_append plain, Bool.false_and,
        splitSuffix_suffix]
      simp [Decimal.exponentText, Decimal.Exponent.text]
  have nonempty : (numeral.whole ++ Decimal.fractionText numeral.fraction).isEmpty = false := by
    simp [numeral.nonempty]
  rw [text, body, ← append_assoc, append_assoc, splitSuffix_append front, nonempty,
    Bool.and_false, behind]

/-- The body is read as what is written. -/
theorem read?_body : Decimal.read? numeral.body = some numeral.written :=
  Decimal.read?_numeral numeral.nonempty numeral.wholeDigits numeral.fractionDigits numeral.exponent

/-- The body is integral if plain. -/
theorem isIntegral_body : isIntegral numeral.body = numeral.isPlain :=
  isIntegral_append numeral.wholeDigits numeral.fraction numeral.exponent

/-- A numeral is read unless it is out of range. -/
theorem read_text_iff : read (String.ofList numeral.text) = .ok literal ↔
    inRange numeral.kind numeral.written.toBinary64 ∧
      literal = ⟨numeral.written.toBinary64, numeral.kind, numeral.isPlain⟩ := by
  rw [read_eq_ok_iff, String.toList_ofList, splitSuffix_text]
  simp only [suffixKind?_suffix, read?_body, isIntegral_body, Option.some.injEq]
  constructor
  · rintro ⟨_, same, -, rfl, fits, whole⟩
    rw [← same] at fits whole
    exact ⟨fits, whole⟩
  · rintro ⟨fits, rfl⟩
    refine ⟨numeral.written, rfl, fun isInteger => ?_, rfl, fits, rfl⟩
    obtain ⟨fraction, exponent⟩ := numeral.integer isInteger
    rw [isPlain, fraction, exponent]
    rfl

end Numeral

namespace Number

/-- The literal of a whole number, without a sign. -/
def natural (value : Nat) (kind : Kind) : Number :=
  ⟨.finite false (value * Binary64.one), kind, true⟩

/-- Natural numbers have their kind. -/
@[simp] theorem kind_natural (value : Nat) (kind : Kind) : (natural value kind).kind = kind := rfl

/-- Natural numbers are integral. -/
@[simp] theorem integral_natural (value : Nat) (kind : Kind) :
    (natural value kind).integral = true := rfl

/-- The key of a natural number is its number of units. -/
theorem key_natural (value : Nat) (kind : Kind) :
    (natural value kind).value.key = (value : Int) * (Binary64.one : Int) := by
  rw [natural, Binary64.key, if_neg Bool.false_ne_true, Int.natCast_mul]

/-- Natural numbers up to a bound are in its range. -/
theorem key_natural_le {value : Nat} {greatest : Int} (kind : Kind)
    (atMost : (value : Int) ≤ greatest) :
    (natural value kind).value.key ≤ greatest * Binary64.one := by
  rw [key_natural]
  exact Int.mul_le_mul_of_nonneg_right atMost (Int.natCast_nonneg _)

/-- Small natural numbers may be `i32`. -/
theorem inRange_natural_i32 {value : Nat} (atMost : (value : Int) ≤ greatestI32) :
    inRange .i32 (natural value .i32).value := by
  simp only [inRange, decide_eq_true_eq]
  exact key_natural_le .i32 atMost

/-- Small natural numbers may be `u32`. -/
theorem inRange_natural_u32 {value : Nat} (atMost : (value : Int) ≤ greatestU32) :
    inRange .u32 (natural value .u32).value := by
  simp only [inRange, decide_eq_true_eq]
  exact key_natural_le .u32 atMost

/-- In the range of sizes, it is the size it writes. -/
theorem index?_natural {value : Nat} (atMost : (value : Int) ≤ greatestU32) :
    (natural value .abstract).index? = some value := by
  have bound := key_natural_le .abstract atMost
  have least : 0 ≤ (natural value .abstract).value.key := by
    rw [key_natural]
    exact Int.mul_nonneg (Int.natCast_nonneg _) (Int.natCast_nonneg _)
  have whole : (natural value .abstract).value.truncate 0 greatestU32 = (value : Int) := by
    simp only [natural, Binary64.truncate, Bool.false_eq_true, if_false,
      Nat.mul_div_cancel _ Binary64.one_pos]
    omega
  have admitted : (decide (0 ≤ (natural value .abstract).value.key) &&
      decide ((natural value .abstract).value.key ≤ greatestU32 * Binary64.one)) = true := by
    rw [decide_eq_true least, decide_eq_true bound, Bool.true_and]
  simp only [index?, kind_natural, integral_natural, Bool.true_and, admitted, if_true, whole,
    Int.toNat_natCast]

end Number

end Shading
