import Shading.Optimization.Constants
import Shading.Proofs.LiteralTexts
import Shading.Proofs.Nodes

/-!
# Values of integer and boolean expressions

Expressions of literals, names and operators have 32-bit words and truth values as their values. Sums,
differences and products of words wrap around, quotients and remainders are cut toward zero and have no
value where the divisor is zero. What constant folding computes from literals in the range of their kind
agrees with the operations on words.
-/

namespace Shading

open BitVec (ofInt)

open Option

variable {isSigned : Bool} {operator : BinaryOperator} {left right result : Int} {value : Binary64}
  {literal : Number} {word leftWord : Word}

/-- The value of an integer or boolean expression. -/
inductive Word where
  | signed (bits : BitVec 32)
  | unsigned (bits : BitVec 32)
  | truth (value : Bool)
deriving DecidableEq, Repr

namespace Word

/-- The word of some bits, taken with or without a sign. -/
def ofBits (isSigned : Bool) (bits : BitVec 32) : Word :=
  if isSigned then .signed bits else .unsigned bits

/-- The number that bits stand for. -/
def integer (isSigned : Bool) (bits : BitVec 32) : Int :=
  if isSigned then bits.toInt else bits.toNat

/-- Computes with bits, which wrap around. -/
def arithmetic? (operator : BinaryOperator) (isSigned : Bool) (left right : BitVec 32) :
    Option (BitVec 32) :=
  match operator with
  | .add => some (left + right)
  | .subtract => some (left - right)
  | .multiply => some (left * right)
  | .divide =>
    if right = 0 then none else some (if isSigned then left.sdiv right else left / right)
  | .remainder =>
    if right = 0 then none else some (if isSigned then left.srem right else left % right)
  | _ => none

/-- Compares the numbers that bits stand for. -/
def compare? (operator : BinaryOperator) (isSigned : Bool) (left right : BitVec 32) : Option Bool :=
  match operator with
  | .equal => some (left == right)
  | .notEqual => some (left != right)
  | .less => some (integer isSigned left < integer isSigned right)
  | .lessEqual => some (integer isSigned left ≤ integer isSigned right)
  | .greater => some (integer isSigned right < integer isSigned left)
  | .greaterEqual => some (integer isSigned right ≤ integer isSigned left)
  | _ => none

/-- The value of an operation on bits. -/
def bits? (operator : BinaryOperator) (isSigned : Bool) (left right : BitVec 32) : Option Word :=
  if operator.isComparison then (compare? operator isSigned left right).map .truth
  else (arithmetic? operator isSigned left right).map (ofBits isSigned)

/-- The value of an operation on two truth values. -/
def truths? (operator : BinaryOperator) (left right : Bool) : Option Word :=
  match operator with
  | .and => some (.truth (left && right))
  | .or => some (.truth (left || right))
  | .equal => some (.truth (left == right))
  | .notEqual => some (.truth (left != right))
  | _ => none

/-- The value of an operation on two values of one type. -/
def both? (operator : BinaryOperator) : Word → Word → Option Word
  | .signed left, .signed right => bits? operator true left right
  | .unsigned left, .unsigned right => bits? operator false left right
  | .truth left, .truth right => truths? operator left right
  | _, _ => none

/-- Whether the left operand alone decides, and how. -/
def decides (operator : BinaryOperator) (left : Word) : Bool :=
  operator = .and && left = .truth false || operator = .or && left = .truth true

/-- The value of an operation; a conjunction does not ask for its right operand behind a false one,
nor a disjunction behind a true one. -/
def binary? (operator : BinaryOperator) (left : Word) (right : Option Word) : Option Word :=
  if decides operator left then some left else right.bind (both? operator left)

/-- The value of an operation on one operand. -/
def unary? : UnaryOperator → Word → Option Word
  | .negate, .signed bits => some (.signed (-bits))
  | .negate, .unsigned bits => some (.unsigned (-bits))
  | .not, .truth value => some (.truth !value)
  | _, _ => none

end Word

/-- The whole number that a number of the 64-bit format is. -/
def Binary64.whole? : Binary64 → Option Int
  | .finite negative units =>
    if units % one = 0 then some (if negative then -(units / one : Nat) else (units / one : Nat))
    else none
  | .infinite _ => none

/-- Whether the integers of a kind have a sign. -/
def Number.Kind.sign? : Number.Kind → Option Bool
  | .i32 => some true
  | .u32 => some false
  | _ => none

/-- The word of a literal, which wraps around. -/
def Number.word? (literal : Number) : Option Word :=
  literal.kind.sign?.bind fun isSigned =>
    literal.value.whole?.map fun value => .ofBits isSigned (ofInt 32 value)

/-- The word that a constant stands for. -/
def Constant.Value.word? : Constant.Value → Option Word
  | .number literal => literal.word?
  | .bool value => some (.truth value)

/-- The value of an expression with names from `environment`. Only literals, names and operators on
words have one. -/
def Typed.Expr.eval (environment : String → Option Word) : Typed.Expr → Option Word
  | .number literal _ _ => literal.word?
  | .bool value _ _ => some (.truth value)
  | .identifier name _ _ => environment name
  | .binary operator left right _ _ =>
    (left.eval environment).bind fun value => Word.binary? operator value (right.eval environment)
  | .unary operator operand _ _ => (operand.eval environment).bind (Word.unary? operator)
  | .call _ _ _ _ | .member _ _ _ _ _ | .index _ _ _ _ => none

namespace Word

/-- The least integer of the words with or without a sign. -/
def least (isSigned : Bool) : Int := if isSigned then Number.leastI32 else 0

/-- The greatest integer of the words with or without a sign. -/
def greatest (isSigned : Bool) : Int := if isSigned then Number.greatestI32 else Number.greatestU32

/-- Whether an integer is that of a word. -/
def InRange (isSigned : Bool) (value : Int) : Prop :=
  least isSigned ≤ value ∧ value ≤ greatest isSigned

/-- The least integer is not positive. -/
theorem least_le (isSigned : Bool) : least isSigned ≤ 0 := by cases isSigned <;> decide

/-- The greatest is not negative. -/
theorem le_greatest (isSigned : Bool) : 0 ≤ greatest isSigned := by cases isSigned <;> decide

/-- The bits of an integer in range stand for that integer. -/
theorem integer_ofInt {value : Int} (range : InRange isSigned value) :
    integer isSigned (ofInt 32 value) = value := by
  obtain ⟨atLeast, atMost⟩ := range
  cases isSigned with
  | true =>
    simp only [least, greatest, Number.leastI32, Number.greatestI32, if_true] at atLeast atMost
    rw [integer, if_pos rfl]
    exact BitVec.toInt_ofInt_eq_self (by decide) (by omega) (by omega)
  | false =>
    simp only [least, greatest, Number.greatestU32, Bool.false_eq_true, if_false] at atLeast atMost
    simp only [integer, Bool.false_eq_true, if_false, BitVec.toNat_ofInt]
    omega

/-- Bits that stand for one integer are equal. -/
theorem integer_inj {isSigned : Bool} {left right : BitVec 32} :
    integer isSigned left = integer isSigned right ↔ left = right := by
  cases isSigned with
  | true => simp [integer, BitVec.toInt_inj]
  | false => rw [integer, integer, if_neg (by decide), if_neg (by decide), Int.natCast_inj,
      BitVec.toNat_inj]

/-- Integers in range have different bits. -/
theorem ofInt_inj (leftRange : InRange isSigned left) (rightRange : InRange isSigned right) :
    ofInt 32 left = ofInt 32 right ↔ left = right := by
  rw [← @integer_inj isSigned, integer_ofInt leftRange, integer_ofInt rightRange]

/-- A difference of integers wraps around like the integers. -/
theorem ofInt_sub (left right : Int) :
    ofInt 32 (left - right) = ofInt 32 left - ofInt 32 right := by
  rw [Int.sub_eq_add_neg, BitVec.ofInt_add, BitVec.ofInt_neg, BitVec.sub_eq_add_neg]

/-- A quotient in range is that of the integers. -/
theorem ofInt_tdiv (leftRange : InRange isSigned left) (rightRange : InRange isSigned right)
    (range : InRange isSigned (left.tdiv right)) :
    (if isSigned then (ofInt 32 left).sdiv (ofInt 32 right)
      else ofInt 32 left / ofInt 32 right) = ofInt 32 (left.tdiv right) := by
  have leftValue := integer_ofInt leftRange
  have rightValue := integer_ofInt rightRange
  rw [← @integer_inj isSigned, integer_ofInt range]
  cases isSigned with
  | true =>
    simp only [integer, if_true] at leftValue rightValue ⊢
    have value := integer_ofInt range
    simp only [integer, if_true, BitVec.toInt_ofInt] at value
    rw [BitVec.toInt_sdiv, leftValue, rightValue, value]
  | false =>
    simp only [integer, Bool.false_eq_true, if_false] at leftValue rightValue ⊢
    rw [BitVec.toNat_udiv, Int.natCast_ediv, leftValue, rightValue]
    exact (Int.tdiv_eq_ediv_of_nonneg leftRange.1).symm

/-- The remainder of bits is the remainder of their integers. -/
theorem ofInt_tmod (leftRange : InRange isSigned left) (rightRange : InRange isSigned right) :
    (if isSigned then (ofInt 32 left).srem (ofInt 32 right)
      else ofInt 32 left % ofInt 32 right) = ofInt 32 (left.tmod right) := by
  have leftValue := integer_ofInt leftRange
  have rightValue := integer_ofInt rightRange
  cases isSigned with
  | true =>
    simp only [integer, if_true] at leftValue rightValue ⊢
    rw [← @BitVec.ofInt_toInt 32 ((ofInt 32 left).srem _), BitVec.toInt_srem, leftValue,
      rightValue]
  | false =>
    simp only [integer, Bool.false_eq_true, if_false] at leftValue rightValue ⊢
    have natural : left.tmod right = (ofInt 32 left % ofInt 32 right).toNat := by
      rw [BitVec.toNat_umod, Int.natCast_emod, leftValue, rightValue,
        Int.tmod_eq_emod_of_nonneg leftRange.1]
    rw [natural, BitVec.ofInt_natCast, BitVec.ofNat_toNat, BitVec.setWidth_eq]

/-- A result in range is that of the bits. -/
theorem arithmetic?_ofInt (leftRange : InRange isSigned left) (rightRange : InRange isSigned right)
    (computed : Constant.integer? operator left right = some result)
    (fits : Constant.fits operator (least isSigned) (greatest isSigned) left right result) :
    arithmetic? operator isSigned (ofInt 32 left) (ofInt 32 right) =
      some (ofInt 32 result) := by
  have zero (nonzero : right ≠ 0) : ofInt 32 right ≠ 0 := by
    exact mt (ofInt_inj rightRange ⟨least_le isSigned, le_greatest isSigned⟩).mp nonzero
  simp only [Constant.fits, Bool.and_eq_true, decide_eq_true_eq] at fits
  unfold Constant.integer? at computed
  split at computed
  · rw [← Option.some.inj computed, BitVec.ofInt_add]
    rfl
  · rw [← Option.some.inj computed, ofInt_sub]
    rfl
  · rw [← Option.some.inj computed, BitVec.ofInt_mul]
    rfl
  · split at computed
    · cases computed
    · rename_i nonzero
      rw [if_neg (by decide), ← Option.some.inj computed] at fits
      rw [arithmetic?, if_neg (zero nonzero), ofInt_tdiv leftRange rightRange fits,
        Option.some.inj computed]
  · split at computed
    · cases computed
    · rename_i nonzero
      rw [arithmetic?, if_neg (zero nonzero), ofInt_tmod leftRange rightRange,
        Option.some.inj computed]
  · cases computed

/-- Bits of integers in range compare as the integers. -/
theorem compare?_ofInt {scaledLeft scaledRight : Binary64} (leftRange : InRange isSigned left)
    (rightRange : InRange isSigned right) (leftKey : scaledLeft.key = left * (Binary64.one : Int))
    (rightKey : scaledRight.key = right * (Binary64.one : Int)) :
    compare? operator isSigned (ofInt 32 left) (ofInt 32 right) =
      Constant.compare? operator scaledLeft scaledRight := by
  have positive : (0 : Int) < (Binary64.one : Int) := Int.natCast_pos.mpr Binary64.one_pos
  have same : left * (Binary64.one : Int) = right * (Binary64.one : Int) ↔ left = right :=
    Int.mul_eq_mul_right_iff (Int.ne_of_gt positive)
  unfold compare? Constant.compare?
  simp only [integer_ofInt leftRange, integer_ofInt rightRange, leftKey, rightKey,
    Int.mul_lt_mul_right positive, Int.mul_le_mul_right positive]
  have equal : (ofInt 32 left == ofInt 32 right) =
      (left * (Binary64.one : Int) == right * (Binary64.one : Int)) := by
    rw [Bool.eq_iff_iff, beq_iff_eq, beq_iff_eq, ofInt_inj leftRange rightRange, same]
  cases operator with
  | equal => exact congrArg some equal
  | notEqual => exact congrArg (fun equal => some !equal) equal
  | _ => rfl

end Word

namespace Binary64

/-- A whole number is a number of units of one, with a sign. -/
theorem whole?_eq_some {integer : Int} (whole : value.whole? = some integer) :
    ∃ negative size, value = .finite negative (size * one) ∧
      integer = if negative then -(size : Int) else size := by
  cases value with
  | finite negative units =>
    simp only [whole?] at whole
    split at whole
    · rename_i divides
      refine ⟨negative, units / one, ?_, (Option.some.inj whole).symm⟩
      rw [Nat.div_mul_cancel (Nat.dvd_of_mod_eq_zero divides)]
    · cases whole
  | infinite negative => cases whole

/-- The whole number of a multiple of one is the multiple. -/
theorem whole?_mul_one (negative : Bool) (size : Nat) :
    (Binary64.finite negative (size * one)).whole? =
      some (if negative then -(size : Int) else size) := by
  rw [whole?, if_pos (Nat.mul_mod_left size one), Nat.mul_div_cancel _ one_pos]

/-- The key of a whole number is that number of units of one. -/
theorem key_of_whole? {integer : Int} (whole : value.whole? = some integer) :
    value.key = integer * (one : Int) := by
  obtain ⟨negative, size, rfl, rfl⟩ := whole?_eq_some whole
  exact key_whole negative size

/-- Whole numbers in a range are not clamped to it. -/
theorem truncate_of_whole? {integer least greatest : Int} (whole : value.whole? = some integer)
    (atLeast : least ≤ integer) (atMost : integer ≤ greatest) :
    value.truncate least greatest = integer := by
  obtain ⟨negative, size, rfl, rfl⟩ := whole?_eq_some whole
  exact truncate_whole atLeast atMost

/-- The other sign of a number has the other sign of its key. -/
theorem key_negate (value : Binary64) : value.negate.key = -value.key := by
  cases value with
  | finite negative | infinite negative =>
    cases negative with
    | false => rfl
    | true => exact (Int.neg_neg _).symm

/-- A negated number is the negated integer. -/
theorem whole?_negate (value : Binary64) : value.negate.whole? = value.whole?.map (- ·) := by
  cases value with
  | finite negative units =>
    simp only [negate, whole?]
    split
    · cases negative with
      | false => rfl
      | true => exact congrArg some (Int.neg_neg _).symm
    · rfl
  | infinite negative => rfl

/-- Integers of moderate size are whole numbers. -/
theorem whole?_ofInt {value : Int} (small : value.natAbs < twoTo 53) :
    (ofInt value).whole? = some value := by
  rw [ofInt_small small, whole?_mul_one]
  by_cases negative : value < 0
  · rw [if_pos (decide_eq_true negative)]
    congr 1
    omega
  · rw [if_neg (by simpa using negative)]
    congr 1
    omega

/-- A clamped number lies in the range. -/
theorem truncate_range (value : Binary64) {least greatest : Int} (ordered : least ≤ greatest) :
    least ≤ value.truncate least greatest ∧ value.truncate least greatest ≤ greatest := by
  cases value with
  | finite negative units =>
    simp only [truncate]
    omega
  | infinite negative =>
    simp only [truncate]
    split <;> omega

end Binary64

namespace Constant

/-- A remainder lies between zero and what is divided. -/
theorem tmod_range (left right : Int) :
    min 0 left ≤ left.tmod right ∧ left.tmod right ≤ max 0 left := by
  have size : (left.tmod right).natAbs ≤ left.natAbs := by
    rw [Int.natAbs_tmod]
    exact Nat.mod_le ..
  rcases Int.le_total 0 left with positive | negative
  · have sign := Int.tmod_nonneg right positive
    omega
  · have sign := Int.tmod_nonneg right (Int.neg_nonneg_of_nonpos negative)
    rw [Int.neg_tmod] at sign
    omega

/-- A result that fits a range lies in it. -/
theorem integer?_range {least greatest : Int} (below : least ≤ 0) (above : 0 ≤ greatest)
    (atLeast : least ≤ left) (atMost : left ≤ greatest)
    (found : integer? operator left right = some result)
    (judged : fits operator least greatest left right result) :
    least ≤ result ∧ result ≤ greatest := by
  simp only [fits, Bool.and_eq_true, decide_eq_true_eq] at judged
  by_cases remainder : operator = .remainder
  · subst remainder
    simp only [integer?] at found
    split at found
    · cases found
    · have range := tmod_range left right
      rw [← Option.some.inj found]
      omega
  · rwa [if_neg remainder] at judged

/-- The result on clamped integers is in range. -/
theorem bounded?_range {least greatest : Int} {left right : Binary64} (below : least ≤ 0)
    (above : 0 ≤ greatest) (computed : bounded? operator least greatest left right = some value) :
    ∃ result, value = .ofInt result ∧ least ≤ result ∧ result ≤ greatest := by
  simp only [bounded?, bind_eq_some_iff] at computed
  obtain ⟨result, found, computed⟩ := computed
  split at computed
  · rename_i judged
    have clamped := left.truncate_range (Int.le_trans below above)
    exact ⟨result, (Option.some.inj computed).symm,
      integer?_range below above clamped.1 clamped.2 found judged⟩
  · cases computed

end Constant

/-- Whether an integer literal lies in range. -/
def Number.Fits (literal : Number) : Prop :=
  ∀ isSigned, literal.kind.sign? = some isSigned →
    Word.least isSigned * Binary64.one ≤ literal.value.key ∧
      literal.value.key ≤ Word.greatest isSigned * Binary64.one

namespace Number

/-- A kind of integers is known by its sign. -/
theorem Kind.sign?_inj {left right : Kind} (leftSign : left.sign? = some isSigned)
    (rightSign : right.sign? = some isSigned) : left = right := by
  cases left <;> cases right <;> simp_all [Kind.sign?]

/-- Two kinds of integers that are one. -/
theorem Kind.merge?_self {kind : Kind} (sign : kind.sign? = some isSigned) :
    kind.merge? kind = some kind := by
  cases kind <;> rfl

/-- The word of a literal tells sign and integer. -/
theorem word?_eq_some (found : literal.word? = some word) :
    ∃ isSigned integer, literal.kind.sign? = some isSigned ∧ literal.value.whole? = some integer ∧
      word = .ofBits isSigned (ofInt 32 integer) := by
  simp only [word?, bind_eq_some_iff, map_eq_some_iff] at found
  obtain ⟨isSigned, sign, integer, whole, rfl⟩ := found
  exact ⟨isSigned, integer, sign, whole, rfl⟩

/-- A literal that fits is the integer of a word. -/
theorem Fits.inRange {integer : Int} (fits : literal.Fits)
    (sign : literal.kind.sign? = some isSigned) (whole : literal.value.whole? = some integer) :
    Word.InRange isSigned integer := by
  have positive : (0 : Int) < (Binary64.one : Int) := Int.natCast_pos.mpr Binary64.one_pos
  have range := fits isSigned sign
  rw [Binary64.key_of_whole? whole] at range
  exact ⟨Int.le_of_mul_le_mul_right range.1 positive, Int.le_of_mul_le_mul_right range.2 positive⟩

/-- A literal of the integer of a word fits its kind. -/
theorem fits_of_inRange (range : ∀ isSigned,
    literal.kind.sign? = some isSigned →
      ∃ integer, literal.value.whole? = some integer ∧ Word.InRange isSigned integer) :
    literal.Fits := by
  intro isSigned sign
  obtain ⟨integer, whole, atLeast, atMost⟩ := range isSigned sign
  rw [Binary64.key_of_whole? whole]
  exact ⟨Int.mul_le_mul_of_nonneg_right atLeast (Int.natCast_nonneg _),
    Int.mul_le_mul_of_nonneg_right atMost (Int.natCast_nonneg _)⟩

end Number

/-- Integers of words are small enough for the 64-bit format. -/
theorem Word.InRange.small {integer : Int} (range : InRange isSigned integer) :
    integer.natAbs < twoTo 53 := by
  have bound : 2 ^ 33 < twoTo 53 := by decide
  refine Nat.lt_trans ?_ bound
  obtain ⟨atLeast, atMost⟩ := range
  simp only [least, greatest, Number.leastI32, Number.greatestI32, Number.greatestU32] at atLeast atMost
  split at atLeast <;> omega

namespace Constant

/-- Integers are computed in the range of their kind. -/
theorem arithmetic?_eq {kind : Number.Kind} (sign : kind.sign? = some isSigned)
    (operator : BinaryOperator) (left right : Binary64) :
    arithmetic? operator kind left right =
      bounded? operator (Word.least isSigned) (Word.greatest isSigned) left right := by
  cases kind <;> cases sign <;> rfl

/-- An operation on integers gives that of a word. -/
theorem numbers?_integer {left right : Number}
    (computed : numbers? operator left right = some (.number literal))
    (sign : literal.kind.sign? = some isSigned) :
    ∃ integer, literal.value.whole? = some integer ∧ Word.InRange isSigned integer := by
  simp only [numbers?, bind_eq_some_iff] at computed
  obtain ⟨kind, merged, computed⟩ := computed
  split at computed
  · simp at computed
  · simp only [map_eq_some_iff, Value.number.injEq] at computed
    obtain ⟨value, computed, rfl⟩ := computed
    rw [arithmetic?_eq sign] at computed
    obtain ⟨result, same, range⟩ :=
      bounded?_range (Word.least_le isSigned) (Word.le_greatest isSigned) computed
    have whole := Binary64.whole?_ofInt (Word.InRange.small range)
    rw [← same] at whole
    exact ⟨result, whole, range⟩

/-- An operation on literals in range has the word of theirs. -/
theorem numbers?_word {left right : Number} {value : Value} {rightWord : Word}
    (leftFits : left.Fits) (rightFits : right.Fits) (leftFound : left.word? = some leftWord)
    (rightFound : right.word? = some rightWord)
    (computed : numbers? operator left right = some value)
    (meant : Word.both? operator leftWord rightWord = some word) : value.word? = some word := by
  obtain ⟨isSigned, leftInteger, leftSign, leftWhole, rfl⟩ := Number.word?_eq_some leftFound
  obtain ⟨rightIsSigned, rightInteger, rightSign, rightWhole, rfl⟩ :=
    Number.word?_eq_some rightFound
  have same : rightIsSigned = isSigned := by
    cases isSigned <;> cases rightIsSigned <;> simp_all [Word.ofBits, Word.both?]
  subst same
  have leftRange := leftFits.inRange leftSign leftWhole
  have rightRange := rightFits.inRange rightSign rightWhole
  have bits : Word.bits? operator rightIsSigned (ofInt 32 leftInteger)
      (ofInt 32 rightInteger) = some word := by
    cases rightIsSigned <;> exact meant
  have kinds : left.kind = right.kind := Number.Kind.sign?_inj leftSign rightSign
  rw [numbers?, kinds, Number.Kind.merge?_self rightSign, bind_some] at computed
  rw [Word.bits?] at bits
  split at computed
  · rename_i comparison
    rw [if_pos comparison, Word.compare?_ofInt leftRange rightRange
      (Binary64.key_of_whole? leftWhole) (Binary64.key_of_whole? rightWhole)] at bits
    simp only [map_eq_some_iff] at bits computed
    obtain ⟨truth, decided, rfl⟩ := computed
    obtain ⟨other, again, rfl⟩ := bits
    rw [decided] at again
    rw [Value.word?, Option.some.inj again]
  · rename_i arithmetic
    rw [if_neg arithmetic] at bits
    rw [arithmetic?_eq rightSign, bounded?,
      Binary64.truncate_of_whole? leftWhole leftRange.1 leftRange.2,
      Binary64.truncate_of_whole? rightWhole rightRange.1 rightRange.2] at computed
    simp only [map_eq_some_iff, bind_eq_some_iff] at computed
    obtain ⟨number, ⟨result, exact, judged⟩, rfl⟩ := computed
    split at judged
    · rename_i fits
      rw [Word.arithmetic?_ofInt leftRange rightRange exact fits, map_some] at bits
      have range : Word.InRange rightIsSigned result := integer?_range (Word.least_le _)
        (Word.le_greatest _) leftRange.1 leftRange.2 exact fits
      rw [← bits, ← Option.some.inj judged, Value.word?, Number.word?]
      simp only [rightSign, bind_some, Binary64.whole?_ofInt range.small, map_some]
    · cases judged

/-- An operation on constants in range has the word of theirs. -/
theorem binary?_word {left right value : Value}
    (leftFits : ∀ literal, left = .number literal → literal.Fits)
    (rightFits : ∀ literal, right = .number literal → literal.Fits)
    (leftFound : left.word? = some leftWord) (computed : binary? operator left right = some value)
    (meant : Word.binary? operator leftWord right.word? = some word) : value.word? = some word := by
  cases left with
  | number left =>
    cases right with
    | number right =>
      have undecided : Word.decides operator leftWord = false := by
        obtain ⟨isSigned, integer, -, -, rfl⟩ := Number.word?_eq_some leftFound
        cases isSigned <;> simp [Word.decides, Word.ofBits]
      rw [Word.binary?, undecided, if_neg (by decide), bind_eq_some_iff] at meant
      obtain ⟨rightWord, rightFound, meant⟩ := meant
      exact numbers?_word (leftFits left rfl) (rightFits right rfl) leftFound rightFound computed
        meant
    | bool right => cases computed
  | bool left =>
    cases right with
    | number right => cases computed
    | bool right =>
      cases leftFound
      cases operator <;> cases left <;> cases right <;> cases computed <;> exact meant

end Constant

end Shading
