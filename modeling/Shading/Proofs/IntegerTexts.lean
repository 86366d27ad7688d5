import Shading.Proofs.FoldedPrograms
import Shading.Proofs.OptimizedPrograms

/-!
# Integer literals are read back

The integer literals of a program come from its text, without a sign and in range, from a context that
looks at their value with the signs in front of them, or from a fold, which may make a negative number.
So an `i32` may be of the size of the least one, and that is the only size that is not read back from
its text.
-/

namespace Shading

open List

variable {units : Nat} {value signed : Binary64} {written : Decimal.Written}

namespace Binary64

/-- A whole number is rounded to a whole number. -/
theorem one_dvd_of_round? {number : Nat}
    (rounded : Format.double.round? (number * one) 1 = some units) : one ∣ units := by
  simp only [Format.round?, Nat.one_mul, Nat.div_one] at rounded
  split at rounded
  · rw [← Option.some.inj rounded]
    generalize Format.double.step (number * one) = step
    rcases Nat.le_total step 1074 with fine | coarse
    · have divides : twoTo step ∣ number * one := Nat.dvd_mul_left_of_dvd (twoTo_dvd fine) number
      rw [roundQuotient_mul_of_dvd (twoTo_pos step) divides]
      exact Nat.dvd_mul_left ..
    · exact Nat.dvd_mul_left_of_dvd (twoTo_dvd coarse) _
  · cases rounded

/-- A whole number is a multiple of one. -/
theorem isWhole_finite_iff {negative : Bool} :
    (Binary64.finite negative units).isWhole ↔ one ∣ units := by
  rw [isWhole, decide_eq_true_iff, Nat.dvd_iff_mod_eq_zero]

/-- A whole number is an integer. -/
theorem exists_whole? (whole : value.isWhole) : ∃ integer, value.whole? = some integer := by
  obtain ⟨negative, size, rfl⟩ := exists_whole whole
  exact ⟨_, whole?_mul_one negative size⟩

end Binary64

namespace Surface

/-- Digits without a point are a whole number. -/
theorem exponent_of_isIntegral {first : Char} {rest : List Char} (digit : first.isDigit)
    (integral : Number.isIntegral (first :: rest))
    (read : Decimal.read? (first :: rest) = some written) : written.exponent = 0 := by
  have plain : ∀ character ∈ (first :: rest).dropWhile Char.isDigit,
      character ≠ '.' ∧ character ≠ 'e' ∧ character ≠ 'E' := by
    intro character member
    have admitted := all_eq_true.mp integral character ((dropWhile_suffix _).subset member)
    simpa [and_assoc] using admitted
  simp only [Decimal.read?, Decimal.takeSign_digit rest digit, Decimal.spanDigits] at read
  generalize (first :: rest).dropWhile Char.isDigit = behind at plain read
  cases behind with
  | nil =>
    split at read
    · cases read
    · cases read
      rfl
  | cons mark others =>
    obtain ⟨noPoint, noExponent, noLarge⟩ := plain mark mem_cons_self
    have pointless : Decimal.takeFraction (mark :: others) = ([], mark :: others) := by
      unfold Decimal.takeFraction
      split
      · rename_i same
        exact absurd (List.cons.inj same).1 noPoint
      · rfl
    simp [pointless, Decimal.readExponent?, noExponent, noLarge] at read

/-- What is read without an exponent is whole or too large. -/
theorem isWhole_toBinary64 (plain : written.exponent = 0) :
    written.toBinary64.isWhole ∨ written.toBinary64 = .infinite written.negative := by
  have zero : (Binary64.finite written.negative 0).isWhole :=
    Binary64.isWhole_finite_iff.mpr (Nat.dvd_zero _)
  unfold Decimal.Written.toBinary64
  split
  · exact .inl zero
  · dsimp only
    split
    · exact .inr rfl
    · split
      · exact .inl zero
      · rw [plain, if_pos (Int.le_refl 0)]
        cases rounded : Binary64.Format.double.round?
            (written.significand * tenTo (0 : Int).toNat * Binary64.one) 1 with
        | none => exact .inr rfl
        | some units =>
          exact .inl (Binary64.isWhole_finite_iff.mpr (Binary64.one_dvd_of_round? rounded))

/-- A literal without a fraction is whole. -/
theorem IsLiteral.isWhole {literal : Number} (isLiteral : IsLiteral literal)
    (integral : literal.integral) : literal.value.isWhole := by
  obtain ⟨first, rest, written, digit, decimal, same, flag, bound, _⟩ := isLiteral.exists_decimal
  rcases isWhole_toBinary64 (exponent_of_isIntegral digit (flag ▸ integral) decimal) with whole | infinite
  · rwa [same]
  · have refused (kind : Number.Kind) : Number.inRange kind (.infinite false) = false := by
      cases kind <;> decide +kernel
    rw [same, infinite, read?_unsigned digit decimal, refused] at bound
    cases bound

end Surface

/-- An integer in range, or of the size of the least `i32`. -/
def Number.NearlyFits (literal : Number) : Prop :=
  ∀ isSigned, literal.kind.sign? = some isSigned → ∃ integer, literal.value.whole? = some integer ∧
    (Word.InRange isSigned integer ∨ isSigned = true ∧ integer = -leastI32)

namespace Typed.Expr

/-- No sign, whole if written so, and nearly fitting. -/
def IsUnsigned : Expr → Prop
  | .number literal _ _ =>
    0 ≤ literal.value.key ∧ (literal.integral → literal.value.isWhole) ∧ literal.NearlyFits
  | _ => True

/-- Without its sign, a number is as large. -/
theorem exists_integer (whole : value.isWhole) (nonnegative : 0 ≤ value.key)
    (size : signed.key.natAbs = value.key.natAbs) {least greatest : Int}
    (atLeast : least * Binary64.one ≤ signed.key) (atMost : signed.key ≤ greatest * Binary64.one) :
    ∃ integer, value.whole? = some integer ∧ 0 ≤ integer ∧ (integer ≤ greatest ∨ integer ≤ -least) := by
  have positive : (0 : Int) < Binary64.one := Int.natCast_pos.mpr Binary64.one_pos
  obtain ⟨integer, found⟩ := Binary64.exists_whole? whole
  rw [Binary64.key_of_whole? found] at size nonnegative
  refine ⟨integer, found, Int.nonneg_of_mul_nonneg_left nonnegative positive, ?_⟩
  rcases Int.natAbs_eq_natAbs_iff.mp size with same | opposite
  · exact .inl (Int.le_of_mul_le_mul_right (same ▸ atMost) positive)
  · rw [opposite] at atLeast
    refine .inr (Int.le_of_mul_le_mul_right ?_ positive)
    rw [Int.neg_mul]
    omega

/-- A literal nearly fits a type with its signed value. -/
theorem nearlyFits_of_represents {target : Scalar} {literal : Number}
    (sound : IsUnsigned (.number literal none .none)) (float : target ≠ .f32)
    (represents : Represents target signed literal.integral)
    (size : signed.key.natAbs = literal.value.key.natAbs) {kind : Number.Kind}
    (suits : kind.scalar = target) : Number.NearlyFits { literal with kind } := by
  obtain ⟨nonnegative, whole, _⟩ := sound
  intro isSigned sign
  cases kind with
  | abstract | f32 => exact absurd suits.symm float
  | f16 => cases sign
  | i32 =>
    cases suits
    cases sign
    obtain ⟨integral, atLeast, atMost⟩ := represents
    obtain ⟨integer, found, lower, upper⟩ := exists_integer (whole integral) nonnegative size atLeast atMost
    simp only [Word.InRange, Word.least, Word.greatest, if_true, true_and,
      Number.leastI32, Number.greatestI32] at upper ⊢
    exact ⟨integer, found, by omega⟩
  | u32 =>
    cases suits
    cases sign
    obtain ⟨integral, atLeast, atMost⟩ := represents
    rw [← Int.zero_mul (Binary64.one : Int)] at atLeast
    obtain ⟨integer, found, lower, upper⟩ := exists_integer (whole integral) nonnegative size atLeast atMost
    have atMost : integer ≤ Number.greatestU32 := by
      simp only [Number.greatestU32] at upper ⊢
      omega
    exact ⟨integer, found, .inl ⟨lower, atMost⟩⟩

/-- Literals come from the text or from contexts. -/
theorem isUnsigned_kept :
    Typing.Kept Surface.written fun expression => ∀ node ∈ expression.nodes, node.IsUnsigned where
  coerce target expression each := by
    rcases coerce_or_retyped target expression with
      same | ⟨float, _, signed, integral, retyped, represents⟩
    · rwa [same]
    · refine retyped.forall_nodes (fun _ _ _ => trivial) ?_
      rintro literal kind type span place member size rfl suits
      have sound := each _ member
      exact ⟨sound.1, sound.2.1, nearlyFits_of_represents sound float represents size suits⟩
  node node made inner := by
    refine forall_nodes.mpr ⟨?_, inner⟩
    cases node with
    | number literal type span =>
      obtain ⟨known, rfl⟩ := made
      obtain ⟨nonnegative, fits⟩ := Surface.IsLiteral.range known
      refine ⟨nonnegative, known.isWhole, fun isSigned sign => ?_⟩
      obtain ⟨_, _, _, _, _, _, _, _, integral⟩ := Surface.IsLiteral.exists_decimal known
      have integer : literal.kind.isInteger := by
        cases kind : literal.kind <;> rw [kind] at sign <;> cases sign <;> rfl
      obtain ⟨value, found⟩ := Binary64.exists_whole? (known.isWhole (integral integer))
      exact ⟨value, found, .inl (fits.inRange sign found)⟩
    | _ => trivial

/-- A literal nearly fits its kind. -/
def NearlyFits : Expr → Prop
  | .number literal _ _ => literal.NearlyFits
  | _ => True

/-- In an optimized program they nearly fit. -/
theorem nearlyFits_optimize (source : SourceText) (options : Options) :
    ∀ function ∈ ((check source options).program.optimize options.optimizations).functions,
      ∀ node ∈ functionNodes function, node.NearlyFits := by
  have kept : ∀ function ∈ (check source options).program.functions,
      ∀ expression ∈ Statement.allExpressions function.body.statements,
        ∀ node ∈ expression.nodes, node.NearlyFits := by
    rw [program_check]
    intro function member expression inside node isNode
    have sound := isUnsigned_kept.typeProgram source function member expression inside node isNode
    cases node with
    | number literal type span => exact sound.2.2
    | _ => trivial
  intro function member node inside
  obtain ⟨expression, listed, isNode⟩ := mem_allNodes.mp inside
  refine Program.forall_expressions_optimize (fun expression each => ?_) kept _ function member
    expression listed node isNode
  refine forall_nodes_folded (fun node here => ?_) (fun _ _ _ => trivial)
    (fun _ _ _ literal _ _ computed isSigned sign => ?_) each
  · cases node <;> exact here
  · obtain ⟨integer, found, range⟩ := Constant.numbers?_integer computed sign
    exact ⟨integer, found, .inl range⟩

end Typed.Expr

namespace Number

/-- An `i32` of the size of the least one, which is never read. -/
def HasLeastSize (literal : Number) : Prop :=
  literal.kind = .i32 ∧ literal.value.key.natAbs = leastI32.natAbs * Binary64.one

variable {literal : Number}

/-- An integer that nearly fits can be read unless of that size. -/
theorem NearlyFits.legible_or_hasLeastSize (fits : literal.NearlyFits) (type : Option Ty)
    (integer : literal.kind.isInteger) :
    literal.Legible type ∧ ¬ literal.HasLeastSize ∨ literal.HasLeastSize ∧
      (literal.text type = "2147483648i" ∨ literal.text type = "-2147483648i") := by
  have positive : (0 : Int) < Binary64.one := Int.natCast_pos.mpr Binary64.one_pos
  obtain ⟨value, kind, integral⟩ := literal
  have whole {number : Int} (found : value.whole? = some number) : value.isWhole := by
    obtain ⟨negative, size, rfl, _⟩ := Binary64.whole?_eq_some found
    exact Binary64.isWhole_finite_iff.mpr (Nat.dvd_mul_left ..)
  cases kind with
  | abstract | f16 | f32 => cases integer
  | u32 =>
    obtain ⟨number, found, range⟩ := fits false rfl
    have inRange : Word.InRange false number := by simpa using range
    have key := Binary64.key_of_whole? found
    refine .inl ⟨⟨whole found, ?_, ?_⟩, ?_⟩
    · rw [key]
      exact Int.mul_nonneg inRange.1 (Int.le_of_lt positive)
    · rw [key]
      exact Int.mul_le_mul_of_nonneg_right inRange.2 (Int.le_of_lt positive)
    · rintro ⟨isSigned, _⟩
      cases isSigned
  | i32 =>
    obtain ⟨number, found, range⟩ := fits true rfl
    have key := Binary64.key_of_whole? found
    have size : value.key.natAbs = number.natAbs * Binary64.one := by
      rw [key, Int.natAbs_mul, Int.natAbs_natCast]
    simp only [Word.InRange, Word.least, Word.greatest, if_true, true_and, leastI32, greatestI32]
      at range
    have text : text ⟨value, .i32, integral⟩ type =
        (value.truncate leastWord greatestWord).repr ++ "i" := rfl
    by_cases extreme : number.natAbs = leastI32.natAbs
    · refine .inr ⟨⟨rfl, by rw [size, extreme]⟩, ?_⟩
      rcases Int.natAbs_eq number with same | same
      · rw [extreme] at same
        rw [text, Binary64.truncate_of_whole? found (same ▸ by decide) (same ▸ by decide), same]
        exact .inl rfl
      · rw [extreme] at same
        rw [text, Binary64.truncate_of_whole? found (same ▸ by decide) (same ▸ by decide), same]
        exact .inr rfl
    · have smaller : -greatestI32 ≤ number ∧ number ≤ greatestI32 := by
        simp only [leastI32, greatestI32] at extreme ⊢
        omega
      refine .inl ⟨⟨whole found, ?_, ?_⟩, ?_⟩
      · rw [key]
        exact Int.mul_le_mul_of_nonneg_right smaller.1 (Int.le_of_lt positive)
      · rw [key]
        exact Int.mul_le_mul_of_nonneg_right smaller.2 (Int.le_of_lt positive)
      · rintro ⟨_, least⟩
        rw [size] at least
        exact extreme (Nat.eq_of_mul_eq_mul_right Binary64.one_pos least)

/-- A legible integer spells its sign and its size. -/
theorem Legible.tokens_integer {type : Option Ty} (legible : literal.Legible type)
    (integer : literal.kind.isInteger) :
    literal.tokens type = (if literal.value.key < 0 then [.minus] else []) ++
      [.number ⟨literal.value.magnitude, literal.kind, true⟩] := by
  obtain ⟨value, kind, integral⟩ := literal
  cases kind with
  | abstract | f16 | f32 => cases integer
  | i32 => simp [tokens, printsSign, reread, printedKind]
  | u32 =>
    have nonnegative : 0 ≤ value.key := legible.2.1
    simp [tokens, printsSign, reread, printedKind, nonnegative]

end Number

namespace Typed.Expr

/-- The text of an integer literal of an optimized program is read without a report unless it is an
`i32` of the size of the least one; what is read is a minus sign if negative and one number of its
kind and size. -/
theorem integer_texts_read_back (source : SourceText) (options : Options)
    {function : Function Expr DeclaredType}
    (member : function ∈ ((check source options).program.optimize options.optimizations).functions)
    {literal : Number} {type : Option Ty} {span : Span}
    (inside : .number literal type span ∈ functionNodes function)
    (integer : literal.kind.isInteger) (name : String) :
    ((tokenize ⟨name, literal.text type⟩).diagnostics = [] ↔ ¬ literal.HasLeastSize) ∧
      ((tokenize ⟨name, literal.text type⟩).diagnostics = [] →
        (tokenize ⟨name, literal.text type⟩).kinds =
          (if literal.value.key < 0 then [.minus] else []) ++
            [.number ⟨literal.value.magnitude, literal.kind, true⟩, .eof]) := by
  have fits : literal.NearlyFits := nearlyFits_optimize source options function member _ inside
  rcases fits.legible_or_hasLeastSize type integer with ⟨legible, small⟩ | ⟨least, texts⟩
  · obtain ⟨kinds, silent⟩ := (Number.spells legible).1.tokenize Lexer.stops_nil name
    rw [legible.tokens_integer integer, append_assoc] at kinds
    exact ⟨iff_of_true silent small, fun _ => kinds⟩
  · have reported : (tokenize ⟨name, literal.text type⟩).diagnostics ≠ [] := by
      -- The name of a text is not looked at, so what is read from the two texts can be computed.
      change (tokenize ⟨"", literal.text type⟩).diagnostics ≠ []
      rw [← isEmpty_eq_false_iff]
      rcases texts with text | text
      · rw [text]
        decide +kernel
      · rw [text]
        decide +kernel
    exact ⟨iff_of_false reported (not_not_intro least), fun silent => absurd silent reported⟩

/-- The literal of `-2147483647 + 7` is read back. -/
theorem folded_sum_is_read_back :
    let source : SourceText := ⟨"sum.shade",
      "@compute fn main() \x7b let x: i32 = -2147483647 + 7; \x7d"⟩
    ∃ function ∈ ((check source {}).program.optimize ({} : Options).optimizations).functions,
      ∃ literal type span, .number literal type span ∈ functionNodes function ∧
        literal.text type = "-2147483640i" ∧
          (tokenize ⟨"sum.wgsl", literal.text type⟩).kinds =
            [.minus, .number ⟨literal.value.magnitude, .i32, true⟩, .eof] := by
  intro source
  obtain ⟨function, member, node, inside, shown⟩ :
      ∃ function ∈ ((check source {}).program.optimize ({} : Options).optimizations).functions,
        ∃ node ∈ functionNodes function,
          (match node with
          | .number literal type _ => literal.text type = "-2147483640i" &&
              literal.kind = .i32 && literal.value.key = -2147483640 * (Binary64.one : Int)
          | _ => false) = true := by decide +kernel
  cases node with
  | number literal type span =>
    simp only [Bool.and_eq_true, decide_eq_true_eq] at shown
    obtain ⟨⟨text, kind⟩, key⟩ := shown
    have small : ¬ literal.HasLeastSize := by
      rintro ⟨_, size⟩
      rw [key] at size
      revert size
      decide +kernel
    have negative : literal.value.key < 0 := by
      rw [key]
      decide +kernel
    obtain ⟨silent, kinds⟩ := integer_texts_read_back source {} member inside (by rw [kind]; rfl) "sum.wgsl"
    refine ⟨function, member, literal, type, span, inside, text, ?_⟩
    rw [kinds (silent.mpr small), if_pos negative, kind]
    rfl
  | _ => cases shown

/-- The literal of `-2147483647 - 1` is not read back. -/
theorem folded_least_is_not_read_back :
    let source : SourceText := ⟨"least.shade",
      "@compute fn main() \x7b let x: i32 = -2147483647 - 1; \x7d"⟩
    hasErrors (check source {}).diagnostics = false ∧
      ∃ function ∈ ((check source {}).program.optimize ({} : Options).optimizations).functions,
        ∃ literal type span, .number literal type span ∈ functionNodes function ∧
          literal.kind = .i32 ∧ literal.text type = "-2147483648i" ∧
            hasErrors (tokenize ⟨"least.wgsl", literal.text type⟩).diagnostics := by
  intro source
  refine ⟨by decide +kernel, ?_⟩
  obtain ⟨function, member, node, inside, shown⟩ :
      ∃ function ∈ ((check source {}).program.optimize ({} : Options).optimizations).functions,
        ∃ node ∈ functionNodes function,
          (match node with
          | .number literal type _ => literal.kind = .i32 && literal.text type = "-2147483648i"
          | _ => false) = true := by decide +kernel
  cases node with
  | number literal type span =>
    simp only [Bool.and_eq_true, decide_eq_true_eq] at shown
    refine ⟨function, member, literal, type, span, inside, shown.1, shown.2, ?_⟩
    rw [shown.2]
    decide +kernel
  | _ => cases shown

end Typed.Expr

end Shading
