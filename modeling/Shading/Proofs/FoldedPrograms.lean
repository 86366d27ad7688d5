import Shading.Proofs.Coercions
import Shading.Proofs.Folding
import Shading.Proofs.TypedBodies

/-!
# Constant folding keeps the values of programs

A literal of a source text has no sign and lies in the range of its kind, and one that takes its kind
from its surroundings does so only in range, with the minus sign in front of it. So folding reads
numbers in range, but for one case: what a fold has made the least signed integer may be read once more
through a minus sign.
-/

namespace Shading

variable {written : Decimal.Written} {literal : Number} {expression : Expr}

namespace Surface

/-- What is read without a sign is not negative. -/
theorem key_toBinary64_nonneg (unsigned : written.negative = false) :
    0 ≤ written.toBinary64.key := by
  have rounded (magnitude : Option Nat) :
      0 ≤ (Binary64.ofRounded written.negative magnitude).key := by
    rw [unsigned]
    cases magnitude with
    | none | some => exact Int.natCast_nonneg _
  unfold Decimal.Written.toBinary64
  split
  · exact rounded (some 0)
  · dsimp only
    split
    · exact rounded none
    · split
      · exact rounded (some 0)
      · exact rounded _

/-- A text that starts with a digit is read without a sign. -/
theorem read?_unsigned {first : Char} {rest : List Char} (digit : first.isDigit)
    (read : Decimal.read? (first :: rest) = some written) : written.negative = false := by
  simp only [Decimal.read?, Decimal.takeSign_digit rest digit] at read
  split at read
  · cases read
  · obtain ⟨exponent, _, rfl⟩ := Option.map_eq_some_iff.mp read
    rfl

/-- Literals are read from digits, below the limit of their kind. -/
theorem IsLiteral.exists_decimal (isLiteral : IsLiteral literal) :
    ∃ first rest written, first.isDigit ∧ Decimal.read? (first :: rest) = some written ∧
      literal.value = written.toBinary64 ∧ literal.integral = Number.isIntegral (first :: rest) ∧
        Number.inRange literal.kind literal.value ∧ (literal.kind.isInteger → literal.integral) := by
  obtain ⟨first, rest, digit, read⟩ := isLiteral
  obtain ⟨written, -, integer, decimal, fits, same⟩ := Number.read_eq_ok_iff.mp read
  rw [String.toList_ofList, Number.splitSuffix_digit digit] at integer decimal same
  rw [same]
  exact ⟨first, _, written, digit, decimal, rfl, rfl, fits, integer⟩

/-- Literals have no sign and lie in range. -/
theorem IsLiteral.range (isLiteral : IsLiteral literal) : 0 ≤ literal.value.key ∧ literal.Fits := by
  obtain ⟨first, rest, written, digit, decimal, same, _, bound, _⟩ := isLiteral.exists_decimal
  have atLeast : 0 ≤ literal.value.key := same ▸ key_toBinary64_nonneg (read?_unsigned digit decimal)
  refine ⟨atLeast, fun isSigned sign => ⟨?_, ?_⟩⟩
  · exact Int.le_trans (Int.mul_nonpos_of_nonpos_of_nonneg (Word.least_le isSigned)
      (Int.natCast_nonneg _)) atLeast
  · unfold Number.inRange at bound
    cases kind : literal.kind <;> rw [kind] at sign bound <;> cases sign <;> exact of_decide_eq_true bound

end Surface

namespace Typed.Expr

open Typing (AllAnnotated)

/-- A literal lies in range, also behind a minus sign, and has the type of its kind. -/
def RootFits : Expr → Prop
  | .number literal type span =>
    0 ≤ literal.value.key ∧ LiteralFits (.number literal type span) ∧
      type = some (.scalar literal.kind.scalar)
  | .unary operator operand type span => LiteralFits (.unary operator operand type span)
  | _ => True

/-- Literal operands lie in range. -/
def OperandsFit : Expr → Prop
  | .binary _ left right _ _ => left.LiteralFits ∧ right.LiteralFits
  | _ => True

/-- An expression and the operands in it lie in range. -/
def AllFit (expression : Expr) : Prop :=
  expression.RootFits ∧ ∀ node ∈ expression.nodes, node.OperandsFit

/-- Then the literal itself does. -/
theorem RootFits.literalFits (fits : expression.RootFits) : expression.LiteralFits := by
  cases expression with
  | number literal type span => exact fits.2.1
  | unary operator operand type span => exact fits
  | _ => trivial

/-- What an integer type represents is in range. -/
theorem fits_of_represents {target : Scalar} {value : Binary64} {integral : Bool} (float : target ≠ .f32)
    (represents : Represents target value integral) {kind : Number.Kind} (suits : kind.scalar = target)
    (written : Bool) : Number.Fits ⟨value, kind, written⟩ := by
  intro isSigned sign
  cases kind with
  | abstract | f32 => exact absurd suits.symm float
  | f16 => cases sign
  | i32 =>
    cases suits
    cases sign
    exact represents.2
  | u32 =>
    cases suits
    cases sign
    rw [show Word.least false = 0 from rfl, Int.zero_mul]
    exact represents.2

/-- Coercion keeps literals in range. -/
theorem coerce_allFit (target : Scalar) (fits : expression.AllFit) :
    (expression.coerce target).AllFit := by
  rcases coerce_or_retyped target expression with
    same | ⟨float, numeric, value, integral, retyped, represents⟩
  · rwa [same]
  · refine ⟨?_, retyped.forall_nodes (fun _ _ _ => trivial) fun _ _ _ _ _ _ _ _ _ => trivial⟩
    generalize expression.coerce target = typed at retyped
    cases retyped with
    | number suits => exact ⟨fits.1.1, fits_of_represents float represents suits _, by rw [suits]⟩
    | negate below =>
      cases below with
      | number suits => exact fun _ => fits_of_represents float represents suits _
      | negate _ => trivial

/-- A minus sign before a literal stays in range. -/
theorem unary_rootFits (operator : UnaryOperator) {operand : Expr} (span : Span)
    (fits : operand.RootFits) : RootFits (.unary operator operand
      (operand.type.bind fun type => (Typing.unary operator type).toOption) span) := by
  cases operator with
  | not => trivial
  | negate =>
    cases operand with
    | number literal type innerSpan =>
      intro typed isSigned sign
      obtain ⟨nonnegative, range, rfl⟩ := fits
      obtain ⟨atLeast, atMost⟩ := range isSigned sign
      have isTrue : isSigned = true := by
        cases kind : literal.kind with
        | i32 =>
          rw [kind] at sign
          exact (Option.some.inj sign).symm
        | u32 =>
          rw [kind] at typed
          exact absurd rfl typed
        | abstract | f32 | f16 =>
          rw [kind] at sign
          cases sign
      subst isTrue
      rw [Binary64.key_negate]
      have scale := Int.natCast_nonneg Binary64.one
      simp only [Word.least, Word.greatest, if_true, Number.leastI32, Number.greatestI32]
        at atLeast atMost ⊢
      generalize literal.value.key = key at *
      generalize (Binary64.one : Int) = one at *
      omega
    | _ => trivial

/-- Every step of typing keeps literals in range. -/
theorem allFit_kept : Typing.Kept Surface.written AllFit where
  coerce target _ fits := coerce_allFit target fits
  node node made inner := by
    have below (here : node.OperandsFit) : ∀ one ∈ node.nodes, one.OperandsFit :=
      forall_nodes.mpr ⟨here, fun part isPart => (inner part isPart).2⟩
    cases node with
    | number literal type span =>
      obtain ⟨known, rfl⟩ := made
      obtain ⟨nonnegative, fits⟩ := Surface.IsLiteral.range known
      exact ⟨⟨nonnegative, fits, rfl⟩, below trivial⟩
    | binary operator left right =>
      exact ⟨trivial, below ⟨(inner left (by simp [parts])).1.literalFits,
        (inner right (by simp [parts])).1.literalFits⟩⟩
    | unary operator operand type span =>
      obtain rfl := made
      exact ⟨unary_rootFits operator span (inner operand List.mem_cons_self).1, below trivial⟩
    | _ => exact ⟨trivial, below trivial⟩

/-- Where nothing was told, folding reads numbers in range unless through a minus sign before the
least integer. -/
theorem readsInRange_of_elaborate {context : Typing.Context} {written : Surface.Expr}
    {hint : Option Scalar} (known : Surface.written.HasExpr written)
    (silent : (Typing.elaborate context written hint).log = []) {node : Expr}
    (inside : node ∈ (Typing.elaborate context written hint).value.nodes)
    (safe : node.readsThroughLeast = false) : ReadsInRange node := by
  have annotated := Typing.elaborate_annotated context written hint
  rw [silent] at annotated
  have fits := ((Typing.elaborate_elaborates written hint).kept allFit_kept known).2 node inside
  cases node with
  | binary operator left right type span =>
    exact readsInRange (fun inner below => annotated inner (mem_nodes_trans inside below)) fits.1
      fits.2 safe
  | _ => trivial

/-- In a program without errors, constant folding keeps the type, the place and the value of every
node, unless folding reads through a minus sign before what it has folded to the least signed
integer. -/
theorem folded_keeps_value (source : SourceText) (options : Options)
    (clean : hasErrors (check source options).diagnostics = false)
    (function : Function Expr DeclaredType)
    (member : function ∈ (check source options).program.functions) (expression : Expr)
    (inside : expression ∈ functionNodes function) :
    expression.folded.type = expression.type ∧ expression.folded.span = expression.span ∧
      ((∀ node ∈ expression.nodes, node.readsThroughLeast = false) →
        ∀ (environment : String → Option Word) (word : Word),
          expression.eval environment = some word →
            expression.folded.eval environment = some word) := by
  refine ⟨type_folded expression, span_folded expression, fun safe environment word meant => ?_⟩
  obtain ⟨whole, wholeInside, below⟩ := mem_allNodes.mp inside
  obtain ⟨context, written, hint, known, rfl, silent⟩ := typed_of_check clean member wholeInside
  exact eval_folded (fun node inner => readsInRange_of_elaborate known silent
    (mem_nodes_trans below inner) (safe node inner)) meant

/-- For `x` of 5, `x + -2147483648 / 2` keeps its value. -/
theorem folded_half_of_least_keeps_value :
    let source : SourceText := ⟨"half.shade",
      "@compute fn main() \x7b var x: i32 = 5; x = x + -2147483648 / 2; \x7d"⟩
    let environment (name : String) : Option Word := if name = "x" then some (.signed 5) else none
    hasErrors (check source {}).diagnostics = false ∧
      ∃ function ∈ (check source {}).program.functions, ∃ node ∈ functionNodes function,
        (∀ inner ∈ node.nodes, inner.readsThroughLeast = false) ∧
          node.eval environment = some (.signed (-1073741819)) ∧
            node.folded.eval environment = some (.signed (-1073741819)) := by
  intro source environment
  have clean : hasErrors (check source {}).diagnostics = false := by decide +kernel
  obtain ⟨function, member, node, inside, safe, meant⟩ :
      ∃ function ∈ (check source {}).program.functions, ∃ node ∈ functionNodes function,
        (∀ inner ∈ node.nodes, inner.readsThroughLeast = false) ∧
          node.eval environment = some (.signed (-1073741819)) := by decide +kernel
  have kept := (folded_keeps_value source {} clean function member node inside).2.2 safe
  exact ⟨clean, function, member, node, inside, safe, meant, kept environment _ meant⟩

/-- The sum `-(-2147483647 - 1) + 0` wraps around to the least integer, but folding cuts it to the
greatest one. -/
theorem folding_cuts_negated_least :
    let source : SourceText := ⟨"least.shade",
      "@compute fn main() \x7b let x: i32 = -(-2147483647 - 1) + 0; \x7d"⟩
    hasErrors (check source {}).diagnostics = false ∧
      ∃ function ∈ (check source {}).program.functions, ∃ node ∈ functionNodes function,
        node.eval (fun _ => none) = some (.signed (BitVec.intMin 32)) ∧
          node.folded.eval (fun _ => none) = some (.signed (BitVec.intMax 32)) := by
  decide +kernel

end Typed.Expr

end Shading
