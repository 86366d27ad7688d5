import Shading.Proofs.Annotations
import Shading.Proofs.Words

/-!
# Literals that take another type

A literal without a suffix takes the type that its context expects together with the minus signs in
front of it, if the type has the value that the signs give it. That the type has signs is not asked:
`-0` becomes an unsigned number behind a minus, which unsigned numbers do not take.
-/

namespace Shading.Typed.Expr

open List

/-- Two literals behind minus signs that differ only in kind and types; `value` includes the signs. -/
inductive Retyped (target : Scalar) : Binary64 → Bool → Expr → Expr → Prop where
  | number {literal : Number} {kind : Number.Kind} {type : Option Ty} {span : Span}
      (suits : kind.scalar = target) :
      Retyped target literal.value literal.integral (.number literal type span)
        (.number { literal with kind } (some (.scalar target)) span)
  | negate {value : Binary64} {integral : Bool} {operand typed : Expr} {type : Option Ty} {span : Span}
      (inside : Retyped target value integral operand typed) :
      Retyped target value.negate integral (.unary .negate operand type span)
        (.unary .negate typed (some (.scalar target)) span)

/-- The scalar type has the value of a number. -/
def Represents (target : Scalar) (value : Binary64) (integral : Bool) : Prop :=
  match target with
  | .f32 => True
  | .f16 => value.isFinite ∧ -65504 * Binary64.one ≤ value.key ∧ value.key ≤ 65504 * Binary64.one
  | .i32 => integral ∧ Number.leastI32 * Binary64.one ≤ value.key ∧
      value.key ≤ Number.greatestI32 * Binary64.one
  | .u32 => integral ∧ 0 ≤ value.key ∧ value.key ≤ Number.greatestU32 * Binary64.one
  | .bool => False

/-- Every minus sign stands before an operand that takes it. -/
def NegationsAccepted (expression : Expr) : Prop :=
  ∀ operand type span, .unary .negate operand type span ∈ expression.nodes →
    ∃ found, operand.type = some found ∧ Typing.unary .negate found = .ok found

variable {target : Scalar} {value : Binary64} {integral : Bool} {expression typed : Expr}

/-- A number that is held is represented. -/
theorem represents_of_holds (held : holds target value integral) : Represents target value integral := by
  cases target with
  | f32 => trivial
  | bool => cases held
  | f16 | i32 | u32 =>
    simp only [holds, Bool.and_eq_true, decide_eq_true_eq] at held
    exact ⟨held.1.1, held.1.2, held.2⟩

/-- A literal is retyped to what it is but for types. -/
theorem retyped_retype (float : target ≠ .f32) (numeric : target.isNumeric)
    (literal : expression.isAbstractLiteral) (found : expression.literalValue? = some (value, integral)) :
    Retyped target value integral expression (expression.retype target) := by
  fun_induction isAbstractLiteral expression generalizing value with
  | case1 number type span =>
    cases found
    exact .number (Typing.scalar_kindFor float numeric _)
  | case2 operand type span ih =>
    obtain ⟨⟨inner, flag⟩, below, same⟩ := Option.map_eq_some_iff.mp found
    cases same
    exact .negate (ih literal below)
  | case3 => exact absurd literal (by simp)

namespace Retyped

/-- A retyped literal has the scalar type. -/
theorem type_eq (retyped : Retyped target value integral expression typed) :
    typed.type = some (.scalar target) := by
  cases retyped <;> rfl

/-- What holds of minus signs and numbers holds of all nodes. -/
theorem forall_nodes {property : Expr → Prop} (retyped : Retyped target value integral expression typed)
    (signs : ∀ operand type span, property (.unary .negate operand type span))
    (numbers : ∀ literal kind type span place, .number literal type span ∈ expression.nodes →
      value.key.natAbs = literal.value.key.natAbs → integral = literal.integral → kind.scalar = target →
        property (.number { literal with kind } (some (.scalar target)) place)) :
    ∀ node ∈ typed.nodes, property node := by
  induction retyped with
  | number suits =>
    exact forall_mem_singleton.mpr (numbers _ _ _ _ _ (mem_nodes_self _) rfl rfl suits)
  | @negate value _ _ _ _ _ inside ih =>
    refine forall_mem_cons.mpr ⟨signs _ _ _, ih fun literal kind type span place member => ?_⟩
    rw [← Int.natAbs_neg, ← Binary64.key_negate]
    exact numbers literal kind type span place (mem_cons_of_mem _ member)

/-- All types but the unsigned one take minus signs. -/
theorem negationsAccepted_iff (retyped : Retyped target value integral expression typed)
    (numeric : target.isNumeric) :
    typed.NegationsAccepted ↔
      (target = .u32 → ∀ operand type span, expression ≠ .unary .negate operand type span) := by
  constructor
  · rintro accepted rfl operand type span rfl
    cases retyped with
    | negate inside =>
      obtain ⟨found, typed, taken⟩ := accepted _ _ _ (.head _)
      rw [inside.type_eq] at typed
      cases typed
      cases taken
  · intro signed
    induction retyped with
    | number suits =>
      intro operand type span member
      cases mem_singleton.mp member
    | negate inside ih =>
      have other : target ≠ .u32 := fun unsigned => signed unsigned _ _ _ rfl
      intro operand type span member
      rcases mem_cons.mp member with same | below
      · cases same
        exact ⟨_, inside.type_eq, by simp [Typing.unary, Ty.isNumeric, Ty.element?, numeric, other]⟩
      · exact ih (fun unsigned => absurd unsigned other) operand type span below

end Retyped

/-- Coercion changes nothing or gives a literal a type. -/
theorem coerce_or_retyped (target : Scalar) (expression : Expr) :
    expression.coerce target = expression ∨
      target ≠ .f32 ∧ target.isNumeric ∧ ∃ value integral,
        Retyped target value integral expression (expression.coerce target) ∧
          Represents target value integral := by
  unfold coerce
  split
  · exact .inl rfl
  · rename_i proper
    simp only [Bool.or_eq_true, decide_eq_true_eq, Bool.not_eq_true', not_or, Bool.not_eq_false] at proper
    obtain ⟨⟨float, numeric⟩, literal⟩ := proper
    split
    · rename_i value integral found
      split
      · rename_i held
        exact .inr ⟨float, numeric, value, integral, retyped_retype float numeric literal found,
          represents_of_holds held⟩
      · exact .inl rfl
    · exact .inl rfl

/-- Coercion leaves an expression as it is, or gives a literal and the minus signs before it a type
that has its value. The signs are well typed unless the number is unsigned. -/
theorem coercion_retypes (target : Scalar) (expression : Expr) :
    expression.coerce target = expression ∨
      ∃ value integral, Retyped target value integral expression (expression.coerce target) ∧
        Represents target value integral ∧
          ((expression.coerce target).NegationsAccepted ↔
            (target = .u32 → ∀ operand type span, expression ≠ .unary .negate operand type span)) := by
  rcases coerce_or_retyped target expression with same | ⟨_, numeric, value, integral, retyped, represents⟩
  · exact .inl same
  · exact .inr ⟨value, integral, retyped, represents, retyped.negationsAccepted_iff numeric⟩

/-- A negated zero becomes an unsigned number behind a minus. -/
theorem negated_zero_is_refused :
    let zero := Expr.number ⟨.finite false 0, .abstract, true⟩ (some (.scalar .f32)) default
    let unsigned := Expr.number ⟨.finite false 0, .u32, true⟩ (some (.scalar .u32)) default
    coerce .u32 (.unary .negate zero (some (.scalar .f32)) default) =
        .unary .negate unsigned (some (.scalar .u32)) default ∧
      ¬ NegationsAccepted (.unary .negate unsigned (some (.scalar .u32)) default) := by
  intro zero unsigned
  refine ⟨rfl, fun accepted => ?_⟩
  obtain ⟨found, typed, taken⟩ := accepted unsigned _ _ (.head _)
  cases typed
  cases taken

end Shading.Typed.Expr
