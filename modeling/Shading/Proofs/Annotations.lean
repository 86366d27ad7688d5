import Shading.Proofs.Elaborations

/-!
# The types of typed expressions

Typing gives every node of an expression a type, and literals may change theirs when their surroundings
expect another scalar. In the end every node still has the type that its rule gives to the final types
of its parts; a minus sign is coerced together with its literal. A node whose parts all have a type has
none only where that has been told, where a name is bound without a type, or where a function without a
resolved return type is called.
-/

namespace Shading

open List

variable {expression node left right : Expr} {target : Scalar} {α : Type} {span : Span}
  {name : String}

namespace Typing

open Typed (Callee Expr)
open Typed.Expr (parts mem_nodes_self forall_nodes)
open Typed.Expr (retype types? isAbstractLiteral literalValue? kindFor)

/-- What the rule of a node gives for the types of its parts. -/
def verdict : Expr → Option (Except TypingError Ty)
  | .binary operator left right _ _ =>
    left.type.bind fun leftType => right.type.map fun rightType => binary operator leftType rightType
  | .unary operator operand _ _ => operand.type.map fun operandType => unary operator operandType
  | .member base name _ _ _ => base.type.map fun baseType => (member baseType name).map Prod.fst
  | .index base position _ _ =>
    base.type.bind fun baseType => position.type.map fun positionType => index baseType positionType
  | .call (.builtin builtin) arguments _ _ =>
    (types? arguments).map fun types => (builtin.resultType types).mapError (.builtinCall builtin)
  | _ => none

/-- The constructor makes a value of a type from arguments. -/
inductive Constructs (name : String) (types : List Ty) (target : Ty) : Prop where
  | scalar (element : Scalar) (named : Scalar.ofName? name = some element)
      (accepted : scalarConstructor element types = .ok target)
  | array (explicit : Option Ty) (named : name = "array")
      (accepted : arrayConstructor explicit types = .ok target)
  | shape (shape : Shape) (element : Scalar) (named : Shape.ofName? name = some shape)
      (accepted : shapeConstructor (shape.withElement element) types = .ok target)

/-- The type of a node is the one its rule gives, or that of a literal behind a minus sign. -/
def FollowsRule (context : Context) : Expr → Prop
  | .number literal type _ => type = some (.scalar literal.kind.scalar)
  | .bool _ type _ => type = some .bool
  | .identifier name type _ => type = (context.lookup? name).bind Binding.type
  | .call (.user name) _ type _ => type = (context.function? name).bind Signature.result
  | .call (.struct name) _ type _ => type.isSome ∧ type = context.struct? name
  | .call (.constructor written) arguments type _ =>
    ∀ target, type = some target → ∃ name typeArguments span types,
      written = (WrittenType.mk name typeArguments span).text ∧
        types? arguments = some types ∧ Constructs name types target
  | .member base name kind type span =>
    type = (verdict (.member base name kind type span)).bind Except.toOption ∧
      ∀ baseType found, base.type = some baseType → member baseType name = .ok found → kind = found.2
  | .unary .negate operand type span =>
    type = (verdict (.unary .negate operand type span)).bind Except.toOption ∨
      (operand.literalValue?.isSome ∧ type.isSome ∧ type = operand.type)
  | node => node.type = (verdict node).bind Except.toOption

/-- Why a node has no type although its parts have: its rule refuses them, or it refers to something
without a type. -/
def Explained (context : Context) (log : List Issue) : Expr → Prop
  | .identifier name _ span =>
    (∃ binding, context.lookup? name = some binding ∧ binding.type = none) ∨
      .unresolved name span ∈ log
  | .call (.user name) _ _ span =>
    (∃ signature, context.function? name = some signature ∧ signature.result = none) ∨
      .undefinedFunction name span ∈ log
  | .call (.constructor _) _ _ span => ∃ error, .typing error span ∈ log
  | node => ∃ error, verdict node = some (.error error) ∧ .typing error node.span ∈ log

/-- A node follows its rule or its lack of a type is explained. -/
structure Annotated (context : Context) (log : List Issue) (node : Expr) : Prop where
  follows : FollowsRule context node
  explained : node.type = none → (∀ part ∈ parts node, part.type ≠ none) →
    Explained context log node

/-- All nodes of an expression are annotated. -/
def AllAnnotated (context : Context) (log : List Issue) (expression : Expr) : Prop :=
  ∀ node ∈ expression.nodes, Annotated context log node

variable {context : Context} {log more : List Issue}

/-- An explanation stays one when more is told. -/
theorem Explained.mono (subset : log ⊆ more) (explained : Explained context log node) :
    Explained context more node := by
  unfold Explained at explained ⊢
  split at explained
  · exact explained.imp id fun told => subset told
  · exact explained.imp id fun told => subset told
  · obtain ⟨error, told⟩ := explained
    exact ⟨error, subset told⟩
  · obtain ⟨error, refused, told⟩ := explained
    exact ⟨error, refused, subset told⟩

/-- It stays annotated when more is told. -/
theorem AllAnnotated.mono (annotated : AllAnnotated context log expression) (subset : log ⊆ more) :
    AllAnnotated context more expression := by
  intro node member
  obtain ⟨follows, explained⟩ := annotated node member
  exact ⟨follows, fun untyped typed => (explained untyped typed).mono subset⟩

/-- A node with annotated parts is annotated if it is itself. -/
theorem AllAnnotated.ofParts (here : Annotated context log expression)
    (below : ∀ part ∈ parts expression, AllAnnotated context log part) :
    AllAnnotated context log expression :=
  forall_nodes.mpr ⟨here, below⟩

/-- The kind of a coerced literal names its type. -/
theorem scalar_kindFor (float : target ≠ .f32) (numeric : target.isNumeric) (kind : Number.Kind) :
    (kindFor target kind).scalar = target := by
  cases target with
  | f32 => exact absurd rfl float
  | bool => simp [Scalar.isNumeric] at numeric
  | f16 | i32 | u32 => rfl

/-- A retyped literal has the type it is given. -/
theorem type_retype (target : Scalar) (literal : expression.isAbstractLiteral) :
    (expression.retype target).type = some (.scalar target) := by
  cases expression <;> simp_all [isAbstractLiteral, retype, Expr.type]

/-- A literal without a suffix has a value. -/
theorem literalValue?_isSome (literal : expression.isAbstractLiteral) :
    expression.literalValue?.isSome := by
  fun_induction isAbstractLiteral expression with
  | case1 => rfl
  | case2 operand _ _ ih => simpa [literalValue?] using ih literal
  | case3 => exact absurd literal (by simp)

/-- Retyping does not change the value of a literal. -/
theorem literalValue?_retype (target : Scalar) (expression : Expr) :
    (expression.retype target).literalValue? = expression.literalValue? := by
  fun_induction retype target expression with
  | case1 => rfl
  | case2 operator operand _ _ ih => cases operator <;> simp [literalValue?, ih]
  | case3 => rfl

/-- A retyped literal is annotated. -/
theorem retype_annotated (float : target ≠ .f32) (numeric : target.isNumeric)
    (literal : expression.isAbstractLiteral) :
    AllAnnotated context log (expression.retype target) := by
  fun_induction isAbstractLiteral expression with
  | case1 number _ span =>
    refine .ofParts ⟨?_, by simp [retype, Expr.type]⟩ (by simp [retype, parts])
    simp only [retype, FollowsRule]
    rw [scalar_kindFor float numeric]
  | case2 operand _ span ih =>
    have below := ih literal
    refine .ofParts ⟨?_, by simp [retype, Expr.type]⟩ (by simpa [retype, parts] using below)
    simp only [retype, FollowsRule]
    rw [literalValue?_retype, type_retype target literal]
    exact .inr ⟨literalValue?_isSome literal, rfl, rfl⟩
  | case3 => exact absurd literal (by simp)

/-- Coercion to a scalar keeps an expression annotated. -/
theorem coerce_annotated (target : Scalar) (annotated : AllAnnotated context log expression) :
    AllAnnotated context log (expression.coerce target) := by
  unfold Expr.coerce
  split
  · exact annotated
  · rename_i admitted
    simp only [Bool.or_eq_true, decide_eq_true_eq, Bool.not_eq_true', not_or,
      Bool.not_eq_false] at admitted
    obtain ⟨⟨float, numeric⟩, literal⟩ := admitted
    split
    · split
      · exact retype_annotated float numeric literal
      · exact annotated
    · exact annotated

/-- The value of a judged result is what the result holds. -/
theorem value_judge (result : Except TypingError α) (span : Span) :
    (judge result span).value = result.toOption := by
  cases result <;> rfl

/-- A judged result tells its error, if it is one. -/
theorem log_judge (result : Except TypingError α) (span : Span) :
    (judge result span).log = match result with
      | .ok _ => []
      | .error error => [.typing error span] := by
  cases result <;> rfl

/-- Of expressions that do not all have a type, one has none. -/
theorem exists_untyped {expressions : List Expr} (untyped : types? expressions = none) :
    ∃ part ∈ expressions, part.type = none := by
  induction expressions with
  | nil => simp [types?] at untyped
  | cons first rest ih =>
    cases firstTyped : first.type with
    | none => exact ⟨first, by simp, firstTyped⟩
    | some type =>
      have restUntyped : types? rest = none := by
        unfold types? at untyped ⊢
        cases restTyped : rest.mapM Expr.type with
        | none => rfl
        | some types => simp [mapM_cons, firstTyped, restTyped] at untyped
      obtain ⟨part, member, partUntyped⟩ := ih restUntyped
      exact ⟨part, by simp [member], partUntyped⟩

/-- Of two that do not both have a type, one has none. -/
theorem exists_untyped_pair {rule : Ty → Ty → Except TypingError Ty}
    (untyped : (left.type.bind fun leftType => right.type.map (rule leftType)) = none) :
    ∃ part ∈ [left, right], part.type = none := by
  cases leftTyped : left.type with
  | none => exact ⟨left, mem_cons_self, leftTyped⟩
  | some leftType =>
    rw [leftTyped, Option.bind_some, Option.map_eq_none_iff] at untyped
    exact ⟨right, mem_cons_of_mem _ mem_cons_self, untyped⟩

/-- A node typed by a verdict is annotated if it follows its rule and the error of the verdict
explains it. -/
theorem AllAnnotated.ofVerdict {result : Option (Except TypingError Ty)}
    (below : ∀ part ∈ parts node, AllAnnotated context log part)
    (follows : FollowsRule context node) (given : node.type = result.bind Except.toOption)
    (told : complaints result span ⊆ log)
    (unjudged : result = none → ∃ part ∈ parts node, part.type = none)
    (explains : ∀ error, result = some (.error error) → .typing error span ∈ log →
      Explained context log node) : AllAnnotated context log node := by
  refine .ofParts ⟨follows, fun missing typed => ?_⟩ below
  rcases result with _ | (error | type)
  · obtain ⟨part, inside, untyped⟩ := unjudged rfl
    exact absurd untyped (typed part inside)
  · exact explains error rfl (told mem_cons_self)
  · cases given.symm.trans missing

/-- What a constructor makes for an explicit type it makes. -/
theorem ConstructsFor.constructs {explicit : Option Ty} {types : List Ty} {target : Ty} :
    ConstructsFor explicit name types target → Constructs name types target
  | .scalar element named accepted => .scalar element named accepted
  | .array named accepted => .array explicit named accepted
  | .shape _ element named accepted => .shape _ element named accepted

/-- A call of annotated arguments is annotated. -/
theorem Called.annotated {typeArguments : List TypeArgument} {arguments : List Expr}
    {callee : Callee} {type : Option Ty} {before after : List Issue}
    (called : Called context name typeArguments arguments span callee type before after)
    (below : ∀ part ∈ arguments, AllAnnotated context log part) (earlier : before ⊆ log)
    (later : after ⊆ log) : AllAnnotated context log (.call callee arguments type span) := by
  cases called with
  | user declared =>
    refine .ofParts ⟨?_, fun untyped _ => .inl ⟨_, declared, untyped⟩⟩ below
    simp [FollowsRule, declared]
  | struct declared =>
    refine .ofParts ⟨?_, by simp⟩ below
    simp [FollowsRule, declared]
  | builtin builtin given =>
    refine .ofVerdict below ?_ rfl later (fun unjudged => ?_)
      fun error refused told => ⟨error, given.symm.trans refused, told⟩
    · subst given
      rfl
    · exact exists_untyped (Option.map_eq_none_iff.mp (given.symm.trans unjudged))
  | constructor _ _ sound given =>
    refine .ofVerdict below ?_ rfl later (fun unjudged => ?_) fun error _ told => ⟨error, told⟩
    · intro target made
      obtain ⟨types, typed, ruled⟩ :=
        Option.map_eq_some_iff.mp (given.symm.trans (accepted_of_given made))
      exact ⟨name, typeArguments, span, types, rfl, typed, (sound types _ ruled).constructs⟩
    · exact exists_untyped (Option.map_eq_none_iff.mp (given.symm.trans unjudged))
  | invalid =>
    refine .ofParts ⟨?_, fun _ _ => ⟨_, earlier mem_cons_self⟩⟩ below
    simp [FollowsRule]
  | undefined missing =>
    refine .ofParts ⟨?_, fun _ _ => .inr (earlier mem_cons_self)⟩ below
    simp [FollowsRule, missing]

/-- Two expressions stay annotated when both logs are told. -/
theorem AllAnnotated.both {leftLog rightLog : List Issue}
    (leftHolds : AllAnnotated context leftLog left)
    (rightHolds : AllAnnotated context rightLog right) :
    ∀ part ∈ [left, right], AllAnnotated context (leftLog ++ (rightLog ++ more)) part :=
  forall_mem_cons.mpr ⟨leftHolds.mono (subset_append_left ..), forall_mem_singleton.mpr
    (rightHolds.mono (subset_append_of_subset_right _ (subset_append_left ..)))⟩

mutual

/-- A typed expression is annotated. -/
theorem Elaborates.annotated {expression : Surface.Expr} {typed : Expr} {log : List Issue} :
    Elaborates context expression typed log → AllAnnotated context log typed
  | .coerce made target => coerce_annotated target made.annotated
  | .bool value span | .number literal span =>
    .ofParts ⟨rfl, by simp⟩ (forall_mem_nil _)
  | .bound found span =>
    .ofParts ⟨by simp [FollowsRule, found], fun untyped _ => .inl ⟨_, found, untyped⟩⟩
      (forall_mem_nil _)
  | .unbound missing span =>
    .ofParts ⟨by simp [FollowsRule, missing], fun _ _ => .inr mem_cons_self⟩
      (forall_mem_nil _)
  | .binary _ _ leftMade rightMade given | .index _ leftMade rightMade given => by
    subst given
    exact .ofVerdict (leftMade.annotated.both rightMade.annotated) rfl rfl
      (subset_append_of_subset_right _ (subset_append_right ..)) exists_untyped_pair
      fun error refused told => ⟨error, refused, told⟩
  | .unary operator span made given => by
    subst given
    refine .ofVerdict
      (forall_mem_singleton.mpr (made.annotated.mono (subset_append_left ..))) ?_ rfl
      (subset_append_right ..)
      (fun unjudged => ⟨_, mem_cons_self, Option.map_eq_none_iff.mp unjudged⟩) ?_
    · cases operator with
      | negate => exact .inl rfl
      | not => rfl
    · intro error refused told
      cases operator <;> exact ⟨error, refused, told⟩
  | .call span made called =>
    called.annotated (fun part inside => (made.annotated part inside).mono
        (subset_append_of_subset_right _ (subset_append_left ..)))
      (subset_append_left ..) (subset_append_of_subset_right _ (subset_append_right ..))
  | .member name span made given kinds => by
    subst given
    exact .ofVerdict
      (forall_mem_singleton.mpr (made.annotated.mono (subset_append_left ..)))
      ⟨rfl, kinds⟩ rfl (subset_append_right ..)
      (fun unjudged => ⟨_, mem_cons_self, Option.map_eq_none_iff.mp unjudged⟩)
      fun error refused told => ⟨error, refused, told⟩

/-- Typed expressions are annotated. -/
theorem ElaboratesAll.annotated {expressions : List Surface.Expr} {typed : List Expr}
    {log : List Issue} : ElaboratesAll context expressions typed log →
      ∀ part ∈ typed, AllAnnotated context log part
  | .nil => forall_mem_nil _
  | .cons first rest =>
    forall_mem_cons.mpr ⟨first.annotated.mono (subset_append_left ..),
      fun part inside => (rest.annotated part inside).mono (subset_append_right ..)⟩

end

/-- All that is elaborated is annotated. -/
theorem elaborate_annotated (context : Context) (expression : Surface.Expr) (hint : Option Scalar) :
    AllAnnotated context (elaborate context expression hint).log
      (elaborate context expression hint).value :=
  (elaborate_elaborates expression hint).annotated

/-- In a typed expression every node has the type that its rule gives to the types of its parts; a
node without a type whose parts have one is explained by a report, a name or a function without a
type. -/
theorem typed_nodes_follow_rules (context : Context) (expression : Surface.Expr)
    (hint : Option Scalar) (node : Expr)
    (inside : node ∈ (elaborate context expression hint).value.nodes) :
    FollowsRule context node ∧
      (node.type = none → (∀ part ∈ parts node, part.type ≠ none) →
        Explained context (elaborate context expression hint).log node) :=
  have annotated := elaborate_annotated context expression hint node inside
  ⟨annotated.follows, annotated.explained⟩

/-- The literal of `x + 1` takes the type of `x`. -/
theorem sum_with_literal_follows_rules :
    let context := Context.empty.bind "x" ⟨some (.scalar .i32), true, .none⟩
    let literal (kind : Number.Kind) : Number := ⟨.finite false Binary64.one, kind, true⟩
    let sum := Expr.binary .add (.identifier "x" (some (.scalar .i32)) .none)
      (.number (literal .i32) (some (.scalar .i32)) .none) (some (.scalar .i32)) .none
    let typed := elaborate context
      (.binary .add (.identifier "x" .none) (.number (literal .abstract) .none) .none) none
    typed.value = sum ∧ FollowsRule context sum ∧
      (sum.type = none → (∀ part ∈ parts sum, part.type ≠ none) →
        Explained context typed.log sum) := by
  intro context literal sum typed
  have fits : Typed.holds .i32 (.finite false Binary64.one) true = true := by decide +kernel
  have bound : context.lookup? "x" = some ⟨some (.scalar .i32), true, .none⟩ := rfl
  have value : typed.value = sum := by
    simp [typed, sum, literal, elaborate, bound, binaryNode, matchOperands, isAbstractLiteral,
      Expr.coerceTo, Expr.coerce, Expr.element?, Ty.element?, literalValue?, fits, retype,
      kindFor, Scalar.isNumeric, value_judge, binary, BinaryOperator.isLogical,
      BinaryOperator.isComparison, BinaryOperator.isArithmetic, Ty.isNumeric, arithmetic,
      Except.toOption]
  have inside : sum ∈ typed.value.nodes := by
    rw [value]
    exact mem_nodes_self sum
  exact ⟨value, typed_nodes_follow_rules context _ none sum inside⟩

end Typing

end Shading
