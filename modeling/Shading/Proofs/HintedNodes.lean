import Shading.Proofs.Hints

/-!
# Nodes whose parts were typed with a hint

A node is typed by a verdict on the types of its parts. Parts that were typed with a hint keep their
types or have the hinted component type, so the two verdicts can be compared. Negation, arithmetic and
the constructors that name no component type bear a hint under a condition of their own; where it fails,
something is told.
-/

namespace Shading.Typing

open List

open Typed (Callee Expr holds)
open Typed.Expr (unify types? concreteElement?)

/-- What a hint makes of an expression: if it bears the hint, it is silent and stays or takes the
hint; otherwise something is told. -/
structure Outcome (hint : Scalar) (bears : Prop) (moved : Bool) (plain : Expr)
    (hinted : Logged Issue Expr) : Prop where
  silent : bears → hinted.log = [] ∧ Adopts hint moved plain hinted.value
  told : ¬bears → hinted.log ≠ []

namespace Outcome

variable {hint : Scalar} {bears other : Prop} {moved : Bool} {plain : Expr}
  {hinted : Logged Issue Expr}

/-- Equivalent conditions have the same outcome. -/
theorem congr (outcome : Outcome hint bears moved plain hinted) (same : bears ↔ other) :
    Outcome hint other moved plain hinted where
  silent fine := outcome.silent (same.mpr fine)
  told refused := outcome.told fun fine => refused (same.mp fine)

/-- Nothing is told exactly if the hint is borne. -/
theorem silent_iff [Decidable bears] (outcome : Outcome hint bears moved plain hinted) :
    hinted.log = [] ↔ bears := by
  constructor
  · intro nothing
    exact Decidable.byContradiction fun refused => outcome.told refused nothing
  · exact fun fine => (outcome.silent fine).1

end Outcome

section Judged

variable {hint : Scalar} {moved : Bool} {make made : Option Ty → Expr} {span : Span}
  {verdict again : Option (Except TypingError Ty)} {bears : Ty → Prop}

/-- The type of a judged node is that of its verdict. -/
theorem value_judged : (judged make verdict span).value = make (verdict.bind Except.toOption) := by
  rw [judged_eq]

/-- The type of a node is that of an accepting verdict. -/
theorem verdict_of_typed {type : Ty} (keeps : ∀ type, (make type).type = type)
    (typed : (judged make verdict span).value.type = some type) : verdict = some (.ok type) := by
  rw [value_judged, keeps] at typed
  exact accepted_of_given typed

/-- A silent node has an accepted type or none. -/
theorem verdict_of_silent (clean : (judged make verdict span).log = []) :
    verdict = none ∨ ∃ type, verdict = some (.ok type) := by
  rcases verdict with _ | (error | type)
  · exact .inl rfl
  · cases clean
  · exact .inr ⟨type, rfl⟩

/-- The outcome of a node follows from that of its verdict. -/
theorem judged_outcome (clean : (judged make verdict span).log = [])
    (typed : ∀ type, (make type).type = type) (retyped : ∀ type, (made type).type = type)
    (literal : FloatLiteral (judged make verdict span).value)
    (concrete : ∀ type, (made type).isAbstractLiteral = false) (same : moved = false → made = make)
    (untyped : verdict = none → again = none)
    (number : ∀ type, verdict = some (.ok type) → moved → type.isNumeric)
    (accepted : ∀ type, verdict = some (.ok type) → bears type →
      again = some (.ok (if moved then type.withElement hint else type)))
    (refused : ∀ type, verdict = some (.ok type) → ¬bears type →
      ∃ error, again = some (.error error)) :
    Outcome hint (∀ type ∈ (judged make verdict span).value.type, bears type) moved
      (judged make verdict span).value (judged made again span) := by
  have adopts (type : Option Ty) (float : FloatLiteral (make type))
      (numbers : moved → ∀ found ∈ type, found.isNumeric) :
      Adopts hint moved (make type)
        (made (type.map fun type => if moved then type.withElement hint else type)) := by
    cases moved with
    | false =>
      have concretePlain : (make type).isAbstractLiteral = false := by
        rw [← same rfl]
        exact concrete type
      simpa [same rfl] using Adopts.same concretePlain
    | true =>
      refine ⟨float, nofun, fun _ => ?_, fun _ => concrete _, fun _ => ?_⟩
      · rw [typed, retyped]
        rfl
      · rw [typed]
        exact numbers rfl
  rcases verdict_of_silent clean with none | ⟨type, ok⟩
  · cases none
    cases untyped rfl
    refine ⟨fun _ => ⟨rfl, adopts none literal nofun⟩, fun disturbed => absurd ?_ disturbed⟩
    simp [judged, typed]
  · cases ok
    constructor
    · intro all
      have bearing : bears type := all type (typed (some type))
      rw [accepted type rfl bearing]
      refine ⟨rfl, adopts (some type) literal fun moves found member => ?_⟩
      cases member
      exact number type rfl moves
    · intro disturbed
      have unbearing : ¬bears type := by
        intro bearing
        refine disturbed fun found member => ?_
        have same : found = type := Option.some.inj (member.symm.trans (typed (some type)))
        exact same ▸ bearing
      obtain ⟨error, told⟩ := refused type rfl unbearing
      rw [told]
      exact nofun

end Judged

section Unary

variable {hint : Scalar} {span : Span} {operator : UnaryOperator} {operand : Expr}

/-- A minus sign in front of a literal leaves it a float. -/
theorem unaryNode_literal (operator : UnaryOperator) (span : Span)
    (literal : FloatLiteral operand) :
    FloatLiteral (unaryNode operator operand none span).value := by
  rw [unaryNode_eq_judged]
  cases operator with
  | negate =>
    cases typed : operand.type with
    | none =>
      intro abstract
      rw [literal abstract] at typed
      cases typed
    | some type =>
      intro abstract
      rw [literal abstract] at typed
      cases typed
      rfl
  | not => cases operand.type <;> exact nofun

/-- A unary operator bears the hint unless it negates an unsigned number. -/
theorem unaryNode_outcome {hinted : Expr} (numeric : hint.isNumeric)
    (adopts : Adopts hint true operand hinted)
    (clean : (unaryNode operator operand none span).log = []) :
    Outcome hint (∀ type ∈ (unaryNode operator operand none span).value.type, hint ≠ .u32) true
      (unaryNode operator operand none span).value
      (unaryNode operator hinted (some hint) span) := by
  have literal := unaryNode_literal operator span adopts.literal
  have concrete (type : Option Ty) :
      (Expr.unary operator hinted type span).isAbstractLiteral = false := by
    cases operator with
    | negate => exact adopts.concrete rfl
    | not => rfl
  have unmoved : unaryNode operator hinted (some hint) span =
      unaryNode operator hinted none span := by
    rw [unaryNode_eq, coerceTo_of_concrete]
    rw [unaryNode_eq_judged, value_judged]
    exact concrete _
  rw [unmoved]
  rw [unaryNode_eq_judged] at clean literal
  rw [unaryNode_eq_judged, unaryNode_eq_judged, adopts.type rfl]
  have found {type : Ty} (ok : operand.type.map (unary operator) = some (.ok type)) :
      operand.type = some type ∧ unary operator type = .ok type := by
    obtain ⟨inner, typed, accepted⟩ := Option.map_eq_some_iff.mp ok
    cases unary_type accepted
    exact ⟨typed, accepted⟩
  refine judged_outcome clean (fun _ => rfl) (fun _ => rfl) literal concrete
    (fun kept => nomatch kept) ?_ ?_ ?_ ?_
  · simp
  · intro type ok _
    exact adopts.numeric rfl type (found ok).1
  · intro type ok signed
    obtain ⟨typed, accepted⟩ := found ok
    rw [typed, Option.map_some, Option.map_some,
      unary_withElement numeric (adopts.numeric rfl type typed) accepted, if_neg signed, if_pos rfl]
  · intro type ok unsigned
    obtain ⟨typed, accepted⟩ := found ok
    rw [typed, Option.map_some, Option.map_some,
      unary_withElement numeric (adopts.numeric rfl type typed) accepted,
      if_pos (Decidable.not_not.mp unsigned)]
    exact ⟨_, rfl⟩

end Unary

section Nodes

variable {hint : Scalar} {span : Span}

/-- Operands are matched as all other neighbours are. -/
theorem matchOperands_eq (left right : Expr) :
    matchOperands left right =
      (left.coerceTo (concreteElement? [left, right]),
        right.coerceTo (concreteElement? [left, right])) := by
  unfold matchOperands
  cases leftLiteral : left.isAbstractLiteral <;> cases rightLiteral : right.isAbstractLiteral
  case true.true => simp [concreteElement?, leftLiteral, rightLiteral, Expr.coerceTo]
  all_goals simp [concreteElement?, leftLiteral, rightLiteral, coerceTo_of_concrete]

section Binary

variable {operator : BinaryOperator} {left right hintedLeft hintedRight : Expr}
  {movedLeft movedRight : Bool}

section Accepted

variable {target other : Option Scalar} {leftType rightType type : Ty}
  (leftAdopts : Adopts hint movedLeft left hintedLeft)
  (rightAdopts : Adopts hint movedRight right hintedRight) (passed : operator.isArithmetic)
  (leftTyped : (left.coerceTo target).type = some leftType)
  (rightTyped : (right.coerceTo target).type = some rightType)
  (accepted : binary operator leftType rightType = .ok type)

include leftAdopts rightAdopts passed leftTyped rightTyped accepted

/-- Arithmetic that bears a hint is accepted with it. -/
theorem binary_of_bears (float : hint ≠ .f32) (numeric : hint.isNumeric)
    (bears : type.element? = some hint ∨ movedLeft = movedRight)
    (unmoved : (movedLeft || movedRight) = false → other = target) :
    ((hintedLeft.coerceTo other).type.bind fun leftType =>
        (hintedRight.coerceTo other).type.map (binary operator leftType)) =
      some (.ok (if movedLeft || movedRight then type.withElement hint else type)) := by
  obtain ⟨element, _, leftElement, rightElement, result⟩ := binary_element passed accepted
  rcases bears with hinted | together
  · -- The operands have components of the hinted type anyway.
    cases result.symm.trans hinted
    rw [leftAdopts.type_of_element float leftTyped leftElement,
      rightAdopts.type_of_element float rightTyped rightElement, Option.bind_some, Option.map_some,
      accepted, Ty.withElement_of_element hinted, ite_self]
  · cases together
    cases movedLeft with
    | false =>
      rw [(leftAdopts.kept rfl).1, (rightAdopts.kept rfl).1, unmoved rfl, leftTyped, rightTyped,
        Option.bind_some, Option.map_some, accepted]
      rfl
    | true =>
      rw [leftAdopts.type_of_moved target other, rightAdopts.type_of_moved target other, leftTyped,
        rightTyped]
      simp [binary_withElement passed accepted numeric]

/-- Arithmetic that does not bear a hint is refused with it. -/
theorem binary_of_disturbed (float : hint ≠ .f32)
    (disturbed : ¬(type.element? = some hint ∨ movedLeft = movedRight)) :
    ∃ error, ((hintedLeft.coerceTo other).type.bind fun leftType =>
      (hintedRight.coerceTo other).type.map (binary operator leftType)) = some (.error error) := by
  obtain ⟨element, _, leftElement, rightElement, result⟩ := binary_element passed accepted
  have leftHas := leftAdopts.isSome_type target other
  have rightHas := rightAdopts.isSome_type target other
  rw [leftTyped, Option.isSome_some, Option.isSome_iff_exists] at leftHas
  rw [rightTyped, Option.isSome_some, Option.isSome_iff_exists] at rightHas
  obtain ⟨newLeft, leftFound⟩ := leftHas
  obtain ⟨newRight, rightFound⟩ := rightHas
  rw [leftFound, rightFound, Option.bind_some, Option.map_some]
  cases refused : binary operator newLeft newRight with
  | error error => exact ⟨error, rfl⟩
  | ok again =>
    -- One operand has components of the hinted type, so the other one has as well, and it had
    -- them without the hint.
    obtain ⟨common, _, newLeftElement, newRightElement, _⟩ := binary_element passed refused
    refine absurd ?_ disturbed
    cases movedLeft <;> cases movedRight
    case false.false | true.true => exact .inr rfl
    case true.false =>
      cases newLeftElement.symm.trans (leftAdopts.element_of_moved leftFound)
      have own := rightAdopts.element_of_kept float rightTyped rightFound newRightElement
      cases rightElement.symm.trans own
      exact .inl result
    case false.true =>
      cases newRightElement.symm.trans (rightAdopts.element_of_moved rightFound)
      have own := leftAdopts.element_of_kept float leftTyped leftFound newLeftElement
      cases leftElement.symm.trans own
      exact .inl result

end Accepted

/-- Arithmetic bears a hint if its result has the type anyway, or both operands or none take it. -/
theorem binaryNode_outcome (float : hint ≠ .f32) (numeric : hint.isNumeric)
    (passed : operator.isArithmetic) (leftAdopts : Adopts hint movedLeft left hintedLeft)
    (rightAdopts : Adopts hint movedRight right hintedRight)
    (clean : (binaryNode operator left right span).log = []) :
    Outcome hint
      (∀ type ∈ (binaryNode operator left right span).value.type,
        type.element? = some hint ∨ movedLeft = movedRight)
      (movedLeft || movedRight) (binaryNode operator left right span).value
      (binaryNode operator hintedLeft hintedRight span) := by
  have kept (unmoved : (movedLeft || movedRight) = false) :
      hintedLeft = left ∧ hintedRight = right := by
    obtain ⟨rfl, rfl⟩ := Bool.or_eq_false_iff.mp unmoved
    exact ⟨(leftAdopts.kept rfl).1, (rightAdopts.kept rfl).1⟩
  rw [binaryNode_eq_judged, matchOperands_eq] at clean
  rw [binaryNode_eq_judged, binaryNode_eq_judged, matchOperands_eq, matchOperands_eq]
  generalize plainTarget : concreteElement? [left, right] = target at clean ⊢
  generalize hintedTarget : concreteElement? [hintedLeft, hintedRight] = other
  have unmoved (idle : (movedLeft || movedRight) = false) : other = target := by
    rw [← hintedTarget, (kept idle).1, (kept idle).2, plainTarget]
  have found {type : Ty}
      (ok : ((left.coerceTo target).type.bind fun leftType =>
        (right.coerceTo target).type.map (binary operator leftType)) = some (.ok type)) :
      ∃ leftType rightType, (left.coerceTo target).type = some leftType ∧
        (right.coerceTo target).type = some rightType ∧
        binary operator leftType rightType = .ok type := by
    obtain ⟨leftType, leftTyped, ok⟩ := Option.bind_eq_some_iff.mp ok
    obtain ⟨rightType, rightTyped, accepted⟩ := Option.map_eq_some_iff.mp ok
    exact ⟨leftType, rightType, leftTyped, rightTyped, accepted⟩
  refine judged_outcome clean (fun _ => rfl) (fun _ => rfl) ?_ (fun _ => rfl) ?_ ?_ ?_ ?_ ?_
  · rw [value_judged]
    exact .of_concrete rfl
  · intro idle
    rw [(kept idle).1, (kept idle).2, unmoved idle]
  · intro untyped
    have leftHas := leftAdopts.isSome_type target other
    have rightHas := rightAdopts.isSome_type target other
    cases leftTyped : (left.coerceTo target).type with
    | none =>
      rw [leftTyped, Option.isSome_none, Option.isSome_eq_false_iff,
        Option.isNone_iff_eq_none] at leftHas
      rw [leftHas, Option.bind_none]
    | some leftType =>
      rw [leftTyped, Option.bind_some, Option.map_eq_none_iff] at untyped
      rw [untyped, Option.isSome_none, Option.isSome_eq_false_iff,
        Option.isNone_iff_eq_none] at rightHas
      rw [rightHas]
      cases (hintedLeft.coerceTo other).type <;> rfl
  · intro type ok _
    obtain ⟨leftType, rightType, _, _, accepted⟩ := found ok
    obtain ⟨element, number, _, _, result⟩ := binary_element passed accepted
    simp [Ty.isNumeric, result, number]
  · intro type ok bears
    obtain ⟨leftType, rightType, leftTyped, rightTyped, accepted⟩ := found ok
    exact binary_of_bears leftAdopts rightAdopts passed leftTyped rightTyped accepted float numeric
      bears unmoved
  · intro type ok disturbed
    obtain ⟨leftType, rightType, leftTyped, rightTyped, accepted⟩ := found ok
    exact binary_of_disturbed leftAdopts rightAdopts passed leftTyped rightTyped accepted float
      disturbed

end Binary

section Neighbours

variable {expressions : List Expr} {types : List Ty} {element : Scalar}

/-- The types are those of each. -/
theorem types?_eq_some : types? expressions = some types ↔
    expressions.map Expr.type = types.map some := by
  induction expressions generalizing types with
  | nil => cases types <;> simp [types?]
  | cons first rest ih =>
    unfold types? at ih ⊢
    cases types with
    | nil => simp [mapM_cons, Option.bind_eq_some_iff]
    | cons type types =>
      simp [mapM_cons, Option.bind_eq_some_iff, ih]

/-- A concrete component type is that of one expression. -/
theorem mem_of_concreteElement? (found : concreteElement? expressions = some element) :
    ∃ expression ∈ expressions, expression.element? = some element := by
  obtain ⟨expression, member, has⟩ := exists_of_findSome?_eq_some found
  exact ⟨expression, (mem_filter.mp member).1, has⟩

/-- Among literals alone no component type is concrete. -/
theorem concreteElement?_of_literals
    (literals : ∀ expression ∈ expressions, expression.isAbstractLiteral) :
    concreteElement? expressions = none := by
  unfold concreteElement?
  rw [filter_eq_nil_iff.mpr (by simpa using literals)]
  rfl

/-- Where an expression is no literal, a type is concrete. -/
theorem concreteElement?_isSome {expression : Expr} (member : expression ∈ expressions)
    (concrete : expression.isAbstractLiteral = false) (has : expression.element? = some element) :
    (concreteElement? expressions).isSome := by
  unfold concreteElement?
  rw [findSome?_isSome_iff]
  exact ⟨expression, mem_filter.mpr ⟨member, by simp [concrete]⟩, by simp [has]⟩

/-- Each of typed expressions has a type. -/
theorem type_of_mem {expression : Expr} (typed : types? expressions = some types)
    (member : expression ∈ expressions) : ∃ type ∈ types, expression.type = some type := by
  have inside := mem_map_of_mem (f := Expr.type) member
  rw [types?_eq_some.mp typed, mem_map] at inside
  obtain ⟨type, inside, same⟩ := inside
  exact ⟨type, inside, same.symm⟩

/-- All have types if each has. -/
theorem types?_isSome : (types? expressions).isSome ↔
    ∀ expression ∈ expressions, expression.type.isSome := by
  constructor
  · intro has expression member
    obtain ⟨types, typed⟩ := Option.isSome_iff_exists.mp has
    obtain ⟨type, _, found⟩ := type_of_mem typed member
    simp [found]
  · intro each
    cases typed : types? expressions with
    | some types => rfl
    | none =>
      obtain ⟨expression, member, untyped⟩ := exists_untyped typed
      simpa [untyped] using each expression member

/-- The component type of what a constructor builds. -/
def builtElement (hint : Option Scalar) (arguments : List Expr) : Scalar :=
  ((concreteElement? arguments).or (hint.filter Scalar.isNumeric)).getD .f32

/-- Arguments of the hinted type give such a result. -/
theorem builtElement_eq (numeric : element.isNumeric) (typed : types? expressions = some types)
    (each : ∀ type ∈ types, type.element? = some element) :
    builtElement (some element) expressions = element := by
  unfold builtElement
  cases found : concreteElement? expressions with
  | none => simp [Option.filter, numeric]
  | some concrete =>
    obtain ⟨expression, member, has⟩ := mem_of_concreteElement? found
    obtain ⟨type, inside, own⟩ := type_of_mem typed member
    simp only [Expr.element?, own, Option.bind_some, each type inside, Option.some.injEq] at has
    simp [has]

/-- A constructor accepts only components of the type it builds. -/
theorem element_of_built {shape : Shape} {type : Ty} {hint : Option Scalar}
    (literals : ∀ expression ∈ expressions, FloatLiteral expression)
    (typed : types? expressions = some types)
    (accepted :
      shapeConstructor (shape.withElement (builtElement hint expressions)) types = .ok type) :
    ∀ type ∈ types, type.element? = some (builtElement hint expressions) := by
  rcases shapeConstructor_elements accepted with each | ⟨argument, found, rfl, has, shaped⟩
  · exact each
  · -- A single argument that is no scalar is no literal, so the result has its components.
    obtain ⟨single, rfl, singleTyped⟩ := map_eq_singleton_iff.mp (types?_eq_some.mp typed)
    have concrete : single.isAbstractLiteral = false := by
      cases literal : single.isAbstractLiteral with
      | false => rfl
      | true =>
        cases singleTyped.symm.trans (literals single (by simp) literal)
        cases has
        exact absurd rfl shaped
    have element : single.element? = some found := by simp [Expr.element?, singleTyped, has]
    simp [builtElement, concreteElement?, concrete, element, has]

end Neighbours

/-- The verdict of a constructor without a component type. -/
def construct (shape : Shape) (hint : Option Scalar) (arguments : List Expr) :
    Option (Except TypingError Ty) :=
  (types? (unify arguments)).map
    (shapeConstructor (shape.withElement (builtElement hint (unify arguments))))

/-- The call of a constructor without a component type. -/
def openCall (callee : Callee) (shape : Shape) (hint : Option Scalar) (span : Span)
    (arguments : List Expr) : Logged Issue Expr :=
  judged (fun type => .call callee (unify arguments) type span)
    ((types? (unify arguments)).map
      (shapeConstructor (shape.withElement (builtElement hint (unify arguments))))) span

/-- A shape without a component type is called as one. -/
theorem shapeCall_open {shape : Shape} (callee : Callee) (hint : Option Scalar) (span : Span)
    (unnamed : shape.element? = none) :
    shapeCall callee shape none hint span =
      { hint := fun _ => hint, finish := openCall callee shape hint span } := by
  simp only [shapeCall, unnamed, Option.bind_none, Option.or_none]
  congr
  funext arguments
  exact ruledCall_eq ..

section Constructors

variable {ι : Type} {items : List ι} {plain hinted : ι → Expr} {moved : ι → Bool} {shape : Shape}
  {callee : Callee}

/-- Unification coerces each to the concrete type. -/
theorem unify_map (items : List ι) (typed : ι → Expr) :
    unify (items.map typed) =
      items.map fun item => (typed item).coerceTo (concreteElement? (items.map typed)) := by
  simp [unify]

/-- Each unified argument has a type. -/
theorem type_of_argument {given : ι → Expr} {types : List Ty}
    (typed : types? (unify (items.map given)) = some types) {item : ι}
    (member : item ∈ items) :
    ∃ type ∈ types,
      ((given item).coerceTo (concreteElement? (items.map given))).type = some type := by
  apply type_of_mem typed
  rw [unify_map]
  exact mem_map_of_mem member

section Arguments

variable {types : List Ty}
  (adopts : ∀ item ∈ items, Adopts hint (moved item) (plain item) (hinted item))

include adopts

/-- All arguments have types with a hint if without. -/
theorem arguments_isSome :
    (types? (unify (items.map hinted))).isSome =
      (types? (unify (items.map plain))).isSome := by
  rw [Bool.eq_iff_iff, types?_isSome, types?_isSome, unify_map, unify_map]
  simp only [mem_map, forall_exists_index, and_imp, forall_apply_eq_imp_iff₂]
  generalize concreteElement? (items.map plain) = target
  generalize concreteElement? (items.map hinted) = other
  constructor
  · intro each item member
    rw [← (adopts item member).isSome_type target other]
    exact each item member
  · intro each item member
    rw [(adopts item member).isSome_type target other]
    exact each item member

/-- Arguments of the hinted type keep their types. -/
theorem arguments_of_element (float : hint ≠ .f32)
    (typed : types? (unify (items.map plain)) = some types)
    (each : ∀ type ∈ types, type.element? = some hint) :
    types? (unify (items.map hinted)) = some types := by
  have own (item : ι) (member : item ∈ items) := type_of_argument typed member
  rw [types?_eq_some, unify_map, map_map] at typed ⊢
  rw [← typed]
  apply map_congr_left
  intro item member
  obtain ⟨type, inside, found⟩ := own item member
  exact ((adopts item member).type_of_element float found (each type inside)).trans found.symm

/-- Arguments that take the hint have its type. -/
theorem arguments_of_moved (all : ∀ item ∈ items, moved item = true)
    (typed : types? (unify (items.map plain)) = some types) :
    types? (unify (items.map hinted)) = some (types.map (·.withElement hint)) := by
  rw [types?_eq_some, unify_map, map_map] at typed ⊢
  generalize concreteElement? (items.map plain) = target at typed
  generalize concreteElement? (items.map hinted) = other
  calc items.map (Expr.type ∘ fun item => (hinted item).coerceTo other)
      = items.map (Option.map (·.withElement hint) ∘
          Expr.type ∘ fun item => (plain item).coerceTo target) := by
        apply map_congr_left
        intro item member
        have here := adopts item member
        rw [all item member] at here
        exact here.type_of_moved target other
    _ = (types.map (·.withElement hint)).map some := by
        rw [← map_map, typed, map_map, map_map]
        rfl

end Arguments

/-- Accepted arguments have components of the type built. -/
theorem element_of_types {given : ι → Expr} {expected : Option Scalar} {types : List Ty} {type : Ty}
    (literals : ∀ item ∈ items, FloatLiteral (given item))
    (typed : types? (unify (items.map given)) = some types)
    (accepted : shapeConstructor
      (shape.withElement (builtElement expected (unify (items.map given)))) types = .ok type) :
    ∀ type ∈ types,
      type.element? = some (builtElement expected (unify (items.map given))) := by
  refine element_of_built ?_ typed accepted
  rw [unify_map]
  intro expression inside
  obtain ⟨item, member, rfl⟩ := mem_map.mp inside
  exact (literals item member).coerceTo _

/-- With an argument that is no literal, the hint does not matter. -/
theorem builtElement_of_concrete {item : ι} {element : Scalar} (expected : Option Scalar)
    (member : item ∈ items) (concrete : (plain item).isAbstractLiteral = false)
    (has : (plain item).element? = some element) :
    builtElement expected (unify (items.map plain)) =
      builtElement none (unify (items.map plain)) := by
  have inside : plain item ∈ unify (items.map plain) := by
    rw [unify_map, mem_map]
    exact ⟨item, member, coerceTo_of_concrete _ concrete⟩
  obtain ⟨found, here⟩ := Option.isSome_iff_exists.mp (concreteElement?_isSome inside concrete has)
  simp [builtElement, here]

/-- Among literals alone the hint is built, if there is one. -/
theorem builtElement_of_literals (expected : Option Scalar)
    (literals : ∀ item ∈ items, (plain item).isAbstractLiteral) :
    builtElement expected (unify (items.map plain)) =
      (expected.filter Scalar.isNumeric).getD .f32 := by
  have unbound : concreteElement? (items.map plain) = none :=
    concreteElement?_of_literals (by simpa using literals)
  have same : unify (items.map plain) = items.map plain := by
    rw [unify_map, unbound]
    rfl
  simp [builtElement, same, unbound]

/-- Some argument takes the hint, or all are literals. -/
def takesAny (items : List ι) (plain : ι → Expr) (moved : ι → Bool) : Bool :=
  items.all (fun item => (plain item).isAbstractLiteral) || items.any moved

section Accepted

variable {type : Ty} (adopts : ∀ item ∈ items, Adopts hint (moved item) (plain item) (hinted item))
  (made : construct shape none (items.map plain) = some (.ok type))

include adopts

/-- Otherwise the arguments stay as they are. -/
theorem map_of_untaken (untaken : takesAny items plain moved = false) :
    items.map hinted = items.map plain := by
  apply map_congr_left
  intro item member
  have here := adopts item member
  simp only [takesAny, Bool.or_eq_false_iff, any_eq_false] at untaken
  rw [Bool.eq_false_iff.mpr (untaken.2 item member)] at here
  exact (here.kept rfl).1

/-- A constructor that takes a hint builds its components. -/
theorem builtElement_of_taken {found : List Ty} (numeric : hint.isNumeric)
    (taken : takesAny items plain moved)
    (again : types? (unify (items.map hinted)) = some found)
    (others : ∀ type ∈ found,
      type.element? = some (builtElement (some hint) (unify (items.map hinted)))) :
    builtElement (some hint) (unify (items.map hinted)) = hint := by
  by_cases any : items.any moved
  · obtain ⟨item, member, moves⟩ := any_eq_true.mp any
    have here := adopts item member
    rw [moves] at here
    obtain ⟨type, listed, typed⟩ := type_of_argument again member
    exact Option.some.inj ((others type listed).symm.trans (here.element_of_moved typed))
  · have literals : ∀ item ∈ items, (hinted item).isAbstractLiteral := by
      intro item member
      have here := adopts item member
      have kept : moved item = false := by
        simpa using fun moves => any (any_eq_true.mpr ⟨item, member, moves⟩)
      rw [kept] at here
      rw [(here.kept rfl).1]
      rw [takesAny, Bool.eq_false_iff.mpr any, Bool.or_false, all_eq_true] at taken
      exact taken item member
    rw [builtElement_of_literals (some hint) literals]
    simp [Option.filter, numeric]

include made

/-- A constructor that takes a hint builds numbers. -/
theorem numeric_of_taken (taken : takesAny items plain moved) : type.isNumeric := by
  obtain ⟨types, typed, accepted⟩ := Option.map_eq_some_iff.mp made
  have each := element_of_types (fun item member => (adopts item member).literal) typed accepted
  have numbers : (builtElement none (unify (items.map plain))).isNumeric := by
    simp only [takesAny, Bool.or_eq_true, all_eq_true, any_eq_true] at taken
    rcases taken with literals | ⟨item, member, moves⟩
    · rw [builtElement_of_literals none literals]
      rfl
    · have here := adopts item member
      rw [moves] at here
      obtain ⟨own, inside, found⟩ := type_of_argument typed member
      simpa [Ty.isNumeric, each own inside] using here.numeric_of_moved found
  simp [shapeConstructor_type accepted, Ty.isNumeric, numbers]

/-- A constructor that bears a hint is accepted with it. -/
theorem accepted_of_bears (float : hint ≠ .f32) (numeric : hint.isNumeric)
    (bears : type.element? = some hint ∨ ∀ item ∈ items, moved item = takesAny items plain moved) :
    construct shape (some hint) (items.map hinted) =
      some (.ok (if takesAny items plain moved then type.withElement hint else type)) := by
  obtain ⟨types, typed, accepted⟩ := Option.map_eq_some_iff.mp made
  have each := element_of_types (fun item member => (adopts item member).literal) typed accepted
  have built := shapeConstructor_type accepted
  by_cases taken : takesAny items plain moved
  · rw [if_pos taken]
    have finish {found : List Ty} (again : types? (unify (items.map hinted)) = some found)
        (elements : ∀ type ∈ found, type.element? = some hint)
        (ok : shapeConstructor (shape.withElement hint) found = .ok (type.withElement hint)) :
        construct shape (some hint) (items.map hinted) = some (.ok (type.withElement hint)) := by
      rw [construct, builtElement_eq numeric again elements, again, Option.map_some, ok]
    rcases bears with same | all
    · rw [built, Shape.element?_withElement, Option.some.injEq] at same
      rw [same] at each accepted built
      refine finish (arguments_of_element adopts float typed each) each ?_
      rw [accepted, built, Shape.withElement_withElement]
    · simp only [taken] at all
      refine finish (arguments_of_moved adopts all typed) (by simp) ?_
      rw [shapeConstructor_withElement hint accepted, built, Shape.withElement_withElement]
  · rw [if_neg taken, map_of_untaken adopts (Bool.eq_false_iff.mpr taken)]
    simp only [takesAny, Bool.or_eq_true, all_eq_true, not_or, Classical.not_forall] at taken
    obtain ⟨⟨item, member, concrete⟩, -⟩ := taken
    have concrete := Bool.eq_false_iff.mpr concrete
    obtain ⟨own, inside, found⟩ := type_of_argument typed member
    rw [coerceTo_of_concrete _ concrete] at found
    have has : (plain item).element? =
        some (builtElement none (unify (items.map plain))) := by
      simp [Expr.element?, found, each own inside]
    rw [construct, builtElement_of_concrete (some hint) member concrete has, typed, Option.map_some,
      accepted]

/-- A constructor that does not bear a hint is refused. -/
theorem refused_of_disturbed (float : hint ≠ .f32) (numeric : hint.isNumeric)
    (disturbed : ¬(type.element? = some hint ∨
      ∀ item ∈ items, moved item = takesAny items plain moved)) :
    ∃ error, construct shape (some hint) (items.map hinted) = some (.error error) := by
  obtain ⟨types, typed, accepted⟩ := Option.map_eq_some_iff.mp made
  have each := element_of_types (fun item member => (adopts item member).literal) typed accepted
  have built := shapeConstructor_type accepted
  have has := arguments_isSome adopts
  rw [typed, Option.isSome_some, Option.isSome_iff_exists] at has
  obtain ⟨found, again⟩ := has
  rw [construct, again, Option.map_some]
  cases result : shapeConstructor
      (shape.withElement (builtElement (some hint) (unify (items.map hinted)))) found with
  | error error => exact ⟨error, rfl⟩
  | ok _ =>
    have others :=
      element_of_types (fun item member => (adopts item member).literal_hinted) again result
    simp only [not_or, Classical.not_forall] at disturbed
    obtain ⟨unlike, item, member, uneven⟩ := disturbed
    -- The constructor takes the hint and this argument does not.
    have taken_of_moved (any : items.any moved) : takesAny items plain moved := by
      simp [takesAny, any]
    have kept : moved item = false := by
      cases moves : moved item with
      | false => rfl
      | true =>
        rw [moves, taken_of_moved (any_eq_true.mpr ⟨item, member, moves⟩)] at uneven
        exact absurd rfl uneven
    have taken : takesAny items plain moved := by
      rw [kept] at uneven
      simpa using Ne.symm uneven
    have components := builtElement_of_taken adopts numeric taken again others
    have here := adopts item member
    rw [kept] at here
    obtain ⟨own, inside, owned⟩ := type_of_argument typed member
    obtain ⟨type, listed, found⟩ := type_of_argument again member
    have element := here.element_of_kept float owned found (components ▸ others type listed)
    rw [built, Shape.element?_withElement, ← each own inside] at unlike
    exact absurd element unlike

end Accepted

/-- A constructor bears a hint if its components have the type anyway, or if all arguments take it
where it does. -/
theorem openCall_outcome (float : hint ≠ .f32) (numeric : hint.isNumeric)
    (adopts : ∀ item ∈ items, Adopts hint (moved item) (plain item) (hinted item))
    (clean : (openCall callee shape none span (items.map plain)).log = []) :
    Outcome hint
      (∀ type ∈ (openCall callee shape none span (items.map plain)).value.type,
        type.element? = some hint ∨ ∀ item ∈ items, moved item = takesAny items plain moved)
      (takesAny items plain moved) (openCall callee shape none span (items.map plain)).value
      (openCall callee shape (some hint) span (items.map hinted)) := by
  refine judged_outcome clean (fun _ => rfl) (fun _ => rfl) ?_ (fun _ => rfl) ?_ ?_
    (fun _ made => numeric_of_taken adopts made)
    (fun _ made => accepted_of_bears adopts made float numeric)
    (fun _ made => refused_of_disturbed adopts made float numeric)
  · rw [value_judged]
    exact .of_concrete rfl
  · intro untaken
    rw [map_of_untaken adopts untaken]
  · intro untyped
    have has := arguments_isSome adopts
    rw [Option.map_eq_none_iff] at untyped ⊢
    simpa [untyped] using has

end Constructors

end Nodes

end Shading.Typing
