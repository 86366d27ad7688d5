import Shading.Proofs.HintedNodes

/-!
# Typing with a hint

Literals take a hint before they are matched with their neighbours, and then no longer match a neighbour
of another type, so a hint can add something to be told about an expression. When it does is read off
the source and the types that its parts have by themselves: what a hint makes of a node follows from
what it makes of the parts that the node passes it on to.
-/

namespace Shading.Typing

open List

open Typed (Callee Expr holds)

variable {name : String} {typeArguments : List TypeArgument} {shape : Shape} {span : Span}
  {element : Scalar} {type : Ty}

/-! ### Literals by themselves -/

/-- Operations are no literals. -/
theorem concrete_binaryNode (operator : BinaryOperator) (left right : Expr) (span : Span) :
    (binaryNode operator left right span).value.isAbstractLiteral = false := by
  rw [binaryNode_eq_judged, value_judged]
  rfl

/-- Members are no literals. -/
theorem concrete_memberNode (base : Expr) (name : String) (span : Span) :
    (memberNode base name span).value.isAbstractLiteral = false := by
  unfold memberNode
  split
  · rw [Logged.value_bind]
    split <;> rfl
  · rfl

/-- Elements are no literals. -/
theorem concrete_indexNode (base position : Expr) (span : Span) :
    (indexNode base position span).value.isAbstractLiteral = false := by
  unfold indexNode
  split <;> rfl

/-- Calls are no literals. -/
theorem concrete_callPlan (context : Context) (name : String) (typeArguments : List TypeArgument)
    (hint : Option Scalar) (span : Span) (arguments : List Expr) :
    ((callPlan context name typeArguments hint span).finish arguments).value.isAbstractLiteral =
      false := by
  obtain ⟨given, callee, type, after, -, -, made⟩ :=
    callPlan_calls context name typeArguments hint span arguments
  rw [made]
  rfl

/-- Unary operations keep operator and operand. -/
theorem value_unaryNode (operator : UnaryOperator) (operand : Expr) (span : Span) :
    ∃ type, (unaryNode operator operand none span).value = .unary operator operand type span := by
  rw [unaryNode_eq_judged, value_judged]
  exact ⟨_, rfl⟩

/-- Typing makes literals of literals only, and these are floats of the value written. -/
structure TypedLiteral (expression : Surface.Expr) (typed : Expr) : Prop where
  float : FloatLiteral typed
  literal : typed.isAbstractLiteral = isSignedLiteral expression
  value : isSignedLiteral expression → typed.literalValue? = signedLiteral? expression

/-- What stays concrete is no literal. -/
theorem TypedLiteral.of_concrete {expression : Surface.Expr} {typed : Expr}
    (unsigned : signedLiteral? expression = none) (concrete : typed.isAbstractLiteral = false) :
    TypedLiteral expression typed where
  float := .of_concrete concrete
  literal := by simp [isSignedLiteral, unsigned, concrete]
  value literal := by simp [isSignedLiteral, unsigned] at literal

/-- Without a hint, all expressions are so. -/
theorem typedLiteral_elaborate (context : Context) : (expression : Surface.Expr) →
    TypedLiteral expression (elaborate context expression none).value
  | .bool .. => .of_concrete rfl rfl
  | .number number span => by
    refine ⟨fun literal => ?_, ?_, fun literal => ?_⟩
    · have abstract : number.kind = .abstract := of_decide_eq_true literal
      simp [elaborate, Expr.coerceTo, abstract, Number.Kind.scalar]
    · by_cases abstract : number.kind = .abstract <;>
        simp [elaborate, Expr.coerceTo, Expr.isAbstractLiteral, isSignedLiteral, signedLiteral?,
          abstract]
    · by_cases abstract : number.kind = .abstract
      · simp [elaborate, Expr.coerceTo, Expr.literalValue?, signedLiteral?, abstract]
      · simp [isSignedLiteral, signedLiteral?, abstract] at literal
  | .identifier name span => by
    refine .of_concrete rfl ?_
    unfold elaborate
    split <;> rfl
  | .binary operator left right span => .of_concrete rfl (concrete_binaryNode ..)
  | .unary operator operand span => by
    have inner := typedLiteral_elaborate context operand
    simp only [elaborate, ite_self, Logged.value_bind]
    generalize (elaborate context operand none).value = typed at inner
    obtain ⟨type, made⟩ := value_unaryNode operator typed span
    cases operator with
    | not =>
      refine .of_concrete rfl ?_
      rw [made]
      rfl
    | negate =>
      refine ⟨unaryNode_literal .negate span inner.float, ?_, fun literal => ?_⟩
      · rw [made]
        simpa [Expr.isAbstractLiteral, isSignedLiteral, signedLiteral?] using inner.literal
      · rw [made]
        simp only [isSignedLiteral, signedLiteral?, Option.isSome_map] at literal
        simp [Expr.literalValue?, signedLiteral?, inner.value literal]
  | .call name typeArguments arguments span => .of_concrete rfl (concrete_callPlan ..)
  | .member base name span => .of_concrete rfl (concrete_memberNode ..)
  | .index base position span => .of_concrete rfl (concrete_indexNode ..)

/-- A literal fits if the type holds its value. -/
theorem fits_eq (context : Context) (hint : Scalar) (expression : Surface.Expr) :
    fits hint expression =
      ((elaborate context expression none).value.isAbstractLiteral &&
        (elaborate context expression none).value.literalValue?.any
          fun (value, integral) => holds hint value integral) := by
  obtain ⟨_, literal, value⟩ := typedLiteral_elaborate context expression
  rw [literal]
  cases signed : isSignedLiteral expression with
  | false =>
    rw [isSignedLiteral, Option.isSome_eq_false_iff, Option.isNone_iff_eq_none] at signed
    simp [fits, signed]
  | true => rw [value signed, Bool.true_and, fits]

/-! ### Calls that pass their hint on -/

/-- A shape is not named like a scalar or an array. -/
theorem scalar_ofName?_of_shape (named : Shape.ofName? name = some shape) :
    Scalar.ofName? name = none ∧ name ≠ "array" := by
  constructor
  · unfold Scalar.ofName?
    split <;> first | rfl | cases named
  · rintro rfl
    cases named

/-- A shape written with its component type has components. -/
theorem element?_of_resolve? {context : Context} (named : Shape.ofName? name = some shape)
    (resolved : context.resolve? ⟨name, typeArguments, span⟩ = some type) :
    type.element?.isSome := by
  unfold Context.resolve? WrittenType.resolve at resolved
  cases result : WrittenType.resolveArgument context.named? (.type ⟨name, typeArguments, span⟩) with
  | error error => simp [result, Except.toOption] at resolved
  | ok found =>
    rw [result] at resolved
    cases resolved
    obtain ⟨builtin, isBuiltin, result⟩ := Surface.bind_eq_ok.mp result
    unfold WrittenType.resolveBuiltin at isBuiltin
    split at isBuiltin
    · rename_i scalar
      rw [(scalar_ofName?_of_shape named).1] at scalar
      cases scalar
    · split at isBuiltin
      · split at isBuiltin
        · cases isBuiltin
          cases result
          simp
        · obtain ⟨argument, -, isBuiltin⟩ := Surface.bind_eq_ok.mp isBuiltin
          obtain ⟨built, made, isBuiltin⟩ := Surface.bind_eq_ok.mp isBuiltin
          cases isBuiltin
          cases result
          unfold WrittenType.shaped at made
          split at made
          · split at made <;> cases made
            simp
          · cases made
        · cases isBuiltin
      · rename_i unnamed
        rw [named] at unnamed
        cases unnamed

/-- A call that builds any components passes on its hint. -/
theorem callPlan_of_open {context : Context}
    (isOpen : openShape? context name typeArguments = some shape) (span : Span) :
    ∃ callee, ∀ hint, callPlan context name typeArguments hint span =
      { hint := fun _ => hint, finish := openCall callee shape hint span } := by
  unfold openShape? at isOpen
  split at isOpen
  · cases isOpen
  · rename_i undeclared
    simp only [Bool.not_eq_true, Bool.or_eq_false_iff, Option.isSome_eq_false_iff,
      Option.isNone_iff_eq_none, Bool.not_eq_false'] at undeclared
    obtain ⟨⟨⟨notFunction, notStruct⟩, notBuiltin⟩, plain⟩ := undeclared
    obtain ⟨named, unnamed⟩ := Option.filter_eq_some_iff.mp isOpen
    obtain ⟨notScalar, notArray⟩ := scalar_ofName?_of_shape named
    refine ⟨.constructor (WrittenType.mk name typeArguments span).text, fun hint => ?_⟩
    rw [← shapeCall_open _ hint span (by simpa using unnamed)]
    simp [callPlan, notFunction, notStruct, notBuiltin, isConstructorName, named, constructorCall,
      plain, namedConstructor, notScalar, notArray]

/-- A constructor with a component type ignores its hint. -/
theorem namedConstructor_of_element {explicit : Option Ty}
    (known : ∀ shape, Shape.ofName? name = some shape →
      ((explicit.bind Ty.element?).or shape.element?).isSome) (callee : Callee)
    (hint : Option Scalar) (span : Span) :
    namedConstructor callee name explicit hint span =
      namedConstructor callee name explicit none span := by
  unfold namedConstructor
  split
  · rfl
  · split
    · rfl
    · split
      · rename_i shape named
        obtain ⟨element, found⟩ := Option.isSome_iff_exists.mp (known shape named)
        simp only [shapeCall, found]
      · rfl

/-- All other calls do not depend on their hint. -/
theorem callPlan_of_closed {context : Context}
    (isClosed : openShape? context name typeArguments = none) (hint : Option Scalar) (span : Span) :
    callPlan context name typeArguments hint span =
      callPlan context name typeArguments none span := by
  unfold callPlan
  split
  · rfl
  · rename_i notFunction
    split
    · rfl
    · rename_i notStruct
      split
      · rfl
      · rename_i notBuiltin
        unfold constructorCall
        dsimp only
        by_cases plain : typeArguments.isEmpty
        · rw [if_pos plain, if_pos plain]
          congr 1
          refine namedConstructor_of_element (fun shape named => ?_) _ hint span
          simpa [openShape?, notFunction, notStruct, notBuiltin, plain, named, Option.filter,
            Option.isSome_iff_ne_none] using isClosed
        · rw [if_neg plain, if_neg plain]
          congr 1
          split
          · rename_i type resolved
            refine namedConstructor_of_element (fun shape named => ?_) _ hint span
            simp [element?_of_resolve? named resolved]
          · rfl

/-! ### Expressions -/

/-- What a hint makes of an expression. -/
def OutcomeOf (context : Context) (hint : Scalar) (expression : Surface.Expr) : Prop :=
  Outcome hint (undisturbed context hint expression) (takes context hint expression)
    (elaborate context expression none).value (elaborate context expression (some hint))

section Expressions

variable {context : Context} {hint : Scalar} {expression : Surface.Expr}

/-- The outcome follows from the parts and the node above them. -/
theorem outcome_of_parts (node : Logged Issue Expr)
    (whole : elaborate context expression (some hint) =
      ⟨node.value, (hinted context expression).flatMap
        (fun part => (elaborate context part (some hint)).log) ++ node.log⟩)
    (parts : ∀ part ∈ hinted context expression, OutcomeOf context hint part)
    (here : (∀ part ∈ hinted context expression, Adopts hint (takes context hint part)
        (elaborate context part none).value (elaborate context part (some hint)).value) →
      Outcome hint ((typeOf? context expression).isSome → agrees context hint expression)
        (takes context hint expression) (elaborate context expression none).value node) :
    OutcomeOf context hint expression := by
  constructor
  · intro bears
    obtain ⟨own, below⟩ := undisturbed_iff.mp bears
    have silent (part : Surface.Expr) (member : part ∈ hinted context expression) :=
      (parts part member).silent (below part member)
    obtain ⟨nodeSilent, adopts⟩ := (here fun part member => (silent part member).2).silent own
    rw [whole]
    refine ⟨?_, adopts⟩
    simp only [append_eq_nil_iff, flatMap_eq_nil_iff]
    exact ⟨fun part member => (silent part member).1, nodeSilent⟩
  · intro disturbed silent
    rw [whole] at silent
    simp only [append_eq_nil_iff, flatMap_eq_nil_iff] at silent
    have below (part : Surface.Expr) (member : part ∈ hinted context expression) :
        undisturbed context hint part :=
      (parts part member).silent_iff.mp (silent.1 part member)
    have node := here fun part member => ((parts part member).silent (below part member)).2
    exact disturbed (undisturbed_iff.mpr ⟨node.silent_iff.mp silent.2, below⟩)

/-- Without hinted parts a hint agrees. -/
theorem agrees_of_unhinted (unhinted : hinted context expression = []) :
    agrees context hint expression := by
  cases expression with
  | unary operator operand span =>
    have plain : isPlainLiteral operand := by simpa [hinted] using unhinted
    simp [agrees, plain]
  | number | bool | identifier | binary | call | member | index => simp [agrees, unhinted]

/-- When an expression that is not unary bears a hint. -/
theorem bears_iff (rule : agrees context hint expression =
      ((typeOf? context expression).bind Ty.element? = some hint ||
        (hinted context expression).all fun part =>
          takes context hint part = takes context hint expression)) :
    ((typeOf? context expression).isSome → agrees context hint expression) ↔
      ∀ type ∈ typeOf? context expression, type.element? = some hint ∨
        ∀ part ∈ hinted context expression,
          takes context hint part = takes context hint expression := by
  rw [rule]
  cases typeOf? context expression <;> simp

/-- A hint that is not passed on is borne. -/
theorem outcome_of_unhinted {node : Logged Issue Expr} (unhinted : hinted context expression = [])
    (whole : elaborate context expression (some hint) = node) (silent : node.log = [])
    (adopts : Adopts hint (takes context hint expression) (elaborate context expression none).value
      node.value) :
    OutcomeOf context hint expression := by
  refine outcome_of_parts node ?_ ?_ fun _ => ⟨fun _ => ⟨silent, adopts⟩, fun refused => ?_⟩
  · simp [unhinted, whole]
  · simp [unhinted]
  · exact absurd (fun _ => agrees_of_unhinted unhinted) refused

/-- Expressions are elaborated one by one. -/
theorem elaborateAll_eq (context : Context) (hint : Option Scalar)
    (expressions : List Surface.Expr) :
    elaborateAll context expressions (fun _ => hint) =
      ⟨expressions.map fun expression => (elaborate context expression hint).value,
        expressions.flatMap fun expression => (elaborate context expression hint).log⟩ := by
  induction expressions with
  | nil => rfl
  | cons first rest ih => simp [elaborateAll, ih, bind, pure]

/-- The value of a unary operation. -/
theorem value_elaborate_unary (context : Context) (operator : UnaryOperator)
    (operand : Surface.Expr) (span : Span) :
    (elaborate context (.unary operator operand span) none).value =
      (unaryNode operator (elaborate context operand none).value none span).value := by
  simp [elaborate]

/-- The value of a binary operation. -/
theorem value_elaborate_binary (context : Context) (operator : BinaryOperator)
    (left right : Surface.Expr) (span : Span) :
    (elaborate context (.binary operator left right span) none).value =
      (binaryNode operator (elaborate context left none).value (elaborate context right none).value
        span).value := by
  simp [elaborate]

/-- Such a call types its arguments with its own hint. -/
theorem elaborate_of_open (isOpen : openShape? context name typeArguments = some shape)
    (arguments : List Surface.Expr) (span : Span) : ∃ callee, ∀ hint,
      elaborate context (.call name typeArguments arguments span) hint =
        let call := openCall callee shape hint span
          (arguments.map fun argument => (elaborate context argument hint).value)
        ⟨call.value, (arguments.flatMap fun argument => (elaborate context argument hint).log) ++
          call.log⟩ := by
  obtain ⟨callee, plan⟩ := callPlan_of_open isOpen span
  refine ⟨callee, fun hint => ?_⟩
  simp [elaborate, plan, elaborateAll_eq, bind, Logged.write]

/-- The outcome for a number. -/
theorem outcome_number (float : hint ≠ .f32) (numeric : hint.isNumeric) (number : Number)
    (span : Span) : OutcomeOf context hint (.number number span) := by
  refine outcome_of_unhinted rfl rfl rfl ?_
  rw [takes, fits_eq context]
  exact .coerce float numeric (typedLiteral_elaborate context (.number number span)).float

/-- The outcome for a unary operation. -/
theorem outcome_unary (float : hint ≠ .f32) (numeric : hint.isNumeric) {operator : UnaryOperator}
    {operand : Surface.Expr} (below : OutcomeOf context hint operand)
    (clean : (elaborate context (.unary operator operand span) none).log = []) :
    OutcomeOf context hint (.unary operator operand span) := by
  have value := value_elaborate_unary context operator operand span
  have adopts := Adopts.coerce float numeric
    (typedLiteral_elaborate context (.unary operator operand span)).float
  rw [← fits_eq] at adopts
  have logs : (elaborate context operand none).log = [] ∧
      (unaryNode operator (elaborate context operand none).value none span).log = [] := by
    simpa [elaborate] using clean
  by_cases plain : isPlainLiteral operand
  · -- The literal is coerced together with the sign.
    have whole : elaborate context (.unary operator operand span) (some hint) =
        ⟨(elaborate context (.unary operator operand span) none).value.coerce hint, []⟩ := by
      rw [value, elaborate, if_pos plain]
      simp only [bind, unaryNode_eq _ _ (some hint), logs, append_nil]
      rfl
    refine outcome_of_unhinted (by simp [hinted, plain]) whole rfl ?_
    simpa [takes, plain] using adopts
  · have parts : hinted context (.unary operator operand span) = [operand] := by
      simp [hinted, plain]
    refine outcome_of_parts
      (unaryNode operator (elaborate context operand (some hint)).value (some hint) span) ?_ ?_
      fun operands => ?_
    · simp [parts, elaborate, plain, bind]
    · simpa [parts] using below
    · have here := operands operand (by simp [parts])
      cases moves : takes context hint operand with
      | false =>
        rw [moves] at here
        rw [(here.kept rfl).1, unaryNode_eq, ← value]
        refine ⟨fun _ => ⟨logs.2, ?_⟩, fun refused => absurd (fun _ => ?_) refused⟩
        · simpa [takes, moves, Expr.coerceTo] using adopts
        · simp [agrees, moves]
      | true =>
        rw [moves] at here
        have taken : takes context hint (.unary operator operand span) = true := by
          simp [takes, plain, moves]
        rw [taken, typeOf?, value]
        refine (unaryNode_outcome numeric here logs.2).congr ?_
        simp [agrees, plain, moves, Option.isSome_iff_exists]

/-- The outcome for a binary operation. -/
theorem outcome_binary (float : hint ≠ .f32) (numeric : hint.isNumeric) {operator : BinaryOperator}
    {left right : Surface.Expr} (leftBelow : OutcomeOf context hint left)
    (rightBelow : OutcomeOf context hint right)
    (clean : (elaborate context (.binary operator left right span) none).log = []) :
    OutcomeOf context hint (.binary operator left right span) := by
  by_cases passed : operator.isArithmetic
  · have parts : hinted context (.binary operator left right span) = [left, right] := by
      simp [hinted, passed]
    refine outcome_of_parts (binaryNode operator (elaborate context left (some hint)).value
      (elaborate context right (some hint)).value span) ?_ ?_ fun adopts => ?_
    · simp [parts, elaborate, passed, bind]
    · simpa [parts] using ⟨leftBelow, rightBelow⟩
    · have nodeClean : (binaryNode operator (elaborate context left none).value
          (elaborate context right none).value span).log = [] := by
        simp only [elaborate, Logged.log_bind, ite_self, append_eq_nil_iff] at clean
        exact clean.2.2
      have node := binaryNode_outcome float numeric passed (adopts left (by simp [parts]))
        (adopts right (by simp [parts])) nodeClean
      have taken : takes context hint (.binary operator left right span) =
          (takes context hint left || takes context hint right) := by
        rw [takes, passed, Bool.true_and]
      have together : (∀ part ∈ [left, right],
          takes context hint part = (takes context hint left || takes context hint right)) ↔
            takes context hint left = takes context hint right := by
        simp only [mem_cons, not_mem_nil, or_false, forall_eq_or_imp, forall_eq]
        cases takes context hint left <;> cases takes context hint right <;> simp
      rw [bears_iff rfl, typeOf?, value_elaborate_binary, parts, taken]
      simpa only [together] using node
  · refine outcome_of_unhinted (by simp [hinted, passed]) ?_ clean ?_
    · simp [elaborate, passed]
    · rw [takes, Bool.eq_false_iff.mpr passed, Bool.false_and]
      exact .same (concrete_binaryNode ..)

/-- The outcome for a call. -/
theorem outcome_call (float : hint ≠ .f32) (numeric : hint.isNumeric)
    {arguments : List Surface.Expr}
    (below : ∀ argument ∈ arguments, (elaborate context argument none).log = [] →
      OutcomeOf context hint argument)
    (clean : (elaborate context (.call name typeArguments arguments span) none).log = []) :
    OutcomeOf context hint (.call name typeArguments arguments span) := by
  cases built : openShape? context name typeArguments with
  | none =>
    refine outcome_of_unhinted (by simp [hinted, built]) ?_ clean ?_
    · simp only [elaborate, callPlan_of_closed built (some hint)]
    · rw [takes, built, Option.isSome_none, Bool.false_and]
      exact .same (concrete_callPlan ..)
  | some shape =>
    obtain ⟨callee, whole⟩ := elaborate_of_open built arguments span
    have parts : hinted context (.call name typeArguments arguments span) = arguments := by
      simp [hinted, built]
    have logs := clean
    rw [whole none] at logs
    simp only [append_eq_nil_iff, flatMap_eq_nil_iff] at logs
    have taken : takes context hint (.call name typeArguments arguments span) =
        takesAny arguments (fun argument => (elaborate context argument none).value)
          (takes context hint) := by
      simp [takes, takesAny, built, anyTakes_eq, (typedLiteral_elaborate context _).literal]
    refine outcome_of_parts (openCall callee shape (some hint) span
      (arguments.map fun argument => (elaborate context argument (some hint)).value)) ?_ ?_
      fun adopts => ?_
    · rw [whole (some hint), parts]
    · rw [parts]
      exact fun argument member => below argument member (logs.1 argument member)
    · rw [parts] at adopts
      rw [bears_iff rfl, typeOf?, whole none, parts, taken]
      exact openCall_outcome float numeric adopts logs.2

end Expressions

section Run

variable {context : Context} {hint : Scalar}

variable {expression : Surface.Expr}

mutual

/-- The outcome for an expression that is silent by itself. -/
theorem elaborate_outcome (float : hint ≠ .f32) (numeric : hint.isNumeric) :
    (expression : Surface.Expr) → (elaborate context expression none).log = [] →
      OutcomeOf context hint expression
  | .bool value span, _ => outcome_of_unhinted rfl rfl rfl (.same rfl)
  | .number number span, _ => outcome_number float numeric number span
  | .identifier name span, clean => by
    refine outcome_of_unhinted rfl rfl clean (.same ?_)
    exact (typedLiteral_elaborate context (.identifier name span)).literal
  | .binary operator left right span, clean => by
    have logs : (elaborate context left none).log = [] ∧
        (elaborate context right none).log = [] := by
      simp only [elaborate, Logged.log_bind, ite_self, append_eq_nil_iff] at clean
      exact ⟨clean.1, clean.2.1⟩
    exact outcome_binary float numeric (elaborate_outcome float numeric left logs.1)
      (elaborate_outcome float numeric right logs.2) clean
  | .unary operator operand span, clean => by
    have log : (elaborate context operand none).log = [] := by
      simp only [elaborate, Logged.log_bind, ite_self, append_eq_nil_iff] at clean
      exact clean.1
    exact outcome_unary float numeric (elaborate_outcome float numeric operand log) clean
  | .call name typeArguments arguments span, clean =>
    outcome_call float numeric (elaborateAll_outcome float numeric arguments) clean
  | .member base name span, clean =>
    outcome_of_unhinted rfl rfl clean (.same (concrete_memberNode ..))
  | .index base position span, clean =>
    outcome_of_unhinted rfl rfl clean (.same (concrete_indexNode ..))

/-- The outcome for each of a list. -/
theorem elaborateAll_outcome (float : hint ≠ .f32) (numeric : hint.isNumeric) :
    (expressions : List Surface.Expr) → ∀ expression ∈ expressions,
      (elaborate context expression none).log = [] → OutcomeOf context hint expression
  | [] => nofun
  | first :: rest => forall_mem_cons.mpr
      ⟨elaborate_outcome float numeric first, elaborateAll_outcome float numeric rest⟩

end

/-! ### Hints that say nothing -/

/-- Neither floats nor truth values are given to literals. -/
theorem coerceTo_of_idle (idle : hint = .f32 ∨ hint = .bool) (expression : Expr) :
    expression.coerceTo (some hint) = expression := by
  rcases idle with rfl | rfl <;> rfl

/-- Idle hints do not change what is built. -/
theorem builtElement_of_idle (idle : hint = .f32 ∨ hint = .bool) (arguments : List Expr) :
    builtElement (some hint) arguments = builtElement none arguments := by
  unfold builtElement
  rcases idle with rfl | rfl <;> cases Expr.concreteElement? arguments <;> rfl

mutual

/-- Those hints change nothing. -/
theorem elaborate_of_idle (context : Context) (idle : hint = .f32 ∨ hint = .bool) :
    (expression : Surface.Expr) →
      elaborate context expression (some hint) = elaborate context expression none
  | .bool .. | .identifier .. | .member .. | .index .. => rfl
  | .number number span => by
    rw [elaborate, coerceTo_of_idle idle]
    rfl
  | .binary operator left right span => by
    by_cases passed : operator.isArithmetic <;>
      simp [elaborate, passed, elaborate_of_idle context idle left,
        elaborate_of_idle context idle right]
  | .unary operator operand span => by
    have node (typed : Expr) : unaryNode operator typed (some hint) span =
        unaryNode operator typed none span := by
      rw [unaryNode_eq, coerceTo_of_idle idle]
    by_cases plain : isPlainLiteral operand <;>
      simp [elaborate, plain, elaborate_of_idle context idle operand, node]
  | .call name typeArguments arguments span => by
    cases built : openShape? context name typeArguments with
    | none => simp only [elaborate, callPlan_of_closed built (some hint)]
    | some shape =>
      obtain ⟨callee, plan⟩ := callPlan_of_open built span
      have node (typed : List Expr) : openCall callee shape (some hint) span typed =
          openCall callee shape none span typed := by
        rw [openCall, builtElement_of_idle idle]
        rfl
      simp [elaborate, plan, elaborateAll_of_idle context idle arguments, node]

/-- Idle hints do not change expressions. -/
theorem elaborateAll_of_idle (context : Context) (idle : hint = .f32 ∨ hint = .bool) :
    (expressions : List Surface.Expr) →
      elaborateAll context expressions (fun _ => some hint) =
        elaborateAll context expressions fun _ => none
  | [] => rfl
  | first :: rest => by
    simp [elaborateAll, elaborate_of_idle context idle first,
      elaborateAll_of_idle context idle rest]

end

/-- The outcome of a hint that is not idle. -/
theorem outcome_of_busy (busy : ¬(hint = .f32 ∨ hint = .bool))
    (clean : (elaborate context expression none).log = []) : OutcomeOf context hint expression := by
  have float : hint ≠ .f32 := fun same => busy (.inl same)
  have numeric : hint.isNumeric := by
    cases hint with
    | bool => exact absurd (.inr rfl) busy
    | f32 | f16 | i32 | u32 => rfl
  exact elaborate_outcome float numeric expression clean

/-- A hint is silent exactly if it is idle or disturbs nothing. -/
theorem silent_iff (clean : (elaborate context expression none).log = []) (hint : Scalar) :
    (elaborate context expression (some hint)).log = [] ↔
      hint = .f32 ∨ hint = .bool ∨ undisturbed context hint expression := by
  rw [← or_assoc]
  by_cases idle : hint = .f32 ∨ hint = .bool
  · rw [elaborate_of_idle context idle]
    exact iff_of_true clean (.inl idle)
  · have outcome := outcome_of_busy idle clean
    rw [or_iff_right idle]
    exact outcome.silent_iff

/-! ### Hints that are met -/

/-- Literals bear every hint that has negative numbers. -/
theorem undisturbed_of_literal (signed : hint ≠ .u32) : (expression : Surface.Expr) →
    isSignedLiteral expression → undisturbed context hint expression
  | .number number span, _ => undisturbed_iff.mpr ⟨fun _ => agrees_of_unhinted rfl, nofun⟩
  | .unary .negate operand span, literal => by
    refine undisturbed_iff.mpr ⟨fun _ => by simp [agrees, signed], fun part member => ?_⟩
    have inner : isSignedLiteral operand := by
      simpa [isSignedLiteral, signedLiteral?] using literal
    by_cases plain : isPlainLiteral operand
    · simp [hinted, plain] at member
    · rw [show part = operand by simpa [hinted, plain] using member]
      exact undisturbed_of_literal signed operand inner

/-- An expression with components among its neighbours has them by itself, or is a literal. -/
theorem element_of_neighbour {part : Surface.Expr} {target : Option Scalar}
    (typed : ((elaborate context part none).value.coerceTo target).type = some type)
    (element : type.element? = some hint) :
    isSignedLiteral part ∨ (typeOf? context part).bind Ty.element? = some hint := by
  cases literal : isSignedLiteral part with
  | true => exact .inl rfl
  | false =>
    rw [← (typedLiteral_elaborate context part).literal] at literal
    rw [coerceTo_of_concrete target literal] at typed
    exact .inr (by rw [typeOf?, typed, Option.bind_some, element])

/-- Hinted parts have the component type of the whole, or are literals. -/
theorem element_of_part (whole : (typeOf? context expression).bind Ty.element? = some hint) :
    ∀ part ∈ hinted context expression,
      isSignedLiteral part ∨ (typeOf? context part).bind Ty.element? = some hint := by
  obtain ⟨type, typed, element⟩ := Option.bind_eq_some_iff.mp whole
  unfold typeOf? at typed
  cases expression with
  | number | bool | identifier | member | index => exact nofun
  | binary operator left right span =>
    by_cases passed : operator.isArithmetic
    · rw [value_elaborate_binary, binaryNode_eq_judged, matchOperands_eq] at typed
      have verdict := verdict_of_typed (fun _ => rfl) typed
      obtain ⟨leftType, leftTyped, verdict⟩ := Option.bind_eq_some_iff.mp verdict
      obtain ⟨rightType, rightTyped, accepted⟩ := Option.map_eq_some_iff.mp verdict
      obtain ⟨common, _, leftElement, rightElement, result⟩ := binary_element passed accepted
      cases result.symm.trans element
      simp only [hinted, passed, if_true, mem_cons, not_mem_nil, or_false]
      rintro part (rfl | rfl)
      · exact element_of_neighbour leftTyped leftElement
      · exact element_of_neighbour rightTyped rightElement
    · simp [hinted, passed]
  | unary operator operand span =>
    rw [value_elaborate_unary, unaryNode_eq_judged] at typed
    have verdict := verdict_of_typed (fun _ => rfl) typed
    obtain ⟨own, ownTyped, accepted⟩ := Option.map_eq_some_iff.mp verdict
    cases unary_type accepted
    by_cases plain : isPlainLiteral operand
    · simp [hinted, plain]
    · simp only [hinted, plain, Bool.false_eq_true, if_false, mem_singleton]
      rintro part rfl
      exact .inr (by rw [typeOf?, ownTyped, Option.bind_some, element])
  | call name typeArguments arguments span =>
    cases built : openShape? context name typeArguments with
    | none => simp [hinted, built]
    | some shape =>
      obtain ⟨callee, calls⟩ := elaborate_of_open built arguments span
      rw [calls none, openCall] at typed
      have verdict := verdict_of_typed (fun _ => rfl) typed
      obtain ⟨types, listed, accepted⟩ := Option.map_eq_some_iff.mp verdict
      have each := element_of_types
        (fun argument _ => (typedLiteral_elaborate context argument).float) listed accepted
      rw [shapeConstructor_type accepted, Shape.element?_withElement] at element
      rw [element] at each
      simp only [hinted, built, Option.isSome_some, if_true]
      intro part member
      obtain ⟨own, inside, found⟩ := type_of_argument listed member
      exact element_of_neighbour found (each own inside)

/-- A hint disturbs nothing if it disturbs no part with its component type. -/
theorem undisturbed_of_parts (signed : hint ≠ .u32)
    (element : (typeOf? context expression).bind Ty.element? = some hint)
    (below : ∀ part ∈ hinted context expression,
      (typeOf? context part).bind Ty.element? = some hint → undisturbed context hint part) :
    undisturbed context hint expression := by
  refine undisturbed_iff.mpr ⟨fun _ => ?_, fun part member => ?_⟩
  · cases expression <;> simp [agrees, element, signed]
  · rcases element_of_part element part member with literal | own
    · exact undisturbed_of_literal signed part literal
    · exact below part member own

mutual

/-- A hint for the component type disturbs nothing, unless it is unsigned. -/
theorem undisturbed_of_element (signed : hint ≠ .u32) : (expression : Surface.Expr) →
    (typeOf? context expression).bind Ty.element? = some hint →
      undisturbed context hint expression
  | .bool .., element | .number .., element | .identifier .., element | .member .., element
  | .index .., element => undisturbed_of_parts signed element nofun
  | .binary operator left right span, element => by
    refine undisturbed_of_parts signed element fun part member own => ?_
    by_cases passed : operator.isArithmetic
    · have one : part = left ∨ part = right := by simpa [hinted, passed] using member
      rcases one with same | same <;> rw [same] at own ⊢
      · exact undisturbed_of_element signed left own
      · exact undisturbed_of_element signed right own
    · simp [hinted, passed] at member
  | .unary operator operand span, element => by
    refine undisturbed_of_parts signed element fun part member own => ?_
    by_cases plain : isPlainLiteral operand
    · simp [hinted, plain] at member
    · rw [show part = operand by simpa [hinted, plain] using member] at own ⊢
      exact undisturbed_of_element signed operand own
  | .call name typeArguments arguments span, element => by
    refine undisturbed_of_parts signed element fun part member own => ?_
    by_cases built : (openShape? context name typeArguments).isSome
    · have inside : part ∈ arguments := by simpa [hinted, built] using member
      exact allUndisturbed_of_element signed arguments part inside own
    · simp [hinted, built] at member

/-- A signed hint for the component type disturbs none of a list. -/
theorem allUndisturbed_of_element (signed : hint ≠ .u32) : (expressions : List Surface.Expr) →
    ∀ expression ∈ expressions, (typeOf? context expression).bind Ty.element? = some hint →
      undisturbed context hint expression
  | [] => nofun
  | first :: rest => forall_mem_cons.mpr
      ⟨undisturbed_of_element signed first, allUndisturbed_of_element signed rest⟩

end

/-! ### Positions and conversions -/

/-- A scalar that bears a hint stays one: itself or the hinted one. -/
theorem scalar_of_silent (clean : (elaborate context expression none).log = [])
    (typed : typeOf? context expression = some (.scalar element))
    (silent : (elaborate context expression (some hint)).log = []) :
    ∃ found, (found = element ∨ found = hint) ∧
      (elaborate context expression (some hint)).value.type = some (.scalar found) := by
  by_cases idle : hint = .f32 ∨ hint = .bool
  · rw [elaborate_of_idle context idle]
    exact ⟨element, .inl rfl, typed⟩
  · have outcome := outcome_of_busy idle clean
    have adopts := (outcome.silent (outcome.silent_iff.mp silent)).2
    cases moves : takes context hint expression with
    | false =>
      rw [moves] at adopts
      rw [(adopts.kept rfl).1]
      exact ⟨element, .inl rfl, typed⟩
    | true =>
      rw [moves] at adopts
      rw [adopts.type rfl, show (elaborate context expression none).value.type = _ from typed]
      exact ⟨hint, .inr rfl, rfl⟩

/-- An element is wrong exactly if the hint disturbs the position. -/
theorem silent_index_iff {base position : Surface.Expr} {baseType result : Ty}
    (baseClean : (elaborate context base none).log = [])
    (baseTyped : typeOf? context base = some baseType)
    (indexable : index baseType (.scalar .i32) = .ok result)
    (clean : (elaborate context position none).log = [])
    (typed : typeOf? context position = some (.scalar element))
    (integer : element = .i32 ∨ element = .u32) (span : Span) (expected : Option Scalar) :
    (elaborate context (.index base position span) expected).log = [] ↔
      undisturbed context .i32 position := by
  have criterion := silent_iff clean .i32
  simp only [reduceCtorEq, false_or] at criterion
  rw [← criterion]
  simp only [elaborate, Logged.log_bind, baseClean, nil_append, append_eq_nil_iff]
  refine and_iff_left_of_imp fun silent => ?_
  obtain ⟨found, one, positionTyped⟩ := scalar_of_silent clean typed silent
  have unsigned : index baseType (.scalar .u32) = .ok result := by
    simpa [index] using indexable
  have accepted : index baseType (.scalar found) = .ok result := by
    rcases one with rfl | rfl
    · rcases integer with rfl | rfl
      · exact indexable
      · exact unsigned
    · exact indexable
  rw [typeOf?] at baseTyped
  simp [indexNode, baseTyped, positionTyped, accepted, log_judge]

/-- A conversion is wrong exactly if its target disturbs the argument. -/
theorem silent_conversion_iff {argument : Surface.Expr}
    (clean : (elaborate context argument none).log = [])
    (typed : typeOf? context argument = some (.scalar element)) (target : Scalar)
    (notFunction : context.function? target.name = none)
    (notStruct : context.struct? target.name = none) (span : Span) (expected : Option Scalar) :
    (elaborate context (.call target.name [] [argument] span) expected).log = [] ↔
      target = .f32 ∨ target = .bool ∨ undisturbed context target argument := by
  rw [← silent_iff clean target]
  have notBuiltin : Builtin.ofName? target.name = none := by cases target <;> decide
  have plan : callPlan context target.name [] expected span =
      conversionCall (.constructor (WrittenType.mk target.name [] span).text) target span := by
    simp [callPlan, notFunction, notStruct, notBuiltin, isConstructorName, Scalar.ofName?_name,
      constructorCall, namedConstructor]
  simp only [elaborate, plan, conversionCall, elaborateAll_eq, Logged.log_bind, Logged.write]
  simp only [flatMap_cons, flatMap_nil, append_nil, nil_append, map_cons,
    map_nil, append_eq_nil_iff]
  refine and_iff_left_of_imp fun silent => ?_
  obtain ⟨found, -, argumentTyped⟩ := scalar_of_silent clean typed silent
  simp [ruledCall_eq, Expr.types?, argumentTyped, judged, scalarConstructor, log_judge]

/-- A hint adds nothing to be told about a silent expression exactly if it is for floats or truth
values, or if it disturbs none of the expressions that it reaches. So a position that is an `i32` by
itself is silent, a `u32` is if `i32` does not disturb it, and a conversion is if its target does
not disturb the scalar. -/
theorem hint_is_silent_iff_undisturbed {expression : Surface.Expr}
    (clean : (elaborate context expression none).log = []) :
    (∀ hint, (elaborate context expression (some hint)).log = [] ↔
      hint = .f32 ∨ hint = .bool ∨ undisturbed context hint expression) ∧
    (∀ base baseType result span expected, (elaborate context base none).log = [] →
      typeOf? context base = some baseType → index baseType (.scalar .i32) = .ok result →
        (typeOf? context expression = some (.scalar .i32) →
          (elaborate context (.index base expression span) expected).log = []) ∧
        (typeOf? context expression = some (.scalar .u32) →
          ((elaborate context (.index base expression span) expected).log = [] ↔
            undisturbed context .i32 expression))) ∧
    (∀ element target span expected, typeOf? context expression = some (.scalar element) →
      context.function? target.name = none → context.struct? target.name = none →
        ((elaborate context (.call target.name [] [expression] span) expected).log = [] ↔
          target = .f32 ∨ target = .bool ∨ undisturbed context target expression)) := by
  refine ⟨silent_iff clean, ?_, ?_⟩
  · intro base baseType result span expected baseClean baseTyped indexable
    constructor
    · intro typed
      have fine : undisturbed context .i32 expression :=
        undisturbed_of_element (by decide) expression (by rw [typed]; rfl)
      exact (silent_index_iff baseClean baseTyped indexable clean typed (.inl rfl) span
        expected).mpr fine
    · intro typed
      exact silent_index_iff baseClean baseTyped indexable clean typed (.inr rfl) span expected
  · intro element target span expected typed notFunction notStruct
    exact silent_conversion_iff clean typed target notFunction notStruct span expected

end Run

/-- The sum `u + 1` bears to be unsigned and to be converted to `u32`, but not to be a position. -/
theorem unsigned_sum_bears_unsigned_hint :
    let context := (Context.empty.bind "u" ⟨some (.scalar .u32), false, .none⟩).bind "v"
      ⟨some (.vector 4 .f32), false, .none⟩
    let sum : Surface.Expr := .binary .add (.identifier "u" .none)
      (.number ⟨.finite false Binary64.one, .abstract, true⟩ .none) .none
    (elaborate context sum none).log = [] ∧
      (elaborate context sum (some .u32)).log = [] ∧
      (elaborate context (.call "u32" [] [sum] .none) none).log = [] ∧
      (elaborate context (.index (.identifier "v" .none) sum .none) none).log ≠ [] := by
  intro context sum
  have clean : (elaborate context sum none).log = [] := by decide +kernel
  have typed : typeOf? context sum = some (.scalar .u32) := by decide +kernel
  have fine : undisturbed context .u32 sum := by decide +kernel
  have disturbed : ¬undisturbed context .i32 sum := by decide +kernel
  have criteria := hint_is_silent_iff_undisturbed clean
  refine ⟨clean, (criteria.1 .u32).mpr (.inr (.inr fine)), ?_, fun silent => disturbed ?_⟩
  · exact (criteria.2.2 .u32 .u32 .none none typed rfl rfl).mpr (.inr (.inr fine))
  · exact ((criteria.2.1 (.identifier "v" .none) (.vector 4 .f32) (.scalar .f32) .none none
      (by decide +kernel) (by decide +kernel) rfl).2 typed).mp silent

/-- Nothing is told about `1 + u` for an unsigned `u`. Where an `i32` is expected the literal
becomes one, and the sum is told to be wrong. -/
theorem hint_disturbs_unsigned_sum :
    let context := (Context.empty.bind "u" ⟨some (.scalar .u32), false, .none⟩).bind "v"
      ⟨some (.vector 4 .f32), false, .none⟩
    let sum : Surface.Expr := .binary .add
      (.number ⟨.finite false Binary64.one, .abstract, true⟩ .none) (.identifier "u" .none) .none
    let refused : Issue := .typing (.invalidOperands .add (.scalar .i32) (.scalar .u32)) .none
    (elaborate context sum none).log = [] ∧ typeOf? context sum = some (.scalar .u32) ∧
      (elaborate context sum (some .i32)).log = [refused] ∧
      (elaborate context (.index (.identifier "v" .none) sum .none) none).log = [refused] ∧
      (elaborate context (.call "i32" [] [sum] .none) none).log = [refused] := by
  decide +kernel

end Shading.Typing
