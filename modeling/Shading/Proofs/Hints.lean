import Shading.Proofs.TypeFormation

/-!
# Hints for literals

The scalar type that the surroundings of an expression expect is passed on to the operands of arithmetic
and to the arguments of constructors that name no component type. There a literal without a suffix takes
it, if the type holds its value. What takes a hint is read off the source here, without typing it.
-/

namespace Shading

open List

variable {context : Context} {part : Surface.Expr} {size columns rows : Nat} {shape : Shape}

namespace Ty

variable {element : Scalar}

/-- A variant has its components. -/
@[simp] theorem element?_withElement (type : Ty) (element : Scalar) :
    (type.withElement element).element? = some element := by
  cases type <;> rfl

/-- A type is its own variant for its components. -/
theorem withElement_of_element {type : Ty} (components : type.element? = some element) :
    type.withElement element = type := by
  cases type <;> cases components <;> rfl

/-- A variant with numbers for components is numeric. -/
theorem isNumeric_withElement (type : Ty) (numeric : element.isNumeric) :
    (type.withElement element).isNumeric := by
  simp [isNumeric, numeric]

end Ty

namespace Shape

/-- A variant of a shape has its components. -/
@[simp] theorem element?_withElement (shape : Shape) (element : Scalar) :
    (shape.withElement element).element? = some element := by
  cases shape <;> rfl

/-- The last variant counts. -/
@[simp] theorem withElement_withElement (shape : Shape) (element other : Scalar) :
    (shape.withElement element).withElement other = shape.withElement other := by
  cases shape <;> rfl

end Shape

namespace Typing

open Typed (Callee Expr holds)

/-- The value of a signed literal without suffix, and whether it has no fraction. -/
def signedLiteral? : Surface.Expr → Option (Binary64 × Bool)
  | .number literal _ =>
    if literal.kind = .abstract then some (literal.value, literal.integral) else none
  | .unary .negate operand _ =>
    (signedLiteral? operand).map fun (value, integral) => (value.negate, integral)
  | _ => none

/-- Whether it is a literal without suffix, perhaps signed. -/
def isSignedLiteral (expression : Surface.Expr) : Bool := (signedLiteral? expression).isSome

/-- Whether a scalar type holds the value of the literal. -/
def fits (hint : Scalar) (expression : Surface.Expr) : Bool :=
  (signedLiteral? expression).any fun (value, integral) => holds hint value integral

/-- The shape that a call builds from any components. -/
def openShape? (context : Context) (name : String) (typeArguments : List TypeArgument) :
    Option Shape :=
  if (context.function? name).isSome || (context.struct? name).isSome ||
      (Builtin.ofName? name).isSome || !typeArguments.isEmpty then none
  else (Shape.ofName? name).filter fun shape => shape.element?.isNone

/-- The parts that an expression passes its hint on to. -/
def hinted (context : Context) : Surface.Expr → List Surface.Expr
  | .binary operator left right _ => if operator.isArithmetic then [left, right] else []
  | .unary _ operand _ => if isPlainLiteral operand then [] else [operand]
  | .call name typeArguments arguments _ =>
    if (openShape? context name typeArguments).isSome then arguments else []
  | _ => []

mutual

/-- The expression and all parts that its hint reaches. -/
def reached (context : Context) : Surface.Expr → List Surface.Expr
  | .binary operator left right span =>
    .binary operator left right span ::
      if operator.isArithmetic then reached context left ++ reached context right else []
  | .unary operator operand span =>
    .unary operator operand span :: if isPlainLiteral operand then [] else reached context operand
  | .call name typeArguments arguments span =>
    .call name typeArguments arguments span ::
      if (openShape? context name typeArguments).isSome then reachedAll context arguments else []
  | .number literal span => [.number literal span]
  | .bool value span => [.bool value span]
  | .identifier name span => [.identifier name span]
  | .member base name span => [.member base name span]
  | .index base position span => [.index base position span]

def reachedAll (context : Context) : List Surface.Expr → List Surface.Expr
  | [] => []
  | first :: rest => reached context first ++ reachedAll context rest

end

mutual

/-- Whether an expression takes its hint. A constructor of literals does, even where the type does
not hold one. -/
def takes (context : Context) (hint : Scalar) : Surface.Expr → Bool
  | .number literal span => fits hint (.number literal span)
  | .binary operator left right _ =>
    operator.isArithmetic && (takes context hint left || takes context hint right)
  | .unary operator operand span =>
    fits hint (.unary operator operand span) ||
      (!isPlainLiteral operand && takes context hint operand)
  | .call name typeArguments arguments _ =>
    (openShape? context name typeArguments).isSome &&
      (arguments.all isSignedLiteral || anyTakes context hint arguments)
  | .bool _ _ | .identifier _ _ | .member _ _ _ | .index _ _ _ => false

def anyTakes (context : Context) (hint : Scalar) : List Surface.Expr → Bool
  | [] => false
  | first :: rest => takes context hint first || anyTakes context hint rest

end

/-- Whether an expression bears what its parts make of a hint: it has the hinted components, or all
parts or none take the hint. Unsigned numbers are not negated. -/
def agrees (context : Context) (hint : Scalar) : Surface.Expr → Bool
  | .unary _ operand _ => hint ≠ .u32 || isPlainLiteral operand || !takes context hint operand
  | expression =>
    (typeOf? context expression).bind Ty.element? = some hint ||
      (hinted context expression).all fun part =>
        takes context hint part = takes context hint expression

/-- Whether a hint disturbs no typed expression it reaches. -/
def undisturbed (context : Context) (hint : Scalar) (expression : Surface.Expr) : Bool :=
  (reached context expression).all fun part =>
    (typeOf? context part).isNone || agrees context hint part

/-- A hint reaches what it reaches in the parts. -/
theorem mem_reachedAll {parts : List Surface.Expr} :
    part ∈ reachedAll context parts ↔ ∃ whole ∈ parts, part ∈ reached context whole := by
  induction parts with
  | nil => simp [reachedAll]
  | cons first rest ih => simp [reachedAll, ih]

/-- It reaches an expression and its hinted parts. -/
theorem mem_reached {expression : Surface.Expr} :
    part ∈ reached context expression ↔
      part = expression ∨ ∃ inner ∈ hinted context expression, part ∈ reached context inner := by
  cases expression with
  | binary operator left right span => by_cases passed : operator.isArithmetic <;>
      simp [reached, hinted, passed]
  | unary operator operand span => by_cases plain : isPlainLiteral operand <;>
      simp [reached, hinted, plain]
  | call name typeArguments arguments span =>
    by_cases passed : (openShape? context name typeArguments).isSome <;>
      simp [reached, hinted, passed, mem_reachedAll]
  | number | bool | identifier | member | index => simp [reached, hinted]

/-- It disturbs nothing if the expression bears it and no part is disturbed. -/
theorem undisturbed_iff {hint : Scalar} {expression : Surface.Expr} :
    undisturbed context hint expression ↔
      ((typeOf? context expression).isSome → agrees context hint expression) ∧
        ∀ part ∈ hinted context expression, undisturbed context hint part := by
  simp only [undisturbed, all_eq_true, Bool.or_eq_true, Option.isNone_iff_eq_none]
  constructor
  · intro all
    refine ⟨fun typed => ?_, fun part member inner reaches => ?_⟩
    · rcases all expression (mem_reached.mpr (.inl rfl)) with untyped | bears
      · simp [untyped] at typed
      · exact bears
    · exact all inner (mem_reached.mpr (.inr ⟨part, member, reaches⟩))
  · rintro ⟨here, below⟩ inner reaches
    rcases mem_reached.mp reaches with rfl | ⟨part, member, reaches⟩
    · cases typed : typeOf? context inner with
      | none => exact .inl rfl
      | some type => exact .inr (here (by simp [typed]))
    · exact below part member inner reaches

/-- Some part takes the hint if one does. -/
theorem anyTakes_eq (context : Context) (hint : Scalar) (parts : List Surface.Expr) :
    anyTakes context hint parts = parts.any (takes context hint) := by
  induction parts with
  | nil => rfl
  | cons first rest ih => simp [anyTakes, ih]

section Coercion

variable {expression : Expr} {hint : Scalar}

/-- Only literals without a suffix are coerced. -/
theorem coerceTo_of_concrete (target : Option Scalar)
    (concrete : expression.isAbstractLiteral = false) :
    expression.coerceTo target = expression := by
  cases target <;> simp [Expr.coerceTo, Expr.coerce, concrete]

/-- A retyped literal has a suffix. -/
theorem isAbstractLiteral_retype (float : hint ≠ .f32) (numeric : hint.isNumeric)
    (literal : expression.isAbstractLiteral) :
    (expression.retype hint).isAbstractLiteral = false := by
  fun_induction Expr.isAbstractLiteral expression with
  | case1 number type span =>
    cases hint with
    | f32 => exact absurd rfl float
    | bool => simp [Scalar.isNumeric] at numeric
    | f16 | i32 | u32 => rfl
  | case2 operand _ _ ih => exact ih literal
  | case3 => exact absurd literal (by simp)

/-- Coercion takes a literal to a type that holds its value. -/
theorem coerce_eq (float : hint ≠ .f32) (numeric : hint.isNumeric)
    (literal : expression.isAbstractLiteral) :
    expression.coerce hint =
      if expression.literalValue?.any fun (value, integral) => holds hint value integral then
        expression.retype hint
      else expression := by
  unfold Expr.coerce
  rw [if_neg (by simp [float, numeric, literal])]
  split
  · rename_i valued
    simp [valued]
  · rename_i unvalued
    simp [unvalued]

/-- A coerced literal stays or gets the type. -/
theorem coerce_cases (target : Scalar) (literal : expression.isAbstractLiteral) :
    expression.coerce target = expression ∨
      target.isNumeric ∧ (expression.coerce target).type = some (.scalar target) ∧
        (expression.coerce target).isAbstractLiteral = false := by
  by_cases proper : target = .f32 ∨ target.isNumeric = false
  · left
    unfold Expr.coerce
    rw [if_pos (by rcases proper with float | other <;> simp [*])]
  · have float : target ≠ .f32 := fun float => proper (.inl float)
    have numeric : target.isNumeric = true := by simpa using fun other => proper (.inr other)
    rw [coerce_eq float numeric literal]
    split
    · exact .inr ⟨numeric, type_retype target literal,
        isAbstractLiteral_retype float numeric literal⟩
    · exact .inl rfl

/-- A literal without suffix is a float. -/
def FloatLiteral (expression : Expr) : Prop :=
  expression.isAbstractLiteral → expression.type = some (.scalar .f32)

/-- What is no literal is so. -/
theorem FloatLiteral.of_concrete (concrete : expression.isAbstractLiteral = false) :
    FloatLiteral expression :=
  fun literal => by simp [concrete] at literal

/-- What is still a literal has not been coerced. -/
theorem FloatLiteral.coerceTo (float : FloatLiteral expression) (target : Option Scalar) :
    FloatLiteral (expression.coerceTo target) := by
  intro still
  cases literal : expression.isAbstractLiteral with
  | false => simp [coerceTo_of_concrete target literal, literal] at still
  | true =>
    cases target with
    | none => exact float literal
    | some target =>
      rcases coerce_cases target literal with same | ⟨_, _, concrete⟩
      · exact (congrArg Expr.type same).trans (float literal)
      · exact absurd still (by simp [Expr.coerceTo, concrete])

/-- A literal that is coerced is a numeric scalar still. -/
theorem FloatLiteral.type_coerceTo (float : FloatLiteral expression)
    (literal : expression.isAbstractLiteral) (target : Option Scalar) :
    ∃ element, element.isNumeric ∧ (expression.coerceTo target).type = some (.scalar element) := by
  cases target with
  | none => exact ⟨.f32, rfl, float literal⟩
  | some target =>
    rcases coerce_cases target literal with same | ⟨numeric, typed, _⟩
    · exact ⟨.f32, rfl, (congrArg Expr.type same).trans (float literal)⟩
    · exact ⟨target, numeric, typed⟩

end Coercion

/-- Typed with a hint, an expression is the same or has the hinted components. -/
structure Adopts (hint : Scalar) (moved : Bool) (plain hinted : Expr) : Prop where
  literal : FloatLiteral plain
  kept : moved = false → hinted = plain ∧ plain.coerce hint = plain
  type : moved → hinted.type = plain.type.map (·.withElement hint)
  concrete : moved → hinted.isAbstractLiteral = false
  numeric : moved → ∀ type ∈ plain.type, type.isNumeric

namespace Adopts

variable {hint : Scalar} {moved : Bool} {plain hinted : Expr} {target other : Option Scalar}
  {type : Ty}

/-- What is no literal may stay as it is. -/
theorem same (concrete : plain.isAbstractLiteral = false) : Adopts hint false plain plain where
  literal := .of_concrete concrete
  kept _ := ⟨rfl, coerceTo_of_concrete (some hint) concrete⟩
  type := nofun
  concrete := nofun
  numeric := nofun

/-- Literals whose values a type holds take it. -/
theorem coerce (float : hint ≠ .f32) (numeric : hint.isNumeric) (literals : FloatLiteral plain) :
    Adopts hint (plain.isAbstractLiteral &&
      plain.literalValue?.any fun (value, integral) => holds hint value integral) plain
      (plain.coerce hint) := by
  cases literal : plain.isAbstractLiteral with
  | false =>
    have unmoved : plain.coerce hint = plain := coerceTo_of_concrete (some hint) literal
    simpa [unmoved] using same literal
  | true =>
    rw [Bool.true_and]
    refine ⟨literals, fun refused => ?_, fun held => ?_, fun held => ?_, fun _ => ?_⟩
    · have unmoved : plain.coerce hint = plain := by
        rw [coerce_eq float numeric literal, if_neg (by simp [refused])]
      exact ⟨unmoved, unmoved⟩
    · rw [coerce_eq float numeric literal, if_pos held, type_retype hint literal, literals literal]
      rfl
    · rw [coerce_eq float numeric literal, if_pos held]
      exact isAbstractLiteral_retype float numeric literal
    · rw [literals literal]
      rintro _ ⟨⟩
      rfl

/-- What stays a literal is a float. -/
theorem literal_hinted (adopts : Adopts hint moved plain hinted) : FloatLiteral hinted := by
  cases moved with
  | false =>
    rw [(adopts.kept rfl).1]
    exact adopts.literal
  | true => exact .of_concrete (adopts.concrete rfl)

/-- What took the hint has its type, with the hinted components. -/
theorem type_of_moved (adopts : Adopts hint true plain hinted) (target other : Option Scalar) :
    (hinted.coerceTo other).type = (plain.coerceTo target).type.map (·.withElement hint) := by
  rw [coerceTo_of_concrete other (adopts.concrete rfl), adopts.type rfl]
  cases literal : plain.isAbstractLiteral with
  | false => rw [coerceTo_of_concrete target literal]
  | true =>
    obtain ⟨element, _, typed⟩ := adopts.literal.type_coerceTo literal target
    rw [typed, adopts.literal literal]
    rfl

/-- What took the hint has its components. -/
theorem element_of_moved (adopts : Adopts hint true plain hinted)
    (typed : (hinted.coerceTo other).type = some type) : type.element? = some hint := by
  rw [adopts.type_of_moved none other, Option.map_eq_some_iff] at typed
  obtain ⟨own, _, rfl⟩ := typed
  exact Ty.element?_withElement own hint

/-- A hint neither gives nor takes a type. -/
theorem isSome_type (adopts : Adopts hint moved plain hinted) (target other : Option Scalar) :
    (hinted.coerceTo other).type.isSome = (plain.coerceTo target).type.isSome := by
  cases moved with
  | true => rw [adopts.type_of_moved target other, Option.isSome_map]
  | false =>
    rw [(adopts.kept rfl).1]
    cases literal : plain.isAbstractLiteral with
    | false => rw [coerceTo_of_concrete other literal, coerceTo_of_concrete target literal]
    | true =>
      obtain ⟨_, _, typed⟩ := adopts.literal.type_coerceTo literal target
      obtain ⟨_, _, otherTyped⟩ := adopts.literal.type_coerceTo literal other
      rw [typed, otherTyped]
      rfl

/-- What has taken the hint is numeric among its neighbours. -/
theorem numeric_of_moved (adopts : Adopts hint true plain hinted)
    (typed : (plain.coerceTo target).type = some type) : type.isNumeric := by
  cases literal : plain.isAbstractLiteral with
  | false =>
    rw [coerceTo_of_concrete target literal] at typed
    exact adopts.numeric rfl type typed
  | true =>
    obtain ⟨element, numeric, found⟩ := adopts.literal.type_coerceTo literal target
    cases typed.symm.trans found
    exact numeric

/-- What did not take the hint but has its components is no literal. -/
theorem concrete_of_kept (float : hint ≠ .f32) (adopts : Adopts hint false plain hinted)
    (typed : (plain.coerceTo target).type = some type) (element : type.element? = some hint) :
    plain.isAbstractLiteral = false := by
  cases literal : plain.isAbstractLiteral with
  | false => rfl
  | true =>
    have unmoved : (plain.coerceTo target).type ≠ plain.type := by
      rw [typed, adopts.literal literal]
      rintro ⟨⟩
      cases element
      exact float rfl
    cases target with
    | none => exact absurd rfl unmoved
    | some target =>
      rcases coerce_cases target literal with same | ⟨_, found, _⟩
      · exact absurd (congrArg Expr.type same) unmoved
      · have scalar : type = .scalar target := Option.some.inj (typed.symm.trans found)
        have hinted : target = hint := by
          rw [scalar] at element
          exact Option.some.inj element
        rw [hinted] at unmoved
        exact absurd (congrArg Expr.type (adopts.kept rfl).2) unmoved

/-- What has the hinted components keeps its type. -/
theorem type_of_element (float : hint ≠ .f32) (adopts : Adopts hint moved plain hinted)
    (typed : (plain.coerceTo target).type = some type) (element : type.element? = some hint) :
    (hinted.coerceTo other).type = some type := by
  cases moved with
  | true =>
    rw [adopts.type_of_moved target other, typed, Option.map_some,
      Ty.withElement_of_element element]
  | false =>
    have concrete := adopts.concrete_of_kept float typed element
    rw [(adopts.kept rfl).1, coerceTo_of_concrete other concrete]
    rwa [coerceTo_of_concrete target concrete] at typed

/-- What did not take the hint had the components before. -/
theorem element_of_kept {own : Ty} (float : hint ≠ .f32) (adopts : Adopts hint false plain hinted)
    (owned : (plain.coerceTo target).type = some own)
    (typed : (hinted.coerceTo other).type = some type) (element : type.element? = some hint) :
    own.element? = some hint := by
  rw [(adopts.kept rfl).1] at typed
  have concrete := adopts.concrete_of_kept float typed element
  rw [coerceTo_of_concrete other concrete] at typed
  rw [coerceTo_of_concrete target concrete, typed] at owned
  cases owned
  exact element

end Adopts

section Rules

variable {operator : BinaryOperator} {left right type : Ty} {element : Scalar}

/-- Arithmetic is the same for all component types. -/
theorem arithmetic_withElement (accepted : arithmetic operator left right = .ok type)
    (element : Scalar) :
    arithmetic operator (left.withElement element) (right.withElement element) =
      .ok (type.withElement element) := by
  unfold arithmetic at accepted
  split at accepted <;> (try split at accepted) <;> (try split at accepted) <;> cases accepted <;>
    simp_all [arithmetic, Ty.withElement]

/-- Arithmetic keeps the component type. -/
theorem arithmetic_element (accepted : arithmetic operator left right = .ok type)
    (leftElement : left.element? = some element) (rightElement : right.element? = some element) :
    type.element? = some element := by
  unfold arithmetic at accepted
  split at accepted <;> (try split at accepted) <;> (try split at accepted) <;> cases accepted <;>
    assumption

/-- Arithmetic is on numbers with the same components. -/
theorem binary_eq (passed : operator.isArithmetic) (left right : Ty) :
    binary operator left right =
      if left.isNumeric && right.isNumeric && left.element? = right.element? then
        arithmetic operator left right
      else .error (.invalidOperands operator left right) := by
  cases operator <;> first | rfl | cases passed

/-- Operands and result are numbers of one type. -/
theorem binary_element (passed : operator.isArithmetic)
    (accepted : binary operator left right = .ok type) :
    ∃ element, element.isNumeric ∧ left.element? = some element ∧ right.element? = some element ∧
      type.element? = some element := by
  rw [binary_eq passed] at accepted
  split at accepted
  · rename_i admitted
    simp only [Bool.and_eq_true, decide_eq_true_eq, Ty.isNumeric, Option.any_eq_true] at admitted
    obtain ⟨⟨⟨element, leftElement, numeric⟩, -⟩, same⟩ := admitted
    have rightElement := same.symm.trans leftElement
    exact ⟨element, numeric, leftElement, rightElement,
      arithmetic_element accepted leftElement rightElement⟩
  · cases accepted

/-- Accepted arithmetic is accepted for other numbers. -/
theorem binary_withElement (passed : operator.isArithmetic)
    (accepted : binary operator left right = .ok type) (numeric : element.isNumeric) :
    binary operator (left.withElement element) (right.withElement element) =
      .ok (type.withElement element) := by
  rw [binary_eq passed] at accepted ⊢
  split at accepted
  · rw [if_pos (by simp [Ty.isNumeric_withElement _ numeric])]
    exact arithmetic_withElement accepted element
  · cases accepted

/-- A unary operator is accepted for numbers with a sign. -/
theorem unary_withElement {operator : UnaryOperator} {operand : Ty} (numeric : element.isNumeric)
    (number : operand.isNumeric) (accepted : unary operator operand = .ok type) :
    unary operator (operand.withElement element) =
      if element = .u32 then .error (.invalidOperand operator (operand.withElement element))
      else .ok (operand.withElement element) := by
  cases operator with
  | negate => by_cases unsigned : element = .u32 <;>
      simp [unary, Ty.isNumeric_withElement operand numeric, unsigned]
  | not =>
    unfold unary at accepted
    dsimp only at accepted
    split at accepted
    · rename_i truth
      rw [decide_eq_true_eq.mp truth] at number
      cases number
    · cases accepted

variable {types : List Ty}

/-- Components are counted where all have the type asked for. -/
theorem countComponents_ok {count : Nat} (counted : countComponents element types = .ok count)
    (other : Scalar) :
    (∀ type ∈ types, type.element? = some element) ∧
      countComponents other (types.map (·.withElement other)) = .ok count := by
  induction types generalizing count with
  | nil => exact ⟨nofun, counted⟩
  | cons first rest ih =>
    unfold countComponents at counted
    split at counted
    · rename_i size sized
      split at counted
      · rename_i here
        cases counting : countComponents element rest with
        | error refused => simp [counting, Except.map] at counted
        | ok remaining =>
          obtain ⟨below, again⟩ := ih counting
          have resized : (first.withElement other).componentCount? = some size := by
            cases first <;> first | exact sized | cases sized
          rw [counting] at counted
          refine ⟨forall_mem_cons.mpr ⟨here, below⟩, ?_⟩
          rw [map_cons, countComponents, resized, again]
          simpa using counted
      · cases counted
    · cases counted

/-- Components of a type, or a single vector or matrix. -/
def HasElements (types : List Ty) (element : Scalar) : Prop :=
  (∀ argument ∈ types, argument.element? = some element) ∨
    ∃ argument found, types = [argument] ∧ argument.element? = some found ∧ argument ≠ .scalar found

/-- A vector is built from its components or a vector. -/
theorem vectorConstructor_elements (accepted : vectorConstructor size element types = .ok type) :
    HasElements types element := by
  unfold vectorConstructor at accepted
  dsimp only at accepted
  split at accepted
  · exact .inl (forall_mem_nil _)
  · exact .inr ⟨_, _, rfl, rfl, by simp⟩
  · split at accepted
    · rename_i same
      exact .inl (forall_mem_singleton.mpr (congrArg some same))
    · cases accepted
  · split at accepted
    · cases accepted
    · rename_i counted
      exact .inl (countComponents_ok counted element).1

/-- It can be built with any other components. -/
theorem vectorConstructor_withElement (other : Scalar)
    (accepted : vectorConstructor size element types = .ok type) :
    vectorConstructor size other (types.map (·.withElement other)) = .ok (.vector size other) := by
  unfold vectorConstructor at accepted
  dsimp only at accepted
  split at accepted
  · rfl
  · split at accepted
    · rename_i same
      simp [vectorConstructor, Ty.withElement, same]
    · cases accepted
  · simp [vectorConstructor, Ty.withElement]
  · split at accepted
    · cases accepted
    · rename_i notVector notScalar _ count counted
      have again := (countComponents_ok counted other).2
      unfold vectorConstructor
      dsimp only
      split
      · rfl
      · rename_i same
        obtain ⟨argument, rfl, converted⟩ := map_eq_singleton_iff.mp same
        cases argument <;> cases converted
        exact (notVector _ _ rfl).elim
      · rename_i same
        obtain ⟨argument, rfl, converted⟩ := map_eq_singleton_iff.mp same
        cases argument with
        | scalar => exact (notScalar _ rfl).elim
        | vector | matrix => cases converted
        | array | struct | texture | sampler => cases counted
      · split at accepted
        · rename_i complete
          rw [again]
          simp [complete]
        · cases accepted

/-- A matrix is built from its components or a matrix. -/
theorem matrixConstructor_elements
    (accepted : matrixConstructor columns rows element types = .ok type) :
    HasElements types element := by
  unfold matrixConstructor at accepted
  dsimp only at accepted
  split at accepted
  · exact .inl nofun
  · exact .inr ⟨_, _, rfl, rfl, nofun⟩
  · split at accepted
    · rename_i complete
      simp only [Bool.or_eq_true, Bool.and_eq_true, all_eq_true, decide_eq_true_eq] at complete
      left
      intro argument member
      rcases complete with ⟨-, same⟩ | ⟨-, same⟩ <;> rw [same argument member] <;> rfl
    · cases accepted

/-- It can be built with any other components. -/
theorem matrixConstructor_withElement (other : Scalar)
    (accepted : matrixConstructor columns rows element types = .ok type) :
    matrixConstructor columns rows other (types.map (·.withElement other)) =
      .ok (.matrix columns rows other) := by
  unfold matrixConstructor at accepted
  dsimp only at accepted
  split at accepted
  · rfl
  · split at accepted
    · rename_i same
      simpa [matrixConstructor, Ty.withElement] using same
    · cases accepted
  · rename_i nonempty notMatrix
    split at accepted
    · rename_i complete
      simp only [Bool.or_eq_true, Bool.and_eq_true, all_eq_true, decide_eq_true_eq] at complete
      unfold matrixConstructor
      dsimp only
      split
      · rfl
      · rename_i same
        obtain ⟨argument, rfl, converted⟩ := map_eq_singleton_iff.mp same
        cases argument <;> cases converted
        exact (notMatrix _ _ _ rfl).elim
      · rw [if_pos]
        simp only [Bool.or_eq_true, Bool.and_eq_true, all_eq_true, decide_eq_true_eq,
          length_map, mem_map, forall_exists_index, and_imp, forall_apply_eq_imp_iff₂]
        rcases complete with ⟨many, same⟩ | ⟨many, same⟩
        · exact .inl ⟨many, fun argument member => by rw [same argument member]; rfl⟩
        · exact .inr ⟨many, fun argument member => by rw [same argument member]; rfl⟩
    · cases accepted

/-- A shape is built from its components or a shape. -/
theorem shapeConstructor_elements
    (accepted : shapeConstructor (shape.withElement element) types = .ok type) :
    HasElements types element := by
  cases shape with
  | vector => exact vectorConstructor_elements accepted
  | matrix => exact matrixConstructor_elements accepted

/-- It can be built with any other components. -/
theorem shapeConstructor_withElement (other : Scalar)
    (accepted : shapeConstructor (shape.withElement element) types = .ok type) :
    shapeConstructor (shape.withElement other) (types.map (·.withElement other)) =
      .ok (shape.withElement other) := by
  cases shape with
  | vector => exact vectorConstructor_withElement other accepted
  | matrix => exact matrixConstructor_withElement other accepted

end Rules

end Typing

end Shading
