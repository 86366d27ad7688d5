import Shading.Proofs.Annotations
import Shading.Proofs.Vocabulary

/-!
# What types inherit

A written type is made of builtin types and of declared structs, and the type of an expression of those
of its parts and of what the context knows. So what holds of all builtin types and is kept by every rule
holds of every type of an expression. A rule may keep it only of sound nodes; then it holds where all
nodes are sound.
-/

namespace Shading

open List Option

variable {name : String} {expression : Expr} {α : Type} {size : Nat} {shape : Shape}
  {argument struct : Ty} {written : WrittenType} {binding : Binding} {signature : Signature}
  {operator : BinaryOperator} {arguments : List Expr} {span : Span}

namespace Typing

open Typed (Callee Expr)
open Typed.Expr (parts forall_nodes)

variable {left right type : Ty}

/-! ### What rules give -/

/-- Values are given for members, each for one. -/
theorem mem_of_mapM {β : Type} {given : α → Option β} {arguments : List α} {values : List β}
    (made : arguments.mapM given = some values) :
    values.length = arguments.length ∧
      ∀ value ∈ values, ∃ argument ∈ arguments, given argument = some value := by
  induction arguments generalizing values with
  | nil =>
    cases made
    exact ⟨rfl, nofun⟩
  | cons first rest ih =>
    simp only [mapM_cons, Option.bind_eq_bind, Option.bind_eq_some_iff, Option.pure_def,
      Option.some.injEq] at made
    obtain ⟨value, here, others, below, rfl⟩ := made
    obtain ⟨length, each⟩ := ih below
    refine ⟨by rw [length_cons, length_cons, length], ?_⟩
    refine forall_mem_cons.mpr ⟨⟨first, mem_cons_self, here⟩, fun found member => ?_⟩
    obtain ⟨argument, inside, given⟩ := each found member
    exact ⟨argument, mem_cons_of_mem _ inside, given⟩

/-- A swizzle names one to four components. -/
theorem length_components {components : List Nat}
    (named : Swizzle.components? name size = some components) :
    components.length = name.length ∧ 1 ≤ name.length ∧ name.length ≤ 4 := by
  rw [← String.length_toList]
  unfold Swizzle.components? at named
  split at named
  · cases named
  · rename_i first rest letters
    split at named
    · cases named
    · rename_i short
      obtain ⟨set, _, made⟩ := Option.bind_eq_some_iff.mp named
      have bytes := length_le_byteLength name.toList
      rw [← utf8ByteSize_eq] at bytes
      rw [letters] at bytes ⊢
      exact ⟨(mem_of_mapM made).1, Nat.le_add_left .., by omega⟩

/-- The operators on one operand keep its type. -/
theorem unary_type {operator : UnaryOperator} (accepted : unary operator left = .ok type) :
    type = left := by
  unfold unary at accepted
  cases operator <;> dsimp only at accepted <;> split at accepted <;> cases accepted <;> rfl

/-- A componentwise function keeps its first type. -/
theorem vectorwise_type {builtin : Builtin} {types : List Ty} {arity : Nat} {scalarLast : Bool}
    (accepted : Builtin.vectorwiseResult builtin arity scalarLast left types = .ok type) :
    type = left := by
  unfold Builtin.vectorwiseResult at accepted
  split at accepted
  · split at accepted
    · cases accepted
    · split at accepted
      · obtain ⟨_, _, accepted⟩ := Surface.bind_eq_ok.mp accepted
        split at accepted
        · split at accepted <;> cases accepted
          rfl
        · cases accepted
          rfl
      · obtain ⟨_, _, accepted⟩ := Surface.bind_eq_ok.mp accepted
        cases accepted
        rfl
  · cases accepted

/-- What is looked up is listed. -/
theorem mem_of_lookup {entries : List (String × α)} {value : α}
    (found : entries.lookup name = some value) : (name, value) ∈ entries := by
  obtain ⟨before, after, split, _⟩ := lookup_eq_some_iff.mp found
  rw [split]
  exact mem_append_right _ mem_cons_self

section Constructors

variable {element : Scalar} {types : List Ty}

/-- Vectors are built as such. -/
theorem vectorConstructor_type (accepted : vectorConstructor size element types = .ok type) :
    type = .vector size element := by
  unfold vectorConstructor at accepted
  dsimp only at accepted
  split at accepted
  · cases accepted
    rfl
  · split at accepted <;> cases accepted
    rfl
  · split at accepted <;> cases accepted
    rfl
  · split at accepted
    · cases accepted
    · split at accepted <;> cases accepted
      rfl

/-- Matrices are built as such. -/
theorem matrixConstructor_type {columns rows : Nat}
    (accepted : matrixConstructor columns rows element types = .ok type) :
    type = .matrix columns rows element := by
  unfold matrixConstructor at accepted
  dsimp only at accepted
  split at accepted
  · cases accepted
    rfl
  · split at accepted <;> cases accepted
    rfl
  · split at accepted <;> cases accepted
    rfl

/-- The constructor of a shape makes values of the shape. -/
theorem shapeConstructor_type
    (accepted : shapeConstructor (shape.withElement element) types = .ok type) :
    type = shape.withElement element := by
  cases shape with
  | vector => exact vectorConstructor_type accepted
  | matrix => exact matrixConstructor_type accepted

/-- An array has as many elements as arguments. -/
theorem arrayOf_type {size : Option Nat} (accepted : arrayOf left size types = .ok type) :
    type = .array left (some types.length) := by
  unfold arrayOf at accepted
  dsimp only at accepted
  split at accepted
  · cases accepted
  · split at accepted
    · split at accepted <;> cases accepted
      rename_i same
      rw [same]
      rfl
    · cases accepted
      rfl

/-- Scalars are built as such. -/
theorem scalarConstructor_type (accepted : scalarConstructor element types = .ok type) :
    type = .scalar element := by
  unfold scalarConstructor at accepted
  split at accepted <;> cases accepted <;> rfl

end Constructors

/-! ### Written types -/

/-- What holds of all builtin types written with a vocabulary. -/
structure Inherited (vocabulary : Vocabulary) (holds : Ty → Prop) : Prop where
  scalar : ∀ element, holds (.scalar element)
  shape : ∀ name shape element, Shape.ofName? name = some shape → vocabulary.word name →
    (element = shape.defaultElement ∨ (shape.isMatrix = true → element.isFloat = true)) →
      holds (shape.withElement element)
  array : ∀ element, holds element → holds (.array element none)
  sized : ∀ element size, holds element → 0 < size → vocabulary.Counts size →
    holds (.array element (some size))
  sampler : ∀ comparison, holds (.sampler comparison)
  texture : ∀ dimension sample, sample ≠ .bool → holds (.texture dimension sample)

/-- What holds of all types that are known by name. -/
def HoldsOfNamed (holds : Ty → Prop) (named : WrittenType → Option Ty) : Prop :=
  ∀ written type, named written = some type → holds type

section Resolution

variable {vocabulary : Vocabulary} {holds : Ty → Prop} {named : WrittenType → Option Ty}

/-- It holds of shapes. -/
theorem shaped_inherits (inherited : Inherited vocabulary holds)
    (named : Shape.ofName? name = some shape) (word : vocabulary.word name)
    (accepted : WrittenType.shaped name shape argument = .ok type) : holds type := by
  unfold WrittenType.shaped at accepted
  split at accepted
  · split at accepted
    · cases accepted
    · rename_i element admitted
      cases accepted
      refine inherited.shape name shape element named word (.inr fun matrix => ?_)
      simpa [matrix] using admitted
  · cases accepted

/-- It holds of textures. -/
theorem sampled_inherits (inherited : Inherited vocabulary holds) {dimension : TextureDimension}
    (accepted : WrittenType.sampled dimension argument = .ok type) : holds type := by
  unfold WrittenType.sampled at accepted
  split at accepted
  · cases accepted
  · rename_i sample notBool
    cases accepted
    refine inherited.texture _ _ fun same => ?_
    rw [same] at notBool
    exact notBool rfl
  · cases accepted

mutual

/-- It holds of builtin types if of their arguments. -/
theorem resolveBuiltin_inherits (inherited : Inherited vocabulary holds)
    (known : HoldsOfNamed holds named) {type : Ty} : (written : WrittenType) →
    vocabulary.HasType written → WrittenType.resolveBuiltin named written = .ok (some type) →
      holds type
  | .mk name arguments span, ⟨word, has⟩, accepted => by
    have inner := resolveArguments_inherit inherited known arguments has
    unfold WrittenType.resolveBuiltin at accepted
    split at accepted
    · split at accepted <;> cases accepted
      exact inherited.scalar _
    · split at accepted
      · rename_i shape shapeNamed
        split at accepted
        · cases accepted
          exact inherited.shape name shape _ shapeNamed word (.inl rfl)
        · obtain ⟨argument, _, accepted⟩ := Surface.bind_eq_ok.mp accepted
          obtain ⟨built, made, accepted⟩ := Surface.bind_eq_ok.mp accepted
          cases accepted
          exact shaped_inherits inherited shapeNamed word made
        · cases accepted
      · split at accepted
        · split at accepted
          · obtain ⟨element, found, accepted⟩ := Surface.bind_eq_ok.mp accepted
            cases accepted
            exact inherited.array element (inner _ mem_cons_self _ found)
          · split at accepted
            · rename_i positive
              obtain ⟨element, found, accepted⟩ := Surface.bind_eq_ok.mp accepted
              cases accepted
              obtain ⟨_, counted, _⟩ := has
              exact inherited.sized element _ (inner _ mem_cons_self _ found) positive counted
            · cases accepted
          · cases accepted
        · cases accepted
          exact inherited.sampler false
        · cases accepted
          exact inherited.sampler true
        · cases accepted
          exact inherited.texture .depthTwo .f32 nofun
        · split at accepted
          · split at accepted
            · cases accepted
              exact inherited.texture _ .f32 nofun
            · obtain ⟨argument, _, accepted⟩ := Surface.bind_eq_ok.mp accepted
              obtain ⟨built, made, accepted⟩ := Surface.bind_eq_ok.mp accepted
              cases accepted
              exact sampled_inherits inherited made
            · cases accepted
          · cases accepted

/-- It holds of a type argument. -/
theorem resolveArgument_inherits (inherited : Inherited vocabulary holds)
    (known : HoldsOfNamed holds named) {type : Ty} : (argument : TypeArgument) →
    vocabulary.HasArgument argument → WrittenType.resolveArgument named argument = .ok type →
      holds type
  | .type written, has, accepted => by
    obtain ⟨found, builtin, accepted⟩ := Surface.bind_eq_ok.mp accepted
    split at accepted
    · cases accepted
      exact resolveBuiltin_inherits inherited known written has builtin
    · split at accepted
      · rename_i declared
        cases accepted
        exact known written _ declared
      · cases accepted
  | .size _, _, accepted => nomatch accepted

/-- It holds of all type arguments. -/
theorem resolveArguments_inherit (inherited : Inherited vocabulary holds)
    (known : HoldsOfNamed holds named) : (arguments : List TypeArgument) →
    vocabulary.HasArguments arguments → ∀ argument ∈ arguments, ∀ type,
      WrittenType.resolveArgument named argument = .ok type → holds type
  | [], _ => nofun
  | first :: rest, ⟨firstHas, restHas⟩ => forall_mem_cons.mpr
      ⟨fun _ accepted => resolveArgument_inherits inherited known first firstHas accepted,
        resolveArguments_inherit inherited known rest restHas⟩

end

end Resolution

/-- It holds of a written type if of the structs. -/
theorem resolve_inherits {vocabulary : Vocabulary} {holds : Ty → Prop}
    (inherited : Inherited vocabulary holds) {context : Context}
    (structs : ∀ entry ∈ context.structs, holds entry.2) (has : vocabulary.HasType written)
    (accepted : context.resolve? written = some type) : holds type := by
  have known : HoldsOfNamed holds context.named? := by
    intro other struct declared
    unfold Context.named? at declared
    split at declared
    · exact structs _ (mem_of_lookup declared)
    · cases declared
  unfold Context.resolve? at accepted
  cases result : written.resolve context.named? with
  | ok found =>
    rw [result] at accepted
    cases accepted
    exact resolveArgument_inherits inherited known (.type written) has result
  | error error =>
    rw [result] at accepted
    cases accepted

/-! ### Contexts -/

section

variable {vocabulary : Vocabulary} {sound : Expr → Prop} {holds : Ty → Prop}

/-- A property of all types that a context knows. -/
structure Context.AllTypes (holds : Ty → Prop) (context : Context) : Prop where
  bindings : ∀ scope ∈ context.scopes.all, ∀ entry ∈ scope, ∀ type ∈ entry.2.type, holds type
  structs : ∀ entry ∈ context.structs, holds entry.2
  functions : ∀ entry ∈ context.functions, ∀ type ∈ entry.2.returnType, holds type

namespace Context.AllTypes

variable {context : Context} (all : context.AllTypes holds)

/-- The empty context has no types. -/
theorem empty (holds : Ty → Prop) : Context.empty.AllTypes holds where
  bindings scope member entry inside := by
    rw [mem_singleton.mp member] at inside
    cases inside
  structs := nofun
  functions := nofun

include all

/-- A bound name has the property. -/
theorem lookup? (bound : context.lookup? name = some binding) :
    ∀ type ∈ binding.type, holds type := by
  obtain ⟨scope, member, found⟩ := exists_of_findSome?_eq_some bound
  exact all.bindings scope member _ (mem_of_lookup found)

/-- A known struct has the property. -/
theorem struct? (declared : context.struct? name = some struct) : holds struct :=
  all.structs _ (mem_of_lookup declared)

/-- The result of a known function has the property. -/
theorem function? (declared : context.function? name = some signature) :
    ∀ type ∈ signature.returnType, holds type :=
  all.functions _ (mem_of_lookup declared)

/-- What is inherited holds of a written type. -/
theorem resolve? (inherited : Inherited vocabulary holds) (has : vocabulary.HasType written)
    (accepted : context.resolve? written = some type) : holds type :=
  resolve_inherits inherited all.structs has accepted

/-- A new scope keeps it. -/
theorem push : context.push.AllTypes holds where
  bindings scope member := by
    rcases mem_cons.mp member with same | outer
    · rw [same]
      exact nofun
    · exact all.bindings scope outer
  structs := all.structs
  functions := all.functions

/-- A new name keeps the property. -/
theorem bind (name : String) (fits : ∀ type ∈ binding.type, holds type) :
    (context.bind name binding).AllTypes holds where
  bindings scope member entry inside := by
    have inserted (scope : Scope Binding) (kept : ∀ entry ∈ scope, ∀ type ∈ entry.2.type, holds type) :
        ∀ entry ∈ scope.insert name binding, ∀ type ∈ entry.2.type, holds type := by
      induction scope with
      | nil => simpa [Scope.insert] using fits
      | cons first rest ih =>
        obtain ⟨firstKept, restKept⟩ := forall_mem_cons.mp kept
        unfold Scope.insert
        split
        · exact forall_mem_cons.mpr ⟨fits, restKept⟩
        · exact forall_mem_cons.mpr ⟨firstKept, ih restKept⟩
    rcases mem_cons.mp member with same | outer
    · rw [same] at inside
      exact inserted _ (all.bindings _ mem_cons_self) entry inside
    · exact all.bindings scope (mem_cons_of_mem _ outer) entry inside
  structs := all.structs
  functions := all.functions

/-- A new struct keeps the property. -/
theorem defineStruct (name : String) (fits : holds struct) :
    (context.defineStruct name struct).AllTypes holds where
  bindings := all.bindings
  structs entry member := by
    rcases mem_append.mp member with kept | added
    · exact all.structs entry ((mem_filter.mp kept).1)
    · rw [mem_singleton.mp added]
      exact fits
  functions := all.functions

/-- A new function keeps the property. -/
theorem defineFunction (name : String) (fits : ∀ type ∈ signature.returnType, holds type) :
    (context.defineFunction name signature).AllTypes holds where
  bindings := all.bindings
  structs := all.structs
  functions entry member := by
    rcases mem_append.mp member with kept | added
    · exact all.functions entry ((mem_filter.mp kept).1)
    · rw [mem_singleton.mp added]
      exact fits

end Context.AllTypes

/-! ### Expressions -/

/-- Inherited and kept by all ways to make types, by constructors where the call is sound. -/
structure Closed (vocabulary : Vocabulary) (sound : Expr → Prop) (holds : Ty → Prop) : Prop
    extends Inherited vocabulary holds where
  vector : ∀ {size element}, 2 ≤ size → size ≤ 4 → holds (.vector size element)
  row : ∀ {columns rows element}, holds (.matrix columns rows element) → holds (.vector rows element)
  column : ∀ {columns rows element}, holds (.matrix columns rows element) →
    holds (.vector columns element)
  transposed : ∀ {columns rows element}, holds (.matrix columns rows element) →
    holds (.matrix rows columns element)
  product : ∀ {columns rows element otherColumns otherRows otherElement},
    holds (.matrix columns rows element) → holds (.matrix otherColumns otherRows otherElement) →
      holds (.matrix otherColumns rows element)
  field : ∀ {name fields}, holds (.struct name fields) → ∀ field ∈ fields, holds field.2
  shaped : ∀ {name shape element written arguments span}, Shape.ofName? name = some shape →
    sound (.call (.constructor written) arguments (some (shape.withElement element)) span) →
      holds (shape.withElement element)
  element : ∀ {element size}, holds (.array element size) → holds element
  counted : ∀ {element written arguments span}, holds element →
    sound (.call (.constructor written) arguments
      (some (.array element (some arguments.length))) span) →
      holds (.array element (some arguments.length))
  struct : ∀ {name fields}, vocabulary.word name → (∀ field ∈ fields, holds field.2) →
    holds (.struct name fields)

/-- If all nodes are sound, their types have a property. -/
def TypesHold (sound : Expr → Prop) (holds : Ty → Prop) (expression : Expr) : Prop :=
  (∀ node ∈ expression.nodes, sound node) → ∀ node ∈ expression.nodes, ∀ type ∈ node.type, holds type

/-- It holds of a node if of its parts and by them of itself. -/
theorem TypesHold.ofParts (below : ∀ part ∈ parts expression, TypesHold sound holds part)
    (here : sound expression → (∀ part ∈ parts expression, ∀ type ∈ part.type, holds type) →
      ∀ type ∈ expression.type, holds type) : TypesHold sound holds expression := by
  intro all
  have inner : ∀ part ∈ parts expression, ∀ node ∈ part.nodes, ∀ type ∈ node.type, holds type := by
    intro part isPart
    apply below part isPart
    intro node member
    exact all node (Typed.Expr.mem_nodes_of_part isPart member)
  refine forall_nodes.mpr ⟨here ?_ ?_, inner⟩
  · exact all expression (Typed.Expr.mem_nodes_self expression)
  · intro part isPart
    exact inner part isPart part (Typed.Expr.mem_nodes_self part)

/-- Without parts, it is that of the type itself. -/
theorem TypesHold.ofLeaf (leaf : parts expression = [])
    (here : ∀ type ∈ expression.type, holds type) : TypesHold sound holds expression := by
  refine .ofParts ?_ fun _ _ => here
  rw [leaf]
  exact nofun

end

namespace Closed

variable {vocabulary : Vocabulary} {sound : Expr → Prop} {holds : Ty → Prop}
  (closed : Closed vocabulary sound holds)

section Rules

include closed

/-! ### Operators -/

/-- Arithmetic keeps it. -/
theorem arithmetic (accepted : Typing.arithmetic operator left right = .ok type)
    (leftHolds : holds left) (rightHolds : holds right) : holds type := by
  unfold Typing.arithmetic at accepted
  split at accepted
  · cases accepted
    exact leftHolds
  · split at accepted <;> cases accepted
    exact leftHolds
  · cases accepted
    exact leftHolds
  · cases accepted
    exact rightHolds
  · rename_i columns rows element _ _
    split at accepted
    · cases accepted
    · split at accepted <;> cases accepted
      exact closed.row leftHolds
  · rename_i columns rows element
    split at accepted
    · cases accepted
    · split at accepted <;> cases accepted
      exact closed.column rightHolds
  · split at accepted
    · split at accepted <;> cases accepted
      exact closed.product leftHolds rightHolds
    · split at accepted <;> cases accepted
      exact leftHolds
    · split at accepted <;> cases accepted
      exact leftHolds
    · cases accepted
  · split at accepted <;> cases accepted
    exact leftHolds
  · split at accepted <;> cases accepted
    exact rightHolds
  · cases accepted

/-- An operation keeps the property. -/
theorem binary (accepted : Typing.binary operator left right = .ok type) (leftHolds : holds left)
    (rightHolds : holds right) : holds type := by
  unfold Typing.binary at accepted
  split at accepted
  · split at accepted <;> cases accepted
    exact closed.scalar _
  · split at accepted
    · dsimp only at accepted
      split at accepted <;> cases accepted
      exact closed.scalar _
    · split at accepted
      · exact closed.arithmetic accepted leftHolds rightHolds
      · cases accepted

/-! ### Members and elements -/

/-- A member keeps the property. -/
theorem member {kind : Typed.MemberKind} (accepted : Typing.member left name = .ok (type, kind))
    (baseHolds : holds left) : holds type := by
  unfold Typing.member at accepted
  split at accepted
  · split at accepted
    · cases accepted
      exact closed.scalar _
    · rename_i components single named
      cases accepted
      obtain ⟨same, least, most⟩ := length_components named
      rw [← same] at least most
      refine closed.vector ?_ most
      -- One component would be a scalar.
      rcases components with _ | ⟨only, _ | ⟨second, rest⟩⟩
      · exact absurd least (Nat.not_succ_le_zero _)
      · exact absurd rfl (single only)
      · exact Nat.le_add_left ..
    · cases accepted
  · rename_i struct fields
    split at accepted
    · rename_i field found
      cases accepted
      exact closed.field baseHolds _ (mem_of_lookup found)
    · cases accepted
  · cases accepted

/-- An element keeps the property. -/
theorem index (accepted : Typing.index left right = .ok type) (baseHolds : holds left) :
    holds type := by
  unfold Typing.index at accepted
  split at accepted
  · cases accepted
  · split at accepted
    · cases accepted
      exact closed.scalar _
    · cases accepted
      exact closed.row baseHolds
    · cases accepted
      exact closed.element baseHolds
    · cases accepted

section Builtins

variable {builtin : Builtin} {types : List Ty}

/-- A reduction keeps the property. -/
theorem reduction (accepted : Builtin.reductionResult builtin left types = .ok type) :
    holds type := by
  have reduced {element : Scalar} (accepted : (do
      Builtin.allSame builtin left types
      .ok (.scalar element)) = Except.ok type) : holds type := by
    obtain ⟨_, _, accepted⟩ := Surface.bind_eq_ok.mp accepted
    cases accepted
    exact closed.scalar _
  unfold Builtin.reductionResult at accepted
  dsimp only at accepted
  split at accepted
  · split at accepted
    · exact reduced accepted
    · cases accepted
  · split at accepted
    · exact reduced accepted
    · cases accepted
  · cases accepted

/-- A builtin gives the type of an argument or of its size. -/
theorem applyTo (accepted : builtin.applyTo types = .ok type)
    (each : ∀ argument ∈ types, holds argument) : holds type := by
  unfold Builtin.applyTo at accepted
  split at accepted
  · unfold Builtin.componentwiseResult at accepted
    split at accepted
    · obtain ⟨_, _, accepted⟩ := Surface.bind_eq_ok.mp accepted
      cases accepted
      exact each _ mem_cons_self
    · cases accepted
  · unfold Builtin.blendResult at accepted
    split at accepted
    · obtain ⟨_, _, accepted⟩ := Surface.bind_eq_ok.mp accepted
      split at accepted <;> cases accepted
      exact each _ mem_cons_self
    · cases accepted
  · unfold Builtin.thresholdResult at accepted
    split at accepted
    · split at accepted <;> cases accepted
      exact each _ (by simp)
    · cases accepted
  · unfold Builtin.choiceResult at accepted
    split at accepted
    · cases accepted
    · split at accepted <;> cases accepted
      exact each _ mem_cons_self
  · exact closed.reduction accepted
  · split at accepted <;> cases accepted
    exact closed.scalar _
  · cases accepted
  · split at accepted
    · obtain ⟨_, _, accepted⟩ := Surface.bind_eq_ok.mp accepted
      cases accepted
      exact each _ mem_cons_self
    · cases accepted
  · cases accepted
  · rw [vectorwise_type accepted]
    exact each _ mem_cons_self
  · cases accepted
    exact closed.transposed (each _ mem_cons_self)
  · cases accepted
  · cases accepted
    exact closed.scalar _
  · cases accepted
    exact closed.scalar _
  · cases accepted
  · have color : holds (.vector 4 .f32) := closed.vector (by decide) (by decide)
    unfold Builtin.samplingResult at accepted
    split at accepted
    · cases accepted
      exact color
    · split at accepted <;> cases accepted
      exact color
    · cases accepted
      exact color
    · cases accepted
    · cases accepted
      exact color
  · unfold Builtin.dimensionsResult at accepted
    split at accepted <;> cases accepted
    · exact closed.scalar _
    · exact closed.vector (by decide) (by decide)
    · exact closed.vector (by decide) (by decide)
  · cases accepted

/-- A builtin function keeps the property. -/
theorem resultType (accepted : builtin.resultType types = .ok type)
    (each : ∀ argument ∈ types, holds argument) : holds type := by
  unfold Builtin.resultType at accepted
  dsimp only at accepted
  split at accepted
  · exact closed.applyTo accepted each
  · cases accepted

end Builtins

/-- An array has the length of its arguments. -/
theorem arrayConstructor {explicit : Option Ty} {types : List Ty} {written : String}
    (accepted : Typing.arrayConstructor explicit types = .ok type)
    (length : types.length = arguments.length) (explicitHolds : ∀ type ∈ explicit, holds type)
    (each : ∀ argument ∈ types, holds argument)
    (wellMade : sound (.call (.constructor written) arguments (some type) span)) : holds type := by
  have made (element : Ty) (elementHolds : holds element)
      (same : type = .array element (some types.length)) : holds type := by
    rw [same, length] at wellMade ⊢
    exact closed.counted elementHolds wellMade
  unfold Typing.arrayConstructor at accepted
  split at accepted
  · rename_i element size
    exact made element (closed.element (explicitHolds _ rfl)) (arrayOf_type accepted)
  · cases accepted
  · split at accepted
    · rename_i first _
      exact made first (each first mem_cons_self) (arrayOf_type accepted)
    · cases accepted

end Rules

section Steps

include closed

/-- A retyped literal has it. -/
theorem retype (target : Scalar) (literal : expression.isAbstractLiteral) :
    TypesHold sound holds (expression.retype target) := by
  fun_induction Expr.isAbstractLiteral expression with
  | case1 number _ span =>
    refine .ofLeaf rfl ?_
    rintro _ ⟨⟩
    exact closed.scalar target
  | case2 operand _ span ih =>
    refine .ofParts ?_ fun _ _ => ?_
    · intro part isPart
      rw [mem_singleton.mp isPart]
      exact ih literal
    · rintro _ ⟨⟩
      exact closed.scalar target
  | case3 => cases literal

/-- A coerced expression keeps the property. -/
theorem coerce (target : Scalar) (hold : TypesHold sound holds expression) :
    TypesHold sound holds (expression.coerce target) := by
  unfold Expr.coerce
  split
  · exact hold
  · rename_i admitted
    simp only [Bool.or_eq_true, Bool.not_eq_true', not_or, Bool.not_eq_false] at admitted
    split
    · split
      · exact closed.retype target admitted.2
      · exact hold
    · exact hold

/-- A call has the property if its arguments have. -/
theorem called {context : Context} (all : context.AllTypes holds)
    {typeArguments : List TypeArgument} {callee : Callee} {type : Option Ty}
    {before after : List Issue}
    (made : Called context name typeArguments arguments span callee type before after)
    (word : vocabulary.word name) (has : vocabulary.HasArguments typeArguments)
    (wellMade : sound (.call callee arguments type span))
    (inner : ∀ part ∈ arguments, ∀ type ∈ part.type, holds type) : ∀ found ∈ type, holds found := by
  have each {types : List Ty} (typed : Expr.types? arguments = some types) :
      ∀ argument ∈ types, holds argument := by
    intro argument member
    obtain ⟨part, isPart, partTyped⟩ := (mem_of_mapM typed).2 argument member
    exact inner part isPart argument partTyped
  cases made with
  | user declared =>
    intro found same
    unfold Signature.result at same
    split at same
    · exact all.function? declared found same
    · cases same
  | struct declared =>
    rintro _ ⟨⟩
    exact all.struct? declared
  | builtin builtin given =>
    intro found same
    obtain ⟨types, typed, ruled⟩ :=
      map_eq_some_iff.mp (given.symm.trans (accepted_of_given same))
    cases result : builtin.resultType types with
    | ok found =>
      rw [result] at ruled
      cases ruled
      exact closed.resultType result (each typed)
    | error error =>
      rw [result] at ruled
      cases ruled
  | constructor known written constructs given =>
    intro found same
    obtain ⟨types, typed, ruled⟩ :=
      map_eq_some_iff.mp (given.symm.trans (accepted_of_given same))
    rw [same] at wellMade
    cases constructs types found ruled with
    | scalar element named accepted =>
      rw [scalarConstructor_type accepted]
      exact closed.scalar _
    | array named accepted =>
      refine closed.arrayConstructor accepted (mem_of_mapM typed).1 ?_ (each typed) wellMade
      intro explicit isExplicit
      have writtenHas : vocabulary.HasType (.mk name typeArguments span) := ⟨word, has⟩
      exact all.resolve? closed.toInherited writtenHas (written explicit isExplicit)
    | shape shape element named accepted =>
      rw [shapeConstructor_type accepted] at wellMade ⊢
      exact closed.shaped named wellMade
  | invalid | undefined => rintro _ ⟨⟩

end Steps

end Closed

section Elaboration

variable {vocabulary : Vocabulary} {sound : Expr → Prop} {holds : Ty → Prop} {context : Context}

mutual

/-- What typing keeps, the types of expressions have. -/
theorem Elaborates.typesHold (closed : Closed vocabulary sound holds)
    (all : context.AllTypes holds) {expression : Surface.Expr} {typed : Expr} {log : List Issue} :
    Elaborates context expression typed log → vocabulary.HasExpr expression →
      TypesHold sound holds typed
  | .coerce made target, has => closed.coerce target (made.typesHold closed all has)
  | .bool value span, _ | .number literal span, _ => by
    refine .ofLeaf rfl ?_
    rintro _ ⟨⟩
    exact closed.scalar _
  | .bound found span, _ => .ofLeaf rfl (all.lookup? found)
  | .unbound missing span, _ => .ofLeaf rfl (by rintro _ ⟨⟩)
  | .binary operator span leftMade rightMade given, ⟨leftHas, rightHas⟩ => by
    refine .ofParts (forall_mem_cons.mpr ⟨leftMade.typesHold closed all leftHas,
      forall_mem_singleton.mpr (rightMade.typesHold closed all rightHas)⟩) ?_
    intro _ inner type typed
    obtain ⟨leftType, leftTyped, ruled⟩ :=
      Option.bind_eq_some_iff.mp (given.symm.trans (accepted_of_given typed))
    obtain ⟨rightType, rightTyped, accepted⟩ := map_eq_some_iff.mp ruled
    exact closed.binary accepted (inner _ mem_cons_self _ leftTyped)
      (inner _ (mem_cons_of_mem _ mem_cons_self) _ rightTyped)
  | .unary operator span made given, has => by
    refine .ofParts (forall_mem_singleton.mpr (made.typesHold closed all has)) ?_
    intro _ inner type typed
    obtain ⟨operandType, operandTyped, accepted⟩ :=
      map_eq_some_iff.mp (given.symm.trans (accepted_of_given typed))
    rw [unary_type accepted]
    exact inner _ mem_cons_self _ operandTyped
  | .call span made called, ⟨word, _, types, has⟩ =>
    .ofParts (made.typesHold closed all has) (closed.called all called word types)
  | .member name span made given _, ⟨has, _⟩ => by
    refine .ofParts (forall_mem_singleton.mpr (made.typesHold closed all has)) ?_
    intro _ inner type typed
    obtain ⟨baseType, baseTyped, ruled⟩ :=
      map_eq_some_iff.mp (given.symm.trans (accepted_of_given typed))
    cases result : Typing.member baseType name with
    | ok found =>
      rw [result] at ruled
      cases ruled
      exact closed.member result (inner _ mem_cons_self _ baseTyped)
    | error error =>
      rw [result] at ruled
      cases ruled
  | .index span baseMade positionMade given, ⟨baseHas, positionHas⟩ => by
    refine .ofParts (forall_mem_cons.mpr ⟨baseMade.typesHold closed all baseHas,
      forall_mem_singleton.mpr (positionMade.typesHold closed all positionHas)⟩) ?_
    intro _ inner type typed
    obtain ⟨baseType, baseTyped, ruled⟩ :=
      Option.bind_eq_some_iff.mp (given.symm.trans (accepted_of_given typed))
    obtain ⟨positionType, _, accepted⟩ := map_eq_some_iff.mp ruled
    exact closed.index accepted (inner _ mem_cons_self _ baseTyped)

/-- The types of lists have what typing keeps. -/
theorem ElaboratesAll.typesHold (closed : Closed vocabulary sound holds)
    (all : context.AllTypes holds) {expressions : List Surface.Expr} {typed : List Expr}
    {log : List Issue} : ElaboratesAll context expressions typed log →
      vocabulary.HasExprs expressions → ∀ part ∈ typed, TypesHold sound holds part
  | .nil, _ => forall_mem_nil _
  | .cons first rest, ⟨firstHas, restHas⟩ =>
    forall_mem_cons.mpr ⟨first.typesHold closed all firstHas, rest.typesHold closed all restHas⟩

end

end Elaboration

end Typing

end Shading
