import Shading.Proofs.Nodes
import Shading.Typing.Elaboration

/-!
# How expressions are typed

Typing is told here as a relation between an expression, the typed one and what is said on the way. A
typed node is made of typed parts, and its type is the verdict of its rule on their types; literals
among the parts may have taken another type before. Hints no longer occur in this relation, and what
holds of all typed expressions follows by induction on it.
-/

namespace Shading.Typing

open List

open Typed (Callee Expr)

/-- What a verdict says that refuses the parts of a node. -/
def complaints (verdict : Option (Except TypingError Ty)) (span : Span) : List Issue :=
  match verdict with
  | some (.error error) => [.typing error span]
  | some (.ok _) | none => []

/-- A node typed by the verdict on its parts. -/
def judged (make : Option Ty → Expr) (verdict : Option (Except TypingError Ty)) (span : Span) :
    Logged Issue Expr :=
  match verdict with
  | some result => do
    let type ← judge result span
    return make type
  | none => return make none

/-- Its type and its complaints are those of the verdict. -/
theorem judged_eq (make : Option Ty → Expr) (verdict : Option (Except TypingError Ty)) (span : Span) :
    judged make verdict span = ⟨make (verdict.bind Except.toOption), complaints verdict span⟩ := by
  rcases verdict with _ | (error | type)
  · rfl
  · rfl
  · rfl

/-- A type that a verdict gives is one that it accepts. -/
theorem accepted_of_given {verdict : Option (Except TypingError Ty)} {type : Ty}
    (given : verdict.bind Except.toOption = some type) : verdict = some (.ok type) := by
  obtain ⟨result, judged, accepted⟩ := Option.bind_eq_some_iff.mp given
  cases result with
  | error => cases accepted
  | ok =>
    cases accepted
    exact judged

/-- A binary operation is judged by its operands. -/
theorem binaryNode_eq_judged (operator : BinaryOperator) (left right : Expr) (span : Span) :
    binaryNode operator left right span =
      judged (fun type =>
          .binary operator (matchOperands left right).1 (matchOperands left right).2 type span)
        ((matchOperands left right).1.type.bind fun leftType =>
          (matchOperands left right).2.type.map (binary operator leftType)) span := by
  unfold binaryNode
  generalize matchOperands left right = matched
  obtain ⟨left, right⟩ := matched
  dsimp only
  cases left.type <;> cases right.type <;> rfl

/-- A unary operation is judged by its operand. -/
theorem unaryNode_eq_judged (operator : UnaryOperator) (operand : Expr) (span : Span) :
    unaryNode operator operand none span =
      judged (fun type => .unary operator operand type span) (operand.type.map (unary operator))
        span := by
  unfold unaryNode
  cases operand.type <;> rfl

/-- It is coerced after it has been typed. -/
theorem unaryNode_eq (operator : UnaryOperator) (operand : Expr) (hint : Option Scalar)
    (span : Span) :
    unaryNode operator operand hint span =
      ⟨(unaryNode operator operand none span).value.coerceTo hint,
        (unaryNode operator operand none span).log⟩ := by
  unfold unaryNode
  split <;> rfl

/-- An element is judged by base and position. -/
theorem indexNode_eq_judged (base position : Expr) (span : Span) :
    indexNode base position span =
      judged (fun type => .index base position type span)
        (base.type.bind fun baseType => position.type.map (index baseType)) span := by
  unfold indexNode
  cases base.type <;> cases position.type <;> rfl

/-- A member is judged by its base, which tells its kind. -/
theorem exists_memberNode_eq (base : Expr) (name : String) (span : Span) :
    ∃ kind, memberNode base name span =
        judged (fun type => .member base name kind type span)
          (base.type.map fun baseType => (member baseType name).map Prod.fst) span ∧
      ∀ baseType found, base.type = some baseType → member baseType name = .ok found →
        kind = found.2 := by
  unfold memberNode
  cases base.type with
  | none => exact ⟨.field, rfl, by simp⟩
  | some baseType =>
    cases accepted : member baseType name with
    | ok found =>
      refine ⟨found.2, by simp only [Option.map_some, accepted]; rfl, ?_⟩
      rintro _ other ⟨⟩ same
      rw [accepted] at same
      cases same
      rfl
    | error error =>
      refine ⟨_, by simp only [Option.map_some, accepted]; rfl, ?_⟩
      rintro _ other ⟨⟩ same
      rw [accepted] at same
      cases same

/-- A call with a rule is judged by its arguments. -/
theorem ruledCall_eq (callee : Callee) (arguments : List Expr)
    (rule : List Ty → Except TypingError Ty) (span : Span) :
    ruledCall callee arguments rule span =
      judged (fun type => .call callee arguments type span) ((Expr.types? arguments).map rule)
        span := by
  unfold ruledCall
  cases Expr.types? arguments <;> rfl

/-- The type of a call of a declared function. -/
def Signature.result (signature : Signature) : Option Ty :=
  if signature.returnsValue then signature.returnType else none

/-- The constructor, perhaps for an explicit type, makes a value of a type. -/
inductive ConstructsFor (explicit : Option Ty) (name : String) (types : List Ty) (target : Ty) :
    Prop where
  | scalar (element : Scalar) (named : Scalar.ofName? name = some element)
      (accepted : scalarConstructor element types = .ok target)
  | array (named : name = "array") (accepted : arrayConstructor explicit types = .ok target)
  | shape (shape : Shape) (element : Scalar) (named : Shape.ofName? name = some shape)
      (accepted : shapeConstructor (shape.withElement element) types = .ok target)

/-- A call of typed arguments: callee, type, and what is said before and about it. -/
inductive Called (context : Context) (name : String) (typeArguments : List TypeArgument)
    (arguments : List Expr) (span : Span) : Callee → Option Ty → List Issue → List Issue → Prop where
  | user {signature : Signature} (declared : context.function? name = some signature) :
      Called context name typeArguments arguments span (.user name) signature.result []
        (argumentIssues name signature arguments span)
  | struct {struct : Ty} (declared : context.struct? name = some struct) :
      Called context name typeArguments arguments span (.struct name) (some struct) []
        (fieldIssues struct (fieldTypes struct) arguments span)
  | builtin (builtin : Builtin) {verdict : Option (Except TypingError Ty)}
      (given : verdict = (Expr.types? arguments).map fun types =>
        (builtin.resultType types).mapError (.builtinCall builtin)) :
      Called context name typeArguments arguments span (.builtin builtin)
        (verdict.bind Except.toOption) [] (complaints verdict span)
  | constructor {explicit : Option Ty} {rule : List Ty → Except TypingError Ty}
      {verdict : Option (Except TypingError Ty)} (known : isConstructorName name)
      (written : ∀ type ∈ explicit, context.resolve? (.mk name typeArguments span) = some type)
      (sound : ∀ types target, rule types = .ok target → ConstructsFor explicit name types target)
      (given : verdict = (Expr.types? arguments).map rule) :
      Called context name typeArguments arguments span
        (.constructor (WrittenType.mk name typeArguments span).text)
        (verdict.bind Except.toOption) [] (complaints verdict span)
  | invalid (known : isConstructorName name) :
      Called context name typeArguments arguments span
        (.constructor (WrittenType.mk name typeArguments span).text) none
        [.typing (.invalidConstructor (WrittenType.mk name typeArguments span).text) span] []
  | undefined (missing : context.function? name = none) (foreign : Builtin.ofName? name = none) :
      Called context name typeArguments arguments span (.user name) none
        [.undefinedFunction name span] []

/-- Wrong arguments are told at the call or where they stand. -/
theorem argumentIssues_typing {name : String} {signature : Signature} {arguments : List Expr}
    {span : Span} : ∀ issue ∈ argumentIssues name signature arguments span,
      ∃ error, ∃ place ∈ span :: arguments.map Expr.span, issue = .typing error place := by
  unfold argumentIssues
  split
  · exact forall_mem_singleton.mpr ⟨_, span, mem_cons_self, rfl⟩
  · intro issue member
    obtain ⟨⟨⟨argument, parameter⟩, position⟩, listed, told⟩ := mem_filterMap.mp member
    have inside := (of_mem_zip (fst_mem_of_mem_zipIdx listed)).1
    dsimp only at told
    split at told
    · split at told
      · cases told
      · cases told
        exact ⟨_, _, mem_cons_of_mem _ (mem_map_of_mem inside), rfl⟩
    · cases told

/-- Wrong values for fields are told at the call or there. -/
theorem fieldIssues_typing {struct : Ty} {fields : List Ty} {arguments : List Expr} {span : Span} :
    ∀ issue ∈ fieldIssues struct fields arguments span,
      ∃ error, ∃ place ∈ span :: arguments.map Expr.span, issue = .typing error place := by
  unfold fieldIssues
  split
  · exact forall_mem_nil _
  · split
    · exact forall_mem_singleton.mpr ⟨_, span, mem_cons_self, rfl⟩
    · intro issue member
      obtain ⟨⟨argument, expected⟩, listed, told⟩ := mem_filterMap.mp member
      have inside := (of_mem_zip listed).1
      dsimp only at told
      split at told
      · split at told
        · cases told
        · cases told
          exact ⟨_, _, mem_cons_of_mem _ (mem_map_of_mem inside), rfl⟩
      · cases told

/-- Complaints are about types. -/
theorem complaints_typing {verdict : Option (Except TypingError Ty)} {span : Span} :
    ∀ issue ∈ complaints verdict span, ∃ error, issue = .typing error span := by
  unfold complaints
  split
  · exact forall_mem_singleton.mpr ⟨_, rfl⟩
  · exact forall_mem_nil _
  · exact forall_mem_nil _

section Called

variable {context : Context} {name : String} {typeArguments : List TypeArgument}
  {arguments : List Expr} {span : Span} {callee : Callee} {type : Option Ty}
  {before after : List Issue}
  (called : Called context name typeArguments arguments span callee type before after)

include called

/-- Before its arguments, a call is told to be undefined or to have wrong type arguments. -/
theorem Called.before_at : ∀ issue ∈ before,
    issue = .undefinedFunction name span ∨ ∃ error, issue = .typing error span := by
  cases called with
  | user | struct | builtin | constructor => exact forall_mem_nil _
  | invalid => exact forall_mem_singleton.mpr (.inr ⟨_, rfl⟩)
  | undefined => exact forall_mem_singleton.mpr (.inl rfl)

/-- What is told about a call is about types, there or at an argument. -/
theorem Called.after_typing : ∀ issue ∈ after,
    ∃ error, ∃ place ∈ span :: arguments.map Expr.span, issue = .typing error place := by
  cases called with
  | user declared => exact argumentIssues_typing
  | struct declared => exact fieldIssues_typing
  | builtin | constructor =>
    intro issue told
    obtain ⟨error, same⟩ := complaints_typing issue told
    exact ⟨error, span, mem_cons_self, same⟩
  | invalid | undefined => exact forall_mem_nil _

end Called

/-- A plan makes a call of arguments, perhaps coerced. -/
def CallPlan.Calls (context : Context) (name : String) (typeArguments : List TypeArgument)
    (span : Span) (plan : CallPlan) : Prop :=
  ∀ arguments, ∃ given callee type after, (given = arguments ∨ given = Expr.unify arguments) ∧
    Called context name typeArguments given span callee type plan.before after ∧
      plan.finish arguments = ⟨.call callee given type span, after⟩

section Plans

variable {context : Context} {name : String} {typeArguments : List TypeArgument} {span : Span}

/-- What a call with a rule is made of. -/
theorem ruledCall_made (callee : Callee) (arguments : List Expr)
    (rule : List Ty → Except TypingError Ty) (span : Span) :
    ruledCall callee arguments rule span =
      ⟨.call callee arguments (((Expr.types? arguments).map rule).bind Except.toOption) span,
        complaints ((Expr.types? arguments).map rule) span⟩ :=
  (ruledCall_eq ..).trans (judged_eq ..)

/-- Literals among arguments are coerced or not. -/
theorem unified_or (condition : Prop) [Decidable condition] (arguments : List Expr) :
    (if condition then Expr.unify arguments else arguments) = arguments ∨
      (if condition then Expr.unify arguments else arguments) = Expr.unify arguments := by
  split
  · exact .inr rfl
  · exact .inl rfl

/-- Constructors make what names and types tell. -/
theorem namedConstructor_calls {explicit : Option Ty} (hint : Option Scalar)
    (known : isConstructorName name)
    (written : ∀ type ∈ explicit, context.resolve? (.mk name typeArguments span) = some type) :
    (namedConstructor (.constructor (WrittenType.mk name typeArguments span).text) name explicit hint
      span).Calls context name typeArguments span := by
  intro arguments
  unfold namedConstructor
  split
  · rename_i target named
    exact ⟨_, _, _, _, .inl rfl, .constructor known written
      (fun _ _ accepted => .scalar target named accepted) rfl, ruledCall_made ..⟩
  · rename_i notScalar
    split
    · rename_i named
      exact ⟨_, _, _, _, unified_or _ arguments, .constructor known written
        (fun _ _ accepted => .array named accepted) rfl, ruledCall_made ..⟩
    · rename_i notArray
      split
      · rename_i shape named
        unfold shapeCall
        split
        · rename_i element _
          exact ⟨_, _, _, _, .inl rfl, .constructor known written
            (fun _ _ accepted => .shape shape element named accepted) rfl, ruledCall_made ..⟩
        · exact ⟨_, _, _, _, .inr rfl, .constructor known written
            (fun _ _ accepted => .shape shape _ named accepted) rfl, ruledCall_made ..⟩
      · rename_i notShape
        simp [isConstructorName, notScalar, notArray, notShape] at known

/-- However a name is called, a call comes of it. -/
theorem callPlan_calls (context : Context) (name : String) (typeArguments : List TypeArgument)
    (hint : Option Scalar) (span : Span) :
    (callPlan context name typeArguments hint span).Calls context name typeArguments span := by
  intro arguments
  unfold callPlan
  split
  · rename_i declared
    refine ⟨_, _, _, _, .inl rfl, .user declared, ?_⟩
    simp [userCall, bind, pure, Logged.write, Signature.result]
  · rename_i missing
    split
    · rename_i declared
      refine ⟨_, _, _, _, .inl rfl, .struct declared, ?_⟩
      simp [structCall, bind, pure, Logged.write]
    · split
      · exact ⟨_, _, _, _, unified_or _ arguments, .builtin _ rfl, ruledCall_made ..⟩
      · rename_i foreign
        split
        · rename_i known
          unfold constructorCall
          split
          · exact namedConstructor_calls hint known (by simp) arguments
          · dsimp only
            split
            · rename_i resolved
              exact namedConstructor_calls hint known (by simpa using resolved) arguments
            · exact ⟨_, _, _, _, .inl rfl, .invalid known, rfl⟩
        · exact ⟨_, _, _, _, .inl rfl, .undefined missing foreign, rfl⟩

end Plans

mutual

/-- An expression is typed, and something is said about it. -/
inductive Elaborates (context : Context) : Surface.Expr → Expr → List Issue → Prop where
  | coerce {source : Surface.Expr} {typed : Expr} {log : List Issue}
      (made : Elaborates context source typed log) (target : Scalar) :
      Elaborates context source (typed.coerce target) log
  | bool (value : Bool) (span : Span) :
      Elaborates context (.bool value span) (.bool value (some .bool) span) []
  | number (literal : Number) (span : Span) :
      Elaborates context (.number literal span)
        (.number literal (some (.scalar literal.kind.scalar)) span) []
  | bound {name : String} {binding : Binding} (found : context.lookup? name = some binding)
      (span : Span) :
      Elaborates context (.identifier name span) (.identifier name binding.type span) []
  | unbound {name : String} (missing : context.lookup? name = none) (span : Span) :
      Elaborates context (.identifier name span) (.identifier name none span) [.unresolved name span]
  | binary {leftSource rightSource : Surface.Expr} {left right : Expr} {leftLog rightLog : List Issue}
      {verdict : Option (Except TypingError Ty)} (operator : BinaryOperator) (span : Span)
      (leftMade : Elaborates context leftSource left leftLog)
      (rightMade : Elaborates context rightSource right rightLog)
      (given : verdict = left.type.bind fun leftType => right.type.map (binary operator leftType)) :
      Elaborates context (.binary operator leftSource rightSource span)
        (.binary operator left right (verdict.bind Except.toOption) span)
        (leftLog ++ (rightLog ++ complaints verdict span))
  | unary {source : Surface.Expr} {operand : Expr} {log : List Issue}
      {verdict : Option (Except TypingError Ty)} (operator : UnaryOperator) (span : Span)
      (made : Elaborates context source operand log)
      (given : verdict = operand.type.map (unary operator)) :
      Elaborates context (.unary operator source span)
        (.unary operator operand (verdict.bind Except.toOption) span)
        (log ++ complaints verdict span)
  | call {name : String} {typeArguments : List TypeArgument} {sources : List Surface.Expr}
      {arguments : List Expr} {callee : Callee} {type : Option Ty} {log before after : List Issue}
      (span : Span) (made : ElaboratesAll context sources arguments log)
      (called : Called context name typeArguments arguments span callee type before after) :
      Elaborates context (.call name typeArguments sources span) (.call callee arguments type span)
        (before ++ (log ++ after))
  | member {source : Surface.Expr} {base : Expr} {log : List Issue} {kind : Typed.MemberKind}
      {verdict : Option (Except TypingError Ty)} (name : String) (span : Span)
      (made : Elaborates context source base log)
      (given : verdict = base.type.map fun baseType => (member baseType name).map Prod.fst)
      (kinds : ∀ baseType found, base.type = some baseType → member baseType name = .ok found →
        kind = found.2) :
      Elaborates context (.member source name span)
        (.member base name kind (verdict.bind Except.toOption) span) (log ++ complaints verdict span)
  | index {baseSource positionSource : Surface.Expr} {base position : Expr}
      {baseLog positionLog : List Issue} {verdict : Option (Except TypingError Ty)} (span : Span)
      (baseMade : Elaborates context baseSource base baseLog)
      (positionMade : Elaborates context positionSource position positionLog)
      (given : verdict = base.type.bind fun baseType => position.type.map (index baseType)) :
      Elaborates context (.index baseSource positionSource span)
        (.index base position (verdict.bind Except.toOption) span)
        (baseLog ++ (positionLog ++ complaints verdict span))

/-- Expressions are typed in order. -/
inductive ElaboratesAll (context : Context) : List Surface.Expr → List Expr → List Issue → Prop where
  | nil : ElaboratesAll context [] [] []
  | cons {source : Surface.Expr} {sources : List Surface.Expr} {typed : Expr} {others : List Expr}
      {log more : List Issue} (first : Elaborates context source typed log)
      (rest : ElaboratesAll context sources others more) :
      ElaboratesAll context (source :: sources) (typed :: others) (log ++ more)

end

section Elaboration

variable {context : Context}

/-- Coercion keeps the relation. -/
theorem Elaborates.coerceTo {source : Surface.Expr} {typed : Expr} {log : List Issue}
    (made : Elaborates context source typed log) (target : Option Scalar) :
    Elaborates context source (typed.coerceTo target) log := by
  cases target with
  | none => exact made
  | some target => exact made.coerce target

/-- Unification of arguments keeps the relation. -/
theorem ElaboratesAll.unify {sources : List Surface.Expr} {arguments given : List Expr}
    {log : List Issue} (made : ElaboratesAll context sources arguments log)
    (same : given = arguments ∨ given = Expr.unify arguments) :
    ElaboratesAll context sources given log := by
  have coerced (target : Option Scalar) {sources : List Surface.Expr} {arguments : List Expr}
      {log : List Issue} (made : ElaboratesAll context sources arguments log) :
      ElaboratesAll context sources (arguments.map (Expr.coerceTo target)) log := by
    induction arguments generalizing sources log with
    | nil =>
      cases made
      exact .nil
    | cons typed others ih =>
      cases made with
      | cons first rest => exact .cons (first.coerceTo target) (ih rest)
  rcases same with rfl | rfl
  · exact made
  · exact coerced _ made

/-- Operations are elaborated if their operands are. -/
theorem Elaborates.binaryNode {leftSource rightSource : Surface.Expr} {left right : Expr}
    {leftLog rightLog : List Issue} (operator : BinaryOperator) (span : Span)
    (leftMade : Elaborates context leftSource left leftLog)
    (rightMade : Elaborates context rightSource right rightLog) :
    Elaborates context (.binary operator leftSource rightSource span)
      (binaryNode operator left right span).value
      (leftLog ++ (rightLog ++ (binaryNode operator left right span).log)) := by
  have matched : Elaborates context leftSource (matchOperands left right).1 leftLog ∧
      Elaborates context rightSource (matchOperands left right).2 rightLog := by
    unfold matchOperands
    split
    · exact ⟨leftMade.coerceTo _, rightMade⟩
    · exact ⟨leftMade, rightMade.coerceTo _⟩
    · exact ⟨leftMade, rightMade⟩
  rw [binaryNode_eq_judged, judged_eq]
  exact .binary operator span matched.1 matched.2 rfl

mutual

/-- Typing relates an expression to the typed one. -/
theorem elaborate_elaborates : (expression : Surface.Expr) → (hint : Option Scalar) →
    Elaborates context expression (elaborate context expression hint).value
      (elaborate context expression hint).log
  | .bool value span, _ => .bool value span
  | .number literal span, hint => (Elaborates.number literal span).coerceTo hint
  | .identifier name span, _ => by
    unfold elaborate
    split
    · rename_i binding found
      exact .bound found span
    · rename_i missing
      exact .unbound missing span
  | .binary operator left right span, _ =>
    .binaryNode operator span (elaborate_elaborates left _) (elaborate_elaborates right _)
  | .unary operator operand span, hint => by
    simp only [elaborate, Logged.value_bind, Logged.log_bind]
    rw [unaryNode_eq, unaryNode_eq_judged, judged_eq]
    exact (Elaborates.unary operator span (elaborate_elaborates operand _) rfl).coerceTo hint
  | .call name typeArguments arguments span, hint => by
    obtain ⟨given, callee, type, after, same, called, made⟩ :=
      callPlan_calls context name typeArguments hint span
        (elaborateAll context arguments (callPlan context name typeArguments hint span).hint).value
    simp only [elaborate, Logged.value_bind, Logged.log_bind, Logged.write]
    rw [made]
    exact .call span ((elaborateAll_elaborates arguments _).unify same) called
  | .member base name span, _ => by
    obtain ⟨kind, same, kinds⟩ := exists_memberNode_eq (elaborate context base none).value name span
    simp only [elaborate, Logged.value_bind, Logged.log_bind]
    rw [same, judged_eq]
    exact .member name span (elaborate_elaborates base _) rfl kinds
  | .index base position span, _ => by
    simp only [elaborate, Logged.value_bind, Logged.log_bind]
    rw [indexNode_eq_judged, judged_eq]
    exact .index span (elaborate_elaborates base _) (elaborate_elaborates position _) rfl

/-- Typing relates lists to typed ones. -/
theorem elaborateAll_elaborates : (expressions : List Surface.Expr) → (hint : Nat → Option Scalar) →
    ElaboratesAll context expressions (elaborateAll context expressions hint).value
      (elaborateAll context expressions hint).log
  | [], _ => .nil
  | first :: rest, hint => by
    simp only [elaborateAll, Logged.value_bind, Logged.value_pure, Logged.log_bind, Logged.log_pure,
      append_nil]
    exact .cons (elaborate_elaborates first _) (elaborateAll_elaborates rest _)

end

end Elaboration

end Shading.Typing
