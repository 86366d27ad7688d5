import Shading.Proofs.UnboundNames

/-!
# Programs that are accepted without complaint

A call of a procedure, a function that returns nothing, has no type. Where nothing is reported about a
program, types are missing for no other reason. So a function is typed throughout, up to calls whose
value is dropped, if and only if it uses no procedure call as a value. Such a use is not reported.
-/

namespace Shading

open List Option

open Typed (DeclaredType Expr)

variable {program : Surface.Program} {report : Diagnostic} {node expression : Expr}

/-! ### Complaints -/

/-- Whether a report is an error or a warning. -/
def Diagnostic.isComplaint (report : Diagnostic) : Bool :=
  report.severity = .error || report.severity = .warning

/-- None of the reports complains. -/
def Accepted (log : List Diagnostic) : Prop := ∀ report ∈ log, report.isComplaint = false

/-- Joined reports are accepted if both lists are. -/
@[simp] theorem accepted_append {first second : List Diagnostic} :
    Accepted (first ++ second) ↔ Accepted first ∧ Accepted second :=
  forall_mem_append

/-- An error is a complaint. -/
theorem Diagnostic.isComplaint_of_isError (error : report.isError) : report.isComplaint = true := by
  have severity : report.severity = .error := of_decide_eq_true error
  simp [isComplaint, severity]

/-- A complaint is not accepted. -/
theorem not_accepted_cons {rest : List Diagnostic} (complains : report.isComplaint = true) :
    ¬Accepted (report :: rest) := by
  intro accepted
  have silent := accepted report mem_cons_self
  rw [complains] at silent
  cases silent

namespace Typed

/-- Whether the first function of a name returns nothing. -/
def Program.isProcedure (program : Program) (name : String) : Bool :=
  (program.functions.find? fun function => function.name = name).any fun function =>
    function.returnType.isNone

/-- Whether an expression calls a procedure. -/
def Expr.callsProcedure (isProcedure : String → Bool) : Expr → Bool
  | .call (.user name) _ _ _ => isProcedure name
  | _ => false

end Typed

namespace Statement

mutual

/-- The nodes of a statement whose values are used. -/
def usedNodes : Statement Expr DeclaredType → List Expr
  | .letBinding _ _ value _ => value.nodes
  | .varBinding _ _ value _ => Expr.allNodes value.toList
  | .assignment target value _ => target.nodes ++ value.nodes
  | .returning value _ => Expr.allNodes value.toList
  | .evaluation value _ => Expr.allNodes value.parts
  | .block statements _ _ _ => allUsedNodes statements

/-- The nodes of statements whose values are used. -/
def allUsedNodes : List (Statement Expr DeclaredType) → List Expr
  | [] => []
  | first :: rest => first.usedNodes ++ allUsedNodes rest

end

mutual

/-- The expressions of a statement whose values are dropped. -/
def dropped : Statement Expr DeclaredType → List Expr
  | .evaluation value _ => [value]
  | .block statements _ _ _ => allDropped statements
  | .letBinding _ _ _ _ | .varBinding _ _ _ _ | .assignment _ _ _ | .returning _ _ => []

/-- The expressions of statements whose values are dropped. -/
def allDropped : List (Statement Expr DeclaredType) → List Expr
  | [] => []
  | first :: rest => first.dropped ++ allDropped rest

end

/-- The nodes of joined lists are joined. -/
theorem allNodes_append (first second : List Expr) :
    Expr.allNodes (first ++ second) = Expr.allNodes first ++ Expr.allNodes second := by
  induction first with
  | nil => rfl
  | cons head rest ih => simp [Expr.allNodes, ih]

/-- An expression is its own first node. -/
theorem nodes_eq_cons (value : Expr) : value.nodes = value :: Expr.allNodes value.parts := by
  cases value <;> simp [Expr.nodes, Expr.parts, Expr.allNodes]

mutual

/-- Every node of a statement is either used or dropped. -/
theorem nodes_perm : (statement : Statement Expr DeclaredType) →
    (Expr.allNodes statement.expressions).Perm (statement.usedNodes ++ statement.dropped)
  | .letBinding .. | .assignment .. => by simp [expressions, usedNodes, dropped, Expr.allNodes]
  | .varBinding .. | .returning .. => by simp [expressions, usedNodes, dropped]
  | .evaluation value _ => by
    simp only [expressions, usedNodes, dropped, Expr.allNodes, append_nil, nodes_eq_cons]
    exact (perm_append_singleton ..).symm
  | .block statements _ _ _ => allNodes_perm statements

/-- Every node of statements is either used or dropped. -/
theorem allNodes_perm : (statements : List (Statement Expr DeclaredType)) →
    (Expr.allNodes (allExpressions statements)).Perm (allUsedNodes statements ++ allDropped statements)
  | [] => .nil
  | first :: rest => by
    have both := (nodes_perm first).append (allNodes_perm rest)
    rw [allExpressions, allNodes_append, allUsedNodes, allDropped]
    refine both.trans ?_
    simp only [append_assoc]
    refine List.Perm.append_left _ ?_
    simp only [← append_assoc]
    exact List.Perm.append_right _ perm_append_comm

end

/-- No type is missing but at procedure calls that are dropped. -/
structure FullyTyped (isProcedure : String → Bool) (used dropped : List Expr) : Prop where
  used : ∀ node ∈ used, node.type ≠ none
  dropped : ∀ node ∈ dropped, node.type = none → node.callsProcedure isProcedure = true

end Statement


namespace Typing

variable {context : Context} {isProcedure : String → Bool}

/-- The functions whose calls have no type are the procedures. -/
def Context.SignsProcedures (isProcedure : String → Bool) (context : Context) : Prop :=
  ∀ name signature, context.function? name = some signature →
    (signature.result = none ↔ isProcedure name = true)

/-- Every name in scope has a type. -/
def Context.BindsTypes (context : Context) : Prop :=
  ∀ name binding, context.lookup? name = some binding → binding.type ≠ none

/-- A name may be bound with a type. -/
theorem Context.BindsTypes.bind (binds : context.BindsTypes) (name : String) {binding : Binding}
    (typed : binding.type ≠ none) : (context.bind name binding).BindsTypes := by
  intro other found lookup
  rw [Context.lookup?_bind] at lookup
  by_cases same : other = name
  · rw [if_pos same] at lookup
    rwa [← Option.some.inj lookup]
  · rw [if_neg same] at lookup
    exact binds other found lookup

/-- A new function is found under its name. -/
theorem Context.function?_defineFunction {name : String} (free : context.function? name = none)
    (signature : Signature) (other : String) :
    (context.defineFunction name signature).function? other =
      if other = name then some signature else context.function? other := by
  have kept : context.functions.filter (·.1 ≠ name) = context.functions := by
    refine filter_eq_self.mpr fun entry member => decide_eq_true fun same => ?_
    have unlisted := lookup_eq_none_iff.mp free entry member
    simp [same] at unlisted
  unfold Context.function? at free ⊢
  unfold Context.defineFunction Context.define
  dsimp only
  rw [kept, lookup_append, lookup_cons_ite]
  by_cases same : other = name
  · rw [if_pos same, if_pos same, same, free, Option.none_or]
  · rw [if_neg same, if_neg same, lookup_nil, Option.or_none]

/-- A procedure call has no type. -/
theorem type_of_callsProcedure (signs : context.SignsProcedures isProcedure) {log : List Issue}
    (annotated : Annotated context log node) (calls : node.callsProcedure isProcedure = true) :
    node.type = none := by
  have follows := annotated.follows
  unfold Expr.callsProcedure at calls
  split at calls
  · rename_i name arguments type span
    simp only [FollowsRule] at follows
    rw [Expr.type_call, follows]
    cases found : context.function? name with
    | none => rfl
    | some signature => exact (signs name signature found).mpr calls
  · cases calls

/-- Where names have types and nothing was told, a node with typed parts has a type unless it calls
a procedure. -/
theorem type_of_parts (signs : context.SignsProcedures isProcedure) (binds : context.BindsTypes)
    (annotated : Annotated context [] node) (typed : ∀ part ∈ node.parts, part.type ≠ none)
    (untyped : node.type = none) : node.callsProcedure isProcedure = true := by
  have explained := annotated.explained untyped typed
  unfold Explained at explained
  split at explained
  · rcases explained with ⟨binding, found, missing⟩ | told
    · exact absurd missing (binds _ _ found)
    · cases told
  · rcases explained with ⟨signature, found, missing⟩ | told
    · exact (signs _ _ found).mp missing
    · cases told
  · obtain ⟨error, told⟩ := explained
    cases told
  · obtain ⟨error, _, told⟩ := explained
    cases told

/-- Without procedure calls an expression is then typed throughout. -/
theorem nodes_typed (signs : context.SignsProcedures isProcedure) (binds : context.BindsTypes)
    (annotated : AllAnnotated context [] expression)
    (noneCalls : ∀ node ∈ expression.nodes, node.callsProcedure isProcedure = false) :
    ∀ node ∈ expression.nodes, node.type ≠ none := by
  induction expression using Expr.induction_parts with
  | step expression ih =>
    have below : ∀ part ∈ expression.parts, ∀ node ∈ part.nodes, node.type ≠ none := by
      intro part isPart
      refine ih part isPart ?_ ?_
      · exact fun node member => annotated node (Expr.mem_nodes_of_part isPart member)
      · exact fun node member => noneCalls node (Expr.mem_nodes_of_part isPart member)
    refine Expr.forall_nodes.mpr ⟨fun untyped => ?_, below⟩
    have calls := type_of_parts signs binds (annotated _ (Expr.mem_nodes_self _))
      (fun part isPart => below part isPart part (Expr.mem_nodes_self _)) untyped
    rw [noneCalls _ (Expr.mem_nodes_self _)] at calls
    cases calls

/-- An expression that may call a procedure itself is typed inside. -/
theorem inner_nodes_typed (signs : context.SignsProcedures isProcedure) (binds : context.BindsTypes)
    (annotated : AllAnnotated context [] expression)
    (noneCalls : ∀ node ∈ Expr.allNodes expression.parts,
      node.callsProcedure isProcedure = false) :
    (∀ node ∈ Expr.allNodes expression.parts, node.type ≠ none) ∧
      (expression.type = none → expression.callsProcedure isProcedure = true) := by
  have inside : ∀ part ∈ expression.parts, ∀ node ∈ part.nodes, node.type ≠ none := by
    intro part isPart
    refine nodes_typed signs binds ?_ ?_
    · exact fun node member => annotated node (Expr.mem_nodes_of_part isPart member)
    · exact fun node member => noneCalls node (Expr.mem_allNodes.mpr ⟨part, isPart, member⟩)
  constructor
  · intro node member
    obtain ⟨part, isPart, held⟩ := Expr.mem_allNodes.mp member
    exact inside part isPart node held
  · exact type_of_parts signs binds (annotated _ (Expr.mem_nodes_self _))
      fun part isPart => inside part isPart part (Expr.mem_nodes_self _)

end Typing

namespace Analysis

open Typing (Binding Context)
open Statement (FullyTyped usedNodes allUsedNodes allDropped)

variable {isProcedure : String → Bool} {frame : Frame}

section Values

variable {written : List Surface.Expr} {log : List Diagnostic} {typed : Expr}

/-- Nothing was told about an expression of an accepted program. -/
theorem TypedIn.silent (typedIn : TypedIn frame written log typed) (accepted : Accepted log) :
    Typing.AllAnnotated frame.context [] typed := by
  obtain ⟨source, hint, _, same, told⟩ := typedIn
  have annotated := Typing.elaborate_annotated frame.context source hint
  have silent : (Typing.elaborate frame.context source hint).log = [] := by
    cases issues : (Typing.elaborate frame.context source hint).log with
    | nil => rfl
    | cons issue rest =>
      have complains := Diagnostic.isComplaint_of_isError (isError_report frame issue)
      rw [accepted _ (told (by simp [issues]))] at complains
      cases complains
  rw [silent] at annotated
  rw [same]
  exact annotated

/-- The procedure calls in an expression have no type. -/
theorem TypedIn.procedures_untyped (signs : frame.context.SignsProcedures isProcedure)
    (typedIn : TypedIn frame written log typed) :
    ∀ node ∈ typed.nodes, node.callsProcedure isProcedure = true → node.type = none := by
  obtain ⟨source, hint, _, same, _⟩ := typedIn
  intro node member
  rw [same] at member
  exact Typing.type_of_callsProcedure signs
    (Typing.elaborate_annotated frame.context source hint node member)

end Values

/-- What calls look like is told by functions. -/
theorem signs_congr {context other : Context} (signs : context.SignsProcedures isProcedure)
    (same : other.functions = context.functions) : other.SignsProcedures isProcedure := by
  intro name signature found
  rw [Context.function?, same] at found
  exact signs name signature found

/-- Statements change no functions. -/
theorem signs_typeStatement (function : Enclosing)
    (signs : frame.context.SignsProcedures isProcedure) (statement : Surface.Stmt) :
    (typeStatement function frame statement).value.2.context.SignsProcedures isProcedure := by
  obtain ⟨scopes, same⟩ := context_typeStatement function frame statement
  exact signs_congr signs (by rw [same])

/-! ### Declarations -/

/-- A type that is accepted has a meaning. -/
theorem declaredType_resolved {context : Context} {written : WrittenType}
    (accepted : Accepted (declaredType context written).log) :
    (declaredType context written).value.resolved ≠ none := by
  unfold declaredType at accepted ⊢
  cases found : resolution context [] written with
  | resolved type => exact nofun
  | pending =>
    unfold resolution at found
    split at found
    · cases found
    · simp at found
    · cases found
  | unknown name =>
    rw [found] at accepted
    refine absurd accepted (not_accepted_cons ?_)
    unfold unknownType
    split <;> rfl
  | invalid message =>
    rw [found] at accepted
    exact absurd accepted (not_accepted_cons rfl)

/-- An accepted ascription is resolved. -/
theorem declaredSilently_resolved {context : Context} {written : WrittenType}
    (accepted : Accepted (declaredType context written).log) :
    (declaredSilently context written).resolved ≠ none :=
  value_declaredType context written ▸ declaredType_resolved accepted

/-- An accepted ascription gives a type. -/
theorem expectedType_ne_none {written : WrittenType}
    (accepted : Accepted (ascribed frame (some written)).log) :
    expectedType frame (some written) ≠ none := by
  have told : (ascribed frame (some written)).log = (declaredType frame.context written).log :=
    append_nil _
  rw [told] at accepted
  exact declaredType_resolved accepted

/-! ### Statements that use no procedure call -/

/-- No node calls a procedure. -/
def UsesNone (isProcedure : String → Bool) (nodes : List Expr) : Prop :=
  ∀ node ∈ nodes, node.callsProcedure isProcedure = false

section Values

variable {written : List Surface.Expr} {log : List Diagnostic} {typed : Expr}

/-- Without procedure calls it is typed throughout. -/
theorem TypedIn.nodes_typed (typedIn : TypedIn frame written log typed) (accepted : Accepted log)
    (signs : frame.context.SignsProcedures isProcedure) (binds : frame.context.BindsTypes)
    (noneUsed : UsesNone isProcedure typed.nodes) : ∀ node ∈ typed.nodes, node.type ≠ none :=
  Typing.nodes_typed signs binds (typedIn.silent accepted) noneUsed

/-- A type is expected or found. -/
theorem or_ne_none (expected : Option Ty) {found : Option Ty} (typed : found ≠ none) :
    expected.or found ≠ none := by
  cases expected with
  | none => exact typed
  | some type => exact nofun

/-- An accepted initial value is typed throughout. -/
theorem toList_typed {value : Option Expr}
    (typedIn : ∀ typed ∈ value, TypedIn frame written log typed) (accepted : Accepted log)
    (signs : frame.context.SignsProcedures isProcedure) (binds : frame.context.BindsTypes)
    (noneUsed : UsesNone isProcedure (Expr.allNodes value.toList)) :
    ∀ node ∈ Expr.allNodes value.toList, node.type ≠ none := by
  cases value with
  | none => exact nofun
  | some typed =>
    have single : Expr.allNodes (some typed).toList = typed.nodes := append_nil _
    rw [single] at noneUsed ⊢
    exact (typedIn typed rfl).nodes_typed accepted signs binds noneUsed

end Values

mutual

/-- A statement is typed throughout, and so is every name in scope behind it. -/
theorem typeStatement_typed (function : Enclosing) (frame : Frame)
    (signs : frame.context.SignsProcedures isProcedure) (binds : frame.context.BindsTypes) :
    (statement : Surface.Stmt) → Accepted (typeStatement function frame statement).log →
      let typed := (typeStatement function frame statement).value
      UsesNone isProcedure typed.1.usedNodes →
      typed.2.context.BindsTypes ∧ FullyTyped isProcedure typed.1.usedNodes typed.1.dropped
  | .letBinding name ascription value span, accepted, noneUsed => by
    simp only [typeStatement, Logged.log_bind, accepted_append] at accepted
    have nodes := (typedIn_typed frame value _).nodes_typed accepted.2.1 signs binds noneUsed
    have bound := or_ne_none (expectedType frame ascription) (nodes _ (Expr.mem_nodes_self _))
    exact ⟨binds.bind name bound, nodes, nofun⟩
  | .varBinding name ascription value span, accepted, noneUsed => by
    rw [log_typeStatement_var] at accepted
    simp only [accepted_append] at accepted
    rw [value_typeStatement_var] at noneUsed ⊢
    have nodes := toList_typed (typedIn_initialValue frame _ value) accepted.2.1 signs binds noneUsed
    refine ⟨binds.bind name ?_, nodes, nofun⟩
    cases value with
    | some source => exact or_ne_none _ (nodes _ (mem_append_left _ (Expr.mem_nodes_self _)))
    | none =>
      cases ascription with
      | none => exact absurd accepted.2.2.1 (not_accepted_cons rfl)
      | some written =>
        obtain ⟨type, resolved⟩ := ne_none_iff_exists'.mp (expectedType_ne_none accepted.1)
        rw [resolved]
        exact nofun
  | .assignment target value span, accepted, noneUsed => by
    simp only [typeStatement, Logged.log_bind, accepted_append] at accepted
    have both := forall_mem_append.mp noneUsed
    have targetNodes := (typedIn_typed frame target _).nodes_typed accepted.1 signs binds both.1
    have valueNodes := (typedIn_typed frame value _).nodes_typed accepted.2.1 signs binds both.2
    exact ⟨binds, forall_mem_append.mpr ⟨targetNodes, valueNodes⟩, nofun⟩
  | .returning value span, accepted, noneUsed => by
    simp only [typeStatement, Logged.log_bind, accepted_append] at accepted
    have nodes := toList_typed (typedIn_returnedValue function frame span value) accepted.1 signs
      binds noneUsed
    exact ⟨binds, nodes, nofun⟩
  | .evaluation value span, accepted, noneUsed => by
    simp only [typeStatement, Logged.log_bind, accepted_append] at accepted
    have silent := (typedIn_typed frame value none).silent accepted.1
    obtain ⟨inner, whole⟩ := Typing.inner_nodes_typed signs binds silent noneUsed
    exact ⟨binds, inner, by simpa [typeStatement, Statement.dropped] using whole⟩
  | .block statements _ _ _, accepted, noneUsed => by
    simp only [typeStatement, Logged.log_bind, accepted_append] at accepted
    have inside := typeStatements_typed function (frame.enter statements) signs binds statements
      accepted.1 noneUsed
    exact ⟨binds, inside⟩

/-- Rows of statements are typed throughout. -/
theorem typeStatements_typed (function : Enclosing) (frame : Frame)
    (signs : frame.context.SignsProcedures isProcedure) (binds : frame.context.BindsTypes) :
    (statements : List Surface.Stmt) → Accepted (typeStatements function frame statements).log →
      let typed := (typeStatements function frame statements).value
      UsesNone isProcedure (allUsedNodes typed) →
      FullyTyped isProcedure (allUsedNodes typed) (allDropped typed)
  | [], _, _ => ⟨nofun, nofun⟩
  | first :: rest, accepted, noneUsed => by
    simp only [typeStatements, Logged.log_bind, accepted_append] at accepted
    have both := forall_mem_append.mp noneUsed
    obtain ⟨bound, here⟩ := typeStatement_typed function frame signs binds first accepted.1 both.1
    have later := typeStatements_typed function _ (signs_typeStatement function signs first) bound
      rest accepted.2.1 both.2
    exact ⟨forall_mem_append.mpr ⟨here.used, later.used⟩,
      forall_mem_append.mpr ⟨here.dropped, later.dropped⟩⟩

end

/-! ### Signatures -/

/-- Every type of a signature has a meaning. -/
structure DeclaredSignature.Resolved (signature : DeclaredSignature) : Prop where
  parameters : ∀ declared ∈ signature.parameters, declared.resolved ≠ none
  returnType : ∀ declared ∈ signature.returnType, declared.resolved ≠ none

/-- A call has no type if and only if no return type is written. -/
theorem DeclaredSignature.Resolved.result_callable {signature : DeclaredSignature}
    (resolved : signature.Resolved) :
    signature.callable.result = none ↔ signature.returnType = none := by
  unfold DeclaredSignature.callable Typing.Signature.result
  cases written : signature.returnType with
  | none => simp
  | some declared => simpa using resolved.returnType declared written

section Signatures

variable {context : Context}

/-- Accepted parameters have types. -/
theorem collectParameters_resolved {seen : List (String × Span)} {slots : List (Slot WrittenType)}
    (accepted : Accepted (collectParameters context seen slots).log) :
    ∀ slot ∈ slots, (declaredSilently context slot.ascription).resolved ≠ none := by
  induction slots generalizing seen with
  | nil => exact forall_mem_nil _
  | cons first rest ih =>
    rw [log_collectParameters_cons] at accepted
    cases unseen : seen.lookup first.name with
    | some place =>
      rw [unseen] at accepted
      exact absurd accepted (not_accepted_cons rfl)
    | none =>
      simp only [unseen, accepted_append] at accepted
      exact forall_mem_cons.mpr ⟨declaredSilently_resolved accepted.1, ih accepted.2⟩

/-- An accepted signature has a meaning. -/
theorem declaredSignature_resolved {function : Function Surface.Expr WrittenType}
    (accepted : Accepted (signatureReports context function)) :
    (declaredSignature context function).Resolved := by
  simp only [signatureReports, accepted_append] at accepted
  obtain ⟨_, parameters, result⟩ := accepted
  refine ⟨forall_mem_map.mpr (collectParameters_resolved parameters), fun declared returned => ?_⟩
  obtain ⟨written, same, rfl⟩ := map_eq_some_iff.mp returned
  rw [same] at result
  exact declaredSilently_resolved (accepted_append.mp result).1

end Signatures

/-- A name calls the first function that has it. -/
theorem function?_foldl_behindSignature (context : Context)
    (functions : List (Function Surface.Expr WrittenType)) (name : String) :
    (functions.foldl behindSignature context).function? name =
      (context.function? name).or ((functions.find? fun function => function.name = name).map
        fun function => (declaredSignature context function).callable) := by
  induction functions generalizing context with
  | nil =>
    rw [find?_nil, map_none, Option.or_none]
    rfl
  | cons first rest ih =>
    rw [foldl_cons, ih, declaredSignature_behind, find?_cons]
    have behind : (behindSignature context first).function? name =
        (context.function? name).or
          (if name = first.name then some (declaredSignature context first).callable else none) := by
      unfold behindSignature
      cases declared : context.function? first.name with
      | some earlier =>
        by_cases same : name = first.name
        · rw [if_pos same, same, declared, some_or]
        · rw [if_neg same, Option.or_none]
      | none =>
        dsimp only
        rw [Context.function?_defineFunction declared]
        by_cases same : name = first.name
        · rw [if_pos same, if_pos same, same, declared, Option.none_or]
        · rw [if_neg same, if_neg same, Option.or_none]
    rw [behind, Option.or_assoc]
    by_cases same : name = first.name
    · simp [same]
    · simp [same, Ne.symm same]

/-! ### Functions and programs -/

/-- Accepted uniforms are bound with types. -/
theorem collectEach_binds {context : Context} (binds : context.BindsTypes)
    {earlier : List (Uniform DeclaredType)} {uniforms : List (Uniform WrittenType)}
    (accepted : Accepted (collectEach context earlier uniforms).log) :
    (collectEach context earlier uniforms).value.2.BindsTypes := by
  induction uniforms generalizing context earlier with
  | nil => exact binds
  | cons first rest ih =>
    simp only [collectEach, Logged.log_bind, accepted_append] at accepted
    exact ih (binds.bind first.name (declaredType_resolved accepted.1)) accepted.2.2

/-- Parameters are bound with types. -/
theorem bindParameters_binds {context : Context} (binds : context.BindsTypes)
    (parameters : List (Slot WrittenType)) {types : List DeclaredType}
    (resolved : ∀ declared ∈ types, declared.resolved ≠ none) :
    (bindParameters context parameters types).BindsTypes := by
  refine List.foldlRecOn (motive := Context.BindsTypes) _ _ binds ?_
  intro before beforeBinds entry member
  exact beforeBinds.bind _ (resolved entry.2 (of_mem_zip member).2)

section Functions

variable {context : Context} {function : Function Surface.Expr WrittenType}
  {signature : DeclaredSignature}

/-- A function is typed throughout iff it uses no procedure call. -/
theorem typeFunction_typed (signs : context.SignsProcedures isProcedure)
    (binds : context.BindsTypes) (resolved : signature.Resolved)
    (accepted : Accepted (typeFunction context function signature).log) :
    let statements := (typeFunction context function signature).value.body.statements
    FullyTyped isProcedure (allUsedNodes statements) (allDropped statements) ↔
      UsesNone isProcedure (allUsedNodes statements) := by
  intro statements
  have body : statements = (typedBody context function signature).value := by
    unfold statements
    rw [value_typeFunction]
  have inSignature : (bodyFrame context function signature).context.SignsProcedures isProcedure := by
    obtain ⟨scopes, same⟩ := context_bodyFrame context function signature
    exact signs_congr signs (by rw [same])
  have inScope := bindParameters_binds binds function.parameters resolved.parameters
  rw [log_typeFunction, accepted_append] at accepted
  rw [body]
  constructor
  · intro typed node member
    refine Bool.eq_false_iff.mpr fun calls => ?_
    have listed := (Statement.allNodes_perm _).mem_iff.mpr (mem_append_left _ member)
    obtain ⟨expression, held, isNode⟩ := Expr.mem_allNodes.mp listed
    obtain ⟨frame, known, typedIn⟩ := typedFrom_typedBody _ _ _ expression held
    exact typed.used node member
      (typedIn.procedures_untyped (signs_congr signs known) node isNode calls)
  · exact typeStatements_typed _ _ inSignature inScope _ accepted.1

end Functions

/-- A name calls the first function of the program that has it. -/
theorem function?_signedContext (program : Surface.Program) (name : String) :
    (signedContext program).function? name =
      ((Surface.functions program).find? fun function => function.name = name).map fun function =>
        (declaredSignature (boundContext program) function).callable := by
  have unsigned : (boundContext program).functions = [] := by
    obtain ⟨defined, structs⟩ := collectStructs_defines program .empty
    refine List.foldlRecOn (motive := fun before : Context => before.functions = []) _ _ ?_
      fun before same uniform _ => same
    rw [structContext, structs]
    rfl
  rw [signedContext, function?_foldl_behindSignature, Context.function?, unsigned, lookup_nil,
    Option.none_or]

/-- The calls without a type are those of procedures. -/
theorem signs_signedContext (resolved : ∀ function ∈ Surface.functions program,
      (declaredSignature (boundContext program) function).Resolved) :
    (signedContext program).SignsProcedures (typeProgram program).value.isProcedure := by
  intro name signature found
  rw [function?_signedContext] at found
  obtain ⟨function, first, rfl⟩ := map_eq_some_iff.mp found
  have names : ((fun typed : TypedFunction => decide (typed.name = name)) ∘ fun function =>
      (typedFunction program function).value) = fun function => decide (function.name = name) := by
    funext function
    rw [Function.comp_apply, typedFunction, value_typeFunction]
  have procedure : (typeProgram program).value.isProcedure name = function.returnType.isNone := by
    rw [Typed.Program.isProcedure, functions_typeProgram, find?_map, names, first, map_some,
      any_some, typedFunction, value_typeFunction]
    exact isNone_map ..
  rw [(resolved function (mem_of_find?_eq_some first)).result_callable, procedure,
    isNone_iff_eq_none, map_eq_none_iff]

/-- In an accepted program all global names have types. -/
theorem binds_signedContext
    (accepted : Accepted (collectUniforms program (structContext program)).log) :
    (signedContext program).BindsTypes := by
  have structs : (structContext program).BindsTypes := by
    obtain ⟨defined, same⟩ := collectStructs_defines program .empty
    rw [structContext, same]
    intro name binding bound
    cases bound
  have uniforms := collectEach_binds structs (accepted_append.mp accepted).1
  rw [value_collectEach] at uniforms
  intro name binding found
  rw [Context.lookup?, scopes_signedContext] at found
  exact uniforms name binding found

/-- An analyzed function is typed throughout iff it uses no procedure call. -/
theorem typeProgram_typed (accepted : Accepted (typeProgram program).log) :
    ∀ function ∈ (typeProgram program).value.functions,
      FullyTyped (typeProgram program).value.isProcedure (allUsedNodes function.body.statements)
          (allDropped function.body.statements) ↔
        UsesNone (typeProgram program).value.isProcedure
          (allUsedNodes function.body.statements) := by
  rw [typeProgram_eq] at accepted
  simp only [accepted_append] at accepted
  obtain ⟨_, _, uniforms, signatures, functions, _⟩ := accepted
  have resolved : ∀ function ∈ Surface.functions program,
      (declaredSignature (boundContext program) function).Resolved := fun function member =>
    declaredSignature_resolved fun report told =>
      signatures report (mem_flatMap.mpr ⟨function, member, told⟩)
  intro function member
  rw [functions_typeProgram] at member
  obtain ⟨written, listed, rfl⟩ := mem_map.mp member
  exact typeFunction_typed (signs_signedContext resolved) (binds_signedContext uniforms)
    (resolved written listed) fun report told =>
      functions report (mem_flatMap.mpr ⟨written, listed, told⟩)

end Analysis

/-- Where a check complains about nothing, the analysis does not. -/
theorem accepted_of_check {source : SourceText} {options : Options}
    (accepted : Accepted (check source options).diagnostics) :
    Accepted (Analysis.typeProgram (Surface.read source).1).log := by
  intro report told
  by_cases hint : Analysis.isHint report = true
  · have severity : report.severity = .hint := of_decide_eq_true hint
    simp [Diagnostic.isComplaint, severity]
  · have kept : report ∈ (Analysis.of (Surface.read source).1).diagnostics := by
      rw [Analysis.diagnostics_of]
      exact mem_filter.mpr ⟨told, by simp [hint]⟩
    simp only [check] at accepted
    split at accepted
    · have promoted := accepted _ (mem_map_of_mem (mem_append_right _ kept))
      by_cases warning : report.severity = .warning
      · simp [Diagnostic.isComplaint, Diagnostic.promote, warning] at promoted
      · rwa [Diagnostic.promote, if_neg warning] at promoted
    · exact accepted report (mem_append_right _ kept)

/-- In an accepted program a function has a type for all of its nodes, up to dropped procedure
calls, if and only if it uses the value of no procedure call. Each node is used or dropped once. -/
theorem accepted_functions_are_typed (source : SourceText) (options : Options)
    (accepted : ∀ report ∈ (check source options).diagnostics, report.isComplaint = false) :
    let program := (check source options).program
    ∀ function ∈ program.functions,
      let used := Statement.allUsedNodes function.body.statements
      let dropped := Statement.allDropped function.body.statements
      (Typed.functionNodes function).Perm (used ++ dropped) ∧
        (Statement.FullyTyped program.isProcedure used dropped ↔
          ∀ node ∈ used, node.callsProcedure program.isProcedure = false) := by
  intro program function member used dropped
  have same : program = (Analysis.typeProgram (Surface.read source).1).value :=
    program_check source options
  rw [same] at member ⊢
  exact ⟨Statement.allNodes_perm _,
    Analysis.typeProgram_typed (accepted_of_check accepted) function member⟩

/-- A procedure may be called for its effect, beside calls whose values are used. -/
theorem dropped_call_is_typed :
    let source : SourceText := ⟨"dropped.shade",
      "fn reset() { } fn half(a: f32) -> f32 { reset(); return a * 0.5; } " ++
      "@compute fn main() { reset(); let x = half(1); half(x); }"⟩
    let checked := check source {}
    (∀ report ∈ checked.diagnostics, report.isComplaint = false) ∧
      ∀ function ∈ checked.program.functions,
        Statement.FullyTyped checked.program.isProcedure
          (Statement.allUsedNodes function.body.statements)
          (Statement.allDropped function.body.statements) := by
  intro source checked
  have accepted : ∀ report ∈ checked.diagnostics, report.isComplaint = false := by decide +kernel
  have noneUsed : ∀ function ∈ checked.program.functions,
      ∀ node ∈ Statement.allUsedNodes function.body.statements,
        node.callsProcedure checked.program.isProcedure = false := by
    decide +kernel
  exact ⟨accepted, fun function member =>
    (accepted_functions_are_typed source {} accepted function member).2.mpr
      (noneUsed function member)⟩

/-- The value of a procedure call can be bound and added to a truth value without a report: what is
built on it has no type. -/
theorem procedure_value_is_not_reported :
    let checked := check ⟨"void.shade",
      "fn f() { } @compute fn main() { let x = f(); let y = x + true; }"⟩ {}
    checked.diagnostics = [] ∧
      (checked.program.functions.flatMap Typed.functionNodes).map Expr.type =
        [none, none, none, some .bool] := by
  decide +kernel

end Shading
