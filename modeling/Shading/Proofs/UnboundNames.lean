import Shading.Proofs.ScopeReports
import Shading.Proofs.ScopeRuns
import Shading.Proofs.TypedBodies

/-!
# Unbound names are reported

The analysis carries a frame through the statements of a function: the names in scope and, for each
block, those that are declared further down. Both follow from the path of a statement alone. Hence the
reports about unbound names are those that lexical scoping calls for: one for each use of a name that is
not in scope, in the order of the program.
-/

namespace Shading

open List

open Surface (Occurrence Place declared? declares occurrencesAt occurrencesIn occurrencesFrom)

variable {span : Span} {types : List DeclaredType} {occurrence : Occurrence}

namespace Typing.Context

/-- A bound name is found. -/
theorem lookup?_bind (context : Context) (name : String) (binding : Binding) (other : String) :
    (context.bind name binding).lookup? other =
      if other = name then some binding else context.lookup? other := by
  unfold bind lookup? Scopes.insert Scopes.lookup? Scopes.all
  rw [findSome?_cons, findSome?_cons, Scope.lookup_insert]
  by_cases same : other = name
  · simp [same]
  · simp [same]

/-- A bound name is in scope, and others as before. -/
theorem isSome_lookup?_bind (context : Context) (name : String) (binding : Binding) (other : String) :
    ((context.bind name binding).lookup? other).isSome =
      (decide (name = other) || (context.lookup? other).isSome) := by
  rw [lookup?_bind]
  by_cases same : other = name
  · simp [same]
  · simp [same, Ne.symm same]

end Typing.Context

namespace Surface.Occurrence

/-- Where this or a later statement declares the name, in the innermost such block. -/
def later? (occurrence : Occurrence) : Option Span :=
  occurrence.path.findSome? fun place => (place.onward.filterMap declared?).lookup occurrence.name

/-- What is to be said about the name, if it is not bound. -/
def outline (occurrence : Occurrence) : Outline := .unbound occurrence.span occurrence.later?

end Surface.Occurrence

/-- The reports that uses of names call for, in order. -/
def calledFor (program : Surface.Program) (uses : List Occurrence) : List Outline :=
  (uses.filter fun occurrence => !occurrence.isBound program).map Occurrence.outline

/-- Joined uses call for both. -/
@[simp] theorem calledFor_append (program : Surface.Program) (first second : List Occurrence) :
    calledFor program (first ++ second) = calledFor program first ++ calledFor program second := by
  unfold calledFor
  rw [filter_append, map_append]

namespace Analysis

open Typing (Binding Context Issue unresolved)
open Typed (DeclaredType)

variable {program : Surface.Program} {function : Function Surface.Expr WrittenType}
  {path : List Place} {frame : Frame}

/-- Statements declare names one by one. -/
theorem declaredNames_eq (statements : List Surface.Stmt) :
    Frame.declaredNames statements = statements.filterMap declared? := by
  unfold Frame.declaredNames
  congr 1
  funext statement
  cases statement <;> rfl

/-- A frame knows the names in scope and later as the path tells. -/
structure Frame.Follows (program : Surface.Program) (function : Function Surface.Expr WrittenType)
    (path : List Place) (frame : Frame) : Prop where
  bound : ∀ name span, (frame.context.lookup? name).isSome =
    Occurrence.isBound program ⟨function, name, span, path⟩
  upcoming : frame.upcoming = path.map fun place => place.onward.filterMap declared?

namespace Frame.Follows

/-- The frame inside a block follows its first statement. -/
theorem enter (follows : frame.Follows program function path) (statements : List Surface.Stmt) :
    (frame.enter statements).Follows program function (⟨[], statements⟩ :: path) where
  bound name span := follows.bound name span
  upcoming := by
    rw [map_cons, ← follows.upcoming, ← declaredNames_eq]
    rfl

variable {before rest : List Surface.Stmt} {outer : List Place} {statement : Surface.Stmt}

/-- A declared name is in scope and no longer later. -/
theorem declare {name : String}
    (follows : frame.Follows program function (⟨before, statement :: rest⟩ :: outer))
    (declaration : declared? statement = some (name, span)) (binding : Binding) :
    (frame.declare name binding).Follows program function
      (⟨before ++ [statement], rest⟩ :: outer) where
  bound other place := by
    have earlier := follows.bound other place
    have here : declares other statement = decide (name = other) := by
      rw [declares, declaration, Option.any_some]
    unfold Occurrence.isBound at earlier ⊢
    rw [Frame.declare, Context.isSome_lookup?_bind, earlier]
    simp only [any_cons, any_append, any_nil, here, Bool.or_false]
    ac_rfl
  upcoming := by
    have level := follows.upcoming
    rw [map_cons, filterMap_cons_some declaration] at level
    rw [Frame.declare, level, map_cons]
    dsimp only
    rw [eraseP_cons_of_pos]
    exact decide_eq_true rfl

/-- Otherwise the names in scope are the same. -/
theorem pass (follows : frame.Follows program function (⟨before, statement :: rest⟩ :: outer))
    (declaration : declared? statement = none) :
    frame.Follows program function (⟨before ++ [statement], rest⟩ :: outer) where
  bound other place := by
    have earlier := follows.bound other place
    have here : declares other statement = false := by
      rw [declares, declaration, Option.any_none]
    unfold Occurrence.isBound at earlier ⊢
    rw [earlier]
    simp only [any_cons, any_append, any_nil, here, Bool.or_false]
  upcoming := by
    rw [follows.upcoming, map_cons, map_cons, filterMap_cons_none declaration]

/-- The frame behind a statement follows the next. -/
theorem behind (enclosing : Enclosing)
    (follows : frame.Follows program function (⟨before, statement :: rest⟩ :: outer)) :
    (typeStatement enclosing frame statement).value.2.Follows program function
      (⟨before ++ [statement], rest⟩ :: outer) := by
  rcases frame_typeStatement enclosing frame statement with
    ⟨declaration, same⟩ | ⟨name, binding, declaration, _, same⟩
  · rw [same]
    exact follows.pass declaration
  · rw [same]
    exact follows.declare declaration binding

/-- It knows where names are declared later. -/
theorem later? (follows : frame.Follows program function path) (name : String) (span : Span) :
    frame.later? name = Occurrence.later? ⟨function, name, span, path⟩ := by
  rw [Frame.later?, follows.upcoming, findSome?_map]
  rfl

end Frame.Follows

/-- Reports of unbound names are those of names not resolved. -/
theorem unboundReports_map_report (frame : Frame) (log : List Issue) :
    unboundReports (log.map frame.report) =
      (unresolved log).map fun entry => .unbound entry.2 (frame.later? entry.1) := by
  induction log with
  | nil => rfl
  | cons first rest ih =>
    rw [map_cons, ← singleton_append, unboundReports_append, ih]
    cases first with
    | typing error span =>
      have other : (frame.report (.typing error span)).isUnbound = false :=
        (typing_among error trivial).isUnbound (by decide)
      have told : unboundReports [frame.report (.typing error span)] = [] := by
        simp [unboundReports, other]
      rw [told]
      rfl
    | undefinedFunction name span => rfl
    | unresolved name span =>
      have told : unboundReports [frame.report (.unresolved name span)] =
          [.unbound span (frame.later? name)] := by
        unfold Frame.report
        dsimp only
        cases frame.later? name <;> rfl
      rw [told]
      rfl

/-- An expression is reported as its names call for. -/
theorem unboundReports_typed (follows : frame.Follows program function path)
    (expression : Surface.Expr) (hint : Option Scalar) :
    unboundReports (frame.typed expression hint).log =
      calledFor program (occurrencesAt function path expression.identifiers) := by
  rw [Frame.typed, unboundReports_map_report,
    (Typing.elaborate_elaborates expression hint).unresolved, Context.unbound, calledFor,
    occurrencesAt, filter_map, map_map]
  have same : (fun entry : String × Span => (frame.context.lookup? entry.1).isNone) =
      (fun occurrence => !Occurrence.isBound program occurrence) ∘
        fun entry => ⟨function, entry.1, entry.2, path⟩ := by
    funext entry
    rw [Function.comp_apply, ← follows.bound, Option.not_isSome]
  rw [same]
  refine map_congr_left fun entry _ => ?_
  rw [follows.later? entry.1 entry.2]
  rfl

/-- Expressions in one frame are reported as their names call for. -/
theorem Interleaved.unboundReports (follows : frame.Follows program function path)
    {written : List Surface.Expr} {typed : List Typed.Expr} {log : List Diagnostic}
    (made : Interleaved (fun around _ => around = frame) (fun _ => True) written typed log) :
    unboundReports log =
      calledFor program (occurrencesAt function path (Surface.Expr.allIdentifiers written)) := by
  induction made with
  | nil => rfl
  | typed here hint _ ih =>
    rw [here, unboundReports_append, unboundReports_typed follows, ih, ← calledFor_append,
      occurrencesAt, occurrencesAt, ← map_append]
    rfl
  | other among known _ ih =>
    rw [unboundReports_append, (among.mono known).unboundReports (by decide), ih]
    rfl

mutual

/-- A statement is reported as its names call for. -/
theorem unboundReports_typeStatement (enclosing : Enclosing) {path : List Place} {frame : Frame}
    (follows : frame.Follows program function path) : (statement : Surface.Stmt) →
      unboundReports (typeStatement enclosing frame statement).log =
        calledFor program (occurrencesIn function path statement)
  | .letBinding .. | .varBinding .. | .assignment .. | .returning .. | .evaluation .. =>
    (typeStatement_interleaved enclosing rfl (fun _ _ => rfl) (.trivial _ _)).unboundReports follows
  | .block statements _ _ _ => by
    simp only [typeStatement, Logged.log_bind, Logged.log_pure, append_nil, occurrencesIn]
    exact unboundReports_typeStatements enclosing statements (follows.enter statements)

/-- Statements are reported as their names call for. -/
theorem unboundReports_typeStatements (enclosing : Enclosing) {outer : List Place}
    {before : List Surface.Stmt} {frame : Frame} : (statements : List Surface.Stmt) →
      frame.Follows program function (⟨before, statements⟩ :: outer) →
        unboundReports (typeStatements enclosing frame statements).log =
          calledFor program (occurrencesFrom function outer before statements)
  | [], _ => rfl
  | first :: rest, follows => by
    simp only [typeStatements, Logged.log_bind, Logged.log_pure, append_nil,
      unboundReports_append, occurrencesFrom, calledFor_append]
    rw [unboundReports_typeStatement enclosing follows first,
      unboundReports_typeStatements enclosing rest (follows.behind enclosing)]

end

/-- Bindings in a row bring their names into scope. -/
theorem isSome_lookup?_foldl_bind {α : Type} (label : α → String) (binding : Context → α → Binding)
    (items : List α) (context : Context) (name : String) :
    ((items.foldl (fun before item => before.bind (label item) (binding before item))
        context).lookup? name).isSome =
      ((context.lookup? name).isSome || items.any fun item => label item = name) := by
  induction items generalizing context with
  | nil => exact (Bool.or_false _).symm
  | cons first rest ih =>
    rw [foldl_cons, ih, Context.isSome_lookup?_bind, any_cons]
    ac_rfl

/-- Parameters are in scope. -/
theorem isSome_lookup?_bindParameters (context : Context) {parameters : List (Slot WrittenType)}
    (typed : parameters.length = types.length) (name : String) :
    ((bindParameters context parameters types).lookup? name).isSome =
      ((context.lookup? name).isSome || parameters.any fun parameter => parameter.name = name) := by
  have each := isSome_lookup?_foldl_bind (fun entry : Slot WrittenType × DeclaredType => entry.1.name)
    (fun _ entry => ⟨entry.2.resolved, false, entry.1.span⟩) (parameters.zip types) context.push name
  have names := congrArg (fun slots : List (Slot WrittenType) => slots.any fun slot => slot.name = name)
    (map_fst_zip (Nat.le_of_eq typed))
  rw [← names, any_map]
  exact each

/-- Outside of functions, uniforms are in scope. -/
def BindsUniforms (program : Surface.Program) (context : Context) : Prop :=
  ∀ name, (context.lookup? name).isSome =
    (Surface.uniforms program).any fun uniform => uniform.name = name

/-- The frame of a body follows its first statement. -/
theorem follows_start {context : Context} (binds : BindsUniforms program context)
    (typed : function.parameters.length = types.length) :
    (Frame.enter ⟨bindParameters context function.parameters types, []⟩
      function.body.statements).Follows program function [⟨[], function.body.statements⟩] := by
  refine Frame.Follows.enter ⟨fun name span => ?_, rfl⟩ _
  rw [isSome_lookup?_bindParameters context typed, binds, Occurrence.isBound, any_nil,
    Bool.or_false]

/-- Signatures do not change scopes. -/
theorem scopes_signedContext (program : Surface.Program) :
    (signedContext program).scopes = (boundContext program).scopes := by
  refine List.foldlRecOn (motive := fun before : Context =>
    before.scopes = (boundContext program).scopes) _ _ rfl ?_
  intro before same function member
  obtain ⟨defined, behind⟩ := behindSignature_defines before function
  rw [behind]
  exact same

/-- Functions are typed with the uniforms in scope. -/
theorem bindsUniforms_signedContext (program : Surface.Program) :
    BindsUniforms program (signedContext program) := by
  intro name
  obtain ⟨defined, structs⟩ := collectStructs_defines program .empty
  rw [Context.lookup?, scopes_signedContext]
  refine (isSome_lookup?_foldl_bind Uniform.name _ _ _ name).trans ?_
  unfold structContext
  rw [structs]
  exact Bool.false_or _

/-- A program is reported as its names call for. -/
theorem unboundReports_typeProgram (program : Surface.Program) :
    unboundReports (typeProgram program).log = calledFor program (Surface.occurrences program) := by
  have uniforms := (collectUniforms_among (ProgramHeld.trivial program).uniforms :
    AllAmong _ _ (collectUniforms program (structContext program)).log).unboundReports (by decide)
  unfold unboundReports at uniforms ⊢
  rw [filter_typeProgram program fun report among => among.isUnbound (by decide),
    filter_usageReports _ fun report among => among.isUnbound (by decide), append_nil,
    map_append, uniforms, nil_append, calledFor, Surface.occurrences, map_flatMap, filter_flatMap,
    map_flatMap]
  refine congrArg (List.flatMap · _) (funext fun function => ?_)
  exact unboundReports_typeStatements _ _ (follows_start (bindsUniforms_signedContext program) (by simp))

end Analysis

namespace Surface.Occurrence

/-- Whether a name is declared later. -/
theorem isSome_later? (occurrence : Occurrence) :
    occurrence.later?.isSome = occurrence.isDeclaredLater := by
  have level (statements : List Stmt) :
      ((statements.filterMap declared?).lookup occurrence.name).isSome =
        statements.any (declares occurrence.name) := by
    induction statements with
    | nil => rfl
    | cons first rest ih =>
      rw [any_cons, ← ih, declares]
      cases found : declared? first with
      | none => rw [filterMap_cons_none found, Option.any_none, Bool.false_or]
      | some entry =>
        obtain ⟨name, span⟩ := entry
        rw [filterMap_cons_some found, lookup_cons_ite, Option.any_some]
        by_cases same : occurrence.name = name
        · rw [if_pos same, decide_eq_true same.symm, Bool.true_or, Option.isSome_some]
        · rw [if_neg same, decide_eq_false (Ne.symm same), Bool.false_or]
  unfold later? isDeclaredLater
  induction occurrence.path with
  | nil => rfl
  | cons place outer ih =>
    rw [findSome?_cons, any_cons, ← level, ← ih]
    cases (place.onward.filterMap declared?).lookup occurrence.name <;> rfl

/-- A name declared later is declared on the path. -/
theorem declared_of_later? (later : occurrence.later? = some span) :
    ∃ place ∈ occurrence.path, ∃ statement ∈ place.onward,
      declared? statement = some (occurrence.name, span) := by
  obtain ⟨place, member, found⟩ := exists_of_findSome?_eq_some later
  obtain ⟨before, after, split, _⟩ := lookup_eq_some_iff.mp found
  have listed : (occurrence.name, span) ∈ place.onward.filterMap declared? := by
    rw [split]
    exact mem_append_right _ mem_cons_self
  exact ⟨place, member, mem_filterMap.mp listed⟩

end Surface.Occurrence

/-- An unbound name is an error. -/
theorem Outline.severity_unbound (span : Span) (later : Option Span) :
    (Outline.unbound span later).severity = .error := by
  cases later <;> rfl

/-- An unbound name is told where it stands. -/
theorem Outline.location_unbound (span : Span) (later : Option Span) :
    (Outline.unbound span later).location = some span := by
  cases later <;> rfl

/-- A report about an unbound name is called for by a use. -/
theorem Analysis.exists_occurrence {program : Surface.Program} {report : Diagnostic}
    (told : report ∈ (typeProgram program).log) (unbound : report.isUnbound) :
    ∃ occurrence ∈ Surface.occurrences program, occurrence.isBound program = false ∧
      occurrence.outline = report.outline := by
  have listed : report.outline ∈ unboundReports (typeProgram program).log :=
    mem_map_of_mem (mem_filter.mpr ⟨told, unbound⟩)
  rw [unboundReports_typeProgram] at listed
  obtain ⟨occurrence, member, same⟩ := mem_map.mp listed
  obtain ⟨used, free⟩ := mem_filter.mp member
  rw [Bool.not_eq_true'] at free
  exact ⟨occurrence, used, free, same⟩

/-- The reports at a place about an unbound name. -/
def unboundAt (span : Span) (reports : List Diagnostic) : List Diagnostic :=
  reports.filter fun report => report.isUnbound && report.location = some span

/-- At a place, reports are those of the uses there. -/
theorem Analysis.outlines_unboundAt (program : Surface.Program) (span : Span) :
    (unboundAt span (Analysis.of program).diagnostics).map Diagnostic.outline =
      calledFor program
        ((Surface.occurrences program).filter fun occurrence => occurrence.span = span) := by
  have errors : unboundAt span (Analysis.of program).diagnostics =
      ((typeProgram program).log.filter Diagnostic.isUnbound).filter fun report =>
        report.outline.location = some span := by
    rw [unboundAt, diagnostics_of, filter_filter, filter_filter]
    refine filter_congr fun report told => ?_
    cases unbound : report.isUnbound with
    | false => rw [Bool.false_and, Bool.false_and, Bool.and_false]
    | true =>
      obtain ⟨occurrence, _, _, same⟩ := exists_occurrence told unbound
      have severity : report.outline.severity = .error := by
        rw [← same]
        exact Outline.severity_unbound ..
      have kept : isHint report = false := by
        unfold isHint
        rw [show report.severity = .error from severity]
        rfl
      rw [kept, Bool.true_and, Bool.not_false, Bool.and_true, Bool.and_true]
      rfl
  have all := congrArg (List.filter fun outline => outline.location = some span)
    (unboundReports_typeProgram program)
  rw [unboundReports, filter_map, calledFor, filter_map] at all
  rw [errors]
  refine all.trans ?_
  rw [calledFor, filter_filter, filter_filter]
  congr 1
  refine filter_congr fun occurrence _ => ?_
  rw [Function.comp_apply, Occurrence.outline, Outline.location_unbound, Bool.and_comm]
  congr 1
  exact decide_eq_decide.mpr Option.some_inj

namespace Surface

/-- Only one name is used at a place. -/
theorem filter_span {uses : List Occurrence} (ascend : uses.Pairwise fun first second =>
    first.span.offset < second.span.offset) (member : occurrence ∈ uses) :
    (uses.filter fun other => other.span = occurrence.span) = [occurrence] := by
  induction uses with
  | nil => cases member
  | cons first rest ih =>
    obtain ⟨firstAscends, restAscends⟩ := pairwise_cons.mp ascend
    rcases mem_cons.mp member with same | later
    · have others : (rest.filter fun other => other.span = occurrence.span) = [] := by
        refine filter_eq_nil_iff.mpr fun other listed => ?_
        have behind := firstAscends other listed
        rw [decide_eq_true_eq]
        intro equal
        rw [equal, same] at behind
        exact Nat.lt_irrefl _ behind
      rw [filter_cons_of_pos (by rw [same, decide_eq_true_eq]), others, same]
    · have behind := firstAscends occurrence later
      have different : first.span ≠ occurrence.span := by
        intro equal
        rw [equal] at behind
        exact Nat.lt_irrefl _ behind
      rw [filter_cons_of_neg (by rwa [decide_eq_true_eq]), ih restAscends later]

end Surface

/-- A use of a name is reported if and only if the name is not bound there, exactly once and at its
place: with code `GL3004` and a declaration if it is declared from its own statement on, and with
`GL3001` otherwise. No other reports have these codes. -/
theorem unbound_names_are_reported_once (source : SourceText) :
    let program := (Surface.read source).1
    let reports := (Analysis.of program).diagnostics
    (∀ occurrence ∈ Surface.occurrences program,
      (occurrence.isBound program = true → unboundAt occurrence.span reports = []) ∧
      (occurrence.isBound program = false →
        ∃ report, unboundAt occurrence.span reports = [report] ∧
          (report.code = .useBeforeDeclaration ↔ occurrence.isDeclaredLater = true) ∧
          (report.code = .useBeforeDeclaration →
            ∃ place ∈ occurrence.path, ∃ statement ∈ place.onward, ∃ span,
              declared? statement = some (occurrence.name, span) ∧
                report.related.map Related.location = [some span]))) ∧
    ∀ report ∈ reports, report.isUnbound = true →
      ∃ occurrence ∈ Surface.occurrences program, occurrence.isBound program = false ∧
        report.location = some occurrence.span := by
  intro program reports
  constructor
  · intro occurrence member
    have outlines := Analysis.outlines_unboundAt program occurrence.span
    rw [Surface.filter_span (Surface.occurrences_ascend source) member] at outlines
    constructor
    · intro bound
      rw [calledFor, filter_cons_of_neg (by rw [bound]; exact nofun)] at outlines
      exact map_eq_nil_iff.mp outlines
    · intro free
      rw [calledFor, filter_cons_of_pos (by rw [free]; rfl)] at outlines
      obtain ⟨report, told, same⟩ := map_eq_singleton_iff.mp outlines
      refine ⟨report, told, ?_⟩
      have code : report.code = occurrence.outline.code := congrArg Outline.code same
      have related : report.related.map Related.location = occurrence.outline.related :=
        congrArg Outline.related same
      rw [code, related, ← occurrence.isSome_later?, Occurrence.outline]
      cases later : occurrence.later? with
      | none => exact ⟨⟨nofun, nofun⟩, nofun⟩
      | some span =>
        obtain ⟨place, around, statement, listed, declaration⟩ := Occurrence.declared_of_later? later
        exact ⟨⟨fun _ => rfl, fun _ => rfl⟩,
          fun _ => ⟨place, around, statement, listed, span, declaration, rfl⟩⟩
  · intro report told unbound
    obtain ⟨occurrence, used, free, same⟩ :=
      Analysis.exists_occurrence (mem_filter.mp told).1 unbound
    refine ⟨occurrence, used, free, ?_⟩
    have location : report.location = occurrence.outline.location :=
      (congrArg Outline.location same).symm
    rw [location]
    exact Outline.location_unbound ..

/-- A name declared later in an outer block is used too early. -/
theorem early_use_is_reported_once :
    let source : SourceText := ⟨"early.shade",
      "fn f(a: f32) { { let c = a + b; } let b = a; let d = b + e; }"⟩
    let program := (Surface.read source).1
    ∃ occurrence ∈ Surface.occurrences program, occurrence.name = "b" ∧
      occurrence.isBound program = false ∧ occurrence.isDeclaredLater = true ∧
      ∃ report, unboundAt occurrence.span (Analysis.of program).diagnostics = [report] ∧
        report.code = .useBeforeDeclaration := by
  intro source program
  have used : ∃ occurrence ∈ Surface.occurrences program, occurrence.name = "b" ∧
      occurrence.isBound program = false ∧ occurrence.isDeclaredLater = true := by
    decide +kernel
  obtain ⟨occurrence, member, name, free, later⟩ := used
  obtain ⟨report, told, code, _⟩ :=
    ((unbound_names_are_reported_once source).1 occurrence member).2 free
  exact ⟨occurrence, member, name, free, later, report, told, code.mpr later⟩

end Shading
