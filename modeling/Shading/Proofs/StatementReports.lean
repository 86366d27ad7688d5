import Shading.Proofs.AnalysisReports

/-!
# What is told about statements

A statement is typed by typing its expressions in order, in the frame that the statements in front of it
have left. What is told about it is what is told about each of these expressions, and in between reports
about types, values and declared names. Whatever holds of all that is told or of all typed expressions
follows from that.
-/

namespace Shading

open List

namespace Statement

variable {Expression Ascription : Type}

/-- Whether a statement is a block. -/
def isBlock : Statement Expression Ascription → Bool
  | .block _ _ _ _ => true
  | _ => false

mutual

/-- The type ascriptions of a statement, in order. -/
def ascriptions : Statement Expression Ascription → List Ascription
  | .letBinding _ ascription _ _ => ascription.toList
  | .varBinding _ ascription _ _ => ascription.toList
  | .block statements _ _ _ => allAscriptions statements
  | .assignment .. | .returning .. | .evaluation .. => []

/-- The type ascriptions of statements, in order. -/
def allAscriptions : List (Statement Expression Ascription) → List Ascription
  | [] => []
  | first :: rest => first.ascriptions ++ allAscriptions rest

end

end Statement

namespace Analysis

open Typing (Binding)
open Typed (DeclaredType)
open Surface (declared?)

section Variables

variable (function : Enclosing) (frame : Frame) (name : String) (ascription : Option WrittenType)
  (span : Span)

/-- The type that an ascription gives. -/
abbrev expectedType : Option Ty :=
  (ascribed frame ascription).value.bind DeclaredType.resolved

/-- A variable has its ascription or the type of its value. -/
theorem value_typeStatement_var (value : Option Surface.Expr) :
    let typed := (initialValue frame (expectedType frame ascription) value).value
    (typeStatement function frame (.varBinding name ascription value span)).value =
      (.varBinding name (ascribed frame ascription).value typed span,
        frame.declare name
          ⟨(expectedType frame ascription).or (typed.bind Typed.Expr.type), true, span⟩) := by
  simp only [typeStatement, Logged.value_bind]
  split <;> rfl

/-- What is told about a variable. -/
theorem log_typeStatement_var (value : Option Surface.Expr) :
    let typed := initialValue frame (expectedType frame ascription) value
    (typeStatement function frame (.varBinding name ascription value span)).log =
      (ascribed frame ascription).log ++ (typed.log ++
        ((if (ascribed frame ascription).value.isNone && typed.value.isNone then
          [untypedVariable name span] else []) ++ frame.redeclarationReports name span)) := by
  simp only [typeStatement, Logged.log_bind]
  split <;> simp [Logged.write]

end Variables

/-- A statement leaves the frame or declares a name. -/
theorem frame_typeStatement (function : Enclosing) (frame : Frame) (statement : Surface.Stmt) :
    declared? statement = none ∧ (typeStatement function frame statement).value.2 = frame ∨
      ∃ name binding, declared? statement = some (name, binding.span) ∧
        binding.span = statement.span ∧
          (typeStatement function frame statement).value.2 = frame.declare name binding := by
  cases statement with
  | letBinding name ascription value span => exact .inr ⟨name, _, rfl, rfl, rfl⟩
  | varBinding name ascription value span =>
    rw [value_typeStatement_var]
    exact .inr ⟨name, _, rfl, rfl, rfl⟩
  | assignment | returning | evaluation | block => exact .inl ⟨rfl, rfl⟩

/-- It keeps functions and structs. -/
theorem context_typeStatement (function : Enclosing) (frame : Frame) (statement : Surface.Stmt) :
    ∃ scopes, (typeStatement function frame statement).value.2.context =
      { frame.context with scopes } := by
  rcases frame_typeStatement function frame statement with ⟨_, same⟩ | ⟨name, binding, _, _, same⟩
  · exact ⟨_, by rw [same]⟩
  · exact ⟨_, by rw [same]; rfl⟩

/-- Parameters are bound, and nothing else changes. -/
theorem context_bindParameters (context : Typing.Context) (parameters : List (Slot WrittenType))
    (types : List DeclaredType) :
    ∃ scopes, bindParameters context parameters types = { context with scopes } := by
  refine List.foldlRecOn (motive := fun bound : Typing.Context =>
    ∃ scopes, bound = { context with scopes }) _ _ ⟨_, rfl⟩ ?_
  rintro _ ⟨scopes, rfl⟩ entry _
  exact ⟨_, rfl⟩

/-- The codes of reports about the types of expressions. -/
abbrev typingCodes : List Code :=
  [.invalidOperandTypes, .matrixDimensionMismatch, .vectorSizeMismatch, .invalidSwizzle, .unknownField,
    .typeMismatch, .notIndexable, .constructorComponentMismatch, .wrongArgumentCount]

/-- Errors of types are told there. -/
theorem typing_among {held : Span → Prop} (error : TypingError) {span : Span} (here : held span) :
    (error.diagnostic span).Among typingCodes held := by
  refine .single error.code ?_ rfl rfl here
  cases error with
  | builtinCall builtin reason => cases reason <;> simp [TypingError.code]
  | _ => simp [TypingError.code]

/-- The codes of reports about statements. -/
abbrev statementCodes : List Code :=
  typeCodes ++ [.typeMismatch, .returnTypeMismatch, .duplicateDeclaration, .assignToImmutable]

/-- Expressions typed in order, each in a frame around it, and what is told about them, with other
reports in between. -/
inductive Interleaved (around : Frame → Surface.Expr → Prop) (held : Span → Prop) :
    List Surface.Expr → List Typed.Expr → List Diagnostic → Prop where
  | nil : Interleaved around held [] [] []
  | typed {frame : Frame} {expression : Surface.Expr} (here : around frame expression)
      (hint : Option Scalar) {written : List Surface.Expr} {typed : List Typed.Expr}
      {log : List Diagnostic} (rest : Interleaved around held written typed log) :
      Interleaved around held (expression :: written)
        ((frame.typed expression hint).value :: typed) ((frame.typed expression hint).log ++ log)
  | other {reports : List Diagnostic} {codes : List Code} (among : AllAmong codes held reports)
      (known : codes ⊆ statementCodes) {written : List Surface.Expr} {typed : List Typed.Expr}
      {log : List Diagnostic} (rest : Interleaved around held written typed log) :
      Interleaved around held written typed (reports ++ log)

namespace Interleaved

variable {around : Frame → Surface.Expr → Prop} {held : Span → Prop}
  {written more : List Surface.Expr} {typed further : List Typed.Expr} {log rest : List Diagnostic}

/-- Expressions that are typed in order can be joined. -/
theorem append (front : Interleaved around held written typed log)
    (back : Interleaved around held more further rest) :
    Interleaved around held (written ++ more) (typed ++ further) (log ++ rest) := by
  induction front with
  | nil => exact back
  | typed here hint _ ih =>
    rw [append_assoc]
    exact .typed here hint ih
  | other among known _ ih =>
    rw [append_assoc]
    exact .other among known ih

/-- Reports may follow. -/
theorem followed (made : Interleaved around held written typed log)
    (back : Interleaved around held [] [] rest) :
    Interleaved around held written typed (log ++ rest) := by
  simpa using made.append back

/-- What holds of expressions and other reports holds of all that is told. -/
theorem forall_log {good : Diagnostic → Prop} (made : Interleaved around held written typed log)
    (each : ∀ frame, ∀ expression ∈ written, around frame expression →
      ∀ hint, ∀ report ∈ (frame.typed expression hint).log, good report)
    (others : ∀ report, report.Among statementCodes held → good report) :
    ∀ report ∈ log, good report := by
  induction made with
  | nil => exact forall_mem_nil _
  | typed here hint _ ih =>
    refine forall_mem_append.mpr ⟨each _ _ mem_cons_self here hint, ih ?_⟩
    exact fun frame expression member => each frame expression (mem_cons_of_mem _ member)
  | other among known _ ih =>
    exact forall_mem_append.mpr
      ⟨fun report member => others report (among.mono known report member), ih each⟩

/-- A typed expression is one of those written. -/
theorem exists_of_mem (made : Interleaved around held written typed log) {expression : Typed.Expr}
    (member : expression ∈ typed) : ∃ frame, ∃ source ∈ written, ∃ hint, around frame source ∧
      expression = (frame.typed source hint).value ∧ (frame.typed source hint).log ⊆ log := by
  induction made with
  | nil => cases member
  | typed here hint _ ih =>
    rcases mem_cons.mp member with rfl | later
    · exact ⟨_, _, mem_cons_self, hint, here, rfl, subset_append_left ..⟩
    · obtain ⟨frame, source, listed, hint, near, same, told⟩ := ih later
      exact ⟨frame, source, mem_cons_of_mem _ listed, hint, near, same,
        subset_append_of_subset_right _ told⟩
  | other _ _ _ ih =>
    obtain ⟨frame, source, listed, hint, near, same, told⟩ := ih member
    exact ⟨frame, source, listed, hint, near, same, subset_append_of_subset_right _ told⟩

end Interleaved

variable {around : Frame → Surface.Expr → Prop} {held : Span → Prop} {frame : Frame}

/-- The places told about a statement have a property. -/
structure Sited (held : Span → Prop) (frame : Frame) (statement : Surface.Stmt) : Prop where
  here : held statement.span
  types : ∀ written ∈ statement.ascriptions, held written.span
  values : ∀ expression ∈ statement.expressions, ∀ hint, held (frame.typed expression hint).value.span
  bound : ∀ name binding, frame.context.lookup? name = some binding → held binding.span

/-- Any places will do. -/
theorem Sited.trivial (frame : Frame) (statement : Surface.Stmt) :
    Sited (fun _ => True) frame statement where
  here := True.intro
  types _ _ := True.intro
  values _ _ _ := True.intro
  bound _ _ _ := True.intro

/-- A mismatch is told at the value. -/
theorem mismatch_among (expected : Option Ty) {value : Typed.Expr} (here : held value.span) :
    AllAmong [.typeMismatch] held (mismatchReports mismatch expected value) :=
  mismatchReports_among .typeMismatch (fun _ _ _ => rfl) (fun _ _ _ => rfl) expected here

/-- An initial value is typed so. -/
theorem initialValue_interleaved (expected : Option Ty) {value : Option Surface.Expr}
    (each : ∀ expression ∈ value.toList, around frame expression)
    (values : ∀ expression ∈ value.toList, ∀ hint, held (frame.typed expression hint).value.span) :
    Interleaved around held value.toList (initialValue frame expected value).value.toList
      (initialValue frame expected value).log := by
  cases value with
  | none => exact .nil
  | some value =>
    exact .typed (each value mem_cons_self) _
      (.other (mismatch_among expected (values value mem_cons_self _)) (by simp) .nil)

/-- A returned value is typed so. -/
theorem returnedValue_interleaved (function : Enclosing) {span : Span} (here : held span)
    {value : Option Surface.Expr} (each : ∀ expression ∈ value.toList, around frame expression)
    (values : ∀ expression ∈ value.toList, ∀ hint, held (frame.typed expression hint).value.span) :
    Interleaved around held value.toList (returnedValue function frame span value).value.toList
      (returnedValue function frame span value).log := by
  have known : [Code.returnTypeMismatch] ⊆ statementCodes := by simp
  cases value with
  | none =>
    simp only [returnedValue]
    split
    · exact .other (.one (.single .returnTypeMismatch (by decide) rfl rfl here)) known .nil
    · exact .nil
  | some value =>
    simp only [returnedValue]
    split
    · refine .typed (each value mem_cons_self) _ (.other ?_ known .nil)
      exact mismatchReports_among .returnTypeMismatch (fun _ _ _ => rfl) (fun _ _ _ => rfl) _
        (values value mem_cons_self _)
    · refine .typed (each value mem_cons_self) _ (.other (.one ?_) known .nil)
      exact .single .returnTypeMismatch (by decide) rfl rfl (values value mem_cons_self _)

/-- A plain statement types its expressions in order. -/
theorem typeStatement_interleaved (function : Enclosing) {statement : Surface.Stmt}
    (plain : statement.isBlock = false)
    (each : ∀ expression ∈ statement.expressions, around frame expression)
    (sited : Sited held frame statement) :
    Interleaved around held statement.expressions
      (typeStatement function frame statement).value.1.expressions
      (typeStatement function frame statement).log := by
  have again (name : String) : AllAmong [.duplicateDeclaration] held
      (frame.redeclarationReports name statement.span) :=
    redeclarationReports_among sited.bound name sited.here
  cases statement with
  | letBinding name ascription value span =>
    have types : AllAmong typeCodes held (ascribed frame ascription).log :=
      ascribed_among fun written member => sited.types written (Option.mem_toList.mpr member)
    have mismatched := mismatch_among (expectedType frame ascription)
      (sited.values value mem_cons_self (Typing.scalarHint (expectedType frame ascription)))
    exact .other types (by simp) (.typed (each value mem_cons_self) _
      (.other mismatched (by simp) (.other (again name) (by simp) .nil)))
  | varBinding name ascription value span =>
    have types : AllAmong typeCodes held (ascribed frame ascription).log :=
      ascribed_among fun written member => sited.types written (Option.mem_toList.mpr member)
    have untyped (condition : Bool) : AllAmong [.typeMismatch] held
        (if condition then [untypedVariable name span] else []) :=
      .when (.one (.single .typeMismatch (by decide) rfl rfl sited.here))
    have named : Interleaved around held [] [] (frame.redeclarationReports name span ++ []) :=
      .other (again name) (by simp) .nil
    rw [append_nil] at named
    rw [value_typeStatement_var, log_typeStatement_var]
    exact .other types (by simp) ((initialValue_interleaved _ each sited.values).followed
      (.other (untyped _) (by simp) named))
  | assignment target value span =>
    have refused := targetReports_among sited.bound (sited.values target mem_cons_self none)
    have mismatched := mismatch_among (frame.typed target none).value.type
      (sited.values value (by simp [Statement.expressions])
        (Typing.scalarHint (frame.typed target none).value.type))
    exact .typed (each target mem_cons_self) _ (.typed (each value (by simp [Statement.expressions])) _
      (.other refused (by simp) (.other mismatched (by simp) .nil)))
  | returning value span =>
    exact (returnedValue_interleaved function sited.here each sited.values).followed .nil
  | evaluation value span => exact .typed (each value mem_cons_self) _ .nil
  | block => cases plain

/-- A property of frames and statements that goes on, also into blocks. -/
structure Carried (function : Enclosing) (around : Frame → Surface.Expr → Prop)
    (held : Span → Prop) (carried : Frame → List Surface.Stmt → Prop) : Prop where
  enter {frame : Frame} {statements rest : List Surface.Stmt} {opening closing span : Span} :
    carried frame (.block statements opening closing span :: rest) →
      carried (frame.enter statements) statements
  behind {frame : Frame} {first : Surface.Stmt} {rest : List Surface.Stmt} :
    carried frame (first :: rest) → carried (typeStatement function frame first).value.2 rest
  around {frame : Frame} {first : Surface.Stmt} {rest : List Surface.Stmt} :
    carried frame (first :: rest) → first.isBlock = false →
      (∀ expression ∈ first.expressions, around frame expression) ∧ Sited held frame first

mutual

/-- Then a statement is typed so. -/
theorem Carried.typeStatement {function : Enclosing} {carried : Frame → List Surface.Stmt → Prop}
    (keeps : Carried function around held carried) {frame : Frame} {rest : List Surface.Stmt} :
    (statement : Surface.Stmt) → carried frame (statement :: rest) →
      Interleaved around held statement.expressions
        (typeStatement function frame statement).value.1.expressions
        (typeStatement function frame statement).log
  | .block statements opening closing span, here => by
    exact (keeps.typeStatements statements (keeps.enter here)).followed .nil
  | .letBinding .., here | .varBinding .., here | .assignment .., here | .returning .., here
  | .evaluation .., here =>
    typeStatement_interleaved function rfl (keeps.around here rfl).1 (keeps.around here rfl).2

/-- Then statements are typed so. -/
theorem Carried.typeStatements {function : Enclosing} {carried : Frame → List Surface.Stmt → Prop}
    (keeps : Carried function around held carried) {frame : Frame} :
    (statements : List Surface.Stmt) → carried frame statements →
      Interleaved around held (Statement.allExpressions statements)
        (Statement.allExpressions (typeStatements function frame statements).value)
        (typeStatements function frame statements).log
  | [], _ => .nil
  | first :: rest, here => by
    have later := keeps.typeStatements rest (keeps.behind here)
    exact (keeps.typeStatement first here).append (later.followed .nil)

end

end Analysis

end Shading
