import Shading.Proofs.TypedBodies

/-!
# What is called

A function is used by the host or by another function in whose body it is called, however deep. Which
functions are told to be unused, and which builtin functions a summary lists, follows from the calls in
bodies alone.
-/

namespace Shading

open List

namespace Statement

variable {Expression Ascription : Type} {expression : Expression}

/-- The expressions that a statement itself consists of. -/
def immediate : Statement Expression Ascription → List Expression
  | .letBinding _ _ value _ | .evaluation value _ => [value]
  | .varBinding _ _ value _ | .returning value _ => value.toList
  | .assignment target value _ => [target, value]
  | .block _ _ _ _ => []

/-- An expression stands in a statement or in its block. -/
inductive Has (expression : Expression) : Statement Expression Ascription → Prop where
  | here {statement : Statement Expression Ascription} (stands : expression ∈ statement.immediate) :
      Has expression statement
  | inBlock {statement : Statement Expression Ascription}
      {statements : List (Statement Expression Ascription)} {opening closing span : Span}
      (listed : statement ∈ statements) (inside : Has expression statement) :
      Has expression (.block statements opening closing span)

/-- Without a block, it stands in the statement itself. -/
theorem has_iff_of_plain {statement : Statement Expression Ascription}
    (plain : statement.isBlock = false) : statement.Has expression ↔ expression ∈ statement.immediate := by
  refine ⟨fun stands => ?_, .here⟩
  cases stands with
  | here stands => exact stands
  | inBlock => cases plain

mutual

/-- The expressions of a statement stand in it. -/
theorem mem_expressions : (statement : Statement Expression Ascription) →
    (expression ∈ statement.expressions ↔ statement.Has expression)
  | .letBinding .. | .varBinding .. | .assignment .. | .returning .. | .evaluation .. =>
    by rw [has_iff_of_plain rfl]; rfl
  | .block statements .. => by
    rw [expressions, mem_allExpressions statements]
    constructor
    · rintro ⟨statement, listed, inside⟩
      exact .inBlock listed inside
    · intro stands
      cases stands with
      | here stands => cases stands
      | inBlock listed inside => exact ⟨_, listed, inside⟩

/-- The expressions of statements stand in one of them. -/
theorem mem_allExpressions : (statements : List (Statement Expression Ascription)) →
    (expression ∈ allExpressions statements ↔ ∃ statement ∈ statements, statement.Has expression)
  | [] => by simp [allExpressions]
  | first :: rest => by
    simp [allExpressions, mem_expressions first, mem_allExpressions rest]

end

end Statement

namespace Typed

namespace Expr

/-- The expression itself, or a part of one of its parts. -/
inductive IsPart (part : Expr) : Expr → Prop where
  | self : IsPart part part
  | inner {expression child : Expr} (immediate : child ∈ parts expression) (inside : IsPart part child) :
      IsPart part expression

/-- Nodes are parts. -/
theorem mem_nodes_iff {part expression : Expr} : part ∈ expression.nodes ↔ IsPart part expression := by
  constructor
  · intro member
    induction expression using induction_parts with
    | step expression ih =>
      rcases mem_nodes.mp member with rfl | ⟨child, immediate, inside⟩
      · exact .self
      · exact .inner immediate (ih child immediate inside)
  · intro stands
    induction stands with
    | self => exact mem_nodes_self part
    | inner immediate _ inside => exact mem_nodes_of_part immediate inside

end Expr

/-- Something is called somewhere in the body of a function. -/
def Calls (function : Function Expr DeclaredType) (callee : Callee) : Prop :=
  ∃ statement ∈ function.body.statements, ∃ expression, statement.Has expression ∧
    ∃ arguments type span, Expr.IsPart (.call callee arguments type span) expression

/-- Calls are nodes. -/
theorem calls_iff {function : Function Expr DeclaredType} {callee : Callee} :
    Calls function callee ↔
      ∃ arguments type span, Expr.call callee arguments type span ∈ functionNodes function := by
  simp only [Calls, functionNodes, Expr.mem_allNodes, Statement.mem_allExpressions, Expr.mem_nodes_iff]
  constructor
  · rintro ⟨statement, listed, expression, stands, arguments, type, span, inside⟩
    exact ⟨arguments, type, span, expression, ⟨statement, listed, stands⟩, inside⟩
  · rintro ⟨arguments, type, span, expression, ⟨statement, listed, stands⟩, inside⟩
    exact ⟨statement, listed, expression, stands, arguments, type, span, inside⟩

end Typed

namespace Analysis

open Typed (Calls)

variable {functions : List TypedFunction} {function : TypedFunction}

/-- What is called from a function has other names. -/
theorem mem_calledFrom {name : String} :
    name ∈ calledFrom function ↔ Calls function (.user name) ∧ name ≠ function.name := by
  rw [Typed.calls_iff, calledFrom, mem_filterMap]
  constructor
  · rintro ⟨node, listed, found⟩
    split at found
    · split at found
      · cases found
      · cases found
        exact ⟨⟨_, _, _, listed⟩, ‹_›⟩
    · cases found
  · rintro ⟨⟨arguments, type, span, listed⟩, other⟩
    exact ⟨_, listed, if_neg other⟩

/-- Builtin functions are collected where they are called. -/
theorem mem_builtinsCalled {builtin : Builtin} :
    builtin ∈ builtinsCalled function ↔ Calls function (.builtin builtin) := by
  rw [Typed.calls_iff, builtinsCalled, mem_filterMap]
  constructor
  · rintro ⟨node, listed, found⟩
    split at found
    · cases found
      exact ⟨_, _, _, listed⟩
    · cases found
  · rintro ⟨arguments, type, span, listed⟩
    exact ⟨_, listed, rfl⟩

/-- No stage, and no function of another name calls it. -/
structure IsUnused (functions : List TypedFunction) (function : TypedFunction) : Prop where
  stageless : function.stage? = none
  uncalled : ∀ other ∈ functions, other.name ≠ function.name → ¬Calls other (.user function.name)

/-- The test for unused functions is exact. -/
theorem isUnused_iff : IsUnused functions function ↔
    (function.stage?.isNone && !(functions.flatMap calledFrom).contains function.name) = true := by
  have uncalled : function.name ∉ functions.flatMap calledFrom ↔ ∀ other ∈ functions,
      other.name ≠ function.name → ¬Calls other (.user function.name) := by
    simp only [mem_flatMap, mem_calledFrom, not_exists, not_and, ne_eq]
    exact ⟨fun none other listed differs called => none other listed called (Ne.symm differs),
      fun none other listed called differs => none other listed (Ne.symm differs) called⟩
  simp only [Bool.and_eq_true, Option.isNone_iff_eq_none, Bool.not_eq_true', contains_eq_mem,
    decide_eq_false_iff_not, uncalled]
  exact ⟨fun unused => ⟨unused.1, unused.2⟩, fun unused => ⟨unused.1, unused.2⟩⟩

instance : Decidable (IsUnused functions function) := decidable_of_iff _ isUnused_iff.symm

/-- Unused functions are reported in order. -/
theorem unusedReports_eq (functions : List TypedFunction) :
    unusedReports functions = (functions.filter fun function => IsUnused functions function).map
      fun function => unusedFunction function.name function.span := by
  have same (function : TypedFunction) : decide (IsUnused functions function) =
      (function.stage?.isNone && !(functions.flatMap calledFrom).contains function.name) := by
    rw [Bool.eq_iff_iff, decide_eq_true_iff, isUnused_iff]
  rw [← filterMap_eq_map, filterMap_filter]
  simp only [same]
  rfl

/-- Whether a report is a hint about an unused function. -/
def tellsUnused (report : Diagnostic) : Bool := isHint report && report.code = .unusedFunction

/-- Other codes are no such hints. -/
theorem tellsUnused_of_among {codes : List Code} {report : Diagnostic}
    (among : report.Among codes fun _ => True) (other : .unusedFunction ∉ codes) :
    tellsUnused report = false := by
  have differs : report.code ≠ .unusedFunction := fun same => other (same ▸ among.code)
  simp [tellsUnused, differs]

/-- Reports of other codes have none. -/
theorem filter_tellsUnused {codes : List Code} {log : List Diagnostic}
    (among : AllAmong codes (fun _ => True) log) (other : .unusedFunction ∉ codes) :
    log.filter tellsUnused = [] :=
  filter_eq_nil_iff.mpr fun report member => by
    simp [tellsUnused_of_among (among report member) other]

/-- Among usage reports, these hints stand by themselves. -/
theorem unused_usageReports (functions : List TypedFunction) :
    (usageReports functions).filter tellsUnused = unusedReports functions := by
  have held (function : TypedFunction) : TypedHeld (fun _ => True) function :=
    ⟨trivial, fun _ _ => trivial⟩
  have unused : (unusedReports functions).filter tellsUnused = unusedReports functions := by
    rw [unusedReports_eq]
    exact filter_eq_self.mpr (forall_mem_map.mpr fun _ _ => rfl)
  rw [usageReports, filter_append, filter_append, unused,
    filter_tellsUnused (entryPointReports_among fun function _ => held function) (by decide),
    filter_tellsUnused (.flatMap fun function _ => performanceReports_among (held function)) (by decide),
    append_nil, nil_append]

/-- The hints about unused functions. -/
theorem unused_hints (program : Surface.Program) :
    (Analysis.of program).hints.filter (fun report => report.code = .unusedFunction) =
      unusedReports (Analysis.of program).program.functions := by
  have bodies : ((Surface.functions program).flatMap fun function => (typedBody (signedContext program)
      function (declaredSignature (boundContext program) function)).log.filter tellsUnused) = [] := by
    refine flatMap_eq_nil_iff.mpr fun function _ => filter_eq_nil_iff.mpr ?_
    refine forall_log_typedBody _ _ _ (fun frame issue => ?_) fun report among => ?_
    · have error := isError_report frame issue
      simp [tellsUnused, isHint, of_decide_eq_true error]
    · simp [tellsUnused_of_among among (by decide)]
  have hints : (Analysis.of program).hints.filter (fun report => report.code = .unusedFunction) =
      (typeProgram program).log.filter tellsUnused := by
    change ((typeProgram program).log.filter isHint).filter _ = _
    rw [filter_filter]
    exact filter_congr fun report _ => Bool.and_comm ..
  rw [hints, filter_typeProgram program fun report among => tellsUnused_of_among among (by decide),
    filter_tellsUnused (collectUniforms_among (ProgramHeld.trivial program).uniforms) (by decide),
    bodies, unused_usageReports]
  rfl

/-- The summary lists what is called. -/
theorem mem_builtinsUsed (program : Typed.Program) (called : List Builtin) (name : String) :
    name ∈ (Summary.of program called).builtinsUsed ↔ ∃ builtin ∈ called, builtin.name = name := by
  have listed (builtin : Builtin) : builtin ∈ Builtin.every := by cases builtin <;> decide
  simp [Summary.of, listed]

/-- Builtin names are in order, each once. -/
theorem pairwise_builtinsUsed (program : Typed.Program) (called : List Builtin) :
    (Summary.of program called).builtinsUsed.Pairwise (· < ·) := by
  have once : (Builtin.every.map Builtin.name).Nodup := by decide +kernel
  generalize shown : (Builtin.every.filter called.contains).map Builtin.name = names
  have distinct : names.mergeSort.Nodup := by
    rw [(mergeSort_perm names _).nodup_iff, ← shown]
    exact once.sublist (filter_sublist.map _)
  have sorted : names.mergeSort.Pairwise fun first second => decide (first ≤ second) :=
    pairwise_mergeSort (fun _ _ _ => by simpa using String.le_trans)
      (fun first second => by simpa using String.le_total ..) names
  rw [Summary.of, shown]
  refine (sorted.and distinct).imp fun {first second} both => Decidable.byContradiction fun still => ?_
  exact both.2 (String.le_antisymm (of_decide_eq_true both.1) (String.not_lt.mp still))

/-- What is told about the use of functions is exact: a hint is told, in declared order, for those
without a stage that no function of another name calls, and the summary lists the builtin functions
called in any body, in order and each once. -/
theorem usage_is_exact (program : Surface.Program) :
    let functions := (Analysis.of program).program.functions
    let builtins := (Analysis.of program).summary.builtinsUsed
    (Analysis.of program).hints.filter (fun report => report.code = .unusedFunction) =
        (functions.filter fun function => IsUnused functions function).map
          (fun function => unusedFunction function.name function.span) ∧
      builtins.Pairwise (· < ·) ∧ ∀ name, name ∈ builtins ↔
        ∃ function ∈ functions, ∃ builtin, Calls function (.builtin builtin) ∧ builtin.name = name := by
  refine ⟨(unused_hints program).trans (unusedReports_eq _), pairwise_builtinsUsed _ _, fun name => ?_⟩
  refine (mem_builtinsUsed _ _ name).trans ?_
  simp only [mem_flatMap, mem_builtinsCalled]
  constructor
  · rintro ⟨builtin, ⟨function, listed, called⟩, same⟩
    exact ⟨function, listed, builtin, called, same⟩
  · rintro ⟨function, listed, builtin, called, same⟩
    exact ⟨builtin, ⟨function, listed, called⟩, same⟩

end Analysis

end Shading
