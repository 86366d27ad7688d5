import Shading.Proofs.AcceptedPrograms
import Shading.Proofs.PlacedPrograms
import Shading.Proofs.SimilarNames

/-!
# Fixes of undefined names

A name that stands for nothing is reported where the text spells it: a variable is a token of its own,
and a call starts with the token of its name. What is suggested instead stands for something at that
place, and the first suggestion is offered as a replacement for just the name.
-/

namespace Shading

open List

open Surface (Occurrence occurrencesAt occurrencesIn occurrencesFrom)

variable {report : Diagnostic}

namespace Surface

/-- The text spells a name where it is used. -/
theorem spells_of_mem_occurrences {source : SourceText} {occurrence : Occurrence}
    (member : occurrence ∈ occurrences (read source).1) :
    source.Spells occurrence.span occurrence.name := by
  have tokens := (read_takes source).occurrences.trans (cursorAt_sublist source)
  have token := tokens.subset (mem_map_of_mem member)
  exact ((tokenize_lays source).each _ token).named _ rfl

/-- All words, where the text spells the names called. -/
def spelledCalls (source : SourceText) : Vocabulary where
  word _ := True
  literal _ := True
  call name span := source.Spells { span with length := name.utf8ByteSize } name

/-- A call starts with the token of its name. -/
theorem hasTokens_spelledCalls (source : SourceText) :
    (spelledCalls source).HasTokens (tokenize source).tokens := by
  intro located member
  refine ⟨by cases located.token <;> trivial, fun name closing same => ?_⟩
  have spelled := ((tokenize_lays source).each located member).named name same
  exact ⟨spelled.characters, rfl⟩

/-- Each expression uses names of all. -/
theorem Expr.identifiers_subset {expression : Expr} {expressions : List Expr}
    (member : expression ∈ expressions) :
    expression.identifiers ⊆ Expr.allIdentifiers expressions := by
  induction expressions with
  | nil => cases member
  | cons first rest ih =>
    rcases mem_cons.mp member with rfl | later
    · exact subset_append_left ..
    · exact subset_append_of_subset_right _ (ih later)

end Surface

namespace Typing

open Typed (Expr)

/-- A call of a name that is no function. -/
structure CallsNothing (vocabulary : Vocabulary) (context : Context) (name : String) (span : Span) :
    Prop where
  called : vocabulary.call name span
  undeclared : context.function? name = none
  foreign : Builtin.ofName? name = none

variable {vocabulary : Vocabulary} {context : Context} {name : String} {span : Span}

/-- Complaints call no function undefined. -/
theorem undefinedFunction_notMem_complaints (verdict : Option (Except TypingError Ty)) (place : Span) :
    .undefinedFunction name span ∉ complaints verdict place := by
  intro told
  obtain ⟨error, same⟩ := complaints_typing _ told
  cases same

/-- A call says so only of the name that it calls. -/
theorem Called.callsNothing {callee : Typed.Callee} {type : Option Ty} {word : String} {place : Span}
    {typeArguments : List TypeArgument} {arguments : List Expr} {before after : List Issue}
    (called : Called context word typeArguments arguments place callee type before after)
    (known : vocabulary.call word place) :
    (.undefinedFunction name span ∈ before → CallsNothing vocabulary context name span) ∧
      .undefinedFunction name span ∉ after := by
  constructor
  · intro told
    cases called with
    | user | struct | builtin | constructor => cases told
    | invalid => cases mem_singleton.mp told
    | undefined missing foreign =>
      cases mem_singleton.mp told
      exact ⟨known, missing, foreign⟩
  · intro told
    obtain ⟨error, _, _, same⟩ := called.after_typing _ told
    cases same

mutual

/-- What is said to be undefined is called and no function. -/
theorem Elaborates.callsNothing {expression : Surface.Expr} {typed : Expr} {log : List Issue} :
    Elaborates context expression typed log → vocabulary.HasExpr expression →
      .undefinedFunction name span ∈ log → CallsNothing vocabulary context name span
  | .coerce made _, known, told => made.callsNothing known told
  | .bool .., _, told | .number .., _, told | .bound .., _, told => by
    cases told
  | .unbound .., _, told => by cases mem_singleton.mp told
  | .binary _ _ left right _, known, told | .index _ left right _, known, told => by
    simp only [mem_append, undefinedFunction_notMem_complaints, or_false] at told
    rcases told with here | here
    · exact left.callsNothing known.1 here
    · exact right.callsNothing known.2 here
  | .unary _ _ made _, known, told => by
    simp only [mem_append, undefinedFunction_notMem_complaints, or_false] at told
    exact made.callsNothing known told
  | .call _ made called, known, told => by
    rcases mem_append.mp told with before | told
    · exact (called.callsNothing known.2.1).1 before
    · rcases mem_append.mp told with inside | after
      · exact made.callsNothing known.2.2.2 inside
      · exact absurd after (called.callsNothing known.2.1).2
  | .member _ _ made _ _, known, told => by
    simp only [mem_append, undefinedFunction_notMem_complaints, or_false] at told
    exact made.callsNothing known.1 told

/-- What is said to be undefined in lists is called and no function. -/
theorem ElaboratesAll.callsNothing {expressions : List Surface.Expr} {typed : List Expr}
    {log : List Issue} : ElaboratesAll context expressions typed log →
      vocabulary.HasExprs expressions → .undefinedFunction name span ∈ log →
        CallsNothing vocabulary context name span
  | .nil, _, told => by cases told
  | .cons first rest, known, told => by
    rcases mem_append.mp told with here | later
    · exact first.callsNothing known.1 here
    · exact rest.callsNothing known.2 later

end

end Typing

namespace Analysis

open Typing (Context)

variable {source : SourceText} {program : Surface.Program}
  {function : Function Surface.Expr WrittenType} {frame : Frame}

variable {name : String} {span : Span}

/-- The names that a program can call, but for constructors. -/
def callable (program : Surface.Program) : List String :=
  (Surface.functions program).map Function.name ++ (Surface.structs program).map Struct.name ++
    Builtin.every.map Builtin.name

/-- Known functions are declared. -/
theorem functions_signedContext (program : Surface.Program) :
    ∀ name ∈ (signedContext program).functions.map Prod.fst,
      name ∈ (Surface.functions program).map Function.name := by
  intro name member
  obtain ⟨entry, listed, rfl⟩ := mem_map.mp member
  have found : ((signedContext program).function? entry.1).isSome :=
    lookup_isSome_iff.mpr ⟨entry, listed, beq_self_eq_true _⟩
  rw [function?_signedContext, Option.isSome_map, find?_isSome] at found
  obtain ⟨function, declared, same⟩ := found
  exact mem_map.mpr ⟨function, declared, of_decide_eq_true same⟩

/-- Known structs are declared. -/
theorem structs_signedContext (program : Surface.Program) :
    ∀ name ∈ (signedContext program).structs.map Prod.fst,
      name ∈ (Surface.structs program).map Struct.name := by
  have defined : ∀ name ∈ (structContext program).structs.map Prod.fst,
      name ∈ (Surface.structs program).map Struct.name := by
    refine defineStructs_keeps (fun found : Context => ∀ name ∈ found.structs.map Prod.fst,
      name ∈ (Surface.structs program).map Struct.name) _ ?_ (forall_mem_nil _)
    intro before waiting struct member known name listed
    rw [defineStruct, Context.defineStruct, Context.define, map_append] at listed
    rcases mem_append.mp listed with earlier | here
    · exact known name ((filter_sublist.map Prod.fst).subset earlier)
    · rw [mem_singleton.mp here]
      exact mem_map_of_mem (mem_of_mem_distinctStructs member)
  have bound : (boundContext program).structs = (structContext program).structs :=
    List.foldlRecOn (motive := fun before : Context => before.structs = _) _ _ rfl
      fun before same uniform _ => same
  have signed : (signedContext program).structs = (boundContext program).structs := by
    refine List.foldlRecOn (motive := fun before : Context => before.structs = _) _ _ rfl ?_
    intro before same function _
    obtain ⟨functions, behind⟩ := behindSignature_defines before function
    rw [behind]
    exact same
  rw [signed, bound]
  exact defined

/-- An expression in a body, where the frame knows what is in scope and declared. -/
def StandsIn (program : Surface.Program) (function : Function Surface.Expr WrittenType) (frame : Frame)
    (expression : Surface.Expr) : Prop :=
  ∃ path, frame.Follows program function path ∧
    occurrencesAt function path expression.identifiers ⊆ Surface.occurrences program ∧
      ∃ scopes, frame.context = { signedContext program with scopes }

/-- A plain statement uses the names of its expressions. -/
theorem occurrencesIn_plain {statement : Surface.Stmt} (plain : statement.isBlock = false)
    (path : List Surface.Place) : occurrencesIn function path statement =
      occurrencesAt function path (Surface.Expr.allIdentifiers statement.expressions) := by
  cases statement with
  | block => cases plain
  | letBinding | varBinding | assignment | returning | evaluation => rfl

/-- The rest of a block, with the frame before it. -/
def StandsBefore (program : Surface.Program) (function : Function Surface.Expr WrittenType)
    (frame : Frame) (statements : List Surface.Stmt) : Prop :=
  ∃ outer before, frame.Follows program function (⟨before, statements⟩ :: outer) ∧
    occurrencesFrom function outer before statements ⊆ Surface.occurrences program ∧
      ∃ scopes, frame.context = { signedContext program with scopes }

/-- All expressions of a body stand in it. -/
theorem carried_standsIn (program : Surface.Program) (function : Function Surface.Expr WrittenType)
    (enclosing : Enclosing) :
    Carried enclosing (StandsIn program function) (fun _ => True) (StandsBefore program function) where
  enter := by
    rintro frame statements rest opening closing span ⟨outer, before, follows, listed, scopes, same⟩
    refine ⟨_, [], follows.enter statements, fun use member => ?_, scopes.push, ?_⟩
    · exact listed (mem_append_left _ member)
    · exact congrArg Context.push same
  behind := by
    rintro frame first rest ⟨outer, before, follows, listed, scopes, same⟩
    obtain ⟨later, behind⟩ := context_typeStatement enclosing frame first
    refine ⟨outer, _, follows.behind enclosing, fun use member => ?_, later, ?_⟩
    · exact listed (mem_append_right _ member)
    · rw [behind, same]
  around := by
    rintro frame first rest ⟨outer, before, follows, listed, known⟩ plain
    refine ⟨fun expression member => ⟨_, follows, fun use used => listed ?_, known⟩, .trivial _ _⟩
    refine mem_append_left _ ?_
    rw [occurrencesIn_plain plain]
    exact map_subset _ (Surface.Expr.identifiers_subset member) used

/-- The report is about a name that is spelled there, and offers its first suggestion; they are at
most two edits away, nearer ones first. -/
structure Corrects (source : SourceText) (report : Diagnostic) (name : String) (span : Span) :
    Prop where
  location : report.location = some span
  spelled : source.Spells span name
  fixes : report.fixes.map (fun fix => (fix.location, fix.replacement)) =
    report.suggestions.head?.toList.map fun best => (span, best)
  near : ∀ suggestion ∈ report.suggestions, Names.distance name suggestion ≤ 2
  ranked : report.suggestions.Pairwise fun first second =>
    Names.distance name first ≤ Names.distance name second

/-- The severity does not matter. -/
theorem Corrects.raised (fixed : Corrects source report name span) (severity : Severity) :
    Corrects source { report with severity } name span :=
  ⟨fixed.location, fixed.spelled, fixed.fixes, fixed.near, fixed.ranked⟩

/-- Suggestions are corrections. -/
theorem corrects_undefined (spelled : source.Spells span name) (code : Code) (message : String)
    (candidates : List String) :
    Corrects source (undefined code message (Names.similar name candidates Names.suggestionLimit) span)
      name span where
  location := rfl
  spelled := spelled
  fixes := by
    rw [undefined, map_map]
    rfl
  near suggestion member := (Names.mem_similar.mp member).2.2
  ranked := Names.pairwise_similar.imp fun ordered => by omega

/-- A report corrects an unbound name with bound ones, or a call of no function with names that can
be called. -/
structure Explains (source : SourceText) (program : Surface.Program) (report : Diagnostic) : Prop where
  used : report.code = .undefinedVariable → ∃ occurrence ∈ Surface.occurrences program,
    report.message = s!"undefined variable `{occurrence.name}`" ∧ occurrence.isBound program = false ∧
      Corrects source report occurrence.name occurrence.span ∧
        ∀ suggestion ∈ report.suggestions, { occurrence with name := suggestion }.isBound program
  called : report.code = .undefinedFunction → ∃ name span,
    report.message = s!"undefined function `{name}`" ∧
      name ∉ (Surface.functions program).map Function.name ∧ Builtin.ofName? name = none ∧
        Corrects source report name span ∧ ∀ suggestion ∈ report.suggestions,
          suggestion ∈ callable program

/-- Other codes need no explanation. -/
theorem explains_of_among {codes : List Code} (among : report.Among codes fun _ => True)
    (other : .undefinedVariable ∉ codes ∧ .undefinedFunction ∉ codes) :
    Explains source program report where
  used same := absurd (same ▸ among.code) other.1
  called same := absurd (same ▸ among.code) other.2

/-- What a report explains does not depend on its severity. -/
theorem Explains.raised (explained : Explains source program report) (severity : Severity) :
    Explains source program { report with severity } where
  used same := by
    obtain ⟨occurrence, used, message, free, fixed, bound⟩ := explained.used same
    exact ⟨occurrence, used, message, free, fixed.raised severity, bound⟩
  called same := by
    obtain ⟨name, span, message, undeclared, foreign, fixed, known⟩ := explained.called same
    exact ⟨name, span, message, undeclared, foreign, fixed.raised severity, known⟩

/-- What is told about an expression explains its names. -/
theorem explains_typed {expression : Surface.Expr} {hint : Option Scalar}
    (stands : StandsIn (Surface.read source).1 function frame expression)
    (spelled : (Surface.spelledCalls source).HasExpr expression) :
    ∀ report ∈ (frame.typed expression hint).log, Explains source (Surface.read source).1 report := by
  obtain ⟨path, follows, listed, scopes, known⟩ := stands
  refine forall_mem_map.mpr fun issue told => ?_
  have made : Typing.Elaborates frame.context expression _ _ :=
    Typing.elaborate_elaborates expression hint
  cases issue with
  | typing error span => exact explains_of_among (typing_among error trivial) (by decide)
  | undefinedFunction name span =>
    obtain ⟨called, undeclared, foreign⟩ := made.callsNothing spelled told
    refine ⟨?_, fun _ => ⟨name, _, rfl, ?_, foreign, corrects_undefined called _ _ _,
      fun suggestion member => ?_⟩⟩
    · intro same
      cases same
    · have missing : (signedContext (Surface.read source).1).function? name = none := by
        rw [known] at undeclared
        exact undeclared
      rw [function?_signedContext, Option.map_eq_none_iff, find?_eq_none] at missing
      intro declared
      obtain ⟨function, listed, same⟩ := mem_map.mp declared
      exact missing function listed (decide_eq_true same)
    · have candidate := (Names.mem_similar.mp member).1
      rw [known] at candidate
      simp only [callable, mem_append] at candidate ⊢
      rcases candidate with (declared | declared) | builtin
      · exact .inl (.inl (functions_signedContext _ _ declared))
      · exact .inl (.inr (structs_signedContext _ _ declared))
      · exact .inr builtin
  | unresolved name span =>
    have entry : (name, span) ∈ frame.context.unbound expression.identifiers := by
      rw [← made.unresolved]
      exact mem_filterMap.mpr ⟨_, told, rfl⟩
    obtain ⟨used, free⟩ := mem_filter.mp entry
    have occurs := listed (mem_map_of_mem used)
    unfold Frame.report
    dsimp only
    split
    · exact explains_of_among (.pair .useBeforeDeclaration (mem_singleton_self _) rfl rfl trivial
        trivial) (by decide)
    · have spelled := Surface.spells_of_mem_occurrences occurs
      refine ⟨fun _ => ⟨_, occurs, rfl, ?_, corrects_undefined spelled _ _ _,
        fun suggestion member => ?_⟩, ?_⟩
      · rw [← follows.bound, ← Option.not_isNone, free]
        rfl
      · have visible := (Names.mem_similar.mp member).1
        rw [← follows.bound]
        exact (Scopes.mem_visibleNames _ _).mp visible
      · intro same
        cases same

/-- All reports about a program explain its undefined names. -/
theorem explains_typeProgram (source : SourceText) :
    ∀ report ∈ (typeProgram (Surface.read source).1).log,
      Explains source (Surface.read source).1 report := by
  refine forall_log_typeProgram (.trivial _) (fun _ _ => ⟨trivial, fun _ _ => trivial⟩)
    (fun report among => explains_of_among among (by decide)) fun function member => ?_
  have read : (Surface.spelledCalls source).HasStmts function.body.statements :=
    (Surface.read_of_hasTokens (Surface.hasTokens_spelledCalls source) _
      (Surface.mem_functions.mp member)).body
  have start : StandsBefore (Surface.read source).1 function (bodyFrame (signedContext _) function
      (declaredSignature (boundContext (Surface.read source).1) function)) function.body.statements :=
    ⟨[], [], follows_start (bindsUniforms_signedContext _) (by simp),
      fun use used => mem_flatMap.mpr ⟨function, member, used⟩, context_bodyFrame _ _ _⟩
  refine ((carried_standsIn _ function _).typeStatements _ start).forall_log
    (fun frame expression listed stands hint => explains_typed stands ?_)
    fun report among => explains_of_among among (by decide)
  exact hasExpr_of_mem_allExpressions _ read expression listed

end Analysis

/-- Fixes of undefined names are precise. Every report that calls a variable or function undefined
stands where the text spells the name. It has a fix if and only if it has suggestions, and then one,
which replaces just the name by the first of them. They are at most two edits away, nearer ones
first. For a variable, which is not bound there, each is bound; for a function, neither declared nor
builtin, each is a declared function, a declared struct or a builtin function. -/
theorem undefined_names_are_corrected (source : SourceText) (options : Options) :
    ∀ report ∈ (check source options).diagnostics ++ (check source options).hints,
      Analysis.Explains source (Surface.read source).1 report := by
  refine forall_check (fun report member => ?_) (Analysis.explains_typeProgram source) ?_ options
  · exact Analysis.explains_of_among ⟨(Surface.read_among source report member).code, fun _ _ => trivial⟩
      (by decide)
  · intro report explained
    unfold Diagnostic.promote
    split
    · exact explained.raised .error
    · exact explained

/-- A misspelt variable and a misspelt function are corrected. -/
theorem misspelt_names_are_corrected :
    let source : SourceText :=
      ⟨"tint.shade", "fn tint(color: f32) -> f32 \x7b return clmp(colr, 0.0, 1.0); \x7d"⟩
    ((check source {}).diagnostics.map fun report => (report.code, report.location)) =
        [(.undefinedFunction, some ⟨1, 37, 36, 4⟩), (.undefinedVariable, some ⟨1, 42, 41, 4⟩),
          (.noEntryPoints, none)] ∧
      ∀ report ∈ (check source {}).diagnostics,
        Analysis.Explains source (Surface.read source).1 report := by
  intro source
  refine ⟨by decide +kernel, fun report member => ?_⟩
  exact undefined_names_are_corrected source {} report (mem_append_left _ member)

end Shading
