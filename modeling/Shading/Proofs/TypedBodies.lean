import Shading.Compilation
import Shading.Proofs.Annotations
import Shading.Proofs.StatementReports
import Shading.Proofs.Vocabulary

/-!
# Where typed expressions come from

Typed expressions are built from the words and literals of what was written, so what every step keeps
holds of all of them. Every expression of an analyzed program is a written expression, typed in some
context, and what was told about it is among the reports of the analysis: where these hold no error,
nothing.
-/

namespace Shading

open List

variable {source : SourceText} {good : Diagnostic → Prop}

namespace Typing

open Typed (Callee Expr)

/-- The words of a callee may occur; constructors are builtin. -/
def HasCallee (vocabulary : Vocabulary) : Callee → Prop
  | .builtin _ => True
  | .constructor written => ∃ name arguments span, written = (WrittenType.mk name arguments span).text ∧
      vocabulary.word name ∧ vocabulary.HasArguments arguments ∧ isConstructorName name
  | .struct name | .user name => vocabulary.word name

/-- A node made of words and literals that may occur. -/
def Made (vocabulary : Vocabulary) : Expr → Prop
  | .number literal type _ => vocabulary.literal literal ∧ type = some (.scalar literal.kind.scalar)
  | .identifier name _ _ | .member _ name _ _ _ => vocabulary.word name
  | .unary operator operand type _ =>
    type = operand.type.bind fun type => (unary operator type).toOption
  | .call callee _ _ _ => HasCallee vocabulary callee
  | .bool .. | .binary .. | .index .. => True

/-- A property that every step of typing keeps. -/
structure Kept (vocabulary : Vocabulary) (property : Expr → Prop) : Prop where
  coerce : ∀ target expression, property expression → property (expression.coerce target)
  node : ∀ node, Made vocabulary node → (∀ part ∈ node.parts, property part) → property node

/-- A call names what its callee is called by. -/
theorem Called.hasCallee {vocabulary : Vocabulary} {context : Context} {name : String}
    {typeArguments : List TypeArgument} {arguments : List Expr} {span : Span} {callee : Callee}
    {type : Option Ty} {before after : List Issue}
    (called : Called context name typeArguments arguments span callee type before after)
    (word : vocabulary.word name) (types : vocabulary.HasArguments typeArguments) :
    HasCallee vocabulary callee := by
  cases called with
  | user | struct | undefined => exact word
  | builtin => exact trivial
  | constructor known | invalid known => exact ⟨name, typeArguments, span, rfl, word, types, known⟩

section Kept

variable {vocabulary : Vocabulary} {property : Expr → Prop} {context : Context}

mutual

/-- What typing keeps holds of typed expressions. -/
theorem Elaborates.kept (kept : Kept vocabulary property) {expression : Surface.Expr} {typed : Expr}
    {log : List Issue} : Elaborates context expression typed log →
      vocabulary.HasExpr expression → property typed
  | .coerce made target, known => kept.coerce target _ (made.kept kept known)
  | .bool .., _ => kept.node _ trivial (forall_mem_nil _)
  | .number .., known => kept.node _ ⟨known, rfl⟩ (forall_mem_nil _)
  | .bound .., word | .unbound .., word => kept.node _ word (forall_mem_nil _)
  | .binary _ _ leftMade rightMade _, ⟨leftKnown, rightKnown⟩
  | .index _ leftMade rightMade _, ⟨leftKnown, rightKnown⟩ =>
    kept.node _ trivial (forall_mem_cons.mpr ⟨leftMade.kept kept leftKnown,
      forall_mem_singleton.mpr (rightMade.kept kept rightKnown)⟩)
  | .unary _ _ made given, known => by
    rw [given, Option.bind_map]
    exact kept.node _ rfl (forall_mem_singleton.mpr (made.kept kept known))
  | .call _ made called, ⟨word, _, types, known⟩ =>
    kept.node _ (called.hasCallee word types) (made.kept kept known)
  | .member _ _ made _ _, ⟨known, word⟩ =>
    kept.node _ word (forall_mem_singleton.mpr (made.kept kept known))

/-- What typing keeps holds of typed lists. -/
theorem ElaboratesAll.kept (kept : Kept vocabulary property) {expressions : List Surface.Expr}
    {typed : List Expr} {log : List Issue} : ElaboratesAll context expressions typed log →
      vocabulary.HasExprs expressions → ∀ argument ∈ typed, property argument
  | .nil, _ => forall_mem_nil _
  | .cons first rest, ⟨firstKnown, restKnown⟩ =>
    forall_mem_cons.mpr ⟨first.kept kept firstKnown, rest.kept kept restKnown⟩

end

end Kept

end Typing

namespace Analysis

open Typing (elaborate)

/-- A written expression typed in a frame, with what was told. -/
def TypedIn (frame : Frame) (written : List Surface.Expr) (log : List Diagnostic)
    (typed : Typed.Expr) : Prop :=
  ∃ (source : Surface.Expr) (hint : Option Scalar), source ∈ written ∧
    typed = (elaborate frame.context source hint).value ∧
      (elaborate frame.context source hint).log.map frame.report ⊆ log

/-- It is typed with the functions of a context. -/
def TypedFrom (context : Typing.Context) (written : List Surface.Expr) (log : List Diagnostic)
    (typed : Typed.Expr) : Prop :=
  ∃ frame : Frame, frame.context.functions = context.functions ∧ TypedIn frame written log typed

section

variable {frame : Frame} {written : List Surface.Expr} {log longer : List Diagnostic}
  {typed : Typed.Expr}

/-- More may be told. -/
theorem TypedIn.mono (typedIn : TypedIn frame written log typed) (told : log ⊆ longer) :
    TypedIn frame written longer typed := by
  obtain ⟨source, hint, member, same, reported⟩ := typedIn
  exact ⟨source, hint, member, same, List.Subset.trans reported told⟩

/-- What is typed comes from what is written. -/
theorem typedIn_typed (frame : Frame) (source : Surface.Expr) (hint : Option Scalar) :
    TypedIn frame [source] (frame.typed source hint).log (frame.typed source hint).value :=
  ⟨source, hint, by simp, rfl, List.Subset.refl _⟩

/-- Expressions typed in order are typed so. -/
theorem typedIn_of_interleaved {values : List Typed.Expr} {parts : List Diagnostic}
    (made : Interleaved (fun around _ => around = frame) (fun _ => True) written values parts) :
    ∀ typed ∈ values, TypedIn frame written parts typed := by
  intro typed found
  obtain ⟨_, source, listed, hint, rfl, same, told⟩ := made.exists_of_mem found
  exact ⟨source, hint, listed, same, told⟩

/-- An initial value is typed in its frame. -/
theorem typedIn_initialValue (frame : Frame) (expected : Option Ty) (value : Option Surface.Expr) :
    ∀ typed ∈ (initialValue frame expected value).value,
      TypedIn frame value.toList (initialValue frame expected value).log typed :=
  fun typed found => typedIn_of_interleaved
    (initialValue_interleaved expected (fun _ _ => rfl) fun _ _ _ => trivial)
    typed (Option.mem_toList.mpr found)

/-- A returned value is typed in its frame. -/
theorem typedIn_returnedValue (function : Enclosing) (frame : Frame) (span : Span)
    (value : Option Surface.Expr) :
    ∀ typed ∈ (returnedValue function frame span value).value,
      TypedIn frame value.toList (returnedValue function frame span value).log typed :=
  fun typed found => typedIn_of_interleaved
    (returnedValue_interleaved function trivial (fun _ _ => rfl) fun _ _ _ => trivial)
    typed (Option.mem_toList.mpr found)

end

/-- All frames of a body know the functions of one context. -/
theorem carried_functions (function : Enclosing) (context : Typing.Context) :
    Carried function (fun frame _ => frame.context.functions = context.functions) (fun _ => True)
      fun frame _ => frame.context.functions = context.functions where
  enter same := same
  behind {frame first _} same := by
    obtain ⟨scopes, behind⟩ := context_typeStatement function frame first
    rw [behind]
    exact same
  around same _ := ⟨fun _ _ => same, .trivial _ _⟩

section Bodies

variable (context : Typing.Context) (function : Function Surface.Expr WrittenType)
  (signature : DeclaredSignature)

/-- The frame at the start of a body, with the parameters. -/
abbrev bodyFrame : Frame :=
  Frame.enter ⟨bindParameters context function.parameters signature.parameters, []⟩
    function.body.statements

/-- The statements of a function, typed there. -/
abbrev typedBody : Logged Diagnostic (List TypedStatement) :=
  typeStatements ⟨function.name, signature.returnType.map Typed.DeclaredType.resolved⟩
    (bodyFrame context function signature) function.body.statements

/-- A parameter with its declared type. -/
abbrev typedSlot (slot : Slot WrittenType) (type : Typed.DeclaredType) : Slot Typed.DeclaredType :=
  { attributes := slot.attributes, name := slot.name, ascription := type, span := slot.span }

/-- A typed function has its declared types and its typed body. -/
theorem value_typeFunction :
    (typeFunction context function signature).value =
      { attributes := function.attributes
        name := function.name
        parameters := List.zipWith typedSlot function.parameters signature.parameters
        returnType := signature.returnType
        returnAttributes := function.returnAttributes
        body := ⟨(typedBody context function signature).value, function.body.opening,
          function.body.closing⟩
        span := function.span } := by
  simp only [typeFunction, Logged.value_bind]
  split <;> rfl

/-- About a function, its body and a missing return are told. -/
theorem log_typeFunction :
    (typeFunction context function signature).log =
      (typedBody context function signature).log ++
        if signature.returnType.isSome && !anyReturns function.body.statements then
          [missingReturn function.name function.span] else [] := by
  simp only [typeFunction, Logged.log_bind]
  split <;> simp [Logged.write]

/-- The body is typed in scopes of the context. -/
theorem context_bodyFrame :
    ∃ scopes, (bodyFrame context function signature).context = { context with scopes } := by
  obtain ⟨scopes, bound⟩ := context_bindParameters context function.parameters signature.parameters
  exact ⟨scopes.push, congrArg Typing.Context.push bound⟩

/-- Typed expressions come from those of the body. -/
theorem typedFrom_typedBody :
    ∀ typed ∈ Statement.allExpressions (typedBody context function signature).value,
      TypedFrom context (Statement.allExpressions function.body.statements)
        (typedBody context function signature).log typed := by
  intro typed member
  have known : (bodyFrame context function signature).context.functions = context.functions := by
    obtain ⟨scopes, same⟩ := context_bodyFrame context function signature
    rw [same]
  obtain ⟨frame, source, listed, hint, known, same, told⟩ :=
    ((carried_functions _ context).typeStatements _ known).exists_of_mem member
  exact ⟨frame, known, source, hint, listed, same, told⟩

/-- What holds of expressions and other reports holds of all in a body. -/
theorem forall_log_typedBody {good : Diagnostic → Prop}
    (issues : ∀ (frame : Frame) issue, good (frame.report issue))
    (others : ∀ report, report.Among statementCodes (fun _ => True) → good report) :
    ∀ report ∈ (typedBody context function signature).log, good report := by
  have known : (bodyFrame context function signature).context.functions = context.functions := by
    obtain ⟨scopes, same⟩ := context_bodyFrame context function signature
    rw [same]
  refine ((carried_functions _ context).typeStatements _ known).forall_log ?_ others
  exact fun frame expression _ _ hint => forall_mem_map.mpr fun issue _ => issues frame issue

end Bodies

/-- Typed expressions come from those of the program. -/
theorem typedFrom_typeProgram (program : Surface.Program) :
    ∀ function ∈ (typeProgram program).value.functions,
      ∃ written ∈ Surface.functions program,
        ∀ typed ∈ Statement.allExpressions function.body.statements,
          TypedFrom (signedContext program) (Statement.allExpressions written.body.statements)
            (typeProgram program).log typed := by
  intro function member
  rw [functions_typeProgram] at member
  obtain ⟨written, inside, rfl⟩ := mem_map.mp member
  refine ⟨written, inside, fun typed typedInside => ?_⟩
  rw [typedFunction, value_typeFunction] at typedInside
  obtain ⟨frame, known, here⟩ := typedFrom_typedBody _ _ _ typed typedInside
  refine ⟨frame, known, here.mono fun report told => ?_⟩
  have reported : report ∈ (typedFunction program written).log := by
    rw [typedFunction, log_typeFunction]
    exact mem_append_left _ told
  rw [typeProgram_eq]
  simp only [mem_append]
  exact .inr (.inr (.inr (.inr (.inl (mem_flatMap.mpr ⟨written, inside, reported⟩)))))

/-- The places of declarations have a property. -/
structure ProgramHeld (held : Span → Prop) (program : Surface.Program) : Prop where
  names : ∀ declaration ∈ program, held declaration.span
  structs : ∀ struct ∈ Surface.structs program, StructHeld held struct
  uniforms : ∀ uniform ∈ Surface.uniforms program, UniformHeld held uniform
  signatures : ∀ function ∈ Surface.functions program, SignatureHeld held function

/-- Any places will do. -/
theorem ProgramHeld.trivial (program : Surface.Program) : ProgramHeld (fun _ => True) program where
  names _ _ := True.intro
  structs _ _ := ⟨True.intro, fun _ _ => ⟨True.intro, True.intro⟩⟩
  uniforms _ _ := ⟨True.intro, True.intro⟩
  signatures _ _ := ⟨True.intro, fun _ _ => ⟨True.intro, True.intro⟩, fun _ _ => True.intro⟩

/-- The codes of structs and of functions as a whole. -/
abbrev declarationCodes : List Code := fieldCodes ++ signatureCodes ++ usageCodes ++ [.missingReturn]

/-- The codes of all but expressions in bodies. -/
abbrev outerCodes : List Code := declarationCodes ++ uniformCodes ++ statementCodes

/-- What holds of bodies and other reports holds of a program. -/
theorem forall_log_typeProgram {program : Surface.Program} {held : Span → Prop}
    (declared : ProgramHeld held program) (typed : ∀ function ∈ Surface.functions program,
      TypedHeld held (typedFunction program function).value)
    (others : ∀ report, report.Among outerCodes held → good report)
    (bodies : ∀ function ∈ Surface.functions program, ∀ report ∈ (typedBody (signedContext program)
      function (declaredSignature (boundContext program) function)).log, good report) :
    ∀ report ∈ (typeProgram program).log, good report := by
  have outer {codes : List Code} {log : List Diagnostic} (among : AllAmong codes held log)
      (known : codes ⊆ outerCodes) : ∀ report ∈ log, good report :=
    fun report member => others report (among.mono known report member)
  have usage := usageReports_among (forall_mem_map.mpr typed)
  have signatures : AllAmong signatureCodes held
      ((Surface.functions program).flatMap (signatureReports (boundContext program))) :=
    .flatMap fun function member => signatureReports_among (declared.signatures function member)
  rw [typeProgram_eq]
  simp only [forall_mem_append]
  refine ⟨outer (repeatedDeclarations_among declared.names) (by simp),
    outer (collectStructs_among declared.structs) (by simp),
    outer (collectUniforms_among declared.uniforms) (by simp), outer signatures (by simp), ?_,
    outer usage (by simp)⟩
  refine forall_mem_flatMap.mpr fun function member => ?_
  rw [typedFunction, log_typeFunction]
  refine forall_mem_append.mpr ⟨bodies function member, ?_⟩
  have missing : AllAmong [.missingReturn] held [missingReturn function.name function.span] :=
    .one (.single .missingReturn (by simp) rfl rfl (declared.signatures function member).name)
  exact outer missing.when (by simp)

/-- Reports told only about uniforms, bodies and functions. -/
theorem filter_typeProgram (program : Surface.Program) {keep : Diagnostic → Bool}
    (others : ∀ report, report.Among (fieldCodes ++ signatureCodes ++ [.missingReturn])
      (fun _ => True) → keep report = false) :
    (typeProgram program).log.filter keep =
      (collectUniforms program (structContext program)).log.filter keep ++
        (((Surface.functions program).flatMap fun function => (typedBody (signedContext program) function
          (declaredSignature (boundContext program) function)).log.filter keep) ++
            (usageReports (typeProgram program).value.functions).filter keep) := by
  have none {codes : List Code} {log : List Diagnostic} (among : AllAmong codes (fun _ => True) log)
      (known : codes ⊆ fieldCodes ++ signatureCodes ++ [.missingReturn]) : log.filter keep = [] :=
    filter_eq_nil_iff.mpr fun report member => by
      simp [others report (among.mono known report member)]
  have declared := ProgramHeld.trivial program
  have signatures : AllAmong signatureCodes (fun _ => True)
      ((Surface.functions program).flatMap (signatureReports (boundContext program))) :=
    .flatMap fun function member => signatureReports_among (declared.signatures function member)
  rw [typeProgram_eq]
  simp only [filter_append, filter_flatMap,
    none (repeatedDeclarations_among declared.names) (by simp),
    none (collectStructs_among declared.structs) (by simp), nil_append]
  rw [← filter_flatMap, none signatures (by simp), nil_append]
  congr 3
  funext function
  have missing : AllAmong [.missingReturn] (fun _ => True)
      [missingReturn function.name function.span] :=
    .one (.single .missingReturn (by simp) rfl rfl trivial)
  rw [typedFunction, log_typeFunction, filter_append, none missing.when (by simp), append_nil]

/-- Reports not told about functions as a whole. -/
theorem filter_usageReports (functions : List TypedFunction) {keep : Diagnostic → Bool}
    (others : ∀ report, report.Among usageCodes (fun _ => True) → keep report = false) :
    (usageReports functions).filter keep = [] :=
  filter_eq_nil_iff.mpr fun report member => by
    simp [others report (usageReports_among (fun _ _ => ⟨trivial, fun _ _ => trivial⟩) report member)]

/-- Hints are left out. -/
theorem diagnostics_of (program : Surface.Program) :
    (Analysis.of program).diagnostics =
      (typeProgram program).log.filter fun report => !isHint report := rfl

/-- What is told about an expression is an error. -/
theorem isError_report (frame : Frame) (issue : Typing.Issue) : (frame.report issue).isError := by
  cases issue with
  | typing | undefinedFunction => rfl
  | unresolved name span =>
    simp only [Frame.report]
    split <;> rfl

end Analysis

mutual

/-- The expressions of a statement have its words. -/
theorem hasExpr_of_mem_expressions {vocabulary : Vocabulary} : (statement : Surface.Stmt) →
    vocabulary.HasStmt statement → ∀ expression ∈ statement.expressions, vocabulary.HasExpr expression
  | .letBinding _ _ value _, ⟨_, _, has⟩ => by simpa [Statement.expressions] using has
  | .varBinding _ _ value _, ⟨_, _, has⟩ | .returning value _, has => fun expression member =>
    has expression (Option.mem_toList.mp member)
  | .assignment target value _, ⟨targetHas, valueHas⟩ => by
    simpa [Statement.expressions] using ⟨targetHas, valueHas⟩
  | .evaluation value _, has => fun expression member => by
    rwa [mem_singleton.mp member]
  | .block statements _ _ _, has => hasExpr_of_mem_allExpressions statements has

/-- The expressions of statements have their words. -/
theorem hasExpr_of_mem_allExpressions {vocabulary : Vocabulary} : (statements : List Surface.Stmt) →
    vocabulary.HasStmts statements →
      ∀ expression ∈ Statement.allExpressions statements, vocabulary.HasExpr expression
  | [], _ => nofun
  | first :: rest, ⟨has, restHas⟩ => by
    intro expression member
    rcases mem_append.mp member with here | later
    · exact hasExpr_of_mem_expressions first has expression here
    · exact hasExpr_of_mem_allExpressions rest restHas expression later

end

section Declarations

variable {program : Surface.Program}

/-- The functions of a program are its declarations of functions. -/
theorem Surface.mem_functions {function : Function Surface.Expr WrittenType} :
    function ∈ Surface.functions program ↔ .function function ∈ program := by
  refine mem_filterMap.trans ⟨?_, fun member => ⟨_, member, rfl⟩⟩
  rintro ⟨⟨⟩, member, ⟨⟩⟩
  exact member

/-- The structs of a program are its declarations of structs. -/
theorem Surface.mem_structs {struct : Struct WrittenType} :
    struct ∈ Surface.structs program ↔ .struct struct ∈ program := by
  refine mem_filterMap.trans ⟨?_, fun member => ⟨_, member, rfl⟩⟩
  rintro ⟨⟨⟩, member, ⟨⟩⟩
  exact member

/-- The uniforms of a program are its declarations of uniforms. -/
theorem Surface.mem_uniforms {uniform : Uniform WrittenType} :
    uniform ∈ Surface.uniforms program ↔ .uniform uniform ∈ program := by
  refine mem_filterMap.trans ⟨?_, fun member => ⟨_, member, rfl⟩⟩
  rintro ⟨⟨⟩, member, ⟨⟩⟩
  exact member

end Declarations

/-- Bodies are made of the words of source texts. -/
theorem hasStmts_of_mem_functions {function : Function Surface.Expr WrittenType}
    (member : function ∈ Surface.functions (Surface.read source).1) :
    Surface.written.HasStmts function.body.statements :=
  (Surface.read_hasDeclaration source _ (Surface.mem_functions.mp member)).body

/-- A checked program is the one that is read, analyzed. -/
theorem program_check (source : SourceText) (options : Options) :
    (check source options).program = (Analysis.typeProgram (Surface.read source).1).value := by
  unfold check
  cases Surface.read source with
  | mk program reports => rfl

/-- What holds of reading and analysis, also if strict, holds of all reports. -/
theorem forall_check (syntactic : ∀ report ∈ (Surface.read source).2, good report)
    (analyzed : ∀ report ∈ (Analysis.typeProgram (Surface.read source).1).log, good report)
    (promoted : ∀ report, good report → good report.promote) (options : Options) :
    ∀ report ∈ (check source options).diagnostics ++ (check source options).hints, good report := by
  have all : ∀ report ∈ (Surface.read source).2 ++ (Analysis.of (Surface.read source).1).diagnostics,
      good report :=
    forall_mem_append.mpr
      ⟨syntactic, fun report member => analyzed report (mem_filter.mp member).1⟩
  refine forall_mem_append.mpr
    ⟨?_, fun report member => analyzed report (mem_filter.mp member).1⟩
  intro report member
  unfold check at member
  dsimp only at member
  split at member
  · obtain ⟨original, listed, rfl⟩ := mem_map.mp member
    exact promoted original (all original listed)
  · exact all report member

/-- Errors of the analysis are errors of the check. -/
theorem hasErrors_check (options : Options) {report : Diagnostic}
    (told : report ∈ (Analysis.typeProgram (Surface.read source).1).log) (error : report.isError) :
    hasErrors (check source options).diagnostics = true := by
  have severity : report.severity = .error := of_decide_eq_true error
  have kept : report ∈ (Analysis.of (Surface.read source).1).diagnostics := by
    rw [Analysis.diagnostics_of]
    exact mem_filter.mpr ⟨told, by simp [Analysis.isHint, severity]⟩
  have promoted : report.promote = report := by simp [Diagnostic.promote, severity]
  refine any_eq_true.mpr ⟨report, ?_, error⟩
  simp only [check]
  split
  · exact mem_map.mpr ⟨report, mem_append_right _ kept, promoted⟩
  · exact mem_append_right _ kept

/-- What typing keeps holds of an analyzed program. -/
theorem Typing.Kept.typeProgram {property : Typed.Expr → Prop}
    (kept : Kept Surface.written property) (source : SourceText) :
    ∀ function ∈ (Analysis.typeProgram (Surface.read source).1).value.functions,
      ∀ expression ∈ Statement.allExpressions function.body.statements, property expression := by
  intro function member expression inside
  obtain ⟨declared, declaredInside, each⟩ := Analysis.typedFrom_typeProgram _ function member
  obtain ⟨frame, _, written, hint, writtenInside, rfl, _⟩ := each expression inside
  exact (elaborate_elaborates written hint).kept kept
    (hasExpr_of_mem_allExpressions _ (hasStmts_of_mem_functions declaredInside) written writtenInside)

/-- Without errors, an expression is typed from words of source texts, silently. -/
theorem typed_of_check {options : Options}
    (clean : hasErrors (check source options).diagnostics = false)
    {function : Function Typed.Expr Typed.DeclaredType}
    (member : function ∈ (check source options).program.functions) {expression : Typed.Expr}
    (inside : expression ∈ Statement.allExpressions function.body.statements) :
    ∃ context written hint, Surface.written.HasExpr written ∧
      expression = (Typing.elaborate context written hint).value ∧
        (Typing.elaborate context written hint).log = [] := by
  rw [program_check] at member
  obtain ⟨declared, declaredInside, each⟩ :=
    Analysis.typedFrom_typeProgram (Surface.read source).1 function member
  obtain ⟨frame, _, written, hint, writtenInside, same, told⟩ := each expression inside
  refine ⟨frame.context, written, hint, ?_, same, ?_⟩
  · exact hasExpr_of_mem_allExpressions _ (hasStmts_of_mem_functions declaredInside) written
      writtenInside
  · cases log : (Typing.elaborate frame.context written hint).log with
    | nil => rfl
    | cons issue rest =>
      have errors := hasErrors_check options (told (by simp [log])) (Analysis.isError_report frame issue)
      rw [clean] at errors
      cases errors

end Shading
