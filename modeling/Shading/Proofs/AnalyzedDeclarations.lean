import Shading.Analysis

/-!
# The declarations of an analyzed program

The loops over declarations carry a context along. What a written type stands for depends on the structs
of the context alone. So every uniform and every signature is typed as if it stood alone behind the
structs, and what is reported about all of them is what is reported about each.
-/

namespace Shading.Analysis

open List

open Typing (Context)
open Typed (DeclaredType)

variable {context : Context}

/-- What a resolution gives is what the name stands for. -/
theorem resolve?_of_resolution {waiting : List String} {written : WrittenType} {type : Ty}
    (resolved : resolution context waiting written = .resolved type) :
    context.resolve? written = some type := by
  unfold resolution at resolved
  unfold Context.resolve?
  split at resolved
  · rename_i found accepted
    cases resolved
    rw [accepted]
    rfl
  · split at resolved <;> cases resolved
  · cases resolved

/-- An ascription has the same meaning with and without reports. -/
theorem value_declaredType (context : Context) (written : WrittenType) :
    (declaredType context written).value = declaredSilently context written := by
  unfold declaredType
  cases resolved : resolution context [] written with
  | resolved type =>
    rw [declaredSilently, resolve?_of_resolution resolved]
    rfl
  | pending | unknown | invalid =>
    have unresolved : context.resolve? written = none := by
      unfold resolution at resolved
      unfold Context.resolve?
      split at resolved
      · cases resolved
      · rename_i failed
        rw [failed]
        rfl
      · rename_i failed
        rw [failed]
        rfl
    rw [declaredSilently, unresolved]
    rfl

/-- A declared type is reported for its resolution. -/
theorem log_declaredType (context : Context) (written : WrittenType) :
    (declaredType context written).log =
      (resolution context [] written).reports context written := by
  unfold declaredType
  cases resolution context [] written with
  | resolved | pending | unknown | invalid => rfl

/-- Types are resolved by structs. -/
theorem declaredType_congr {other : Context} (same : context.structs = other.structs) :
    declaredType context = declaredType other := by
  funext written
  unfold declaredType resolution Resolution.reports Context.named? Context.struct?
  rw [same]

section Rounds

variable (holds : Context → Prop) {structs : List (Struct WrittenType)}

/-- A round keeps what definitions keep, and some structs wait. -/
theorem structRound_keeps {waiting : List String} (step : ∀ context, ∀ struct ∈ structs,
      holds context → holds (defineStruct context struct (resolveFields context waiting struct)))
    (start : holds context) : holds (structRound waiting context structs).value.1 ∧
      (structRound waiting context structs).value.2 ⊆ structs := by
  induction structs generalizing context with
  | nil => exact ⟨start, nofun⟩
  | cons first rest ih =>
    have later : ∀ context, ∀ struct ∈ rest, holds context →
        holds (defineStruct context struct (resolveFields context waiting struct)) :=
      fun context struct member => step context struct (mem_cons_of_mem _ member)
    unfold structRound
    dsimp only
    split
    · obtain ⟨kept, blocked⟩ := ih later start
      exact ⟨kept, cons_subset_cons first blocked⟩
    · obtain ⟨kept, blocked⟩ := ih later (step context first mem_cons_self start)
      exact ⟨kept, subset_cons_of_subset first blocked⟩

/-- Structs in circles keep what definitions keep. -/
theorem defineCyclic_keeps {waiting : List String} (step : ∀ context, ∀ struct ∈ structs,
      holds context → holds (defineStruct context struct (resolveFields context waiting struct)))
    (start : holds context) : holds (defineCyclic waiting context structs).value := by
  induction structs generalizing context with
  | nil => exact start
  | cons first rest ih =>
    exact ih (fun context struct member => step context struct (mem_cons_of_mem _ member))
      (step context first mem_cons_self start)

/-- All rounds keep what definitions keep. -/
theorem defineStructs_keeps (bound : Nat) (step : ∀ context waiting, ∀ struct ∈ structs,
      holds context → holds (defineStruct context struct (resolveFields context waiting struct)))
    (start : holds context) : holds (defineStructs bound context structs).value := by
  induction bound generalizing context structs with
  | zero => exact start
  | succ bound ih =>
    unfold defineStructs
    split
    · exact start
    · obtain ⟨kept, blocked⟩ :=
        structRound_keeps holds (fun context => step context (structs.map Struct.name)) start
      have later : ∀ middle waiting, ∀ struct ∈
          (structRound (structs.map Struct.name) context structs).value.2, holds middle →
          holds (defineStruct middle struct (resolveFields middle waiting struct)) :=
        fun middle waiting struct member => step middle waiting struct (blocked member)
      simp only [Logged.value_bind]
      split
      · exact defineCyclic_keeps holds (fun middle => later middle _) kept
      · exact ih later kept

end Rounds

/-- Distinct structs are structs. -/
theorem mem_of_mem_distinctStructs {seen : List String} {structs : List (Struct WrittenType)}
    {struct : Struct WrittenType} (member : struct ∈ distinctStructs seen structs) :
    struct ∈ structs := by
  induction structs generalizing seen with
  | nil => exact member
  | cons first rest ih =>
    unfold distinctStructs at member
    split at member
    · exact mem_cons_of_mem _ (ih member)
    · rcases mem_cons.mp member with same | later
      · rw [same]
        exact mem_cons_self
      · exact mem_cons_of_mem _ (ih later)

/-- The structs of a program are defined, and nothing else is. -/
theorem collectStructs_defines (program : Surface.Program) (context : Context) :
    ∃ defined, (collectStructs program context).value.2 = { context with structs := defined } := by
  refine defineStructs_keeps (fun found => ∃ defined, found = { context with structs := defined }) _ ?_
    ⟨_, rfl⟩
  rintro _ waiting struct member ⟨defined, rfl⟩
  exact ⟨_, rfl⟩

/-- A uniform with its type. -/
abbrev typedUniform (context : Context) (uniform : Uniform WrittenType) : Uniform DeclaredType :=
  { name := uniform.name, ascription := declaredSilently context uniform.ascription
    group := uniform.group, binding := uniform.binding, visibility := uniform.visibility
    span := uniform.span }

/-- The context behind a uniform. -/
abbrev behindUniform (context : Context) (uniform : Uniform WrittenType) : Context :=
  context.bind uniform.name ⟨context.resolve? uniform.ascription, false, uniform.span⟩

/-- Uniforms are typed one by one. -/
theorem value_collectEach (context : Context) (earlier : List (Uniform DeclaredType))
    (uniforms : List (Uniform WrittenType)) :
    (collectEach context earlier uniforms).value =
      (earlier ++ uniforms.map (typedUniform context), uniforms.foldl behindUniform context) := by
  induction uniforms generalizing context earlier with
  | nil => rw [map_nil, append_nil]; rfl
  | cons first rest ih =>
    simp only [collectEach, Logged.value_bind, value_declaredType]
    rw [ih, append_assoc]
    rfl

/-- Parameters are typed one by one. -/
theorem value_collectParameters (context : Context) (seen : List (String × Span))
    (slots : List (Slot WrittenType)) :
    (collectParameters context seen slots).value =
      slots.map fun slot => declaredSilently context slot.ascription := by
  induction slots generalizing seen with
  | nil => rfl
  | cons first rest ih =>
    simp only [collectParameters]
    split <;> simp only [Logged.value_bind, Logged.value_pure, value_declaredType, ih, map_cons]

/-- A parameter is reported before the others. -/
theorem log_collectParameters_cons (seen : List (String × Span)) (first : Slot WrittenType)
    (others : List (Slot WrittenType)) :
    (collectParameters context seen (first :: others)).log =
      match seen.lookup first.name with
      | some earlier => duplicateParameter first.name first.span earlier ::
          ((declaredType context first.ascription).log ++
            (collectParameters context seen others).log)
      | none => (declaredType context first.ascription).log ++
          (collectParameters context ((first.name, first.span) :: seen) others).log := by
  simp only [collectParameters]
  cases found : seen.lookup first.name <;> simp [Logged.write]

/-- A result is typed as written. -/
theorem value_collectResult (context : Context) (written : Option WrittenType) :
    (collectResult context written).value = written.map (declaredSilently context) := by
  cases written with
  | none => rfl
  | some written => exact congrArg some (value_declaredType context written)

/-- The types that are declared at a function. -/
abbrev declaredSignature (context : Context) (function : Function Surface.Expr WrittenType) :
    DeclaredSignature :=
  ⟨function.parameters.map fun slot => declaredSilently context slot.ascription,
    function.returnType.map (declaredSilently context)⟩

/-- The context behind the signature of a function. -/
def behindSignature (context : Context) (function : Function Surface.Expr WrittenType) : Context :=
  match context.function? function.name with
  | some _ => context
  | none => context.defineFunction function.name (declaredSignature context function).callable

/-- What is reported about the signature of a function. -/
def signatureReports (context : Context) (function : Function Surface.Expr WrittenType) :
    List Diagnostic :=
  (if 1 < (Attribute.stages function.attributes).length then
    [severalStages function.name function.span] else []) ++
  ((collectParameters context [] function.parameters).log ++
    (collectResult context function.returnType).log)

/-- Signatures define functions and nothing else. -/
theorem behindSignature_defines (context : Context) (function : Function Surface.Expr WrittenType) :
    ∃ functions, behindSignature context function = { context with functions := functions } := by
  unfold behindSignature
  split
  · exact ⟨_, rfl⟩
  · exact ⟨_, rfl⟩

/-- Signatures do not change declared types. -/
theorem declaredSignature_behind (context : Context) (function : Function Surface.Expr WrittenType) :
    declaredSignature (behindSignature context function) = declaredSignature context := by
  obtain ⟨functions, behind⟩ := behindSignature_defines context function
  rw [behind]
  rfl

/-- What is reported about a signature depends on structs. -/
theorem signatureReports_congr {other : Context} (same : context.structs = other.structs) :
    signatureReports context = signatureReports other := by
  have types := declaredType_congr same
  have parameters (seen : List (String × Span)) (slots : List (Slot WrittenType)) :
      collectParameters context seen slots = collectParameters other seen slots := by
    induction slots generalizing seen with
    | nil => rfl
    | cons first rest ih => simp only [collectParameters, types, ih]
  funext function
  unfold signatureReports collectResult
  rw [parameters, types]

/-- A signature is collected before the others. -/
theorem collectSignatures_cons (context : Context) (first : Function Surface.Expr WrittenType)
    (rest : List (Function Surface.Expr WrittenType)) :
    let later := collectSignatures (behindSignature context first) rest
    collectSignatures context (first :: rest) =
      ⟨(declaredSignature context first :: later.value.1, later.value.2),
        signatureReports context first ++ later.log⟩ := by
  have flat (stages parameters result later : List Diagnostic) :
      stages ++ (parameters ++ (result ++ (later ++ []))) = stages ++ (parameters ++ result) ++ later := by
    simp
  simp only [collectSignatures, behindSignature, declaredSignature, signatureReports,
    ← value_collectParameters context [], ← value_collectResult]
  split
  · exact congrArg (Logged.mk _) (flat [_] _ _ _)
  · exact congrArg (Logged.mk _) (flat [] _ _ _)

/-- Signatures are collected one by one. -/
theorem collectSignatures_eq (context : Context) (functions : List (Function Surface.Expr WrittenType)) :
    collectSignatures context functions =
      ⟨(functions.map (declaredSignature context), functions.foldl behindSignature context),
        functions.flatMap (signatureReports context)⟩ := by
  induction functions generalizing context with
  | nil => rfl
  | cons first rest ih =>
    obtain ⟨defined, behind⟩ := behindSignature_defines context first
    have reports : signatureReports (behindSignature context first) = signatureReports context :=
      signatureReports_congr (by rw [behind])
    rw [collectSignatures_cons, ih, reports, declaredSignature_behind]
    rfl

/-- Functions are typed one by one. -/
theorem typeFunctions_eq (context : Context)
    (signature : Function Surface.Expr WrittenType → DeclaredSignature)
    (functions : List (Function Surface.Expr WrittenType)) :
    typeFunctions context (functions.zip (functions.map signature)) =
      ⟨functions.map fun function => (typeFunction context function (signature function)).value,
        functions.flatMap fun function => (typeFunction context function (signature function)).log⟩ := by
  induction functions with
  | nil => rfl
  | cons first rest ih =>
    simp only [map_cons, zip_cons_cons, typeFunctions, ih, bind, pure, append_nil]
    rfl

/-- The context that knows the structs of a program. -/
def structContext (program : Surface.Program) : Context := (collectStructs program .empty).value.2

/-- The context that knows the structs and uniforms of a program. -/
def boundContext (program : Surface.Program) : Context :=
  (Surface.uniforms program).foldl behindUniform (structContext program)

/-- The context that knows the declarations of a program. -/
def signedContext (program : Surface.Program) : Context :=
  (Surface.functions program).foldl behindSignature (boundContext program)

/-- A function of a program, typed behind all declarations. -/
def typedFunction (program : Surface.Program) (function : Function Surface.Expr WrittenType) :
    Logged Diagnostic TypedFunction :=
  typeFunction (signedContext program) function (declaredSignature (boundContext program) function)

/-- What is reported about typed functions as a whole. -/
def usageReports (functions : List TypedFunction) : List Diagnostic :=
  entryPointReports functions ++ (unusedReports functions ++ functions.flatMap performanceReports)

section Program

variable (program : Surface.Program)

/-- The uniforms of a program are typed behind its structs. -/
theorem value_collectUniforms :
    (collectUniforms program (structContext program)).value =
      ((Surface.uniforms program).map (typedUniform (structContext program)), boundContext program) :=
  value_collectEach (structContext program) [] (Surface.uniforms program)

/-- The declarations of a program are typed one for one. -/
theorem typeProgram_eq :
    let functions := (Surface.functions program).map fun function => (typedFunction program function).value
    typeProgram program =
      ⟨{ functions, structs := (collectStructs program .empty).value.1
         uniforms := (Surface.uniforms program).map (typedUniform (structContext program))
         entryPoints := entryPoints functions },
        repeatedDeclarations program ++ ((collectStructs program .empty).log ++
          ((collectUniforms program (structContext program)).log ++
            ((Surface.functions program).flatMap (signatureReports (boundContext program)) ++
              (((Surface.functions program).flatMap fun function => (typedFunction program function).log) ++
                usageReports functions))))⟩ := by
  have uniforms := value_collectUniforms program
  unfold structContext at uniforms
  simp only [typeProgram, bind, pure, Logged.write, uniforms, collectSignatures_eq, typeFunctions_eq,
    append_nil]
  rfl

/-- The structs of a program are collected first. -/
theorem structs_typeProgram :
    (typeProgram program).value.structs = (collectStructs program .empty).value.1 := rfl

/-- The uniforms of a program are typed behind its structs. -/
theorem uniforms_typeProgram :
    (typeProgram program).value.uniforms =
      (Surface.uniforms program).map (typedUniform (structContext program)) := by
  rw [typeProgram_eq]

/-- The functions of a program are typed behind all declarations. -/
theorem functions_typeProgram :
    (typeProgram program).value.functions =
      (Surface.functions program).map fun function => (typedFunction program function).value := by
  rw [typeProgram_eq]

end Program

end Shading.Analysis
