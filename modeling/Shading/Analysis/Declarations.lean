import Shading.Analysis.Reports

/-!
# Declared names and types

The structs, uniforms and function signatures of a program enter the context in that order. Structs
may refer to structs that are declared later, so they are resolved in rounds: each round defines
those whose fields no longer wait for another struct. Structs that still wait when a round defines
nothing contain one another.
-/

namespace Shading.Analysis

open Typing (Binding Context)
open Typed (DeclaredType)

/-- What is known of a written type. -/
inductive Resolution where
  | resolved (type : Ty)
  /-- It refers to a struct that is not defined yet. -/
  | pending
  | unknown (name : String)
  | invalid (message : String)

/-- Resolves a written type, where structs in `waiting` come later. -/
def resolution (context : Context) (waiting : List String) (written : WrittenType) : Resolution :=
  match written.resolve context.named? with
  | .ok type => .resolved type
  | .error (.unknown missing) =>
    if missing.arguments.isEmpty && waiting.contains missing.name then .pending
    else .unknown missing.name
  | .error error => .invalid error.message

/-- Whether a resolution has to wait. -/
def Resolution.isPending : Resolution → Bool
  | .pending => true
  | _ => false

/-- The reports about a type that is not resolved. -/
def Resolution.reports (context : Context) (written : WrittenType) : Resolution → List Diagnostic
  | .unknown name => [unknownType name (context.structs.map Prod.fst) written.span]
  | .invalid message => [invalidType written.text message written.span]
  | .resolved _ | .pending => []

/-- Resolves an ascription and reports what is wrong with it. -/
def declaredType (context : Context) (written : WrittenType) : Logged Diagnostic DeclaredType :=
  match resolution context [] written with
  | .resolved type => return ⟨some type, written.text⟩
  | other => do
    Logged.write (other.reports context written)
    return ⟨none, written.text⟩

/-- Resolves an ascription without reports. -/
def declaredSilently (context : Context) (written : WrittenType) : DeclaredType :=
  ⟨context.resolve? written, written.text⟩

/-- Reports names in `seen`, which tells where each was first. -/
def repeated (report : String → Span → Span → Diagnostic) (seen : List (String × Span)) :
    List (String × Span) → List Diagnostic
  | [] => []
  | (name, span) :: rest =>
    match seen.lookup name with
    | some first => report name span first :: repeated report seen rest
    | none => repeated report ((name, span) :: seen) rest

/-- Reports top-level names that are declared again. -/
def repeatedDeclarations (program : Surface.Program) : List Diagnostic :=
  repeated duplicateDeclaration []
    (program.map fun declaration => (declaration.name, declaration.span))

/-- The structs of a program, the first of each name. -/
def distinctStructs (seen : List String) : List (Struct WrittenType) → List (Struct WrittenType)
  | [] => []
  | first :: rest =>
    if seen.contains first.name then distinctStructs seen rest
    else first :: distinctStructs (first.name :: seen) rest

/-- Reports about the fields of a struct as such. -/
def fieldReports (struct : Struct WrittenType) : List Diagnostic :=
  (if struct.fields.isEmpty then [emptyStruct struct.name struct.span] else []) ++
    repeated (fun field span first => duplicateField field struct.name span first) []
      (struct.fields.map fun field => (field.name, field.span))

/-- The resolved fields of a struct, the first of each name. -/
def resolvedFields : List (Slot WrittenType × Resolution) → List (String × Ty)
  | [] => []
  | (field, .resolved type) :: rest =>
    (field.name, type) :: (resolvedFields rest).filter (·.1 ≠ field.name)
  | _ :: rest => resolvedFields rest

/-- Resolves the fields of a struct. -/
def resolveFields (context : Context) (waiting : List String) (struct : Struct WrittenType) :
    List (Slot WrittenType × Resolution) :=
  struct.fields.map fun field => (field, resolution context waiting field.ascription)

/-- The context with a struct of the resolved fields. -/
def defineStruct (context : Context) (struct : Struct WrittenType)
    (fields : List (Slot WrittenType × Resolution)) : Context :=
  context.defineStruct struct.name (.struct struct.name (resolvedFields fields))

/-- Defines the structs that do not wait; gives the context and those that still do. -/
def structRound (waiting : List String) (context : Context) :
    List (Struct WrittenType) → Logged Diagnostic (Context × List (Struct WrittenType))
  | [] => return (context, [])
  | first :: rest =>
    let fields := resolveFields context waiting first
    if fields.any fun (_, resolution) => resolution.isPending then do
      let (context, blocked) ← structRound waiting context rest
      return (context, first :: blocked)
    else do
      Logged.write (fields.flatMap fun (field, resolution) =>
        resolution.reports context field.ascription)
      structRound waiting (defineStruct context first fields) rest

/-- Reports structs that contain one another and defines what is known of them. -/
def defineCyclic (waiting : List String) (context : Context) :
    List (Struct WrittenType) → Logged Diagnostic Context
  | [] => return context
  | first :: rest => do
    Logged.write [selfContainment first.name first.span]
    defineCyclic waiting (defineStruct context first (resolveFields context waiting first)) rest

/-- Defines structs in rounds, at most `bound` of them. -/
def defineStructs : (bound : Nat) → Context → List (Struct WrittenType) → Logged Diagnostic Context
  | 0, context, _ => return context
  | bound + 1, context, pending =>
    if pending.isEmpty then return context
    else do
      let waiting := pending.map Struct.name
      let (context, blocked) ← structRound waiting context pending
      if blocked.length = pending.length then defineCyclic waiting context blocked
      else defineStructs bound context blocked

/-- The typed structs of a program, and the context that knows them. -/
def collectStructs (program : Surface.Program) (context : Context) :
    Logged Diagnostic (List (Struct DeclaredType) × Context) := do
  let structs := distinctStructs [] (Surface.structs program)
  Logged.write (structs.flatMap fieldReports)
  let context ← defineStructs structs.length context structs
  let field (declared : Slot WrittenType) : Slot DeclaredType :=
    { attributes := declared.attributes, name := declared.name
      ascription := declaredSilently context declared.ascription, span := declared.span }
  let typed (declared : Struct WrittenType) : Struct DeclaredType :=
    { name := declared.name, fields := declared.fields.map field, span := declared.span }
  return (structs.map typed, context)

/-- Reports that an earlier uniform has the address of a later one. -/
def conflictReports (earlier : List (Uniform DeclaredType)) (later : Uniform WrittenType) :
    List Diagnostic :=
  (earlier.filter fun uniform => uniform.group = later.group && uniform.binding = later.binding).map
    fun uniform =>
      bindingConflict uniform.name later.name later.group later.binding later.span uniform.span

/-- Types uniforms and binds their names; `earlier` are those before them. -/
def collectEach (context : Context) (earlier : List (Uniform DeclaredType)) :
    List (Uniform WrittenType) → Logged Diagnostic (List (Uniform DeclaredType) × Context)
  | [] => return (earlier, context)
  | first :: rest => do
    let ascription ← declaredType context first.ascription
    Logged.write (conflictReports earlier first)
    let context := context.bind first.name ⟨ascription.resolved, false, first.span⟩
    let typed : Uniform DeclaredType :=
      { name := first.name, ascription, group := first.group, binding := first.binding
        visibility := first.visibility, span := first.span }
    collectEach context (earlier ++ [typed]) rest

/-- More uniforms than this earn a hint. -/
def packingThreshold : Nat := 16

/-- The hint to pack many uniforms, at the first one too many. -/
def packingReports (uniforms : List (Uniform DeclaredType)) : List Diagnostic :=
  match uniforms[packingThreshold]? with
  | some first => [uniformPacking uniforms.length first.span]
  | none => []

/-- The typed uniforms of a program, and the context that knows them. -/
def collectUniforms (program : Surface.Program) (context : Context) :
    Logged Diagnostic (List (Uniform DeclaredType) × Context) := do
  let (uniforms, context) ← collectEach context [] (Surface.uniforms program)
  Logged.write (packingReports uniforms)
  return (uniforms, context)

/-- The declared types of parameters and of the result. -/
structure DeclaredSignature where
  parameters : List DeclaredType
  returnType : Option DeclaredType

/-- Types parameters in order; `seen` tells where each name was seen first. -/
def collectParameters (context : Context) (seen : List (String × Span)) :
    List (Slot WrittenType) → Logged Diagnostic (List DeclaredType)
  | [] => return []
  | first :: rest => do
    let seen ← match seen.lookup first.name with
      | some earlier => do
        Logged.write [duplicateParameter first.name first.span earlier]
        pure seen
      | none => pure ((first.name, first.span) :: seen)
    let type ← declaredType context first.ascription
    let types ← collectParameters context seen rest
    return type :: types

/-- Types the result of a function. -/
def collectResult (context : Context) :
    Option WrittenType → Logged Diagnostic (Option DeclaredType)
  | some written => do
    let type ← declaredType context written
    return some type
  | none => return none

/-- What calls of a function have to look like. -/
def DeclaredSignature.callable (signature : DeclaredSignature) : Typing.Signature :=
  { parameters := signature.parameters.map DeclaredType.resolved
    returnType := signature.returnType.bind DeclaredType.resolved
    returnsValue := signature.returnType.isSome }

/-- Types and declares signatures; of one name the first can be called. -/
def collectSignatures (context : Context) :
    List (Function Surface.Expr WrittenType) →
      Logged Diagnostic (List DeclaredSignature × Context)
  | [] => return ([], context)
  | first :: rest => do
    if 1 < (Attribute.stages first.attributes).length then
      Logged.write [severalStages first.name first.span]
    let parameters ← collectParameters context [] first.parameters
    let returnType ← collectResult context first.returnType
    let signature : DeclaredSignature := ⟨parameters, returnType⟩
    let context := match context.function? first.name with
      | some _ => context
      | none => context.defineFunction first.name signature.callable
    let (signatures, context) ← collectSignatures context rest
    return (signature :: signatures, context)

end Shading.Analysis
