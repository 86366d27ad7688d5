import Shading.Analysis.Declarations

/-!
# Function bodies

The statements of a body are typed in order. Each block opens a scope; what it binds is forgotten
behind it. A name that is bound further down in a block, or in a block around it, is told apart from
one that is not bound at all.
-/

namespace Shading.Analysis

open Typing (Binding Context Issue scalarHint)
open Typed (DeclaredType)

/-- A typed statement. -/
abbrev TypedStatement : Type := Statement Typed.Expr DeclaredType

/-- Where a statement stands in its function. -/
structure Frame where
  context : Context
  /-- For each block around the statement, from the inside out, the names that statements further
  down declare. -/
  upcoming : List (List (String × Span))

/-- The function around a statement. -/
structure Enclosing where
  name : String
  /-- The written return type, if any; it may not have a meaning. -/
  returnType : Option (Option Ty)

namespace Frame

/-- Where a name is declared further down. -/
def later? (frame : Frame) (name : String) : Option Span :=
  frame.upcoming.findSome? fun level => level.lookup name

/-- The report about an issue with an expression. -/
def report (frame : Frame) : Issue → Diagnostic
  | .typing error span => error.diagnostic span
  | .unresolved name span =>
    match frame.later? name with
    | some declared => useBeforeDeclaration name span declared
    | none => undefinedVariable name frame.context.scopes.visibleNames span
  | .undefinedFunction name span =>
    undefinedFunction name
      (frame.context.functions.map Prod.fst ++ frame.context.structs.map Prod.fst) span

/-- Types an expression. -/
def typed (frame : Frame) (expression : Surface.Expr) (hint : Option Scalar) :
    Logged Diagnostic Typed.Expr :=
  let result := Typing.elaborate frame.context expression hint
  ⟨result.value, result.log.map frame.report⟩

/-- Reports that a name is bound again in the innermost scope. -/
def redeclarationReports (frame : Frame) (name : String) (span : Span) : List Diagnostic :=
  if frame.context.scopes.bindsHere name then
    [redeclaration name span ((frame.context.lookup? name).map Binding.span)]
  else []

/-- The frame behind the declaration of a name. -/
def declare (frame : Frame) (name : String) (binding : Binding) : Frame where
  context := frame.context.bind name binding
  upcoming := match frame.upcoming with
    | level :: outer => level.eraseP (·.1 = name) :: outer
    | [] => []

/-- The names that statements declare, in order. -/
def declaredNames (statements : List Surface.Stmt) : List (String × Span) :=
  statements.filterMap fun
    | .letBinding name _ _ span => some (name, span)
    | .varBinding name _ _ span => some (name, span)
    | _ => none

/-- The frame at the start of a block. -/
def enter (frame : Frame) (statements : List Surface.Stmt) : Frame where
  context := frame.context.push
  upcoming := declaredNames statements :: frame.upcoming

end Frame

/-- Reports that a value does not have the expected type. -/
def mismatchReports (report : Ty → Ty → Span → Diagnostic) (expected : Option Ty)
    (value : Typed.Expr) : List Diagnostic :=
  match expected, value.type with
  | some expected, some found =>
    if expected = found then [] else [report expected found value.span]
  | _, _ => []

/-- The variable that an assignment to an expression changes. -/
def rootName? : Typed.Expr → Option String
  | .identifier name _ _ => some name
  | .member base _ _ _ _ => rootName? base
  | .index base _ _ _ => rootName? base
  | _ => none

/-- Reports that an expression cannot be assigned to. -/
def targetReports (context : Context) (target : Typed.Expr) : List Diagnostic :=
  match rootName? target with
  | none => [invalidTarget target.span]
  | some name =>
    match context.lookup? name with
    | some binding =>
      if binding.isMutable then [] else [immutableTarget name target.span binding.span]
    | none => []

/-- Types an ascription, if there is one. -/
def ascribed (frame : Frame) : Option WrittenType → Logged Diagnostic (Option DeclaredType)
  | some written => do
    let declared ← declaredType frame.context written
    return some declared
  | none => return none

/-- Types the initial value of a variable, if there is one. -/
def initialValue (frame : Frame) (expected : Option Ty) :
    Option Surface.Expr → Logged Diagnostic (Option Typed.Expr)
  | some value => do
    let value ← frame.typed value (scalarHint expected)
    Logged.write (mismatchReports mismatch expected value)
    return some value
  | none => return none

/-- Types the value that is returned. -/
def returnedValue (function : Enclosing) (frame : Frame) (span : Span) :
    Option Surface.Expr → Logged Diagnostic (Option Typed.Expr)
  | some value =>
    match function.returnType with
    | some expected => do
      let value ← frame.typed value (scalarHint expected)
      Logged.write (mismatchReports (wrongReturn function.name) expected value)
      return some value
    | none => do
      let value ← frame.typed value none
      Logged.write [unexpectedReturn function.name value.span]
      return some value
  | none => do
    match function.returnType with
    | some expected => Logged.write [emptyReturn function.name expected span]
    | none => pure ()
    return none

mutual

/-- Types a statement and gives the frame behind it. -/
def typeStatement (function : Enclosing) (frame : Frame) :
    Surface.Stmt → Logged Diagnostic (TypedStatement × Frame)
  | .letBinding name ascription value span => do
    let ascription ← ascribed frame ascription
    let expected := ascription.bind DeclaredType.resolved
    let value ← frame.typed value (scalarHint expected)
    Logged.write (mismatchReports mismatch expected value)
    Logged.write (frame.redeclarationReports name span)
    let frame := frame.declare name ⟨expected.or value.type, false, span⟩
    return (.letBinding name ascription value span, frame)
  | .varBinding name ascription value span => do
    let ascription ← ascribed frame ascription
    let expected := ascription.bind DeclaredType.resolved
    let value ← initialValue frame expected value
    if ascription.isNone && value.isNone then
      Logged.write [untypedVariable name span]
    Logged.write (frame.redeclarationReports name span)
    let frame := frame.declare name ⟨expected.or (value.bind Typed.Expr.type), true, span⟩
    return (.varBinding name ascription value span, frame)
  | .assignment target value span => do
    let target ← frame.typed target none
    let value ← frame.typed value (scalarHint target.type)
    Logged.write (targetReports frame.context target)
    Logged.write (mismatchReports mismatch target.type value)
    return (.assignment target value span, frame)
  | .returning value span => do
    let value ← returnedValue function frame span value
    return (.returning value span, frame)
  | .evaluation value span => do
    let value ← frame.typed value none
    return (.evaluation value span, frame)
  | .block statements opening closing span => do
    let statements ← typeStatements function (frame.enter statements) statements
    return (.block statements opening closing span, frame)

/-- Types statements in order. -/
def typeStatements (function : Enclosing) (frame : Frame) :
    List Surface.Stmt → Logged Diagnostic (List TypedStatement)
  | [] => return []
  | first :: rest => do
    let (first, frame) ← typeStatement function frame first
    let rest ← typeStatements function frame rest
    return first :: rest

end

mutual

/-- Whether a statement is a `return` or a block that contains one. -/
def returns {Expression Ascription : Type} : Statement Expression Ascription → Bool
  | .returning _ _ => true
  | .block statements _ _ _ => anyReturns statements
  | _ => false

/-- Whether one of the statements is a `return` or a block that contains one. -/
def anyReturns {Expression Ascription : Type} : List (Statement Expression Ascription) → Bool
  | [] => false
  | first :: rest => returns first || anyReturns rest

end

/-- The context with the parameters of a function bound in a scope of their own. -/
def bindParameters (context : Context) (parameters : List (Slot WrittenType))
    (types : List DeclaredType) : Context :=
  (parameters.zip types).foldl
    (fun context (parameter, type) =>
      context.bind parameter.name ⟨type.resolved, false, parameter.span⟩)
    context.push

/-- Types the body of a function whose signature is known. -/
def typeFunction (context : Context) (function : Function Surface.Expr WrittenType)
    (signature : DeclaredSignature) : Logged Diagnostic (Function Typed.Expr DeclaredType) := do
  let frame : Frame := ⟨bindParameters context function.parameters signature.parameters, []⟩
  let enclosing : Enclosing :=
    ⟨function.name, signature.returnType.map DeclaredType.resolved⟩
  let written := function.body.statements
  let statements ← typeStatements enclosing (frame.enter written) written
  if signature.returnType.isSome && !anyReturns written then
    Logged.write [missingReturn function.name function.span]
  let parameter (slot : Slot WrittenType) (type : DeclaredType) : Slot DeclaredType :=
    { attributes := slot.attributes, name := slot.name, ascription := type, span := slot.span }
  return {
    attributes := function.attributes
    name := function.name
    parameters := List.zipWith parameter function.parameters signature.parameters
    returnType := signature.returnType
    returnAttributes := function.returnAttributes
    body := ⟨statements, function.body.opening, function.body.closing⟩
    span := function.span }

/-- Types the bodies of functions in order. -/
def typeFunctions (context : Context) :
    List (Function Surface.Expr WrittenType × DeclaredSignature) →
      Logged Diagnostic (List (Function Typed.Expr DeclaredType))
  | [] => return []
  | (function, signature) :: rest => do
    let function ← typeFunction context function signature
    let rest ← typeFunctions context rest
    return function :: rest

end Shading.Analysis
