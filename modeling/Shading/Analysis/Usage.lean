import Shading.Analysis.Reports
import Shading.Typed.Traversal

/-!
# Checks on typed functions

Which functions can be started, which are called, and which could be cheaper.
-/

namespace Shading.Analysis

open Typed (DeclaredType EntryPoint)

/-- A typed function. -/
abbrev TypedFunction : Type := Function Typed.Expr DeclaredType

/-- The functions that the host can start. -/
def entryPoints (functions : List TypedFunction) : List EntryPoint :=
  functions.filterMap fun function => function.stage?.map fun stage => ⟨function.name, stage⟩

/-- Reports that what an entry point returns does not fit its stage. -/
def stageReports (function : TypedFunction) : List Diagnostic :=
  match function.stage?, function.returnType with
  | some .fragment, none => [fragmentWithoutColor function.name function.span]
  | some .vertex, none => [vertexWithoutPosition function.name function.span]
  | some .compute, some _ => [computeWithResult function.name function.span]
  | _, _ => []

/-- The first function of a stage. -/
def firstOfStage? (functions : List TypedFunction) (stage : Stage) : Option TypedFunction :=
  functions.find? fun function => function.stage? = some stage

/-- Reports that of the vertex and the fragment stage one is missing. -/
def pairingReports (functions : List TypedFunction) : List Diagnostic :=
  match firstOfStage? functions .vertex, firstOfStage? functions .fragment with
  | some function, none => [complementaryStage .vertex .fragment function.span]
  | none, some function => [complementaryStage .fragment .vertex function.span]
  | _, _ => []

/-- Reports about the entry points of a program. -/
def entryPointReports (functions : List TypedFunction) : List Diagnostic :=
  functions.flatMap stageReports ++
    if (entryPoints functions).isEmpty then [noEntryPoints] else pairingReports functions

/-- The functions that a function calls, itself excepted. -/
def calledFrom (function : TypedFunction) : List String :=
  (Typed.functionNodes function).filterMap fun
    | .call (.user name) _ _ _ => if name = function.name then none else some name
    | _ => none

/-- Reports functions that neither the host starts nor others call. -/
def unusedReports (functions : List TypedFunction) : List Diagnostic :=
  let called := functions.flatMap calledFrom
  functions.filterMap fun function =>
    if function.stage?.isNone && !called.contains function.name then
      some (unusedFunction function.name function.span)
    else none

/-- The builtin functions that a function calls. -/
def builtinsCalled (function : TypedFunction) : List Builtin :=
  (Typed.functionNodes function).filterMap fun
    | .call (.builtin builtin) _ _ _ => some builtin
    | _ => none

/-- Where a function divides, in order. -/
def divisionPlaces (function : TypedFunction) : List Span :=
  (Typed.functionNodes function).filterMap fun
    | .binary .divide _ _ _ span => some span
    | _ => none

/-- The exponent of a power, if it is a literal from two to four. -/
def smallExponent? : Typed.Expr → Option Nat
  | .number literal _ _ =>
    [2, 3, 4].find? fun exponent => literal.value = Binary64.ofInt exponent
  | _ => none

/-- Reports about powers with small exponents. -/
def powerReports (function : TypedFunction) : List Diagnostic :=
  (Typed.functionNodes function).filterMap fun
    | .call (.builtin .pow) [_, exponent] _ span =>
      (smallExponent? exponent).map fun exponent => smallPower exponent span
    | _ => none

/-- Reports about what a function could do more cheaply. -/
def performanceReports (function : TypedFunction) : List Diagnostic :=
  let places := divisionPlaces function
  (match places with
    | first :: _ => [divisions function.name places.length first]
    | [] => []) ++ powerReports function

end Shading.Analysis
