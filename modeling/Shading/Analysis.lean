import Shading.Analysis.Bodies
import Shading.Analysis.Usage
import Shading.Metadata

/-!
# Analysis

Analysis gives every name and every expression of a program its meaning. It never stops at a problem:
what has no meaning is reported, and the rest goes on. Errors and warnings are kept apart from
hints.
-/

namespace Shading

/-- An analyzed program. -/
structure Analysis where
  program : Typed.Program
  /-- Errors and warnings. -/
  diagnostics : List Diagnostic
  hints : List Diagnostic
  summary : Summary
deriving Repr

namespace Analysis

/-- Types a program and reports everything about it, in order. -/
def typeProgram (program : Surface.Program) : Logged Diagnostic Typed.Program := do
  Logged.write (repeatedDeclarations program)
  let (structs, context) ← collectStructs program .empty
  let (uniforms, context) ← collectUniforms program context
  let written := Surface.functions program
  let (signatures, context) ← collectSignatures context written
  let functions ← typeFunctions context (written.zip signatures)
  Logged.write (entryPointReports functions)
  Logged.write (unusedReports functions)
  Logged.write (functions.flatMap performanceReports)
  return { functions, structs, uniforms, entryPoints := entryPoints functions }

/-- Whether a report is a hint. -/
def isHint (diagnostic : Diagnostic) : Bool := diagnostic.severity = .hint

/-- Analyzes a program. -/
def of (program : Surface.Program) : Analysis :=
  let typed := typeProgram program
  { program := typed.value
    diagnostics := typed.log.filter fun report => !isHint report
    hints := typed.log.filter isHint
    summary := Summary.of typed.value (typed.value.functions.flatMap builtinsCalled) }

end Analysis

end Shading
