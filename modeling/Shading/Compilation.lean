import Shading.Analysis
import Shading.Optimization
import Shading.Printed
import Shading.Surface.Items

/-!
# Compilation

From a source text to generated code: reading, analysis, optimization, printing. Problems in the
source never stop a compilation; code is generated also from what is left of a broken program, and
the reports tell whether it is of use.
-/

namespace Shading

/-- What an analysis tells about a source text. -/
structure Checked where
  program : Typed.Program
  /-- Errors and warnings of reading and analysis. -/
  diagnostics : List Diagnostic
  hints : List Diagnostic
  summary : Summary
deriving Repr

/-- Reads and analyzes a source text; in strict mode warnings become errors. -/
def check (source : SourceText) (options : Options) : Checked :=
  let (program, syntactic) := Surface.read source
  let analysis := Analysis.of program
  let diagnostics := syntactic ++ analysis.diagnostics
  { program := analysis.program
    diagnostics := if options.strictMode then diagnostics.map Diagnostic.promote else diagnostics
    hints := analysis.hints
    summary := analysis.summary }

/-- The result of a compilation. -/
structure Compilation where
  code : String
  sourceMap : Option SourceMap
  metadata : Metadata
  /-- Errors and warnings, then hints. -/
  diagnostics : List Diagnostic
deriving Repr

/-- Compiles a source text. -/
def compile (source : SourceText) (options : Options) : Except GenerationError Compilation := do
  let checked := check source options
  let program := checked.program.optimize options.optimizations
  let generated ← program.generate source.name options.sourceMaps
  return {
    code := generated.code
    sourceMap := generated.sourceMap
    metadata := .of program
    diagnostics := checked.diagnostics ++ checked.hints }

end Shading
