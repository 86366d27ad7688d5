import Shading.Optimization.Constants
import Shading.Optimization.Unreachable
import Shading.Options

/-!
# Optimization

The optimizations that the options ask for, one after the other.
-/

namespace Shading.Typed.Program

/-- Optimizes a program. -/
def optimize (options : OptimizationOptions) (program : Program) : Program :=
  let program := if options.constantFolding then program.foldConstants else program
  if options.deadCodeElimination then program.dropUnreachable else program

end Shading.Typed.Program
