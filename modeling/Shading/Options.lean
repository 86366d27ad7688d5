/-!
# Options

What a compilation may be asked to do. The defaults are those of a normal build.
-/

namespace Shading

/-- Which optimizations run. -/
structure OptimizationOptions where
  constantFolding : Bool := true
  deadCodeElimination : Bool := true
  /-- Accepted without effect: calls are never inlined. -/
  inlining : Bool := false
deriving DecidableEq, Repr, Inhabited

/-- No optimization. -/
def OptimizationOptions.none : OptimizationOptions := ⟨false, false, false⟩

/-- What a compilation is asked to do. -/
structure Options where
  /-- Whether the result has a source map. -/
  sourceMaps : Bool := false
  /-- Whether warnings are errors. -/
  strictMode : Bool := false
  optimizations : OptimizationOptions := {}
deriving DecidableEq, Repr, Inhabited

end Shading
