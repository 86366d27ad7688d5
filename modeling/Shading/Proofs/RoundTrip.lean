import Shading.Compilation

/-!
# Generated code is compiled again
-/

namespace Shading

/-- The least integer is written with a suffix behind a minus sign, which its literal does not know
of: the code for `-2147483648` is refused. -/
theorem least_integer_is_not_compiled_again :
    let source : SourceText :=
      ⟨"least.shade", "@compute fn main() \x7b let x: i32 = -2147483648; \x7d"⟩
    ∃ compiled ∈ (compile source {}).toOption, hasErrors compiled.diagnostics = false ∧
      ∃ again ∈ (compile ⟨"least.wgsl", compiled.code⟩ {}).toOption,
        hasErrors again.diagnostics = true ∧ again.metadata ≠ compiled.metadata := by
  decide +kernel

end Shading
