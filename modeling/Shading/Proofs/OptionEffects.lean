import Mathlib.Data.List.Forall2
import Shading.Proofs.EntryPoints

/-!
# What each option changes

Only optimizations change the code, and they work on bodies, which a host does not see. A source map is
read off lines that are printed in any case. Strict mode raises the warnings among the reports and
leaves hints alone.
-/

namespace Shading

open List

namespace Typed.Program

/-- Optimization leaves all that a host sees. -/
theorem metadata_optimize (options : OptimizationOptions) (program : Program) :
    Metadata.of (program.optimize options) = Metadata.of program := by
  rw [optimize_eq]
  rfl

/-- Only the choice of passes matters to optimization. -/
theorem optimize_congr {first second : OptimizationOptions}
    (folding : first.constantFolding = second.constantFolding)
    (elimination : first.deadCodeElimination = second.deadCodeElimination) (program : Program) :
    program.optimize first = program.optimize second := by
  unfold optimize
  rw [folding, elimination]

end Typed.Program

namespace Diagnostic

/-- The same report, with a warning raised to an error. -/
def RaisedTo (plain strict : Diagnostic) : Prop :=
  strict = { plain with severity := if plain.severity = .warning then .error else plain.severity }

/-- Promotion raises reports. -/
theorem raisedTo_promote (report : Diagnostic) : report.RaisedTo report.promote := by
  unfold RaisedTo promote
  split <;> rfl

/-- A report that is no warning stays as it is. -/
theorem raisedTo_self {report : Diagnostic} (mild : report.severity ≠ .warning) :
    report.RaisedTo report := by
  rw [RaisedTo, if_neg mild]

/-- A strict error is an error or a warning otherwise. -/
theorem RaisedTo.isError_iff {plain strict : Diagnostic} (raised : plain.RaisedTo strict) :
    strict.isError = true ↔ plain.severity = .error ∨ plain.severity = .warning := by
  rw [raised]
  unfold isError
  split <;> simp_all

end Diagnostic

/-- Strict reports hold an error iff plain ones hold an error or warning. -/
theorem hasErrors_iff_of_raised {plain strict : List Diagnostic}
    (raised : List.Forall₂ Diagnostic.RaisedTo plain strict) :
    hasErrors strict = true ↔
      ∃ report ∈ plain, report.severity = .error ∨ report.severity = .warning := by
  induction raised with
  | nil => simp [hasErrors]
  | cons first _ ih =>
    unfold hasErrors at ih ⊢
    rw [any_cons, Bool.or_eq_true, first.isError_iff, ih]
    simp only [exists_mem_cons_iff]

/-- Strict reports are plain ones, raised. -/
theorem diagnostics_check_raised (source : SourceText) {plain strict : Options}
    (lenient : plain.strictMode = false) (strictly : strict.strictMode = true) :
    List.Forall₂ Diagnostic.RaisedTo (check source plain).diagnostics
      (check source strict).diagnostics := by
  simp only [check, lenient, strictly, if_true, Bool.false_eq_true, if_false]
  rw [forall₂_map_right_iff]
  exact forall₂_same.mpr fun report _ => report.raisedTo_promote

/-- Hints are no warnings, so nothing is raised in them. -/
theorem hints_check_raised (source : SourceText) (plain strict : Options) :
    List.Forall₂ Diagnostic.RaisedTo (check source plain).hints (check source strict).hints := by
  refine forall₂_same.mpr fun report member => Diagnostic.raisedTo_self ?_
  have hint : Analysis.isHint report = true := (mem_filter.mp member).2
  rw [of_decide_eq_true hint]
  nofun

/-- Two compilations of one text have the same facts for the host, the same code if they run the
same passes, and the same reports if both are strict or neither is. Strict reports are the others
with warnings raised to errors, so there are errors exactly where the others have errors or
warnings. -/
theorem options_act_apart (source : SourceText) (first second : Options) :
    ∃ one other, compile source first = .ok one ∧ compile source second = .ok other ∧
      one.metadata = other.metadata ∧
      (first.optimizations.constantFolding = second.optimizations.constantFolding →
        first.optimizations.deadCodeElimination = second.optimizations.deadCodeElimination →
          one.code = other.code) ∧
      (first.strictMode = second.strictMode → one.diagnostics = other.diagnostics) ∧
      (first.strictMode = false → second.strictMode = true →
        List.Forall₂ Diagnostic.RaisedTo one.diagnostics other.diagnostics ∧
          (hasErrors other.diagnostics = true ↔
            ∃ report ∈ one.diagnostics, report.severity = .error ∨ report.severity = .warning)) := by
  refine ⟨_, _, compile_eq source first, compile_eq source second, ?_, ?_, ?_, ?_⟩
  · rw [Typed.Program.metadata_optimize, Typed.Program.metadata_optimize, program_check, program_check]
  · intro folding elimination
    rw [Typed.Program.optimize_congr folding elimination, program_check, program_check]
  · intro strictness
    simp only [check, strictness]
  · intro lenient strictly
    have raised := rel_append (diagnostics_check_raised source lenient strictly)
      (hints_check_raised source first second)
    exact ⟨raised, hasErrors_iff_of_raised raised⟩

/-- A missing return value is an error in strict mode only, and neither that nor a source map
changes the code. -/
theorem strict_missing_return :
    let source : SourceText := ⟨"half.shade",
      "fn half() -> f32 \x7b let x = 0.5; \x7d @compute fn main() \x7b let y = half(); \x7d"⟩
    let strict : Options := { strictMode := true, sourceMaps := true }
    ∃ one other, compile source {} = .ok one ∧ compile source strict = .ok other ∧
      one.code = other.code ∧ one.diagnostics.map Diagnostic.severity = [.warning] ∧
        hasErrors other.diagnostics = true ∧
          List.Forall₂ Diagnostic.RaisedTo one.diagnostics other.diagnostics := by
  intro source strict
  obtain ⟨one, other, compiled, strictly, _, code, _, raised⟩ := options_act_apart source {} strict
  obtain ⟨reports, errors⟩ := raised rfl rfl
  have plain : (compile source {}).toOption.map
      (fun found => found.diagnostics.map Diagnostic.severity) = some [.warning] := by
    decide +kernel
  rw [compiled] at plain
  have severities : one.diagnostics.map Diagnostic.severity = [.warning] := Option.some.inj plain
  obtain ⟨report, member, warning⟩ := mem_map.mp (severities ▸ mem_singleton_self _)
  exact ⟨one, other, compiled, strictly, code rfl rfl, severities,
    errors.mpr ⟨report, member, .inr warning⟩, reports⟩

end Shading
