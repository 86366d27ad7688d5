import Shading.Proofs.References

/-!
# Every entry point has its function

Analysis lists as entry points the functions that have a stage, and optimization rewrites bodies only.
So the entry points of every program that reaches the printer are its functions with a stage, in order,
whatever became of the rest of the source, and nothing else can stop a compilation.
-/

namespace Shading

namespace Typed.Program

/-- The entry points are the functions with a stage, in order. -/
def ListsStages (program : Program) : Prop :=
  program.entryPoints = Analysis.entryPoints program.functions

/-- With another body, a function is listed as before. -/
theorem entryPoints_mapBodies
    (transform : List (Statement Expr DeclaredType) → List (Statement Expr DeclaredType))
    (program : Program) :
    Analysis.entryPoints (program.mapBodies transform).functions =
      Analysis.entryPoints program.functions := by
  rw [mapBodies, Analysis.entryPoints, Analysis.entryPoints, List.filterMap_map]
  rfl

/-- Optimization keeps entry points and stages. -/
theorem ListsStages.optimize {program : Program} (lists : program.ListsStages)
    (options : OptimizationOptions) : (program.optimize options).ListsStages := by
  rw [optimize_eq]
  exact lists.trans (entryPoints_mapBodies _ _).symm

/-- Each entry point names a function of its stage. -/
theorem ListsStages.function {program : Program} (lists : program.ListsStages) {entry : EntryPoint}
    (member : entry ∈ program.entryPoints) :
    ∃ function ∈ program.functions,
      function.name = entry.name ∧ function.stage? = some entry.stage := by
  rw [lists] at member
  obtain ⟨function, inside, listed⟩ := List.mem_filterMap.mp member
  obtain ⟨stage, staged, rfl⟩ := Option.map_eq_some_iff.mp listed
  exact ⟨function, inside, rfl, staged⟩

/-- No entry point lacks its function. -/
theorem ListsStages.danglingEntryPoint? {program : Program} (lists : program.ListsStages) :
    program.danglingEntryPoint? = none := by
  rw [Program.danglingEntryPoint?, List.find?_eq_none]
  intro entry member
  obtain ⟨function, inside, named, _⟩ := lists.function member
  simpa using ⟨function, inside, named⟩

/-- Then code is generated. -/
theorem ListsStages.generate {program : Program} (lists : program.ListsStages) (file : String)
    (withMap : Bool) :
    ∃ generated, program.generate file withMap = .ok generated ∧
      generated.code = Printed.code (Printed.program program) := by
  rw [Program.generate, lists.danglingEntryPoint?]
  exact ⟨_, rfl, rfl⟩

end Typed.Program

/-- Analysis lists the functions with a stage, also of a broken program. -/
theorem Analysis.typeProgram_listsStages (program : Surface.Program) :
    (typeProgram program).value.ListsStages := rfl

/-- The code of a checked program is generated. -/
theorem generate_check (source : SourceText) (options : Options) (passes : OptimizationOptions)
    (file : String) (withMap : Bool) :
    let lines := Printed.program ((check source options).program.optimize passes)
    ((check source options).program.optimize passes).generate file withMap = .ok {
      code := Printed.code lines
      sourceMap := if withMap then some ⟨file, PrintedLine.mappings 1 lines⟩ else none } := by
  intro lines
  have checked : (check source options).program.ListsStages := by
    rw [program_check]
    exact Analysis.typeProgram_listsStages _
  rw [Typed.Program.generate, (checked.optimize passes).danglingEntryPoint?]

/-- A compilation gives code, map, facts and reports. -/
theorem compile_eq (source : SourceText) (options : Options) :
    let program := (check source options).program.optimize options.optimizations
    let lines := Printed.program program
    compile source options = .ok {
      code := Printed.code lines
      sourceMap :=
        if options.sourceMaps then some ⟨source.name, PrintedLine.mappings 1 lines⟩ else none
      metadata := .of program
      diagnostics := (check source options).diagnostics ++ (check source options).hints } := by
  unfold compile
  dsimp only
  rw [generate_check]
  rfl

/-- Every text is compiled: each entry point that is printed names a function of its stage. -/
theorem compilation_never_fails (source : SourceText) (options : Options) :
    let program := (check source options).program.optimize options.optimizations
    (∀ entry ∈ program.entryPoints, ∃ function ∈ program.functions,
        function.name = entry.name ∧ function.stage? = some entry.stage) ∧
      program.danglingEntryPoint? = none ∧
      ∃ compiled, compile source options = .ok compiled ∧
        compiled.code = Printed.code (Printed.program program) := by
  intro program
  have checked : (check source options).program.ListsStages := by
    rw [program_check]
    exact Analysis.typeProgram_listsStages _
  have lists : program.ListsStages := checked.optimize options.optimizations
  obtain ⟨generated, made, code⟩ := lists.generate source.name options.sourceMaps
  refine ⟨fun entry => lists.function, lists.danglingEntryPoint?, ?_⟩
  unfold compile
  dsimp only
  rw [made]
  exact ⟨_, rfl, code⟩

end Shading
