import Shading.Proofs.DeclarationTexts
import Shading.Proofs.References
import Shading.Proofs.UnboundNames

/-!
# The parameter that a stage implies

An entry point is printed with a parameter that its stage needs and the source leaves out. With it all
names of the body refer to what they refer to in the source if and only if no written parameter has its
name and the body uses the name for variables of its own only.
-/

namespace Shading

open List

open Typed (DeclaredType Expr)

namespace Environment

variable (uniforms parameters : List String)

/-- A parameter behind all others is found first. -/
theorem lookup_ofNames_append (name other : String) :
    List.lookup other (ofNames uniforms (parameters ++ [name])) =
      if other = name then some (.parameter parameters.length)
      else List.lookup other (ofNames uniforms parameters) := by
  have front : ofNames uniforms (parameters ++ [name]) =
      (name, .parameter parameters.length) :: ofNames uniforms parameters := by
    simp [ofNames, zipIdx_append]
  rw [front, lookup_cons_ite]

variable {uniforms parameters}

/-- A function starts with its parameters and the uniforms. -/
theorem lookup_ofNames_cases {name : String} {declaration : Declaration}
    (found : List.lookup name (ofNames uniforms parameters) = some declaration) :
    (∃ position < parameters.length, declaration = .parameter position) ∨
      ∃ position, declaration = .uniform position := by
  obtain ⟨before, behind, split, _⟩ := lookup_eq_some_iff.mp found
  have member : (name, declaration) ∈ ofNames uniforms parameters := by simp [split]
  rcases mem_append.mp member with listed | listed
  · obtain ⟨⟨parameter, position⟩, inside, same⟩ := mem_map.mp (mem_reverse.mp listed)
    exact .inl ⟨position, snd_lt_of_mem_zipIdx inside, (Prod.mk.inj same).2.symm⟩
  · obtain ⟨⟨uniform, position⟩, _, same⟩ := mem_map.mp (mem_reverse.mp listed)
    exact .inr ⟨position, (Prod.mk.inj same).2.symm⟩

end Environment

/-- The reference with one more declaration at the start of the body, which it means unless it
refers to a variable. -/
def Reference.captured (name : String) (declaration : Declaration) (reference : Reference) :
    Reference :=
  if reference.name = name ∧ reference.isLocal = false then
    { reference with declaration := some declaration }
  else reference

/-- The inner environment has one more declaration. -/
def Environment.Captures (name : String) (declaration : Declaration) (outer inner : Environment) :
    Prop :=
  ∀ use, inner.resolve use = (outer.resolve use).captured name declaration

section Capture

variable {name : String} {declaration : Declaration} {outer inner : Environment}

/-- A parameter is one more declaration. -/
theorem Environment.captures_ofNames (uniforms parameters : List String) (name : String) :
    (ofNames uniforms parameters).Captures name (.parameter parameters.length)
      (ofNames uniforms (parameters ++ [name])) := by
  intro use
  have outside : (List.lookup use.1 (ofNames uniforms parameters)).any Declaration.isLocal = false := by
    cases found : List.lookup use.1 (ofNames uniforms parameters) with
    | none => rfl
    | some declaration =>
      rcases lookup_ofNames_cases found with ⟨_, _, declared⟩ | ⟨_, declared⟩
      · rw [declared]
        rfl
      · rw [declared]
        rfl
  unfold resolve Reference.captured Reference.isLocal
  rw [lookup_ofNames_append]
  by_cases same : use.1 = name
  · rw [if_pos same, if_pos ⟨same, outside⟩]
  · rw [if_neg same, if_neg fun both => same both.1]

/-- Variables keep the relation. -/
theorem Environment.Captures.cons (captures : outer.Captures name declaration inner) (bound : String)
    (place : Span) :
    Environment.Captures name declaration ((bound, .ofStatement place) :: outer)
      ((bound, .ofStatement place) :: inner) := by
  intro use
  have before := captures use
  unfold Environment.resolve at before ⊢
  rw [lookup_cons_ite, lookup_cons_ite]
  by_cases here : use.1 = bound
  · rw [if_pos here, if_pos here]
    simp [Reference.captured, Reference.isLocal, Declaration.isLocal]
  · rw [if_neg here, if_neg here]
    exact before

namespace Statement

variable {Expression Ascription : Type} {names : Expression → List (String × Span)}

/-- Statements keep the relation. -/
theorem captures_behind (captures : outer.Captures name declaration inner)
    (statement : Statement Expression Ascription) :
    (statement.behind outer).Captures name declaration (statement.behind inner) := by
  cases statement with
  | letBinding | varBinding => exact captures.cons _ _
  | assignment | returning | evaluation | block => exact captures

/-- Each use is captured. -/
theorem map_resolve_captured (captures : outer.Captures name declaration inner)
    (uses : List (String × Span)) :
    uses.map inner.resolve = (uses.map outer.resolve).map (Reference.captured name declaration) := by
  rw [List.map_map]
  exact map_congr_left fun use _ => captures use

mutual

/-- One more declaration only captures references. -/
theorem references_captured {outer inner : Environment}
    (captures : outer.Captures name declaration inner) :
    (statement : Statement Expression Ascription) →
      statement.references names inner =
        (statement.references names outer).map (Reference.captured name declaration)
  | .block statements _ _ _ => allReferences_captured captures statements
  | .letBinding .. | .varBinding .. | .assignment .. | .returning .. | .evaluation .. =>
    map_resolve_captured captures _

/-- In statements, too, it only captures references. -/
theorem allReferences_captured {outer inner : Environment}
    (captures : outer.Captures name declaration inner) :
    (statements : List (Statement Expression Ascription)) →
      allReferences names inner statements =
        (allReferences names outer statements).map (Reference.captured name declaration)
  | [] => rfl
  | first :: rest => by
    rw [allReferences, allReferences, map_append, references_captured captures first,
      allReferences_captured (captures_behind captures first) rest]

end

/-- What holds of all in scope holds behind a statement. -/
theorem behind_forall {motive : Declaration → Prop} {environment : Environment}
    (locals : ∀ place, motive (.ofStatement place))
    (start : ∀ name, ∀ found ∈ List.lookup name environment, motive found)
    (statement : Statement Expression Ascription) :
    ∀ name, ∀ found ∈ List.lookup name (statement.behind environment), motive found := by
  have cons (bound : String) (place : Span) : ∀ name,
      ∀ found ∈ List.lookup name ((bound, Declaration.ofStatement place) :: environment),
        motive found := by
    intro name found lookup
    rw [lookup_cons_ite] at lookup
    by_cases here : name = bound
    · rw [if_pos here] at lookup
      rw [← Option.some.inj lookup]
      exact locals place
    · rw [if_neg here] at lookup
      exact start name found lookup
  cases statement with
  | letBinding | varBinding => exact cons _ _
  | assignment | returning | evaluation | block => exact start

mutual

/-- Names refer to what was in scope or to variables. -/
theorem references_forall {motive : Declaration → Prop} {environment : Environment}
    (locals : ∀ place, motive (.ofStatement place))
    (start : ∀ name, ∀ found ∈ List.lookup name environment, motive found) :
    (statement : Statement Expression Ascription) →
      ∀ reference ∈ statement.references names environment,
        ∀ found ∈ reference.declaration, motive found
  | .block statements _ _ _ => allReferences_forall locals start statements
  | .letBinding .. | .varBinding .. | .assignment .. | .returning .. | .evaluation .. =>
    forall_mem_map.mpr fun use _ => start use.1

/-- Names in statements refer to what was in scope or to variables. -/
theorem allReferences_forall {motive : Declaration → Prop} {environment : Environment}
    (locals : ∀ place, motive (.ofStatement place))
    (start : ∀ name, ∀ found ∈ List.lookup name environment, motive found) :
    (statements : List (Statement Expression Ascription)) →
      ∀ reference ∈ allReferences names environment statements,
        ∀ found ∈ reference.declaration, motive found
  | [] => nofun
  | first :: rest => forall_mem_append.mpr
    ⟨references_forall locals start first,
      allReferences_forall locals (behind_forall locals start first) rest⟩

end

/-- No name refers to a parameter behind the last one. -/
theorem declaration_ne_parameter (uniforms parameters : List String)
    (statements : List (Statement Expression Ascription)) :
    ∀ reference ∈ allReferences names (Environment.ofNames uniforms parameters) statements,
      reference.declaration ≠ some (.parameter parameters.length) := by
  intro reference member same
  refine allReferences_forall (motive := fun found => found ≠ .parameter parameters.length) nofun ?_
    statements reference member _ same rfl
  intro name found lookup beyond
  rcases Environment.lookup_ofNames_cases lookup with ⟨position, bound, declared⟩ | ⟨_, declared⟩
  · rw [beyond] at declared
    exact Nat.ne_of_lt bound (Declaration.parameter.inj declared).symm
  · rw [beyond] at declared
    cases declared

/-- With one more parameter, a body keeps its references if and only if it uses the name for its
variables only. -/
theorem sublist_captured_iff {uniforms parameters : List String} (name : String)
    {statements : List (Statement Expression Ascription)} {source : List Reference}
    (kept : (allReferences names (Environment.ofNames uniforms parameters) statements).Sublist source)
    (within : ∀ reference ∈ source,
      reference.declaration ≠ some (.parameter parameters.length)) :
    (allReferences names (Environment.ofNames uniforms (parameters ++ [name])) statements).Sublist
        source ↔
      ∀ reference ∈ allReferences names (Environment.ofNames uniforms parameters) statements,
        reference.name = name → reference.isLocal = true := by
  have captures : (Environment.ofNames uniforms parameters).Captures name
      (.parameter parameters.length) (Environment.ofNames uniforms (parameters ++ [name])) :=
    Environment.captures_ofNames uniforms parameters name
  rw [allReferences_captured captures]
  constructor
  · intro sublist reference member same
    by_cases isLocal : reference.isLocal = true
    · exact isLocal
    · have captured : reference.captured name (.parameter parameters.length) =
          { reference with declaration := some (.parameter parameters.length) } :=
        if_pos ⟨same, Bool.eq_false_iff.mpr isLocal⟩
      have listed := sublist.subset (mem_map_of_mem member)
      rw [captured] at listed
      exact absurd rfl (within _ listed)
  · intro uses
    have unchanged : ∀ reference ∈
        allReferences names (Environment.ofNames uniforms parameters) statements,
          reference.captured name (.parameter parameters.length) = id reference := by
      intro reference member
      refine if_neg fun ⟨same, outside⟩ => ?_
      rw [uses reference member same] at outside
      cases outside
    rw [map_congr_left unchanged, List.map_id]
    exact kept

end Statement

end Capture

namespace Analysis

open Typing (Context)

/-- None of the reports is an error. -/
def Clean (log : List Diagnostic) : Prop := ∀ report ∈ log, report.isError = false

/-- Joined reports are clean if both are. -/
@[simp] theorem clean_append {first second : List Diagnostic} :
    Clean (first ++ second) ↔ Clean first ∧ Clean second :=
  forall_mem_append

/-- Clean parameters have new names of their own. -/
theorem collectParameters_distinct {context : Context} {seen : List (String × Span)}
    {slots : List (Slot WrittenType)} (clean : Clean (collectParameters context seen slots).log) :
    (slots.map Slot.name).Nodup ∧ ∀ slot ∈ slots, seen.lookup slot.name = none := by
  induction slots generalizing seen with
  | nil => exact ⟨.nil, nofun⟩
  | cons first rest ih =>
    rw [log_collectParameters_cons] at clean
    cases found : seen.lookup first.name with
    | some earlier =>
      rw [found] at clean
      exact nomatch clean _ mem_cons_self
    | none =>
      rw [found] at clean
      obtain ⟨distinct, unseen⟩ := ih (clean_append.mp clean).2
      constructor
      · refine nodup_cons.mpr ⟨fun again => ?_, distinct⟩
        obtain ⟨slot, member, same⟩ := mem_map.mp again
        have free := unseen slot member
        rw [lookup_cons_ite, if_pos same] at free
        cases free
      · refine forall_mem_cons.mpr ⟨found, fun slot member => ?_⟩
        have free := unseen slot member
        rw [lookup_cons_ite] at free
        split at free
        · cases free
        · exact free

/-- Uniforms keep their names. -/
theorem names_uniforms (program : Surface.Program) :
    (typeProgram program).value.uniforms.map Uniform.name =
      (Surface.uniforms program).map Uniform.name := by
  rw [uniforms_typeProgram, map_map]
  rfl

end Analysis

/-- The references in the body of a written function. -/
def Surface.references (program : Surface.Program) (function : Function Surface.Expr WrittenType) :
    List Reference :=
  Statement.allReferences Surface.Expr.identifiers
    (.ofNames ((Surface.uniforms program).map Uniform.name) (function.parameters.map Slot.name))
    function.body.statements

/-- The references of a body with the given parameters. -/
def Typed.references (program : Typed.Program) (parameters : List (Slot DeclaredType))
    (function : Function Expr DeclaredType) : List Reference :=
  Statement.allReferences Expr.identifiers
    (.ofNames (program.uniforms.map Uniform.name) (parameters.map Slot.name))
    function.body.statements

/-- The parameters have different names, and the printed body refers to what the source does. -/
structure Printed.IsHygienic (source : Surface.Program)
    (written : Function Surface.Expr WrittenType) (program : Typed.Program)
    (function : Function Expr DeclaredType) : Prop where
  distinct : ((allParameters function).map Slot.name).Nodup
  references : (Typed.references program (allParameters function) function).Sublist
    (Surface.references source written)

/-- A written function and what is made of it. -/
structure Emitted (source : Surface.Program) (program : Typed.Program)
    (written : Function Surface.Expr WrittenType) (function : Function Expr DeclaredType) : Prop where
  uniforms : program.uniforms.map Uniform.name = (Surface.uniforms source).map Uniform.name
  parameters : function.parameters.map Slot.name = written.parameters.map Slot.name
  distinct : (function.parameters.map Slot.name).Nodup
  references : (Typed.references program function.parameters function).Sublist
    (Surface.references source written)

/-- An implied parameter keeps this if and only if no written one has its name and the body uses it
for variables only. -/
theorem Emitted.isHygienic_iff {source : Surface.Program} {program : Typed.Program}
    {written : Function Surface.Expr WrittenType} {function : Function Expr DeclaredType}
    (emitted : Emitted source program written function) {implied : Slot DeclaredType}
    (found : Printed.impliedSlot? function.stage? function.parameters = some implied) :
    Printed.IsHygienic source written program function ↔
      (∀ parameter ∈ written.parameters, parameter.name ≠ implied.name) ∧
        ∀ reference ∈ Typed.references program function.parameters function,
          reference.name = implied.name → reference.isLocal = true := by
  have all : (Printed.allParameters function).map Slot.name =
      function.parameters.map Slot.name ++ [implied.name] := by
    simp [Printed.allParameters, found]
  have within : ∀ reference ∈ Surface.references source written,
      reference.declaration ≠ some (.parameter (function.parameters.map Slot.name).length) := by
    rw [emitted.parameters]
    exact Statement.declaration_ne_parameter _ _ _
  have names : ((Printed.allParameters function).map Slot.name).Nodup ↔
      ∀ parameter ∈ written.parameters, parameter.name ≠ implied.name := by
    rw [all, nodup_append]
    constructor
    · rintro ⟨_, _, apart⟩ parameter member
      refine apart _ ?_ _ (mem_singleton.mpr rfl)
      rw [emitted.parameters]
      exact mem_map_of_mem member
    · intro apart
      refine ⟨emitted.distinct, pairwise_singleton .., ?_⟩
      rw [emitted.parameters]
      intro name listed other single
      obtain ⟨parameter, member, same⟩ := mem_map.mp listed
      rw [← same, mem_singleton.mp single]
      exact apart parameter member
  have references := Statement.sublist_captured_iff implied.name emitted.references within
  rw [← all] at references
  constructor
  · intro hygienic
    exact ⟨names.mp hygienic.distinct, references.mp hygienic.references⟩
  · rintro ⟨distinct, uses⟩
    exact ⟨names.mpr distinct, references.mpr uses⟩

/-- Parameters keep their names. -/
theorem names_typedSlots (context : Typing.Context) (slots : List (Slot WrittenType)) :
    (List.zipWith Analysis.typedSlot slots
        (slots.map fun slot => Analysis.declaredSilently context slot.ascription)).map Slot.name =
      slots.map Slot.name := by
  rw [zipWith_map_right, zipWith_self, map_map]
  rfl

section Emission

variable (written : Surface.Program) (options : OptimizationOptions)

/-- What is printed of a written function. -/
def emittedFunction (function : Function Surface.Expr WrittenType) : Function Expr DeclaredType :=
  let typed := (Analysis.typedFunction written function).value
  { typed with
    body := { typed.body with
      statements := Typed.Program.optimizedBody options typed.body.statements } }

/-- Functions are printed one for one. -/
theorem functions_emitted :
    ((Analysis.typeProgram written).value.optimize options).functions =
      (Surface.functions written).map (emittedFunction written options) := by
  rw [Typed.Program.optimize_eq, Typed.Program.mapBodies, Analysis.functions_typeProgram, map_map]
  rfl

variable {written}

/-- Without errors, printed functions have the parameters and references of the source. -/
theorem emitted_of_clean (clean : Analysis.Clean (Analysis.typeProgram written).log) :
    let program := (Analysis.typeProgram written).value.optimize options
    ∀ pair ∈ (Surface.functions written).zip program.functions,
      Emitted written program pair.1 pair.2 := by
  intro program pair member
  rw [functions_emitted, ← map_prod_left_eq_zip] at member
  obtain ⟨function, listed, rfl⟩ := mem_map.mp member
  have distinct : (function.parameters.map Slot.name).Nodup := by
    rw [Analysis.typeProgram_eq] at clean
    simp only [Analysis.clean_append] at clean
    have signed : Analysis.Clean (Analysis.signatureReports (Analysis.boundContext written) function) :=
      fun report told => clean.2.2.2.1 report (mem_flatMap.mpr ⟨function, listed, told⟩)
    simp only [Analysis.signatureReports, Analysis.clean_append] at signed
    exact (Analysis.collectParameters_distinct signed.2.1).1
  have uniforms : program.uniforms.map Uniform.name =
      (Surface.uniforms written).map Uniform.name := by
    unfold program
    rw [Typed.Program.optimize_eq, Typed.Program.mapBodies]
    exact Analysis.names_uniforms written
  have parameters : (emittedFunction written options function).parameters.map Slot.name =
      function.parameters.map Slot.name := by
    unfold emittedFunction Analysis.typedFunction
    dsimp only
    rw [Analysis.value_typeFunction]
    exact names_typedSlots ..
  refine ⟨uniforms, parameters, ?_, ?_⟩
  · rw [parameters]
    exact distinct
  · unfold Typed.references
    rw [parameters, uniforms]
    refine (Typed.Program.references_optimizedBody ..).trans ?_
    rw [Analysis.typedFunction, Analysis.value_typeFunction, Analysis.allReferences_typeStatements]
    exact .refl _

end Emission

/-- Where a check finds no error, the analysis finds none. -/
theorem clean_of_check {source : SourceText} {options : Options}
    (clean : hasErrors (check source options).diagnostics = false) :
    Analysis.Clean (Analysis.typeProgram (Surface.read source).1).log := by
  intro report told
  refine Bool.eq_false_iff.mpr fun error => ?_
  rw [hasErrors_check options told error] at clean
  cases clean

/-- Without errors, every function is printed with its own parameters, of different names, and its
names refer to what they refer to in the source. An implied parameter keeps it so if and only if no
written one has its name and the body uses the name for its own variables only. -/
theorem implied_parameters_are_hygienic_iff (source : SourceText) (options : Options)
    (clean : hasErrors (check source options).diagnostics = false) :
    let written := (Surface.read source).1
    let program := (check source options).program.optimize options.optimizations
    (Surface.functions written).length = program.functions.length ∧
      ∀ pair ∈ (Surface.functions written).zip program.functions,
        (pair.2.parameters.map Slot.name).Nodup ∧
        (Typed.references program pair.2.parameters pair.2).Sublist
          (Surface.references written pair.1) ∧
        ∀ implied, Printed.impliedSlot? pair.2.stage? pair.2.parameters = some implied →
          Printed.impliedParameter? pair.2.stage? pair.2.parameters = some (Printed.slot implied) ∧
          (Printed.IsHygienic written pair.1 program pair.2 ↔
            (∀ parameter ∈ pair.1.parameters, parameter.name ≠ implied.name) ∧
              ∀ reference ∈ Typed.references program pair.2.parameters pair.2,
                reference.name = implied.name → reference.isLocal = true) := by
  intro written program
  have silent := clean_of_check clean
  have same : program = (Analysis.typeProgram written).value.optimize options.optimizations :=
    congrArg (Typed.Program.optimize options.optimizations) (program_check source options)
  rw [same]
  have lengths : (Surface.functions written).length =
      ((Analysis.typeProgram written).value.optimize options.optimizations).functions.length := by
    rw [functions_emitted, length_map]
  refine ⟨lengths, fun pair member => ?_⟩
  have emitted := emitted_of_clean options.optimizations silent pair member
  refine ⟨emitted.distinct, emitted.references, fun implied found => ⟨?_, ?_⟩⟩
  · rw [Printed.impliedParameter?_eq, found, Option.map_some]
  · exact emitted.isHygienic_iff found

/-- A body may use the name for a variable, also behind a use of a uniform. -/
theorem own_variable_is_hygienic :
    let source : SourceText := ⟨"own.shade",
      "@group(0) @binding(0) uniform scale: f32; " ++
      "@compute fn main() { let global_id = scale * 2.0; let y = global_id + scale; }"⟩
    let written := (Surface.read source).1
    let program := (check source {}).program.optimize {}
    hasErrors (check source {}).diagnostics = false ∧
      ∃ pair ∈ (Surface.functions written).zip program.functions,
        ∃ implied, Printed.impliedSlot? pair.2.stage? pair.2.parameters = some implied ∧
          implied.name = "global_id" ∧ Printed.IsHygienic written pair.1 program pair.2 := by
  intro source written program
  have clean : hasErrors (check source {}).diagnostics = false := by decide +kernel
  have uses : ∃ pair ∈ (Surface.functions written).zip program.functions,
      (Printed.impliedSlot? pair.2.stage? pair.2.parameters).map Slot.name = some "global_id" ∧
        (∀ parameter ∈ pair.1.parameters, parameter.name ≠ "global_id") ∧
          ∀ reference ∈ Typed.references program pair.2.parameters pair.2,
            reference.name = "global_id" → reference.isLocal = true := by
    decide +kernel
  obtain ⟨pair, member, implies, apart, own⟩ := uses
  obtain ⟨implied, found, name⟩ := Option.map_eq_some_iff.mp implies
  rw [← name] at apart own
  have hygienic := ((implied_parameters_are_hygienic_iff source {} clean).2 pair member).2.2 implied found
  exact ⟨clean, pair, member, implied, found, name, hygienic.2.mpr ⟨apart, own⟩⟩

/-- Without a report, a parameter is printed beside an implied one of the same name, and a use of a
uniform becomes one of that. -/
theorem implied_parameter_captures :
    let doubled := check ⟨"doubled.shade", "@compute fn main(global_id: u32) { let x = global_id; }"⟩ {}
    let hidden := check ⟨"hidden.shade", "@group(0) @binding(0) uniform global_id: f32; " ++
      "@compute fn main() { let x = global_id; }"⟩ {}
    doubled.diagnostics = [] ∧ hidden.diagnostics = [] ∧
      (doubled.program.functions.map fun function =>
        (Printed.allParameters function).map Slot.name) = [["global_id", "global_id"]] ∧
      (hidden.program.functions.flatMap fun function =>
        (Typed.references hidden.program function.parameters function).map Reference.declaration) =
          [some (.uniform 0)] ∧
      (hidden.program.functions.flatMap fun function =>
        (Typed.references hidden.program (Printed.allParameters function) function).map
          Reference.declaration) = [some (.parameter 0)] := by
  decide +kernel

end Shading
