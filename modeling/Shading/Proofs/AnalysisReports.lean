import Shading.Proofs.AnalyzedDeclarations
import Shading.Proofs.Places

/-!
# Codes and places of reports

What the analysis reports beside issues with expressions is about a type, a declaration, a statement or
a function as a whole. It has one of a few codes for each of them and stands at its place.
-/

namespace Shading

open List

variable {program : Surface.Program} {structs : List (Struct WrittenType)}
  {seen : List (String × Span)} {frame : Frame} {earlier : List (Uniform DeclaredType)}

/-- All reports have one of some codes and name held places. -/
def AllAmong (codes : List Code) (held : Span → Prop) (log : List Diagnostic) : Prop :=
  ∀ report ∈ log, report.Among codes held

namespace AllAmong

variable {codes more : List Code} {held : Span → Prop} {log rest : List Diagnostic}
  {report : Diagnostic}

/-- No reports are among any codes. -/
theorem nil : AllAmong codes held [] := forall_mem_nil _

/-- One report counts for itself. -/
theorem one (among : report.Among codes held) : AllAmong codes held [report] :=
  forall_mem_singleton.mpr among

/-- Reports can be joined. -/
theorem append (front : AllAmong codes held log) (back : AllAmong codes held rest) :
    AllAmong codes held (log ++ rest) :=
  forall_mem_append.mpr ⟨front, back⟩

/-- Reports may depend on a condition. -/
theorem when {condition : Prop} [Decidable condition] (among : AllAmong codes held log) :
    AllAmong codes held (if condition then log else []) := by
  split
  · exact among
  · exact nil

/-- Reports about each item count together. -/
theorem flatMap {α : Type} {items : List α} {reports : α → List Diagnostic}
    (each : ∀ item ∈ items, AllAmong codes held (reports item)) :
    AllAmong codes held (items.flatMap reports) := by
  intro report member
  obtain ⟨item, listed, told⟩ := mem_flatMap.mp member
  exact each item listed report told

/-- More codes may be admitted. -/
theorem mono (among : AllAmong codes held log) (subset : codes ⊆ more) : AllAmong more held log :=
  fun report member => ⟨subset (among report member).code, (among report member).places⟩

end AllAmong

namespace Analysis

open Typing (Binding Context)
open Typed (DeclaredType)

variable {context : Context} {held : Span → Prop}

/-- A repetition is reported at a name and related to another. -/
theorem forall_repeated {report : String → Span → Span → Diagnostic} {property : Diagnostic → Prop}
    (each : ∀ name span first, held span → held first → property (report name span first))
    {names : List (String × Span)} (seenHeld : ∀ entry ∈ seen, held entry.2)
    (namesHeld : ∀ entry ∈ names, held entry.2) :
    ∀ told ∈ repeated report seen names, property told := by
  induction names generalizing seen with
  | nil => exact forall_mem_nil _
  | cons entry rest ih =>
    obtain ⟨here, later⟩ := forall_mem_cons.mp namesHeld
    unfold repeated
    split
    · rename_i first found
      obtain ⟨before, behind, split, _⟩ := lookup_eq_some_iff.mp found
      have firstHeld : held first := seenHeld (entry.1, first) (by simp [split])
      exact forall_mem_cons.mpr ⟨each _ _ _ here firstHeld, ih seenHeld later⟩
    · exact ih (forall_mem_cons.mpr ⟨here, seenHeld⟩) later

/-- Repeated declarations are reported as such. -/
theorem repeatedDeclarations_among (each : ∀ declaration ∈ program, held declaration.span) :
    AllAmong [.duplicateDeclaration] held (repeatedDeclarations program) :=
  forall_repeated (fun _ _ _ => .pair .duplicateDeclaration (by decide) rfl rfl)
    (forall_mem_nil _) (forall_mem_map.mpr each)

/-- The codes of reports about types. -/
abbrev typeCodes : List Code := [.unknownStruct, .unrecognizedType]

/-- What is wrong with a type is told there. -/
theorem reports_among {written : WrittenType} (here : held written.span) (resolution : Resolution) :
    AllAmong typeCodes held (resolution.reports context written) := by
  cases resolution with
  | unknown name =>
    refine .one ?_
    unfold unknownType
    split
    · exact .single .unknownStruct (by decide) rfl rfl here
    · exact .single .unrecognizedType (by decide) rfl rfl here
  | invalid message => exact .one (.single .unrecognizedType (by decide) rfl rfl here)
  | resolved | pending => exact .nil

/-- What is wrong with a declared type is told there. -/
theorem declaredType_among {written : WrittenType} (here : held written.span) :
    AllAmong typeCodes held (declaredType context written).log := by
  rw [log_declaredType]
  exact reports_among here _

/-- What is wrong with an ascription is told there. -/
theorem ascribed_among {ascription : Option WrittenType}
    (each : ∀ written ∈ ascription, held written.span) :
    AllAmong typeCodes held (ascribed frame ascription).log := by
  cases ascription with
  | none => exact .nil
  | some written => exact (declaredType_among (each written rfl)).append .nil

/-- The places of a parameter or field have a property. -/
structure SlotHeld (held : Span → Prop) (slot : Slot WrittenType) : Prop where
  name : held slot.span
  type : held slot.ascription.span

/-- The places of a struct have a property. -/
structure StructHeld (held : Span → Prop) (struct : Struct WrittenType) : Prop where
  name : held struct.span
  fields : ∀ field ∈ struct.fields, SlotHeld held field

/-- The codes of reports about the fields of a struct as such. -/
abbrev fieldCodes : List Code := [.emptyStruct, .duplicateField]

/-- Fields are reported as such. -/
theorem fieldReports_among {struct : Struct WrittenType} (here : StructHeld held struct) :
    AllAmong fieldCodes held (fieldReports struct) := by
  refine .append (.when (.one (.single .emptyStruct (by decide) rfl rfl here.name))) ?_
  refine forall_repeated (fun field span first => .pair .duplicateField (by decide) rfl rfl)
    (forall_mem_nil _) ?_
  exact forall_mem_map.mpr fun field member => (here.fields field member).name

/-- A round tells about types only. -/
theorem structRound_among (waiting : List String)
    (each : ∀ struct ∈ structs, StructHeld held struct) :
    AllAmong typeCodes held (structRound waiting context structs).log := by
  induction structs generalizing context with
  | nil => exact .nil
  | cons first rest ih =>
    obtain ⟨here, later⟩ := forall_mem_cons.mp each
    unfold structRound
    dsimp only
    split
    · exact (ih later).append .nil
    · refine .append (.flatMap ?_) (ih later)
      exact forall_mem_map.mpr fun field member => reports_among (here.fields field member).type _

/-- Structs in circles are told as types. -/
theorem defineCyclic_among (waiting : List String)
    (each : ∀ struct ∈ structs, StructHeld held struct) :
    AllAmong typeCodes held (defineCyclic waiting context structs).log := by
  induction structs generalizing context with
  | nil => exact .nil
  | cons first rest ih =>
    obtain ⟨here, later⟩ := forall_mem_cons.mp each
    exact .append (.one (.single .unknownStruct (by decide) rfl rfl here.name)) (ih later)

/-- All rounds tell about types only. -/
theorem defineStructs_among (bound : Nat) (each : ∀ struct ∈ structs, StructHeld held struct) :
    AllAmong typeCodes held (defineStructs bound context structs).log := by
  induction bound generalizing context structs with
  | zero => exact .nil
  | succ bound ih =>
    have blocked : ∀ struct ∈ (structRound (structs.map Struct.name) context structs).value.2,
        StructHeld held struct := fun struct member => each struct
      ((structRound_keeps (fun _ => True) (fun _ _ _ _ => trivial) trivial).2 member)
    unfold defineStructs
    split
    · exact .nil
    · refine .append (structRound_among _ each) ?_
      dsimp only
      split
      · exact defineCyclic_among _ blocked
      · exact ih blocked

/-- Structs are reported for fields and types. -/
theorem collectStructs_among (each : ∀ struct ∈ Surface.structs program, StructHeld held struct) :
    AllAmong (fieldCodes ++ typeCodes) held (collectStructs program context).log := by
  have distinct : ∀ struct ∈ distinctStructs [] (Surface.structs program), StructHeld held struct :=
    fun struct member => each struct (mem_of_mem_distinctStructs member)
  refine .append (.mono (.flatMap fun struct member => fieldReports_among (distinct struct member))
    (subset_append_left ..)) ?_
  exact .append ((defineStructs_among _ distinct).mono (subset_append_right ..)) .nil

/-- The codes of reports about uniforms. -/
abbrev uniformCodes : List Code := typeCodes ++ [.bindingConflict, .uniformPacking]

/-- The places of a uniform have a property. -/
structure UniformHeld (held : Span → Prop) (uniform : Uniform WrittenType) : Prop where
  name : held uniform.span
  type : held uniform.ascription.span

/-- Conflicts are told at uniforms. -/
theorem conflictReports_among {later : Uniform WrittenType}
    (before : ∀ uniform ∈ earlier, held uniform.span) (here : held later.span) :
    AllAmong uniformCodes held (conflictReports earlier later) :=
  forall_mem_map.mpr fun uniform member =>
    .pair .bindingConflict (by decide) rfl rfl here (before uniform (mem_filter.mp member).1)

/-- Uniforms are reported at their places. -/
theorem collectEach_among {uniforms : List (Uniform WrittenType)}
    (before : ∀ uniform ∈ earlier, held uniform.span)
    (each : ∀ uniform ∈ uniforms, UniformHeld held uniform) :
    AllAmong uniformCodes held (collectEach context earlier uniforms).log := by
  induction uniforms generalizing context earlier with
  | nil => exact .nil
  | cons first rest ih =>
    obtain ⟨here, later⟩ := forall_mem_cons.mp each
    refine .append ((declaredType_among here.type).mono (subset_append_left ..)) ?_
    refine .append (conflictReports_among before here.name) (ih ?_ later)
    exact forall_mem_append.mpr ⟨before, forall_mem_singleton.mpr here.name⟩

/-- The uniforms of a program are reported at their places. -/
theorem collectUniforms_among
    (each : ∀ uniform ∈ Surface.uniforms program, UniformHeld held uniform) :
    AllAmong uniformCodes held (collectUniforms program context).log := by
  refine .append (collectEach_among (forall_mem_nil _) each) (.append ?_ .nil)
  change AllAmong uniformCodes held
    (packingReports (collectEach context [] (Surface.uniforms program)).value.1)
  rw [value_collectEach, nil_append]
  unfold packingReports
  split
  · rename_i first found
    obtain ⟨uniform, listed, rfl⟩ := mem_map.mp (mem_of_getElem? found)
    exact .one (.single .uniformPacking (by decide) rfl rfl (each uniform listed).name)
  · exact .nil

/-- The codes of reports about signatures. -/
abbrev signatureCodes : List Code := typeCodes ++ [.duplicateDeclaration, .invalidEntryPoint]

/-- The places of a signature have a property. -/
structure SignatureHeld (held : Span → Prop) (function : Function Surface.Expr WrittenType) :
    Prop where
  name : held function.span
  parameters : ∀ parameter ∈ function.parameters, SlotHeld held parameter
  returnType : ∀ written ∈ function.returnType, held written.span

/-- Parameters are reported at their places. -/
theorem collectParameters_among {parameters : List (Slot WrittenType)}
    (before : ∀ entry ∈ seen, held entry.2)
    (each : ∀ parameter ∈ parameters, SlotHeld held parameter) :
    AllAmong signatureCodes held (collectParameters context seen parameters).log := by
  induction parameters generalizing seen with
  | nil => exact .nil
  | cons first rest ih =>
    obtain ⟨here, later⟩ := forall_mem_cons.mp each
    have type : AllAmong signatureCodes held (declaredType context first.ascription).log :=
      (declaredType_among here.type).mono (subset_append_left ..)
    rw [log_collectParameters_cons]
    split
    · rename_i earlier found
      obtain ⟨front, behind, split, _⟩ := lookup_eq_some_iff.mp found
      have firstHeld : held earlier := before (first.name, earlier) (by simp [split])
      exact forall_mem_cons.mpr ⟨.pair .duplicateDeclaration (by decide) rfl rfl here.name firstHeld,
        type.append (ih before later)⟩
    · exact type.append (ih (forall_mem_cons.mpr ⟨here.name, before⟩) later)

/-- Signatures are reported at their places. -/
theorem signatureReports_among {function : Function Surface.Expr WrittenType}
    (here : SignatureHeld held function) :
    AllAmong signatureCodes held (signatureReports context function) := by
  refine .append (.when (.one (.single .invalidEntryPoint (by decide) rfl rfl here.name))) ?_
  refine .append (collectParameters_among (forall_mem_nil _) here.parameters) ?_
  cases written : function.returnType with
  | none => exact .nil
  | some type =>
    have told := @declaredType_among context held type (here.returnType type written)
    exact .append (told.mono (subset_append_left ..)) .nil

/-- A mismatch is told at the value. -/
theorem mismatchReports_among {report : Ty → Ty → Span → Diagnostic} (code : Code)
    (same : ∀ expected found span, (report expected found span).code = code)
    (only : ∀ expected found span, (report expected found span).places = [span])
    (expected : Option Ty) {value : Typed.Expr} (here : held value.span) :
    AllAmong [code] held (mismatchReports report expected value) := by
  unfold mismatchReports
  split
  · split
    · exact .nil
    · exact .one (.single code mem_cons_self (same ..) (only ..) here)
  · exact .nil

/-- A target is told to be immutable. -/
theorem targetReports_among
    (bound : ∀ name binding, context.lookup? name = some binding → held binding.span)
    {target : Typed.Expr} (here : held target.span) :
    AllAmong [.assignToImmutable] held (targetReports context target) := by
  unfold targetReports
  split
  · exact .one (.single .assignToImmutable (by decide) rfl rfl here)
  · rename_i name _
    split
    · rename_i binding found
      split
      · exact .nil
      · exact .one (.pair .assignToImmutable (by decide) rfl rfl here (bound name binding found))
    · exact .nil

/-- A name is told to be declared twice. -/
theorem redeclarationReports_among
    (bound : ∀ name binding, frame.context.lookup? name = some binding → held binding.span)
    (name : String) {span : Span} (here : held span) :
    AllAmong [.duplicateDeclaration] held (frame.redeclarationReports name span) := by
  refine .when ?_
  cases found : frame.context.lookup? name with
  | none => exact .one (.single .duplicateDeclaration (by decide) rfl rfl here)
  | some binding =>
    exact .one (.pair .duplicateDeclaration (by decide) rfl rfl here (bound name binding found))

/-- The places of a typed function have a property. -/
structure TypedHeld (held : Span → Prop) (function : TypedFunction) : Prop where
  name : held function.span
  nodes : ∀ node ∈ Typed.functionNodes function, held node.span

/-- The codes of reports about entry points. -/
abbrev entryCodes : List Code :=
  [.fragmentReturnsVoid, .invalidEntryPoint, .noEntryPoints, .complementaryStage]

/-- The codes of reports about what could be cheaper. -/
abbrev costCodes : List Code := [.divisionInBody, .smallIntegerPow]

/-- The codes of reports about functions as a whole. -/
abbrev usageCodes : List Code := .unusedFunction :: (entryCodes ++ costCodes)

section Usage

variable {functions : List TypedFunction} {function : TypedFunction}

/-- Stages are told at functions. -/
theorem stageReports_among (here : TypedHeld held function) :
    AllAmong entryCodes held (stageReports function) := by
  unfold stageReports
  split
  · exact .one (.single .fragmentReturnsVoid (by decide) rfl rfl here.name)
  · exact .one (.single .invalidEntryPoint (by decide) rfl rfl here.name)
  · exact .one (.single .invalidEntryPoint (by decide) rfl rfl here.name)
  · exact .nil

/-- Entry points are told at functions. -/
theorem entryPointReports_among (each : ∀ function ∈ functions, TypedHeld held function) :
    AllAmong entryCodes held (entryPointReports functions) := by
  have first {stage : Stage} {function : TypedFunction}
      (found : firstOfStage? functions stage = some function) : held function.span :=
    (each function (mem_of_find?_eq_some found)).name
  refine .append (.flatMap fun function member => stageReports_among (each function member)) ?_
  split
  · exact forall_mem_singleton.mpr ⟨by decide, forall_mem_nil _⟩
  · unfold pairingReports
    split
    · rename_i found _
      exact .one (.single .complementaryStage (by decide) rfl rfl (first found))
    · rename_i found
      exact .one (.single .complementaryStage (by decide) rfl rfl (first found))
    · exact .nil

/-- Unused functions are told at functions. -/
theorem unusedReports_among (each : ∀ function ∈ functions, TypedHeld held function) :
    AllAmong usageCodes held (unusedReports functions) := by
  intro told member
  obtain ⟨function, listed, found⟩ := mem_filterMap.mp member
  split at found
  · cases found
    exact .single .unusedFunction (by decide) rfl rfl (each function listed).name
  · cases found

/-- Divisions and powers are told at nodes. -/
theorem performanceReports_among (here : TypedHeld held function) :
    AllAmong costCodes held (performanceReports function) := by
  refine .append ?_ ?_
  · split
    · rename_i first rest places
      have divided : first ∈ divisionPlaces function := by
        rw [places]
        exact mem_cons_self
      obtain ⟨node, listed, found⟩ := mem_filterMap.mp divided
      split at found
      · cases found
        exact .one (.single .divisionInBody (by decide) rfl rfl (here.nodes _ listed))
      · cases found
    · exact .nil
  · intro told member
    obtain ⟨node, listed, found⟩ := mem_filterMap.mp member
    split at found
    · obtain ⟨exponent, _, rfl⟩ := Option.map_eq_some_iff.mp found
      exact .single .smallIntegerPow (by decide) rfl rfl (here.nodes _ listed)
    · cases found

/-- What functions are used for is told there. -/
theorem usageReports_among (each : ∀ function ∈ functions, TypedHeld held function) :
    AllAmong usageCodes held (usageReports functions) :=
  .append ((entryPointReports_among each).mono (by simp)) (.append (unusedReports_among each)
    (.flatMap fun function member => (performanceReports_among (each function member)).mono (by simp)))

end Usage

end Analysis

end Shading
