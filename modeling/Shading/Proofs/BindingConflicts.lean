import Shading.Proofs.OptionEffects

/-!
# Conflicts of bindings

A uniform is compared with all those in front of it, and each that asks for the same binding is reported
together with it. So there is one report for each two uniforms that ask for the same binding. A conflict
changes no uniform: all are kept in order, and a host sees them as they are declared.
-/

namespace Shading

open List

/-- What a uniform is declared as, without type and place. -/
abbrev Uniform.profile {Ascription : Type} (uniform : Uniform Ascription) :
    String × Nat × Nat × List Stage :=
  (uniform.name, uniform.group, uniform.binding, uniform.visibility)

/-- What a host sees of a uniform, but for its type. -/
abbrev UniformFacts.profile (facts : UniformFacts) : String × Nat × Nat × List Stage :=
  (facts.name, facts.group, facts.binding, facts.visibility)

/-- Whether a report is about two uniforms with one binding. -/
def Diagnostic.isConflict (report : Diagnostic) : Bool := report.code = .bindingConflict

namespace Analysis

open Typing (Context)
open Diagnostic (isConflict)

variable {uniforms : List (Uniform WrittenType)} {pair : Nat × Nat}

/-- Uniforms at two positions ask for the same binding. -/
def Clash (uniforms : List (Uniform WrittenType)) (pair : Nat × Nat) : Prop :=
  pair.1 < pair.2 ∧ ∃ earlier later, uniforms[pair.1]? = some earlier ∧
    uniforms[pair.2]? = some later ∧ earlier.group = later.group ∧ earlier.binding = later.binding

/-- An error that names both, at the later one and related to the earlier one. -/
def TellsClash (uniforms : List (Uniform WrittenType)) (pair : Nat × Nat) (report : Diagnostic) :
    Prop :=
  ∃ earlier later, uniforms[pair.1]? = some earlier ∧ uniforms[pair.2]? = some later ∧
    report.severity = .error ∧ report.location = some later.span ∧
      report.related.map Related.location = [some earlier.span] ∧
        report.message = s!"binding conflict: `{earlier.name}` and `{later.name}` both use @group({later.group}) @binding({later.binding})"

/-- One report for each pair with a property. -/
def OneForEach (uniforms : List (Uniform WrittenType)) (chosen : Nat × Nat → Prop)
    (reports : List Diagnostic) : Prop :=
  ∃ pairs : List (Nat × Nat), pairs.Nodup ∧ (∀ pair, pair ∈ pairs ↔ chosen pair) ∧
    List.Forall₂ (TellsClash uniforms) pairs reports

/-- Reports of disjoint properties can be joined. -/
theorem OneForEach.append {first second : Nat × Nat → Prop} {front back : List Diagnostic}
    (frontTold : OneForEach uniforms first front) (backTold : OneForEach uniforms second back)
    (apart : ∀ pair, first pair → ¬ second pair) :
    OneForEach uniforms (fun pair => first pair ∨ second pair) (front ++ back) := by
  obtain ⟨pairs, once, listed, told⟩ := frontTold
  obtain ⟨others, othersOnce, othersListed, othersTold⟩ := backTold
  refine ⟨pairs ++ others, ?_, fun pair => ?_, rel_append told othersTold⟩
  · refine nodup_append.mpr ⟨once, othersOnce, ?_⟩
    rintro pair member _ other rfl
    exact apart pair ((listed pair).mp member) ((othersListed pair).mp other)
  · rw [mem_append, listed, othersListed]

/-- Conflicts are no hints. -/
theorem isHint_of_tellsClash {pairs : List (Nat × Nat)} {reports : List Diagnostic}
    (told : List.Forall₂ (TellsClash uniforms) pairs reports) :
    ∀ report ∈ reports, isHint report = false := by
  induction told with
  | nil => exact forall_mem_nil _
  | cons here _ ih =>
    obtain ⟨_, _, _, _, severity, _⟩ := here
    exact forall_mem_cons.mpr ⟨by simp [isHint, severity], ih⟩

/-- A uniform is reported with each one before it that has its binding. -/
theorem conflictReports_oneForEach (context : Context) (before rest : List (Uniform WrittenType))
    (later : Uniform WrittenType) :
    OneForEach (before ++ later :: rest)
      (fun pair => pair.2 = before.length ∧ Clash (before ++ later :: rest) pair)
      (conflictReports (before.map (typedUniform context)) later) := by
  let clashing (entry : Uniform WrittenType × Nat) : Bool :=
    entry.1.group = later.group && entry.1.binding = later.binding
  have here : (before ++ later :: rest)[before.length]? = some later := by simp
  have front {position : Nat} {uniform : Uniform WrittenType}
      (found : before[position]? = some uniform) :
      position < before.length ∧ (before ++ later :: rest)[position]? = some uniform := by
    have inside := (List.getElem?_eq_some_iff.mp found).1
    exact ⟨inside, by rw [List.getElem?_append_left inside, found]⟩
  have reports : conflictReports (before.map (typedUniform context)) later =
      (before.zipIdx.filter clashing).map fun entry => bindingConflict entry.1.name later.name
        later.group later.binding later.span entry.1.span := by
    have same : before = before.zipIdx.map Prod.fst := (zipIdx_map_fst 0 before).symm
    conv_lhs => rw [same]
    rw [conflictReports, map_map, filter_map, map_map]
    rfl
  refine ⟨(before.zipIdx.filter clashing).map fun entry => (entry.2, before.length), ?_, ?_, ?_⟩
  · have positions : ((before.zipIdx.filter clashing).map Prod.snd).Nodup := by
      refine (filter_sublist.map Prod.snd).nodup ?_
      rw [zipIdx_map_snd]
      exact nodup_range'
    have pairs : (((before.zipIdx.filter clashing).map Prod.snd).map (·, before.length)).Nodup :=
      List.Pairwise.map _ (fun _ _ apart same => apart (Prod.mk.inj same).1) positions
    rwa [map_map] at pairs
  · rintro ⟨first, second⟩
    constructor
    · intro member
      obtain ⟨⟨uniform, position⟩, listed, same⟩ := mem_map.mp member
      cases same
      obtain ⟨found, alike⟩ := mem_filter.mp listed
      obtain ⟨inside, everywhere⟩ := front (mk_mem_zipIdx_iff_getElem?.mp found)
      have both : uniform.group = later.group ∧ uniform.binding = later.binding := by
        simpa [clashing] using alike
      exact ⟨rfl, inside, uniform, later, everywhere, here, both⟩
    · rintro ⟨rfl, inside, earlier, other, found, same, group, binding⟩
      rw [List.getElem?_append_left inside] at found
      rw [here] at same
      cases same
      refine mem_map.mpr ⟨(earlier, first), mem_filter.mpr ⟨?_, ?_⟩, rfl⟩
      · exact mk_mem_zipIdx_iff_getElem?.mpr found
      · simp [clashing, group, binding]
  · rw [reports, forall₂_map_left_iff, forall₂_map_right_iff, forall₂_same]
    rintro ⟨uniform, position⟩ member
    have found := mk_mem_zipIdx_iff_getElem?.mp (mem_of_mem_filter member)
    exact ⟨uniform, later, (front found).2, here, rfl, rfl, rfl, rfl⟩

/-- Other codes are no conflicts. -/
theorem isConflict_of_among {codes : List Code} {report : Diagnostic}
    (among : report.Among codes fun _ => True) (other : .bindingConflict ∉ codes) :
    report.isConflict = false :=
  decide_eq_false fun same => other (same ▸ among.code)

/-- The conflicts are those whose later uniform is collected now. -/
theorem collectEach_oneForEach (rest : List (Uniform WrittenType)) : ∀ (context : Context)
    (before : List (Uniform WrittenType)),
      OneForEach (before ++ rest) (fun pair => before.length ≤ pair.2 ∧ Clash (before ++ rest) pair)
        ((collectEach context (before.map (typedUniform context)) rest).log.filter
          isConflict) := by
  induction rest with
  | nil =>
    intro context before
    refine ⟨[], nodup_nil, fun pair => ⟨fun member => absurd member not_mem_nil, ?_⟩, .nil⟩
    rintro ⟨behind, _, _, later, _, found, _⟩
    rw [append_nil, getElem?_eq_none behind] at found
    cases found
  | cons first rest ih =>
    intro context before
    have types : (declaredType context first.ascription).log.filter isConflict = [] :=
      filter_eq_nil_iff.mpr fun report member => by
        simp [isConflict_of_among (declaredType_among trivial report member) (by decide)]
    have conflicts : (conflictReports (before.map (typedUniform context)) first).filter
        isConflict = conflictReports (before.map (typedUniform context)) first :=
      filter_eq_self.mpr (forall_mem_map.mpr fun _ _ => rfl)
    have later := ih (behindUniform context first) (before ++ [first])
    rw [map_append, append_assoc, length_append] at later
    simp only [collectEach, Logged.log_bind, value_declaredType, filter_append, types,
      nil_append, Logged.write, conflicts]
    have both := (conflictReports_oneForEach context before rest first).append later fun pair here there =>
      absurd here.1 (Nat.ne_of_gt there.1)
    obtain ⟨pairs, once, listed, told⟩ := both
    refine ⟨pairs, once, fun pair => (listed pair).trans ?_, told⟩
    change pair.2 = before.length ∧ Clash (before ++ first :: rest) pair ∨
      before.length + 1 ≤ pair.2 ∧ Clash (before ++ first :: rest) pair ↔ _
    rw [← or_and_right]
    exact and_congr_left' (by omega)

/-- Issues in bodies are no conflicts. -/
theorem isConflict_report (frame : Frame) (issue : Typing.Issue) :
    (frame.report issue).isConflict = false := by
  cases issue with
  | typing error span => exact isConflict_of_among (typing_among error trivial) (by decide)
  | undefinedFunction name span => rfl
  | unresolved name span =>
    unfold Frame.report
    dsimp only
    split <;> rfl

/-- A program tells each of its conflicts. -/
theorem conflicts_typeProgram (program : Surface.Program) :
    OneForEach (Surface.uniforms program) (Clash (Surface.uniforms program))
      ((typeProgram program).log.filter isConflict) := by
  have bodies : ((Surface.functions program).flatMap fun function => (typedBody (signedContext program)
      function (declaredSignature (boundContext program) function)).log.filter
        isConflict) = [] :=
    flatMap_eq_nil_iff.mpr fun function _ => filter_eq_nil_iff.mpr fun report member => by
      simp [forall_log_typedBody _ _ _ isConflict_report
        (fun _ among => isConflict_of_among among (by decide)) report member]
  have packing (uniforms : List (Uniform Typed.DeclaredType)) :
      (packingReports uniforms).filter isConflict = [] := by
    unfold packingReports
    split <;> rfl
  obtain ⟨pairs, once, listed, told⟩ :=
    collectEach_oneForEach (Surface.uniforms program) (structContext program) []
  rw [filter_typeProgram program fun report among => isConflict_of_among among (by decide), bodies,
    filter_usageReports _ fun report among => isConflict_of_among among (by decide), append_nil,
    append_nil]
  simp only [collectUniforms, Logged.log_bind, Logged.log_pure, filter_append, Logged.write,
    packing, append_nil]
  exact ⟨pairs, once, fun pair => (listed pair).trans (and_iff_right (Nat.zero_le _)), told⟩

/-- The reported conflicts correspond one to one to the pairs of uniforms with the same group and
binding: each is an error that names both, at the later and related to the earlier one. The analyzed
program and its reflection still list all uniforms in order. -/
theorem conflicts_are_reported_once (program : Surface.Program) (options : OptimizationOptions) :
    (∃ pairs : List (Nat × Nat), pairs.Nodup ∧
      (∀ pair, pair ∈ pairs ↔ Clash (Surface.uniforms program) pair) ∧
        List.Forall₂ (TellsClash (Surface.uniforms program)) pairs
          (((Analysis.of program).diagnostics ++ (Analysis.of program).hints).filter
            isConflict)) ∧
      (Analysis.of program).program.uniforms.map Uniform.profile =
        (Surface.uniforms program).map Uniform.profile ∧
        (Metadata.of ((Analysis.of program).program.optimize options)).uniforms.map
          UniformFacts.profile = (Surface.uniforms program).map Uniform.profile := by
  have kept : (Analysis.of program).program.uniforms.map Uniform.profile =
      (Surface.uniforms program).map Uniform.profile := by
    change (typeProgram program).value.uniforms.map Uniform.profile = _
    rw [uniforms_typeProgram, map_map]
    rfl
  refine ⟨?_, kept, ?_⟩
  · obtain ⟨pairs, once, listed, told⟩ := conflicts_typeProgram program
    have errors := isHint_of_tellsClash told
    have diagnostics : (Analysis.of program).diagnostics.filter isConflict =
        (typeProgram program).log.filter isConflict := by
      rw [diagnostics_of, filter_comm]
      exact filter_eq_self.mpr fun report member => by simp [errors report member]
    have hints : (Analysis.of program).hints.filter isConflict = [] := by
      change ((typeProgram program).log.filter isHint).filter isConflict = []
      rw [filter_comm]
      exact filter_eq_nil_iff.mpr fun report member => by simp [errors report member]
    rw [filter_append, diagnostics, hints, append_nil]
    exact ⟨pairs, once, listed, told⟩
  · rw [Typed.Program.metadata_optimize, ← kept]
    simp [Metadata.of]

end Analysis

end Shading
