import Shading.Proofs.FormedPrograms
import Shading.Proofs.ProgramReading

/-!
# The printed interface is read back

The interface of a program is what the host binds: its structs and its uniforms. Analysis takes their
names, decorators and addresses over, and gives them types that can be written. So the code of the
interface is read back as the same structs and uniforms, in order.
-/

namespace Shading

open List

open Typed (DeclaredType)

namespace Surface

/-- A count is no greater than the greatest unsigned integer. -/
theorem le_greatestU32_of_counts {vocabulary : Vocabulary} {value : Nat}
    (counts : vocabulary.Counts value) : (value : Int) ≤ Number.greatestU32 := by
  obtain ⟨literal, _, index⟩ := counts
  obtain ⟨_, same⟩ := Option.ite_none_right_eq_some.mp index
  obtain rfl := Option.some.inj same
  have positive : (0 : Int) ≤ Number.greatestU32 := by decide
  have clamped : literal.value.truncate 0 Number.greatestU32 ≤ Number.greatestU32 := by
    unfold Binary64.truncate
    split
    · exact Int.max_le.mpr ⟨positive, Int.min_le_left ..⟩
    · split
      · exact positive
      · exact Int.le_refl _
  omega

/-- Listed stages are not none. -/
theorem ne_nil_of_lists {stages : List Stage} (listed : written.Lists stages) : stages ≠ [] :=
  listed.elim id id

/-- A decorator that is read can be written. -/
theorem legible_attribute {decorator : Attribute} (has : written.HasAttribute decorator) :
    decorator.Legible := by
  cases decorator with
  | stage => trivial
  | workgroupSize dimensions =>
    obtain ⟨least, most, sizes⟩ := has
    exact ⟨least, most, fun size member =>
      ⟨(sizes size member).1, le_greatestU32_of_counts (sizes size member).2⟩⟩
  | group | binding | location => exact le_greatestU32_of_counts has
  | visibility stages => exact ne_nil_of_lists has
  | builtin name => exact has

mutual

/-- A type that is read can be written. -/
theorem legible_type : (type : WrittenType) → written.HasType type → type.Legible
  | .mk _ arguments _, ⟨name, has⟩ => ⟨name, legible_arguments arguments has⟩

/-- Arguments are legible. -/
theorem legible_argument : (argument : TypeArgument) → written.HasArgument argument →
    argument.Legible
  | .type type, has => legible_type type has
  | .size _, has => le_greatestU32_of_counts has

/-- Lists of arguments are legible. -/
theorem legible_arguments : (arguments : List TypeArgument) → written.HasArguments arguments →
    TypeArgument.AllLegible arguments
  | [], _ => trivial
  | first :: rest, ⟨firstHas, restHas⟩ =>
    ⟨legible_argument first firstHas, legible_arguments rest restHas⟩

end

end Surface

namespace Typing

/-- Types written in source texts are well-formed. -/
theorem inherited_wellFormed : Inherited Surface.written Ty.WellFormed where
  scalar _ := trivial
  shape name shape element named _ _ := by
    have formed := @withElement_formed false name shape named element nofun
    cases shape with
    | vector size => exact (Ty.isFormed_vector ..).mp formed
    | matrix columns rows =>
      obtain ⟨columnsFit, rowsFit, _⟩ := (Ty.isFormed_matrix ..).mp formed
      exact ⟨columnsFit, rowsFit⟩
  array _ wellFormed := ⟨wellFormed, nofun⟩
  sized element size wellFormed positive counts := by
    refine ⟨wellFormed, ?_⟩
    rintro _ ⟨⟩
    exact ⟨positive, Surface.le_greatestU32_of_counts counts⟩
  sampler _ := trivial
  texture _ _ _ := trivial

/-- The structs that a context knows can be written. -/
def Context.StructsWellFormed (context : Context) : Prop :=
  ∀ entry ∈ context.structs, entry.2.WellFormed

end Typing

namespace Analysis

open Typing (Context)

/-- Types that are not resolved nest no deeper than is read. -/
def UnresolvedShallow (declared : DeclaredType) : Prop :=
  declared.resolved = none → declared.spelling.depth ≤ Surface.nestingLimit

variable {context : Context}

/-- An ascription can be written. -/
theorem declaredSilently_legible (structs : context.StructsWellFormed) {written : WrittenType}
    (has : Surface.written.HasType written) (shallow : written.depth ≤ Surface.nestingLimit) :
    (declaredSilently context written).Legible ∧
      UnresolvedShallow (declaredSilently context written) := by
  cases resolved : context.resolve? written with
  | some type =>
    have wellFormed := Typing.resolve_inherits Typing.inherited_wellFormed structs has resolved
    have declared : (declaredSilently context written).resolved = some type := resolved
    refine ⟨DeclaredType.legible_resolved declared wellFormed, fun unresolved => ?_⟩
    rw [declared] at unresolved
    cases unresolved
  | none =>
    obtain ⟨legible, depth⟩ := @DeclaredType.legible_unresolved (declaredSilently context written) _
      resolved rfl (Surface.legible_type written has) shallow
    exact ⟨legible, fun _ => depth⟩

/-- A defined struct is well-formed. -/
theorem defineStruct_wellFormed (structs : context.StructsWellFormed) {struct : Struct WrittenType}
    (named : Lexer.IsName struct.name) (fields : List (Slot WrittenType × Resolution)) :
    (defineStruct context struct fields).StructsWellFormed := by
  intro entry member
  rcases mem_append.mp member with old | new
  · exact structs entry (mem_filter.mp old).1
  · rw [mem_singleton.mp new]
    exact named

/-- A field can be written. -/
theorem typedField_ready (structs : context.StructsWellFormed) {slot : Slot WrittenType}
    (has : Surface.written.features.HasSlot slot) :
    (typedSlot slot (declaredSilently context slot.ascription)).Legible ∧
      UnresolvedShallow (declaredSilently context slot.ascription) := by
  obtain ⟨legible, shallow⟩ := declaredSilently_legible structs has.type.1 has.type.2
  exact ⟨⟨fun decorator member => Surface.legible_attribute (has.attributes decorator member),
    has.name, legible⟩, shallow⟩

/-- A struct can be written, and what is not resolved is shallow. -/
structure StructReady (struct : Struct DeclaredType) : Prop where
  legible : struct.Legible
  shallow : ∀ field ∈ struct.fields, UnresolvedShallow field.ascription

/-- A uniform can be written, and what is not resolved is shallow. -/
structure UniformReady (uniform : Uniform DeclaredType) : Prop where
  legible : uniform.Legible
  shallow : UnresolvedShallow uniform.ascription

/-- The structs of a program that is read can be written. -/
theorem collectStructs_ready {program : Surface.Program}
    (has : ∀ declaration ∈ program, Surface.written.features.HasDeclaration declaration) :
    (collectStructs program .empty).value.2.StructsWellFormed ∧
      ∀ struct ∈ (collectStructs program .empty).value.1, StructReady struct := by
  have each : ∀ struct ∈ distinctStructs [] (Surface.structs program),
      Surface.written.features.HasStruct struct :=
    fun struct member => has _ (Surface.mem_structs.mp (mem_of_mem_distinctStructs member))
  have defined := defineStructs_keeps Context.StructsWellFormed
    (distinctStructs [] (Surface.structs program)).length
    (fun context waiting struct member structs =>
      defineStruct_wellFormed structs (each struct member).name _)
    (nofun : Context.empty.StructsWellFormed)
  refine ⟨defined, ?_⟩
  intro struct member
  obtain ⟨written, inside, rfl⟩ := mem_map.mp member
  obtain ⟨named, slots⟩ := each written inside
  constructor
  · refine ⟨named, fun field listed => ?_⟩
    obtain ⟨slot, slotInside, rfl⟩ := mem_map.mp listed
    exact (typedField_ready defined (slots slot slotInside)).1
  · intro field listed
    obtain ⟨slot, slotInside, rfl⟩ := mem_map.mp listed
    exact (typedField_ready defined (slots slot slotInside)).2

/-- The uniforms of a program that is read can be written. -/
theorem typedUniform_ready (structs : context.StructsWellFormed) {uniform : Uniform WrittenType}
    (has : Surface.written.features.HasUniform uniform) : UniformReady (typedUniform context uniform) := by
  obtain ⟨group, binding, visibility⟩ := has.address
  have address {index : Nat} (given : index = 0 ∨ Surface.written.Counts index) :
      (index : Int) ≤ Number.greatestU32 := by
    rcases given with rfl | counts
    · decide
    · exact Surface.le_greatestU32_of_counts counts
  obtain ⟨legible, depth⟩ := declaredSilently_legible structs has.type.1 has.type.2
  exact ⟨⟨has.name, legible, address group, address binding, Surface.ne_nil_of_lists visibility⟩, depth⟩

/-- Structs and uniforms of an analyzed program can be written. -/
theorem interface_ready (source : SourceText) :
    (∀ struct ∈ (typeProgram (Surface.read source).1).value.structs, StructReady struct) ∧
      ∀ uniform ∈ (typeProgram (Surface.read source).1).value.uniforms, UniformReady uniform := by
  have has := Surface.read_hasDeclaration source
  obtain ⟨structs, structsReady⟩ := collectStructs_ready has
  rw [structs_typeProgram, uniforms_typeProgram]
  exact ⟨structsReady, forall_mem_map.mpr fun uniform member =>
    typedUniform_ready structs (has _ (Surface.mem_uniforms.mp member))⟩

end Analysis

/-- A struct is read back with the texts of its types. -/
theorem Struct.of_unplaced {declaration : Surface.Declaration} {printed : Struct DeclaredType}
    (legible : printed.Legible)
    (same : declaration.unplaced = .struct (printed.bare DeclaredType.spelling)) :
    ∃ read, declaration = .struct read ∧
      read.bare WrittenType.text = printed.bare DeclaredType.text := by
  cases declaration with
  | struct read =>
    have texts := congrArg (Struct.bare WrittenType.text) (Surface.Declaration.struct.inj same)
    have fields : printed.fields.map (Slot.bare fun declared => declared.spelling.text) =
        printed.fields.map (Slot.bare DeclaredType.text) :=
      map_congr_left fun field member => by
        rw [Slot.bare, Slot.bare, (legible.fields field member).ascription.text]
    simp only [Struct.bare, map_map, Function.comp_def, Slot.bare, WrittenType.text_unplaced]
      at texts
    exact ⟨read, rfl, texts.trans (congrArg (Struct.mk printed.name · .none) fields)⟩
  | function | uniform => cases same

/-- A uniform is read back with the text of its type. -/
theorem Uniform.of_unplaced {declaration : Surface.Declaration} {printed : Uniform DeclaredType}
    (legible : printed.Legible)
    (same : declaration.unplaced = .uniform (printed.bare DeclaredType.spelling)) :
    ∃ read, declaration = .uniform read ∧
      read.bare WrittenType.text = printed.bare DeclaredType.text := by
  cases declaration with
  | uniform read =>
    have texts := congrArg (Uniform.bare WrittenType.text) (Surface.Declaration.uniform.inj same)
    simp only [Uniform.bare, WrittenType.text_unplaced, legible.ascription.text] at texts
    exact ⟨read, rfl, texts⟩
  | function | struct => cases same

/-- If each declaration is read as printed, so are all. -/
theorem declarations_of_unplaced {Printed Read Text : Type} {print : Printed → Surface.Declaration}
    {declare : Read → Surface.Declaration} {shown : Printed → Text} {seen : Read → Text}
    {printed : List Printed} {declarations : List Surface.Declaration}
    (each : ∀ one ∈ printed, ∀ declaration : Surface.Declaration, declaration.unplaced = print one →
      ∃ read, declaration = declare read ∧ seen read = shown one)
    (same : declarations.map Surface.Declaration.unplaced = printed.map print) :
    ∃ reads : List Read, declarations = reads.map declare ∧ reads.map seen = printed.map shown := by
  induction printed generalizing declarations with
  | nil =>
    obtain rfl := map_eq_nil_iff.mp same
    exact ⟨[], rfl, rfl⟩
  | cons first rest ih =>
    obtain ⟨declaration, others, rfl, here, later⟩ := map_eq_cons_iff.mp same
    obtain ⟨firstEach, restEach⟩ := forall_mem_cons.mp each
    obtain ⟨read, rfl, text⟩ := firstEach declaration here
    obtain ⟨reads, rfl, texts⟩ := ih restEach later
    exact ⟨read :: reads, rfl, by rw [map_cons, map_cons, text, texts]⟩

/-- The structs and uniforms of a program alone. -/
def Typed.Program.interface (program : Program) : Program :=
  { program with functions := [], entryPoints := [] }

/-- The interface has no entry points, so it is generated. -/
theorem Typed.Program.generate_interface (program : Program) (file : String) (withMap : Bool) :
    ∃ generated, program.interface.generate file withMap = .ok generated ∧
      generated.code = Printed.code (Printed.program program.interface) :=
  ⟨_, rfl, rfl⟩

/-- It is read back if its declarations can be written. -/
theorem Typed.Program.read_interface {program : Program}
    (structs : ∀ struct ∈ program.structs, Analysis.StructReady struct)
    (uniforms : ∀ uniform ∈ program.uniforms, Analysis.UniformReady uniform)
    (shallow : ∀ type ∈ program.interface.types, type.written.depth ≤ Surface.nestingLimit)
    (name file : String) (withMap : Bool) :
    ∃ (generated : Generated) (readStructs : List (Struct WrittenType))
      (readUniforms : List (Uniform WrittenType)),
      program.interface.generate file withMap = .ok generated ∧
        Surface.read ⟨name, generated.code⟩ =
            (readStructs.map .struct ++ readUniforms.map .uniform, []) ∧
          readStructs.map (Struct.bare WrittenType.text) =
              program.structs.map (Struct.bare DeclaredType.text) ∧
            readUniforms.map (Uniform.bare WrittenType.text) =
              program.uniforms.map (Uniform.bare DeclaredType.text) := by
  have depth {declared : DeclaredType} (unresolved : Analysis.UnresolvedShallow declared)
      (resolved : ∀ type ∈ declared.resolved, type ∈ program.interface.types) :
      declared.spelling.depth ≤ Surface.nestingLimit := by
    cases known : declared.resolved with
    | none => exact unresolved known
    | some type =>
      rw [DeclaredType.spelling, known]
      exact shallow type (resolved type known)
  have legible : program.interface.Legible :=
    ⟨fun struct member => (structs struct member).legible,
      fun uniform member => (uniforms uniform member).legible⟩
  have shallowAll : program.interface.Shallow := by
    refine ⟨fun struct member field inside => ?_, fun uniform member => ?_⟩
    · refine depth ((structs struct member).shallow field inside) fun type resolved => ?_
      simp only [types, mem_append, mem_flatMap, mem_filterMap]
      exact .inl (.inl ⟨struct, member, field, inside, resolved⟩)
    · refine depth (uniforms uniform member).shallow fun type resolved => ?_
      simp only [types, mem_append, mem_flatMap, mem_filterMap]
      exact .inl (.inr ⟨uniform, member, resolved⟩)
  obtain ⟨declarations, read, same⟩ := read_code legible shallowAll rfl name
  obtain ⟨front, back, rfl, frontSame, backSame⟩ := map_eq_append_iff.mp same
  obtain ⟨readStructs, rfl, structTexts⟩ := declarations_of_unplaced
    (fun struct member _ => Struct.of_unplaced (legible.structs struct member)) frontSame
  obtain ⟨readUniforms, rfl, uniformTexts⟩ := declarations_of_unplaced
    (fun uniform member _ => Uniform.of_unplaced (legible.uniforms uniform member)) backSame
  obtain ⟨generated, made, code⟩ := program.generate_interface file withMap
  rw [← code] at read
  exact ⟨generated, readStructs, readUniforms, made, read, structTexts, uniformTexts⟩

/-- The code of the interface of an analyzed program is read without a report as the same structs
and uniforms, in order: with the same names, fields, decorators, addresses and visibility, and types
of the same texts. -/
theorem interface_reads_back (source : SourceText)
    (shallow : ∀ type ∈ (Analysis.of (Surface.read source).1).program.interface.types,
      type.written.depth ≤ Surface.nestingLimit) (name file : String) (withMap : Bool) :
    let program := (Analysis.of (Surface.read source).1).program
    ∃ (generated : Generated) (structs : List (Struct WrittenType))
      (uniforms : List (Uniform WrittenType)),
      program.interface.generate file withMap = .ok generated ∧
        Surface.read ⟨name, generated.code⟩ = (structs.map .struct ++ uniforms.map .uniform, []) ∧
          structs.map (Struct.bare WrittenType.text) =
              program.structs.map (Struct.bare DeclaredType.text) ∧
            uniforms.map (Uniform.bare WrittenType.text) =
              program.uniforms.map (Uniform.bare DeclaredType.text) := by
  have typed : (Analysis.of (Surface.read source).1).program =
      (Analysis.typeProgram (Surface.read source).1).value := rfl
  rw [typed] at shallow ⊢
  obtain ⟨structs, uniforms⟩ := Analysis.interface_ready source
  exact Typed.Program.read_interface structs uniforms shallow name file withMap

/-- A struct with an unknown type, and a uniform with its stages in a comment. -/
def lights : SourceText :=
  ⟨"lights.shade", "struct Light \x7b @location(1) place: vec3f, lost: Missing<f32, 2> \x7d
    // visibility: fragment
    @group(1) @binding(4294967295) var lights: array<Light, 4>;"⟩

/-- The interface of that program is read back. -/
theorem lights_interface_reads_back :
    (∀ type ∈ (Analysis.of (Surface.read lights).1).program.interface.types,
        type.written.depth ≤ Surface.nestingLimit) ∧
      ∃ (generated : Generated) (structs : List (Struct WrittenType))
        (uniforms : List (Uniform WrittenType)),
        (Analysis.of (Surface.read lights).1).program.interface.generate "lights.shade" true =
            .ok generated ∧
          Surface.read ⟨"lights.wgsl", generated.code⟩ =
              (structs.map .struct ++ uniforms.map .uniform, []) ∧
            structs.map (Struct.bare WrittenType.text) =
                (Analysis.of (Surface.read lights).1).program.structs.map
                  (Struct.bare DeclaredType.text) ∧
              uniforms.map (Uniform.bare WrittenType.text) =
                (Analysis.of (Surface.read lights).1).program.uniforms.map
                  (Uniform.bare DeclaredType.text) := by
  have shallow : ∀ type ∈ (Analysis.of (Surface.read lights).1).program.interface.types,
      type.written.depth ≤ Surface.nestingLimit := by
    decide +kernel
  exact ⟨shallow, interface_reads_back lights shallow "lights.wgsl" "lights.shade" true⟩

end Shading
