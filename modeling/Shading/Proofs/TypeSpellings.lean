import Shading.Proofs.WrittenTypes
import Shading.Typing.Context

/-!
# The spelling of a type stands for the type

If the parts of a type fit together, its text is divided into tokens, read and resolved as that type
again, wherever the struct that it names is declared as it is.
-/

namespace Shading

open List WrittenType

variable {written inner : WrittenType} {size : Nat} {type : Ty}

namespace Ty

/-- How deep the angle brackets of a type are nested. -/
def nesting : Ty → Nat
  | .scalar _ => 0
  | .vector .. => 1
  | .matrix .. => 1
  | .array element _ => element.nesting + 1
  | .struct .. => 0
  | .sampler _ => 0
  | .texture .depthTwo _ => 0
  | .texture .. => 1

/-- Whether a name is that of a builtin type. -/
def isBuiltinName (name : String) : Bool :=
  (Scalar.ofName? name).isSome || (Shape.ofName? name).isSome ||
    (TextureDimension.ofTypeName? name).isSome ||
      ["array", "sampler", "sampler_comparison"].contains name

/-- Vectors and matrices have two to four components each way, matrices of floats; arrays a positive
count; structs names of their own; textures numbers, `f32` for depths. -/
def Spellable : Ty → Prop
  | .scalar _ => True
  | .vector size _ => 2 ≤ size ∧ size ≤ 4
  | .matrix columns rows element =>
    ((2 ≤ columns ∧ columns ≤ 4) ∧ 2 ≤ rows ∧ rows ≤ 4) ∧ element.isFloat = true
  | .array element size =>
    element.Spellable ∧ ∀ count ∈ size, 0 < count ∧ (count : Int) ≤ Number.greatestU32
  | .struct name _ => Lexer.IsName name ∧ isBuiltinName name = false
  | .sampler _ => True
  | .texture .depthTwo sample => sample = .f32
  | .texture _ sample => sample ≠ .bool

/-- The struct that the text names is declared as it is. -/
def DeclaredIn (context : Typing.Context) : Ty → Prop
  | .array element _ => element.DeclaredIn context
  | .struct name fields => context.struct? name = some (.struct name fields)
  | _ => True

/-- What is spellable is well-formed. -/
theorem Spellable.wellFormed : {type : Ty} → type.Spellable → type.WellFormed
  | .scalar _, _ => trivial
  | .vector _ _, sized | .matrix _ _ _, ⟨sized, _⟩ => sized
  | .array _ _, ⟨element, counted⟩ => ⟨element.wellFormed, counted⟩
  | .struct _ _, ⟨named, _⟩ => named
  | .sampler _, _ | .texture _ _, _ => trivial

/-- The written form nests as deep. -/
theorem depth_written (type : Ty) : type.written.depth = type.nesting := by
  fun_induction written type <;>
    simp_all [WrittenType.depth, TypeArgument.depths, TypeArgument.depth, nesting]

end Ty

namespace WrittenType

variable {named : WrittenType → Option Ty} {name : String} {arguments : List TypeArgument} {span : Span}

/-- Without arguments it is the name alone. -/
theorem eq_of_unplaced_plain (same : written.unplaced = .mk name [] .none) :
    ∃ span, written = .mk name [] span := by
  obtain ⟨found, arguments, span⟩ := written
  rw [unplaced, TypeArgument.allUnplaced_eq, mk.injEq, map_eq_nil_iff] at same
  obtain ⟨rfl, rfl, _⟩ := same
  exact ⟨span, rfl⟩

/-- With one argument it is the name with that. -/
theorem eq_of_unplaced_applied (same : written.unplaced = .mk name [.type inner] .none) :
    ∃ argument span, written = .mk name [.type argument] span ∧ argument.unplaced = inner := by
  obtain ⟨found, arguments, span⟩ := written
  rw [unplaced, TypeArgument.allUnplaced_eq, mk.injEq, map_eq_singleton_iff] at same
  obtain ⟨rfl, ⟨argument, rfl, inside⟩, _⟩ := same
  cases argument with
  | type argument => exact ⟨argument, span, rfl, TypeArgument.type.inj inside⟩
  | size => cases inside

/-- With a size it is the name with both. -/
theorem eq_of_unplaced_sized (same : written.unplaced = .mk name [.type inner, .size size] .none) :
    ∃ argument span, written = .mk name [.type argument, .size size] span ∧ argument.unplaced = inner := by
  obtain ⟨found, arguments, span⟩ := written
  rw [unplaced, TypeArgument.allUnplaced_eq, mk.injEq, map_eq_cons_iff] at same
  obtain ⟨rfl, ⟨argument, rest, rfl, inside, others⟩, _⟩ := same
  obtain ⟨second, rfl, sized⟩ := map_eq_singleton_iff.mp others
  cases argument with
  | type argument =>
    cases second with
    | type => cases sized
    | size value =>
      obtain rfl := TypeArgument.size.inj sized
      exact ⟨argument, span, rfl, TypeArgument.type.inj inside⟩
  | size => cases inside

/-- What is resolved as a builtin type is resolved. -/
theorem resolve_of_builtin (builtin : resolveBuiltin named written = .ok (some type)) :
    written.resolve named = .ok type := by
  simp [resolve, resolveArgument, builtin, bind, Except.bind]

/-- A scalar stands for itself. -/
theorem resolve_scalar (element : Scalar) (span : Span) :
    resolve named (.mk element.name [] span) = .ok (.scalar element) :=
  resolve_of_builtin (by simp [resolveBuiltin, Scalar.ofName?_name])

/-- A shape with components stands for itself. -/
theorem resolve_shape {shape : Shape} {element : Scalar} (other : Scalar.ofName? name = none)
    (shaped : Shape.ofName? name = some shape) (floats : shape.isMatrix = true → element.isFloat = true)
    (inner span : Span) :
    resolve named (.mk name [.type (.mk element.name [] inner)] span) =
      .ok (shape.withElement element) := by
  have component : resolveArgument named (.type (.mk element.name [] inner)) = .ok (.scalar element) :=
    resolve_scalar element inner
  have admitted : (shape.isMatrix && !element.isFloat) = false := by
    cases matrix : shape.isMatrix with
    | false => rfl
    | true => rw [floats matrix]; rfl
  refine resolve_of_builtin ?_
  simp [resolveBuiltin, other, shaped, component, WrittenType.shaped, admitted, bind, Except.bind]

/-- An array stands for one of its element. -/
theorem resolve_array (element : WrittenType) (span : Span) :
    resolve named (.mk "array" [.type element] span) =
      (element.resolve named).map fun type => .array type none := by
  have scalar : Scalar.ofName? "array" = none := rfl
  have shape : Shape.ofName? "array" = none := by decide
  rw [resolve, resolveArgument, resolveBuiltin, scalar, shape]
  show _ = (resolveArgument named (.type element)).map _
  cases resolveArgument named (.type element) <;> rfl

/-- An array with a size stands for one of its element. -/
theorem resolve_sized (element : WrittenType) (positive : 0 < size) (span : Span) :
    resolve named (.mk "array" [.type element, .size size] span) =
      (element.resolve named).map fun type => .array type (some size) := by
  have scalar : Scalar.ofName? "array" = none := rfl
  have shape : Shape.ofName? "array" = none := by decide
  rw [resolve, resolveArgument, resolveBuiltin, scalar, shape]
  rw [if_pos positive]
  show _ = (resolveArgument named (.type element)).map _
  cases resolveArgument named (.type element) <;> rfl

/-- A texture with samples stands for itself. -/
theorem resolve_texture {dimension : TextureDimension} {sample : Scalar} (flat : dimension ≠ .depthTwo)
    (number : sample ≠ .bool) (inner span : Span) :
    resolve named (.mk dimension.typeName [.type (.mk sample.name [] inner)] span) =
      .ok (.texture dimension sample) := by
  have inside : resolveArgument named (.type (.mk sample.name [] inner)) = .ok (.scalar sample) :=
    resolve_scalar sample inner
  have admitted : sampled dimension (.scalar sample) = .ok (.texture dimension sample) := by
    cases sample with
    | bool => exact absurd rfl number
    | f32 | f16 | i32 | u32 => rfl
  refine resolve_of_builtin ?_
  have scalar : Scalar.ofName? dimension.typeName = none := by cases dimension <;> rfl
  have shape : Shape.ofName? dimension.typeName = none := by cases dimension <;> decide
  cases dimension with
  | depthTwo => exact absurd rfl flat
  | _ => simp_all [resolveBuiltin, TextureDimension.typeName, TextureDimension.ofTypeName?, bind, Except.bind]

/-- A name that is not builtin is left to the caller. -/
theorem resolveBuiltin_of_free (free : Ty.isBuiltinName name = false) (span : Span) :
    resolveBuiltin named (.mk name [] span) = .ok none := by
  simp only [Ty.isBuiltinName, Bool.or_eq_false_iff, Option.isSome_eq_false_iff,
    Option.isNone_iff_eq_none] at free
  obtain ⟨⟨⟨scalar, shape⟩, texture⟩, others⟩ := free
  unfold resolveBuiltin
  rw [scalar, shape]
  dsimp only
  -- The names with a case of their own are builtin names.
  split
  · cases others
  · cases others
  · cases others
  · cases texture
  · rw [texture]

/-- A name that is not builtin stands for its declaration. -/
theorem resolve_declared (free : Ty.isBuiltinName name = false)
    (declared : named (.mk name [] span) = some type) :
    resolve named (.mk name [] span) = .ok type := by
  simp [resolve, resolveArgument, resolveBuiltin_of_free free, declared, bind, Except.bind]

end WrittenType

namespace Ty

/-- The written form is resolved as the type. -/
theorem resolve_written (context : Typing.Context) : {type : Ty} → type.Spellable →
    type.DeclaredIn context → {written : WrittenType} → written.unplaced = type.written →
      written.resolve context.named? = .ok type
  | .scalar element, _, _, written, same => by
    obtain ⟨span, rfl⟩ := eq_of_unplaced_plain same
    exact resolve_scalar element span
  | .vector size element, ⟨least, most⟩, _, written, same => by
    obtain ⟨argument, span, rfl, inside⟩ := eq_of_unplaced_applied same
    obtain ⟨inner, rfl⟩ := eq_of_unplaced_plain inside
    obtain ⟨_, other, shape⟩ := name_vector least most
    exact resolve_shape other shape nofun inner span
  | .matrix columns rows element, ⟨⟨⟨leastColumns, mostColumns⟩, leastRows, mostRows⟩, float⟩, _,
      written, same => by
    obtain ⟨argument, span, rfl, inside⟩ := eq_of_unplaced_applied same
    obtain ⟨inner, rfl⟩ := eq_of_unplaced_plain inside
    obtain ⟨_, other, shape⟩ := name_matrix leastColumns mostColumns leastRows mostRows
    exact resolve_shape other shape (fun _ => float) inner span
  | .array element none, ⟨spellable, _⟩, declared, written, same => by
    obtain ⟨argument, span, rfl, inside⟩ := eq_of_unplaced_applied same
    rw [resolve_array, resolve_written context spellable declared inside]
    rfl
  | .array element (some size), ⟨spellable, counted⟩, declared, written, same => by
    obtain ⟨argument, span, rfl, inside⟩ := eq_of_unplaced_sized same
    rw [resolve_sized _ (counted size rfl).1,
      resolve_written context spellable declared inside]
    rfl
  | .struct name fields, ⟨_, free⟩, declared, written, same => by
    obtain ⟨span, rfl⟩ := eq_of_unplaced_plain same
    exact resolve_declared free declared
  | .sampler false, _, _, written, same | .sampler true, _, _, written, same => by
    obtain ⟨span, rfl⟩ := eq_of_unplaced_plain same
    rfl
  | .texture dimension sample, fits, _, written, same => by
    cases dimension with
    | depthTwo =>
      obtain ⟨span, rfl⟩ := eq_of_unplaced_plain same
      obtain rfl : sample = .f32 := fits
      rfl
    | one | two | twoArray | three | cube =>
      obtain ⟨argument, span, rfl, inside⟩ := eq_of_unplaced_applied same
      obtain ⟨inner, rfl⟩ := eq_of_unplaced_plain inside
      exact resolve_texture (by decide) fits inner span

/-- The text of a type is read without a report, to its end, and resolved as the type. -/
theorem text_resolves {type : Ty} {context : Typing.Context} (spellable : type.Spellable)
    (shallow : type.nesting ≤ Surface.nestingLimit) (declared : type.DeclaredIn context)
    (file : String) :
    (tokenize ⟨file, type.text⟩).diagnostics = [] ∧
      ∃ written after,
        Surface.writtenType Surface.nestingLimit (Surface.cursorAt ⟨file, type.text⟩) =
            .ok (written, after) ∧
          after.atEnd ∧ context.resolve? written = some type := by
  have legible := legible_written spellable.wellFormed
  obtain ⟨divided, silent⟩ := (type.written.spells legible).tokenize Lexer.stops_nil file
  rw [text_written] at divided silent
  have ahead : (Surface.cursorAt ⟨file, type.text⟩).kinds = type.written.tokens ++ [] := by
    rw [append_nil]
    exact Surface.kinds_cursorAt_plain divided type.written.tokens_plain
  have depth : type.written.depth ≤ Surface.nestingLimit := by rwa [depth_written]
  obtain ⟨written, after, read, same, behind⟩ := type.written.reads legible depth _ [] ahead nofun
  rw [unplaced_written] at same
  refine ⟨silent, written, after, read, ?_, ?_⟩
  · rw [Surface.Cursor.atEnd, List.isEmpty_iff]
    exact map_eq_nil_iff.mp behind
  · rw [Typing.Context.resolve?, resolve_written context spellable declared same]
    rfl

/-- A run-time array of rows of a declared struct. -/
theorem rows_of_lights_resolve :
    let light : Ty := .struct "Light" [("place", .vector 3 .f32)]
    let rows : Ty := .array (.array light (some 4)) none
    let context := Typing.Context.empty.defineStruct "Light" light
    rows.text = "array<array<Light, 4>>" ∧
      (tokenize ⟨"lights.glint", rows.text⟩).diagnostics = [] ∧
        ∃ written after,
          Surface.writtenType Surface.nestingLimit (Surface.cursorAt ⟨"lights.glint", rows.text⟩) =
              .ok (written, after) ∧
            after.atEnd ∧ context.resolve? written = some rows := by
  intro light rows context
  have named : light.Spellable := by
    show Lexer.IsName "Light" ∧ isBuiltinName "Light" = false
    decide
  have sized : ∀ count ∈ some (4 : Nat), 0 < count ∧ (count : Int) ≤ Number.greatestU32 := by decide
  have spellable : rows.Spellable := ⟨⟨named, sized⟩, nofun⟩
  have declared : rows.DeclaredIn context := rfl
  exact ⟨by decide, text_resolves spellable (by decide) declared "lights.glint"⟩

end Ty

end Shading
