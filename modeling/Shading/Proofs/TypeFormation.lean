import Shading.Proofs.InheritedTypes

/-!
# Formed types

A type is formed if its vectors and matrices have from two to four components each way and its textures
do not hold truth values. It is strictly formed if moreover its matrices are of floats and its arrays
have elements. Every rule of typing makes formed types of formed types, and strictly formed ones of
strictly formed ones but for three ways: a name such as `mat2i` tells integer components, the
constructor of a matrix takes its components from its arguments or its surroundings, and `array<f32>()`
has no elements.
-/

namespace Shading

namespace Ty

mutual

/-- Whether a type is formed, with `strict` strictly so. -/
def isFormed (strict : Bool) : Ty → Bool
  | .scalar _ => true
  | .vector size _ => 2 ≤ size && size ≤ 4
  | .matrix columns rows element =>
    (2 ≤ columns && columns ≤ 4) && (2 ≤ rows && rows ≤ 4) && (!strict || element.isFloat)
  | .array element size => element.isFormed strict && (!strict || size.all fun count => 0 < count)
  | .struct _ fields => areFormed strict fields
  | .sampler _ => true
  | .texture _ sample => sample ≠ .bool

/-- Whether the types of fields are formed. -/
def areFormed (strict : Bool) : List (String × Ty) → Bool
  | [] => true
  | (_, first) :: rest => first.isFormed strict && areFormed strict rest

end

section

variable (strict : Bool)

/-- Scalars are formed. -/
@[simp] theorem isFormed_scalar (element : Scalar) : (Ty.scalar element).isFormed strict = true := rfl

/-- Vectors have two to four components. -/
@[simp] theorem isFormed_vector (size : Nat) (element : Scalar) :
    (Ty.vector size element).isFormed strict = true ↔ 2 ≤ size ∧ size ≤ 4 := by
  simp [isFormed]

/-- Matrices have two to four each way, strictly of floats. -/
@[simp] theorem isFormed_matrix (columns rows : Nat) (element : Scalar) :
    (Ty.matrix columns rows element).isFormed strict = true ↔
      (2 ≤ columns ∧ columns ≤ 4) ∧ (2 ≤ rows ∧ rows ≤ 4) ∧ (strict = true → element.isFloat = true) := by
  cases strict <;> simp [isFormed, and_assoc]

/-- Arrays are not empty, if strict. -/
@[simp] theorem isFormed_array (element : Ty) (size : Option Nat) :
    (Ty.array element size).isFormed strict = true ↔
      element.isFormed strict = true ∧ (strict = true → ∀ count ∈ size, 0 < count) := by
  cases strict <;> cases size <;> simp [isFormed]

/-- Structs have formed fields. -/
@[simp] theorem isFormed_struct (name : String) (fields : List (String × Ty)) :
    (Ty.struct name fields).isFormed strict = true ↔
      ∀ field ∈ fields, field.2.isFormed strict = true := by
  rw [isFormed]
  induction fields with
  | nil => simp [areFormed]
  | cons first rest ih => simp [areFormed, ih]

/-- Textures hold numbers. -/
@[simp] theorem isFormed_texture (dimension : TextureDimension) (sample : Scalar) :
    (Ty.texture dimension sample).isFormed strict = true ↔ sample ≠ .bool := by
  simp [isFormed]

end

end Ty

namespace Typing

open Typed (Expr)

variable {strict : Bool}

/-- The name of a shape tells sizes from two to four. -/
theorem withElement_formed {name : String} {shape : Shape} (named : Shape.ofName? name = some shape)
    {element : Scalar} (float : strict = true → shape.isMatrix = true → element.isFloat = true) :
    (shape.withElement element).isFormed strict := by
  have sized {digit : Char} {size : Nat} (found : Shape.size? digit = some size) :
      2 ≤ size ∧ size ≤ 4 := by
    unfold Shape.size? at found
    split at found <;> cases found <;> decide
  unfold Shape.ofName? Shape.ofCharacters? at named
  split at named
  · obtain ⟨size, found, named⟩ := Option.bind_eq_some_iff.mp named
    obtain ⟨_, _, named⟩ := Option.bind_eq_some_iff.mp named
    cases named
    exact (Ty.isFormed_vector ..).mpr (sized found)
  · obtain ⟨columns, columnsFound, named⟩ := Option.bind_eq_some_iff.mp named
    split at named
    · cases named
    · obtain ⟨rows, rowsFound, named⟩ := Option.bind_eq_some_iff.mp named
      obtain ⟨_, _, named⟩ := Option.bind_eq_some_iff.mp named
      cases named
      exact (Ty.isFormed_matrix ..).mpr
        ⟨sized columnsFound, sized rowsFound, fun exact_ => float exact_ rfl⟩
  · obtain ⟨columns, found, named⟩ := Option.bind_eq_some_iff.mp named
    obtain ⟨_, _, named⟩ := Option.bind_eq_some_iff.mp named
    cases named
    exact (Ty.isFormed_matrix ..).mpr ⟨sized found, sized found, fun exact_ => float exact_ rfl⟩
  · cases named

/-- Whether a name is that of a matrix of integers. -/
def namesIntegers (name : String) : Bool :=
  match Shape.ofName? name with
  | some (.matrix _ _ (some element)) => !element.isFloat
  | _ => false

/-- With `strict`, all words but matrices of integers. -/
def floatWords (strict : Bool) : Vocabulary where
  word name := strict = true → namesIntegers name = false
  literal _ := True

/-- Named shapes are formed. -/
theorem defaultElement_formed {name : String} {shape : Shape}
    (named : Shape.ofName? name = some shape) (word : (floatWords strict).word name) :
    (shape.withElement shape.defaultElement).isFormed strict := by
  refine withElement_formed named fun strictly matrix => ?_
  have float := word strictly
  unfold namesIntegers at float
  cases shape with
  | vector => cases matrix
  | matrix columns rows element =>
    cases element with
    | none => rfl
    | some element =>
      rw [named] at float
      simpa [Shape.defaultElement, Shape.element?] using float

/-- Being formed is inherited. -/
theorem inherited_formed : Inherited (floatWords strict) fun type => type.isFormed strict where
  scalar _ := rfl
  shape name shape element named word component := by
    rcases component with rfl | float
    · exact defaultElement_formed named word
    · exact withElement_formed named fun _ => float
  array _ formed := (Ty.isFormed_array ..).mpr ⟨formed, nofun⟩
  sized element size formed positive _ := by
    refine (Ty.isFormed_array ..).mpr ⟨formed, ?_⟩
    rintro _ _ ⟨⟩
    exact positive
  sampler _ := rfl
  texture _ _ notBool := (Ty.isFormed_texture ..).mpr notBool

/-- A constructor of a matrix without floats or an empty array. -/
def isMalformed : Expr → Bool
  | .call (.constructor _) _ (some (.matrix _ _ element)) _ => !element.isFloat
  | .call (.constructor _) arguments (some (.array _ _)) _ => arguments.isEmpty
  | _ => false

/-- With `strict`, the expression is not malformed. -/
def IsSound (strict : Bool) (expression : Expr) : Prop :=
  strict = true → isMalformed expression = false

/-- Typing keeps types formed, strictly where no node is malformed. -/
theorem closed_formed (strict : Bool) :
    Closed (floatWords strict) (IsSound strict) fun type => type.isFormed strict where
  toInherited := inherited_formed
  vector least most := (Ty.isFormed_vector ..).mpr ⟨least, most⟩
  row formed := (Ty.isFormed_vector ..).mpr ((Ty.isFormed_matrix ..).mp formed).2.1
  column formed := (Ty.isFormed_vector ..).mpr ((Ty.isFormed_matrix ..).mp formed).1
  transposed formed := by
    obtain ⟨columns, rows, float⟩ := (Ty.isFormed_matrix ..).mp formed
    exact (Ty.isFormed_matrix ..).mpr ⟨rows, columns, float⟩
  product formed other := by
    obtain ⟨_, rows, float⟩ := (Ty.isFormed_matrix ..).mp formed
    obtain ⟨columns, _⟩ := (Ty.isFormed_matrix ..).mp other
    exact (Ty.isFormed_matrix ..).mpr ⟨columns, rows, float⟩
  field formed := (Ty.isFormed_struct ..).mp formed
  shaped {name shape element written arguments span} named sound := by
    refine withElement_formed named fun strictly matrix => ?_
    cases shape with
    | vector => cases matrix
    | matrix => simpa [isMalformed, Shape.withElement] using sound strictly
  element formed := ((Ty.isFormed_array ..).mp formed).1
  counted {element written arguments span} formed sound := by
    refine (Ty.isFormed_array ..).mpr ⟨formed, ?_⟩
    rintro strictly _ ⟨⟩
    exact List.length_pos_iff.mpr (List.isEmpty_eq_false_iff.mp (sound strictly))
  struct _ formed := (Ty.isFormed_struct ..).mpr formed

end Typing

end Shading
