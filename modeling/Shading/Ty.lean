/-!
# Types

The values of the language are scalars, vectors and matrices of scalars, arrays, structs, and the
opaque handles of samplers and textures. A type is told apart by its structure; a struct by its name
and its fields.
-/

namespace Shading

/-- A scalar type. -/
inductive Scalar where
  | f32
  | f16
  | i32
  | u32
  | bool
deriving DecidableEq, Repr, Inhabited

namespace Scalar

/-- The name of a scalar type. -/
def name : Scalar → String
  | .f32 => "f32"
  | .f16 => "f16"
  | .i32 => "i32"
  | .u32 => "u32"
  | .bool => "bool"

/-- The scalar type of a name. -/
def ofName? : String → Option Scalar
  | "f32" => some .f32
  | "f16" => some .f16
  | "i32" => some .i32
  | "u32" => some .u32
  | "bool" => some .bool
  | _ => none

/-- Scalars are found by their names. -/
theorem ofName?_name (scalar : Scalar) : ofName? scalar.name = some scalar := by
  cases scalar <;> rfl

/-- The scalar type that the last letter of a shape name stands for. -/
def ofSuffix? : Char → Option Scalar
  | 'f' => some .f32
  | 'h' => some .f16
  | 'i' => some .i32
  | 'u' => some .u32
  | _ => none

/-- Whether there is arithmetic on the type. -/
def isNumeric : Scalar → Bool
  | .bool => false
  | _ => true

/-- Whether the type holds fractions. -/
def isFloat : Scalar → Bool
  | .f32 | .f16 => true
  | _ => false

end Scalar

/-- The layout of a texture. -/
inductive TextureDimension where
  | one
  | two
  | twoArray
  | three
  | cube
  | depthTwo
deriving DecidableEq, Repr, Inhabited

namespace TextureDimension

/-- The name of the texture type with the layout. -/
def typeName : TextureDimension → String
  | .one => "texture_1d"
  | .two => "texture_2d"
  | .twoArray => "texture_2d_array"
  | .three => "texture_3d"
  | .cube => "texture_cube"
  | .depthTwo => "texture_depth_2d"

/-- The layout that the name of a texture type stands for. -/
def ofTypeName? : String → Option TextureDimension
  | "texture_1d" => some .one
  | "texture_2d" => some .two
  | "texture_2d_array" => some .twoArray
  | "texture_3d" => some .three
  | "texture_cube" => some .cube
  | "texture_depth_2d" => some .depthTwo
  | _ => none

end TextureDimension

/-- The type of a value. -/
inductive Ty where
  | scalar (element : Scalar)
  | vector (size : Nat) (element : Scalar)
  /-- `columns` vectors of `rows` components each. -/
  | matrix (columns rows : Nat) (element : Scalar)
  /-- An array; without a size its length is known when the program runs. -/
  | array (element : Ty) (size : Option Nat)
  /-- A struct with its fields in declared order. -/
  | struct (name : String) (fields : List (String × Ty))
  | sampler (comparison : Bool)
  | texture (dimension : TextureDimension) (sample : Scalar)
deriving Repr, Inhabited

namespace Ty

mutual

/-- Whether two types are the same. -/
def same : Ty → Ty → Bool
  | .scalar left, .scalar right => left = right
  | .vector leftSize left, .vector rightSize right => leftSize = rightSize && left = right
  | .matrix leftColumns leftRows left, .matrix rightColumns rightRows right =>
    leftColumns = rightColumns && leftRows = rightRows && left = right
  | .array left leftSize, .array right rightSize => same left right && leftSize = rightSize
  | .struct leftName left, .struct rightName right => leftName = rightName && sameFields left right
  | .sampler left, .sampler right => left = right
  | .texture leftDimension left, .texture rightDimension right =>
    leftDimension = rightDimension && left = right
  | _, _ => false

/-- Whether two lists of fields are the same. -/
def sameFields : List (String × Ty) → List (String × Ty) → Bool
  | [], [] => true
  | (leftName, left) :: leftRest, (rightName, right) :: rightRest =>
    leftName = rightName && same left right && sameFields leftRest rightRest
  | _, _ => false

end

mutual

/-- Equal types are the same. -/
theorem same_iff : (left right : Ty) → (same left right = true ↔ left = right)
  | .scalar _, right => by cases right <;> simp [same]
  | .vector _ _, right => by cases right <;> simp [same]
  | .matrix _ _ _, right => by cases right <;> simp [same, and_assoc]
  | .array left _, right => by
    cases right with
    | array right _ => simp [same, same_iff left right]
    | _ => simp [same]
  | .struct _ left, right => by
    cases right with
    | struct _ right => simp [same, sameFields_iff left right]
    | _ => simp [same]
  | .sampler _, right => by cases right <;> simp [same]
  | .texture _ _, right => by cases right <;> simp [same]

/-- Equal fields are the same. -/
theorem sameFields_iff : (left right : List (String × Ty)) →
    (sameFields left right = true ↔ left = right)
  | [], right => by cases right <;> simp [sameFields]
  | (_, left) :: leftRest, right => by
    cases right with
    | nil => simp [sameFields]
    | cons head rightRest =>
      obtain ⟨rightName, right⟩ := head
      simp [sameFields, same_iff left right, sameFields_iff leftRest rightRest]

end

instance : DecidableEq Ty := fun left right =>
  decidable_of_iff (same left right = true) (same_iff left right)

/-- The type of truth values. -/
abbrev bool : Ty := .scalar .bool

/-- How a type is written. -/
def text : Ty → String
  | .scalar element => element.name
  | .vector size element => "vec" ++ size.repr ++ "<" ++ element.name ++ ">"
  | .matrix columns rows element =>
    "mat" ++ columns.repr ++ "x" ++ rows.repr ++ "<" ++ element.name ++ ">"
  | .array element (some size) => "array<" ++ element.text ++ ", " ++ size.repr ++ ">"
  | .array element none => "array<" ++ element.text ++ ">"
  | .struct name _ => name
  | .sampler false => "sampler"
  | .sampler true => "sampler_comparison"
  | .texture .depthTwo _ => "texture_depth_2d"
  | .texture dimension sample => dimension.typeName ++ "<" ++ sample.name ++ ">"

/-- Whether the type is a single scalar. -/
def isScalar : Ty → Bool
  | .scalar _ => true
  | _ => false

/-- Whether the type is a vector. -/
def isVector : Ty → Bool
  | .vector .. => true
  | _ => false

/-- The scalar type of a scalar or of components. -/
def element? : Ty → Option Scalar
  | .scalar element => some element
  | .vector _ element => some element
  | .matrix _ _ element => some element
  | _ => none

/-- Whether the type is a single number. -/
def isNumericScalar : Ty → Bool
  | .scalar element => element.isNumeric
  | _ => false

/-- Whether there is arithmetic on the type. -/
def isNumeric (type : Ty) : Bool := type.element?.any Scalar.isNumeric

/-- How many components it gives to a vector built from it. -/
def componentCount? : Ty → Option Nat
  | .scalar _ => some 1
  | .vector size _ => some size
  | _ => none

/-- The same shape with other components, or else a scalar. -/
def withElement (type : Ty) (element : Scalar) : Ty :=
  match type with
  | .vector size _ => .vector size element
  | .matrix columns rows _ => .matrix columns rows element
  | _ => .scalar element

/-- The type of a field of a struct. -/
def field? (type : Ty) (name : String) : Option Ty :=
  match type with
  | .struct _ fields => fields.lookup name
  | _ => none

/-- Whether values of the type are opaque handles, which lie in no buffer. -/
def isHandle : Ty → Bool
  | .sampler _ => true
  | .texture .. => true
  | _ => false

end Ty

end Shading
