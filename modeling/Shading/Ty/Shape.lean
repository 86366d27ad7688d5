import Shading.Ty

/-!
# Shape names

The names of vector and matrix types, `vec3`, `mat4x3`, `vec2f` and the like, tell a shape and
perhaps the type of the components. The same names build values in expressions.
-/

namespace Shading

/-- What the name of a vector or matrix type tells. -/
inductive Shape where
  | vector (size : Nat) (element : Option Scalar)
  | matrix (columns rows : Nat) (element : Option Scalar)
deriving DecidableEq, Repr

namespace Shape

/-- The size that a digit in a shape name stands for. -/
def size? : Char → Option Nat
  | '2' => some 2
  | '3' => some 3
  | '4' => some 4
  | _ => none

/-- The type of the components that the end of a shape name tells, if it tells one. -/
def suffix? : List Char → Option (Option Scalar)
  | [] => some none
  | [letter] => (Scalar.ofSuffix? letter).map some
  | _ => none

/-- The shape that the characters of a name tell. -/
def ofCharacters? : List Char → Option Shape
  | 'v' :: 'e' :: 'c' :: digit :: suffix => do
    let size ← size? digit
    let element ← suffix? suffix
    some (.vector size element)
  | 'm' :: 'a' :: 't' :: digit :: 'x' :: rest => do
    let columns ← size? digit
    match rest with
    | [] => none
    | second :: suffix =>
      let rows ← size? second
      let element ← suffix? suffix
      some (.matrix columns rows element)
  | 'm' :: 'a' :: 't' :: digit :: suffix => do
    let columns ← size? digit
    let element ← suffix? suffix
    some (.matrix columns columns element)
  | _ => none

/-- The shape of a name. -/
def ofName? (name : String) : Option Shape := ofCharacters? name.toList

/-- The type of the components, if the name tells it. -/
def element? : Shape → Option Scalar
  | .vector _ element => element
  | .matrix _ _ element => element

/-- The type of the components; where the name does not tell it, `f32`. -/
def defaultElement (shape : Shape) : Scalar := shape.element?.getD .f32

/-- The type of the shape with the given components. -/
def withElement (shape : Shape) (element : Scalar) : Ty :=
  match shape with
  | .vector size _ => .vector size element
  | .matrix columns rows _ => .matrix columns rows element

/-- Whether the shape is a matrix. -/
def isMatrix : Shape → Bool
  | .matrix .. => true
  | .vector .. => false

end Shape

end Shading
