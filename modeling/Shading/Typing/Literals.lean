import Shading.Typed

/-!
# Literals that take their type from the context

A numeric literal without a suffix, perhaps behind minus signs, takes the scalar type that its
context expects, if that type holds its value. The value stays as it is.
-/

namespace Shading

/-- The scalar type of literals of a kind. -/
def Number.Kind.scalar : Number.Kind → Scalar
  | .abstract | .f32 => .f32
  | .f16 => .f16
  | .i32 => .i32
  | .u32 => .u32

namespace Typed

/-- Whether a scalar type holds a value that is written with or without a fraction. -/
def holds (target : Scalar) (value : Binary64) (integral : Bool) : Bool :=
  match target with
  | .f32 => true
  | .f16 =>
    value.isFinite && -Number.greatestF16 * Binary64.one ≤ value.key &&
      value.key ≤ Number.greatestF16 * Binary64.one
  | .i32 =>
    integral && Number.leastI32 * Binary64.one ≤ value.key &&
      value.key ≤ Number.greatestI32 * Binary64.one
  | .u32 => integral && 0 ≤ value.key && value.key ≤ Number.greatestU32 * Binary64.one
  | .bool => false

namespace Expr

/-- The value of a signed literal, and whether it has no fraction. -/
def literalValue? : Expr → Option (Binary64 × Bool)
  | .number literal _ _ => some (literal.value, literal.integral)
  | .unary .negate operand _ _ =>
    operand.literalValue?.map fun (value, integral) => (value.negate, integral)
  | _ => none

/-- The kind of a literal that is given a scalar type. -/
def kindFor (target : Scalar) (kind : Number.Kind) : Number.Kind :=
  match target with
  | .f16 => .f16
  | .i32 => .i32
  | .u32 => .u32
  | .f32 | .bool => kind

/-- Gives a literal and the unary operators in front of it a scalar type. -/
def retype (target : Scalar) : Expr → Expr
  | .number literal _ span =>
    .number { literal with kind := kindFor target literal.kind } (some (.scalar target)) span
  | .unary operator operand _ span =>
    .unary operator (operand.retype target) (some (.scalar target)) span
  | other => other

/-- Gives a literal without suffix the expected type, if that holds its value. -/
def coerce (target : Scalar) (expression : Expr) : Expr :=
  if target = .f32 || !target.isNumeric || !expression.isAbstractLiteral then expression
  else match expression.literalValue? with
    | some (value, integral) =>
      if holds target value integral then expression.retype target else expression
    | none => expression

/-- The same, if a type is expected. -/
def coerceTo (target : Option Scalar) (expression : Expr) : Expr :=
  match target with
  | some target => expression.coerce target
  | none => expression

/-- The component type of the first expression other than such a literal. -/
def concreteElement? (expressions : List Expr) : Option Scalar :=
  (expressions.filter fun expression => !expression.isAbstractLiteral).findSome? element?

/-- Gives such literals the component type of the others. -/
def unify (expressions : List Expr) : List Expr :=
  expressions.map (coerceTo (concreteElement? expressions))

/-- The types of expressions, if all of them have one. -/
def types? (expressions : List Expr) : Option (List Ty) := expressions.mapM type

end Expr

end Typed

end Shading
