import Shading.Diagnostic
import Shading.Typed
import Shading.Typing.Swizzle

/-!
# Typing errors

Everything that a typing rule can refuse, with its code, its wording and what may have been meant.
-/

namespace Shading

/-- Why the arguments of a constructor do not make a value of its type. -/
inductive ConstructorError where
  | cannotConvert (argument : Ty)
  | cannotSplat (argument : Scalar)
  | wrongComponent (argument : Ty) (element : Scalar)
  | wrongComponentCount (size found : Nat)
  | wrongMatrixArguments (columns rows : Nat) (element : Scalar)
  | notVectorOrMatrix
  | notArray
  | wrongElement (found expected : Ty)
deriving DecidableEq, Repr

/-- The wording of a constructor error. -/
def ConstructorError.message : ConstructorError → String
  | .cannotConvert argument => "cannot convert `" ++ argument.text ++ "`"
  | .cannotSplat argument => "cannot splat `" ++ argument.name ++ "`"
  | .wrongComponent argument element =>
    "component `" ++ argument.text ++ "` does not have element type `" ++ element.name ++ "`"
  | .wrongComponentCount size found =>
    "expected " ++ size.repr ++ " components, found " ++ found.repr
  | .wrongMatrixArguments columns rows element =>
    "expected " ++ columns.repr ++ " `" ++ (Ty.vector rows element).text ++ "` columns or " ++
      (rows * columns).repr ++ " scalars"
  | .notVectorOrMatrix => "not a vector or matrix type"
  | .notArray => "not an array type"
  | .wrongElement found expected =>
    "element `" ++ found.text ++ "` is not `" ++ expected.text ++ "`"

/-- Why an expression has no type. -/
inductive TypingError where
  | invalidOperands (operator : BinaryOperator) (left right : Ty)
  | dimensionMismatch (operator : BinaryOperator) (left right : Ty)
  | vectorSizeMismatch (operator : BinaryOperator) (left right : Ty)
  | invalidOperand (operator : UnaryOperator) (operand : Ty)
  | invalidSwizzle (swizzle : String) (size : Nat) (element : Scalar)
  | unknownField (struct : String) (fields : List String) (field : String)
  | noMember (base : Ty) (name : String)
  | invalidIndex (index : Ty)
  | notIndexable (base : Ty)
  | constructor (target : Ty) (error : ConstructorError)
  | emptyArray
  | wrongElementCount (target : Ty) (expected found : Nat)
  | wrongConversionCount (target : Scalar) (found : Nat)
  | wrongArgumentCount (function : String) (expected found : Nat)
  | wrongArgument (position : Nat) (function : String) (expected found : Ty)
  | wrongFieldCount (struct : Ty) (expected found : Nat)
  | wrongField (expected found : Ty)
  | invalidConstructor (written : String)
  | builtinCall (builtin : Builtin) (error : Builtin.CallError)
deriving DecidableEq, Repr

namespace TypingError

/-- The code of a typing error. -/
def code : TypingError → Code
  | .invalidOperands .. => .invalidOperandTypes
  | .dimensionMismatch .. => .matrixDimensionMismatch
  | .vectorSizeMismatch .. => .vectorSizeMismatch
  | .invalidOperand .. => .invalidOperandTypes
  | .invalidSwizzle .. => .invalidSwizzle
  | .unknownField .. => .unknownField
  | .noMember .. => .unknownField
  | .invalidIndex _ => .typeMismatch
  | .notIndexable _ => .notIndexable
  | .constructor .. => .constructorComponentMismatch
  | .emptyArray => .constructorComponentMismatch
  | .wrongElementCount .. => .wrongArgumentCount
  | .wrongConversionCount .. => .wrongArgumentCount
  | .wrongArgumentCount .. => .wrongArgumentCount
  | .wrongArgument .. => .typeMismatch
  | .wrongFieldCount .. => .wrongArgumentCount
  | .wrongField .. => .typeMismatch
  | .invalidConstructor _ => .constructorComponentMismatch
  | .builtinCall _ (.argumentCount ..) => .wrongArgumentCount
  | .builtinCall .. => .invalidOperandTypes

/-- The wording of a typing error. -/
def message : TypingError → String
  | .invalidOperands operator left right =>
    "cannot apply `" ++ operator.text ++ "` to `" ++ left.text ++ "` and `" ++ right.text ++ "`"
  | .dimensionMismatch operator left right =>
    "dimension mismatch: `" ++ left.text ++ "` " ++ operator.text ++ " `" ++ right.text ++ "`"
  | .vectorSizeMismatch operator left right =>
    "vector size mismatch: `" ++ left.text ++ "` " ++ operator.text ++ " `" ++ right.text ++ "`"
  | .invalidOperand operator operand =>
    "cannot apply unary `" ++ operator.text ++ "` to `" ++ operand.text ++ "`"
  | .invalidSwizzle swizzle size element =>
    "invalid swizzle `." ++ swizzle ++ "` on `" ++ (Ty.vector size element).text ++ "`"
  | .unknownField struct _ field => "struct `" ++ struct ++ "` has no field `" ++ field ++ "`"
  | .noMember base name => "type `" ++ base.text ++ "` has no member `" ++ name ++ "`"
  | .invalidIndex index => "index must be `i32` or `u32`, found `" ++ index.text ++ "`"
  | .notIndexable base => "type `" ++ base.text ++ "` cannot be indexed"
  | .constructor target error => "invalid `" ++ target.text ++ "` constructor: " ++ error.message
  | .emptyArray => "cannot infer the element type of an empty `array()`"
  | .wrongElementCount target expected found =>
    "`" ++ target.text ++ "` expects " ++ expected.repr ++ " elements, found " ++ found.repr
  | .wrongConversionCount target found =>
    "`" ++ target.name ++ "` expects 1 argument, found " ++ found.repr
  | .wrongArgumentCount function expected found =>
    "function `" ++ function ++ "` expects " ++ expected.repr ++ " argument(s), found " ++
      found.repr
  | .wrongArgument position function expected found =>
    "argument " ++ position.repr ++ " of `" ++ function ++ "`: expected `" ++ expected.text ++
      "`, found `" ++ found.text ++ "`"
  | .wrongFieldCount struct expected found =>
    "`" ++ struct.text ++ "` has " ++ expected.repr ++ " field(s), found " ++ found.repr ++
      " argument(s)"
  | .wrongField expected found =>
    "expected `" ++ expected.text ++ "`, found `" ++ found.text ++ "`"
  | .invalidConstructor written => "invalid constructor type `" ++ written ++ "`"
  | .builtinCall builtin error =>
    match error with
    | .argumentCount .. => "`" ++ builtin.name ++ "`: " ++ error.message
    | _ => "invalid arguments to `" ++ builtin.name ++ "`: " ++ error.message

/-- What may have been meant. -/
def suggestions : TypingError → List String
  | .invalidSwizzle swizzle size _ => Swizzle.suggestions swizzle size
  | .unknownField _ fields field => Names.similar field fields Names.suggestionLimit
  | _ => []

/-- The report of a typing error. -/
def diagnostic (error : TypingError) (span : Span) : Diagnostic :=
  { severity := .error, code := error.code, message := error.message, location := some span
    suggestions := error.suggestions }

end TypingError

end Shading
