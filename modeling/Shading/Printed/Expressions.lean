import Shading.Typed

/-!
# Printed expressions

Expressions are written on one line with as many parentheses as their reading needs. Operations that
are not arithmetic are always put in parentheses as operands. Literals are written for the scalar
type that they were given.
-/

namespace Shading

namespace Number

/-- A float with at least one digit behind the point. -/
def floatText (value : Binary64) : String :=
  let text := Decimal.text .single value.toSingle
  if text.toList.contains '.' then text else text ++ ".0"

/-- The kind a literal is written for; without a suffix, that of its type. -/
def printedKind (kind : Kind) (type : Option Ty) : Kind :=
  match kind, type with
  | .abstract, some (.scalar .f16) => .f16
  | .abstract, some (.scalar .i32) => .i32
  | .abstract, some (.scalar .u32) => .u32
  | .abstract, _ => .f32
  | kind, _ => kind

/-- The least number that an `i32` literal is written with. -/
def leastWord : Int := -9223372036854775808

/-- The greatest number that an `i32` literal is written with. -/
def greatestWord : Int := 9223372036854775807

/-- The greatest number that a `u32` literal is written with. -/
def greatestUnsignedWord : Int := 18446744073709551615

/-- How a literal is written: whole numbers without fraction, within 64 bits. -/
def text (number : Number) (type : Option Ty) : String :=
  match printedKind number.kind type with
  | .i32 => (number.value.truncate leastWord greatestWord).repr ++ "i"
  | .u32 => (number.value.truncate 0 greatestUnsignedWord).repr ++ "u"
  | .f16 => floatText number.value ++ "h"
  | .f32 | .abstract => floatText number.value

end Number

namespace Typed

/-- Text in parentheses. -/
def parenthesized (text : String) : String := "(" ++ text ++ ")"

/-- The name of a callee; a constructor is the type of the call. -/
def Callee.text (callee : Callee) (type : Option Ty) : String :=
  match callee, type with
  | .constructor _, some type => type.text
  | _, _ => callee.name

namespace Expr

/-- Whether a sign, a member or an index needs parentheses around an expression. -/
def isCompound : Expr → Bool
  | .binary _ _ _ _ _ => true
  | .unary _ _ _ _ => true
  | .number literal _ _ => literal.value.key < 0
  | _ => false

/-- Whether an operand needs no parentheses: it is no operation, or arithmetic that binds tighter,
or on the left as tightly. -/
def standsBare (outer : BinaryOperator) (isRight : Bool) : Expr → Bool
  | .binary inner _ _ _ _ =>
    let tighter := outer.precedence < inner.precedence ||
      (inner.precedence == outer.precedence && !isRight)
    tighter && inner.isArithmetic
  | _ => true

mutual

/-- How an expression is written. -/
def text : Expr → String
  | .number literal type _ => literal.text type
  | .bool value _ _ => if value then "true" else "false"
  | .identifier name _ _ => name
  | .binary operator left right _ _ =>
    let leftText := if left.standsBare operator false then left.text else parenthesized left.text
    let rightText := if right.standsBare operator true then right.text else parenthesized right.text
    leftText ++ " " ++ operator.text ++ " " ++ rightText
  | .unary operator operand _ _ =>
    operator.text ++ if operand.isCompound then parenthesized operand.text else operand.text
  | .call callee arguments type _ =>
    callee.text type ++ parenthesized (", ".intercalate (texts arguments))
  | .member base name _ _ _ =>
    (if base.isCompound then parenthesized base.text else base.text) ++ "." ++ name
  | .index base position _ _ =>
    (if base.isCompound then parenthesized base.text else base.text) ++ "[" ++ position.text ++ "]"

/-- How expressions are written. -/
def texts : List Expr → List String
  | [] => []
  | first :: rest => first.text :: texts rest

end

end Expr

end Typed

end Shading
