import Shading.Builtin
import Shading.Operator
import Shading.Statement

/-!
# Typed programs

The tree of a program after its names and types have been resolved. Every expression carries its
type; it has none if it could not be typed, or if it calls a function that returns nothing.
-/

namespace Shading.Typed

/-- What a call calls. -/
inductive Callee where
  | builtin (function : Builtin)
  /-- The constructor of a builtin type, with the type as written. -/
  | constructor (written : String)
  | struct (name : String)
  /-- A declared function, or a name that is not declared. -/
  | user (name : String)
deriving DecidableEq, Repr, Inhabited

/-- The name that stands before the parentheses. -/
def Callee.name : Callee → String
  | .builtin function => function.name
  | .constructor written => written
  | .struct name => name
  | .user name => name

/-- What a member access selects. -/
inductive MemberKind where
  | swizzle
  | field
deriving DecidableEq, Repr, Inhabited

/-- A typed expression. -/
inductive Expr where
  | number (literal : Number) (type : Option Ty) (span : Span)
  | bool (value : Bool) (type : Option Ty) (span : Span)
  | identifier (name : String) (type : Option Ty) (span : Span)
  | binary (operator : BinaryOperator) (left right : Expr) (type : Option Ty) (span : Span)
  | unary (operator : UnaryOperator) (operand : Expr) (type : Option Ty) (span : Span)
  | call (callee : Callee) (arguments : List Expr) (type : Option Ty) (span : Span)
  | member (base : Expr) (name : String) (kind : MemberKind) (type : Option Ty) (span : Span)
  | index (base index : Expr) (type : Option Ty) (span : Span)
deriving Repr, Inhabited

namespace Expr

/-- The type of an expression, if it has one. -/
def type : Expr → Option Ty
  | .number _ type _ => type
  | .bool _ type _ => type
  | .identifier _ type _ => type
  | .binary _ _ _ type _ => type
  | .unary _ _ type _ => type
  | .call _ _ type _ => type
  | .member _ _ _ type _ => type
  | .index _ _ type _ => type

/-- Where an expression stands. -/
def span : Expr → Span
  | .number _ _ span => span
  | .bool _ _ span => span
  | .identifier _ _ span => span
  | .binary _ _ _ _ span => span
  | .unary _ _ _ span => span
  | .call _ _ _ span => span
  | .member _ _ _ _ span => span
  | .index _ _ _ span => span

/-- Whether it is a literal without suffix, perhaps behind minus signs. -/
def isAbstractLiteral : Expr → Bool
  | .number literal _ _ => literal.kind = .abstract
  | .unary .negate operand _ _ => operand.isAbstractLiteral
  | _ => false

/-- The scalar type of an expression's components, if it has one. -/
def element? (expression : Expr) : Option Scalar := expression.type.bind Ty.element?

end Expr

/-- A type ascription: what it stands for, if anything, and how it is written. -/
structure DeclaredType where
  resolved : Option Ty
  written : String
deriving Repr, Inhabited

/-- How the ascription is written in output. -/
def DeclaredType.text (declared : DeclaredType) : String :=
  match declared.resolved with
  | some type => type.text
  | none => declared.written

/-- A function that the host can start. -/
structure EntryPoint where
  name : String
  stage : Stage
deriving DecidableEq, Repr, Inhabited

/-- A typed program. -/
structure Program where
  functions : List (Function Expr DeclaredType)
  structs : List (Struct DeclaredType)
  uniforms : List (Uniform DeclaredType)
  entryPoints : List EntryPoint
deriving Repr, Inhabited

end Shading.Typed
