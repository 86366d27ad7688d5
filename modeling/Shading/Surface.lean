import Shading.Operator
import Shading.Statement

/-!
# Programs as written

The tree that a source text stands for, before names and types are resolved. Every node carries the
span of the text it was read from, and parentheses leave no trace but in the spans around them.
-/

namespace Shading

mutual

/-- A type as written: a name and arguments in angle brackets. -/
inductive WrittenType where
  | mk (name : String) (arguments : List TypeArgument) (span : Span)

/-- An argument of a written type. -/
inductive TypeArgument where
  | type (written : WrittenType)
  | size (value : Nat)

end

deriving instance Repr for WrittenType, TypeArgument

instance : Inhabited WrittenType := ⟨.mk "" [] default⟩

namespace WrittenType

/-- The name before the angle brackets. -/
def name : WrittenType → String
  | .mk name _ _ => name

/-- What stands in the angle brackets. -/
def arguments : WrittenType → List TypeArgument
  | .mk _ arguments _ => arguments

/-- Where the type stands. -/
def span : WrittenType → Span
  | .mk _ _ span => span

end WrittenType

mutual

/-- How a type is written. -/
def WrittenType.text : WrittenType → String
  | .mk name arguments _ => name ++ TypeArgument.listText arguments

/-- How an argument of a type is written. -/
def TypeArgument.text : TypeArgument → String
  | .type written => written.text
  | .size value => value.repr

/-- Arguments in angle brackets; no brackets stand around none. -/
def TypeArgument.listText : List TypeArgument → String
  | [] => ""
  | first :: rest => "<" ++ first.text ++ TypeArgument.tailText rest ++ ">"

/-- Further arguments, each after a comma. -/
def TypeArgument.tailText : List TypeArgument → String
  | [] => ""
  | next :: rest => ", " ++ next.text ++ TypeArgument.tailText rest

end

namespace Surface

/-- An expression as written. -/
inductive Expr where
  | number (literal : Number) (span : Span)
  | bool (value : Bool) (span : Span)
  | identifier (name : String) (span : Span)
  | binary (operator : BinaryOperator) (left right : Expr) (span : Span)
  | unary (operator : UnaryOperator) (operand : Expr) (span : Span)
  | call (callee : String) (typeArguments : List TypeArgument) (arguments : List Expr) (span : Span)
  | member (base : Expr) (name : String) (span : Span)
  | index (base index : Expr) (span : Span)
deriving Repr, Inhabited

/-- Where an expression stands. -/
def Expr.span : Expr → Span
  | .number _ span => span
  | .bool _ span => span
  | .identifier _ span => span
  | .binary _ _ _ span => span
  | .unary _ _ span => span
  | .call _ _ _ span => span
  | .member _ _ span => span
  | .index _ _ span => span

/-- A statement as written. -/
abbrev Stmt : Type := Statement Expr WrittenType

/-- A top-level declaration. -/
inductive Declaration where
  | function (declared : Function Expr WrittenType)
  | struct (declared : Struct WrittenType)
  | uniform (declared : Uniform WrittenType)
deriving Repr, Inhabited

namespace Declaration

/-- The declared name. -/
def name : Declaration → String
  | .function declared => declared.name
  | .struct declared => declared.name
  | .uniform declared => declared.name

/-- Where the declared name stands. -/
def span : Declaration → Span
  | .function declared => declared.span
  | .struct declared => declared.span
  | .uniform declared => declared.span

end Declaration

/-- A program: its declarations in order. -/
abbrev Program := List Declaration

/-- The functions of a program, in order. -/
def functions (program : Program) : List (Function Expr WrittenType) :=
  program.filterMap fun
    | .function declared => some declared
    | _ => none

/-- The structs of a program, in order. -/
def structs (program : Program) : List (Struct WrittenType) :=
  program.filterMap fun
    | .struct declared => some declared
    | _ => none

/-- The uniforms of a program, in order. -/
def uniforms (program : Program) : List (Uniform WrittenType) :=
  program.filterMap fun
    | .uniform declared => some declared
    | _ => none

end Surface

end Shading
