import Shading.Span
import Shading.Stage

/-!
# Statements and declarations

The frame of a program is the same before and after typing: blocks of statements, functions with
parameters, structs with fields, and uniforms. Only the expressions and the ascriptions that stand
in it differ, so both are parameters here.
-/

namespace Shading

/-- A statement whose expressions and type ascriptions are of the given types. -/
inductive Statement (Expression Ascription : Type) where
  /-- `let name: ascription = value;` -/
  | letBinding (name : String) (ascription : Option Ascription) (value : Expression) (span : Span)
  /-- `var name: ascription = value;` -/
  | varBinding (name : String) (ascription : Option Ascription) (value : Option Expression)
      (span : Span)
  /-- `target = value;` -/
  | assignment (target value : Expression) (span : Span)
  /-- `return value;` -/
  | returning (value : Option Expression) (span : Span)
  /-- `value;` -/
  | evaluation (value : Expression) (span : Span)
  /-- Statements in braces, with the places of both braces. -/
  | block (statements : List (Statement Expression Ascription)) (opening closing : Span)
      (span : Span)
deriving Repr, Inhabited

namespace Statement

variable {Expression Ascription : Type}

/-- Where the statement stands. -/
def span : Statement Expression Ascription → Span
  | .letBinding _ _ _ span => span
  | .varBinding _ _ _ span => span
  | .assignment _ _ span => span
  | .returning _ span => span
  | .evaluation _ span => span
  | .block _ _ _ span => span

end Statement

/-- Statements in braces, with the places of both braces. -/
structure Block (Expression Ascription : Type) where
  statements : List (Statement Expression Ascription)
  opening : Span
  closing : Span
deriving Repr, Inhabited

/-- A parameter or a field: a name with a type and decorators. -/
structure Slot (Ascription : Type) where
  attributes : List Attribute
  name : String
  ascription : Ascription
  span : Span
deriving Repr, Inhabited

/-- A struct with its fields in declared order. -/
structure Struct (Ascription : Type) where
  name : String
  fields : List (Slot Ascription)
  span : Span
deriving Repr, Inhabited

/-- An input that the host binds to a group and a binding number. -/
structure Uniform (Ascription : Type) where
  name : String
  ascription : Ascription
  group : Nat
  binding : Nat
  visibility : List Stage
  span : Span
deriving Repr, Inhabited

/-- A function; a stage among its decorators makes it an entry point. -/
structure Function (Expression Ascription : Type) where
  attributes : List Attribute
  name : String
  parameters : List (Slot Ascription)
  returnType : Option Ascription
  returnAttributes : List Attribute
  body : Block Expression Ascription
  span : Span
deriving Repr, Inhabited

/-- The first stage among a function's decorators. -/
def Function.stage? {Expression Ascription : Type} (function : Function Expression Ascription) :
    Option Stage :=
  (Attribute.stages function.attributes).head?

end Shading
