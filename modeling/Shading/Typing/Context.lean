import Shading.Scopes
import Shading.Ty.Resolution

/-!
# What expressions may refer to

The names bound in the scopes around an expression, and the structs and functions of the program.
Defining a struct or a function again forgets the earlier definition.
-/

namespace Shading.Typing

/-- What a name in scope stands for. -/
structure Binding where
  /-- Nothing if the declaration itself could not be typed. -/
  type : Option Ty
  /-- Whether the name may be assigned to. -/
  isMutable : Bool
  span : Span
deriving Repr, Inhabited

/-- What a call of a declared function has to look like. -/
structure Signature where
  parameters : List (Option Ty)
  returnType : Option Ty
  /-- Whether a return type is written, resolved or not. -/
  returnsValue : Bool
deriving Repr, Inhabited

/-- What expressions may refer to. -/
structure Context where
  scopes : Scopes Binding := .empty
  structs : List (String × Ty) := []
  functions : List (String × Signature) := []
deriving Repr, Inhabited

namespace Context

/-- Nothing declared. -/
def empty : Context := {}

/-- Puts a definition behind all others and forgets an earlier one of the same name. -/
def define {α : Type} (definitions : List (String × α)) (name : String) (value : α) :
    List (String × α) :=
  definitions.filter (·.1 ≠ name) ++ [(name, value)]

/-- Enters a scope. -/
def push (context : Context) : Context := { context with scopes := context.scopes.push }

/-- Leaves a scope, unless it is the outermost one. -/
def pop (context : Context) : Context := { context with scopes := context.scopes.pop }

/-- Binds a name in the innermost scope. -/
def bind (context : Context) (name : String) (binding : Binding) : Context :=
  { context with scopes := context.scopes.insert name binding }

/-- What a name stands for. -/
def lookup? (context : Context) (name : String) : Option Binding := context.scopes.lookup? name

/-- Declares a struct. -/
def defineStruct (context : Context) (name : String) (type : Ty) : Context :=
  { context with structs := define context.structs name type }

/-- Declares a function. -/
def defineFunction (context : Context) (name : String) (signature : Signature) : Context :=
  { context with functions := define context.functions name signature }

/-- The type of a declared struct. -/
def struct? (context : Context) (name : String) : Option Ty := context.structs.lookup name

/-- The signature of a declared function. -/
def function? (context : Context) (name : String) : Option Signature :=
  context.functions.lookup name

/-- The struct that a written type names; structs take no arguments. -/
def named? (context : Context) (written : WrittenType) : Option Ty :=
  if written.arguments.isEmpty then context.struct? written.name else none

/-- The type that is written, if it is builtin or names a declared struct. -/
def resolve? (context : Context) (written : WrittenType) : Option Ty :=
  (written.resolve context.named?).toOption

end Context

end Shading.Typing
