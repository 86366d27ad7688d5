import Shading.Names.Similar
import Shading.Surface.Cursor

/-!
# Reading decorators

A decorator is a name behind an at sign with names and numbers in parentheses. One that is unknown
or has wrong arguments is reported and has no effect, and reading goes on.
-/

namespace Shading.Surface

/-- A value or a failure, with the reports on the way to it. -/
structure Noted (α : Type) where
  notes : List Diagnostic
  result : Except Failure α

namespace Noted

/-- A result without reports. -/
def lift {α : Type} (result : Except Failure α) : Noted α := ⟨[], result⟩

/-- Goes on with the value; the reports of both steps are kept in order. -/
def andThen {α β : Type} (first : Noted α) (next : α → Noted β) : Noted β :=
  match first.result with
  | .ok value =>
    let second := next value
    ⟨first.notes ++ second.notes, second.result⟩
  | .error failure => ⟨first.notes, .error failure⟩

instance : Monad Noted where
  pure value := ⟨[], .ok value⟩
  bind := andThen

instance : MonadLift (Except Failure) Noted := ⟨lift⟩

/-- A report and no value. -/
def note (diagnostic : Diagnostic) : Noted Unit := ⟨[diagnostic], .ok ()⟩

end Noted

/-- An argument of a decorator. -/
inductive DecoratorArgument where
  | name (name : String)
  | number (literal : Number)
deriving DecidableEq, Repr

/-- Why a decorator has no effect. -/
inductive DecoratorError where
  | takesNoArguments (name : String)
  | expectsNatural (name : String)
  | expectsOneInteger (name : String)
  | expectsWorkgroupSize
  | expectsStages
  | expectsBuiltin
  | unknown (name : String)
deriving DecidableEq, Repr

namespace DecoratorError

/-- The code of a decorator error. -/
def code : DecoratorError → Code
  | .unknown _ => .unknownDecorator
  | _ => .invalidDecoratorArgument

/-- The wording of a decorator error. -/
def message : DecoratorError → String
  | .takesNoArguments name => "@" ++ name ++ " takes no arguments"
  | .expectsNatural name => "@" ++ name ++ " expects a non-negative integer"
  | .expectsOneInteger name => "@" ++ name ++ " expects exactly one integer argument"
  | .expectsWorkgroupSize => "@workgroup_size expects one to three positive integers"
  | .expectsStages => "@visibility expects stage names: vertex, fragment, compute"
  | .expectsBuiltin => "@builtin expects a builtin value name"
  | .unknown name => "unknown decorator `@" ++ name ++ "`"

/-- The known decorators. -/
def known : List String :=
  ["vertex", "fragment", "compute", "workgroup_size", "group", "binding", "visibility", "builtin",
    "location"]

/-- What may have been meant. -/
def suggestions : DecoratorError → List String
  | .unknown name => Names.similar name known Names.suggestionLimit
  | _ => []

/-- The report of a decorator error. -/
def diagnostic (error : DecoratorError) (span : Span) : Diagnostic :=
  { Diagnostic.located error.code error.message span with suggestions := error.suggestions }

end DecoratorError

/-- The number that the only argument of a decorator gives. -/
def singleIndex (name : String) : List DecoratorArgument → Except DecoratorError Nat
  | [.number literal] =>
    match literal.index? with
    | some value => .ok value
    | none => .error (.expectsNatural name)
  | _ => .error (.expectsOneInteger name)

/-- A dimension of a workgroup, which is a positive number. -/
def dimension? : DecoratorArgument → Option Nat
  | .number literal => literal.index?.filter (0 < ·)
  | .name _ => none

/-- A stage that an argument names. -/
def stage? : DecoratorArgument → Option Stage
  | .name name => Stage.ofName? name
  | .number _ => none

/-- The decorator of a name with its arguments. -/
def attributeOf (name : String) (arguments : List DecoratorArgument) :
    Except DecoratorError Attribute :=
  match Stage.ofName? name with
  | some stage => if arguments.isEmpty then .ok (.stage stage) else .error (.takesNoArguments name)
  | none =>
    match name with
    | "group" => (singleIndex name arguments).map .group
    | "binding" => (singleIndex name arguments).map .binding
    | "location" => (singleIndex name arguments).map .location
    | "workgroup_size" =>
      match arguments.mapM dimension? with
      | some dimensions =>
        if 1 ≤ dimensions.length && dimensions.length ≤ 3 then .ok (.workgroupSize dimensions)
        else .error .expectsWorkgroupSize
      | none => .error .expectsWorkgroupSize
    | "visibility" =>
      match arguments.mapM stage? with
      | some stages => if stages.isEmpty then .error .expectsStages else .ok (.visibility stages)
      | none => .error .expectsStages
    | "builtin" =>
      match arguments with
      | [.name value] => .ok (.builtin value)
      | _ => .error .expectsBuiltin
    | _ => .error (.unknown name)

/-- Reads one argument of a decorator. -/
def decoratorArgument (cursor : Cursor) : Except Failure (DecoratorArgument × Cursor) :=
  match cursor.peek with
  | .identifier name => .ok (.name name, cursor.advance)
  | .number literal => .ok (.number literal, cursor.advance)
  | found => fail (.expectedDecoratorArgument found) cursor

/-- Reads the arguments of a decorator with their parentheses, if there are any. -/
def decoratorArguments (cursor : Cursor) : Except Failure (List DecoratorArgument × Cursor) :=
  match cursor.eat? .leftParen with
  | none => .ok ([], cursor)
  | some cursor => do
    let (arguments, cursor) ←
      listed .rightParen decoratorArgument (cursor.remaining + 1) cursor
    let cursor ← expect .rightParen cursor
    .ok (arguments, cursor)

/-- Reads a decorator: its place, its name and its arguments. -/
def decoratorParts (cursor : Cursor) :
    Except Failure ((String × List DecoratorArgument × Span) × Cursor) := do
  let start := cursor.span
  let cursor ← expect .atSign cursor
  let ((name, nameSpan), cursor) ← identifier cursor
  let (arguments, cursor) ← decoratorArguments cursor
  .ok ((name, arguments, (start.through nameSpan).through cursor.previous), cursor)

/-- Reads a decorator; one without effect gives a report and no attribute. -/
def decorator (cursor : Cursor) : Noted (Option Attribute × Cursor) := do
  let ((name, arguments, span), cursor) ← Noted.lift (decoratorParts cursor)
  match attributeOf name arguments with
  | .ok found => return (some found, cursor)
  | .error error =>
    Noted.note (error.diagnostic span)
    return (none, cursor)

/-- Reads decorators as long as there are any, at most `bound` of them. -/
def decorators : (bound : Nat) → Cursor → Noted (List Attribute × Cursor)
  | 0, cursor => return ([], cursor)
  | bound + 1, cursor =>
    if cursor.peek = .atSign then do
      let (first, cursor) ← decorator cursor
      let (rest, cursor) ← decorators bound cursor
      return (first.toList ++ rest, cursor)
    else return ([], cursor)

end Shading.Surface
