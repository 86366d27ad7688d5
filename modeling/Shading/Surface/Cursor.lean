import Shading.Diagnostic
import Shading.Surface

/-!
# Reading tokens one by one

A cursor stands before the tokens that are still to be read. A reader takes a cursor and either
gives a value with the cursor behind the tokens it took, or a syntax error together with the cursor
where it stopped; every syntax error is reported at the token that stands there.
-/

namespace Shading.Surface

/-- Tokens still to be read. -/
structure Cursor where
  /-- Where the token read last stands. -/
  previous : Span
  /-- The tokens before the end of the input. -/
  rest : List LocatedToken
  /-- Where the input ends. -/
  finish : Span
deriving Repr, Inhabited

namespace Cursor

/-- The next token. -/
def peek (cursor : Cursor) : Token :=
  match cursor.rest with
  | [] => .eof
  | next :: _ => next.token

/-- Where the next token stands. -/
def span (cursor : Cursor) : Span :=
  match cursor.rest with
  | [] => cursor.finish
  | next :: _ => next.span

/-- The cursor behind the next token; nothing is behind the end. -/
def advance (cursor : Cursor) : Cursor :=
  match cursor.rest with
  | [] => cursor
  | next :: rest => { cursor with previous := next.span, rest }

/-- Whether all tokens have been read. -/
def atEnd (cursor : Cursor) : Bool := cursor.rest.isEmpty

/-- Number of tokens still to be read. -/
def remaining (cursor : Cursor) : Nat := cursor.rest.length

/-- The cursor behind `token`, if that is the next one. -/
def eat? (cursor : Cursor) (token : Token) : Option Cursor :=
  if cursor.peek = token then some cursor.advance else none

/-- The cursor behind `token` if it comes next, else itself. -/
def skip (cursor : Cursor) (token : Token) : Cursor :=
  if cursor.peek = token then cursor.advance else cursor

end Cursor

/-- Why an item cannot be read. -/
inductive SyntaxError where
  | expected (token found : Token)
  | expectedIdentifier (found : Token)
  | expectedExpression (found : Token)
  | expectedDecoratorArgument (found : Token)
  | expectedItem (found : Token)
  /-- The input ends behind decorators. -/
  | expectedDecoratedItem
  | invalidArraySize
  /-- Something other than a name stands before call parentheses. -/
  | notCallable
  | expressionTooDeep
  | typeTooDeep
  | blockTooDeep
deriving DecidableEq, Repr

namespace SyntaxError

/-- The code of a syntax error. -/
def code : SyntaxError → Code
  | .expectedItem _ => .expectedItem
  | _ => .unexpectedToken

/-- The wording of a syntax error. -/
def message : SyntaxError → String
  | .expected token found => "expected " ++ token.text ++ ", found " ++ found.text
  | .expectedIdentifier found => "expected an identifier, found " ++ found.text
  | .expectedExpression found => "expected an expression, found " ++ found.text
  | .expectedDecoratorArgument found => "expected a decorator argument, found " ++ found.text
  | .expectedItem found => "expected `fn`, `struct` or `uniform`, found " ++ found.text
  | .expectedDecoratedItem => "expected an item after decorators"
  | .invalidArraySize => "array size must be a non-negative integer"
  | .notCallable => "only named functions can be called"
  | .expressionTooDeep => "expression nested too deeply"
  | .typeTooDeep => "type nested too deeply"
  | .blockTooDeep => "block nested too deeply"

end SyntaxError

/-- A syntax error and where reading stopped. -/
structure Failure where
  error : SyntaxError
  cursor : Cursor
deriving Repr

/-- The report of a failure, at the token where reading stopped. -/
def Failure.diagnostic (failure : Failure) : Diagnostic :=
  .located failure.error.code failure.error.message failure.cursor.span

/-- Reads a value and tells the cursor behind it, or fails. -/
abbrev Reader (α : Type) : Type := Cursor → Except Failure (α × Cursor)

/-- A failure at the cursor. -/
def fail {α : Type} (error : SyntaxError) (cursor : Cursor) : Except Failure α :=
  .error ⟨error, cursor⟩

/-- Reads a certain token. -/
def expect (token : Token) (cursor : Cursor) : Except Failure Cursor :=
  match cursor.eat? token with
  | some next => .ok next
  | none => fail (.expected token cursor.peek) cursor

/-- Reads a name and tells where it stands. -/
def identifier (cursor : Cursor) : Except Failure ((String × Span) × Cursor) :=
  match cursor.peek with
  | .identifier name => .ok ((name, cursor.span), cursor.advance)
  | found => fail (.expectedIdentifier found) cursor

/-- Reads values divided by commas, at most `bound + 1`. -/
def separated {α : Type} (item : Reader α) : (bound : Nat) → Reader (List α)
  | 0, cursor => do
    let (first, cursor) ← item cursor
    .ok ([first], cursor)
  | bound + 1, cursor => do
    let (first, cursor) ← item cursor
    match cursor.eat? .comma with
    | none => .ok ([first], cursor)
    | some cursor =>
      let (rest, cursor) ← separated item bound cursor
      .ok (first :: rest, cursor)

/-- Reads at most `bound` values divided by commas up to `closing`; a comma may stand behind the
last. -/
def listed {α : Type} (closing : Token) (item : Reader α) : (bound : Nat) → Reader (List α)
  | 0, cursor => .ok ([], cursor)
  | bound + 1, cursor =>
    if cursor.peek = closing then .ok ([], cursor)
    else do
      let (first, cursor) ← item cursor
      match cursor.eat? .comma with
      | none => .ok ([first], cursor)
      | some cursor =>
        let (rest, cursor) ← listed closing item bound cursor
        .ok (first :: rest, cursor)

/-- The deepest nesting of expressions, blocks and types in one item. -/
def nestingLimit : Nat := 128

end Shading.Surface
