import Shading.Surface.Blocks
import Shading.Surface.Decorators
import Shading.Token.Lexer

/-!
# Reading programs

A program is a sequence of functions, structs and uniforms, each with decorators. An item that
cannot be read is reported and passed over up to the next token that can start an item outside all
brackets that the item has opened; if there is none, the item is unterminated and the whole program
is discarded. A visibility comment counts only in front of a uniform.
-/

namespace Shading.Surface

/-- Reads decorators, a name, a colon and a type. -/
def slot (cursor : Cursor) : Noted (Slot WrittenType × Cursor) := do
  let (attributes, cursor) ← decorators cursor.remaining cursor
  let ((name, span), cursor) ← Noted.lift (identifier cursor)
  let cursor ← Noted.lift (expect .colon cursor)
  let (written, cursor) ← Noted.lift (writtenType nestingLimit cursor)
  return (⟨attributes, name, written, span⟩, cursor)

/-- Reads at most `bound` parameters up to a parenthesis; a comma may stand behind the last. -/
def parameters : (bound : Nat) → Cursor → Noted (List (Slot WrittenType) × Cursor)
  | 0, cursor => return ([], cursor)
  | bound + 1, cursor =>
    if cursor.peek = .rightParen then return ([], cursor)
    else do
      let (first, cursor) ← slot cursor
      match cursor.eat? .comma with
      | none => return ([first], cursor)
      | some cursor =>
        let (rest, cursor) ← parameters bound cursor
        return (first :: rest, cursor)

/-- Reads at most `bound` fields up to a brace or the end; a comma or a semicolon may stand behind
each. -/
def fields : (bound : Nat) → Cursor → Noted (List (Slot WrittenType) × Cursor)
  | 0, cursor => return ([], cursor)
  | bound + 1, cursor =>
    if cursor.peek = .rightBrace || cursor.atEnd then return ([], cursor)
    else do
      let (first, cursor) ← slot cursor
      let cursor := match cursor.eat? .comma with
        | some next => next
        | none => cursor.skip .semicolon
      let (rest, cursor) ← fields bound cursor
      return (first :: rest, cursor)

/-- Reads the type behind an arrow with its decorators, if there is one. -/
def returnPart (cursor : Cursor) :
    Noted ((Option WrittenType × List Attribute) × Cursor) :=
  match cursor.eat? .arrow with
  | none => return ((none, []), cursor)
  | some cursor => do
    let (attributes, cursor) ← decorators cursor.remaining cursor
    let (written, cursor) ← Noted.lift (writtenType nestingLimit cursor)
    return ((some written, attributes), cursor)

/-- Reads a function behind its decorators. -/
def function (attributes : List Attribute) (cursor : Cursor) :
    Noted (Function Expr WrittenType × Cursor) := do
  let cursor ← Noted.lift (expect .fnKeyword cursor)
  let ((name, span), cursor) ← Noted.lift (identifier cursor)
  let cursor ← Noted.lift (expect .leftParen cursor)
  let (parameters, cursor) ← parameters (cursor.remaining + 1) cursor
  let cursor ← Noted.lift (expect .rightParen cursor)
  let ((returnType, returnAttributes), cursor) ← returnPart cursor
  let (body, cursor) ← Noted.lift (block nestingLimit cursor)
  return (⟨attributes, name, parameters, returnType, returnAttributes, body, span⟩, cursor)

/-- Reads a struct. -/
def struct (cursor : Cursor) : Noted (Struct WrittenType × Cursor) := do
  let cursor ← Noted.lift (expect .structKeyword cursor)
  let ((name, span), cursor) ← Noted.lift (identifier cursor)
  let cursor ← Noted.lift (expect .leftBrace cursor)
  let (fields, cursor) ← fields cursor.remaining cursor
  let cursor ← Noted.lift (expect .rightBrace cursor)
  return (⟨name, fields, span⟩, cursor.skip .semicolon)

/-- Reads the address space behind `var`, if there is one; it has no effect. -/
def addressSpace (cursor : Cursor) : Except Failure Cursor :=
  match cursor.eat? .less with
  | none => .ok cursor
  | some cursor => do
    let cursor ← match cursor.eat? .uniformKeyword with
      | some next => .ok next
      | none => (identifier cursor).map (·.2)
    let cursor ← match cursor.eat? .comma with
      | some next => (identifier next).map (·.2)
      | none => .ok cursor
    expect .greater cursor

/-- Reads the keyword of a uniform: `uniform`, or `var` with an address space. -/
def uniformKeyword (cursor : Cursor) : Except Failure Cursor :=
  match cursor.eat? .varKeyword with
  | some next => addressSpace next
  | none => expect .uniformKeyword cursor

/-- The last group that decorators give. -/
def lastGroup? (attributes : List Attribute) : Option Nat :=
  attributes.foldl (fun found next =>
    match next with
    | .group index => some index
    | _ => found) none

/-- The last binding that decorators give. -/
def lastBinding? (attributes : List Attribute) : Option Nat :=
  attributes.foldl (fun found next =>
    match next with
    | .binding index => some index
    | _ => found) none

/-- The last visibility that decorators give. -/
def lastVisibility? (attributes : List Attribute) : Option (List Stage) :=
  attributes.foldl (fun found next =>
    match next with
    | .visibility stages => some stages
    | _ => found) none

/-- The report that a uniform lacks a decorator, if it does. -/
def missingDecorator (name decorator : String) (span : Span) (value : Option Nat) : Noted Unit :=
  match value with
  | some _ => return ()
  | none =>
    Noted.note (.located .invalidDecoratorArgument
      ("uniform `" ++ name ++ "` has no @" ++ decorator ++ " decorator; defaulting to 0") span)

/-- Reads a uniform behind its decorators. -/
def uniform (attributes : List Attribute) (cursor : Cursor) :
    Noted (Uniform WrittenType × Cursor) := do
  let cursor ← Noted.lift (uniformKeyword cursor)
  let ((name, span), cursor) ← Noted.lift (identifier cursor)
  let cursor ← Noted.lift (expect .colon cursor)
  let (written, cursor) ← Noted.lift (writtenType nestingLimit cursor)
  let cursor ← Noted.lift (expect .semicolon cursor)
  let group := lastGroup? attributes
  let binding := lastBinding? attributes
  missingDecorator name "group" span group
  missingDecorator name "binding" span binding
  let visibility := (lastVisibility? attributes).getD [.vertex, .fragment]
  return (⟨name, written, group.getD 0, binding.getD 0, visibility, span⟩, cursor)

/-- What stands in front of an item: decorators, and the last visibility comment. -/
structure Heading where
  attributes : List Attribute := []
  commented : Option (List Stage) := none

/-- The decorators of a uniform; a comment counts if none gives visibility. -/
def Heading.uniformAttributes (heading : Heading) : List Attribute :=
  match lastVisibility? heading.attributes, heading.commented with
  | none, some stages => heading.attributes ++ [.visibility stages]
  | _, _ => heading.attributes

/-- Reads at most `bound` decorators and visibility comments. -/
def heading : (bound : Nat) → Heading → Cursor → Noted (Heading × Cursor)
  | 0, found, cursor => return (found, cursor)
  | bound + 1, found, cursor =>
    match cursor.peek with
    | .visibilityComment stages =>
      heading bound { found with commented := some stages } cursor.advance
    | .atSign => do
      let (next, cursor) ← decorator cursor
      heading bound { found with attributes := found.attributes ++ next.toList } cursor
    | _ => return (found, cursor)

/-- Reads a declaration with its decorators. -/
def item (cursor : Cursor) : Noted (Declaration × Cursor) := do
  let (heading, cursor) ← heading cursor.remaining {} cursor
  match cursor.peek with
  | .fnKeyword =>
    let (declared, cursor) ← function heading.attributes cursor
    return (.function declared, cursor)
  | .structKeyword =>
    let (declared, cursor) ← struct cursor
    return (.struct declared, cursor)
  | .uniformKeyword | .varKeyword =>
    let (declared, cursor) ← uniform heading.uniformAttributes cursor
    return (.uniform declared, cursor)
  | found =>
    if found = .eof && !heading.attributes.isEmpty then
      Noted.lift (fail .expectedDecoratedItem cursor)
    else Noted.lift (fail (.expectedItem found) cursor)

/-- Whether a token can start an item. -/
def startsItem : Token → Bool
  | .fnKeyword | .structKeyword | .uniformKeyword | .varKeyword | .atSign
  | .visibilityComment _ => true
  | _ => false

/-- Number of brackets open behind tokens, where `depth` are open before them. -/
def depthAfter (depth : Nat) (tokens : List LocatedToken) : Nat :=
  tokens.foldl (fun depth located => located.token.depthAfter depth) depth

/-- Passes over tokens up to one that can start an item outside brackets; tells the brackets open
there. -/
def synchronize (depth : Nat) : List LocatedToken → Nat × List LocatedToken
  | [] => (depth, [])
  | next :: rest =>
    if depth = 0 && startsItem next.token then (depth, next :: rest)
    else synchronize (next.token.depthAfter depth) rest

/-- Where reading goes on after a broken item at `start`: at least one token is passed over. -/
def recover (start : Cursor) (failure : Failure) : Nat × List LocatedToken :=
  let taken := max 1 (start.remaining - failure.cursor.remaining)
  synchronize (depthAfter 0 (start.rest.take taken)) (start.rest.drop taken)

/-- The report of an item that the end of the input cuts off. -/
def unterminated (finish : Span) : Diagnostic :=
  .located .unexpectedToken "unexpected end of input: unterminated item" finish

/-- Declarations, unless they have been discarded, and the reports about them. -/
structure Reading where
  declarations : Option Program
  diagnostics : List Diagnostic

/-- Puts the reports and the declaration of an item in front of what follows. -/
def Reading.prepend (notes : List Diagnostic) (declaration : Option Declaration)
    (rest : Reading) : Reading :=
  { declarations := rest.declarations.map (declaration.toList ++ ·)
    diagnostics := notes ++ rest.diagnostics }

/-- Reads items up to the end of the input, at most `bound` of them. -/
def items : (bound : Nat) → Cursor → Reading
  | 0, _ => ⟨some [], []⟩
  | bound + 1, cursor =>
    if cursor.atEnd then ⟨some [], []⟩
    else
      let read := item cursor
      match read.result with
      | .ok (declaration, next) => (items bound next).prepend read.notes (some declaration)
      | .error failure =>
        let notes := read.notes ++ [failure.diagnostic]
        let (depth, rest) := recover cursor failure
        if depth = 0 then (items bound { failure.cursor with rest }).prepend notes none
        else
          ⟨none, if failure.cursor.atEnd then notes else notes ++ [unterminated cursor.finish]⟩

/-- Whether a visibility comment with these tokens behind it may head an item. -/
def headsItem : List LocatedToken → Bool
  | [] => false
  | next :: _ =>
    match next.token with
    | .atSign | .varKeyword | .uniformKeyword | .visibilityComment _ => true
    | _ => false

/-- Drops visibility comments in brackets or before no item; `depth` brackets are open before. -/
def retainHeadings (depth : Nat) : List LocatedToken → List LocatedToken
  | [] => []
  | next :: rest =>
    match next.token with
    | .visibilityComment _ =>
      if depth = 0 && headsItem rest then next :: retainHeadings depth rest
      else retainHeadings depth rest
    | token => next :: retainHeadings (token.depthAfter depth) rest

/-- The place behind the last of some tokens. -/
def placeBehind (tokens : List LocatedToken) : Span :=
  match tokens.getLast? with
  | some last =>
    ⟨last.span.line, toWord (last.span.column + last.span.length),
      last.span.offset + last.span.length, 0⟩
  | none => .none

/-- The tokens with an end of the input behind them. -/
def terminated (tokens : List LocatedToken) : List LocatedToken :=
  match tokens.getLast? with
  | some ⟨.eof, _⟩ => tokens
  | _ => tokens ++ [⟨.eof, placeBehind tokens⟩]

/-- A cursor before tokens; what stands behind an end is ignored. -/
def Cursor.start (tokens : List LocatedToken) : Cursor :=
  let before := tokens.takeWhile fun located => located.token ≠ .eof
  let finish := match tokens.find? fun located => located.token = .eof with
    | some located => located.span
    | none => .none
  ⟨.none, before, finish⟩

/-- Reads a program from tokens, whether or not they have an end of the input. -/
def readTokens (tokens : List LocatedToken) : Program × List Diagnostic :=
  let cursor := Cursor.start (retainHeadings 0 (terminated tokens))
  let read := items cursor.remaining cursor
  (read.declarations.getD [], read.diagnostics)

/-- Reads a program from a source text, with the lexical reports in front. -/
def read (source : SourceText) : Program × List Diagnostic :=
  let lexed := tokenize source
  let (program, diagnostics) := readTokens lexed.tokens
  (program, lexed.diagnostics ++ diagnostics)

end Shading.Surface
