import Shading.Surface.Expressions

/-!
# Reading blocks

A block holds statements in braces, among them blocks again. Each block in a block is one level of
nesting, which the expressions and types in it count as well.
-/

namespace Shading.Surface

/-- Reads a type behind a colon, if there is one. -/
def ascription (allowance : Nat) (cursor : Cursor) :
    Except Failure (Option WrittenType × Cursor) :=
  match cursor.eat? .colon with
  | some cursor => do
    let (written, cursor) ← writtenType allowance cursor
    .ok (some written, cursor)
  | none => .ok (none, cursor)

/-- Reads the rest of a `let` statement. -/
def letRest (allowance : Nat) (start : Span) (cursor : Cursor) : Except Failure (Stmt × Cursor) := do
  let ((name, _), cursor) ← identifier cursor
  let (written, cursor) ← ascription allowance cursor
  let cursor ← expect .assign cursor
  let (value, cursor) ← expression allowance cursor
  let cursor ← expect .semicolon cursor
  .ok (.letBinding name written value (start.through cursor.previous), cursor)

/-- Reads an expression behind an assignment sign, if there is one. -/
def initializer (allowance : Nat) (cursor : Cursor) : Except Failure (Option Expr × Cursor) :=
  match cursor.eat? .assign with
  | some cursor => do
    let (value, cursor) ← expression allowance cursor
    .ok (some value, cursor)
  | none => .ok (none, cursor)

/-- Reads the rest of a `var` statement. -/
def varRest (allowance : Nat) (start : Span) (cursor : Cursor) : Except Failure (Stmt × Cursor) := do
  let ((name, _), cursor) ← identifier cursor
  let (written, cursor) ← ascription allowance cursor
  let (value, cursor) ← initializer allowance cursor
  let cursor ← expect .semicolon cursor
  .ok (.varBinding name written value (start.through cursor.previous), cursor)

/-- Reads the rest of a `return` statement. -/
def returnRest (allowance : Nat) (start : Span) (cursor : Cursor) :
    Except Failure (Stmt × Cursor) :=
  match cursor.eat? .semicolon with
  | some cursor => .ok (.returning none (start.through cursor.previous), cursor)
  | none => do
    let (value, cursor) ← expression allowance cursor
    let cursor ← expect .semicolon cursor
    .ok (.returning (some value) (start.through cursor.previous), cursor)

/-- Reads an assignment or an expression on its own. -/
def plainStatement (allowance : Nat) (start : Span) (cursor : Cursor) :
    Except Failure (Stmt × Cursor) := do
  let (target, cursor) ← expression allowance cursor
  match cursor.eat? .assign with
  | some cursor =>
    let (value, cursor) ← expression allowance cursor
    let cursor ← expect .semicolon cursor
    .ok (.assignment target value (start.through cursor.previous), cursor)
  | none =>
    let cursor ← expect .semicolon cursor
    .ok (.evaluation target (start.through cursor.previous), cursor)

/-- Reads a statement; `inner` reads deeper blocks, if admitted. -/
def statement (allowance : Nat) (inner : Option (Reader (Block Expr WrittenType)))
    (cursor : Cursor) : Except Failure (Stmt × Cursor) :=
  match cursor.peek with
  | .letKeyword => letRest allowance cursor.span cursor.advance
  | .varKeyword => varRest allowance cursor.span cursor.advance
  | .returnKeyword => returnRest allowance cursor.span cursor.advance
  | .leftBrace =>
    match inner with
    | none => fail .blockTooDeep cursor
    | some inner => do
      let (body, next) ← inner cursor
      .ok (.block body.statements body.opening body.closing (cursor.span.through next.previous), next)
  | _ => plainStatement allowance cursor.span cursor

/-- Reads at most `bound` statements up to a brace or the end. -/
def statements (item : Reader Stmt) : (bound : Nat) → Reader (List Stmt)
  | 0, cursor => .ok ([], cursor)
  | bound + 1, cursor =>
    if cursor.peek = .rightBrace || cursor.atEnd then .ok ([], cursor)
    else do
      let (first, cursor) ← item cursor
      let (rest, cursor) ← statements item bound cursor
      .ok (first :: rest, cursor)

/-- Reads statements in braces; `inner` reads deeper blocks, if admitted. -/
def braced (allowance : Nat) (inner : Option (Reader (Block Expr WrittenType))) (cursor : Cursor) :
    Except Failure (Block Expr WrittenType × Cursor) := do
  let opening := cursor.span
  let cursor ← expect .leftBrace cursor
  let (body, cursor) ← statements (statement allowance inner) cursor.remaining cursor
  let closing := cursor.span
  let cursor ← expect .rightBrace cursor
  .ok (⟨body, opening, closing⟩, cursor)

/-- Reads a block that may nest `allowance` levels deep. -/
def block : (allowance : Nat) → Reader (Block Expr WrittenType)
  | 0 => braced 0 none
  | allowance + 1 => braced (allowance + 1) (some (block allowance))

end Shading.Surface
