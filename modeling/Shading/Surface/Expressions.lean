import Shading.Surface.Types
import Shading.Ty.Shape

/-!
# Reading expressions

Binary operators are read by precedence: an operand, then operators at least as tight as asked for,
each with a right operand of tighter ones. Every operator in a chain, every access in a chain and
every bracket is one level of nesting, so the levels that are left bound all recursion: `Level`
holds the readers for one number of levels, built from those for one level less.
-/

namespace Shading.Surface

/-- The readers of expressions for some number of levels. -/
structure Level where
  /-- Reads operands joined by operators of at least the given precedence. -/
  binary : (least : Nat) → Reader Expr
  /-- Reads operators of at least the given precedence and their right operands behind a left
  operand. -/
  binaryRest : (least : Nat) → (left : Expr) → Reader Expr
  /-- Reads an operand with the unary operators in front of it. -/
  unary : Reader Expr
  /-- Reads member and index accesses behind a base. -/
  accesses : (base : Expr) → Reader Expr

/-- Whether a name may have type arguments: vectors, matrices and arrays. -/
def takesTypeArguments (name : String) : Bool :=
  name == "array" || (Shape.ofName? name).isSome

/-- Reads type arguments if a call follows them; else the angle bracket is a comparison. -/
def constructorArguments? (allowance : Nat) (cursor : Cursor) :
    Option (List TypeArgument × Cursor) :=
  match typeArguments (innerType allowance) cursor with
  | .ok (arguments, next) => if next.peek = .leftParen then some (arguments, next) else none
  | .error _ => none

/-- Runs a reader one level deeper, if one is left. -/
def nested {α : Type} (below : Option Level) (reader : Level → Reader α) : Reader α := fun cursor =>
  match below with
  | none => fail .expressionTooDeep cursor
  | some below => reader below cursor

/-- Reads the arguments of a call with their parentheses. -/
def callArguments (below : Option Level) (cursor : Cursor) :
    Except Failure (List Expr × Cursor) := do
  let cursor ← expect .leftParen cursor
  let argument : Reader Expr := nested below fun level => level.binary 1
  let (arguments, cursor) ← listed .rightParen argument (cursor.remaining + 1) cursor
  let cursor ← expect .rightParen cursor
  .ok (arguments, cursor)

/-- Reads what may follow a name: the type arguments and arguments of a call. -/
def named (allowance : Nat) (below : Option Level) (name : String) (span : Span)
    (cursor : Cursor) : Except Failure (Expr × Cursor) :=
  let typed :=
    if cursor.peek = .less && takesTypeArguments name then constructorArguments? allowance cursor
    else none
  match typed with
  | some (typeArguments, cursor) => do
    let (arguments, cursor) ← callArguments below cursor
    .ok (.call name typeArguments arguments (span.through cursor.previous), cursor)
  | none =>
    if cursor.peek = .leftParen then do
      let (arguments, cursor) ← callArguments below cursor
      .ok (.call name [] arguments (span.through cursor.previous), cursor)
    else .ok (.identifier name span, cursor)

/-- Reads a literal, a name, a call or an expression in parentheses. -/
def primary (allowance : Nat) (below : Option Level) (cursor : Cursor) :
    Except Failure (Expr × Cursor) :=
  match cursor.peek with
  | .number literal => .ok (.number literal cursor.span, cursor.advance)
  | .trueKeyword => .ok (.bool true cursor.span, cursor.advance)
  | .falseKeyword => .ok (.bool false cursor.span, cursor.advance)
  | .leftParen => do
    let (inner, cursor) ← nested below (fun level => level.binary 1) cursor.advance
    let cursor ← expect .rightParen cursor
    .ok (inner, cursor)
  | .identifier name => named allowance below name cursor.span cursor.advance
  | found => fail (.expectedExpression found) cursor

/-- Reads accesses behind a base, each one level deeper. -/
def accessesFrom (below : Option Level) (base : Expr) (cursor : Cursor) :
    Except Failure (Expr × Cursor) :=
  match cursor.peek with
  | .dot => nested below (fun level cursor => do
      let ((name, span), cursor) ← identifier cursor.advance
      level.accesses (.member base name (base.span.through span)) cursor) cursor
  | .leftBracket => nested below (fun level cursor => do
      let (index, cursor) ← level.binary 1 cursor
      let cursor ← expect .rightBracket cursor
      level.accesses (.index base index (base.span.through cursor.previous)) cursor) cursor.advance
  | .leftParen => fail .notCallable cursor
  | _ => .ok (base, cursor)

/-- Reads an operand with its accesses and the unary operators in front of it. -/
def unaryFrom (allowance : Nat) (below : Option Level) (cursor : Cursor) :
    Except Failure (Expr × Cursor) :=
  match UnaryOperator.ofToken? cursor.peek with
  | some operator => do
    let (operand, next) ← nested below (fun level => level.unary) cursor.advance
    .ok (.unary operator operand (cursor.span.through operand.span), next)
  | none => do
    let (base, cursor) ← primary allowance below cursor
    accessesFrom below base cursor

/-- Reads operators of at least a precedence behind a left operand, each one level deeper. -/
def binaryRestFrom (below : Option Level) (least : Nat) (left : Expr) (cursor : Cursor) :
    Except Failure (Expr × Cursor) :=
  match BinaryOperator.ofToken? cursor.peek with
  | some operator =>
    if least ≤ operator.precedence then
      nested below (fun level cursor => do
        let (right, cursor) ← level.binary (operator.precedence + 1) cursor
        level.binaryRest least (.binary operator left right (left.span.through right.span)) cursor)
        cursor.advance
    else .ok (left, cursor)
  | none => .ok (left, cursor)

/-- The readers for `allowance` levels from those for one level less. -/
def Level.above (allowance : Nat) (below : Option Level) : Level where
  binary least cursor := do
    let (left, cursor) ← unaryFrom allowance below cursor
    binaryRestFrom below least left cursor
  binaryRest := binaryRestFrom below
  unary := unaryFrom allowance below
  accesses := accessesFrom below

/-- The readers for `allowance` levels. -/
def level : (allowance : Nat) → Level
  | 0 => .above 0 none
  | allowance + 1 => .above (allowance + 1) (some (level allowance))

/-- Reads an expression that may nest `allowance` levels deep. -/
def expression (allowance : Nat) : Reader Expr := (level allowance).binary 1

end Shading.Surface
