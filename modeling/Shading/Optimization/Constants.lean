import Shading.Typed.Traversal

/-!
# Constant folding

An operation on literals is replaced by the literal of its value, from the inside out. Integers are
computed exactly and stay as they are where the result would not fit; floats are computed in the
64-bit format and rounded to the 32-bit one. A minus sign in front of a literal is left alone, but
an operation reads through it.
-/

namespace Shading

namespace Number.Kind

/-- The kind of an operation; without a suffix, it is the other's. -/
def merge? (left right : Kind) : Option Kind :=
  if left = .abstract then some right
  else if right = .abstract then some left
  else if left = right then some left
  else none

end Number.Kind

namespace Constant

/-- The value of a literal. -/
inductive Value where
  | number (literal : Number)
  | bool (value : Bool)
deriving DecidableEq, Repr, Inhabited

/-- Compares two numbers. -/
def compare? (operator : BinaryOperator) (left right : Binary64) : Option Bool :=
  match operator with
  | .equal => some (left.key == right.key)
  | .notEqual => some (left.key != right.key)
  | .less => some (left.key < right.key)
  | .lessEqual => some (left.key ≤ right.key)
  | .greater => some (right.key < left.key)
  | .greaterEqual => some (right.key ≤ left.key)
  | _ => none

/-- The exact result of an integer operation; quotients are cut toward zero. -/
def integer? (operator : BinaryOperator) (left right : Int) : Option Int :=
  match operator with
  | .add => some (left + right)
  | .subtract => some (left - right)
  | .multiply => some (left * right)
  | .divide => if right = 0 then none else some (left.tdiv right)
  | .remainder => if right = 0 then none else some (left.tmod right)
  | _ => none

/-- Whether a result lies in range; a remainder has none where the quotient does not fit. -/
def fits (operator : BinaryOperator) (least greatest left right result : Int) : Bool :=
  let judged := if operator = .remainder then left.tdiv right else result
  least ≤ judged && judged ≤ greatest

/-- The result of an operation on integers from `least` to `greatest`. -/
def bounded? (operator : BinaryOperator) (least greatest : Int) (left right : Binary64) :
    Option Binary64 :=
  let left := left.truncate least greatest
  let right := right.truncate least greatest
  (integer? operator left right).bind fun result =>
    if fits operator least greatest left right result then some (.ofInt result) else none

/-- The result of an operation on floats; there are no remainders. -/
def float? (operator : BinaryOperator) (left right : Binary64) : Option Binary64 :=
  match operator with
  | .add => left.add? right
  | .subtract => left.subtract? right
  | .multiply => left.multiply? right
  | .divide => left.divide? right
  | _ => none

/-- Whether a number is neither above the greatest `f16` nor below the least. -/
def fitsHalf (value : Binary64) : Bool :=
  value.key.natAbs ≤ Number.greatestF16.natAbs * Binary64.one

/-- The result of an arithmetic operation on numbers of a kind. -/
def arithmetic? (operator : BinaryOperator) (kind : Number.Kind) (left right : Binary64) :
    Option Binary64 :=
  match kind with
  | .i32 => bounded? operator Number.leastI32 Number.greatestI32 left right
  | .u32 => bounded? operator 0 Number.greatestU32 left right
  | .abstract | .f32 => ((float? operator left right).map Binary64.toSingle).filter Binary64.isFinite
  | .f16 => (float? operator left right).filter fitsHalf

/-- The value of an operation on two numbers. -/
def numbers? (operator : BinaryOperator) (left right : Number) : Option Value :=
  (left.kind.merge? right.kind).bind fun kind =>
    if operator.isComparison then (compare? operator left.value right.value).map .bool
    else (arithmetic? operator kind left.value right.value).map fun value =>
      .number ⟨value, kind, left.integral && right.integral && value.isWhole⟩

/-- The value of an operation on two truth values. -/
def truths? (operator : BinaryOperator) (left right : Bool) : Option Value :=
  match operator with
  | .and => some (.bool (left && right))
  | .or => some (.bool (left || right))
  | .equal => some (.bool (left == right))
  | .notEqual => some (.bool (left != right))
  | _ => none

/-- The value of an operation on two values. -/
def binary? (operator : BinaryOperator) : Value → Value → Option Value
  | .number left, .number right => numbers? operator left right
  | .bool left, .bool right => truths? operator left right
  | _, _ => none

end Constant

namespace Typed.Expr

/-- The value of a literal, or of a number behind a minus sign. -/
def value? : Expr → Option Constant.Value
  | .number literal _ _ => some (.number literal)
  | .bool value _ _ => some (.bool value)
  | .unary .negate (.number literal _ _) _ _ =>
    some (.number { literal with value := literal.value.negate })
  | _ => none

/-- The value of an operation on two operands, if both have one. -/
def foldedBinary? (operator : BinaryOperator) (left right : Expr) : Option Constant.Value :=
  left.value?.bind fun left => right.value?.bind fun right => Constant.binary? operator left right

/-- The value of an operation on one operand; numbers behind a minus sign stay as they are. -/
def foldedUnary? : UnaryOperator → Expr → Option Constant.Value
  | .not, .bool value _ _ => some (.bool !value)
  | _, _ => none

/-- The literal of a value. -/
def ofValue (type : Option Ty) (span : Span) : Constant.Value → Expr
  | .number literal => .number literal type span
  | .bool value => .bool value type span

/-- An operation on two folded operands, or the literal of its value. -/
def foldBinary (operator : BinaryOperator) (left right : Expr) (type : Option Ty) (span : Span) :
    Expr :=
  match foldedBinary? operator left right with
  | some value => ofValue type span value
  | none => .binary operator left right type span

/-- An operation on a folded operand, or the literal of its value. -/
def foldUnary (operator : UnaryOperator) (operand : Expr) (type : Option Ty) (span : Span) : Expr :=
  match foldedUnary? operator operand with
  | some value => ofValue type span value
  | none => .unary operator operand type span

mutual

/-- Replaces operations on literals by their values. -/
def folded : Expr → Expr
  | .number literal type span => .number literal type span
  | .bool value type span => .bool value type span
  | .identifier name type span => .identifier name type span
  | .binary operator left right type span => foldBinary operator left.folded right.folded type span
  | .unary operator operand type span => foldUnary operator operand.folded type span
  | .call callee arguments type span => .call callee (foldedAll arguments) type span
  | .member base name kind type span => .member base.folded name kind type span
  | .index base position type span => .index base.folded position.folded type span

/-- Replaces operations on literals in each expression. -/
def foldedAll : List Expr → List Expr
  | [] => []
  | first :: rest => first.folded :: foldedAll rest

end

/-- Whether folding replaces an expression whose parts are folded. -/
def isReplaced : Expr → Bool
  | .binary operator left right _ _ => (foldedBinary? operator left right).isSome
  | .unary operator operand _ _ => (foldedUnary? operator operand).isSome
  | _ => false

mutual

/-- Number of operations that folding replaces. -/
def foldCount : Expr → Nat
  | .number _ _ _ => 0
  | .bool _ _ _ => 0
  | .identifier _ _ _ => 0
  | .binary operator left right type span =>
    left.foldCount + right.foldCount +
      (isReplaced (.binary operator left.folded right.folded type span)).toNat
  | .unary operator operand type span =>
    operand.foldCount + (isReplaced (.unary operator operand.folded type span)).toNat
  | .call _ arguments _ _ => foldCountAll arguments
  | .member base _ _ _ _ => base.foldCount
  | .index base position _ _ => base.foldCount + position.foldCount

/-- Number of operations that folding replaces in expressions. -/
def foldCountAll : List Expr → Nat
  | [] => 0
  | first :: rest => first.foldCount + foldCountAll rest

end

end Typed.Expr

namespace Typed.Program

/-- Replaces operations on literals everywhere in a program. -/
def foldConstants (program : Program) : Program :=
  program.mapBodies (Statement.mapAll Expr.folded)

/-- Number of operations that folding replaces in a program. -/
def foldCount (program : Program) : Nat :=
  program.functions.foldr (fun function count =>
    Expr.foldCountAll (Statement.allExpressions function.body.statements) + count) 0

end Typed.Program

end Shading
