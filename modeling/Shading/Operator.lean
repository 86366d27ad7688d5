import Shading.Token

/-!
# Operators

Binary operators stand on six levels of precedence and are all left-associative; the two unary
operators bind tighter than any of them.
-/

namespace Shading

/-- An operator between two operands. -/
inductive BinaryOperator where
  | add
  | subtract
  | multiply
  | divide
  | remainder
  | equal
  | notEqual
  | less
  | greater
  | lessEqual
  | greaterEqual
  | and
  | or
deriving DecidableEq, Repr, Inhabited

namespace BinaryOperator

/-- All operators. -/
def all : List BinaryOperator :=
  [.add, .subtract, .multiply, .divide, .remainder, .equal, .notEqual, .less, .greater,
    .lessEqual, .greaterEqual, .and, .or]

/-- How an operator is written. -/
def text : BinaryOperator → String
  | .add => "+"
  | .subtract => "-"
  | .multiply => "*"
  | .divide => "/"
  | .remainder => "%"
  | .equal => "=="
  | .notEqual => "!="
  | .less => "<"
  | .greater => ">"
  | .lessEqual => "<="
  | .greaterEqual => ">="
  | .and => "&&"
  | .or => "||"

/-- The operator with the given text. -/
def ofText? (text : String) : Option BinaryOperator :=
  all.find? fun operator => operator.text == text

/-- How tight an operator binds, from one to six. -/
def precedence : BinaryOperator → Nat
  | .or => 1
  | .and => 2
  | .equal | .notEqual => 3
  | .less | .greater | .lessEqual | .greaterEqual => 4
  | .add | .subtract => 5
  | .multiply | .divide | .remainder => 6

/-- Whether the operator computes a number. -/
def isArithmetic : BinaryOperator → Bool
  | .add | .subtract | .multiply | .divide | .remainder => true
  | _ => false

/-- Whether the operator compares its operands. -/
def isComparison : BinaryOperator → Bool
  | .equal | .notEqual | .less | .greater | .lessEqual | .greaterEqual => true
  | _ => false

/-- Whether the operator joins truth values. -/
def isLogical : BinaryOperator → Bool
  | .and | .or => true
  | _ => false

/-- The operator that a token stands for between two operands. -/
def ofToken? : Token → Option BinaryOperator
  | .plus => some .add
  | .minus => some .subtract
  | .star => some .multiply
  | .slash => some .divide
  | .percent => some .remainder
  | .eqEq => some .equal
  | .notEq => some .notEqual
  | .less => some .less
  | .greater => some .greater
  | .lessEq => some .lessEqual
  | .greaterEq => some .greaterEqual
  | .andAnd => some .and
  | .orOr => some .or
  | _ => none

end BinaryOperator

/-- An operator in front of its operand. -/
inductive UnaryOperator where
  | negate
  | not
deriving DecidableEq, Repr, Inhabited

namespace UnaryOperator

/-- How an operator is written. -/
def text : UnaryOperator → String
  | .negate => "-"
  | .not => "!"

/-- The operator that a token stands for in front of an operand. -/
def ofToken? : Token → Option UnaryOperator
  | .minus => some .negate
  | .bang => some .not
  | _ => none

end UnaryOperator

end Shading
