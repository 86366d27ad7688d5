import Shading.Typed.Traversal

/-!
# Unreachable statements

What follows a `return` in the same block never runs and is dropped. Each block is looked at on its
own: a `return` inside a block does not end the block around it.
-/

namespace Shading

namespace Statement

variable {Expression Ascription : Type}

/-- Whether a statement is a `return`. -/
def isReturn : Statement Expression Ascription → Bool
  | .returning _ _ => true
  | _ => false

mutual

/-- Drops what is unreachable inside a statement. -/
def pruned : Statement Expression Ascription → Statement Expression Ascription
  | .block statements opening closing span => .block (prunedAll statements) opening closing span
  | .letBinding name ascription value span => .letBinding name ascription value span
  | .varBinding name ascription value span => .varBinding name ascription value span
  | .assignment target value span => .assignment target value span
  | .returning value span => .returning value span
  | .evaluation value span => .evaluation value span

/-- Drops what is unreachable among statements and inside them. -/
def prunedAll : List (Statement Expression Ascription) → List (Statement Expression Ascription)
  | [] => []
  | first :: rest => if first.isReturn then [first.pruned] else first.pruned :: prunedAll rest

end

/-- Number of statements behind the first `return`. -/
def countBehindReturn : List (Statement Expression Ascription) → Nat
  | [] => 0
  | first :: rest => if first.isReturn then rest.length else countBehindReturn rest

mutual

/-- Number of statements that are dropped inside a statement. -/
def pruneCount : Statement Expression Ascription → Nat
  | .block statements _ _ _ => pruneCountInside statements + countBehindReturn statements
  | _ => 0

/-- How many statements are dropped inside statements, dropped or not. -/
def pruneCountInside : List (Statement Expression Ascription) → Nat
  | [] => 0
  | first :: rest => first.pruneCount + pruneCountInside rest

end

/-- Number of statements that are dropped among statements and inside them. -/
def pruneCountAll (statements : List (Statement Expression Ascription)) : Nat :=
  pruneCountInside statements + countBehindReturn statements

end Statement

namespace Typed.Program

/-- Drops unreachable statements everywhere in a program. -/
def dropUnreachable (program : Program) : Program := program.mapBodies Statement.prunedAll

/-- Number of statements that are dropped from a program. -/
def unreachableCount (program : Program) : Nat :=
  program.functions.foldr (fun function count =>
    Statement.pruneCountAll function.body.statements + count) 0

end Typed.Program

end Shading
