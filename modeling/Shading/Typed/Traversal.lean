import Shading.Typed

/-!
# Walking through typed programs

Every expression of a program has its place in one order: functions in declared order, statements in
order, the target of an assignment before the value, an operation before its operands, operands and
arguments from left to right. A walk visits them in that order and may stop at any of them.
-/

namespace Shading

namespace Statement

variable {Expression Ascription : Type}

mutual

/-- The expressions of a statement, in order. -/
def expressions : Statement Expression Ascription → List Expression
  | .letBinding _ _ value _ => [value]
  | .varBinding _ _ value _ => value.toList
  | .assignment target value _ => [target, value]
  | .returning value _ => value.toList
  | .evaluation value _ => [value]
  | .block statements _ _ _ => allExpressions statements

/-- The expressions of statements, in order. -/
def allExpressions : List (Statement Expression Ascription) → List Expression
  | [] => []
  | first :: rest => first.expressions ++ allExpressions rest

end

mutual

/-- Replaces the expressions of a statement. -/
def map (replace : Expression → Expression) :
    Statement Expression Ascription → Statement Expression Ascription
  | .letBinding name ascription value span => .letBinding name ascription (replace value) span
  | .varBinding name ascription value span => .varBinding name ascription (value.map replace) span
  | .assignment target value span => .assignment (replace target) (replace value) span
  | .returning value span => .returning (value.map replace) span
  | .evaluation value span => .evaluation (replace value) span
  | .block statements opening closing span => .block (mapAll replace statements) opening closing span

/-- Replaces the expressions of statements. -/
def mapAll (replace : Expression → Expression) :
    List (Statement Expression Ascription) → List (Statement Expression Ascription)
  | [] => []
  | first :: rest => first.map replace :: mapAll replace rest

end

variable {State Stop : Type}

mutual

/-- Visits the expressions of a statement in order until one stops the walk. -/
def walk (visit : State → Expression → Except Stop State) (state : State) :
    Statement Expression Ascription → Except Stop State
  | .letBinding _ _ value _ => visit state value
  | .varBinding _ _ (some value) _ => visit state value
  | .varBinding _ _ none _ => .ok state
  | .assignment target value _ => do
    let state ← visit state target
    visit state value
  | .returning (some value) _ => visit state value
  | .returning none _ => .ok state
  | .evaluation value _ => visit state value
  | .block statements _ _ _ => walkAll visit state statements

/-- Visits the expressions of statements in order until one stops the walk. -/
def walkAll (visit : State → Expression → Except Stop State) (state : State) :
    List (Statement Expression Ascription) → Except Stop State
  | [] => .ok state
  | first :: rest => do
    let state ← first.walk visit state
    walkAll visit state rest

end

end Statement

namespace Typed

namespace Expr

mutual

/-- An expression and all its parts, in order. -/
def nodes : Expr → List Expr
  | .number literal type span => [.number literal type span]
  | .bool value type span => [.bool value type span]
  | .identifier name type span => [.identifier name type span]
  | .binary operator left right type span =>
    .binary operator left right type span :: (left.nodes ++ right.nodes)
  | .unary operator operand type span => .unary operator operand type span :: operand.nodes
  | .call callee arguments type span => .call callee arguments type span :: allNodes arguments
  | .member base name kind type span => .member base name kind type span :: base.nodes
  | .index base position type span =>
    .index base position type span :: (base.nodes ++ position.nodes)

/-- Expressions and all their parts, in order. -/
def allNodes : List Expr → List Expr
  | [] => []
  | first :: rest => first.nodes ++ allNodes rest

end

variable {State Stop : Type}

mutual

/-- Visits the names in an expression in order until one stops the walk. -/
def walkNames (visit : State → String → Except Stop State) (state : State) :
    Expr → Except Stop State
  | .number _ _ _ => .ok state
  | .bool _ _ _ => .ok state
  | .identifier name _ _ => visit state name
  | .binary _ left right _ _ => do
    let state ← left.walkNames visit state
    right.walkNames visit state
  | .unary _ operand _ _ => operand.walkNames visit state
  | .call _ arguments _ _ => walkAllNames visit state arguments
  | .member base _ _ _ _ => base.walkNames visit state
  | .index base position _ _ => do
    let state ← base.walkNames visit state
    position.walkNames visit state

/-- Visits the names in expressions in order until one stops the walk. -/
def walkAllNames (visit : State → String → Except Stop State) (state : State) :
    List Expr → Except Stop State
  | [] => .ok state
  | first :: rest => do
    let state ← first.walkNames visit state
    walkAllNames visit state rest

end

end Expr

/-- The expressions of a function and all their parts, in order. -/
def functionNodes (function : Function Expr DeclaredType) : List Expr :=
  Expr.allNodes (Statement.allExpressions function.body.statements)

namespace Program

/-- Replaces the statements of every function. -/
def mapBodies (replace : List (Statement Expr DeclaredType) → List (Statement Expr DeclaredType))
    (program : Program) : Program :=
  { program with
    functions := program.functions.map fun function =>
      { function with body := { function.body with statements := replace function.body.statements } } }

variable {State Stop : Type}

/-- Visits the names in functions in order until one stops the walk. -/
def walkFunctions (visit : State → String → Except Stop State) (state : State) :
    List (Function Expr DeclaredType) → Except Stop State
  | [] => .ok state
  | first :: rest => do
    let state ← Statement.walkAll (Expr.walkNames visit) state first.body.statements
    walkFunctions visit state rest

/-- The names in a program up to `stop`, in order, and whether `stop` was met. -/
def namesUntil (program : Program) (stop : Option String) : List String × Bool :=
  let visit (names : List String) (name : String) : Except (List String) (List String) :=
    if some name = stop then .error (names ++ [name]) else .ok (names ++ [name])
  match walkFunctions visit [] program.functions with
  | .ok names => (names, false)
  | .error names => (names, true)

end Program

end Typed

end Shading
