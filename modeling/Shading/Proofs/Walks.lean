import Shading.Typed.Traversal

/-!
# Walks in order

A walk through a program visits the names in it in order, and each visit goes on with what the one
before it made, until one stops the walk. So a walk is the same as going through the list of the names.
-/

namespace Shading

open List

namespace Statement

variable {Expression Ascription State Stop : Type} {visit : State → Expression → Except Stop State}

mutual

/-- A walk through a statement visits its expressions. -/
theorem walk_eq (state : State) : (statement : Statement Expression Ascription) →
    statement.walk visit state = statement.expressions.foldlM visit state
  | .letBinding .. | .varBinding _ _ (some _) _ | .assignment .. | .returning (some _) _
  | .evaluation .. => by simp [walk, expressions]
  | .varBinding _ _ none _ | .returning none _ => rfl
  | .block statements .. => by rw [walk, expressions, walkAll_eq state statements]

/-- A walk through statements visits their expressions. -/
theorem walkAll_eq (state : State) : (statements : List (Statement Expression Ascription)) →
    walkAll visit state statements = (allExpressions statements).foldlM visit state
  | [] => rfl
  | first :: rest => by
    rw [walkAll, allExpressions, foldlM_append, walk_eq state first]
    exact bind_congr fun next => walkAll_eq next rest

end

end Statement

namespace Typed

namespace Expr

/-- The name that an expression consists of. -/
def name? : Expr → Option String
  | .identifier name _ _ => some name
  | _ => none

variable {State Stop : Type} {visit : State → String → Except Stop State}

mutual

/-- A walk through an expression visits its names. -/
theorem walkNames_eq (state : State) : (expression : Expr) →
    expression.walkNames visit state = (expression.nodes.filterMap name?).foldlM visit state
  | .number .. | .bool .. => rfl
  | .identifier .. => by simp [walkNames, nodes, name?]
  | .binary _ left right _ _ | .index left right _ _ => by
    rw [walkNames, nodes, filterMap_cons_none rfl, filterMap_append, foldlM_append,
      walkNames_eq state left]
    exact bind_congr fun next => walkNames_eq next right
  | .unary _ operand _ _ | .member operand _ _ _ _ => by
    rw [walkNames, nodes, filterMap_cons_none rfl, walkNames_eq state operand]
  | .call _ arguments _ _ => by
    rw [walkNames, nodes, filterMap_cons_none rfl, walkAllNames_eq state arguments]

/-- A walk through expressions visits their names. -/
theorem walkAllNames_eq (state : State) : (expressions : List Expr) →
    walkAllNames visit state expressions = ((allNodes expressions).filterMap name?).foldlM visit state
  | [] => rfl
  | first :: rest => by
    rw [walkAllNames, allNodes, filterMap_append, foldlM_append, walkNames_eq state first]
    exact bind_congr fun next => walkAllNames_eq next rest

end

/-- Walks one after the other visit all names. -/
theorem foldlM_walkNames (state : State) (expressions : List Expr) :
    expressions.foldlM (walkNames visit) state =
      ((allNodes expressions).filterMap name?).foldlM visit state := by
  induction expressions generalizing state with
  | nil => rfl
  | cons first rest ih =>
    rw [foldlM_cons, allNodes, filterMap_append, foldlM_append, walkNames_eq]
    exact bind_congr ih

end Expr

namespace Program

/-- The names in a program, in order. -/
def names (program : Program) : List String :=
  program.functions.flatMap fun function => (functionNodes function).filterMap Expr.name?

/-- A walk through functions visits their names. -/
theorem walkFunctions_eq {State Stop : Type} {visit : State → String → Except Stop State}
    (state : State) (functions : List (Function Expr DeclaredType)) :
    walkFunctions visit state functions = (functions.flatMap fun function =>
      (functionNodes function).filterMap Expr.name?).foldlM visit state := by
  induction functions generalizing state with
  | nil => rfl
  | cons first rest ih =>
    rw [walkFunctions, flatMap_cons, foldlM_append, Statement.walkAll_eq,
      Expr.foldlM_walkNames]
    exact bind_congr ih

/-- Writes a name down, and stops at one of the names. -/
def record (stop : String) (found : List String) (name : String) :
    Except (List String) (List String) :=
  if some name = some stop then .error (found ++ [name]) else .ok (found ++ [name])

/-- Names are written down up to the one to stop at. -/
theorem foldlM_record (stop : String) (names found : List String) :
    names.foldlM (record stop) found =
      if stop ∈ names then .error (found ++ names.take (names.idxOf stop + 1))
      else .ok (found ++ names) := by
  induction names generalizing found with
  | nil => simp [pure, Except.pure]
  | cons first rest ih =>
    rw [foldlM_cons, idxOf_cons]
    by_cases here : first = stop
    · simp [here, record, bind, Except.bind]
    · have step : record stop found first = .ok (found ++ [first]) := by simp [record, here]
      rw [step]
      change rest.foldlM (record stop) (found ++ [first]) = _
      rw [ih]
      simp [beq_false_of_ne here, Ne.symm here]

/-- A walk that writes down each name and stops at one of them writes down the names of the program
in order, up to the first occurrence of that name, and stops exactly if it occurs. -/
theorem walk_records_names (program : Program) (stop : String) :
    program.namesUntil (some stop) =
      (program.names.take (program.names.idxOf stop + 1), decide (stop ∈ program.names)) := by
  have walked := (walkFunctions_eq [] program.functions).trans (foldlM_record stop program.names [])
  unfold record at walked
  unfold namesUntil
  dsimp only
  rw [walked]
  by_cases occurs : stop ∈ program.names
  · simp [occurs]
  · have all : program.names.length ≤ program.names.idxOf stop + 1 := by
      rw [idxOf_eq_length occurs]
      exact Nat.le_succ _
    rw [if_neg occurs, decide_eq_false occurs, take_of_length_le all, nil_append]

end Program

end Typed

end Shading
