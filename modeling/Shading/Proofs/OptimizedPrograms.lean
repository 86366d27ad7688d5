import Shading.Optimization
import Shading.Proofs.Nodes
import Shading.Proofs.Reachability

/-!
# One run of the optimizations is enough

Folding works from the inside out, so it leaves no operation that could be folded: what it refuses once
it refuses again. Dropping what stands behind a `return` leaves nothing behind one. Folding keeps every
`return`, so it does not matter which of the two runs first, and a second run finds nothing to do.
-/

namespace Shading

open List

variable {expression : Expr} {property : Expr → Prop}

namespace Typed.Expr

/-- The expression with other parts. -/
def mapParts (replace : Expr → Expr) : Expr → Expr
  | .number literal type span => .number literal type span
  | .bool value type span => .bool value type span
  | .identifier name type span => .identifier name type span
  | .binary operator left right type span =>
    .binary operator (replace left) (replace right) type span
  | .unary operator operand type span => .unary operator (replace operand) type span
  | .call callee arguments type span => .call callee (arguments.map replace) type span
  | .member base name kind type span => .member (replace base) name kind type span
  | .index base position type span => .index (replace base) (replace position) type span

/-- Replaced parts are those of the result. -/
theorem parts_mapParts (replace : Expr → Expr) (expression : Expr) :
    parts (expression.mapParts replace) = (parts expression).map replace := by
  cases expression <;> rfl

/-- Without changes nothing changes. -/
theorem mapParts_eq_self {replace : Expr → Expr}
    (each : ∀ part ∈ parts expression, replace part = part) :
    expression.mapParts replace = expression := by
  cases expression with
  | call callee arguments type span =>
    have same : arguments.map replace = arguments := (map_congr_left each).trans (map_id' _)
    rw [mapParts, same]
  | _ => simp_all [parts, mapParts]

/-- No operation in it can be replaced by its value. -/
def IsFolded (expression : Expr) : Prop :=
  ∀ node ∈ expression.nodes, node.isReplaced = false

/-- It is folded if its parts are and it is not replaced. -/
theorem isFolded_iff :
    expression.IsFolded ↔
      expression.isReplaced = false ∧ ∀ part ∈ parts expression, part.IsFolded :=
  forall_nodes

/-- Lists are folded one by one. -/
theorem foldedAll_eq_map (expressions : List Expr) :
    foldedAll expressions = expressions.map folded := by
  induction expressions with
  | nil => rfl
  | cons first rest ih => rw [foldedAll, ih, map_cons]

/-- Folding folds the parts and then perhaps replaces the whole, by a number only as the result of
an operation. -/
theorem folded_cases (expression : Expr) :
    (expression.folded = expression.mapParts folded ∧
        (expression.mapParts folded).isReplaced = false) ∨
      (expression.mapParts folded).isReplaced = true ∧
        ∃ value, expression.folded = ofValue expression.type expression.span value ∧
          ∀ literal, value = .number literal →
            ∃ operator left right, Constant.numbers? operator left right = some (.number literal) := by
  cases expression with
  | binary operator left right type span =>
    rw [folded, mapParts, foldBinary, isReplaced]
    split
    · rename_i value found
      refine .inr ⟨by rw [found]; rfl, value, rfl, ?_⟩
      rintro literal rfl
      obtain ⟨first, _, rest⟩ := Option.bind_eq_some_iff.mp found
      obtain ⟨second, _, computed⟩ := Option.bind_eq_some_iff.mp rest
      unfold Constant.binary? at computed
      split at computed
      · exact ⟨_, _, _, computed⟩
      · unfold Constant.truths? at computed
        split at computed <;> cases computed
      · cases computed
    · rename_i refused
      exact .inl ⟨rfl, by rw [refused]; rfl⟩
  | unary operator operand type span =>
    rw [folded, mapParts, foldUnary, isReplaced]
    split
    · rename_i value found
      refine .inr ⟨by rw [found]; rfl, value, rfl, ?_⟩
      rintro literal rfl
      unfold foldedUnary? at found
      split at found <;> cases found
    · rename_i refused
      exact .inl ⟨rfl, by rw [refused]; rfl⟩
  | call callee arguments type span =>
    rw [folded, mapParts, foldedAll_eq_map]
    exact .inl ⟨rfl, rfl⟩
  | _ => exact .inl ⟨by rw [folded, mapParts], rfl⟩

/-- What holds of all nodes and of results holds of folded nodes. -/
theorem forall_nodes_folded
    (heads : ∀ expression, property expression → property (expression.mapParts folded))
    (truths : ∀ value type span, property (.bool value type span))
    (numbers : ∀ operator left right literal type span,
      Constant.numbers? operator left right = some (.number literal) →
        property (.number literal type span)) (each : ∀ node ∈ expression.nodes, property node) :
    ∀ node ∈ expression.folded.nodes, property node := by
  induction expression using induction_parts with
  | step expression ih =>
    obtain ⟨here, below⟩ := forall_nodes.mp each
    rcases folded_cases expression with ⟨same, _⟩ | ⟨_, value, same, computed⟩
    · rw [same]
      refine forall_nodes.mpr ⟨heads expression here, ?_⟩
      rw [parts_mapParts]
      exact forall_mem_map.mpr fun part isPart => ih part isPart (below part isPart)
    · rw [same]
      cases value with
      | bool value => exact forall_mem_singleton.mpr (truths value _ _)
      | number literal =>
        obtain ⟨operator, left, right, result⟩ := computed literal rfl
        exact forall_mem_singleton.mpr (numbers operator left right literal _ _ result)

/-- Folding leaves nothing to fold. -/
theorem isFolded_folded (expression : Expr) : expression.folded.IsFolded := by
  induction expression using induction_parts with
  | step expression ih =>
    rcases folded_cases expression with ⟨same, kept⟩ | ⟨_, value, same, _⟩
    · rw [same]
      refine isFolded_iff.mpr ⟨kept, ?_⟩
      rw [parts_mapParts]
      exact forall_mem_map.mpr ih
    · rw [same]
      cases value <;> exact forall_mem_singleton.mpr rfl

/-- Lists count nothing if each does. -/
theorem foldCountAll_eq_zero {expressions : List Expr}
    (each : ∀ expression ∈ expressions, expression.foldCount = 0) : foldCountAll expressions = 0 := by
  induction expressions with
  | nil => rfl
  | cons first rest ih =>
    obtain ⟨here, later⟩ := forall_mem_cons.mp each
    rw [foldCountAll, here, ih later]

/-- A replaced operation is counted behind its parts. -/
theorem foldCount_eq (expression : Expr) : expression.foldCount =
    foldCountAll (parts expression) + (expression.mapParts folded).isReplaced.toNat := by
  cases expression <;> simp [foldCount, foldCountAll, parts, mapParts, isReplaced]

/-- Where nothing is to fold, nothing changes or counts. -/
theorem IsFolded.folded_eq (isFolded : expression.IsFolded) :
    expression.folded = expression ∧ expression.foldCount = 0 := by
  induction expression using induction_parts with
  | step expression ih =>
    obtain ⟨kept, inside⟩ := isFolded_iff.mp isFolded
    have each (part : Expr) (isPart : part ∈ parts expression) :
        part.folded = part ∧ part.foldCount = 0 := ih part isPart (inside part isPart)
    have same : expression.mapParts folded = expression :=
      mapParts_eq_self fun part isPart => (each part isPart).1
    constructor
    · rcases folded_cases expression with ⟨folds, _⟩ | ⟨replaced, _⟩
      · rw [folds, same]
      · rw [same, kept] at replaced
        cases replaced
    · rw [foldCount_eq, same, kept, foldCountAll_eq_zero fun part isPart => (each part isPart).2]
      rfl

end Typed.Expr

namespace Statement

variable {Expression Ascription : Type} {replace : Expression → Expression}

mutual

/-- The expressions of a statement are replaced one by one. -/
theorem expressions_map (replace : Expression → Expression) :
    (statement : Statement Expression Ascription) →
      (statement.map replace).expressions = statement.expressions.map replace
  | .letBinding .. => rfl
  | .varBinding _ _ value _ => by cases value <;> rfl
  | .assignment .. => rfl
  | .returning value _ => by cases value <;> rfl
  | .evaluation .. => rfl
  | .block statements _ _ _ => allExpressions_mapAll replace statements

/-- The expressions of statements are replaced one by one. -/
theorem allExpressions_mapAll (replace : Expression → Expression) :
    (statements : List (Statement Expression Ascription)) →
      allExpressions (mapAll replace statements) = (allExpressions statements).map replace
  | [] => rfl
  | first :: rest => by
    rw [mapAll, allExpressions, allExpressions, expressions_map replace first,
      allExpressions_mapAll replace rest, map_append]

end

mutual

/-- Replacing twice is replacing once, if each is so. -/
theorem map_map (settled : ∀ expression, replace (replace expression) = replace expression) :
    (statement : Statement Expression Ascription) →
      (statement.map replace).map replace = statement.map replace
  | .letBinding .. | .assignment .. | .evaluation .. => by simp only [map, settled]
  | .varBinding _ _ value _ | .returning value _ => by
    cases value <;> simp only [map, Option.map, settled]
  | .block statements _ _ _ => by simp only [map, mapAll_mapAll settled statements]

/-- Replacing twice in statements is replacing once. -/
theorem mapAll_mapAll (settled : ∀ expression, replace (replace expression) = replace expression) :
    (statements : List (Statement Expression Ascription)) →
      mapAll replace (mapAll replace statements) = mapAll replace statements
  | [] => rfl
  | first :: rest => by
    rw [mapAll, mapAll, map_map settled first, mapAll_mapAll settled rest]

end

mutual

/-- Replacing by itself changes nothing. -/
theorem map_id : (statement : Statement Expression Ascription) → statement.map id = statement
  | .letBinding .. | .assignment .. | .evaluation .. => rfl
  | .varBinding _ _ value _ | .returning value _ => by cases value <;> rfl
  | .block statements _ _ _ => by rw [map, mapAll_id statements]

/-- Replacing each expression by itself changes nothing. -/
theorem mapAll_id : (statements : List (Statement Expression Ascription)) →
    mapAll id statements = statements
  | [] => rfl
  | first :: rest => by rw [mapAll, map_id first, mapAll_id rest]

end

/-- A `return` stays one, and no other becomes one. -/
theorem isReturn_map (replace : Expression → Expression)
    (statement : Statement Expression Ascription) :
    (statement.map replace).isReturn = statement.isReturn := by
  cases statement <;> rfl

mutual

/-- Replacing and dropping may be swapped. -/
theorem map_pruned (replace : Expression → Expression) :
    (statement : Statement Expression Ascription) →
      statement.pruned.map replace = (statement.map replace).pruned
  | .letBinding .. | .varBinding .. | .assignment .. | .returning .. | .evaluation .. => rfl
  | .block statements _ _ _ => by simp only [pruned, map, mapAll_prunedAll replace statements]

/-- In statements, replacing and dropping may be swapped. -/
theorem mapAll_prunedAll (replace : Expression → Expression) :
    (statements : List (Statement Expression Ascription)) →
      mapAll replace (prunedAll statements) = prunedAll (mapAll replace statements)
  | [] => rfl
  | first :: rest => by
    have here := map_pruned replace first
    have later := mapAll_prunedAll replace rest
    rw [mapAll, prunedAll, prunedAll, isReturn_map]
    by_cases ends : first.isReturn
    · rw [if_pos ends, if_pos ends, mapAll, mapAll, here]
    · rw [if_neg ends, if_neg ends, mapAll, here, later]

end

mutual

/-- A pruned statement holds nothing to prune. -/
theorem pruned_pruned : (statement : Statement Expression Ascription) →
    statement.pruned.pruned = statement.pruned
  | .letBinding .. | .varBinding .. | .assignment .. | .returning .. | .evaluation .. => rfl
  | .block statements _ _ _ => by simp only [pruned, prunedAll_prunedAll statements]

/-- Dropping settles. -/
theorem prunedAll_prunedAll : (statements : List (Statement Expression Ascription)) →
    prunedAll (prunedAll statements) = prunedAll statements
  | [] => rfl
  | first :: rest => by
    have here := pruned_pruned first
    have later := prunedAll_prunedAll rest
    by_cases ends : first.isReturn
    · rw [prunedAll, if_pos ends, prunedAll, isReturn_pruned, if_pos ends, here]
    · rw [prunedAll, if_neg ends, prunedAll, isReturn_pruned, if_neg ends, here, later]

end

mutual

/-- Dropping statements leaves some of the expressions. -/
theorem expressions_pruned : (statement : Statement Expression Ascription) →
    statement.pruned.expressions.Sublist statement.expressions
  | .letBinding .. | .varBinding .. | .assignment .. | .returning .. | .evaluation .. => .refl _
  | .block statements _ _ _ => allExpressions_prunedAll statements

/-- Dropping adds no expressions. -/
theorem allExpressions_prunedAll : (statements : List (Statement Expression Ascription)) →
    (allExpressions (prunedAll statements)).Sublist (allExpressions statements)
  | [] => .refl _
  | first :: rest => by
    have here := expressions_pruned first
    rw [prunedAll]
    split
    · rw [allExpressions, allExpressions, allExpressions, append_nil]
      exact here.trans (sublist_append_left ..)
    · exact here.append (allExpressions_prunedAll rest)

end

end Statement

namespace Typed.Program

/-- Two changes of bodies are one. -/
theorem mapBodies_mapBodies (program : Program)
    (first second : List (Statement Expr DeclaredType) → List (Statement Expr DeclaredType)) :
    (program.mapBodies first).mapBodies second = program.mapBodies fun body => second (first body) := by
  simp only [mapBodies, map_map]
  rfl

/-- What folding keeps holds of an optimized program. -/
theorem forall_expressions_optimize
    (folds : ∀ expression, property expression → property expression.folded) {program : Program}
    (each : ∀ function ∈ program.functions,
      ∀ expression ∈ Statement.allExpressions function.body.statements, property expression)
    (options : OptimizationOptions) : ∀ function ∈ (program.optimize options).functions,
      ∀ expression ∈ Statement.allExpressions function.body.statements, property expression := by
  have mapped {change : List (Statement Expr DeclaredType) → List (Statement Expr DeclaredType)}
      {before : Program} (each : ∀ function ∈ before.functions,
        ∀ expression ∈ Statement.allExpressions (change function.body.statements), property expression) :
      ∀ function ∈ (before.mapBodies change).functions,
        ∀ expression ∈ Statement.allExpressions function.body.statements, property expression :=
    forall_mem_map.mpr each
  have folded : ∀ function ∈
      (if options.constantFolding then program.foldConstants else program).functions,
        ∀ expression ∈ Statement.allExpressions function.body.statements, property expression := by
    split
    · refine mapped fun function member => ?_
      rw [Statement.allExpressions_mapAll]
      exact forall_mem_map.mpr fun expression inside =>
        folds expression (each function member expression inside)
    · exact each
  unfold optimize
  dsimp only
  split
  · exact mapped fun function member expression inside => folded function member expression
      ((Statement.allExpressions_prunedAll _).subset inside)
  · exact folded

/-- No operation is counted in a folded program. -/
theorem foldCount_foldConstants (program : Program) : program.foldConstants.foldCount = 0 := by
  obtain ⟨functions, structs, uniforms, entryPoints⟩ := program
  simp only [foldCount, foldConstants, mapBodies, foldr_map]
  induction functions with
  | nil => rfl
  | cons first rest ih =>
    have each : ∀ expression ∈
        Statement.allExpressions (Statement.mapAll Expr.folded first.body.statements),
          expression.foldCount = 0 := by
      rw [Statement.allExpressions_mapAll]
      intro expression member
      obtain ⟨original, _, rfl⟩ := mem_map.mp member
      exact original.isFolded_folded.folded_eq.2
    rw [foldr_cons, ih, Expr.foldCountAll_eq_zero each]

/-- Folding settles. -/
theorem foldConstants_foldConstants (program : Program) :
    program.foldConstants.foldConstants = program.foldConstants := by
  rw [foldConstants, foldConstants, mapBodies_mapBodies]
  congr 1
  funext statements
  exact Statement.mapAll_mapAll (fun expression => expression.isFolded_folded.folded_eq.1) statements

/-- Dropping settles. -/
theorem dropUnreachable_dropUnreachable (program : Program) :
    program.dropUnreachable.dropUnreachable = program.dropUnreachable := by
  rw [dropUnreachable, dropUnreachable, mapBodies_mapBodies]
  congr 1
  funext statements
  exact Statement.prunedAll_prunedAll statements

/-- Folding and dropping may be swapped. -/
theorem foldConstants_dropUnreachable (program : Program) :
    program.dropUnreachable.foldConstants = program.foldConstants.dropUnreachable := by
  simp only [foldConstants, dropUnreachable, mapBodies_mapBodies]
  congr 1
  funext statements
  exact Statement.mapAll_prunedAll Expr.folded statements

/-- A second run changes nothing. -/
theorem optimize_optimize (options : OptimizationOptions) (program : Program) :
    (program.optimize options).optimize options = program.optimize options := by
  obtain ⟨folding, elimination, inlining⟩ := options
  -- Folding runs in front of the other pass, so a second run of both has to be put past the first.
  cases folding <;> cases elimination <;>
    simp only [optimize, if_true, Bool.false_eq_true, if_false, foldConstants_dropUnreachable,
      foldConstants_foldConstants, dropUnreachable_dropUnreachable]

/-- Folding and dropping can be run in either order. A second run of either, and so of any choice of
optimizations, changes nothing and counts nothing. -/
theorem optimization_settles (program : Program) :
    program.dropUnreachable.foldConstants = program.foldConstants.dropUnreachable ∧
      (program.foldConstants.foldConstants = program.foldConstants ∧
        program.foldConstants.foldCount = 0) ∧
      program.dropUnreachable.dropUnreachable = program.dropUnreachable ∧
      ∀ options, (program.optimize options).optimize options = program.optimize options :=
  ⟨foldConstants_dropUnreachable program,
    ⟨foldConstants_foldConstants program, foldCount_foldConstants program⟩,
    dropUnreachable_dropUnreachable program, fun options => optimize_optimize options program⟩

end Typed.Program

end Shading
