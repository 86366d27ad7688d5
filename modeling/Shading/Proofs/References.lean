import Shading.Proofs.TypedBodies

/-!
# What names refer to

A name in the body of a function refers to a uniform, to a parameter, or to the variable that a
statement in front of it declares; what is declared last and innermost wins. Typing and constant folding
keep every name, its place and its reference. Dropping unreachable statements drops the references in
them and keeps all others.
-/

namespace Shading

open List

/-- What the name of a value stands for. -/
inductive Declaration where
  /-- A uniform, by its position in the program. -/
  | uniform (position : Nat)
  /-- A parameter, by its position in the function. -/
  | parameter (position : Nat)
  /-- A variable, by the place of the statement that declares it. -/
  | ofStatement (place : Span)
deriving DecidableEq, Repr

/-- Whether the declaration is a statement of the body. -/
def Declaration.isLocal : Declaration → Bool
  | .ofStatement _ => true
  | .uniform _ | .parameter _ => false

/-- A use of a name and what it refers to. -/
structure Reference where
  name : String
  span : Span
  declaration : Option Declaration
deriving DecidableEq, Repr

/-- Whether the name refers to a variable of the body. -/
def Reference.isLocal (reference : Reference) : Bool := reference.declaration.any Declaration.isLocal

/-- The names in scope, the innermost and latest first. -/
abbrev Environment : Type := List (String × Declaration)

namespace Environment

/-- The names in scope at the start of a function. -/
def ofNames (uniforms parameters : List String) : Environment :=
  (parameters.zipIdx.map fun (name, position) => (name, Declaration.parameter position)).reverse ++
    (uniforms.zipIdx.map fun (name, position) => (name, Declaration.uniform position)).reverse

/-- What a use of a name refers to. -/
def resolve (environment : Environment) (use : String × Span) : Reference :=
  ⟨use.1, use.2, environment.lookup use.1⟩

end Environment

namespace Statement

variable {Expression Ascription : Type}

/-- The names in scope behind a statement. -/
def behind (environment : Environment) : Statement Expression Ascription → Environment
  | .letBinding name _ _ span => (name, .ofStatement span) :: environment
  | .varBinding name _ _ span => (name, .ofStatement span) :: environment
  | .assignment .. | .returning .. | .evaluation .. | .block .. => environment

mutual

/-- The references of a statement; `names` gives those of an expression. -/
def references (names : Expression → List (String × Span)) (environment : Environment) :
    Statement Expression Ascription → List Reference
  | .block statements _ _ _ => allReferences names environment statements
  | statement => (statement.expressions.flatMap names).map environment.resolve

/-- The references of statements, in order. -/
def allReferences (names : Expression → List (String × Span)) (environment : Environment) :
    List (Statement Expression Ascription) → List Reference
  | [] => []
  | first :: rest =>
    first.references names environment ++ allReferences names (first.behind environment) rest

end

section Pruning

variable {names : Expression → List (String × Span)}

/-- Pruning keeps what is declared. -/
theorem behind_pruned (environment : Environment) (statement : Statement Expression Ascription) :
    statement.pruned.behind environment = statement.behind environment := by
  cases statement <;> rfl

mutual

/-- Pruning a statement keeps some of its references. -/
theorem references_pruned (environment : Environment) :
    (statement : Statement Expression Ascription) →
      (statement.pruned.references names environment).Sublist (statement.references names environment)
  | .block statements _ _ _ => allReferences_pruned environment statements
  | .letBinding .. | .varBinding .. | .assignment .. | .returning .. | .evaluation .. => .refl _

/-- Pruning statements keeps some of their references. -/
theorem allReferences_pruned (environment : Environment) :
    (statements : List (Statement Expression Ascription)) →
      (allReferences names environment (prunedAll statements)).Sublist
        (allReferences names environment statements)
  | [] => .refl _
  | first :: rest => by
    have here := references_pruned environment first
    unfold prunedAll
    split
    · rw [allReferences, allReferences, allReferences, append_nil]
      exact here.trans (sublist_append_left ..)
    · rw [allReferences, allReferences, behind_pruned]
      exact here.append (allReferences_pruned _ rest)

end

end Pruning

section Mapping

variable {names : Expression → List (String × Span)} {replace : Expression → Expression}

/-- Replacing expressions keeps what is declared. -/
theorem behind_map (environment : Environment) (statement : Statement Expression Ascription) :
    (statement.map replace).behind environment = statement.behind environment := by
  cases statement <;> rfl

/-- The same names give the same references. -/
theorem references_map_of_plain
    (kept : ∀ expression, names (replace expression) = names expression) (environment : Environment)
    {statement : Statement Expression Ascription} (plain : statement.isBlock = false) :
    (statement.map replace).references names environment =
      statement.references names environment := by
  have optional (value : Option Expression) :
      (value.map replace).toList.flatMap names = value.toList.flatMap names := by
    cases value <;> simp [kept]
  cases statement with
  | block => cases plain
  | letBinding | assignment | evaluation => simp [map, references, expressions, kept]
  | varBinding | returning => simp [map, references, expressions, optional]

mutual

/-- Replacing expressions by others with the same names keeps them. -/
theorem references_map (kept : ∀ expression, names (replace expression) = names expression)
    (environment : Environment) : (statement : Statement Expression Ascription) →
      (statement.map replace).references names environment = statement.references names environment
  | .block statements _ _ _ => allReferences_map kept environment statements
  | .letBinding .. | .varBinding .. | .assignment .. | .returning .. | .evaluation .. =>
    references_map_of_plain kept environment rfl

/-- Replacing expressions of statements keeps references. -/
theorem allReferences_map (kept : ∀ expression, names (replace expression) = names expression)
    (environment : Environment) : (statements : List (Statement Expression Ascription)) →
      allReferences names environment (mapAll replace statements) =
        allReferences names environment statements
  | [] => rfl
  | first :: rest => by
    rw [mapAll, allReferences, allReferences, references_map kept environment first, behind_map,
      allReferences_map kept _ rest]

end

end Mapping

end Statement

namespace Typed.Expr

/-- The name and place of a use of a name. -/
def use? : Expr → Option (String × Span)
  | .identifier name _ span => some (name, span)
  | _ => none

/-- The names that an expression uses, with their places. -/
def identifiers (expression : Expr) : List (String × Span) := expression.nodes.filterMap use?

/-- The names that expressions use, with their places. -/
def allIdentifiers (expressions : List Expr) : List (String × Span) :=
  (allNodes expressions).filterMap use?

section

variable (type : Option Ty) (span : Span)

/-- A binary operation uses the names of both operands. -/
@[simp] theorem identifiers_binary (operator : BinaryOperator) (left right : Expr) :
    (Expr.binary operator left right type span).identifiers = left.identifiers ++ right.identifiers :=
  filterMap_append

/-- A unary one uses those of its operand. -/
@[simp] theorem identifiers_unary (operator : UnaryOperator) (operand : Expr) :
    (Expr.unary operator operand type span).identifiers = operand.identifiers := rfl

/-- An element uses those of base and position. -/
@[simp] theorem identifiers_index (base position : Expr) :
    (Expr.index base position type span).identifiers = base.identifiers ++ position.identifiers :=
  filterMap_append

end

/-- Expressions use the names of each. -/
@[simp] theorem allIdentifiers_cons (first : Expr) (rest : List Expr) :
    allIdentifiers (first :: rest) = first.identifiers ++ allIdentifiers rest :=
  filterMap_append

/-- Giving a literal another type changes no names. -/
theorem identifiers_retype (target : Scalar) (expression : Expr) :
    (expression.retype target).identifiers = expression.identifiers := by
  fun_induction retype target expression with
  | case1 => rfl
  | case2 _ _ _ _ ih => exact ih
  | case3 => rfl

/-- Coercion keeps names. -/
@[simp] theorem identifiers_coerceTo (target : Option Scalar) (expression : Expr) :
    (expression.coerceTo target).identifiers = expression.identifiers := by
  cases target with
  | none => rfl
  | some target =>
    unfold coerceTo coerce
    dsimp only
    split
    · rfl
    · split
      · split
        · exact identifiers_retype target expression
        · rfl
      · rfl

/-- What has a value uses no names. -/
theorem identifiers_of_value? {expression : Expr} {value : Constant.Value}
    (found : expression.value? = some value) : expression.identifiers = [] := by
  unfold value? at found
  split at found
  · rfl
  · rfl
  · rfl
  · cases found

/-- Values have no names. -/
theorem identifiers_ofValue (type : Option Ty) (span : Span) (value : Constant.Value) :
    (ofValue type span value).identifiers = [] := by
  cases value <;> rfl

/-- Folding an operation keeps names. -/
theorem identifiers_foldBinary (operator : BinaryOperator) (left right : Expr) (type : Option Ty)
    (span : Span) :
    (foldBinary operator left right type span).identifiers =
      left.identifiers ++ right.identifiers := by
  unfold foldBinary
  split
  · rename_i value folded
    obtain ⟨leftValue, leftFound, more⟩ := Option.bind_eq_some_iff.mp folded
    obtain ⟨rightValue, rightFound, _⟩ := Option.bind_eq_some_iff.mp more
    rw [identifiers_ofValue, identifiers_of_value? leftFound, identifiers_of_value? rightFound,
      append_nil]
  · exact identifiers_binary ..

/-- Folding a unary operation keeps names. -/
theorem identifiers_foldUnary (operator : UnaryOperator) (operand : Expr) (type : Option Ty)
    (span : Span) :
    (foldUnary operator operand type span).identifiers = operand.identifiers := by
  unfold foldUnary foldedUnary?
  split
  · rename_i value folded
    split at folded
    · exact identifiers_ofValue ..
    · cases folded
  · rfl

mutual

/-- Folding keeps the names of an expression. -/
theorem identifiers_folded : (expression : Expr) → expression.folded.identifiers = expression.identifiers
  | .number .. | .bool .. | .identifier .. => rfl
  | .binary operator left right type span => by
    rw [folded, identifiers_foldBinary, identifiers_folded left, identifiers_folded right,
      identifiers_binary]
  | .unary operator operand type span => by
    rw [folded, identifiers_foldUnary, identifiers_folded operand, identifiers_unary]
  | .call callee arguments type span => allIdentifiers_folded arguments
  | .member base name kind type span => identifiers_folded base
  | .index base position type span => by
    rw [folded, identifiers_index, identifiers_folded base, identifiers_folded position,
      identifiers_index]

/-- Folding lists keeps names. -/
theorem allIdentifiers_folded : (expressions : List Expr) →
    allIdentifiers (foldedAll expressions) = allIdentifiers expressions
  | [] => rfl
  | first :: rest => by
    rw [foldedAll, allIdentifiers_cons, identifiers_folded first, allIdentifiers_folded rest,
      allIdentifiers_cons]

end

end Typed.Expr

namespace Typing

open Typed (Callee Expr)

mutual

/-- Typing keeps the names of an expression. -/
theorem Elaborates.identifiers {context : Context} {expression : Surface.Expr} {typed : Expr}
    {log : List Issue} : Elaborates context expression typed log →
      typed.identifiers = expression.identifiers
  | .coerce made target => (Expr.identifiers_coerceTo (some target) _).trans made.identifiers
  | .bool .. | .number .. | .bound .. | .unbound .. => rfl
  | .binary _ _ leftMade rightMade _ => by
    rw [Expr.identifiers_binary, leftMade.identifiers, rightMade.identifiers]
    rfl
  | .unary _ _ made _ => by
    rw [Expr.identifiers_unary, made.identifiers]
    rfl
  | .call _ made _ | .member _ _ made _ _ => made.identifiers
  | .index _ baseMade positionMade _ => by
    rw [Expr.identifiers_index, baseMade.identifiers, positionMade.identifiers]
    rfl

/-- Typing keeps the names of lists. -/
theorem ElaboratesAll.identifiers {context : Context} {expressions : List Surface.Expr}
    {typed : List Expr} {log : List Issue} : ElaboratesAll context expressions typed log →
      Expr.allIdentifiers typed = Surface.Expr.allIdentifiers expressions
  | .nil => rfl
  | .cons first rest => by
    rw [Expr.allIdentifiers_cons, first.identifiers, rest.identifiers]
    rfl

end

/-- Typing keeps names. -/
theorem identifiers_elaborate (context : Context) (expression : Surface.Expr)
    (hint : Option Scalar) :
    (elaborate context expression hint).value.identifiers = expression.identifiers :=
  (elaborate_elaborates expression hint).identifiers

end Typing

namespace Analysis

open Typed (DeclaredType)

/-- Typing keeps what is declared. -/
theorem behind_typeStatement (function : Enclosing) (frame : Frame) (environment : Environment)
    (statement : Surface.Stmt) :
    (typeStatement function frame statement).value.1.behind environment =
      statement.behind environment := by
  cases statement with
  | varBinding =>
    rw [value_typeStatement_var]
    rfl
  | letBinding | assignment | returning | evaluation | block => rfl

/-- Initial values keep names. -/
theorem identifiers_initialValue (frame : Frame) (expected : Option Ty)
    (value : Option Surface.Expr) :
    (initialValue frame expected value).value.toList.flatMap Typed.Expr.identifiers =
      value.toList.flatMap Surface.Expr.identifiers := by
  cases value with
  | none => rfl
  | some source =>
    simpa [initialValue, Frame.typed] using Typing.identifiers_elaborate frame.context source _

/-- Returned values keep names. -/
theorem identifiers_returnedValue (function : Enclosing) (frame : Frame) (span : Span)
    (value : Option Surface.Expr) :
    (returnedValue function frame span value).value.toList.flatMap Typed.Expr.identifiers =
      value.toList.flatMap Surface.Expr.identifiers := by
  cases value with
  | none =>
    simp only [returnedValue]
    split <;> rfl
  | some source =>
    unfold returnedValue
    dsimp only
    split <;> simpa [Frame.typed] using Typing.identifiers_elaborate frame.context source _

mutual

/-- Typing keeps the references of a statement. -/
theorem references_typeStatement (function : Enclosing) (frame : Frame)
    (environment : Environment) : (statement : Surface.Stmt) →
      (typeStatement function frame statement).value.1.references Typed.Expr.identifiers environment =
        statement.references Surface.Expr.identifiers environment
  | .letBinding .. | .assignment .. | .evaluation .. => by
    simp [typeStatement, Statement.references, Statement.expressions, Frame.typed,
      Typing.identifiers_elaborate]
  | .varBinding name ascription value span => by
    rw [value_typeStatement_var]
    simp only [Statement.references, Statement.expressions]
    rw [identifiers_initialValue]
  | .returning value span => by
    simp only [typeStatement, Logged.value_bind, Logged.value_pure, Statement.references,
      Statement.expressions]
    rw [identifiers_returnedValue]
  | .block statements _ _ _ =>
    allReferences_typeStatements function (frame.enter statements) environment statements

/-- Typing keeps the references of statements. -/
theorem allReferences_typeStatements (function : Enclosing) (frame : Frame)
    (environment : Environment) : (statements : List Surface.Stmt) →
      Statement.allReferences Typed.Expr.identifiers environment
          (typeStatements function frame statements).value =
        Statement.allReferences Surface.Expr.identifiers environment statements
  | [] => rfl
  | first :: rest => by
    simp only [typeStatements, Logged.value_bind, Logged.value_pure, Statement.allReferences]
    rw [references_typeStatement function frame environment first, behind_typeStatement,
      allReferences_typeStatements function _ _ rest]

end

end Analysis

namespace Typed.Program

/-- The statements of a body as the options ask for. -/
def optimizedBody (options : OptimizationOptions) (statements : List (Statement Expr DeclaredType)) :
    List (Statement Expr DeclaredType) :=
  let folded :=
    if options.constantFolding then Statement.mapAll Expr.folded statements else statements
  if options.deadCodeElimination then Statement.prunedAll folded else folded

/-- Optimization works on each body alone. -/
theorem optimize_eq (options : OptimizationOptions) (program : Program) :
    program.optimize options = program.mapBodies (optimizedBody options) := by
  unfold optimize optimizedBody
  cases options.constantFolding <;> cases options.deadCodeElimination <;>
    simp [foldConstants, dropUnreachable, mapBodies]

/-- Optimization keeps some of the references of a body. -/
theorem references_optimizedBody (options : OptimizationOptions) (environment : Environment)
    (statements : List (Statement Expr DeclaredType)) :
    (Statement.allReferences Expr.identifiers environment
      (optimizedBody options statements)).Sublist
        (Statement.allReferences Expr.identifiers environment statements) := by
  have folded (condition : Bool) : Statement.allReferences Expr.identifiers environment
      (if condition then Statement.mapAll Expr.folded statements else statements) =
        Statement.allReferences Expr.identifiers environment statements := by
    cases condition with
    | true => exact Statement.allReferences_map Expr.identifiers_folded environment statements
    | false => rfl
  unfold optimizedBody
  dsimp only
  rw [← folded options.constantFolding]
  split
  · exact Statement.allReferences_pruned environment _
  · exact .refl _

end Typed.Program

end Shading
