import Shading.Typed.Traversal

/-!
# The nodes of typed expressions

The nodes of an expression are the expression itself and the nodes of its parts. What holds of an
expression whenever it holds of its parts holds of all expressions.
-/

namespace Shading.Typed.Expr

variable {node expression part : Expr}

section

variable (type : Option Ty) (span : Span)

/-- A literal has the type that it is given. -/
@[simp] theorem type_number (literal : Number) : (Expr.number literal type span).type = type := rfl

/-- A truth value has the type that it is given. -/
@[simp] theorem type_bool (value : Bool) : (Expr.bool value type span).type = type := rfl

/-- A name has the type that it is given. -/
@[simp] theorem type_identifier (name : String) :
    (Expr.identifier name type span).type = type := rfl

/-- A binary operation has the type that it is given. -/
@[simp] theorem type_binary (operator : BinaryOperator) (left right : Expr) :
    (Expr.binary operator left right type span).type = type := rfl

/-- A unary operation has the type that it is given. -/
@[simp] theorem type_unary (operator : UnaryOperator) (operand : Expr) :
    (Expr.unary operator operand type span).type = type := rfl

/-- A call has the type that it is given. -/
@[simp] theorem type_call (callee : Callee) (arguments : List Expr) :
    (Expr.call callee arguments type span).type = type := rfl

/-- A member has the type that it is given. -/
@[simp] theorem type_member (base : Expr) (name : String) (kind : MemberKind) :
    (Expr.member base name kind type span).type = type := rfl

/-- An element has the type that it is given. -/
@[simp] theorem type_index (base position : Expr) :
    (Expr.index base position type span).type = type := rfl

end

/-- The immediate parts of an expression. -/
def parts : Expr → List Expr
  | .number _ _ _ | .bool _ _ _ | .identifier _ _ _ => []
  | .binary _ left right _ _ => [left, right]
  | .unary _ operand _ _ => [operand]
  | .call _ arguments _ _ => arguments
  | .member base _ _ _ _ => [base]
  | .index base position _ _ => [base, position]

/-- The nodes of expressions are the nodes of each of them. -/
theorem mem_allNodes {expressions : List Expr} :
    node ∈ allNodes expressions ↔ ∃ expression ∈ expressions, node ∈ expression.nodes := by
  induction expressions with
  | nil => simp [allNodes]
  | cons first rest ih => simp [allNodes, ih]

/-- Nodes are the expression and the nodes of its parts. -/
theorem mem_nodes :
    node ∈ expression.nodes ↔ node = expression ∨ ∃ part ∈ parts expression, node ∈ part.nodes := by
  cases expression <;> simp [nodes, parts, mem_allNodes]

/-- An expression is one of its own nodes. -/
theorem mem_nodes_self (expression : Expr) : expression ∈ expression.nodes :=
  mem_nodes.mpr (.inl rfl)

/-- The nodes of a part are nodes of the whole. -/
theorem mem_nodes_of_part (isPart : part ∈ parts expression) (member : node ∈ part.nodes) :
    node ∈ expression.nodes :=
  mem_nodes.mpr (.inr ⟨part, isPart, member⟩)

/-- All nodes have a property if it and those of its parts have. -/
theorem forall_nodes {property : Expr → Prop} :
    (∀ node ∈ expression.nodes, property node) ↔
      property expression ∧ ∀ part ∈ parts expression, ∀ node ∈ part.nodes, property node := by
  constructor
  · intro all
    exact ⟨all _ (mem_nodes_self _), fun part isPart node member =>
      all node (mem_nodes_of_part isPart member)⟩
  · rintro ⟨here, below⟩ node member
    rcases mem_nodes.mp member with rfl | ⟨part, isPart, inside⟩
    · exact here
    · exact below part isPart node inside

mutual

/-- What passes from parts to wholes holds of all. -/
theorem induction_parts {motive : Expr → Prop}
    (step : ∀ expression, (∀ part ∈ parts expression, motive part) → motive expression) :
    (expression : Expr) → motive expression
  | .number _ _ _ | .bool _ _ _ | .identifier _ _ _ => step _ (by simp [parts])
  | .binary _ left right _ _ | .index left right _ _ =>
    step _ (by simpa [parts] using ⟨induction_parts step left, induction_parts step right⟩)
  | .unary _ operand _ _ | .member operand _ _ _ _ =>
    step _ (by simpa [parts] using induction_parts step operand)
  | .call _ arguments _ _ => step _ (by simpa [parts] using induction_all step arguments)

/-- What passes from parts to wholes holds of lists. -/
theorem induction_all {motive : Expr → Prop}
    (step : ∀ expression, (∀ part ∈ parts expression, motive part) → motive expression) :
    (expressions : List Expr) → ∀ expression ∈ expressions, motive expression
  | [] => by simp
  | first :: rest => by simpa using ⟨induction_parts step first, induction_all step rest⟩

end

/-- The nodes of a node are nodes of the whole. -/
theorem mem_nodes_trans {inner : Expr} (member : node ∈ expression.nodes)
    (inside : inner ∈ node.nodes) : inner ∈ expression.nodes := by
  induction expression using induction_parts with
  | step expression ih =>
    rcases mem_nodes.mp member with rfl | ⟨part, isPart, below⟩
    · exact inside
    · exact mem_nodes_of_part isPart (ih part isPart below)

/-- The parts of a node are nodes of the whole. -/
theorem mem_nodes_part (member : node ∈ expression.nodes) (isPart : part ∈ parts node) :
    part ∈ expression.nodes :=
  mem_nodes_trans member (mem_nodes_of_part isPart (mem_nodes_self part))

end Shading.Typed.Expr
