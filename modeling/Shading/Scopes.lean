/-!
# Scopes

Names are bound in nested scopes. A scope keeps its bindings in the order in which their names were
first bound, and binding a name again replaces what it stands for. Inner scopes hide the bindings of
outer ones without changing them, and the outermost scope can never be left.
-/

namespace Shading

/-- The bindings of one scope, in the order of first binding. -/
abbrev Scope (α : Type) : Type := List (String × α)

/-- Binds a name in a scope. -/
def Scope.insert {α : Type} (name : String) (value : α) : Scope α → Scope α
  | [] => [(name, value)]
  | (bound, old) :: rest =>
    if bound = name then (bound, value) :: rest else (bound, old) :: Scope.insert name value rest

/-- Nested scopes. -/
structure Scopes (α : Type) where
  /-- The innermost scope. -/
  current : Scope α
  /-- The scopes around it, from the inside out. -/
  outer : List (Scope α)
deriving Repr, Inhabited

namespace Scopes

variable {α : Type}

/-- Only the outermost scope, with nothing bound. -/
def empty : Scopes α := ⟨[], []⟩

/-- Enters a new scope. -/
def push (scopes : Scopes α) : Scopes α := ⟨[], scopes.current :: scopes.outer⟩

/-- Leaves the innermost scope and tells its bindings, unless it is the outermost one. -/
def pop? (scopes : Scopes α) : Option (Scope α × Scopes α) :=
  match scopes.outer with
  | [] => none
  | next :: rest => some (scopes.current, ⟨next, rest⟩)

/-- Leaves the innermost scope, unless it is the outermost one. -/
def pop (scopes : Scopes α) : Scopes α :=
  match scopes.pop? with
  | some (_, rest) => rest
  | none => scopes

/-- Binds a name in the innermost scope. -/
def insert (scopes : Scopes α) (name : String) (value : α) : Scopes α :=
  { scopes with current := scopes.current.insert name value }

/-- All scopes, from the inside out. -/
def all (scopes : Scopes α) : List (Scope α) := scopes.current :: scopes.outer

/-- What a name stands for: its binding in the innermost scope that binds it. -/
def lookup? (scopes : Scopes α) (name : String) : Option α :=
  scopes.all.findSome? fun scope => scope.lookup name

/-- Whether the innermost scope binds a name. -/
def bindsHere (scopes : Scopes α) (name : String) : Bool :=
  (scopes.current.lookup name).isSome

/-- Number of scopes around the innermost one. -/
def depth (scopes : Scopes α) : Nat := scopes.outer.length

/-- All bound names, each once, from the outside in and in order of binding. -/
def visibleNames (scopes : Scopes α) : List String :=
  (scopes.all.reverse.flatMap fun scope => scope.map Prod.fst).eraseDups

end Scopes

end Shading
