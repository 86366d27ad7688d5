import Shading.Proofs.Elaborations
import Shading.Proofs.Layouts

/-!
# Places in typed expressions

Typing keeps every node of an expression where it stands. So all that is said about an expression is
said at one of its nodes, or at the name of a function that it calls.
-/

namespace Shading

open List

/-- All nodes of a typed expression stand in the text. -/
def SourceText.HoldsNodes (source : SourceText) (expression : Typed.Expr) : Prop :=
  ∀ node ∈ expression.nodes, source.Holds node.span

section Nodes

open Typed (Expr)

variable {source : SourceText} {expression : Expr}

/-- The text holds a node and those of its parts. -/
theorem holdsNodes_iff : source.HoldsNodes expression ↔
    source.Holds expression.span ∧ ∀ part ∈ expression.parts, source.HoldsNodes part :=
  Expr.forall_nodes

/-- It holds the node itself. -/
theorem SourceText.HoldsNodes.held (holds : source.HoldsNodes expression) :
    source.Holds expression.span :=
  (holdsNodes_iff.mp holds).1

/-- Retyping keeps places. -/
theorem holdsNodes_retype (target : Scalar) : (expression : Expr) →
    source.HoldsNodes expression → source.HoldsNodes (expression.retype target)
  | .number .., holds => holdsNodes_iff.mpr ⟨holds.held, nofun⟩
  | .unary _ operand _ _, holds => by
    have inner := (holdsNodes_iff.mp holds).2 operand (mem_singleton_self operand)
    exact holdsNodes_iff.mpr ⟨holds.held,
      forall_mem_singleton.mpr (holdsNodes_retype target operand inner)⟩
  | .bool .., holds | .identifier .., holds | .binary .., holds | .call .., holds
  | .member .., holds | .index .., holds => holds

/-- Coercion keeps places. -/
theorem holdsNodes_coerce (target : Scalar) (holds : source.HoldsNodes expression) :
    source.HoldsNodes (expression.coerce target) := by
  unfold Expr.coerce
  split
  · exact holds
  · split
    · split
      · exact holdsNodes_retype _ _ holds
      · exact holds
    · exact holds

end Nodes

namespace Typing

open Typed (Callee Expr)

/-- Where an issue is told: for a function, at its name. -/
def Issue.place : Issue → Span
  | .unresolved _ span => span
  | .undefinedFunction name span => { span with length := name.utf8ByteSize }
  | .typing _ span => span

section Expressions

variable {source : SourceText} {context : Context}

/-- Complaints stand in the text. -/
theorem complaints_hold {span : Span} (held : source.Holds span)
    (verdict : Option (Except TypingError Ty)) :
    ∀ issue ∈ complaints verdict span, source.Holds issue.place := by
  intro issue told
  obtain ⟨error, rfl⟩ := complaints_typing issue told
  exact held

mutual

/-- What is said and what is typed stands in the text. -/
theorem Elaborates.placed {expression : Surface.Expr} {typed : Expr} {log : List Issue} :
    Elaborates context expression typed log → expression.layout.Sound source →
      (∀ issue ∈ log, source.Holds issue.place) ∧ source.HoldsNodes typed
  | .coerce made target, sound => by
    obtain ⟨told, holds⟩ := made.placed sound
    exact ⟨told, holdsNodes_coerce target holds⟩
  | .bool .., sound | .number .., sound | .bound .., sound =>
    ⟨forall_mem_nil _, holdsNodes_iff.mpr ⟨sound.held, forall_mem_nil _⟩⟩
  | .unbound .., sound =>
    ⟨forall_mem_singleton.mpr sound.held, holdsNodes_iff.mpr ⟨sound.held, forall_mem_nil _⟩⟩
  | .binary _ _ leftMade rightMade _, .node held _ each
  | .index _ leftMade rightMade _, .node held _ each => by
    obtain ⟨leftTold, leftHolds⟩ := leftMade.placed (each _ (by simp))
    obtain ⟨rightTold, rightHolds⟩ := rightMade.placed (each _ (by simp))
    refine ⟨?_, holdsNodes_iff.mpr ⟨held, by simpa [Expr.parts] using ⟨leftHolds, rightHolds⟩⟩⟩
    simp only [forall_mem_append]
    exact ⟨leftTold, rightTold, complaints_hold held _⟩
  | .unary _ _ made _, .node held _ each | .member _ _ made _ _, .node held _ each => by
    obtain ⟨told, holds⟩ := made.placed (each _ (by simp))
    exact ⟨forall_mem_append.mpr ⟨told, complaints_hold held _⟩,
      holdsNodes_iff.mpr ⟨held, forall_mem_singleton.mpr holds⟩⟩
  | .call span made called, .node held _ each => by
    obtain ⟨named, arguments⟩ := forall_mem_cons.mp each
    obtain ⟨told, holds⟩ := made.placed arguments
    refine ⟨?_, holdsNodes_iff.mpr ⟨held, holds⟩⟩
    simp only [forall_mem_append]
    refine ⟨fun issue before => ?_, told, fun issue after => ?_⟩
    · rcases called.before_at issue before with rfl | ⟨error, rfl⟩
      · exact named.held
      · exact held
    · obtain ⟨error, place, listed, rfl⟩ := called.after_typing issue after
      rcases mem_cons.mp listed with rfl | inside
      · exact held
      · obtain ⟨argument, member, rfl⟩ := mem_map.mp inside
        exact (holds argument member).held

/-- What is said and typed of lists stands in the text. -/
theorem ElaboratesAll.placed {expressions : List Surface.Expr} {typed : List Expr} {log : List Issue} :
    ElaboratesAll context expressions typed log →
      (∀ layout ∈ Surface.Expr.layouts expressions, layout.Sound source) →
        (∀ issue ∈ log, source.Holds issue.place) ∧ ∀ expression ∈ typed, source.HoldsNodes expression
  | .nil, _ => ⟨forall_mem_nil _, forall_mem_nil _⟩
  | .cons first rest, each => by
    obtain ⟨here, later⟩ := forall_mem_cons.mp each
    obtain ⟨told, holds⟩ := first.placed here
    obtain ⟨others, rest⟩ := rest.placed later
    exact ⟨forall_mem_append.mpr ⟨told, others⟩, forall_mem_cons.mpr ⟨holds, rest⟩⟩

end

end Expressions

end Typing

end Shading
