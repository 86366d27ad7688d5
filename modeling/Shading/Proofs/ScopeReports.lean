import Shading.Proofs.AnalysisReports
import Shading.Proofs.Elaborations

/-!
# Reports about names

Typing an expression calls exactly those of its names unbound that have no binding in the context, and
whatever else the analysis reports has other codes.
-/

namespace Shading

open List

namespace Typing

open Typed (Callee Expr)

/-- The name that an issue calls unbound and where it stands. -/
def Issue.unresolved? : Issue → Option (String × Span)
  | .unresolved name span => some (name, span)
  | .undefinedFunction .. | .typing .. => none

/-- The names that issues call unbound, with their places. -/
def unresolved (log : List Issue) : List (String × Span) := log.filterMap Issue.unresolved?

/-- Joined issues call both unbound. -/
@[simp] theorem unresolved_append (first second : List Issue) :
    unresolved (first ++ second) = unresolved first ++ unresolved second :=
  filterMap_append

/-- Complaints call nothing unbound. -/
@[simp] theorem unresolved_complaints (verdict : Option (Except TypingError Ty)) (span : Span) :
    unresolved (complaints verdict span) = [] := by
  refine filterMap_eq_nil_iff.mpr fun issue told => ?_
  obtain ⟨error, rfl⟩ := complaints_typing issue told
  rfl

/-- A call, but for its arguments, calls nothing unbound. -/
theorem Called.unresolved {context : Context} {name : String} {typeArguments : List TypeArgument}
    {arguments : List Expr} {span : Span} {callee : Callee} {type : Option Ty}
    {before after : List Issue}
    (called : Called context name typeArguments arguments span callee type before after) :
    unresolved before = [] ∧ unresolved after = [] := by
  refine ⟨filterMap_eq_nil_iff.mpr fun issue told => ?_,
    filterMap_eq_nil_iff.mpr fun issue told => ?_⟩
  · rcases called.before_at issue told with rfl | ⟨error, rfl⟩
    · rfl
    · rfl
  · obtain ⟨error, place, _, rfl⟩ := called.after_typing issue told
    rfl

/-- The names of a list that are not in scope. -/
def Context.unbound (context : Context) (names : List (String × Span)) : List (String × Span) :=
  names.filter fun entry => (context.lookup? entry.1).isNone

/-- Joined names are unbound one after the other. -/
@[simp] theorem Context.unbound_append (context : Context) (first second : List (String × Span)) :
    context.unbound (first ++ second) = context.unbound first ++ context.unbound second :=
  filter_append ..

mutual

/-- Typing calls those names unbound that are not in scope. -/
theorem Elaborates.unresolved {context : Context} {expression : Surface.Expr} {typed : Expr}
    {log : List Issue} : Elaborates context expression typed log →
      unresolved log = context.unbound expression.identifiers
  | .coerce made _ => made.unresolved
  | .bool .. | .number .. => rfl
  | .bound found span => by
    simp [Surface.Expr.identifiers, Context.unbound, found, Typing.unresolved]
  | .unbound missing span => by
    simp [Surface.Expr.identifiers, Context.unbound, missing, Typing.unresolved, Issue.unresolved?]
  | .binary _ _ leftMade rightMade _ | .index _ leftMade rightMade _ => by
    rw [unresolved_append, unresolved_append, unresolved_complaints, append_nil,
      leftMade.unresolved, rightMade.unresolved, ← Context.unbound_append]
    rfl
  | .unary _ _ made _ | .member _ _ made _ _ => by
    rw [unresolved_append, unresolved_complaints, append_nil, made.unresolved]
    rfl
  | .call span made called => by
    rw [unresolved_append, unresolved_append, called.unresolved.1, called.unresolved.2, append_nil,
      nil_append, made.unresolved]
    rfl

/-- Typing lists calls those names unbound that are not in scope. -/
theorem ElaboratesAll.unresolved {context : Context} {expressions : List Surface.Expr}
    {typed : List Expr} {log : List Issue} : ElaboratesAll context expressions typed log →
      unresolved log = context.unbound (Surface.Expr.allIdentifiers expressions)
  | .nil => rfl
  | .cons first rest => by
    rw [unresolved_append, first.unresolved, rest.unresolved, ← Context.unbound_append]
    rfl

end

end Typing

/-- Whether a report calls a name unbound. -/
def Diagnostic.isUnbound (report : Diagnostic) : Bool :=
  report.code = .undefinedVariable || report.code = .useBeforeDeclaration

/-- What a report says, but for wording and suggestions. -/
structure Outline where
  severity : Severity
  code : Code
  location : Option Span
  related : List (Option Span)
deriving DecidableEq

def Diagnostic.outline (report : Diagnostic) : Outline :=
  ⟨report.severity, report.code, report.location, report.related.map Related.location⟩

/-- What is to be said about an unbound name. -/
def Outline.unbound (span : Span) : (later : Option Span) → Outline
  | some declared => ⟨.error, .useBeforeDeclaration, some span, [some declared]⟩
  | none => ⟨.error, .undefinedVariable, some span, []⟩

/-- The reports about unbound names in outline, in order. -/
def unboundReports (log : List Diagnostic) : List Outline :=
  (log.filter Diagnostic.isUnbound).map Diagnostic.outline

/-- Joined reports call both unbound. -/
@[simp] theorem unboundReports_append (first second : List Diagnostic) :
    unboundReports (first ++ second) = unboundReports first ++ unboundReports second := by
  unfold unboundReports
  rw [filter_append, map_append]

/-- A report with another code calls no name unbound. -/
theorem Diagnostic.Among.isUnbound {codes : List Code} {report : Diagnostic}
    (among : report.Among codes fun _ => True)
    (other : ∀ code ∈ codes, code ≠ .undefinedVariable ∧ code ≠ .useBeforeDeclaration) :
    report.isUnbound = false := by
  obtain ⟨defined, before⟩ := other _ among.code
  simp [Diagnostic.isUnbound, defined, before]

/-- Reports with other codes call nothing unbound. -/
theorem AllAmong.unboundReports {codes : List Code} {log : List Diagnostic}
    (among : AllAmong codes (fun _ => True) log)
    (other : ∀ code ∈ codes, code ≠ .undefinedVariable ∧ code ≠ .useBeforeDeclaration) :
    unboundReports log = [] := by
  unfold Shading.unboundReports
  rw [filter_eq_nil_iff.mpr, map_nil]
  intro report member
  simp [(among report member).isUnbound other]

end Shading
