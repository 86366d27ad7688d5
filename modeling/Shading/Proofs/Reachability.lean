import Shading.Optimization.Unreachable

/-!
# Unreachable statements never run

Statements run one after the other, also in inner blocks, until a `return` is reached. Dropping what
stands behind a `return` in the same block leaves every run as it is. In what is left a `return` can
only end its block, and each block is a prefix of the block that it was.
-/

namespace Shading

open List

namespace Statement

variable {Expression Ascription : Type}

/-- The statements that run, and whether a `return` ended it. -/
structure Run (Expression Ascription : Type) where
  executed : List (Statement Expression Ascription)
  returned : Bool

/-- The run with `next` behind it, unless it has returned. -/
def Run.andThen (run next : Run Expression Ascription) : Run Expression Ascription :=
  if run.returned then run else ⟨run.executed ++ next.executed, next.returned⟩

mutual

/-- What runs of a statement. -/
def run : Statement Expression Ascription → Run Expression Ascription
  | .block statements _ _ _ => runAll statements
  | .returning value span => ⟨[.returning value span], true⟩
  | .letBinding name ascription value span => ⟨[.letBinding name ascription value span], false⟩
  | .varBinding name ascription value span => ⟨[.varBinding name ascription value span], false⟩
  | .assignment target value span => ⟨[.assignment target value span], false⟩
  | .evaluation value span => ⟨[.evaluation value span], false⟩

/-- What runs of statements in order. -/
def runAll : List (Statement Expression Ascription) → Run Expression Ascription
  | [] => ⟨[], false⟩
  | first :: rest => first.run.andThen (runAll rest)

end

/-- A `return` ends the run, whatever stands behind it. -/
theorem andThen_of_isReturn {statement : Statement Expression Ascription}
    (ends : statement.isReturn) (next : Run Expression Ascription) :
    statement.run.andThen next = statement.run := by
  cases statement with
  | returning value span => rfl
  | letBinding | varBinding | assignment | evaluation | block => cases ends

/-- Pruning makes no `return` and changes none. -/
theorem isReturn_pruned (statement : Statement Expression Ascription) :
    statement.pruned.isReturn = statement.isReturn := by
  cases statement <;> rfl

mutual

/-- A pruned statement runs as before. -/
theorem run_pruned : (statement : Statement Expression Ascription) →
    statement.pruned.run = statement.run
  | .block statements _ _ _ => runAll_prunedAll statements
  | .letBinding .. | .varBinding .. | .assignment .. | .returning .. | .evaluation .. => rfl

/-- Pruned statements run as before. -/
theorem runAll_prunedAll : (statements : List (Statement Expression Ascription)) →
    runAll (prunedAll statements) = runAll statements
  | [] => rfl
  | first :: rest => by
    have same := run_pruned first
    by_cases ends : first.isReturn
    · have prunedEnds : first.pruned.isReturn := by rw [isReturn_pruned, ends]
      calc
        runAll (prunedAll (first :: rest)) = first.pruned.run := by
          rw [prunedAll, if_pos ends, runAll, andThen_of_isReturn prunedEnds]
        _ = first.run := same
        _ = runAll (first :: rest) := by rw [runAll, andThen_of_isReturn ends]
    · calc
        runAll (prunedAll (first :: rest)) =
            first.pruned.run.andThen (runAll (prunedAll rest)) := by
          rw [prunedAll, if_neg ends, runAll]
        _ = runAll (first :: rest) := by rw [same, runAll_prunedAll rest, runAll]

end

mutual

/-- The blocks in a statement, as their statements. -/
def blocks : Statement Expression Ascription → List (List (Statement Expression Ascription))
  | .block statements _ _ _ => statements :: blocksIn statements
  | _ => []

/-- The blocks in statements. -/
def blocksIn : List (Statement Expression Ascription) → List (List (Statement Expression Ascription))
  | [] => []
  | first :: rest => first.blocks ++ blocksIn rest

end

/-- No statement but the last is a `return`. -/
def ReturnsLast (statements : List (Statement Expression Ascription)) : Prop :=
  ∀ statement ∈ statements.dropLast, statement.isReturn = false

/-- Of pruned statements only the last can be a `return`. -/
theorem returnsLast_prunedAll (statements : List (Statement Expression Ascription)) :
    ReturnsLast (prunedAll statements) := by
  induction statements with
  | nil => exact nofun
  | cons first rest ih =>
    by_cases ends : first.isReturn
    · rw [prunedAll, if_pos ends]
      exact nofun
    · rw [prunedAll, if_neg ends]
      intro statement member
      cases left : prunedAll rest with
      | nil =>
        rw [left] at member
        cases member
      | cons second others =>
        rw [left, dropLast_cons_cons, mem_cons] at member
        rcases member with rfl | later
        · rw [isReturn_pruned]
          exact Bool.eq_false_iff.mpr ends
        · rw [← left] at later
          exact ih statement later

mutual

/-- In pruned blocks only the last statement can be a `return`. -/
theorem returnsLast_blocks : (statement : Statement Expression Ascription) →
    ∀ block ∈ statement.pruned.blocks, ReturnsLast block
  | .block statements _ _ _ => by
    intro block member
    rw [pruned, blocks, mem_cons] at member
    rcases member with rfl | inner
    · exact returnsLast_prunedAll statements
    · exact returnsLast_blocksIn statements block inner
  | .letBinding .. | .varBinding .. | .assignment .. | .returning .. | .evaluation .. => nofun

/-- In pruned statements only the last of a block can be a `return`. -/
theorem returnsLast_blocksIn : (statements : List (Statement Expression Ascription)) →
    ∀ block ∈ blocksIn (prunedAll statements), ReturnsLast block
  | [] => nofun
  | first :: rest => by
    intro block member
    have here := returnsLast_blocks first block
    by_cases ends : first.isReturn
    · rw [prunedAll, if_pos ends, blocksIn, blocksIn, append_nil] at member
      exact here member
    · rw [prunedAll, if_neg ends, blocksIn, mem_append] at member
      rcases member with inFirst | inRest
      · exact here inFirst
      · exact returnsLast_blocksIn rest block inRest

end

mutual

/-- The statement is as it was, or a block that has been cut. -/
inductive CutTo : Statement Expression Ascription → Statement Expression Ascription → Prop where
  | letBinding (name : String) (ascription : Option Ascription) (value : Expression) (span : Span) :
      CutTo (.letBinding name ascription value span) (.letBinding name ascription value span)
  | varBinding (name : String) (ascription : Option Ascription) (value : Option Expression)
      (span : Span) :
      CutTo (.varBinding name ascription value span) (.varBinding name ascription value span)
  | assignment (target value : Expression) (span : Span) :
      CutTo (.assignment target value span) (.assignment target value span)
  | returning (value : Option Expression) (span : Span) :
      CutTo (.returning value span) (.returning value span)
  | evaluation (value : Expression) (span : Span) :
      CutTo (.evaluation value span) (.evaluation value span)
  | block (statements kept : List (Statement Expression Ascription)) (opening closing span : Span)
      (cut : AllCutTo statements kept) :
      CutTo (.block statements opening closing span) (.block kept opening closing span)

/-- The first statements are kept, cut inside; only behind a `return` some may be missing. -/
inductive AllCutTo : List (Statement Expression Ascription) →
    List (Statement Expression Ascription) → Prop where
  | nil : AllCutTo [] []
  | cons {first kept : Statement Expression Ascription}
      {rest keptRest : List (Statement Expression Ascription)}
      (here : CutTo first kept) (later : AllCutTo rest keptRest) :
      AllCutTo (first :: rest) (kept :: keptRest)
  | stop {first kept : Statement Expression Ascription}
      (rest : List (Statement Expression Ascription))
      (here : CutTo first kept) (ends : first.isReturn) :
      AllCutTo (first :: rest) [kept]

end

mutual

/-- Pruning cuts a statement. -/
theorem cutTo_pruned : (statement : Statement Expression Ascription) →
    CutTo statement statement.pruned
  | .block statements _ _ _ => .block _ _ _ _ _ (allCutTo_prunedAll statements)
  | .letBinding .. => .letBinding ..
  | .varBinding .. => .varBinding ..
  | .assignment .. => .assignment ..
  | .returning .. => .returning ..
  | .evaluation .. => .evaluation ..

/-- Pruning cuts statements. -/
theorem allCutTo_prunedAll : (statements : List (Statement Expression Ascription)) →
    AllCutTo statements (prunedAll statements)
  | [] => .nil
  | first :: rest => by
    have here := cutTo_pruned first
    by_cases ends : first.isReturn
    · rw [prunedAll, if_pos ends]
      exact .stop rest here ends
    · rw [prunedAll, if_neg ends]
      exact .cons here (allCutTo_prunedAll rest)

end

end Statement

namespace Typed

open Statement (ReturnsLast AllCutTo runAll blocksIn)

/-- A body that runs the same and holds nothing behind a `return`. -/
structure PrunedTo (function pruned : Function Expr DeclaredType) : Prop where
  /-- Nothing but the statements of the body has changed. -/
  frame : pruned =
    { function with body := { function.body with statements := pruned.body.statements } }
  run : runAll pruned.body.statements = runAll function.body.statements
  returnsLast : ∀ block ∈ pruned.body.statements :: blocksIn pruned.body.statements, ReturnsLast block
  cut : AllCutTo function.body.statements pruned.body.statements

/-- A function is pruned by pruning its body. -/
theorem prunedTo_prunedAll (function : Function Expr DeclaredType) :
    PrunedTo function
      { function with
        body := { function.body with statements := Statement.prunedAll function.body.statements } } where
  frame := rfl
  run := Statement.runAll_prunedAll _
  returnsLast := by
    intro block member
    rcases mem_cons.mp member with rfl | inner
    · exact Statement.returnsLast_prunedAll _
    · exact Statement.returnsLast_blocksIn _ block inner
  cut := Statement.allCutTo_prunedAll _

/-- Dropping unreachable statements changes only bodies. Every body runs as before, a `return` can
only stand last in its block, and every block keeps its first statements, with nothing missing but
what stood behind a `return`. -/
theorem dropUnreachable_keeps_runs (program : Program) :
    program.dropUnreachable = { program with functions := program.dropUnreachable.functions } ∧
      program.functions.length = program.dropUnreachable.functions.length ∧
      ∀ pair ∈ program.functions.zip program.dropUnreachable.functions, PrunedTo pair.1 pair.2 := by
  refine ⟨rfl, (length_map ..).symm, ?_⟩
  intro pair member
  rw [Program.dropUnreachable, Program.mapBodies, ← map_prod_left_eq_zip] at member
  obtain ⟨function, _, same⟩ := mem_map.mp member
  rw [← same]
  exact prunedTo_prunedAll function

end Typed

end Shading
