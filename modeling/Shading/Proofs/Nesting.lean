import Shading.Proofs.DerivedPrograms
import Shading.Proofs.ExpressionReading

/-!
# How deep expressions nest

The readers count the levels of nesting from the start of a chain: what is already read to the left of
an operator or in front of an access is not counted again. So a deep operand can stand at the start of a
long chain, and that chain in the parentheses of a call at the start of the next: what is read with an
allowance of `n` has at most `(n + 1) ^ 2` levels, and there is a text for which it has that many.
-/

namespace Shading

open List

namespace Surface

mutual

/-- How many levels an expression has; literals and names have none. -/
def Expr.levels : Expr → Nat
  | .number _ _ => 0
  | .bool _ _ => 0
  | .identifier _ _ => 0
  | .binary _ left right _ => max left.levels right.levels + 1
  | .unary _ operand _ => operand.levels + 1
  | .call _ _ arguments _ => Expr.mostLevels arguments + 1
  | .member base _ _ => base.levels + 1
  | .index base position _ => max base.levels position.levels + 1

/-- How many levels the deepest of some expressions has. -/
def Expr.mostLevels : List Expr → Nat
  | [] => 0
  | first :: rest => max first.levels (Expr.mostLevels rest)

end

mutual

/-- How many may not be counted: those left of an operator or before an access, and that of an empty
call. -/
def Expr.overhang : Expr → Nat
  | .number _ _ => 0
  | .bool _ _ => 0
  | .identifier _ _ => 0
  | .binary _ left right _ => max left.levels right.overhang
  | .unary _ operand _ => operand.overhang
  | .call _ _ arguments _ => if arguments.isEmpty then 1 else Expr.mostOverhang arguments
  | .member base _ _ => base.levels
  | .index base position _ => max base.levels position.overhang

/-- The greatest overhang of some expressions. -/
def Expr.mostOverhang : List Expr → Nat
  | [] => 0
  | first :: rest => max first.overhang (Expr.mostOverhang rest)

end

mutual

/-- Joined operands have no more, up to their overhang. -/
theorem JoinedTokens.levels_le_overhang {allowance least : Nat} {tokens : Tokens}
    {whole : Expr} :
    JoinedTokens allowance least tokens whole → whole.levels ≤ allowance + whole.overhang
  | .mk first rest => by
    rcases rest.levels_le_overhang with same | bound
    · rw [same]
      exact first.levels_le_overhang
    · exact bound

/-- A chain is its left operand, or counted but for the left of its last operator. -/
theorem ChainTokens.levels_le_overhang {allowance least : Nat} {left : Expr}
    {tokens : Tokens} {whole : Expr} : ChainTokens allowance least left tokens whole →
      whole = left ∨ whole.levels ≤ allowance + whole.overhang
  | .nil _ _ _ => .inl rfl
  | .cons _ _ second _ rest => by
    right
    have rightBound := second.levels_le_overhang
    rcases rest.levels_le_overhang with same | bound
    · rw [same, Expr.levels, Expr.overhang]
      omega
    · omega

/-- Operands have no more, up to their overhang. -/
theorem OperandTokens.levels_le_overhang {allowance : Nat} {tokens : Tokens}
    {whole : Expr} : OperandTokens allowance tokens whole → whole.levels ≤ allowance + whole.overhang
  | .signed _ inner => by
    have innerBound := inner.levels_le_overhang
    rw [Expr.levels, Expr.overhang]
    omega
  | .accessed start rest => by
    rcases rest.levels_le_overhang with same | bound
    · rw [same]
      exact start.levels_le_overhang
    · exact bound

/-- Accesses are their base, or counted but for what precedes the last. -/
theorem AccessTokens.levels_le_overhang {allowance : Nat} {base : Expr} {tokens : Tokens}
    {whole : Expr} : AccessTokens allowance base tokens whole →
      whole = base ∨ whole.levels ≤ allowance + whole.overhang
  | .nil _ _ => .inl rfl
  | .member _ _ _ rest => by
    right
    rcases rest.levels_le_overhang with same | bound
    · rw [same, Expr.levels, Expr.overhang]
      omega
    · omega
  | .index _ _ within rest => by
    right
    have innerBound := within.levels_le_overhang
    rcases rest.levels_le_overhang with same | bound
    · rw [same, Expr.levels, Expr.overhang]
      omega
    · omega

/-- Primaries have no more, up to their overhang. -/
theorem PrimaryTokens.levels_le_overhang {allowance : Nat} {tokens : Tokens}
    {whole : Expr} : PrimaryTokens allowance tokens whole → whole.levels ≤ allowance + whole.overhang
  | .number .. | .yes .. | .no .. | .identifier .. => Nat.zero_le _
  | .parenthesized _ _ within => by
    have innerBound := within.levels_le_overhang
    omega
  | .call _ _ _ _ listed | .construction _ _ _ _ _ _ _ listed => listed.mostLevels_lt_overhang

/-- Arguments have no more, up to their overhang. -/
theorem ArgumentsTokens.mostLevels_lt_overhang {allowance : Nat} {tokens : Tokens}
    {arguments : List Expr} : ArgumentsTokens allowance tokens arguments →
      Expr.mostLevels arguments <
        allowance + if arguments.isEmpty then 1 else Expr.mostOverhang arguments
  | .nil _ => Nat.succ_pos _
  | .last one => by
    have bound := one.levels_le_overhang
    rw [isEmpty_cons, if_neg Bool.false_ne_true]
    simp only [Expr.mostLevels, Expr.mostOverhang]
    omega
  | .cons _ one rest => by
    have bound := one.levels_le_overhang
    have restBound := rest.mostLevels_lt_overhang
    rw [isEmpty_cons, if_neg Bool.false_ne_true]
    simp only [Expr.mostLevels, Expr.mostOverhang]
    split at restBound
    · rename_i none
      rw [isEmpty_iff.mp none, Expr.mostLevels, Expr.mostOverhang]
      omega
    · omega

end

/-- The next square is larger by an odd number. -/
theorem square_succ (number : Nat) : (number + 1) * (number + 1) = number * number + 2 * number + 1 := by
  rw [Nat.add_mul, Nat.mul_add]
  omega

mutual

/-- Joined operands have at most a square of levels. -/
theorem JoinedTokens.levels_le {allowance least : Nat} {tokens : Tokens} {whole : Expr} :
    JoinedTokens allowance least tokens whole → whole.levels ≤ (allowance + 1) * (allowance + 1)
  | .mk first rest => by
    have firstBound := first.levels_le
    have restBound := rest.levels_le
    rw [square_succ]
    omega

/-- Each operator adds one level to its left. -/
theorem ChainTokens.levels_le {allowance least : Nat} {left : Expr} {tokens : Tokens}
    {whole : Expr} : ChainTokens allowance least left tokens whole →
      whole.levels ≤ max left.levels (allowance * allowance) + allowance
  | .nil _ _ _ => Nat.le_add_right_of_le (Nat.le_max_left ..)
  | .cons _ _ second _ rest => by
    have rightBound := second.levels_le
    have restBound := rest.levels_le
    rw [Expr.levels] at restBound
    rw [square_succ] at rightBound ⊢
    omega

/-- Operands have at most a square of levels. -/
theorem OperandTokens.levels_le {allowance : Nat} {tokens : Tokens} {whole : Expr} :
    OperandTokens allowance tokens whole → whole.levels ≤ allowance * allowance + allowance + 1
  | .signed _ inner => by
    have innerBound := inner.levels_le
    rw [Expr.levels, square_succ]
    omega
  | .accessed start rest => by
    have startBound := start.levels_le
    have restBound := rest.levels_le
    omega

/-- Each access adds one level to its base. -/
theorem AccessTokens.levels_le {allowance : Nat} {base : Expr} {tokens : Tokens}
    {whole : Expr} : AccessTokens allowance base tokens whole →
      whole.levels ≤ max base.levels (allowance * allowance) + allowance
  | .nil _ _ => Nat.le_add_right_of_le (Nat.le_max_left ..)
  | .member _ _ _ rest => by
    have restBound := rest.levels_le
    rw [Expr.levels] at restBound
    rw [square_succ]
    omega
  | .index _ _ within rest => by
    have innerBound := within.levels_le
    have restBound := rest.levels_le
    rw [Expr.levels] at restBound
    rw [square_succ] at innerBound ⊢
    omega

/-- Primaries have at most a square of levels. -/
theorem PrimaryTokens.levels_le {allowance : Nat} {tokens : Tokens} {whole : Expr} :
    PrimaryTokens allowance tokens whole → whole.levels ≤ allowance * allowance + 1
  | .number .. | .yes .. | .no .. | .identifier .. => Nat.zero_le _
  | .parenthesized _ _ within => Nat.le_succ_of_le within.levels_le
  | .call _ _ _ _ listed | .construction _ _ _ _ _ _ _ listed => Nat.succ_le_succ listed.mostLevels_le

/-- Arguments have at most a square of levels. -/
theorem ArgumentsTokens.mostLevels_le {allowance : Nat} {tokens : Tokens}
    {arguments : List Expr} :
    ArgumentsTokens allowance tokens arguments → Expr.mostLevels arguments ≤ allowance * allowance
  | .nil _ => Nat.zero_le _
  | .last one => Nat.max_le.mpr ⟨one.levels_le, Nat.zero_le _⟩
  | .cons _ one rest => Nat.max_le.mpr ⟨one.levels_le, rest.mostLevels_le⟩

end

mutual

/-- The expressions of a statement are made of its tokens. -/
theorem StatementTokens.joined {allowance : Nat} {tokens : Tokens} {statement : Stmt} :
    StatementTokens allowance tokens statement → ∀ value ∈ statement.expressions,
      ∃ smaller ≤ allowance, ∃ inner, JoinedTokens smaller 1 inner value
  | .letBinding _ _ _ _ _ _ made | .returning _ _ made | .evaluation _ made =>
    forall_mem_singleton.mpr ⟨_, Nat.le_refl _, _, made⟩
  | .varBinding _ _ _ _ _ made => by
    cases made with
    | none => exact forall_mem_nil _
    | some _ initial => exact forall_mem_singleton.mpr ⟨_, Nat.le_refl _, _, initial⟩
  | .assignment _ _ changed made => forall_mem_cons.mpr ⟨⟨_, Nat.le_refl _, _, changed⟩,
      forall_mem_singleton.mpr ⟨_, Nat.le_refl _, _, made⟩⟩
  | .leaving _ _ _ => forall_mem_nil _
  | .block _ _ inner => by
    intro value held
    obtain ⟨smaller, within, joined⟩ := inner.joined value held
    exact ⟨smaller, Nat.le_succ_of_le within, joined⟩

/-- The expressions of statements are made of their tokens. -/
theorem StatementsTokens.joined {allowance : Nat} {tokens : Tokens}
    {statements : List Stmt} : StatementsTokens allowance tokens statements →
      ∀ value ∈ Statement.allExpressions statements,
        ∃ smaller ≤ allowance, ∃ inner, JoinedTokens smaller 1 inner value
  | .nil _ => forall_mem_nil _
  | .cons first rest => forall_mem_append.mpr ⟨first.joined, rest.joined⟩

end

/-- Bodies are made of the tokens of the program. -/
theorem ProgramTokens.body {tokens : Tokens} {program : Program}
    (made : ProgramTokens tokens program) : ∀ function ∈ functions program,
      ∃ inner, StatementsTokens nestingLimit inner function.body.statements := by
  induction made with
  | nil => exact nofun
  | pass _ _ ih => exact ih
  | cons first _ ih =>
    cases first with
    | function _ declared inner => exact forall_mem_cons.mpr ⟨⟨_, inner⟩, ih⟩
    | struct | uniform => exact ih

mutual

/-- Places do not count as levels. -/
theorem Expr.levels_unplaced : (expression : Expr) → expression.unplaced.levels = expression.levels
  | .number _ _ | .bool _ _ | .identifier _ _ => rfl
  | .binary _ left right _ | .index left right _ => by
    rw [unplaced, levels, levels, left.levels_unplaced, right.levels_unplaced]
  | .unary _ operand _ | .member operand _ _ => by
    rw [unplaced, levels, levels, operand.levels_unplaced]
  | .call _ _ arguments _ => by rw [unplaced, levels, levels, Expr.mostLevels_unplaced arguments]

/-- Places do not matter for levels. -/
theorem Expr.mostLevels_unplaced : (expressions : List Expr) →
    Expr.mostLevels (Expr.allUnplaced expressions) = Expr.mostLevels expressions
  | [] => rfl
  | first :: rest => by
    rw [allUnplaced, mostLevels, mostLevels, first.levels_unplaced, Expr.mostLevels_unplaced rest]

end

end Surface

namespace Typed.Expr

/-- A sum of a first operand and `count` variables. -/
def summed (first : Expr) : (count : Nat) → Expr
  | 0 => first
  | count + 1 => .binary .add (summed first count) (.identifier "x" none .none) none .none

/-- A chain of `count` accesses to members of a base. -/
def accessed (base : Expr) : (count : Nat) → Expr
  | 0 => base
  | count + 1 => .member (accessed base count) "x" .swizzle none .none

/-- A call of a longest sum of a longest chain of accesses to such a call. -/
def tower : (allowance : Nat) → Expr
  | 0 => .call (.user "f") [] none .none
  | allowance + 1 =>
    summed (accessed (.call (.user "f") [tower allowance] none .none) (allowance + 1)) (allowance + 1)

section Chains

variable (base : Expr)

/-- A sum adds its operators. -/
theorem levels_reread_summed (count : Nat) :
    (summed base count).reread.levels = base.reread.levels + count := by
  induction count with
  | zero => rfl
  | succ count ih =>
    rw [summed, reread, Surface.Expr.levels, ih, reread, Surface.Expr.levels]
    omega

/-- Accesses add their number. -/
theorem levels_reread_accessed (count : Nat) :
    (accessed base count).reread.levels = base.reread.levels + count := by
  induction count with
  | zero => rfl
  | succ count ih =>
    rw [accessed, reread, Surface.Expr.levels, ih, Nat.add_assoc]

/-- Accesses are no operations. -/
theorem isCompound_accessed (single : base.isCompound = false) (count : Nat) :
    (accessed base count).isCompound = false := by
  cases count with
  | zero => exact single
  | succ => rfl

/-- Accesses make a chain. -/
theorem chain_accessed (single : base.isCompound = false) (bare : base.chain = 0) (count : Nat) :
    (accessed base count).chain = count := by
  induction count with
  | zero => exact bare
  | succ count ih =>
    rw [accessed, chain, isCompound_accessed base single, ih]
    rfl

/-- Accesses need no more levels than the longer of both. -/
theorem levels_accessed (single : base.isCompound = false) (bare : base.chain = 0) (count : Nat) :
    (accessed base count).levels = max base.levels count := by
  induction count with
  | zero => exact (Nat.max_zero _).symm
  | succ count ih =>
    rw [accessed, levels, isCompound_accessed base single, ih, chain_accessed base single bare]
    simp only [enclosedLevels, Bool.false_eq_true, if_false]
    omega

/-- A sum stands bare before another. -/
theorem standsBare_summed (bare : base.standsBare .add false = true) (count : Nat) :
    (summed base count).standsBare .add false = true := by
  cases count with
  | zero => exact bare
  | succ => rfl

/-- A sum has its operators in a row. -/
theorem spine_summed (bare : base.standsBare .add false = true) (single : base.spine = 0)
    (count : Nat) : (summed base count).spine = count := by
  induction count with
  | zero => exact single
  | succ count ih =>
    rw [summed, spine, standsBare_summed base bare, ih]
    rfl

/-- A sum needs no more levels than its first operand or operators. -/
theorem levels_summed (bare : base.standsBare .add false = true) (single : base.spine = 0)
    (count : Nat) : (summed base count).levels = max base.levels count := by
  induction count with
  | zero => exact (Nat.max_zero _).symm
  | succ count ih =>
    rw [summed, levels, standsBare_summed base bare, ih, spine_summed base bare single]
    simp only [enclosedLevels, standsBare, levels, Bool.not_true, Bool.false_eq_true, if_false,
      if_true]
    omega

/-- Sums are legible. -/
theorem allLegible_summed (legible : base.AllLegible) (count : Nat) :
    (summed base count).AllLegible := by
  induction count with
  | zero => exact legible
  | succ count ih =>
    intro node member
    simp only [summed, nodes, mem_cons, mem_append, not_mem_nil, or_false] at member
    rcases member with same | inside | right
    · rw [same]
      trivial
    · exact ih node inside
    · rw [right]
      exact ⟨by decide, by decide⟩

/-- Accesses are legible. -/
theorem allLegible_accessed (legible : base.AllLegible) (plain : base.isSigned = false) (count : Nat) :
    (accessed base count).AllLegible := by
  have unsigned (count : Nat) : (accessed base count).isSigned = false := by
    cases count with
    | zero => exact plain
    | succ => rfl
  induction count with
  | zero => exact legible
  | succ count ih =>
    intro node member
    rcases mem_cons.mp member with same | inside
    · rw [same]
      exact ⟨by decide, fun sign => absurd ((unsigned count).symm.trans sign) nofun⟩
    · exact ih node inside

end Chains

/-- A tower needs the levels that are left. -/
theorem levels_tower (allowance : Nat) : (tower allowance).levels = allowance := by
  induction allowance with
  | zero => rfl
  | succ allowance ih =>
    rw [tower, levels_summed _ rfl rfl, levels_accessed _ rfl rfl, levels, allLevels, allLevels,
      ih]
    simp only [Callee.written, WrittenType.depth, TypeArgument.depths]
    omega

/-- A tower has the greatest number of levels. -/
theorem levels_reread_tower (allowance : Nat) :
    (tower allowance).reread.levels = (allowance + 1) * (allowance + 1) := by
  induction allowance with
  | zero => rfl
  | succ allowance ih =>
    rw [tower, levels_reread_summed, levels_reread_accessed, reread, Surface.Expr.levels, allReread,
      allReread, Surface.Expr.mostLevels, Surface.Expr.mostLevels, ih,
      Surface.square_succ (allowance + 1)]
    omega

/-- Towers are legible. -/
theorem allLegible_tower (allowance : Nat) : (tower allowance).AllLegible := by
  have name : Lexer.IsName "f" := by decide
  induction allowance with
  | zero =>
    intro node member
    rw [mem_singleton.mp member]
    exact name
  | succ allowance ih =>
    refine allLegible_summed _ (allLegible_accessed _ ?_ rfl _) _
    intro node member
    simp only [nodes, allNodes, append_nil, mem_cons] at member
    rcases member with same | inside
    · rw [same]
      exact name
    · exact ih node inside

end Typed.Expr

namespace Surface

/-- An expression has no more levels than the limit, but for its overhang, and never more than the
square of one more than the limit, which is reached. -/
theorem greatest_levels (source : SourceText) :
    (∀ function ∈ functions (read source).1,
      ∀ value ∈ Statement.allExpressions function.body.statements,
        value.levels ≤ nestingLimit + value.overhang ∧
          value.levels ≤ (nestingLimit + 1) * (nestingLimit + 1)) ∧
    ∃ deepest tree after, (tokenize deepest).diagnostics = [] ∧
      expression nestingLimit (cursorAt deepest) = .ok (tree, after) ∧ after.atEnd ∧
      tree.levels = (nestingLimit + 1) * (nestingLimit + 1) := by
  constructor
  · intro function declared value held
    obtain ⟨tokens, made⟩ := (read_takes source).body function declared
    obtain ⟨smaller, within, inner, joined⟩ := made.joined value held
    have squares : (smaller + 1) * (smaller + 1) ≤ (nestingLimit + 1) * (nestingLimit + 1) :=
      Nat.mul_le_mul (Nat.succ_le_succ within) (Nat.succ_le_succ within)
    have counted := joined.levels_le_overhang
    exact ⟨by omega, Nat.le_trans joined.levels_le squares⟩
  · obtain ⟨divided, tree, after, read, whole, same⟩ :=
      Typed.Expr.text_read (Typed.Expr.allLegible_tower nestingLimit)
        (Nat.le_of_eq (Typed.Expr.levels_tower nestingLimit)) "tower"
    refine ⟨_, tree, after, divided, read, whole, ?_⟩
    rw [← tree.levels_unplaced, same]
    exact Typed.Expr.levels_reread_tower nestingLimit

/-- The bounds hold without overhang and of accesses to a call. -/
theorem greatest_levels_of_call :
    let source : SourceText := ⟨"call.shade", "fn f() \x7b g(-a.x + b).y[-1] = a * -(b - h(c)); \x7d"⟩
    ∃ function ∈ functions (read source).1,
      (∃ value ∈ Statement.allExpressions function.body.statements,
        value.levels = 6 ∧ value.overhang = 5 ∧
          value.levels ≤ (nestingLimit + 1) * (nestingLimit + 1)) ∧
      ∃ value ∈ Statement.allExpressions function.body.statements,
        value.levels = 4 ∧ value.overhang = 0 ∧ value.levels ≤ nestingLimit + value.overhang := by
  intro source
  have deep : ∃ function ∈ functions (read source).1,
      (∃ value ∈ Statement.allExpressions function.body.statements,
        value.levels = 6 ∧ value.overhang = 5) ∧
      ∃ value ∈ Statement.allExpressions function.body.statements,
        value.levels = 4 ∧ value.overhang = 0 := by
    decide +kernel
  obtain ⟨function, declared, ⟨target, targetHeld, targetLevels, targetOverhang⟩,
    value, held, levels, overhang⟩ := deep
  have bounds := (greatest_levels source).1 function declared
  exact ⟨function, declared,
    ⟨target, targetHeld, targetLevels, targetOverhang, (bounds target targetHeld).2⟩,
    ⟨value, held, levels, overhang, (bounds value held).1⟩⟩

/-- A sum of 66 variables, the first behind 64 minus signs. -/
def signedSum : SourceText :=
  ⟨"sum.shade", "fn sum(v: f32) \x7b " ++ String.ofList (List.replicate 64 '-') ++ "v" ++
    String.join (List.replicate 65 " + v") ++ "; \x7d"⟩

/-- The text of that function. -/
theorem characters_signedSum : signedSum.characters =
    "fn sum(v: f32) \x7b ".toList ++ List.replicate 64 '-' ++ ['v'] ++
      (List.replicate 65 [' ', '+', ' ', 'v']).flatten ++ [';', ' ', '\x7d'] := by
  unfold signedSum SourceText.characters
  simp only [String.toList_append, String.toList_ofList, String.toList_join]
  rfl

/-- Signs and operators are counted apart: a sum deeper than the limit is read without a report. -/
theorem sum_nests_deeper_than_limit :
    (read signedSum).2 = [] ∧ ∃ function ∈ functions (read signedSum).1,
      ∃ value ∈ Statement.allExpressions function.body.statements,
        value.levels = nestingLimit + 1 := by
  -- The characters are given one by one, since to decode them from the bytes of a long text is slow.
  unfold read tokenize
  rw [characters_signedSum]
  decide +kernel

end Surface

end Shading
