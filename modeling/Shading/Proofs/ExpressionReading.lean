import Shading.Proofs.ExpressionTexts

/-!
# Printed expressions are read back

The tokens of a printed expression are read as the tree that was printed: parentheses stand wherever the
reader would group differently. A negative literal is read as a minus sign in front of a literal. The
text may need no more levels of nesting than the reader has.
-/

namespace Shading

open Surface

open List Cursor

variable {least : Nat} {operator : BinaryOperator} {left right operand position : Expr}
  {name : String} {arguments : List Expr} {after middle : Cursor} {inside : List Token}
  {callee : Callee} {type : Option Ty}

namespace Surface.Expr

mutual

/-- The expression without the places it was read from. -/
def unplaced : Expr → Expr
  | .number literal _ => .number literal .none
  | .bool value _ => .bool value .none
  | .identifier name _ => .identifier name .none
  | .binary operator left right _ => .binary operator left.unplaced right.unplaced .none
  | .unary operator operand _ => .unary operator operand.unplaced .none
  | .call callee typeArguments arguments _ =>
    .call callee (TypeArgument.allUnplaced typeArguments) (allUnplaced arguments) .none
  | .member base name _ => .member base.unplaced name .none
  | .index base position _ => .index base.unplaced position.unplaced .none

/-- The expressions without the places they were read from. -/
def allUnplaced : List Expr → List Expr
  | [] => []
  | first :: rest => first.unplaced :: allUnplaced rest

end

/-- Lists are unplaced one by one. -/
theorem allUnplaced_eq (expressions : List Expr) :
    allUnplaced expressions = expressions.map unplaced := by
  induction expressions with
  | nil => rfl
  | cons first rest ih => rw [allUnplaced, ih, map_cons]

end Surface.Expr

namespace Typed

namespace Expr

mutual

/-- The tree that the text of an expression is read as. -/
def reread : Expr → Surface.Expr
  | .number literal type _ =>
    if literal.printsSign type then .unary .negate (.number (literal.reread type) .none) .none
    else .number (literal.reread type) .none
  | .bool value _ _ => .bool value .none
  | .identifier name _ _ => .identifier name .none
  | .binary operator left right _ _ => .binary operator left.reread right.reread .none
  | .unary operator operand _ _ => .unary operator operand.reread .none
  | .call callee arguments type _ =>
    .call (callee.written type).name (callee.written type).arguments (allReread arguments) .none
  | .member base name _ _ _ => .member base.reread name .none
  | .index base position _ _ => .index base.reread position.reread .none

/-- The trees that the texts of expressions are read as. -/
def allReread : List Expr → List Surface.Expr
  | [] => []
  | first :: rest => first.reread :: allReread rest

end

/-- Lists are reread one by one. -/
theorem allReread_eq (expressions : List Expr) :
    allReread expressions = expressions.map reread := by
  induction expressions with
  | nil => rfl
  | cons first rest ih => rw [allReread, ih, map_cons]

/-! ### Levels of nesting -/

/-- One level more for parentheses, where they are needed. -/
def enclosedLevels (needed : Bool) (levels : Nat) : Nat := if needed then levels + 1 else levels

/-- How many operators stand bare to the left of one another. -/
def spine : Expr → Nat
  | .binary operator left _ _ _ => (if left.standsBare operator false then left.spine else 0) + 1
  | _ => 0

/-- Number of accesses in a chain. -/
def chain : Expr → Nat
  | .member base _ _ _ _ => (if base.isCompound then 0 else base.chain) + 1
  | .index base _ _ _ => (if base.isCompound then 0 else base.chain) + 1
  | _ => 0

mutual

/-- How many levels of nesting the text needs: one for each bracket or sign around a part, and for
each operator or access in a chain. -/
def levels : Expr → Nat
  | .number literal type _ => if literal.printsSign type then 1 else 0
  | .bool _ _ _ => 0
  | .identifier _ _ _ => 0
  | .binary operator left right _ _ =>
    max (enclosedLevels (!left.standsBare operator false) left.levels)
      ((if left.standsBare operator false then left.spine else 0) + 1 +
        enclosedLevels (!right.standsBare operator true) right.levels)
  | .unary _ operand _ _ => enclosedLevels operand.isCompound operand.levels + 1
  | .call callee arguments type _ => max (callee.written type).depth (allLevels arguments)
  | .member base _ _ _ _ =>
    max (enclosedLevels base.isCompound base.levels)
      ((if base.isCompound then 0 else base.chain) + 1)
  | .index base position _ _ =>
    max (enclosedLevels base.isCompound base.levels)
      ((if base.isCompound then 0 else base.chain) + 1 + position.levels)

/-- How many levels arguments need in their parentheses. -/
def allLevels : List Expr → Nat
  | [] => 0
  | first :: rest => max (first.levels + 1) (allLevels rest)

end

/-- An argument needs less than all of them. -/
theorem levels_lt_allLevels {expressions : List Expr} {expression : Expr}
    (member : expression ∈ expressions) : expression.levels < allLevels expressions := by
  induction expressions with
  | nil => simp at member
  | cons first rest ih =>
    rw [allLevels]
    rcases mem_cons.mp member with rfl | later
    · exact Nat.le_max_left ..
    · exact Nat.lt_of_lt_of_le (ih later) (Nat.le_max_right ..)

end Expr

end Typed

namespace Surface

variable {allowance : Nat} {cursor : Cursor} {rest : List Token} {base : Expr}

/-- The readers for one level less, if there is one. -/
def below : (allowance : Nat) → Option Level
  | 0 => none
  | allowance + 1 => some (level allowance)

/-- Each level stands above the one below. -/
theorem level_eq (allowance : Nat) : level allowance = .above allowance (below allowance) := by
  cases allowance <;> rfl

/-- Where a level is left, a reader runs on it. -/
theorem nested_below {α : Type} (positive : 0 < allowance) (reader : Level → Reader α) :
    nested (below allowance) reader = reader (level (allowance - 1)) := by
  cases allowance with
  | zero => omega
  | succ less => rfl

/-- No access and no call follows. -/
def EndsOperand (token : Token) : Prop :=
  token ≠ .dot ∧ token ≠ .leftBracket ∧ token ≠ .leftParen

/-- The token is no operator tighter than `precedence`. -/
def Loose (precedence : Nat) (token : Token) : Prop :=
  ∀ operator, BinaryOperator.ofToken? token = some operator → operator.precedence ≤ precedence

/-- Operators end operands. -/
theorem endsOperand_operator (operator : BinaryOperator) : EndsOperand operator.token := by
  cases operator <;> exact ⟨nofun, nofun, nofun⟩

/-- An operator is not tighter than itself. -/
theorem loose_operator (operator : BinaryOperator) : Loose operator.precedence operator.token := by
  intro other known
  rw [BinaryOperator.ofToken?_token, Option.some.injEq] at known
  exact Nat.le_of_eq (congrArg BinaryOperator.precedence known.symm)

/-- No access is read where the operand ends. -/
theorem accessesFrom_ends (ahead : cursor.kinds = rest) (lower : Option Level) (base : Expr)
    (ends : EndsOperand (first rest)) : accessesFrom lower base cursor = .ok (base, cursor) := by
  rw [← peek_of_kinds ahead] at ends
  obtain ⟨noDot, noBracket, noParen⟩ := ends
  unfold accessesFrom
  split <;> simp_all

/-- No operator is read that binds less tight than asked for. -/
theorem binaryRest_ends (ahead : cursor.kinds = rest) (allowance : Nat) (left : Expr)
    (loose : ∀ operator, BinaryOperator.ofToken? (first rest) = some operator →
      operator.precedence < least) :
    (level allowance).binaryRest least left cursor = .ok (left, cursor) := by
  rw [← peek_of_kinds ahead] at loose
  rw [level_eq]
  simp only [Level.above, binaryRestFrom]
  split
  · rename_i operator known
    rw [if_neg (Nat.not_le_of_lt (loose operator known))]
  · rfl

/-- A tight operator is read with its right operand. -/
theorem binaryRest_operator (positive : 0 < allowance) (tight : least ≤ operator.precedence)
    (ahead : cursor.kinds = operator.token :: rest)
    (read : (level (allowance - 1)).binary (operator.precedence + 1) cursor.advance =
      .ok (right, after)) :
    (level allowance).binaryRest least left cursor = (level (allowance - 1)).binaryRest least
      (.binary operator left right (left.span.through right.span)) after := by
  have next : BinaryOperator.ofToken? cursor.peek = some operator := by
    rw [peek_of_kinds ahead, first_cons, BinaryOperator.ofToken?_token]
  rw [level_eq allowance]
  simp only [Level.above, binaryRestFrom, next, if_pos tight, nested_below positive, read, bind,
    Except.bind]

/-- An operand that ends is followed by operators. -/
theorem binary_of_operand
    (read : unaryFrom allowance (below allowance) cursor = .ok (operand, after)) :
    (level allowance).binary least cursor = (level allowance).binaryRest least operand after := by
  rw [level_eq allowance]
  simp only [Level.above, read, bind, Except.bind]

/-- What stands in parentheses is an operand, one level deeper. -/
theorem unaryFrom_parenthesized (positive : 0 < allowance) {inner : Expr}
    (ahead : cursor.kinds = .leftParen :: inside)
    (read : (level (allowance - 1)).binary 1 cursor.advance = .ok (inner, middle))
    (behind : middle.kinds = .rightParen :: rest) :
    unaryFrom allowance (below allowance) cursor =
      accessesFrom (below allowance) inner middle.advance := by
  have next : cursor.peek = .leftParen := peek_of_kinds ahead
  simp only [unaryFrom, primary, next, UnaryOperator.ofToken?, nested_below positive, read,
    expect_of_kinds behind, bind, Except.bind]

/-- A sign is read with its operand, one level deeper. -/
theorem unaryFrom_signed (positive : 0 < allowance) {operator : UnaryOperator} {after : Cursor}
    {operand : Expr} (ahead : cursor.kinds = operator.token :: rest)
    (read : unaryFrom (allowance - 1) (below (allowance - 1)) cursor.advance =
      .ok (operand, after)) :
    unaryFrom allowance (below allowance) cursor =
      .ok (.unary operator operand (cursor.span.through operand.span), after) := by
  have next : UnaryOperator.ofToken? cursor.peek = some operator := by
    rw [peek_of_kinds ahead, first_cons, UnaryOperator.ofToken?_token]
  have unary : (level (allowance - 1)).unary = unaryFrom (allowance - 1) (below (allowance - 1)) := by
    rw [level_eq]
    rfl
  unfold unaryFrom
  simp only [next, nested_below positive, unary, read, bind, Except.bind]

/-- A member is read behind its base, one level deeper. -/
theorem accessesFrom_member (positive : 0 < allowance)
    (ahead : cursor.kinds = .dot :: .identifier name :: rest) :
    accessesFrom (below allowance) base cursor = accessesFrom (below (allowance - 1))
      (.member base name (base.span.through cursor.advance.span)) cursor.advance.advance := by
  have next : cursor.peek = .dot := peek_of_kinds ahead
  have named := identifier_of_kinds (kinds_advance ahead)
  unfold accessesFrom
  simp only [next, nested_below positive, named, bind, Except.bind]
  rw [level_eq]
  rfl

/-- An index is read behind its base, one level deeper. -/
theorem accessesFrom_index (positive : 0 < allowance) (ahead : cursor.kinds = .leftBracket :: inside)
    (read : (level (allowance - 1)).binary 1 cursor.advance = .ok (position, middle))
    (behind : middle.kinds = .rightBracket :: rest) :
    accessesFrom (below allowance) base cursor = accessesFrom (below (allowance - 1))
      (.index base position (base.span.through middle.advance.previous)) middle.advance := by
  have next : cursor.peek = .leftBracket := peek_of_kinds ahead
  unfold accessesFrom
  simp only [next, nested_below positive, read, expect_of_kinds behind, bind, Except.bind]
  rw [level_eq]
  rfl

end Surface

namespace Typed.Expr

open Surface (Cursor EndsOperand Loose below first level unaryFrom accessesFrom)

/-- The precedence of an operation, or the highest. -/
def tightness : Expr → Nat
  | .binary operator _ _ _ _ => operator.precedence
  | _ => 7

/-- There are six precedences. -/
theorem precedence_lt (operator : BinaryOperator) : operator.precedence < 7 := by
  cases operator <;> decide

/-- The loosest is the first. -/
theorem precedence_pos (operator : BinaryOperator) : 0 < operator.precedence := by
  cases operator <;> decide

/-- Every expression has a precedence. -/
theorem tightness_pos (expression : Expr) : 0 < expression.tightness := by
  unfold tightness
  split
  · exact precedence_pos _
  · decide

/-- What stands bare to the left binds as tight. -/
theorem precedence_le_tightness (bare : left.standsBare operator false) :
    operator.precedence ≤ left.tightness := by
  have bound := precedence_lt operator
  cases left with
  | binary inner _ _ _ _ =>
    simp only [standsBare, Bool.not_false, Bool.and_true, Bool.and_eq_true, Bool.or_eq_true,
      decide_eq_true_eq, beq_iff_eq] at bare
    simp only [tightness]
    omega
  | _ => exact Nat.le_of_lt bound

/-- What stands bare to the right binds tighter. -/
theorem precedence_lt_tightness (bare : right.standsBare operator true) :
    operator.precedence < right.tightness := by
  have bound := precedence_lt operator
  cases right with
  | binary inner _ _ _ _ =>
    simp only [standsBare, Bool.not_true, Bool.and_false, Bool.or_false, Bool.and_eq_true,
      decide_eq_true_eq] at bare
    exact bare.1
  | _ => exact bound

/-- The tokens were taken and give the printed tree. -/
def Found (expression : Expr) (tree : Surface.Expr) (after : Cursor) (rest : List Token) : Prop :=
  tree.unplaced = expression.reread ∧ after.kinds = rest

/-- The tokens are read as the tree before accesses, whose levels are used up in the chain. -/
def ReadsAccessed (expression : Expr) : Prop :=
  ∀ {allowance : Nat}, expression.levels ≤ allowance → ∀ {cursor : Cursor} {rest : List Token},
    cursor.kinds = expression.tokens ++ rest → first rest ≠ .leftParen →
    ∃ tree after, unaryFrom allowance (below allowance) cursor =
      accessesFrom (below (allowance - expression.chain)) tree after ∧
      Found expression tree after rest

/-- The tokens are read as the tree as an operand. -/
def ReadsOperand (expression : Expr) : Prop :=
  ∀ {allowance : Nat}, expression.levels ≤ allowance → ∀ {cursor : Cursor} {rest : List Token},
    cursor.kinds = expression.tokens ++ rest → EndsOperand (first rest) →
    ∃ tree after, unaryFrom allowance (below allowance) cursor = .ok (tree, after) ∧
      Found expression tree after rest

/-- The tokens are read as the tree wherever they can stand: before accesses, as an operand, and in
a chain, whose levels are used up. -/
structure ReadsBack (expression : Expr) : Prop where
  accessed : expression.isCompound = false → expression.isSigned = false → expression.ReadsAccessed
  operand : expression.spine = 0 → expression.ReadsOperand
  chained : ∀ {allowance : Nat}, expression.levels ≤ allowance →
    ∀ {least : Nat}, least ≤ expression.tightness → ∀ {cursor : Cursor} {rest : List Token},
      cursor.kinds = expression.tokens ++ rest → EndsOperand (first rest) →
      Loose expression.tightness (first rest) →
      ∃ tree after, (level allowance).binary least cursor =
        (level (allowance - expression.spine)).binaryRest least tree after ∧
        Found expression tree after rest

variable {expression : Expr} {allowance : Nat} {cursor : Cursor} {rest : List Token}

/-- What is read as an operand is read in a chain. -/
theorem ReadsBack.ofOperand (single : expression.spine = 0) (operand : expression.ReadsOperand)
    (accessed : expression.isCompound = false → expression.isSigned = false →
      expression.ReadsAccessed) : ReadsBack expression where
  accessed := accessed
  operand _ := operand
  chained within least _ cursor rest ahead ends _ := by
    obtain ⟨tree, after, read, found⟩ := operand within ahead ends
    exact ⟨tree, after, by rw [single]; exact binary_of_operand read, found⟩

/-- Read before accesses, they are read as operands too. -/
theorem ReadsBack.ofAccessed (single : expression.spine = 0) (accessed : expression.ReadsAccessed) :
    ReadsBack expression := by
  refine .ofOperand single (fun within cursor rest ahead ends => ?_) fun _ _ => accessed
  obtain ⟨tree, after, read, found⟩ := accessed within ahead ends.2.2
  exact ⟨tree, after, by rw [read, accessesFrom_ends found.2 _ _ ends], found⟩

/-- The token is no operator, no access and no call. -/
def EndsExpression (token : Token) : Prop :=
  EndsOperand token ∧ BinaryOperator.ofToken? token = none

section Enclosed

variable (reads : ReadsBack expression)

include reads

/-- An expression is read up to a token that ends it. -/
theorem ReadsBack.whole (within : expression.levels ≤ allowance)
    (ahead : cursor.kinds = expression.tokens ++ rest) (ends : EndsExpression (first rest)) :
    ∃ tree after, (level allowance).binary 1 cursor = .ok (tree, after) ∧
      Found expression tree after rest := by
  obtain ⟨tree, after, read, found⟩ :=
    reads.chained within (tightness_pos expression) ahead ends.1 (by simp [Loose, ends.2])
  refine ⟨tree, after, ?_, found⟩
  rw [read, binaryRest_ends found.2 _ _ (by simp [ends.2])]

/-- In parentheses they are read before accesses. -/
theorem ReadsBack.parenthesized (within : expression.levels + 1 ≤ allowance)
    (ahead : cursor.kinds = enclosed true expression.tokens ++ rest) :
    ∃ tree after, unaryFrom allowance (below allowance) cursor =
      accessesFrom (below allowance) tree after ∧ Found expression tree after rest := by
  have opened : cursor.kinds = .leftParen :: (expression.tokens ++ .rightParen :: rest) := by
    simpa [enclosed] using ahead
  obtain ⟨tree, middle, read, same, closing⟩ :=
    reads.whole (Nat.le_sub_one_of_lt within) (kinds_advance opened)
      ⟨⟨by rintro ⟨⟩, by rintro ⟨⟩, by rintro ⟨⟩⟩, rfl⟩
  exact ⟨tree, middle.advance, unaryFrom_parenthesized (by omega) opened read closing, same,
    kinds_advance closing⟩

/-- An operand is read, in parentheses where needed. -/
theorem ReadsBack.operandOf {needed : Bool}
    (within : enclosedLevels needed expression.levels ≤ allowance)
    (tight : needed = false → least ≤ expression.tightness)
    (ahead : cursor.kinds = enclosed needed expression.tokens ++ rest)
    (ends : EndsOperand (first rest))
    (loose : needed = false → Loose expression.tightness (first rest)) :
    ∃ tree after, (level allowance).binary least cursor =
      (level (allowance - if needed then 0 else expression.spine)).binaryRest least tree after ∧
      Found expression tree after rest := by
  cases needed with
  | false => exact reads.chained within (tight rfl) ahead ends (loose rfl)
  | true =>
    obtain ⟨tree, after, read, found⟩ := reads.parenthesized within ahead
    rw [accessesFrom_ends found.2 _ _ ends] at read
    exact ⟨tree, after, binary_of_operand read, found⟩

/-- A base is read, in parentheses where needed. -/
theorem ReadsBack.base (sign : expression.isSigned → expression.isCompound)
    (within : enclosedLevels expression.isCompound expression.levels ≤ allowance)
    (ahead : cursor.kinds = enclosed expression.isCompound expression.tokens ++ rest)
    (noCall : first rest ≠ .leftParen) :
    ∃ tree after, unaryFrom allowance (below allowance) cursor =
      accessesFrom (below (allowance - if expression.isCompound then 0 else expression.chain))
        tree after ∧ Found expression tree after rest := by
  cases compound : expression.isCompound with
  | false =>
    rw [compound] at within ahead
    exact reads.accessed compound (by simpa [compound] using sign) within ahead noCall
  | true =>
    rw [compound] at within ahead
    exact reads.parenthesized within ahead

end Enclosed

/-- Operations are read back if their operands are. -/
theorem readsBack_binary (type : Option Ty) (span : Span) (leftReads : ReadsBack left)
    (rightReads : ReadsBack right) : ReadsBack (.binary operator left right type span) where
  accessed compound := by simp [isCompound] at compound
  operand single := by simp [spine] at single
  chained := by
    intro allowance within least tight cursor rest ahead ends loose
    simp only [levels, Nat.max_le] at within
    simp only [tightness] at tight loose
    simp only [tokens, append_assoc, cons_append] at ahead
    obtain ⟨leftTree, middle, readLeft, leftFound⟩ := leftReads.operandOf within.1
      (fun bare => Nat.le_trans tight (precedence_le_tightness (by simpa using bare))) ahead
      (endsOperand_operator operator)
      (fun bare => fun other known => Nat.le_trans (loose_operator operator other known)
        (precedence_le_tightness (by simpa using bare)))
    -- The operator takes one level more than those to its left.
    have taken : (if !left.standsBare operator false then 0 else left.spine) =
        if left.standsBare operator false then left.spine else 0 := by
      cases left.standsBare operator false <;> rfl
    rw [taken] at readLeft
    have room : enclosedLevels (!right.standsBare operator true) right.levels ≤
        allowance - (if left.standsBare operator false then left.spine else 0) - 1 := by omega
    obtain ⟨rightTree, after, readRight, rightFound⟩ := rightReads.operandOf room
      (fun bare => precedence_lt_tightness (by simpa using bare))
      (kinds_advance leftFound.2) ends
      (fun bare => fun other known => Nat.le_trans (loose other known)
        (Nat.le_of_lt (precedence_lt_tightness (by simpa using bare))))
    rw [binaryRest_ends rightFound.2 _ _ fun other known =>
      Nat.lt_succ_of_le (loose other known)] at readRight
    refine ⟨.binary operator leftTree rightTree (leftTree.span.through rightTree.span), after, ?_,
      ?_, rightFound.2⟩
    · rw [readLeft, binaryRest_operator (by omega) tight leftFound.2 readRight, spine,
        Nat.sub_sub]
    · rw [Surface.Expr.unplaced, reread, leftFound.1, rightFound.1]

/-- A literal is read in front of accesses. -/
theorem unaryFrom_number {literal : Number} (ahead : cursor.kinds = .number literal :: rest) :
    unaryFrom allowance (below allowance) cursor =
      accessesFrom (below allowance) (.number literal cursor.span) cursor.advance := by
  have next : cursor.peek = .number literal := peek_of_kinds ahead
  simp only [unaryFrom, next, UnaryOperator.ofToken?, Surface.primary, bind, Except.bind]

/-- Literals are read back. -/
theorem readsBack_number (literal : Number) (type : Option Ty) (span : Span) :
    ReadsBack (.number literal type span) := by
  cases signed : literal.printsSign type with
  | true =>
    refine .ofOperand rfl ?_ fun _ unsigned => nomatch signed.symm.trans unsigned
    intro allowance within cursor rest ahead ends
    simp only [levels, signed, if_true] at within
    simp only [tokens, Number.tokens, signed, if_true] at ahead
    have positive : 0 < allowance := within
    have inside : cursor.advance.kinds = .number (literal.reread type) :: rest :=
      kinds_advance ahead
    have behind := kinds_advance inside
    have read := @unaryFrom_number (allowance - 1) _ _ _ inside
    rw [accessesFrom_ends behind _ _ ends] at read
    have whole := @unaryFrom_signed _ _ _ positive .negate _ _ ahead read
    exact ⟨_, _, whole, by simp [Surface.Expr.unplaced, reread, signed], behind⟩
  | false =>
    refine .ofAccessed rfl ?_
    intro allowance _ cursor rest ahead _
    simp only [tokens, Number.tokens, signed, Bool.false_eq_true, if_false, nil_append] at ahead
    exact ⟨_, _, unaryFrom_number ahead, by simp [Surface.Expr.unplaced, reread, signed],
      kinds_advance ahead⟩

/-- Truth values are read back. -/
theorem readsBack_bool (value : Bool) (type : Option Ty) (span : Span) :
    ReadsBack (.bool value type span) := by
  refine .ofAccessed rfl ?_
  intro allowance _ cursor rest ahead _
  simp only [tokens] at ahead
  have next : cursor.peek = if value then .trueKeyword else .falseKeyword :=
    peek_of_kinds ahead
  refine ⟨.bool value cursor.span, cursor.advance, ?_, rfl, kinds_advance ahead⟩
  cases value <;>
    simp [unaryFrom, next, UnaryOperator.ofToken?, Surface.primary, bind, Except.bind, chain]

/-- Variables are read back unless named like constructors. -/
theorem readsBack_identifier (plain : Surface.takesTypeArguments name = false) (type : Option Ty)
    (span : Span) : ReadsBack (.identifier name type span) := by
  refine .ofAccessed rfl ?_
  intro allowance _ cursor rest ahead noCall
  simp only [tokens, singleton_append] at ahead
  have next : cursor.peek = .identifier name := peek_of_kinds ahead
  have behind := kinds_advance ahead
  rw [← peek_of_kinds behind] at noCall
  refine ⟨.identifier name cursor.span, cursor.advance, ?_, rfl, behind⟩
  simp [unaryFrom, next, UnaryOperator.ofToken?, Surface.primary, Surface.named, plain, noCall, bind,
    Except.bind, chain]

/-- Unary operations are read back if their operand is. -/
theorem readsBack_unary {operator : UnaryOperator} (type : Option Ty) (span : Span)
    (reads : ReadsBack operand) : ReadsBack (.unary operator operand type span) := by
  refine .ofOperand rfl ?_ nofun
  intro allowance within cursor rest ahead ends
  simp only [levels] at within
  simp only [tokens, cons_append] at ahead
  have inside := kinds_advance ahead
  have room : enclosedLevels operand.isCompound operand.levels ≤ allowance - 1 := by omega
  obtain ⟨tree, after, read, found⟩ : ∃ tree after,
      unaryFrom (allowance - 1) (below (allowance - 1)) cursor.advance = .ok (tree, after) ∧
        Found operand tree after rest := by
    cases compound : operand.isCompound with
    | false =>
      rw [compound] at room inside
      have single : operand.spine = 0 := by
        cases operand with
        | binary _ _ _ _ _ => simp [isCompound] at compound
        | _ => rfl
      exact reads.operand single room inside ends
    | true =>
      rw [compound] at room inside
      obtain ⟨tree, after, read, found⟩ := reads.parenthesized room inside
      exact ⟨tree, after, by rw [read, accessesFrom_ends found.2 _ _ ends], found⟩
  refine ⟨_, after, unaryFrom_signed (by omega) ahead read, ?_, found.2⟩
  rw [Surface.Expr.unplaced, reread, found.1]

/-- Members are read back if their base is. -/
theorem readsBack_member {base : Expr} (kind : MemberKind) (type : Option Ty) (span : Span)
    (sign : base.isSigned → base.isCompound) (reads : ReadsBack base) :
    ReadsBack (.member base name kind type span) := by
  refine .ofAccessed rfl ?_
  intro allowance within cursor rest ahead noCall
  simp only [levels, Nat.max_le] at within
  simp only [tokens, append_assoc] at ahead
  obtain ⟨tree, middle, read, found⟩ := reads.base sign within.1 ahead nofun
  have behind := kinds_advance found.2
  refine ⟨.member tree name (tree.span.through middle.advance.span), middle.advance.advance, ?_, ?_,
    kinds_advance behind⟩
  · rw [read, accessesFrom_member (by omega) found.2, chain, Nat.sub_sub]
  · rw [Surface.Expr.unplaced, reread, found.1]

/-- Elements are read back if base and position are. -/
theorem readsBack_index {base : Expr} (type : Option Ty) (span : Span)
    (sign : base.isSigned → base.isCompound) (reads : ReadsBack base)
    (positionReads : ReadsBack position) : ReadsBack (.index base position type span) := by
  refine .ofAccessed rfl ?_
  intro allowance within cursor rest ahead noCall
  simp only [levels, Nat.max_le] at within
  simp only [tokens, append_assoc, cons_append] at ahead
  obtain ⟨tree, middle, read, found⟩ := reads.base sign within.1 ahead nofun
  have room : position.levels ≤
      allowance - (if base.isCompound then 0 else base.chain) - 1 := by omega
  obtain ⟨positionTree, last, positionRead, positionFound⟩ :=
    positionReads.whole room (kinds_advance found.2) ⟨⟨nofun, nofun, nofun⟩, rfl⟩
  refine ⟨.index tree positionTree (tree.span.through last.advance.previous), last.advance, ?_, ?_,
    kinds_advance positionFound.2⟩
  · rw [read, accessesFrom_index (by omega) found.2 positionRead positionFound.2, chain,
      Nat.sub_sub]
  · rw [Surface.Expr.unplaced, reread, found.1, positionFound.1]

/-! ### Calls -/

/-- Whether an expression can start with the token. -/
def startsExpression : Token → Bool
  | .number _ | .identifier _ | .trueKeyword | .falseKeyword | .leftParen | .minus | .bang => true
  | _ => false

/-- Parentheses start an expression too. -/
theorem enclosed_start {tokens : List Token} (starts : tokens ≠ [] ∧ startsExpression (first tokens))
    (needed : Bool) (rest : List Token) :
    enclosed needed tokens ++ rest ≠ [] ∧ startsExpression (first (enclosed needed tokens ++ rest)) := by
  obtain ⟨nonempty, start⟩ := starts
  unfold enclosed
  split
  · simp [startsExpression]
  · exact ⟨by simp [nonempty], by rwa [first_append_of_ne_nil nonempty]⟩

/-- Every expression starts with a token that can start one. -/
theorem tokens_start (expression : Expr) :
    expression.tokens ≠ [] ∧ startsExpression (first expression.tokens) := by
  induction expression using induction_parts with
  | step expression ih =>
    cases expression with
    | number literal type span =>
      simp only [tokens, Number.tokens]
      cases literal.printsSign type <;> simp [startsExpression]
    | bool value type span => cases value <;> simp [tokens, startsExpression]
    | identifier name type span => simp [tokens, startsExpression]
    | binary _ base | member base | index base =>
      simp only [tokens]
      exact enclosed_start (ih base (by simp [parts])) _ _
    | unary operator operand type span =>
      cases operator <;> simp [tokens, UnaryOperator.token, startsExpression]
    | call callee arguments type span =>
      simp only [tokens]
      obtain ⟨name, arguments, span⟩ := callee.written type
      simp [WrittenType.tokens, startsExpression]

/-- The tokens start with one that can start an expression. -/
theorem first_tokens_ne (expression : Expr) (rest : List Token) {token : Token}
    (other : startsExpression token = false) : first (expression.tokens ++ rest) ≠ token := by
  obtain ⟨nonempty, start⟩ := tokens_start expression
  rw [first_append_of_ne_nil nonempty]
  rintro rfl
  rw [other] at start
  cases start

/-- The arguments of a call are read back if each of them is. -/
theorem callArguments_reads (reads : ∀ argument ∈ arguments, ReadsBack argument)
    (within : allLevels arguments ≤ allowance)
    (ahead : cursor.kinds =
      .leftParen :: (List.intercalate [.comma] (arguments.map tokens) ++ .rightParen :: rest)) :
    ∃ trees after, Surface.callArguments (below allowance) cursor = .ok (trees, after) ∧
      trees.map Surface.Expr.unplaced = arguments.map reread ∧ after.kinds = rest := by
  have inside := kinds_advance ahead
  have each : ∀ argument ∈ arguments,
      Surface.Reads (Surface.nested (below allowance) fun level => level.binary 1) argument.tokens
        (fun token => token = .comma ∨ token = .rightParen)
        (Surface.Expr.unplaced · = argument.reread) := by
    intro argument member start more startAhead follows
    have room := Nat.lt_of_lt_of_le (levels_lt_allLevels member) within
    have ends : EndsExpression (first more) := by
      rcases follows with comma | paren
      · rw [comma]
        exact ⟨⟨nofun, nofun, nofun⟩, rfl⟩
      · rw [paren]
        exact ⟨⟨nofun, nofun, nofun⟩, rfl⟩
    rw [nested_below (by omega)]
    exact (reads argument member).whole (Nat.le_sub_one_of_lt room) startAhead ends
  have enough : arguments.length < cursor.advance.remaining + 1 := by
    have bound := length_le_intercalate fun argument (_ : argument ∈ arguments) =>
      (tokens_start argument).1
    rw [remaining_eq, inside, length_append]
    omega
  obtain ⟨trees, middle, read, same, closing⟩ :=
    listed_reads .rightParen (by simp) (by simp) nofun each
      (fun argument _ => ⟨(tokens_start argument).1, by simpa using first_tokens_ne argument [] rfl⟩)
      enough cursor.advance (.rightParen :: rest) inside rfl
  refine ⟨trees, middle.advance, ?_, same, kinds_advance closing⟩
  simp only [Surface.callArguments, expect_of_kinds ahead, read,
    expect_of_kinds closing, bind, Except.bind]

/-- Type arguments stand behind names that take some. -/
theorem takesTypeArguments_written (legible : callee.Legible type)
    (some : (callee.written type).arguments ≠ []) :
    Surface.takesTypeArguments (callee.written type).name := by
  cases callee with
  | constructor written =>
    obtain ⟨built, rfl, constructed, wellFormed⟩ := legible
    cases built with
    | scalar element => exact absurd rfl some
    | vector size element =>
      simp [Callee.written, Ty.written, WrittenType.name, Surface.takesTypeArguments,
        (Ty.name_vector wellFormed.1 wellFormed.2).2.2]
    | matrix columns rows element =>
      simp [Callee.written, Ty.written, WrittenType.name, Surface.takesTypeArguments,
        (Ty.name_matrix wellFormed.1.1 wellFormed.1.2 wellFormed.2.1 wellFormed.2.2).2.2]
    | array element size => cases size <;> rfl
    | struct | sampler | texture => exact constructed.elim
  | _ => exact absurd rfl some

/-- A name with its arguments is read as a call. -/
theorem unaryFrom_call {written : WrittenType} (legible : written.Legible)
    (takes : written.arguments ≠ [] → Surface.takesTypeArguments written.name)
    (shallow : written.depth ≤ allowance) (reads : ∀ argument ∈ arguments, ReadsBack argument)
    (within : allLevels arguments ≤ allowance)
    (ahead : cursor.kinds = written.tokens ++
      .leftParen :: (List.intercalate [.comma] (arguments.map tokens) ++ .rightParen :: rest)) :
    ∃ typeArguments trees span after, unaryFrom allowance (below allowance) cursor =
        accessesFrom (below allowance) (.call written.name typeArguments trees span) after ∧
      TypeArgument.allUnplaced typeArguments = TypeArgument.allUnplaced written.arguments ∧
      trees.map Surface.Expr.unplaced = arguments.map reread ∧ after.kinds = rest := by
  obtain ⟨name, typeArguments, span⟩ := written
  rw [WrittenType.tokens, cons_append] at ahead
  have next : cursor.peek = .identifier name := peek_of_kinds ahead
  have behind := kinds_advance ahead
  cases typeArguments with
  | nil =>
    obtain ⟨trees, after, read, same, last⟩ := callArguments_reads reads within behind
    have paren : cursor.advance.peek = .leftParen := peek_of_kinds behind
    refine ⟨[], trees, cursor.span.through after.previous, after, ?_, rfl, same, last⟩
    simp [unaryFrom, next, UnaryOperator.ofToken?, Surface.primary, Surface.named, paren, read, bind,
      Except.bind, WrittenType.name]
  | cons one others =>
    have named := takes (by simp [WrittenType.arguments])
    have bracket : cursor.advance.peek = .less := peek_of_kinds behind
    have each : ∀ argument ∈ one :: others,
        Surface.Reads (Surface.typeArgument (Surface.innerType allowance)) argument.tokens
          (· ≠ .less) (TypeArgument.unplaced · = argument.unplaced) := fun argument member =>
      TypeArgument.all_read (one :: others) legible.2 argument member
        (Nat.le_trans (TypeArgument.depth_le_depths member) shallow)
    obtain ⟨types, middle, typesRead, typesSame, typesBehind⟩ :=
      typeArguments_reads each cursor.advance _ behind trivial
    have paren : middle.peek = .leftParen := peek_of_kinds typesBehind
    have constructed : Surface.constructorArguments? allowance cursor.advance =
        some (types, middle) := by
      simp only [Surface.constructorArguments?, typesRead, paren, if_true]
    obtain ⟨trees, after, read, same, last⟩ := callArguments_reads reads within typesBehind
    refine ⟨types, trees, cursor.span.through after.previous, after, ?_, typesSame, same, last⟩
    simp only [WrittenType.name] at named
    simp [unaryFrom, next, UnaryOperator.ofToken?, Surface.primary, Surface.named, bracket, named,
      constructed, read, bind, Except.bind, WrittenType.name]

/-- Calls are read back if their arguments are. -/
theorem readsBack_call (span : Span) (legible : callee.Legible type)
    (reads : ∀ argument ∈ arguments, ReadsBack argument) :
    ReadsBack (.call callee arguments type span) := by
  refine .ofAccessed rfl ?_
  intro allowance within cursor rest ahead _
  simp only [levels, Nat.max_le] at within
  simp only [tokens, allTokens_eq, append_assoc, cons_append, nil_append] at ahead
  obtain ⟨typeArguments, trees, place, after, read, typesSame, same, behind⟩ :=
    unaryFrom_call (Callee.legible_written legible) (takesTypeArguments_written legible) within.1
      reads within.2 ahead
  refine ⟨_, after, read, ?_, behind⟩
  rw [Surface.Expr.unplaced, reread, Surface.Expr.allUnplaced_eq, allReread_eq, same, typesSame,
    Callee.unplaced_written]

/-- Every legible expression is read back. -/
theorem readsBack (expression : Expr) (legible : expression.AllLegible) : ReadsBack expression := by
  induction expression using induction_parts with
  | step expression ih =>
    obtain ⟨here, below⟩ := forall_nodes.mp legible
    have inner : ∀ part ∈ parts expression, ReadsBack part := fun part isPart =>
      ih part isPart (below part isPart)
    cases expression with
    | number literal type span => exact readsBack_number literal type span
    | bool value type span => exact readsBack_bool value type span
    | identifier name type span => exact readsBack_identifier here.2 type span
    | binary operator left right type span =>
      exact readsBack_binary type span (inner left (by simp [parts])) (inner right (by simp [parts]))
    | unary operator operand type span =>
      exact readsBack_unary type span (inner operand (by simp [parts]))
    | call callee arguments type span => exact readsBack_call span here inner
    | member base name kind type span =>
      exact readsBack_member kind type span here.2 (inner base (by simp [parts]))
    | index base position type span =>
      exact readsBack_index type span here (inner base (by simp [parts]))
        (inner position (by simp [parts]))

/-! ### Texts -/

/-- The text of a legible expression is read as its tree. -/
theorem text_read (legible : expression.AllLegible)
    (shallow : expression.levels ≤ Surface.nestingLimit) (name : String) :
    (tokenize ⟨name, expression.text⟩).diagnostics = [] ∧
      ∃ tree after, Surface.expression Surface.nestingLimit
          (Surface.cursorAt ⟨name, expression.text⟩) = .ok (tree, after) ∧
        after.atEnd ∧ tree.unplaced = expression.reread := by
  obtain ⟨divided, reports⟩ := (spells expression legible).1.tokenize Lexer.stops_nil name
  refine ⟨reports, ?_⟩
  have ahead : (Surface.cursorAt ⟨name, expression.text⟩).kinds = expression.tokens ++ [] := by
    rw [append_nil]
    exact kinds_cursorAt_plain divided (tokens_plain expression)
  obtain ⟨tree, after, read, same, behind⟩ :=
    (readsBack expression legible).whole shallow ahead ⟨⟨nofun, nofun, nofun⟩, rfl⟩
  refine ⟨tree, after, read, ?_, same⟩
  simpa [Cursor.kinds, Cursor.atEnd] using behind

/-- What a node without fractions needs in order to be written. -/
def Writable : Expr → Prop
  | .number literal type _ => literal.kind.isInteger ∧ literal.Legible type
  | .identifier name _ _ => Lexer.IsName name ∧ Surface.takesTypeArguments name = false
  | .call callee _ type _ => callee.Legible type
  | .member _ name _ _ _ => Lexer.IsName name
  | .bool .. | .binary .. | .unary .. | .index .. => True

/-- The sign of an integer is told apart by parentheses. -/
theorem Writable.sign {base : Expr} (writable : base.Writable) :
    base.isSigned → base.isCompound := by
  cases base with
  | number literal type span =>
    obtain ⟨integer, _⟩ := writable
    simp only [isSigned, isCompound, Number.printsSign]
    cases kind : literal.kind <;> simp_all [Number.printedKind, Number.Kind.isInteger]
  | _ => simp [isSigned]

/-- Expressions with integer literals are legible. -/
theorem allLegible_of_writable
    (writable : ∀ node ∈ expression.nodes, node.Writable) : expression.AllLegible := by
  intro node member
  have own := writable node member
  have partSign (part : Expr) (isPart : part ∈ parts node) : part.isSigned → part.isCompound :=
    (writable part (mem_nodes_part member isPart)).sign
  cases node with
  | number | identifier | call => exact own
  | member base name kind type span => exact ⟨own, partSign base (by simp [parts])⟩
  | index base position type span => exact partSign base (by simp [parts])
  | _ => trivial

/-- Printing an expression and reading the text gives the same tree: its literals are truth values,
`i32` of at most `2 ^ 31 - 1` in size and `u32`, its names are identifiers, no variable is named
like a constructor, its types are well-formed, and it does not nest too deep. -/
theorem text_reads_as_reread (expression : Expr)
    (writable : ∀ node ∈ expression.nodes, node.Writable)
    (shallow : expression.levels ≤ Surface.nestingLimit) (name : String) :
    (tokenize ⟨name, expression.text⟩).diagnostics = [] ∧
      ∃ tree after, Surface.expression Surface.nestingLimit
          (Surface.cursorAt ⟨name, expression.text⟩) = .ok (tree, after) ∧
        after.atEnd ∧ tree.unplaced = expression.reread :=
  text_read (allLegible_of_writable writable) shallow name

/-- The product of a sum and of a vector is read back. -/
theorem scaled_sum_reads_as_reread :
    let minusThree : Number := ⟨.finite true (3 * Binary64.one), .i32, true⟩
    let seven : Number := ⟨.finite false (7 * Binary64.one), .u32, true⟩
    let expression : Expr :=
      .binary .multiply
        (.binary .add (.identifier "a" none .none) (.number minusThree none .none) none .none)
        (.call (.constructor "vec2") [.member (.identifier "b" none .none) "xy" .swizzle none .none,
          .unary .negate (.number seven none .none) none .none] (some (.vector 2 .f32)) .none)
        none .none
    (∀ node ∈ expression.nodes, node.Writable) ∧ expression.levels ≤ Surface.nestingLimit ∧
      expression.text = "(a + -3i) * vec2<f32>(b.xy, -7u)" ∧
      (tokenize ⟨"main", expression.text⟩).diagnostics = [] ∧
      ∃ tree after, Surface.expression Surface.nestingLimit
          (Surface.cursorAt ⟨"main", expression.text⟩) = .ok (tree, after) ∧
        after.atEnd ∧ tree.unplaced = expression.reread := by
  intro minusThree seven expression
  have first : minusThree.kind.isInteger ∧ minusThree.Legible none := by decide +kernel
  have second : seven.kind.isInteger ∧ seven.Legible none := by decide +kernel
  have vector : (Callee.constructor "vec2").Legible (some (.vector 2 .f32)) :=
    ⟨_, rfl, trivial, by decide, by decide⟩
  have left : Lexer.IsName "a" ∧ Surface.takesTypeArguments "a" = false := by decide
  have right : Lexer.IsName "b" ∧ Surface.takesTypeArguments "b" = false := by decide
  have member : Lexer.IsName "xy" := by decide
  have writable : ∀ node ∈ expression.nodes, node.Writable := by
    simp only [expression, nodes, allNodes, cons_append, nil_append, mem_cons,
      not_mem_nil, or_false, forall_eq_or_imp, forall_eq]
    exact ⟨trivial, trivial, left, first, vector, member, right, trivial, second⟩
  have shallow : expression.levels ≤ Surface.nestingLimit := by decide +kernel
  exact ⟨writable, shallow, by decide +kernel,
    text_reads_as_reread expression writable shallow "main"⟩

end Typed.Expr

end Shading
