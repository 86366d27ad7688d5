import Shading.Proofs.Descent

/-!
# Reading ends

Whenever a reader of types, expressions or blocks is called again from within, a token has been taken
before; everything else that it calls stands lower in the grammar. So the number of levels that may be
nested does not matter where it reaches the number of tokens that remain, and reading a program ends
whatever its tokens are.
-/

namespace Shading.Surface

variable {α : Type} {allowance other count : Nat} {cursor : Cursor}

/-- One level less, if there is one; without limit there is. -/
def deeper : (limit : Option Nat) → Option (Option Nat)
  | none => some none
  | some 0 => none
  | some (allowance + 1) => some (some allowance)

/-- Both admit what is read from `count` tokens, or are the same. -/
def AdmitAlike (count allowance other : Nat) : Prop :=
  allowance = other ∨ (count ≤ allowance ∧ count ≤ other)

/-- Without limit, all tokens are admitted. -/
theorem admitAlike_getD (limit : Option Nat) {bound : Nat} (enough : count ≤ bound)
    (otherEnough : count ≤ other) : AdmitAlike count (limit.getD bound) (limit.getD other) := by
  cases limit with
  | none => exact .inr ⟨enough, otherEnough⟩
  | some allowance => exact .inl rfl

/-- One way with at most `count` tokens, fewer once one is taken. -/
def Ways.few (count : Nat) : Ways where
  Parallel taken _ cursor twin := cursor = twin ∧ cursor.remaining + taken.toNat ≤ count
  Failed failure other := failure = other
  forget := by
    rintro taken _ cursor _ ⟨rfl, fewer⟩
    exact ⟨rfl, Nat.le_trans (Nat.add_le_add_left (Bool.toNat_le taken) _) fewer⟩
  next := by
    rintro taken depth cursor _ ⟨rfl, fewer⟩
    cases ahead : cursor.rest with
    | nil => exact .inr (.inl ⟨rfl, rfl⟩)
    | cons located rest =>
      refine .inl ⟨located, _, _, rfl, rfl, rfl, ?_⟩
      simp only [Cursor.remaining, Cursor.advance, ahead, List.length_cons] at fewer ⊢
      exact Nat.le_trans (Nat.le_add_right ..) fewer
  fails := by
    rintro _ _ _ _ ⟨rfl, _⟩ error _
    rfl
  undecorated := by
    rintro _ _ _ _ _ _ _ _ _ _ _ ⟨rfl, _⟩ parted
    exact parted.ne_of_plain
  unkeyed := by
    rintro _ _ _ _ _ _ _ _ _ ⟨rfl, _⟩ parted
    exact parted.ne_of_plain

section Few

variable {depth final : Nat} {reader other : Reader α}

/-- Readers agree if one advances and both read alike with fewer tokens. -/
theorem Advances.few (advances : Advances reader)
    (same : ∀ cursor : Cursor, cursor.remaining < count → reader cursor = other cursor) :
    (Ways.few count).Agrees true depth final reader other := by
  rintro cursor _ ⟨_, rfl, fewer⟩
  rw [← same cursor fewer]
  cases read : reader cursor with
  | ok result => exact .ok ⟨rfl, rfl, Nat.le_trans (Nat.succ_le_succ (advances.remaining_le read)) fewer⟩
  | error failure => exact .error rfl

/-- Then they read the same. -/
theorem Ways.Agrees.eq_of_le (agrees : (Ways.few count).Agrees false depth final reader other)
    (fewer : cursor.remaining ≤ count) : reader cursor = other cursor := by
  have matched := agrees cursor cursor ⟨rfl, rfl, fewer⟩
  generalize reader cursor = here at matched
  generalize other cursor = there at matched
  cases matched with
  | ok both =>
    obtain ⟨_, rfl, _⟩ := both
    rfl
  | error failed => exact congrArg _ failed

end Few

/-- Reads a type by reading those in it with one level less. -/
def typeStep (again : Option Nat × Cursor → Except Failure (WrittenType × Cursor)) :
    Option Nat × Cursor → Except Failure (WrittenType × Cursor)
  | (limit, cursor) => namedType ((deeper limit).map fun limit cursor => again (limit, cursor)) cursor

/-- Limits are related if readings are. -/
theorem rel_map {α β Limit : Type} {related : α → β → Prop} {reading : Limit → α} {other : Limit → β}
    (each : ∀ limit, related (reading limit) (other limit)) (limit : Option Limit) :
    Option.Rel related (limit.map reading) (limit.map other) := by
  cases limit with
  | none => exact .none
  | some limit => exact .some (each limit)

/-- What reads with one level less can be unfolded without limit. -/
theorem eq_of_getD {read : Nat → α} {step : Nat → Option α → α} (last : read 0 = step 0 none)
    (more : ∀ allowance, read (allowance + 1) = step (allowance + 1) (some (read allowance)))
    (limit : Option Nat) (bound : Nat) : read (limit.getD (bound + 1)) =
      step (limit.getD (bound + 1)) ((deeper limit).map fun limit => read (limit.getD bound)) := by
  match limit with
  | none => exact more bound
  | some 0 => exact last
  | some (allowance + 1) => exact more allowance

/-- A type in another stands behind a name and a bracket. -/
theorem types_need_no_bound : NeedsNoBound (·.2.remaining) typeStep
    fun bound (limit, cursor) => writtenType (limit.getD bound) cursor := by
  apply NeedsNoBound.of_smaller
  · rintro ⟨limit, cursor⟩ other ended
    simp only [typeStep, writtenType_eq, namedType, identifier, Cursor.peek_of_remaining ended]
    rfl
  · rintro bound ⟨limit, cursor⟩ other _ later
    have each (limit : Option Nat) : (Ways.few cursor.remaining).Everywhere true
        (writtenType (limit.getD bound)) fun inner => other (limit, inner) :=
      fun _ => (writtenType_advances _).few fun inner => later (limit, inner)
    dsimp only
    rw [@eq_of_getD _ writtenType (fun _ => namedType) rfl fun _ => rfl]
    exact (Ways.namedType_agrees (rel_map each (deeper limit)) (.of_eq And.left) 0).eq_of_le (Nat.le_refl _)

/-- Types are read alike. -/
theorem writtenType_eq_of_admitAlike (alike : AdmitAlike count allowance other) (within : cursor.remaining ≤ count) :
    writtenType allowance cursor = writtenType other cursor := by
  rcases alike with rfl | ⟨enough, otherEnough⟩
  · rfl
  · exact types_need_no_bound.eq_of_le (none, cursor) (Nat.le_trans within enough)
      (Nat.le_trans within otherEnough)

/-- What is read of an expression. -/
inductive Part where
  | binary (least : Nat)
  | binaryRest (least : Nat) (left : Expr)
  | unary
  | accesses (base : Expr)

/-- The reader of a part. -/
def Level.reader (level : Level) : Part → Reader Expr
  | .binary least => level.binary least
  | .binaryRest least left => level.binaryRest least left
  | .unary => level.unary
  | .accesses base => level.accesses base

/-- The level with the given readers. -/
def Level.ofReaders (readers : Part → Reader Expr) : Level where
  binary least := readers (.binary least)
  binaryRest least left := readers (.binaryRest least left)
  unary := readers .unary
  accesses base := readers (.accesses base)

/-- Reads a part of an expression with one level less, and types as deep as tokens without limit. -/
def expressionStep (again : Option Nat × Part × Cursor → Except Failure (Expr × Cursor)) :
    Option Nat × Part × Cursor → Except Failure (Expr × Cursor)
  | (limit, part, cursor) =>
    let below := (deeper limit).map fun limit =>
      Level.ofReaders fun part cursor => again (limit, part, cursor)
    (Level.above (limit.getD cursor.remaining) below).reader part cursor

/-- Inner types agree. -/
theorem innerTypes_agree (alike : AdmitAlike count allowance other) :
    (Ways.few count).Everywhere true (typeArguments (innerType allowance))
      (typeArguments (innerType other)) := by
  rcases alike with rfl | ⟨enough, otherEnough⟩
  · refine Ways.typeArguments_agrees ?_ (.of_eq And.left)
    cases allowance with
    | zero => exact .none
    | succ allowance => exact .some fun _ => (writtenType_advances allowance).few fun _ _ => rfl
  · match count, allowance, other with
    -- No token is left behind one that has been taken.
    | 0, _, _ => exact fun _ _ _ twins => absurd twins.parallel.2 (Nat.not_succ_le_zero _)
    | count + 1, allowance + 1, other + 1 =>
      refine Ways.typeArguments_agrees (.some fun _ => ?_) (.of_eq And.left)
      refine (writtenType_advances allowance).few fun cursor fewer => ?_
      exact writtenType_eq_of_admitAlike (.inr ⟨Nat.le_of_succ_le_succ enough,
        Nat.le_of_succ_le_succ otherEnough⟩) (Nat.le_of_lt_succ fewer)

/-- The readers of a level agree. -/
theorem Ways.LevelAgrees.reader {ways : Ways} {taken : Bool} {level other : Level}
    (agrees : ways.LevelAgrees taken level other) (part : Part) :
    ways.Inside taken (level.reader part) (other.reader part) := by
  cases part with
  | binary least => exact agrees.binary least
  | binaryRest least left => exact agrees.binaryRest least left
  | unary => exact agrees.unary
  | accesses base => exact agrees.accesses base

/-- At the end of the input nothing is read below. -/
theorem above_of_remaining (ended : cursor.remaining = 0) (part : Part)
    (allowance other : Nat) (below below' : Option Level) :
    (Level.above allowance below).reader part cursor = (Level.above other below').reader part cursor := by
  have ahead := Cursor.peek_of_remaining ended
  cases part <;> simp only [Level.reader, Level.above, unaryFrom, primary, accessesFrom, binaryRestFrom,
    ahead, UnaryOperator.ofToken?, BinaryOperator.ofToken?] <;> rfl

/-- Each level stands above another. -/
theorem level_eq_above (allowance : Nat) : ∃ below, level allowance = .above allowance below := by
  cases allowance <;> exact ⟨_, rfl⟩

/-- An expression in another stands behind an operator, bracket or name. -/
theorem expressions_need_no_bound : NeedsNoBound (·.2.2.remaining) expressionStep
    fun bound (limit, part, cursor) => (level (limit.getD bound)).reader part cursor := by
  apply NeedsNoBound.of_smaller
  · rintro ⟨limit, part, cursor⟩ other ended
    obtain ⟨below, same⟩ := level_eq_above (limit.getD 0)
    dsimp only
    rw [same]
    exact above_of_remaining ended part _ _ _ _
  · rintro bound ⟨limit, part, cursor⟩ other enough later
    have advances (limit : Option Nat) (part : Part) : Advances ((level (limit.getD bound)).reader part) :=
      .of_agrees 1 fun start => (Ways.level_agrees (Ways.along_sized start) _).reader part 0
    have each (limit : Option Nat) : (Ways.few cursor.remaining).LevelAgrees true (level (limit.getD bound))
        (Level.ofReaders fun part inner => other (limit, part, inner)) :=
      ⟨fun least _ => (advances limit (.binary least)).few fun inner => later (limit, .binary least, inner),
        fun least left _ => (advances limit (.binaryRest least left)).few fun inner =>
          later (limit, .binaryRest least left, inner),
        fun _ => (advances limit .unary).few fun inner => later (limit, .unary, inner),
        fun base _ => (advances limit (.accesses base)).few fun inner => later (limit, .accesses base, inner)⟩
    have types := innerTypes_agree (admitAlike_getD limit enough (Nat.le_refl cursor.remaining))
    dsimp only
    rw [@eq_of_getD _ level Level.above rfl fun _ => rfl]
    exact ((Ways.above_agrees (rel_map each (deeper limit)) types (.of_eq And.left)).reader part 0).eq_of_le
      (Nat.le_refl _)

/-- Expressions are read alike. -/
theorem expression_eq_of_admitAlike (alike : AdmitAlike count allowance other) (within : cursor.remaining ≤ count) :
    expression allowance cursor = expression other cursor := by
  rcases alike with rfl | ⟨enough, otherEnough⟩
  · rfl
  · exact expressions_need_no_bound.eq_of_le (none, .binary 1, cursor) (Nat.le_trans within enough)
      (Nat.le_trans within otherEnough)

/-- Reads a block with one level less, and what is in it as deep as tokens without limit. -/
def blockStep (again : Option Nat × Cursor → Except Failure (Block Expr WrittenType × Cursor)) :
    Option Nat × Cursor → Except Failure (Block Expr WrittenType × Cursor)
  | (limit, cursor) =>
    let inner := (deeper limit).map fun limit cursor => again (limit, cursor)
    braced (limit.getD cursor.remaining) inner cursor

/-- Blocks: one in another stands behind a brace. -/
theorem blocks_need_no_bound : NeedsNoBound (·.2.remaining) blockStep
    fun bound (limit, cursor) => block (limit.getD bound) cursor := by
  apply NeedsNoBound.of_smaller
  · rintro ⟨limit, cursor⟩ other ended
    simp only [blockStep, block_eq, braced, expect, Cursor.eat?, Cursor.peek_of_remaining ended]
    rfl
  · rintro bound ⟨limit, cursor⟩ other enough later
    have each (limit : Option Nat) : (Ways.few cursor.remaining).Inside true (block (limit.getD bound))
        fun inner => other (limit, inner) :=
      fun _ => (block_advances _).few fun inner => later (limit, inner)
    have alike := admitAlike_getD limit enough (Nat.le_refl cursor.remaining)
    dsimp only
    rw [@eq_of_getD _ block braced rfl fun _ => rfl]
    refine (Ways.braced_agrees (fun _ => ?_) (fun _ => ?_) (rel_map each (deeper limit)) (.of_eq And.left)
      0).eq_of_le (Nat.le_refl _)
    · exact (writtenType_advances _).few fun _ fewer =>
        writtenType_eq_of_admitAlike alike (Nat.le_of_lt fewer)
    · exact (expression_advances _).few fun _ fewer =>
        expression_eq_of_admitAlike alike (Nat.le_of_lt fewer)

/-- Reading a program ends whatever its tokens are, and every round over items moves on. No loop and
no nesting needs a bound but the tokens that remain: items and what precedes them, decorators,
parameters, fields, statements, arguments, and nested types, expressions and blocks, with and
without a limit. -/
theorem reading_ends :
    (∀ tokens stuck,
      let read := descend Cursor.remaining itemsStep stuck
        (Cursor.start (retainHeadings 0 (terminated tokens)))
      readTokens tokens = (read.declarations.getD [], read.diagnostics)) ∧
    (∀ cursor, cursor.atEnd = false →
      match (item cursor).result with
      | .ok (_, next) => next.remaining < cursor.remaining
      | .error failure => (recover cursor failure).2.length < cursor.remaining) ∧
    NeedsNoBound Cursor.remaining itemsStep items ∧
    NeedsNoBound (·.2.remaining) headingStep (fun bound (found, cursor) => heading bound found cursor) ∧
    NeedsNoBound Cursor.remaining decoratorsStep decorators ∧
    NeedsNoBound (·.remaining + 1) (listedStep .rightParen decoratorArgument)
      (listed .rightParen decoratorArgument) ∧
    NeedsNoBound (·.remaining + 1) parametersStep parameters ∧
    NeedsNoBound Cursor.remaining fieldsStep fields ∧
    (∀ allowance, NeedsNoBound Cursor.remaining
      (statementsStep (statement allowance (innerBlock allowance)))
      (statements (statement allowance (innerBlock allowance)))) ∧
    (∀ allowance, NeedsNoBound Cursor.remaining (separatedStep (typeArgument (innerType allowance)))
      (separated (typeArgument (innerType allowance)))) ∧
    (∀ allowance, NeedsNoBound (·.remaining + 1) (listedStep .rightParen (expression allowance))
      (listed .rightParen (expression allowance))) ∧
    NeedsNoBound (·.2.remaining) typeStep
      (fun bound (limit, cursor) => writtenType (limit.getD bound) cursor) ∧
    NeedsNoBound (·.2.2.remaining) expressionStep
      (fun bound (limit, part, cursor) => (level (limit.getD bound)).reader part cursor) ∧
    NeedsNoBound (·.2.remaining) blockStep
      (fun bound (limit, cursor) => block (limit.getD bound) cursor) := by
  refine ⟨fun tokens stuck => ?_, fun cursor unread => ?_, items_need_no_bound, heading_needs_no_bound,
    decorators_need_no_bound, listed_needs_no_bound decoratorArgument_advances, parameters_need_no_bound,
    fields_need_no_bound, fun allowance => statements_need_no_bound (statement_consumes allowance),
    fun allowance => separated_needs_no_bound (typeArgument_advances (innerType_advances allowance)),
    fun allowance => listed_needs_no_bound (expression_advances allowance), types_need_no_bound,
    expressions_need_no_bound, blocks_need_no_bound⟩
  · have same := items_need_no_bound.agrees stuck _
      (Cursor.start (retainHeadings 0 (terminated tokens))) (Nat.le_refl _)
    rw [readTokens, same]
  · cases read : (item cursor).result with
    | ok result => exact remaining_lt_of_item read
    | error failure => exact length_recover_lt (by simpa [Cursor.atEnd] using unread) failure

/-- A semicolon that starts no item is passed over. -/
theorem stray_semicolon_passed_over :
    let cursor : Cursor := ⟨.none, [⟨.semicolon, .none⟩, ⟨.structKeyword, .none⟩], .none⟩
    ∃ failure, (item cursor).result = .error failure ∧
      (recover cursor failure).2.length < cursor.remaining := by
  intro cursor
  have forward := reading_ends.2.1 cursor rfl
  exact ⟨_, rfl, forward⟩

end Shading.Surface
