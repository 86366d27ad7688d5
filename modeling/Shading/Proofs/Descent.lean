import Shading.Proofs.DerivedPrograms

/-!
# Loops over the tokens that remain

Whenever a loop over items or over parts of an item goes round, a token has been taken before. So it
ends without any bound, and its bound does not matter where it reaches the number of tokens that remain.
-/

namespace Shading.Surface

open List Cursor

variable {cursor after next : Cursor} {token : Token}

section Descent

variable {Call Answer : Type} (size : Call → Nat) (step : (Call → Answer) → Call → Answer)

/-- Answers a call by `step` from calls of smaller size; any other call gets `stuck`. -/
def descend (stuck : Call → Answer) (call : Call) : Answer :=
  step (fun inner => if size inner < size call then descend stuck inner else stuck inner) call
termination_by size call

/-- As soon as the bound reaches the size of a call, the answer is that of a recursion without one,
in which a call depends on smaller calls alone. -/
structure NeedsNoBound (bounded : Nat → Call → Answer) : Prop where
  unfolds : ∀ bound call, size call ≤ bound + 1 → bounded (bound + 1) call = step (bounded bound) call
  agrees : ∀ stuck bound call, size call ≤ bound → bounded bound call = descend size step stuck call

variable {size step} {bounded : Nat → Call → Answer}

/-- It is enough that a call is answered right where all smaller ones are. -/
theorem NeedsNoBound.of_smaller
    (start : ∀ call other, size call = 0 → bounded 0 call = step other call)
    (next : ∀ bound call other, size call ≤ bound + 1 →
      (∀ inner, size inner < size call → bounded bound inner = other inner) →
        bounded (bound + 1) call = step other call) :
    NeedsNoBound size step bounded where
  unfolds bound call enough := next bound call (bounded bound) enough fun _ _ => rfl
  agrees stuck bound := by
    induction bound with
    | zero =>
      intro call enough
      rw [descend]
      exact start call _ (Nat.le_zero.mp enough)
    | succ bound ih =>
      intro call enough
      rw [descend]
      -- Only smaller calls count, and for these the recursion goes on with one round less.
      refine next bound call _ enough fun inner smaller => ?_
      rw [if_pos smaller]
      exact ih inner (by omega)

/-- Bounds that reach the size give the same answer. -/
theorem NeedsNoBound.eq_of_le (unbounded : NeedsNoBound size step bounded) (call : Call)
    {bound other : Nat} (enough : size call ≤ bound) (otherEnough : size call ≤ other) :
    bounded bound call = bounded other call := by
  have stuck : Call → Answer := bounded 0
  rw [unbounded.agrees stuck bound call enough, unbounded.agrees stuck other call otherEnough]

/-- One bound is enough for two calls. -/
theorem NeedsNoBound.exists_bound (unbounded : NeedsNoBound size step bounded) (call other : Call) :
    ∃ bound, bounded (size call) call = bounded bound call ∧
      bounded (size other) other = bounded bound other :=
  ⟨max (size call) (size other), unbounded.eq_of_le call (Nat.le_refl _) (Nat.le_max_left ..),
    unbounded.eq_of_le other (Nat.le_refl _) (Nat.le_max_right ..)⟩

end Descent

/-- What is read takes a token. -/
def Consumes {α : Type} (reader : Reader α) : Prop :=
  ∀ cursor value after, reader cursor = .ok (value, after) → after.remaining < cursor.remaining

/-- A statement has tokens. -/
theorem StatementTokens.ne_nil {allowance : Nat} {tokens : Tokens} {value : Stmt}
    (made : StatementTokens allowance tokens value) : tokens ≠ [] := by
  cases made <;> exact nofun

/-- Behind the last token is the end. -/
theorem Cursor.atEnd_of_remaining (none : cursor.remaining ≤ 0) : cursor.atEnd = true := by
  simpa [Cursor.atEnd, Cursor.remaining] using none

/-- Readers that take tokens pass over some. -/
theorem Takes.consumes {α : Type} {reader : Reader α} {made : Tokens → α → Prop}
    (takes : Takes reader made) (nonempty : ∀ tokens value, made tokens value → tokens ≠ []) :
    Consumes reader := by
  intro cursor value after read
  obtain ⟨taken, split, form⟩ := takes cursor value after read
  have positive := length_pos_iff.mpr (nonempty taken value form)
  rw [Cursor.remaining, Cursor.remaining, split, length_append]
  omega

/-- A statement passes over a token. -/
theorem statement_consumes (allowance : Nat) : Consumes (statement allowance (innerBlock allowance)) := by
  refine (statement_takes ?_).consumes fun _ _ made => made.ne_nil
  cases allowance with
  | zero => exact nofun
  | succ allowance =>
    rintro reader ⟨⟩
    exact ⟨allowance, rfl, block_takes allowance⟩

/-- A slot takes its name. -/
theorem remaining_lt_of_slot {value : Slot WrittenType}
    (read : (slot cursor).result = .ok (value, after)) : after.remaining < cursor.remaining := by
  obtain ⟨⟨attributes, afterDecorators⟩, decorated, read⟩ := noted_bind_eq_ok.mp read
  obtain ⟨⟨⟨name, span⟩, afterName⟩, named, read⟩ := noted_bind_eq_ok.mp read
  obtain ⟨afterColon, colon, read⟩ := noted_bind_eq_ok.mp read
  obtain ⟨⟨written, final⟩, typed, read⟩ := noted_bind_eq_ok.mp read
  cases read
  have behindName : after.remaining ≤ afterName.remaining :=
    (((writtenType_advances _).suffix typed).trans (expect_suffix colon)).length_le
  have one := remaining_of_identifier named
  have behindDecorators : afterDecorators.remaining ≤ cursor.remaining :=
    ((decorators_advance _).suffix decorated).length_le
  omega

/-- An item that is read takes a token. -/
theorem remaining_lt_of_item {declaration : Declaration}
    (read : (item cursor).result = .ok (declaration, next)) :
    next.remaining < cursor.remaining := by
  obtain ⟨taken, last, split, _⟩ := item_takes read
  rw [Cursor.remaining, Cursor.remaining, split, length_append, length_cons]
  omega

/-- A broken item is passed over by a token at least. -/
theorem length_recover_lt (ahead : cursor.rest ≠ []) (failure : Failure) :
    (recover cursor failure).2.length < cursor.remaining := by
  have passed := (synchronize_suffix (depthAfter 0 (cursor.rest.take
    (max 1 (cursor.remaining - failure.cursor.remaining)))) (cursor.rest.drop
      (max 1 (cursor.remaining - failure.cursor.remaining)))).length_le
  have positive := length_pos_iff.mpr ahead
  rw [length_drop] at passed
  unfold recover Cursor.remaining at *
  dsimp only
  omega

section Steps

variable {α β : Type}

/-- Readings go on alike if they do behind every value. -/
theorem bind_congr_ok {first : Except Failure α} {next other : α → Except Failure β}
    (same : ∀ value, first = .ok value → next value = other value) :
    (first >>= next) = (first >>= other) := by
  cases first with
  | error failure => rfl
  | ok value => exact same value rfl

/-- Noted readings go on alike if they do behind every value. -/
theorem noted_bind_congr_ok {first : Noted α} {next other : α → Noted β}
    (same : ∀ value, first.result = .ok value → next value = other value) :
    (first >>= next) = (first >>= other) := by
  obtain ⟨notes, outcome⟩ := first
  cases outcome with
  | error failure => rfl
  | ok value =>
    show Noted.andThen _ next = Noted.andThen _ other
    simp only [Noted.andThen, same value rfl]

/-- The end stands behind the last token. -/
theorem Cursor.peek_of_remaining (none : cursor.remaining = 0) : cursor.peek = .eof := by
  simp only [Cursor.peek, eq_nil_of_length_eq_zero none]

/-- Readers do not go back. -/
theorem Advances.remaining_le {reader : Reader α} (advances : Advances reader) {value : α}
    (read : reader cursor = .ok (value, after)) : after.remaining ≤ cursor.remaining :=
  (advances.suffix read).length_le

end Steps

/-- One round of the loop over values up to `closing`. -/
def listedStep {α : Type} (closing : Token) (item : Reader α) (again : Reader (List α)) : Reader (List α) :=
  fun cursor => if cursor.peek = closing then .ok ([], cursor) else separatedStep item again cursor

/-- One round of the loop over statements. -/
def statementsStep (item : Reader Stmt) (again : Reader (List Stmt)) : Reader (List Stmt) :=
  fun cursor =>
    if cursor.peek = .rightBrace || cursor.atEnd then .ok ([], cursor)
    else do
      let (first, cursor) ← item cursor
      let (rest, cursor) ← again cursor
      .ok (first :: rest, cursor)

/-- One round of the loop over decorators. -/
def decoratorsStep (again : Cursor → Noted (List Attribute × Cursor)) (cursor : Cursor) :
    Noted (List Attribute × Cursor) :=
  if cursor.peek = .atSign then do
    let (first, cursor) ← decorator cursor
    let (rest, cursor) ← again cursor
    return (first.toList ++ rest, cursor)
  else return ([], cursor)

/-- One round of the loop over parameters. -/
def parametersStep (again : Cursor → Noted (List (Slot WrittenType) × Cursor)) (cursor : Cursor) :
    Noted (List (Slot WrittenType) × Cursor) :=
  if cursor.peek = .rightParen then return ([], cursor)
  else do
    let (first, cursor) ← slot cursor
    match cursor.eat? .comma with
    | none => return ([first], cursor)
    | some cursor =>
      let (rest, cursor) ← again cursor
      return (first :: rest, cursor)

/-- One round of the loop over fields. -/
def fieldsStep (again : Cursor → Noted (List (Slot WrittenType) × Cursor)) (cursor : Cursor) :
    Noted (List (Slot WrittenType) × Cursor) :=
  if cursor.peek = .rightBrace || cursor.atEnd then return ([], cursor)
  else do
    let (first, cursor) ← slot cursor
    let cursor := match cursor.eat? .comma with
      | some next => next
      | none => cursor.skip .semicolon
    let (rest, cursor) ← again cursor
    return (first :: rest, cursor)

/-- One round of the loop over what precedes an item. -/
def headingStep (again : Heading × Cursor → Noted (Heading × Cursor)) :
    Heading × Cursor → Noted (Heading × Cursor)
  | (found, cursor) =>
    match cursor.peek with
    | .visibilityComment stages => again ({ found with commented := some stages }, cursor.advance)
    | .atSign => do
      let (next, cursor) ← decorator cursor
      again ({ found with attributes := found.attributes ++ next.toList }, cursor)
    | _ => return (found, cursor)

/-- One round of the loop over items. -/
def itemsStep (again : Cursor → Reading) (cursor : Cursor) : Reading :=
  if cursor.atEnd then ⟨some [], []⟩
  else
    let read := item cursor
    match read.result with
    | .ok (declaration, next) => (again next).prepend read.notes (some declaration)
    | .error failure =>
      let notes := read.notes ++ [failure.diagnostic]
      let (depth, rest) := recover cursor failure
      if depth = 0 then (again { failure.cursor with rest }).prepend notes none
      else ⟨none, if failure.cursor.atEnd then notes else notes ++ [unterminated cursor.finish]⟩

section Values

variable {α : Type} {item : Reader α}

/-- A round reads alike if its parts do. -/
theorem separatedStep_congr (advances : Advances item) {otherItem : Reader α}
    {again other : Reader (List α)} (same : item cursor = otherItem cursor)
    (later : ∀ inner, inner.remaining < cursor.remaining → again inner = other inner) :
    separatedStep item again cursor = separatedStep otherItem other cursor := by
  unfold separatedStep
  rw [← same]
  refine bind_congr_ok fun (first, middle) read => ?_
  have behind := advances.remaining_le read
  dsimp only
  cases eaten : middle.eat? .comma with
  | none => rfl
  | some next =>
    have one := remaining_of_eat? eaten nofun
    dsimp only
    rw [later next (by omega)]

/-- Every round but the last takes a comma. -/
theorem separated_needs_no_bound (advances : Advances item) :
    NeedsNoBound Cursor.remaining (separatedStep item) (separated item) := by
  apply NeedsNoBound.of_smaller
  · intro cursor other ended
    refine bind_congr_ok fun (first, middle) read => ?_
    have behind := advances.remaining_le read
    dsimp only
    cases eaten : middle.eat? .comma with
    | none => rfl
    | some next =>
      have one := remaining_of_eat? eaten nofun
      omega
  · intro bound cursor other _ later
    exact separatedStep_congr advances rfl later

/-- Every round up to a closing token takes a comma. -/
theorem listed_needs_no_bound {closing : Token} (advances : Advances item) :
    NeedsNoBound (·.remaining + 1) (listedStep closing item) (listed closing item) := by
  apply NeedsNoBound.of_smaller
  · intro cursor other ended
    cases ended
  · intro bound cursor other _ later
    show listedStep closing item (listed closing item bound) cursor = listedStep closing item other cursor
    unfold listedStep
    rw [separatedStep_congr advances rfl fun inner fewer => later inner (by omega)]

end Values

/-- Statements: every one takes a token. -/
theorem statements_need_no_bound {item : Reader Stmt} (consumes : Consumes item) :
    NeedsNoBound Cursor.remaining (statementsStep item) (statements item) := by
  apply NeedsNoBound.of_smaller
  · intro cursor other ended
    have atEnd := atEnd_of_remaining (Nat.le_of_eq ended)
    rw [statements, statementsStep, if_pos (by simp [atEnd])]
  · intro bound cursor other _ later
    show statementsStep item (statements item bound) cursor = statementsStep item other cursor
    unfold statementsStep
    congr 1
    refine bind_congr_ok ?_
    rintro ⟨first, middle⟩ read
    dsimp only
    rw [later middle (consumes cursor first middle read)]

/-- Decorators: every one takes its at sign. -/
theorem decorators_need_no_bound : NeedsNoBound Cursor.remaining decoratorsStep decorators := by
  apply NeedsNoBound.of_smaller
  · intro cursor other ended
    have unsigned : cursor.peek ≠ .atSign := fun signed => by
      have one := remaining_of_peek signed (by simp)
      omega
    rw [decorators, decoratorsStep, if_neg unsigned]
  · intro bound cursor other _ later
    show decoratorsStep (decorators bound) cursor = decoratorsStep other cursor
    unfold decoratorsStep
    congr 1
    refine noted_bind_congr_ok ?_
    rintro ⟨first, middle⟩ read
    dsimp only
    rw [later middle (remaining_lt_of_decorator read)]

/-- Parameters: every one takes its name. -/
theorem parameters_need_no_bound : NeedsNoBound (·.remaining + 1) parametersStep parameters := by
  apply NeedsNoBound.of_smaller
  · intro cursor other ended
    cases ended
  · intro bound cursor other _ later
    show parametersStep (parameters bound) cursor = parametersStep other cursor
    unfold parametersStep
    congr 1
    refine noted_bind_congr_ok fun (first, middle) read => ?_
    have shorter := remaining_lt_of_slot read
    dsimp only
    cases eaten : middle.eat? .comma with
    | none => rfl
    | some next =>
      have one := remaining_of_eat? eaten nofun
      dsimp only
      rw [later next (by omega)]

/-- Fields: every one takes its name. -/
theorem fields_need_no_bound : NeedsNoBound Cursor.remaining fieldsStep fields := by
  apply NeedsNoBound.of_smaller
  · intro cursor other ended
    have atEnd := atEnd_of_remaining (Nat.le_of_eq ended)
    rw [fields, fieldsStep, if_pos (by simp [atEnd])]
  · intro bound cursor other _ later
    show fieldsStep (fields bound) cursor = fieldsStep other cursor
    unfold fieldsStep
    congr 1
    refine noted_bind_congr_ok ?_
    rintro ⟨first, middle⟩ read
    have shorter := remaining_lt_of_slot read
    dsimp only
    cases eaten : middle.eat? .comma with
    | none =>
      have behind : (middle.skip .semicolon).remaining ≤ middle.remaining :=
        (middle.reaches_skip .semicolon).rest.length_le
      dsimp only
      rw [later (middle.skip .semicolon) (by omega)]
    | some next =>
      have one := remaining_of_eat? eaten (by simp)
      dsimp only
      rw [later next (by omega)]

/-- Before an item, each comment or decorator takes a token. -/
theorem heading_needs_no_bound :
    NeedsNoBound (·.2.remaining) headingStep fun bound (found, cursor) => heading bound found cursor := by
  apply NeedsNoBound.of_smaller
  · rintro ⟨found, cursor⟩ other ended
    simp only [heading, headingStep, peek_of_remaining ended]
  · rintro bound ⟨found, cursor⟩ other _ later
    show headingStep (fun start => heading bound start.1 start.2) (found, cursor) =
      headingStep other (found, cursor)
    unfold headingStep
    dsimp only
    split
    · rename_i stages ahead
      have one := remaining_of_peek ahead (by simp)
      exact later (_, cursor.advance) (by dsimp only; omega)
    · refine noted_bind_congr_ok ?_
      rintro ⟨next, middle⟩ read
      exact later (_, middle) (remaining_lt_of_decorator read)
    · rfl

/-- An item takes a token, or one is passed over. -/
theorem items_need_no_bound : NeedsNoBound Cursor.remaining itemsStep items := by
  apply NeedsNoBound.of_smaller
  · intro cursor other ended
    have atEnd := atEnd_of_remaining (Nat.le_of_eq ended)
    rw [items, itemsStep, if_pos atEnd]
  · intro bound cursor other _ later
    show itemsStep (items bound) cursor = itemsStep other cursor
    unfold itemsStep
    by_cases ended : cursor.atEnd
    · rw [if_pos ended, if_pos ended]
    · rw [if_neg ended, if_neg ended]
      dsimp only
      cases read : (item cursor).result with
      | ok result =>
        obtain ⟨declaration, next⟩ := result
        dsimp only
        rw [later next (remaining_lt_of_item read)]
      | error failure =>
        have ahead : cursor.rest ≠ [] := by simpa [Cursor.atEnd] using ended
        have passed := length_recover_lt ahead failure
        dsimp only
        rw [later { failure.cursor with rest := (recover cursor failure).2 } passed]

end Shading.Surface
