import Shading.Proofs.ItemWays

/-!
# Readers pass over tokens

A reader never goes back and never makes tokens up: the cursor that it gives, and the one where it
fails, is reached from its start by passing over tokens.
-/

namespace Shading.Surface

variable {cursor start : Cursor}

/-- The result of noted steps is that of the steps without notes. -/
theorem Noted.result_bind {α β : Type} (first : Noted α) (next : α → Noted β) :
    (first >>= next).result = (first.result >>= fun value => (next value).result) := by
  obtain ⟨notes, outcome⟩ := first
  cases outcome <;> rfl

/-- The cursor `after` is reached by passing over tokens. -/
structure Cursor.Reaches (start after : Cursor) : Prop where
  rest : after.rest <:+ start.rest
  finish : after.finish = start.finish
  previous : after.previous = start.previous ∨ ∃ located ∈ start.rest, after.previous = located.span

namespace Cursor

variable {middle after : Cursor}

/-- A cursor reaches itself. -/
theorem Reaches.refl (cursor : Cursor) : cursor.Reaches cursor :=
  ⟨List.suffix_refl _, rfl, .inl rfl⟩

/-- Tokens can be passed over in turn. -/
theorem Reaches.trans (first : start.Reaches middle) (second : middle.Reaches after) :
    start.Reaches after where
  rest := second.rest.trans first.rest
  finish := second.finish.trans first.finish
  previous := by
    rcases second.previous with same | ⟨located, member, same⟩
    · rw [same]
      exact first.previous
    · exact .inr ⟨located, first.rest.subset member, same⟩

/-- One token is passed over. -/
theorem reaches_advance (cursor : Cursor) : cursor.Reaches cursor.advance := by
  unfold advance
  split
  · exact .refl cursor
  · rename_i located rest ahead
    refine ⟨?_, rfl, .inr ⟨located, ?_, rfl⟩⟩
    · rw [ahead]
      exact List.suffix_cons located rest
    · simp [ahead]

/-- A taken token is passed over. -/
theorem reaches_eat? {token : Token} (eaten : start.eat? token = some after) : start.Reaches after := by
  unfold eat? at eaten
  split at eaten
  · rw [← Option.some.inj eaten]
    exact start.reaches_advance
  · cases eaten

/-- A skipped token is passed over. -/
theorem reaches_skip (cursor : Cursor) (token : Token) : cursor.Reaches (cursor.skip token) := by
  unfold skip
  split
  · exact cursor.reaches_advance
  · exact .refl cursor

/-- A result whose cursor, or that of its failure, is reached. -/
def Lands {α : Type} (start : Cursor) (behind : α → Cursor) (result : Except Failure α) : Prop :=
  match result with
  | .ok value => start.Reaches (behind value)
  | .error failure => start.Reaches failure.cursor

section Results

variable {α β : Type} {behind : α → Cursor} {further : β → Cursor} {result : Except Failure α}

/-- What is read ends at a cursor that is reached. -/
theorem Lands.reaches (lands : start.Lands behind result) {value : α} (read : result = .ok value) :
    start.Reaches (behind value) := by
  rw [read] at lands
  exact lands

/-- What lands from further on lands. -/
theorem Lands.of_reaches (reached : start.Reaches middle) (lands : middle.Lands behind result) :
    start.Lands behind result := by
  cases result with
  | ok | error => exact reached.trans lands

/-- A value that ends at a reached cursor lands. -/
theorem Lands.done {value : α} (reached : start.Reaches (behind value)) :
    start.Lands behind (.ok value) := reached

/-- Two noted steps one behind the other land if both do. -/
theorem Lands.noted {first : Noted α} (lands : start.Lands behind first.result) {next : α → Noted β}
    (second : ∀ value, (behind value).Lands further (next value).result) :
    start.Lands further (first >>= next).result := by
  rw [Noted.result_bind]
  cases outcome : first.result with
  | ok value =>
    rw [outcome] at lands
    exact .of_reaches lands (second value)
  | error failure =>
    rw [outcome] at lands
    exact lands

end Results

end Cursor

open Cursor (Lands)

/-- A reader passes over tokens. -/
def Advances {α : Type} (reader : Reader α) : Prop :=
  ∀ cursor : Cursor, cursor.Lands Prod.snd (reader cursor)

/-- A reader with notes passes over tokens. -/
def NotedAdvances {α : Type} (reader : Cursor → Noted (α × Cursor)) : Prop :=
  Advances fun cursor => (reader cursor).result

section Readers

variable {α : Type} {after : Cursor} {value : α} {reader : Reader α} (advances : Advances reader)

include advances

/-- The cursor behind what is read is reached. -/
theorem Advances.reaches (read : reader cursor = .ok (value, after)) : cursor.Reaches after :=
  (advances cursor).reaches read

/-- What a reader leaves are the last of the tokens ahead. -/
theorem Advances.suffix (read : reader cursor = .ok (value, after)) : after.rest <:+ cursor.rest :=
  (advances.reaches read).rest

/-- The cursor of a failure is reached. -/
theorem Advances.reaches_failure {failure : Failure} (read : reader cursor = .error failure) :
    cursor.Reaches failure.cursor := by
  have lands := advances cursor
  rw [read] at lands
  exact lands

end Readers

/-- An expected token lands. -/
theorem expect_lands (token : Token) (cursor : Cursor) : cursor.Lands id (expect token cursor) := by
  unfold expect
  split
  · rename_i next eaten
    exact .done (Cursor.reaches_eat? eaten)
  · exact .refl cursor

/-- Behind an expected token the rest is left. -/
theorem expect_suffix {token : Token} {next : Cursor} (read : expect token cursor = .ok next) :
    next.rest <:+ cursor.rest :=
  ((expect_lands token cursor).reaches read).rest

/-- The way from `start` on, which both cursors go along. -/
def Ways.along (start : Cursor) : Ways where
  Parallel _ _ cursor twin := cursor = twin ∧ start.Reaches cursor
  Failed failure _ := start.Reaches failure.cursor
  forget parallel := parallel
  next := by
    rintro _ depth cursor _ ⟨rfl, reached⟩
    cases ahead : cursor.rest with
    | nil => exact .inr (.inl ⟨rfl, rfl⟩)
    | cons located rest => exact .inl ⟨located, _, _, rfl, rfl, rfl, reached.trans cursor.reaches_advance⟩
  fails parallel _ _ := parallel.2
  undecorated := by
    rintro _ _ _ _ _ _ _ _ _ _ _ ⟨rfl, _⟩ parted
    exact parted.ne_of_plain
  unkeyed := by
    rintro _ _ _ _ _ _ _ _ _ ⟨rfl, _⟩ parted
    exact parted.ne_of_plain

/-- One bound is enough along one way. -/
theorem Ways.along_sized (start : Cursor) : (Ways.along start).Sized := .of_eq And.left

section Along

variable {α : Type} {taken : Bool} {depth final : Nat}

/-- What is matched along one way lands. -/
theorem Ways.Matched.lands {result other : Except Failure (α × Cursor)}
    (matched : (Ways.along start).Matched ((Ways.along start).Read taken depth) result other) :
    start.Lands Prod.snd result := by
  cases matched with
  | ok both =>
    obtain ⟨twins⟩ := both
    exact twins.parallel.2
  | error failed => exact failed

/-- What lands is matched along one way. -/
theorem Cursor.Lands.read {result : Except Failure (α × Cursor)} (lands : start.Lands Prod.snd result) :
    (Ways.along start).Matched ((Ways.along start).Read taken depth) result result := by
  cases result with
  | ok read => exact .ok ⟨rfl, rfl, lands⟩
  | error failure => exact .error lands

/-- A cursor that lands is matched along one way. -/
theorem Cursor.Lands.twins {result : Except Failure Cursor} (lands : start.Lands id result) :
    (Ways.along start).Matched ((Ways.along start).Twins taken depth) result result := by
  cases result with
  | ok cursor => exact .ok ⟨rfl, rfl, lands⟩
  | error failure => exact .error lands

/-- A cursor is its own twin. -/
theorem Ways.along_twins (cursor : Cursor) : (Ways.along cursor).Twins taken depth cursor cursor :=
  ⟨rfl, rfl, .refl cursor⟩

/-- A reader that agrees with itself along one way passes over tokens. -/
theorem Advances.of_agrees (depth : Nat) {reader : Reader α}
    (agrees : ∀ start, (Ways.along start).Agrees true depth final reader reader) : Advances reader :=
  fun cursor => (agrees cursor cursor cursor (Ways.along_twins cursor)).lands

/-- A noted reader that agrees with itself passes over tokens. -/
theorem NotedAdvances.of_agrees (depth : Nat) {reader : Cursor → Noted (α × Cursor)}
    (agrees : ∀ start, (Ways.along start).NotedAgrees depth final reader) : NotedAdvances reader :=
  fun cursor => (agrees cursor cursor cursor (Ways.along_twins cursor)).result.lands

/-- A reader that passes over tokens agrees with itself. -/
theorem Advances.agrees {reader : Reader α} (advances : Advances reader) :
    (Ways.along start).Agrees taken depth final reader reader := by
  rintro cursor _ ⟨_, rfl, reached⟩
  exact (Lands.of_reaches reached (advances cursor)).read

end Along

open Ways (along_sized)

/-- Names pass over tokens. -/
theorem identifier_advances : Advances identifier :=
  .of_agrees 0 fun _ _ _ twins => twins.parallel.identifier

/-- Types pass over tokens. -/
theorem writtenType_advances (allowance : Nat) : Advances (writtenType allowance) :=
  .of_agrees 0 fun start => Ways.writtenType_agrees (along_sized start) allowance 0

/-- Type arguments pass over tokens. -/
theorem innerArguments_advance (allowance : Nat) : Advances (typeArguments (innerType allowance)) :=
  .of_agrees 0 fun start => Ways.innerArguments_agree (along_sized start) allowance 0

/-- Inner types pass over tokens. -/
theorem innerType_advances (allowance : Nat) : ∀ reader ∈ innerType allowance, Advances reader := by
  cases allowance with
  | zero => exact nofun
  | succ allowance =>
    rintro reader ⟨⟩
    exact writtenType_advances allowance

/-- An argument of a type passes over tokens. -/
theorem typeArgument_advances {inner : Option (Reader WrittenType)}
    (advances : ∀ reader ∈ inner, Advances reader) : Advances (typeArgument inner) := by
  refine .of_agrees 0 fun start => Ways.typeArgument_agrees ?_ 0
  cases inner with
  | none => exact .none
  | some reader => exact .some fun depth => (advances reader rfl).agrees

/-- A deeper level passes over tokens. -/
theorem nested_advances {α : Type} {below : Option Level} {reader : Level → Reader α}
    (each : ∀ level ∈ below, Advances (reader level)) : Advances (nested below reader) := by
  intro cursor
  cases below with
  | none => exact .refl cursor
  | some level => exact each level rfl cursor

/-- Expressions pass over tokens. -/
theorem expression_advances (allowance : Nat) : Advances (expression allowance) :=
  .of_agrees 1 fun start => (Ways.level_agrees (along_sized start) allowance).binary 1 0

/-- Blocks pass over tokens. -/
theorem block_advances (allowance : Nat) : Advances (block allowance) :=
  .of_agrees 0 fun start => Ways.block_agrees (along_sized start) allowance 0

/-- An argument of a decorator passes over tokens. -/
theorem decoratorArgument_advances : Advances decoratorArgument :=
  .of_agrees 1 fun _ => Ways.decoratorArgument_agrees 0

/-- Arguments of decorators pass over tokens. -/
theorem decoratorArguments_advances : Advances decoratorArguments :=
  .of_agrees 0 fun start => Ways.decoratorArguments_agrees (along_sized start) 0

/-- A decorator lands where its at sign does. -/
theorem decorator_lands (sign : start.Lands id (expect .atSign cursor)) :
    start.Lands Prod.snd (decorator cursor).result :=
  (@Ways.Matched.decorator _ 0 (along_sized start) _ _ sign.twins).result.lands

/-- A decorator passes over tokens. -/
theorem decorator_advances : NotedAdvances decorator :=
  fun cursor => decorator_lands (expect_lands .atSign cursor)

/-- Decorators pass over tokens. -/
theorem decorators_advance (bound : Nat) : NotedAdvances (decorators bound) :=
  .of_agrees 1 fun start _ _ twins => twins.decorators (along_sized start) bound (by simp)

/-- Parameters pass over tokens. -/
theorem parameters_advance (bound : Nat) : NotedAdvances (parameters bound) :=
  .of_agrees 1 fun start => Ways.parameters_agree (along_sized start) 0 bound

/-- Fields pass over tokens. -/
theorem fields_advance (bound : Nat) : NotedAdvances (fields bound) :=
  .of_agrees 1 fun start => Ways.fields_agree (along_sized start) 0 bound

/-- A result passes over tokens. -/
theorem returnPart_advances : NotedAdvances returnPart :=
  .of_agrees 0 fun start => Ways.returnPart_agrees (along_sized start)

/-- A function lands where its keyword does. -/
theorem function_lands (attributes : List Attribute)
    (keyword : start.Lands id (expect .fnKeyword cursor)) :
    start.Lands Prod.snd (function attributes cursor).result :=
  (keyword.twins.function (along_sized start) attributes).result.lands

/-- A struct lands where its keyword does. -/
theorem struct_lands (keyword : start.Lands id (expect .structKeyword cursor)) :
    start.Lands Prod.snd (struct cursor).result :=
  (keyword.twins.struct (along_sized start)).result.lands

/-- The keyword of a uniform lands. -/
theorem uniformKeyword_lands (cursor : Cursor) : cursor.Lands id (uniformKeyword cursor) := by
  unfold uniformKeyword
  split
  · rename_i next eaten
    have space := Ways.Twins.addressSpace (Ways.along_twins next)
    refine .of_reaches (Cursor.reaches_eat? eaten) ?_
    generalize addressSpace next = result at space ⊢
    cases space with
    | ok twins => exact twins.parallel.2
    | error failed => exact failed
  · exact expect_lands .uniformKeyword cursor

/-- Behind the keyword of a uniform the rest is left. -/
theorem uniformKeyword_suffix {next : Cursor} (read : uniformKeyword cursor = .ok next) :
    next.rest <:+ cursor.rest :=
  ((uniformKeyword_lands cursor).reaches read).rest

/-- A heading passes over tokens. -/
theorem heading_advances (bound : Nat) (found : Heading) : NotedAdvances (heading bound found) := by
  induction bound generalizing found with
  | zero => exact fun cursor => .done (.refl cursor)
  | succ bound ih =>
    intro cursor
    simp only [heading]
    split
    · exact .of_reaches cursor.reaches_advance (ih _ cursor.advance)
    · exact (decorator_advances cursor).noted fun read => ih _ read.2
    · exact .done (.refl cursor)

/-- An item lands where its heading does. -/
theorem item_lands
    (headed : start.Lands Prod.snd (heading cursor.remaining {} cursor).result) :
    start.Lands Prod.snd (item cursor).result := by
  have alike {middle : Cursor} (reached : start.Reaches middle) : (Ways.along start).Alike 0 middle middle :=
    ⟨rfl, fun _ => rfl, rfl, fun _ => ⟨rfl, rfl, reached.trans middle.reaches_advance⟩⟩
  have headings : (Ways.along start).NotedMatched ((Ways.along start).HeadedAlike fun _ => False)
      (heading cursor.remaining {} cursor) (heading cursor.remaining {} cursor) := by
    refine ⟨rfl, ?_⟩
    generalize (heading cursor.remaining {} cursor).result = result at headed ⊢
    cases result with
    | ok read => exact .ok ⟨rfl, .inl rfl, alike headed, rfl, headed⟩
    | error failure => exact .error headed
  exact (headings.item (along_sized start) False.elim).result.lands

/-- Items pass over tokens. -/
theorem item_advances : NotedAdvances item :=
  fun cursor => item_lands (heading_advances _ _ cursor)

end Shading.Surface
