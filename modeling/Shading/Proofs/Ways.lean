import Shading.Proofs.Derivations

/-!
# Reading along two ways

Two cursors go along two ways. In brackets the same token always comes next along both. Outside brackets
they may part: then along one way the input ends or goes on with a comment, and along the other it ends
or an item may start, and nothing that is being read goes on with either. So two readers that are built
alike read the same along both ways, or they fail at the same place. Two lists of tokens may be two
ways, as may one list that is read twice.
-/

namespace Shading.Surface

variable {token : Token}

/-! ### Decorators and comments in front of items -/

/-- Whether a token is a visibility comment. -/
def isComment (located : LocatedToken) : Bool :=
  match located.token with
  | .visibilityComment _ => true
  | _ => false

/-- Visibility comments are the tokens with stages. -/
theorem isComment_iff {located : LocatedToken} :
    isComment located = true ↔ ∃ stages, located.token = .visibilityComment stages := by
  obtain ⟨token, span⟩ := located
  cases token <;> simp [isComment]

/-- Whether a token is a name or a number, as decorators take them. -/
def isDecoratorArgument : Token → Bool
  | .identifier _ | .number _ => true
  | _ => false

/-- The tokens of decorator arguments, divided by commas; a comma may stand behind the last. -/
inductive DecoratorArgumentsForm : List Token → Prop where
  | nil : DecoratorArgumentsForm []
  | last {argument : Token} (plain : isDecoratorArgument argument) : DecoratorArgumentsForm [argument]
  | cons {argument : Token} {rest : List Token} (plain : isDecoratorArgument argument)
      (others : DecoratorArgumentsForm rest) : DecoratorArgumentsForm (argument :: .comma :: rest)

/-- The tokens of a decorator: an at sign, a name, perhaps arguments in parentheses. -/
inductive DecoratorForm : List Token → Prop where
  | plain (name : String) : DecoratorForm [.atSign, .identifier name]
  | applied (name : String) {arguments : List Token} (listed : DecoratorArgumentsForm arguments) :
      DecoratorForm (.atSign :: .identifier name :: .leftParen :: (arguments ++ [.rightParen]))

/-- The tokens of decorators, one behind the other. -/
inductive DecoratorsForm : List Token → Prop where
  | nil : DecoratorsForm []
  | cons {tokens rest : List Token} (first : DecoratorForm tokens) (others : DecoratorsForm rest) :
      DecoratorsForm (tokens ++ rest)

/-- The tokens of decorators and visibility comments in a row. -/
inductive HeadingForm : List Token → Prop where
  | nil : HeadingForm []
  | comment (stages : List Stage) {rest : List Token} (others : HeadingForm rest) :
      HeadingForm (.visibilityComment stages :: rest)
  | decorator {tokens rest : List Token} (first : DecoratorForm tokens) (others : HeadingForm rest) :
      HeadingForm (tokens ++ rest)

/-- Decorators and comments stand before `uniform` or `var`. -/
def HeadsUniform (tokens : List LocatedToken) : Prop :=
  ∃ heading next rest, tokens.map LocatedToken.token = heading ++ next :: rest ∧
    HeadingForm heading ∧ (next = .uniformKeyword ∨ next = .varKeyword)

/-- The tokens end with an arrow and decorators behind it. -/
def EndsInResult (tokens : List LocatedToken) : Prop :=
  ∃ front decorators, tokens.map LocatedToken.token = front ++ .arrow :: decorators ∧
    DecoratorsForm decorators

/-! ### Ways -/

/-- Two ways part: the first ends or goes on with a comment, and the second ends or an item may
start. -/
structure Parted (rest other : Tokens) : Prop where
  comment : ∀ next ∈ rest.head?, isComment next
  starts : ∀ next ∈ other.head?, startsItem next.token

/-- Two ways along which the same is read. -/
structure Ways where
  /-- Cursors at the same place of both ways, where `depth` brackets are open. A token may be known to have
  been taken. -/
  Parallel : (taken : Bool) → (depth : Nat) → (cursor twin : Cursor) → Prop
  /-- Failures that answer each other along both ways. -/
  Failed : Failure → Failure → Prop
  forget {taken : Bool} {depth : Nat} {cursor twin : Cursor} (parallel : Parallel true depth cursor twin) :
    Parallel taken depth cursor twin
  /-- The same token comes next along both ways, or both have ended, or they part outside brackets. -/
  next {taken : Bool} {depth : Nat} {cursor twin : Cursor} (parallel : Parallel taken depth cursor twin) :
    (∃ located rest other, cursor.rest = located :: rest ∧ twin.rest = located :: other ∧
      Parallel true (located.token.depthAfter depth) cursor.advance twin.advance) ∨
    (cursor.rest = [] ∧ twin.rest = []) ∨ (depth = 0 ∧ Parted cursor.rest twin.rest)
  /-- An error that may name the next token is the same along both ways but for that token. -/
  fails {taken : Bool} {depth : Nat} {cursor twin : Cursor} (parallel : Parallel taken depth cursor twin)
    (error : Token → SyntaxError) (code : ∀ token other, (error token).code = (error other).code) :
    Failed ⟨error cursor.peek, cursor⟩ ⟨error twin.peek, twin⟩
  /-- Where they part behind the decorators of a result, no other decorator follows. -/
  undecorated {taken later : Bool} {start twinStart cursor twin : Cursor} {arrow : Span}
    {front : Tokens} (parallel : Parallel taken 0 start twinStart)
    (ahead : start.rest = ⟨.arrow, arrow⟩ :: (front ++ cursor.rest))
    (form : DecoratorsForm (front.map LocatedToken.token)) (behind : Parallel later 0 cursor twin)
    (parted : Parted cursor.rest twin.rest) : twin.peek ≠ .atSign
  /-- Where they part in front of an address space, it does not follow. -/
  unkeyed {taken later : Bool} {start twinStart cursor twin : Cursor} {less : Span}
    (parallel : Parallel taken 0 start twinStart) (ahead : start.rest = ⟨.less, less⟩ :: cursor.rest)
    (behind : Parallel later 0 cursor twin) (parted : Parted cursor.rest twin.rest) :
    twin.peek ≠ .uniformKeyword

/-- Where ways part, only a comment comes next along the first. -/
theorem Parted.ne_of_plain {cursor : Cursor} {other : Tokens} (parted : Parted cursor.rest other)
    (real : token ≠ .eof := by simp)
    (plain : ∀ stages, token ≠ .visibilityComment stages := by simp) : cursor.peek ≠ token := by
  intro here
  have comment := parted.comment ⟨token, cursor.span⟩ (by rw [Cursor.rest_of_peek here real]; rfl)
  obtain ⟨stages, same⟩ := isComment_iff.mp comment
  exact plain stages same

/-- A token that may come next in an item, but starts none. -/
class IsInner (token : Token) : Prop where
  quiet : startsItem token = false
  real : token ≠ .eof

instance (name : String) : IsInner (.identifier name) := ⟨rfl, by simp⟩
instance (literal : Number) : IsInner (.number literal) := ⟨rfl, by simp⟩
instance : IsInner .comma := ⟨rfl, by simp⟩
instance : IsInner .colon := ⟨rfl, by simp⟩
instance : IsInner .semicolon := ⟨rfl, by simp⟩
instance : IsInner .assign := ⟨rfl, by simp⟩
instance : IsInner .arrow := ⟨rfl, by simp⟩
instance : IsInner .less := ⟨rfl, by simp⟩
instance : IsInner .greater := ⟨rfl, by simp⟩
instance : IsInner .leftParen := ⟨rfl, by simp⟩
instance : IsInner .rightParen := ⟨rfl, by simp⟩
instance : IsInner .rightBracket := ⟨rfl, by simp⟩
instance : IsInner .leftBrace := ⟨rfl, by simp⟩
instance : IsInner .rightBrace := ⟨rfl, by simp⟩

/-- A token that starts no item is no comment. -/
theorem IsInner.plain (inner : IsInner token) (stages : List Stage) : token ≠ .visibilityComment stages := by
  rintro rfl
  cases inner.quiet

/-- Nothing that starts no item comes next where ways part. -/
theorem Parted.peek_ne {cursor twin : Cursor} (parted : Parted cursor.rest twin.rest) (token : Token)
    [inner : IsInner token] : cursor.peek ≠ token ∧ twin.peek ≠ token := by
  refine ⟨parted.ne_of_plain inner.real inner.plain, fun there => ?_⟩
  have starts := parted.starts ⟨token, twin.span⟩ (by rw [Cursor.rest_of_peek there inner.real]; rfl)
  rw [inner.quiet] at starts
  cases starts

namespace Ways

/-- Cursors at the same place behind the same token. -/
structure Twins (ways : Ways) (taken : Bool) (depth : Nat) (cursor twin : Cursor) : Prop where
  previous : cursor.previous = twin.previous
  parallel : ways.Parallel taken depth cursor twin

/-- Related values, or failures that answer each other. -/
inductive Matched (ways : Ways) {α β : Type} (related : α → β → Prop) :
    Except Failure α → Except Failure β → Prop where
  | ok {value : α} {other : β} (both : related value other) : Matched ways related (.ok value) (.ok other)
  | error {failure other : Failure} (failed : ways.Failed failure other) :
      Matched ways related (.error failure) (.error other)

/-- The same value with cursors at the same place. -/
inductive Read (ways : Ways) {α : Type} (taken : Bool) (depth : Nat) : α × Cursor → α × Cursor → Prop where
  | same {value : α} {cursor twin : Cursor} (twins : ways.Twins taken depth cursor twin) :
      Read ways taken depth (value, cursor) (value, twin)

/-- Two readers read the same where `depth` brackets are open, and `final` behind. -/
def Agrees (ways : Ways) {α : Type} (taken : Bool) (depth final : Nat) (reader other : Reader α) : Prop :=
  ∀ cursor twin, ways.Twins taken depth cursor twin →
    ways.Matched (ways.Read taken final) (reader cursor) (other twin)

/-- Two readers read the same along both ways. -/
def Everywhere (ways : Ways) {α : Type} (taken : Bool) (reader other : Reader α) : Prop :=
  ∀ depth, ways.Agrees taken depth depth reader other

/-- Two readers read the same along both ways in brackets. -/
def Inside (ways : Ways) {α : Type} (taken : Bool) (reader other : Reader α) : Prop :=
  ∀ depth, ways.Agrees taken (depth + 1) (depth + 1) reader other

/-- The same token comes next. -/
structure Alike (ways : Ways) (depth : Nat) (cursor twin : Cursor) : Prop where
  peek : cursor.peek = twin.peek
  span : cursor.rest ≠ [] → cursor.span = twin.span
  atEnd : cursor.atEnd = twin.atEnd
  advance : cursor.rest ≠ [] →
    ways.Twins true (cursor.peek.depthAfter depth) cursor.advance twin.advance

variable {ways : Ways} {taken : Bool} {depth middle final : Nat}

section Cursors

variable {cursor twin : Cursor}

/-- A taken token may be forgotten. -/
theorem Twins.forget (twins : ways.Twins true depth cursor twin) : ways.Twins taken depth cursor twin :=
  ⟨twins.previous, ways.forget twins.parallel⟩

/-- A token that has been read along both ways stood at the same place. -/
theorem Twins.place {after twinAfter : Cursor} (behind : ways.Twins taken depth after twinAfter)
    (here : expect token cursor = .ok after) (there : expect token twin = .ok twinAfter)
    (real : token ≠ .eof := by simp) : cursor.span = twin.span := by
  rw [span_of_expect here real, span_of_expect there real, behind.previous]

/-- The next token stands at the same place and is taken along both ways. -/
theorem Alike.step (alike : ways.Alike depth cursor twin) (ahead : cursor.peek = token)
    (real : token ≠ .eof := by simp) : cursor.span = twin.span ∧
      ways.Twins true (token.depthAfter depth) cursor.advance twin.advance := by
  have more : cursor.rest ≠ [] := by simp [Cursor.rest_of_peek ahead real]
  have after := alike.advance more
  rw [ahead] at after
  exact ⟨alike.span more, after⟩

/-- The same token comes next, or both ways have ended. -/
theorem Alike.of_next (next : (∃ located rest other, cursor.rest = located :: rest ∧
      twin.rest = located :: other ∧
      ways.Parallel true (located.token.depthAfter depth) cursor.advance twin.advance) ∨
    (cursor.rest = [] ∧ twin.rest = [])) : ways.Alike depth cursor twin := by
  obtain ⟨previous, rest, finish⟩ := cursor
  obtain ⟨other, twinRest, twinFinish⟩ := twin
  rcases next with ⟨located, _, _, rfl, rfl, after⟩ | ⟨rfl, rfl⟩
  · exact ⟨rfl, fun _ => rfl, rfl, fun _ => ⟨rfl, after⟩⟩
  · exact ⟨rfl, fun more => absurd rfl more, rfl, fun more => absurd rfl more⟩

variable (parallel : ways.Parallel taken depth cursor twin)

include parallel

/-- The same token comes next along both ways, or they part. -/
theorem Parallel.alike_or_parted :
    ways.Alike depth cursor twin ∨ (depth = 0 ∧ Parted cursor.rest twin.rest) := by
  rcases ways.next parallel with next | ended | parted
  · exact .inl (.of_next (.inl next))
  · exact .inl (.of_next (.inr ended))
  · exact .inr parted

omit parallel in
/-- In brackets the same token comes next. -/
theorem Parallel.alike (parallel : ways.Parallel taken (depth + 1) cursor twin) :
    ways.Alike (depth + 1) cursor twin :=
  parallel.alike_or_parted.resolve_right fun outside => absurd outside.1 (Nat.succ_ne_zero depth)

/-- What comes next and is no comment comes next along both ways. -/
theorem Parallel.alike_of_peek
    (ahead : cursor.peek = token) (real : token ≠ .eof := by simp)
    (plain : ∀ stages, token ≠ .visibilityComment stages := by simp) :
    ways.Alike depth cursor twin := by
  rcases parallel.alike_or_parted with alike | ⟨_, parted⟩
  · exact alike
  · exact absurd ahead (parted.ne_of_plain real plain)

/-- A token that does not come next where the ways part comes next along both or none. -/
theorem Parallel.peek_iff_of
    (free : depth = 0 → Parted cursor.rest twin.rest → twin.peek ≠ token)
    (real : token ≠ .eof := by simp)
    (plain : ∀ stages, token ≠ .visibilityComment stages := by simp) :
    cursor.peek = token ↔ twin.peek = token := by
  refine ⟨fun here => ?_, fun there => ?_⟩
  · rw [← (parallel.alike_of_peek here real plain).peek, here]
  · rcases parallel.alike_or_parted with alike | ⟨flat, parted⟩
    · rw [alike.peek, there]
    · exact absurd there (free flat parted)

/-- A token that comes next along both or none is taken so. -/
theorem Parallel.eat?_of_iff
    (same : cursor.peek = token ↔ twin.peek = token) (real : token ≠ .eof := by simp)
    (plain : ∀ stages, token ≠ .visibilityComment stages := by simp) :
    (cursor.eat? token = none ∧ twin.eat? token = none) ∨
      ∃ next twinNext, cursor.eat? token = some next ∧ twin.eat? token = some twinNext ∧
        ways.Twins true (token.depthAfter depth) next twinNext := by
  by_cases here : cursor.peek = token
  · have after := ((parallel.alike_of_peek here real plain).step here real).2
    exact .inr ⟨_, _, if_pos here, if_pos (same.mp here), after⟩
  · exact .inl ⟨if_neg here, if_neg (mt same.mpr here)⟩

/-- A token that starts no item comes next along both or none. -/
theorem Parallel.peek_iff (token : Token)
    [inner : IsInner token] : cursor.peek = token ↔ twin.peek = token :=
  parallel.peek_iff_of (fun _ parted => (parted.peek_ne token).2) inner.real inner.plain

/-- Of tokens that start no item one comes next along both ways, or none along either. -/
theorem Parallel.next_or_none {κ : Type}
    (kind : κ → Token) [inner : ∀ one, IsInner (kind one)] :
    (∃ one, cursor.peek = kind one ∧ ways.Alike depth cursor twin) ∨
      (∀ one, cursor.peek ≠ kind one) ∧ ∀ one, twin.peek ≠ kind one := by
  by_cases some : ∃ one, cursor.peek = kind one
  · obtain ⟨one, ahead⟩ := some
    exact .inl ⟨one, ahead, parallel.alike_of_peek ahead (inner one).real (inner one).plain⟩
  · have here := not_exists.mp some
    exact .inr ⟨here, fun one => mt (parallel.peek_iff (kind one)).mpr (here one)⟩

/-- A token that starts no item is taken along both or none. -/
theorem Parallel.eat? (token : Token)
    [inner : IsInner token] :
    (cursor.eat? token = none ∧ twin.eat? token = none) ∨
      ∃ next twinNext, cursor.eat? token = some next ∧ twin.eat? token = some twinNext ∧
        ways.Twins true (token.depthAfter depth) next twinNext :=
  parallel.eat?_of_iff (parallel.peek_iff token) inner.real inner.plain

end Cursors

section Steps

variable {α β γ δ : Type} {related : α → β → Prop} {further : γ → δ → Prop} {cursor twin : Cursor}

/-- Two steps one behind the other are matched if both are. -/
theorem Matched.bind {first : Except Failure α} {other : Except Failure β}
    (matched : ways.Matched related first other) {next : α → Except Failure γ}
    {twinNext : β → Except Failure δ}
    (steps : ∀ value twin, first = .ok value → other = .ok twin → related value twin →
      ways.Matched further (next value) (twinNext twin)) :
    ways.Matched further (first >>= next) (other >>= twinNext) := by
  cases matched with
  | ok both => exact steps _ _ rfl rfl both
  | error failed => exact .error failed

/-- What was read behind a taken token was read. -/
theorem Matched.forget {first other : Except Failure (α × Cursor)}
    (matched : ways.Matched (ways.Read true depth) first other) :
    ways.Matched (ways.Read taken depth) first other := by
  cases matched with
  | ok both =>
    obtain ⟨twins⟩ := both
    exact .ok ⟨twins.forget⟩
  | error failed => exact .error failed

/-- A value may be made of what was read and of where it ended. -/
theorem Matched.done {first other : Except Failure (α × Cursor)}
    (matched : ways.Matched (ways.Read taken depth) first other) (value : α → Span → γ) :
    ways.Matched (ways.Read taken depth) (first >>= fun read => .ok (value read.1 read.2.previous, read.2))
      (other >>= fun read => .ok (value read.1 read.2.previous, read.2)) := by
  refine matched.bind ?_
  rintro ⟨found, cursor⟩ ⟨_, twin⟩ _ _ ⟨twins⟩
  rw [twins.previous]
  exact .ok ⟨twins⟩

/-- An error that names the next token is matched. -/
theorem Parallel.failNext (parallel : ways.Parallel taken depth cursor twin) (error : Token → SyntaxError)
    (code : ∀ token other, (error token).code = (error other).code) :
    ways.Matched related (fail (error cursor.peek) cursor) (fail (error twin.peek) twin) :=
  .error (ways.fails parallel error code)

/-- An error is matched. -/
theorem Parallel.fail (parallel : ways.Parallel taken depth cursor twin) (error : SyntaxError) :
    ways.Matched related (fail error cursor) (fail error twin) :=
  parallel.failNext (fun _ => error) fun _ _ => rfl

/-- A token that is no bracket makes the same value along both ways. -/
theorem Alike.take (alike : ways.Alike depth cursor twin) (ahead : cursor.peek = token)
    (value : Span → α) (real : token ≠ .eof := by simp)
    (flat : token.depthAfter depth = depth := by rfl) :
    ways.Matched (ways.Read taken depth) (.ok (value cursor.span, cursor.advance))
      (.ok (value twin.span, twin.advance)) := by
  obtain ⟨place, after⟩ := alike.step ahead real
  rw [flat] at after
  rw [place]
  exact .ok ⟨after.forget⟩

/-- The expected token is read along both ways, or along none. -/
theorem Parallel.expect (parallel : ways.Parallel taken depth cursor twin) (token : Token)
    [inner : IsInner token] :
    ways.Matched (ways.Twins true (token.depthAfter depth)) (expect token cursor) (expect token twin) := by
  unfold Surface.expect
  rcases parallel.eat? token with ⟨here, there⟩ | ⟨next, twinNext, here, there, after⟩
  · rw [here, there]
    exact parallel.failNext (.expected token) fun _ _ => rfl
  · rw [here, there]
    exact .ok after

end Steps

end Ways

/-- Where no name comes next, one was expected. -/
theorem identifier_of_peek {cursor : Cursor} (unnamed : ∀ name, cursor.peek ≠ .identifier name) :
    identifier cursor = fail (.expectedIdentifier cursor.peek) cursor := by
  unfold identifier
  split
  · rename_i name named
    exact absurd named (unnamed name)
  · rfl

namespace Ways

variable {ways : Ways} {taken : Bool} {depth middle final : Nat}

/-- A name is read along both ways or none. -/
theorem Parallel.identifier {cursor twin : Cursor} (parallel : ways.Parallel taken depth cursor twin) :
    ways.Matched (ways.Read true depth) (identifier cursor) (identifier twin) := by
  rcases parallel.next_or_none .identifier with ⟨name, ahead, alike⟩ | ⟨here, there⟩
  · unfold Surface.identifier
    rw [← alike.peek, ahead]
    exact alike.take ahead (Prod.mk name)
  · rw [identifier_of_peek here, identifier_of_peek there]
    exact parallel.failNext .expectedIdentifier fun _ _ => rfl

namespace Agrees

variable {α β : Type}

/-- Nothing has to be read. -/
theorem done {value : α} : ways.Agrees taken depth depth (fun cursor => .ok (value, cursor))
    fun cursor => .ok (value, cursor) :=
  fun _ _ twins => .ok ⟨twins⟩

/-- What is read may tell where the last token stands. -/
theorem ended (value : Span → α) :
    ways.Agrees taken depth depth (fun cursor => .ok (value cursor.previous, cursor))
      fun cursor => .ok (value cursor.previous, cursor) := by
  intro cursor twin twins
  dsimp only
  rw [twins.previous]
  exact .ok ⟨twins⟩

/-- Readers agree one behind the other. -/
theorem bind {reader other : Reader α} (first : ways.Agrees taken depth middle reader other)
    {next twinNext : α × Cursor → Except Failure (β × Cursor)}
    (second : ∀ value, ways.Agrees taken middle final (fun cursor => next (value, cursor))
      fun cursor => twinNext (value, cursor)) :
    ways.Agrees taken depth final (fun cursor => reader cursor >>= next)
      fun cursor => other cursor >>= twinNext := by
  intro cursor twin twins
  refine (first cursor twin twins).bind ?_
  rintro ⟨value, after⟩ ⟨_, twinAfter⟩ _ _ ⟨both⟩
  exact second value after twinAfter both

/-- An expected token may stand in front. -/
theorem expect (token : Token) {next twinNext : Reader α}
    (second : ways.Agrees true (token.depthAfter depth) final next twinNext)
    [inner : IsInner token] :
    ways.Agrees taken depth final (fun cursor => Surface.expect token cursor >>= next)
      fun cursor => Surface.expect token cursor >>= twinNext := by
  intro cursor twin twins
  refine (twins.parallel.expect token).bind fun after twinAfter _ _ both => ?_
  exact (second after twinAfter both).forget

/-- A name may stand in front. -/
theorem identifier {next twinNext : (String × Span) × Cursor → Except Failure (α × Cursor)}
    (second : ∀ name span, ways.Agrees true depth final (fun cursor => next ((name, span), cursor))
      fun cursor => twinNext ((name, span), cursor)) :
    ways.Agrees taken depth final (fun cursor => Surface.identifier cursor >>= next)
      fun cursor => Surface.identifier cursor >>= twinNext := by
  intro cursor twin twins
  refine twins.parallel.identifier.bind ?_
  rintro ⟨⟨name, span⟩, after⟩ ⟨_, twinAfter⟩ _ _ ⟨both⟩
  exact (second name span after twinAfter both).forget

/-- A token that starts no item is taken along both or none. -/
theorem eat? (token : Token) {next twinNext plain twinPlain : Reader α}
    (eaten : ways.Agrees true (token.depthAfter depth) final next twinNext)
    (kept : ways.Agrees taken depth final plain twinPlain)
    [inner : IsInner token] :
    ways.Agrees taken depth final
      (fun cursor => match cursor.eat? token with
        | some after => next after
        | none => plain cursor)
      fun cursor => match cursor.eat? token with
        | some after => twinNext after
        | none => twinPlain cursor := by
  intro cursor twin twins
  rcases twins.parallel.eat? token with ⟨here, there⟩ | ⟨after, twinAfter, here, there, both⟩
  · simp only [here, there]
    exact kept cursor twin twins
  · simp only [here, there]
    exact (eaten after twinAfter both).forget

/-- The same where reading goes on behind the token. -/
theorem unless? (token : Token) {next twinNext plain twinPlain : Reader α}
    (kept : ways.Agrees taken depth final plain twinPlain)
    (eaten : ways.Agrees true (token.depthAfter depth) final next twinNext)
    [inner : IsInner token] :
    ways.Agrees taken depth final
      (fun cursor => match cursor.eat? token with
        | none => plain cursor
        | some after => next after)
      fun cursor => match cursor.eat? token with
        | none => twinPlain cursor
        | some after => twinNext after := by
  intro cursor twin twins
  have same := eat? token eaten kept cursor twin twins
  cases here : cursor.eat? token <;> cases there : twin.eat? token <;>
    simpa only [here, there] using same

/-- A token comes next along both ways or along none: one that starts no item, or any in brackets. -/
theorem ifNext (token : Token) {here twinHere plain twinPlain : Reader α}
    (next : ways.Agrees taken depth final here twinHere)
    (other : ways.Agrees taken depth final plain twinPlain)
    (same : ∀ cursor twin, ways.Parallel taken depth cursor twin →
      (cursor.peek = token ↔ twin.peek = token)) :
    ways.Agrees taken depth final (fun cursor => if cursor.peek = token then here cursor else plain cursor)
      fun cursor => if cursor.peek = token then twinHere cursor else twinPlain cursor := by
  intro cursor twin twins
  have same := same cursor twin twins.parallel
  dsimp only
  by_cases ahead : cursor.peek = token
  · rw [if_pos ahead, if_pos (same.mp ahead)]
    exact next cursor twin twins
  · rw [if_neg ahead, if_neg (mt same.mpr ahead)]
    exact other cursor twin twins

end Agrees

/-! ### Loops -/

/-- One bound is enough for two loops along both ways. -/
def Fits (ways : Ways) {ρ : Type} (size : Cursor → Nat) (loop other : Nat → Cursor → ρ) : Prop :=
  ∀ ⦃taken depth cursor twin⦄, ways.Twins taken depth cursor twin →
    ∃ bound, loop (size cursor) cursor = loop bound cursor ∧ other (size twin) twin = other bound twin

/-- Along one way every loop has one bound. -/
theorem Fits.of_eq (single : ∀ {taken depth cursor twin}, ways.Parallel taken depth cursor twin →
    cursor = twin) {ρ : Type} {size : Cursor → Nat} {loop other : Nat → Cursor → ρ} :
    ways.Fits size loop other :=
  fun _ _ _ _ twins => ⟨_, rfl, by rw [single twins.parallel]⟩

/-- One bound is enough for a loop along both ways. -/
def Suffices (ways : Ways) {ρ : Type} (size : Cursor → Nat) (loop : Nat → Cursor → ρ) : Prop :=
  ways.Fits size loop loop

namespace Agrees

variable {α : Type}

/-- Loops agree if they agree for every bound. -/
theorem sized {size : Cursor → Nat} {loop other : Nat → Reader α} (fits : ways.Fits size loop other)
    (each : ∀ bound, ways.Agrees taken depth final (loop bound) (other bound)) :
    ways.Agrees taken depth final (fun cursor => loop (size cursor) cursor)
      fun cursor => other (size cursor) cursor := by
  intro cursor twin twins
  obtain ⟨bound, here, there⟩ := fits twins
  dsimp only
  rw [here, there]
  exact each bound cursor twin twins

variable {item other : Reader α}

/-- Items divided by commas are read along both ways. -/
theorem separated (each : ways.Agrees true depth depth item other) (bound : Nat) :
    ways.Agrees true depth depth (separated item bound) (separated other bound) := by
  induction bound with
  | zero => exact each.bind fun first => .done
  | succ bound ih =>
    exact each.bind fun first => .unless? .comma .done (ih.bind fun rest => .done)

/-- Items up to a closing token are read along both ways in brackets. -/
theorem listed {closing : Token} (each : ways.Agrees true (depth + 1) (depth + 1) item other) (bound : Nat) :
    ways.Agrees true (depth + 1) (depth + 1) (listed closing item bound) (listed closing other bound) := by
  induction bound with
  | zero => exact .done
  | succ bound ih =>
    exact .ifNext closing .done
      (each.bind fun first => .unless? .comma .done (ih.bind fun rest => .done))
      fun _ _ parallel => by rw [parallel.alike.peek]

end Agrees

/-! ### Types -/

/-- Reads an argument that is a type, if one more level is admitted. -/
def typeBelow (inner : Option (Reader WrittenType)) (cursor : Cursor) :
    Except Failure (TypeArgument × Cursor) :=
  match inner with
  | none => fail .typeTooDeep cursor
  | some inner => do
    let (written, cursor) ← inner cursor
    .ok (.type written, cursor)

/-- What is no number is read as a type. -/
theorem typeArgument_of_peek {inner : Option (Reader WrittenType)} {cursor : Cursor}
    (unsized : ∀ literal, cursor.peek ≠ .number literal) :
    typeArgument inner cursor = typeBelow inner cursor := by
  unfold typeArgument
  split
  · rename_i literal sized
    exact absurd sized (unsized literal)
  · rfl

section Types

variable {inner other : Option (Reader WrittenType)} (deeper : Option.Rel (ways.Everywhere true) inner other)

include deeper

/-- Types agree one level deeper. -/
theorem typeBelow_agrees : ways.Everywhere true (typeBelow inner) (typeBelow other) := by
  intro depth
  cases deeper with
  | none => exact fun cursor twin twins => twins.parallel.fail _
  | some agrees => exact (agrees depth).bind fun written => .done

/-- Arguments of types agree. -/
theorem typeArgument_agrees : ways.Everywhere true (typeArgument inner) (typeArgument other) := by
  intro depth cursor twin twins
  rcases twins.parallel.next_or_none .number with ⟨literal, ahead, alike⟩ | ⟨here, there⟩
  · unfold typeArgument
    rw [← alike.peek, ahead]
    dsimp only
    split
    · exact .ok ⟨(alike.step ahead).2⟩
    · exact twins.parallel.fail _
  · -- Where no number stands a type is read, also where the ways part.
    rw [typeArgument_of_peek here, typeArgument_of_peek there]
    exact typeBelow_agrees deeper depth cursor twin twins

variable (fits : ways.Fits Cursor.remaining (separated (typeArgument inner)) (separated (typeArgument other)))

include fits

/-- Lists of type arguments agree. -/
theorem typeArguments_agrees : ways.Everywhere taken (typeArguments inner) (typeArguments other) := by
  intro depth
  have listed := Agrees.sized fits ((typeArgument_agrees deeper depth).separated)
  exact .expect .less <| listed.bind fun arguments => .expect .greater .done

/-- Named types agree. -/
theorem namedType_agrees : ways.Everywhere taken (namedType inner) (namedType other) := by
  intro depth
  exact .identifier fun name span => .ifNext .less
    ((typeArguments_agrees deeper fits depth).bind fun arguments =>
      .ended fun stop => WrittenType.mk name arguments (span.through stop))
    (.ended fun stop => WrittenType.mk name [] (span.through stop))
    fun _ _ parallel => parallel.peek_iff .less

end Types

/-! ### Expressions -/

/-- In brackets, type arguments of a call are seen along both ways or none. -/
theorem Twins.constructorArguments? {cursor twin : Cursor} (twins : ways.Twins true (depth + 1) cursor twin)
    {allowance other : Nat} (types : ways.Everywhere true (typeArguments (innerType allowance))
      (typeArguments (innerType other))) :
    (constructorArguments? allowance cursor = none ∧ constructorArguments? other twin = none) ∨
      ∃ arguments next twinNext, constructorArguments? allowance cursor = some (arguments, next) ∧
        constructorArguments? other twin = some (arguments, twinNext) ∧
        ways.Twins true (depth + 1) next twinNext := by
  have listed := types (depth + 1) cursor twin twins
  unfold Surface.constructorArguments?
  generalize typeArguments (innerType allowance) cursor = here at listed
  generalize typeArguments (innerType other) twin = there at listed
  cases listed with
  | error => exact .inl ⟨rfl, rfl⟩
  | ok both =>
    obtain @⟨arguments, next, twinNext, after⟩ := both
    dsimp only
    rw [← after.parallel.alike.peek]
    split
    · exact .inr ⟨arguments, next, twinNext, rfl, rfl, after⟩
    · exact .inl ⟨rfl, rfl⟩

/-- The readers of two levels agree in brackets. -/
structure LevelAgrees (ways : Ways) (taken : Bool) (level other : Level) : Prop where
  binary : ∀ least, ways.Inside taken (level.binary least) (other.binary least)
  binaryRest : ∀ least left, ways.Inside taken (level.binaryRest least left) (other.binaryRest least left)
  unary : ways.Inside taken level.unary other.unary
  accesses : ∀ base, ways.Inside taken (level.accesses base) (other.accesses base)

section Levels

variable {allowance otherAllowance : Nat} {below other : Option Level}
  (deeper : Option.Rel (ways.LevelAgrees true) below other)
  (types : ways.Everywhere true (typeArguments (innerType allowance))
    (typeArguments (innerType otherAllowance)))
  (fits : ways.Fits (·.remaining + 1) (listed .rightParen (nested below fun level => level.binary 1))
    (listed .rightParen (nested other fun level => level.binary 1)))

include deeper

/-- What a deeper level reads agrees. -/
theorem nested_agrees {α : Type} {reader : Level → Reader α}
    (each : ∀ level other, ways.LevelAgrees true level other → ways.Inside true (reader level) (reader other)) :
    ways.Inside true (nested below reader) (nested other reader) := by
  cases deeper with
  | none => exact fun depth cursor twin twins => twins.parallel.fail _
  | some agrees => exact each _ _ agrees

/-- Accesses agree. -/
theorem accessesFrom_agrees (base : Expr) :
    ways.Inside taken (accessesFrom below base) (accessesFrom other base) := by
  intro depth cursor twin twins
  have alike := twins.parallel.alike
  unfold accessesFrom
  rw [← alike.peek]
  cases ahead : cursor.peek with
  | dot =>
    have after := (alike.step ahead).2
    cases deeper with
    | none => exact twins.parallel.fail _
    | some agrees =>
      refine Matched.forget (Agrees.identifier (fun name span => ?_) _ _ after)
      exact agrees.accesses _ depth
  | leftBracket =>
    refine Matched.forget
      (nested_agrees deeper (fun level other agrees depth => ?_) depth _ _ (alike.step ahead).2)
    refine (agrees.binary 1 depth).bind fun position => .expect .rightBracket ?_
    intro closed twinClosed behind
    dsimp only
    rw [behind.previous]
    exact agrees.accesses _ depth closed twinClosed behind
  | leftParen => exact twins.parallel.fail _
  | _ => exact .ok ⟨twins⟩

/-- Chains of operators agree. -/
theorem binaryRestFrom_agrees (least : Nat) (left : Expr) :
    ways.Inside taken (binaryRestFrom below least left) (binaryRestFrom other least left) := by
  intro depth cursor twin twins
  have alike := twins.parallel.alike
  unfold binaryRestFrom
  rw [← alike.peek]
  split
  · rename_i operator known
    split
    · obtain ⟨real, flat⟩ := depthAfter_binary known (depth + 1)
      have after := (alike.step rfl real).2
      rw [flat] at after
      refine Matched.forget (nested_agrees deeper (fun level other agrees => ?_) depth _ _ after)
      exact fun depth => (agrees.binary _ depth).bind fun right => agrees.binaryRest least _ depth
    · exact .ok ⟨twins⟩
  · exact .ok ⟨twins⟩

include fits

/-- Arguments of calls agree. -/
theorem callArguments_agrees : ways.Inside taken (callArguments below) (callArguments other) := by
  intro depth
  have argument := nested_agrees deeper fun level other agrees => agrees.binary 1
  have listed := Agrees.sized fits (argument (depth + 1)).listed
  exact .expect .leftParen <| listed.bind fun arguments => .expect .rightParen .done

include types

/-- Names and calls agree. -/
theorem named_agrees (name : String) (span : Span) :
    ways.Inside true (named allowance below name span) (named otherAllowance other name span) := by
  intro depth cursor twin twins
  have calls := @callArguments_agrees ways true _ _ deeper fits depth
  have seen (chosen : Bool) :
      ((if chosen then constructorArguments? allowance cursor else none) = none ∧
        (if chosen then constructorArguments? otherAllowance twin else none) = none) ∨
      ∃ arguments next twinNext,
        (if chosen then constructorArguments? allowance cursor else none) = some (arguments, next) ∧
        (if chosen then constructorArguments? otherAllowance twin else none) = some (arguments, twinNext) ∧
        ways.Twins true (depth + 1) next twinNext := by
    cases chosen with
    | true => exact twins.constructorArguments? types
    | false => exact .inl ⟨rfl, rfl⟩
  unfold named
  rw [← twins.parallel.alike.peek]
  rcases seen (cursor.peek = .less && takesTypeArguments name) with
    ⟨here, there⟩ | ⟨arguments, next, twinNext, here, there, after⟩
  · simp only [here, there]
    split
    · exact (calls cursor twin twins).done fun arguments stop => Expr.call name [] arguments (span.through stop)
    · exact .ok ⟨twins⟩
  · simp only [here, there]
    exact (calls next twinNext after).done fun values stop =>
      Expr.call name arguments values (span.through stop)

/-- Primaries agree. -/
theorem primary_agrees : ways.Inside taken (primary allowance below) (primary otherAllowance other) := by
  intro depth cursor twin twins
  have alike := twins.parallel.alike
  unfold primary
  rw [← alike.peek]
  cases ahead : cursor.peek with
  | number literal => exact alike.take ahead (Expr.number literal)
  | trueKeyword => exact alike.take ahead (Expr.bool true)
  | falseKeyword => exact alike.take ahead (Expr.bool false)
  | leftParen =>
    have inner := nested_agrees deeper fun level other agrees => agrees.binary 1
    exact Matched.forget <| (inner (depth + 1)).bind (fun value => .expect .rightParen .done) _ _
      (alike.step ahead).2
  | identifier name =>
    obtain ⟨place, after⟩ := alike.step ahead
    rw [place]
    exact Matched.forget (named_agrees deeper types fits name _ depth _ _ after)
  | _ => exact twins.parallel.fail _

/-- Operands with signs agree. -/
theorem unaryFrom_agrees : ways.Inside taken (unaryFrom allowance below) (unaryFrom otherAllowance other) := by
  intro depth cursor twin twins
  have alike := twins.parallel.alike
  unfold unaryFrom
  rw [← alike.peek]
  split
  · rename_i operator signed
    obtain ⟨real, flat⟩ := depthAfter_unary signed (depth + 1)
    obtain ⟨place, after⟩ := alike.step rfl real
    rw [flat] at after
    have operand := nested_agrees deeper fun level other agrees => agrees.unary
    rw [place]
    exact Matched.forget ((operand depth _ _ after).done fun value _ =>
      Expr.unary operator value (twin.span.through value.span))
  · refine (primary_agrees deeper types fits depth cursor twin twins).bind ?_
    rintro ⟨base, after⟩ ⟨_, twinAfter⟩ _ _ ⟨both⟩
    exact accessesFrom_agrees deeper base depth after twinAfter both

/-- Levels agree if the deeper ones do. -/
theorem above_agrees :
    ways.LevelAgrees taken (Level.above allowance below) (Level.above otherAllowance other) where
  binary least depth := (unaryFrom_agrees deeper types fits depth).bind fun left =>
    binaryRestFrom_agrees deeper least left depth
  binaryRest := binaryRestFrom_agrees deeper
  unary := unaryFrom_agrees deeper types fits
  accesses := accessesFrom_agrees deeper

end Levels

section Statements

variable {allowance other : Nat} (typed : ways.Everywhere true (writtenType allowance) (writtenType other))
  (valued : ways.Inside true (expression allowance) (expression other)) {start : Span}

include typed in
/-- Ascriptions agree. -/
theorem ascription_agrees : ways.Inside true (ascription allowance) (ascription other) :=
  fun depth => .eat? .colon ((typed (depth + 1)).bind fun _ => .done) .done

include valued

/-- Initial values agree. -/
theorem initializer_agrees : ways.Inside true (initializer allowance) (initializer other) :=
  fun depth => .eat? .assign ((valued depth).bind fun _ => .done) .done

/-- What follows `return` agrees. -/
theorem returnRest_agrees : ways.Inside true (returnRest allowance start) (returnRest other start) :=
  fun depth => .eat? .semicolon (.ended fun stop => Statement.returning none (start.through stop))
    ((valued depth).bind fun value => .expect .semicolon <|
      .ended fun stop => Statement.returning (some value) (start.through stop))

/-- Assignments and expressions agree. Their starts may differ only at the end, where there is none.
-/
theorem Twins.plainStatement {cursor twin : Cursor} (twins : ways.Twins true (depth + 1) cursor twin)
    {twinStart : Span} (same : cursor.rest ≠ [] → start = twinStart) :
    ways.Matched (ways.Read true (depth + 1)) (plainStatement allowance start cursor)
      (plainStatement other twinStart twin) := by
  by_cases ended : cursor.rest = []
  · refine (valued depth cursor twin twins).bind fun value _ read _ _ => ?_
    obtain ⟨taken, split, made⟩ := expression_takes allowance _ _ _ read
    obtain ⟨first, others, rfl⟩ := made.exists_cons
    cases ended.symm.trans split
  · obtain rfl := same ended
    refine Agrees.bind (valued depth) (fun target => ?_) cursor twin twins
    exact .eat? .assign
      ((valued depth).bind fun value => .expect .semicolon <|
        .ended fun stop => Statement.assignment target value (start.through stop))
      (.expect .semicolon <| .ended fun stop => Statement.evaluation target (start.through stop))

include typed

/-- What follows `let` agrees. -/
theorem letRest_agrees : ways.Inside true (letRest allowance start) (letRest other start) :=
  fun depth => .identifier fun name _ => (ascription_agrees typed depth).bind fun written =>
    .expect .assign <| (valued depth).bind fun value => .expect .semicolon <|
      .ended fun stop => Statement.letBinding name written value (start.through stop)

/-- What follows `var` agrees. -/
theorem varRest_agrees : ways.Inside true (varRest allowance start) (varRest other start) :=
  fun depth => .identifier fun name _ => (ascription_agrees typed depth).bind fun written =>
    (initializer_agrees valued depth).bind fun value => .expect .semicolon <|
      .ended fun stop => Statement.varBinding name written value (start.through stop)

variable {inner otherInner : Option (Reader (Block Expr WrittenType))}
  (deeper : Option.Rel (ways.Inside true) inner otherInner)

include deeper

/-- Statements agree. -/
theorem statement_agrees : ways.Inside true (statement allowance inner) (statement other otherInner) := by
  intro depth cursor twin twins
  have alike := twins.parallel.alike
  have plain := twins.plainStatement valued alike.span
  unfold statement
  rw [← alike.peek]
  cases ahead : cursor.peek with
  | letKeyword =>
    obtain ⟨place, after⟩ := alike.step ahead
    rw [place]
    exact letRest_agrees typed valued depth _ _ after
  | varKeyword =>
    obtain ⟨place, after⟩ := alike.step ahead
    rw [place]
    exact varRest_agrees typed valued depth _ _ after
  | returnKeyword =>
    obtain ⟨place, after⟩ := alike.step ahead
    rw [place]
    exact returnRest_agrees valued depth _ _ after
  | leftBrace =>
    obtain ⟨place, _⟩ := alike.step ahead
    cases deeper with
    | none => exact twins.parallel.fail _
    | some agrees =>
      rw [place]
      exact (agrees depth cursor twin twins).done fun body stop =>
        Statement.block body.statements body.opening body.closing (twin.span.through stop)
  | _ => exact plain

/-- Rows of statements agree. -/
theorem statements_agree (bound : Nat) : ways.Inside true (statements (statement allowance inner) bound)
    (statements (statement other otherInner) bound) := by
  intro depth
  induction bound with
  | zero => exact .done
  | succ bound ih =>
    intro cursor twin twins
    have alike := twins.parallel.alike
    unfold statements
    rw [← alike.peek, ← alike.atEnd]
    split
    · exact .ok ⟨twins⟩
    · refine (statement_agrees typed valued deeper depth cursor twin twins).bind ?_
      rintro ⟨first, after⟩ ⟨_, twinAfter⟩ _ _ ⟨both⟩
      exact (ih after twinAfter both).done fun rest _ => first :: rest

variable (fits : ways.Fits Cursor.remaining (statements (statement allowance inner))
  (statements (statement other otherInner)))

include fits

/-- Blocks agree if the inner ones do. -/
theorem braced_agrees : ways.Everywhere taken (braced allowance inner) (braced other otherInner) := by
  intro depth cursor twin twins
  refine (twins.parallel.expect .leftBrace).bind fun opened twinOpened here there within => ?_
  obtain ⟨bound, first, second⟩ := fits within
  rw [within.place here there, first, second]
  refine (statements_agree typed valued deeper bound depth opened twinOpened within).bind ?_
  rintro ⟨body, after⟩ ⟨_, twinAfter⟩ _ _ ⟨both⟩
  refine (both.parallel.expect .rightBrace).bind fun last twinLast here there done => ?_
  rw [done.place here there]
  exact .ok ⟨done.forget⟩

end Statements

/-! ### Readers that are given no others -/

/-- The readers one level deeper, if there is one. -/
def innerLevel : (allowance : Nat) → Option Level
  | 0 => none
  | allowance + 1 => some (level allowance)

/-- For every loop of the readers one bound is enough along both ways. -/
structure Sized (ways : Ways) : Prop where
  typeArguments (allowance : Nat) :
    ways.Suffices Cursor.remaining (separated (typeArgument (innerType allowance)))
  arguments (allowance : Nat) : ways.Suffices (·.remaining + 1)
    (listed .rightParen (nested (innerLevel allowance) fun level => level.binary 1))
  statements (allowance : Nat) :
    ways.Suffices Cursor.remaining (statements (statement allowance (innerBlock allowance)))
  decoratorArguments : ways.Suffices (·.remaining + 1) (listed .rightParen decoratorArgument)
  decorators : ways.Suffices Cursor.remaining decorators
  parameters : ways.Suffices (·.remaining + 1) parameters
  fields : ways.Suffices Cursor.remaining fields

/-- Along one way every loop has one bound. -/
theorem Sized.of_eq (single : ∀ {taken depth cursor twin}, ways.Parallel taken depth cursor twin →
    cursor = twin) : ways.Sized := by
  constructor <;> intros <;> exact Fits.of_eq single

section Closed

variable (sized : ways.Sized)

include sized

/-- Written types agree. -/
theorem writtenType_agrees (allowance : Nat) :
    ways.Everywhere taken (writtenType allowance) (writtenType allowance) := by
  induction allowance generalizing taken with
  | zero => exact namedType_agrees .none (sized.typeArguments 0)
  | succ allowance ih =>
    exact namedType_agrees (.some ih) (sized.typeArguments (allowance + 1))

/-- Type arguments agree at every level. -/
theorem innerArguments_agree (allowance : Nat) : ways.Everywhere true
    (typeArguments (innerType allowance)) (typeArguments (innerType allowance)) := by
  refine typeArguments_agrees ?_ (sized.typeArguments allowance)
  cases allowance with
  | zero => exact .none
  | succ allowance => exact .some (writtenType_agrees sized allowance)

/-- All levels agree. -/
theorem level_agrees (allowance : Nat) : ways.LevelAgrees true (level allowance) (level allowance) := by
  induction allowance with
  | zero => exact above_agrees .none (innerArguments_agree sized 0) (sized.arguments 0)
  | succ allowance ih =>
    exact above_agrees (.some ih) (innerArguments_agree sized _) (sized.arguments (allowance + 1))

/-- Blocks agree. -/
theorem block_agrees (allowance : Nat) : ways.Everywhere taken (block allowance) (block allowance) := by
  have typed (allowance : Nat) : ways.Everywhere true (writtenType allowance) (writtenType allowance) :=
    writtenType_agrees sized allowance
  have valued (allowance : Nat) := (level_agrees sized allowance).binary 1
  induction allowance generalizing taken with
  | zero => exact braced_agrees (typed 0) (valued 0) .none (sized.statements 0)
  | succ allowance ih =>
    exact braced_agrees (typed _) (valued _) (.some fun depth => ih (depth + 1))
      (sized.statements (allowance + 1))

end Closed

end Ways

end Shading.Surface
