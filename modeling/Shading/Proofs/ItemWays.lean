import Shading.Proofs.Ways

/-!
# Items along two ways

Decorators, fields and parameters are read in the same way along two ways, and so are whole items, if
what stands in front of them is. Where the ways part, an item has ended or cannot go on.
-/

namespace Shading.Surface

open List Cursor

section Next

variable {cursor : Cursor} {token : Token}

/-- An expected token that comes next is taken. -/
theorem expect_of_peek (ahead : cursor.peek = token) : expect token cursor = .ok cursor.advance := by
  rw [expect, Cursor.eat?, if_pos ahead]

/-- A bound for what is left admits one more step. -/
theorem Cursor.exists_bound_of_peek (ahead : cursor.peek = token) {bound : Nat}
    (enough : cursor.remaining ≤ bound) (real : token ≠ .eof := by simp) :
    ∃ smaller, bound = smaller + 1 ∧ cursor.advance.remaining ≤ smaller := by
  rw [remaining_of_peek ahead real] at enough
  obtain ⟨smaller, rfl⟩ := Nat.exists_eq_add_of_lt (Nat.lt_of_succ_le enough)
  exact ⟨_, rfl, by omega⟩

/-- Without an at sign there are no decorators. -/
theorem decorators_of_peek (unsigned : cursor.peek ≠ .atSign) (bound : Nat) :
    decorators bound cursor = pure ([], cursor) := by
  cases bound with
  | zero => rfl
  | succ bound => rw [decorators, if_neg unsigned]

/-- Without comments and at signs a heading ends. -/
theorem heading_of_peek (plain : ∀ stages, cursor.peek ≠ .visibilityComment stages)
    (unsigned : cursor.peek ≠ .atSign) (bound : Nat) (found : Heading) :
    heading bound found cursor = pure (found, cursor) := by
  cases bound with
  | zero => rfl
  | succ bound =>
    unfold heading
    split
    · rename_i stages comment
      exact absurd comment (plain stages)
    · rename_i signed
      exact absurd signed unsigned
    · rfl

end Next

section Forms

variable {cursor after : Cursor}

/-- An argument of a decorator is one token. -/
theorem decoratorArgument_takes : Takes decoratorArgument fun tokens argument =>
    ∃ span, tokens = [⟨argument.token, span⟩] ∧ isDecoratorArgument argument.token := by
  intro cursor argument after read
  unfold decoratorArgument at read
  split at read
  · rename_i name ahead
    cases read
    exact ⟨_, rest_of_peek ahead, _, rfl, rfl⟩
  · rename_i literal ahead
    cases read
    exact ⟨_, rest_of_peek ahead, _, rfl, rfl⟩
  · cases read

/-- Arguments of a decorator take their tokens. -/
theorem decoratorArguments_take (bound : Nat) :
    Takes (listed .rightParen decoratorArgument bound) fun tokens arguments =>
      DecoratorArgumentsForm (tokens.map LocatedToken.token) ∧
        ∀ argument ∈ arguments, ∃ located ∈ tokens, located.token = argument.token := by
  refine listed_takes decoratorArgument_takes ?_ ?_ ⟨.nil, nofun⟩ _ bound
  · rintro _ one ⟨span, rfl, plain⟩
    exact ⟨.last plain, by simp⟩
  · rintro _ others one values comma ⟨span, rfl, plain⟩ ⟨form, listed⟩
    refine ⟨.cons plain form, forall_mem_cons.mpr ⟨by simp, fun argument member => ?_⟩⟩
    obtain ⟨located, inside, same⟩ := listed argument member
    exact ⟨located, by simp [inside], same⟩

/-- A decorator takes its tokens, those of its arguments among them. -/
theorem decorator_takes {found : Option Attribute}
    (read : (decorator cursor).result = .ok (found, after)) :
    ∃ taken name arguments, cursor.rest = taken ++ after.rest ∧
      DecoratorForm (taken.map LocatedToken.token) ∧
      (∀ argument ∈ arguments, ∃ located ∈ taken, located.token = argument.token) ∧
      ∀ one ∈ found, attributeOf name arguments = .ok one := by
  obtain ⟨⟨⟨name, arguments, span⟩, middle⟩, parts, read⟩ := noted_bind_eq_ok.mp read
  have ended : after = middle ∧ ∀ one ∈ found, attributeOf name arguments = .ok one := by
    dsimp only at read
    split at read
    · rename_i one accepted
      cases read
      exact ⟨rfl, by simpa using accepted⟩
    · cases read
      exact ⟨rfl, nofun⟩
  obtain ⟨rfl, accepted⟩ := ended
  obtain ⟨afterSign, sign, parts⟩ := bind_eq_ok.mp parts
  obtain ⟨⟨⟨_, place⟩, afterName⟩, named, parts⟩ := bind_eq_ok.mp parts
  obtain ⟨⟨_, last⟩, listed, parts⟩ := bind_eq_ok.mp parts
  cases parts
  have front := rest_of_expect sign
  rw [(rest_of_identifier named).1] at front
  unfold decoratorArguments at listed
  split at listed
  · cases listed
    exact ⟨[_, _], name, [], front, .plain name, nofun, accepted⟩
  · rename_i opened eaten
    obtain ⟨⟨_, afterItems⟩, items, listed⟩ := bind_eq_ok.mp listed
    obtain ⟨closed, closing, listed⟩ := bind_eq_ok.mp listed
    cases listed
    obtain ⟨taken, split, form, listed⟩ := decoratorArguments_take _ _ _ _ items
    rw [rest_of_eat? eaten, split, rest_of_expect closing] at front
    refine ⟨⟨.atSign, afterSign.previous⟩ :: ⟨.identifier name, place⟩ ::
      ⟨.leftParen, opened.previous⟩ :: (taken ++ [⟨.rightParen, after.previous⟩]), name, arguments,
      ?_, ?_, fun argument member => ?_, accepted⟩
    · rw [front]
      simp only [cons_append, append_assoc, nil_append]
    · rw [map_cons, map_cons, map_cons, map_append, map_singleton]
      exact .applied name form
    · obtain ⟨located, inside, same⟩ := listed argument member
      exact ⟨located, by simp [inside], same⟩

/-- A decorator takes its at sign. -/
theorem remaining_lt_of_decorator {found : Option Attribute}
    (read : (decorator cursor).result = .ok (found, after)) : after.remaining < cursor.remaining := by
  obtain ⟨taken, _, _, split, form, _⟩ := decorator_takes read
  have positive : taken ≠ [] := by
    rintro rfl
    cases form
  have longer := length_pos_iff.mpr positive
  rw [Cursor.remaining, Cursor.remaining, split, length_append]
  omega

end Forms

namespace Ways

variable {ways : Ways} {depth middle final : Nat}

/-! ### Steps with notes -/

/-- Results with the same notes along both ways. -/
structure NotedMatched (ways : Ways) {α β : Type} (related : α → β → Prop) (first : Noted α)
    (other : Noted β) : Prop where
  notes : first.notes = other.notes
  result : ways.Matched related first.result other.result

section Steps

variable {α β γ δ : Type} {related : α → β → Prop} {further : γ → δ → Prop}

/-- Noted steps are matched one behind the other. -/
theorem NotedMatched.bind {first : Noted α} {other : Noted β}
    (matched : ways.NotedMatched related first other) {next : α → Noted γ} {twinNext : β → Noted δ}
    (steps : ∀ value twin, first.result = .ok value → other.result = .ok twin → related value twin →
      ways.NotedMatched further (next value) (twinNext twin)) :
    ways.NotedMatched further (first >>= next) (other >>= twinNext) := by
  obtain ⟨notes, outcome⟩ := first
  obtain ⟨otherNotes, otherOutcome⟩ := other
  obtain ⟨rfl, result⟩ := matched
  cases result with
  | ok both =>
    have later := steps _ _ rfl rfl both
    exact ⟨congrArg (notes ++ ·) later.notes, later.result⟩
  | error failed => exact ⟨rfl, .error failed⟩

/-- A step without notes. -/
theorem Matched.lifted {first : Except Failure α} {other : Except Failure β}
    (matched : ways.Matched related first other) :
    ways.NotedMatched related (Noted.lift first) (Noted.lift other) :=
  ⟨rfl, matched⟩

/-- Related values are matched. -/
theorem NotedMatched.ok {value : α} {other : β} (both : related value other) :
    ways.NotedMatched related (pure value) (pure other) :=
  ⟨rfl, .ok both⟩

/-- A value may be made of what was read. -/
theorem NotedMatched.done {first other : Noted (α × Cursor)}
    (matched : ways.NotedMatched (ways.Read true depth) first other) (value : α → γ) :
    ways.NotedMatched (ways.Read true depth) (first >>= fun read => pure (value read.1, read.2))
      (other >>= fun read => pure (value read.1, read.2)) := by
  refine matched.bind ?_
  rintro ⟨found, cursor⟩ ⟨_, twin⟩ _ _ ⟨twins⟩
  exact .ok ⟨twins⟩

end Steps

/-- A reader with notes reads the same where `depth` brackets are open, and `final` behind. -/
def NotedAgrees (ways : Ways) {α : Type} (depth final : Nat) (reader : Cursor → Noted (α × Cursor)) : Prop :=
  ∀ cursor twin, ways.Twins true depth cursor twin →
    ways.NotedMatched (ways.Read true final) (reader cursor) (reader twin)

namespace NotedAgrees

variable {α β : Type}

/-- Nothing has to be read. -/
theorem done {value : α} : ways.NotedAgrees depth depth fun cursor => pure (value, cursor) :=
  fun _ _ twins => .ok ⟨twins⟩

/-- Readers with notes agree one behind the other. -/
theorem bind {reader : Cursor → Noted (α × Cursor)} (first : ways.NotedAgrees depth middle reader)
    {next : α × Cursor → Noted (β × Cursor)}
    (second : ∀ value, ways.NotedAgrees middle final fun cursor => next (value, cursor)) :
    ways.NotedAgrees depth final fun cursor => reader cursor >>= next := by
  intro cursor twin twins
  refine (first cursor twin twins).bind ?_
  rintro ⟨value, after⟩ ⟨_, twinAfter⟩ _ _ ⟨both⟩
  exact second value after twinAfter both

/-- A reader without notes may stand in front. -/
theorem lift {reader : Reader α} (first : ways.Agrees true depth middle reader reader)
    {next : α × Cursor → Noted (β × Cursor)}
    (second : ∀ value, ways.NotedAgrees middle final fun cursor => next (value, cursor)) :
    ways.NotedAgrees depth final fun cursor => Noted.lift (reader cursor) >>= next :=
  bind (fun cursor twin twins => (first cursor twin twins).lifted) second

/-- An expected token may stand in front. -/
theorem expect (token : Token) {next : Cursor → Noted (α × Cursor)}
    (second : ways.NotedAgrees (token.depthAfter depth) final next)
    [inner : IsInner token] :
    ways.NotedAgrees depth final fun cursor => Noted.lift (Surface.expect token cursor) >>= next := by
  intro cursor twin twins
  exact (twins.parallel.expect token).lifted.bind fun after twinAfter _ _ both =>
    second after twinAfter both

/-- A name may stand in front. -/
theorem identifier {next : (String × Span) × Cursor → Noted (α × Cursor)}
    (second : ∀ name span, ways.NotedAgrees depth final fun cursor => next ((name, span), cursor)) :
    ways.NotedAgrees depth final fun cursor => Noted.lift (Surface.identifier cursor) >>= next :=
  lift (fun _ _ twins => twins.parallel.identifier) fun found => second found.1 found.2

/-- Loops agree if they agree for every bound. -/
theorem sized {size : Cursor → Nat} {loop : Nat → Cursor → Noted (α × Cursor)}
    (fits : ways.Suffices size loop) (each : ∀ bound, ways.NotedAgrees depth final (loop bound)) :
    ways.NotedAgrees depth final fun cursor => loop (size cursor) cursor := by
  intro cursor twin twins
  obtain ⟨bound, here, there⟩ := fits twins
  dsimp only
  rw [here, there]
  exact each bound cursor twin twins

end NotedAgrees

/-! ### Decorators -/

/-- Arguments of decorators agree. -/
theorem decoratorArgument_agrees : ways.Inside true decoratorArgument decoratorArgument := by
  intro depth cursor twin twins
  have alike := twins.parallel.alike
  unfold decoratorArgument
  rw [← alike.peek]
  cases ahead : cursor.peek with
  | identifier | number => exact .ok ⟨(alike.step ahead).2⟩
  | _ => exact twins.parallel.fail _

section Declarations

variable (sized : ways.Sized)

include sized in
/-- Lists of arguments agree. -/
theorem decoratorArguments_agrees : ways.Everywhere true decoratorArguments decoratorArguments := by
  intro depth
  have listed := Agrees.sized sized.decoratorArguments (decoratorArgument_agrees depth).listed
  exact .unless? .leftParen .done <| listed.bind fun arguments => .expect .rightParen .done

variable {cursor twin : Cursor}

/-- A token that comes next along both ways is read along both. -/
theorem Alike.expect (alike : ways.Alike depth cursor twin) {token : Token}
    (ahead : cursor.peek = token) (real : token ≠ .eof := by simp) :
    ways.Matched (ways.Twins true (token.depthAfter depth)) (expect token cursor) (expect token twin) := by
  rw [expect_of_peek ahead, expect_of_peek (alike.peek.symm.trans ahead)]
  exact .ok (alike.step ahead real).2

variable {first other : Except Failure Cursor}

/-- What is read behind a keyword. -/
theorem Matched.behind (keyword : ways.Matched (ways.Twins true depth) first other) {α : Type}
    {next : Cursor → Noted (α × Cursor)} (second : ways.NotedAgrees depth final next) :
    ways.NotedMatched (ways.Read true final) (Noted.lift first >>= next) (Noted.lift other >>= next) :=
  keyword.lifted.bind fun after twinAfter _ _ both => second after twinAfter both

include sized

/-- Decorators are matched if their at signs are. -/
theorem Matched.decorator
    (sign : ways.Matched (ways.Twins true depth) (expect .atSign cursor) (expect .atSign twin)) :
    ways.NotedMatched (ways.Read true depth) (decorator cursor) (decorator twin) := by
  have parts : ways.Matched (ways.Read true depth) (decoratorParts cursor) (decoratorParts twin) := by
    refine sign.bind fun afterSign twinSign here there behind => ?_
    rw [behind.place here there]
    refine behind.parallel.identifier.bind ?_
    rintro ⟨⟨name, place⟩, afterName⟩ ⟨_, twinName⟩ _ _ ⟨named⟩
    exact (decoratorArguments_agrees sized depth afterName twinName named).done fun arguments stop =>
      (name, arguments, (twin.span.through place).through stop)
  refine parts.lifted.bind ?_
  rintro ⟨⟨name, arguments, span⟩, after⟩ ⟨_, twinAfter⟩ _ _ ⟨both⟩
  dsimp only
  split
  · exact .ok ⟨both⟩
  · exact ⟨rfl, .ok ⟨both⟩⟩

/-- Decorators agree, if outside brackets no other follows where the ways part behind some. -/
theorem Twins.decorators (twins : ways.Twins true depth cursor twin) (bound : Nat)
    (free : depth = 0 → ∀ {front : Tokens} {after twinAfter : Cursor},
      cursor.rest = front ++ after.rest → DecoratorsForm (front.map LocatedToken.token) →
      ways.Parallel true 0 after twinAfter → Parted after.rest twinAfter.rest →
      twinAfter.peek ≠ .atSign) :
    ways.NotedMatched (ways.Read true depth) (decorators bound cursor) (decorators bound twin) := by
  induction bound generalizing cursor twin with
  | zero => exact .ok ⟨twins⟩
  | succ bound ih =>
    have same : cursor.peek = .atSign ↔ twin.peek = .atSign := by
      refine twins.parallel.peek_iff_of fun flat parted => ?_
      have parallel := twins.parallel
      rw [flat] at parallel
      exact free flat (nil_append _).symm .nil parallel parted
    by_cases signed : cursor.peek = .atSign
    · unfold Surface.decorators
      rw [if_pos signed, if_pos (same.mp signed)]
      have alike := twins.parallel.alike_of_peek signed
      refine ((alike.expect signed).decorator sized).bind ?_
      rintro ⟨first, after⟩ ⟨_, twinAfter⟩ read _ ⟨both⟩
      obtain ⟨tokens, _, _, split, form, _⟩ := decorator_takes read
      refine (ih both fun flat front later _ ahead forms => ?_).done (first.toList ++ ·)
      have longer : cursor.rest = (tokens ++ front) ++ later.rest := by
        rw [split, ahead, append_assoc]
      refine free flat longer ?_
      rw [map_append]
      exact .cons form forms
    · rw [decorators_of_peek signed, decorators_of_peek (mt same.mpr signed)]
      exact .ok ⟨twins⟩

/-! ### Declarations -/

/-- Parameters and fields agree. -/
theorem slot_agrees (depth : Nat) : ways.NotedAgrees (depth + 1) (depth + 1) slot := by
  have decorated := NotedAgrees.sized sized.decorators fun bound cursor twin twins =>
    twins.decorators sized bound fun flat => absurd flat (Nat.succ_ne_zero depth)
  exact decorated.bind fun attributes => .identifier fun name span => .expect .colon <|
    .lift (writtenType_agrees sized nestingLimit (depth + 1)) fun written => .done

/-- Lists of parameters agree. -/
theorem parameters_agree (depth bound : Nat) :
    ways.NotedAgrees (depth + 1) (depth + 1) (parameters bound) := by
  induction bound with
  | zero => exact .done
  | succ bound ih =>
    intro cursor twin twins
    unfold Surface.parameters
    rw [← twins.parallel.alike.peek]
    split
    · exact .ok ⟨twins⟩
    · refine (slot_agrees sized depth cursor twin twins).bind ?_
      rintro ⟨first, after⟩ ⟨_, twinAfter⟩ _ _ ⟨both⟩
      rcases both.parallel.eat? .comma with
        ⟨here, there⟩ | ⟨next, twinNext, here, there, further⟩
      · simp only [here, there]
        exact .ok ⟨both⟩
      · simp only [here, there]
        exact (ih next twinNext further).done (first :: ·)

omit sized in
/-- A semicolon is passed over along both ways or along none. -/
theorem Twins.skip (twins : ways.Twins true depth cursor twin) :
    ways.Twins true depth (cursor.skip .semicolon) (twin.skip .semicolon) := by
  have same := twins.parallel.peek_iff .semicolon
  unfold Cursor.skip
  by_cases here : cursor.peek = .semicolon
  · rw [if_pos here, if_pos (same.mp here)]
    exact ((twins.parallel.alike_of_peek here).step here).2
  · rw [if_neg here, if_neg (mt same.mpr here)]
    exact twins

/-- Lists of fields agree. -/
theorem fields_agree (depth bound : Nat) : ways.NotedAgrees (depth + 1) (depth + 1) (fields bound) := by
  induction bound with
  | zero => exact .done
  | succ bound ih =>
    intro cursor twin twins
    have alike := twins.parallel.alike
    unfold Surface.fields
    rw [← alike.peek, ← alike.atEnd]
    split
    · exact .ok ⟨twins⟩
    · refine (slot_agrees sized depth cursor twin twins).bind ?_
      rintro ⟨first, after⟩ ⟨_, twinAfter⟩ _ _ ⟨both⟩
      rcases both.parallel.eat? .comma with
        ⟨here, there⟩ | ⟨next, twinNext, here, there, further⟩
      · simp only [here, there]
        exact (ih _ _ both.skip).done (first :: ·)
      · simp only [here, there]
        exact (ih next twinNext further).done (first :: ·)

/-- The result of a function agrees outside brackets. -/
theorem returnPart_agrees : ways.NotedAgrees 0 0 returnPart := by
  intro cursor twin twins
  unfold Surface.returnPart
  rcases twins.parallel.eat? .arrow with
    ⟨here, there⟩ | ⟨next, twinNext, here, there, after⟩
  · rw [here, there]
    exact .ok ⟨twins⟩
  · rw [here, there]
    have ahead := rest_of_eat? here
    obtain ⟨bound, first, second⟩ := sized.decorators after
    dsimp only
    rw [first, second]
    refine (after.decorators sized bound fun _ front _ _ split => ?_).bind ?_
    · rw [split] at ahead
      exact ways.undecorated twins.parallel ahead
    rintro ⟨attributes, decorated⟩ ⟨_, twinDecorated⟩ _ _ ⟨behind⟩
    exact (writtenType_agrees sized nestingLimit 0 _ _ behind).lifted.done (some ·, attributes)

/-- Functions are matched if their keywords are. -/
theorem Matched.function (attributes : List Attribute)
    (keyword : ways.Matched (ways.Twins true 0) (expect .fnKeyword cursor) (expect .fnKeyword twin)) :
    ways.NotedMatched (ways.Read true 0) (function attributes cursor) (function attributes twin) := by
  have listed := NotedAgrees.sized sized.parameters (parameters_agree sized 0)
  exact keyword.behind <| .identifier fun name span => .expect .leftParen <|
    listed.bind fun parameters => .expect .rightParen <| (returnPart_agrees sized).bind fun result =>
      .lift (block_agrees sized nestingLimit 0) fun body => .done

/-- Structs are matched if their keywords are. -/
theorem Matched.struct (keyword : ways.Matched (ways.Twins true 0) (expect .structKeyword cursor)
      (expect .structKeyword twin)) :
    ways.NotedMatched (ways.Read true 0) (struct cursor) (struct twin) := by
  have listed := NotedAgrees.sized sized.fields (fields_agree sized 0)
  exact keyword.behind <| .identifier fun name span => .expect .leftBrace <|
    listed.bind fun fields => .expect .rightBrace fun _ _ twins => .ok ⟨twins.skip⟩

omit sized in
/-- A name is passed over along both ways. -/
theorem Parallel.passName (parallel : ways.Parallel true depth cursor twin) :
    ways.Matched (ways.Twins true depth) ((Surface.identifier cursor).map (·.2))
      ((Surface.identifier twin).map (·.2)) := by
  have named := parallel.identifier
  generalize Surface.identifier cursor = here at named
  generalize Surface.identifier twin = there at named
  cases named with
  | error failed => exact .error failed
  | ok both =>
    obtain ⟨after⟩ := both
    exact .ok after

omit sized in
/-- What follows an address space agrees: perhaps an access mode, and the bracket. -/
theorem Twins.accessMode (twins : ways.Twins true 0 cursor twin) :
    ways.Matched (ways.Twins true 0)
      (match cursor.eat? .comma with
        | some next => (identifier next).map (·.2) >>= expect .greater
        | none => .ok cursor >>= expect .greater)
      (match twin.eat? .comma with
        | some next => (identifier next).map (·.2) >>= expect .greater
        | none => .ok twin >>= expect .greater) := by
  rcases twins.parallel.eat? .comma with
    ⟨here, there⟩ | ⟨next, twinNext, here, there, after⟩
  · rw [here, there]
    exact twins.parallel.expect .greater
  · rw [here, there]
    exact after.parallel.passName.bind fun last twinLast _ _ done => done.parallel.expect .greater

omit sized in
/-- Address spaces are matched. -/
theorem Twins.addressSpace (twins : ways.Twins true 0 cursor twin) :
    ways.Matched (ways.Twins true 0) (addressSpace cursor) (addressSpace twin) := by
  unfold Surface.addressSpace
  rcases twins.parallel.eat? .less with
    ⟨here, there⟩ | ⟨next, twinNext, here, there, opened⟩
  · rw [here, there]
    exact .ok twins
  · rw [here, there]
    dsimp only
    have ahead := rest_of_eat? here
    have same : next.peek = .uniformKeyword ↔ twinNext.peek = .uniformKeyword :=
      opened.parallel.peek_iff_of fun _ parted =>
        ways.unkeyed twins.parallel ahead opened.parallel parted
    rcases opened.parallel.eat?_of_iff same with
      ⟨here, there⟩ | ⟨keyed, twinKeyed, here, there, after⟩
    · rw [here, there]
      exact opened.parallel.passName.bind fun middle twinMiddle _ _ both => both.accessMode
    · rw [here, there]
      exact after.accessMode

omit sized in
/-- Keywords of uniforms are matched. -/
theorem Alike.uniformKeyword (alike : ways.Alike 0 cursor twin)
    (keyword : cursor.peek = .uniformKeyword ∨ cursor.peek = .varKeyword) :
    ways.Matched (ways.Twins true 0) (uniformKeyword cursor) (uniformKeyword twin) := by
  unfold Surface.uniformKeyword Cursor.eat?
  rw [← alike.peek]
  rcases keyword with ahead | ahead
  · rw [ahead]
    exact alike.expect ahead
  · rw [ahead]
    exact (alike.step ahead).2.addressSpace

/-- Uniforms are matched if their keywords are. -/
theorem Matched.uniform (attributes : List Attribute)
    (keyword : ways.Matched (ways.Twins true 0) (uniformKeyword cursor) (uniformKeyword twin)) :
    ways.NotedMatched (ways.Read true 0) (uniform attributes cursor) (uniform attributes twin) := by
  -- The reports about missing decorators do not depend on the tokens.
  have missing {name decorator : String} {span : Span} {value : Option Nat} {α : Type}
      {next : Unit → Cursor → Noted (α × Cursor)} (second : ways.NotedAgrees 0 0 (next ())) :
      ways.NotedAgrees 0 0 fun cursor => missingDecorator name decorator span value >>= (next · cursor) := by
    intro cursor twin twins
    have same : ways.NotedMatched Eq (missingDecorator name decorator span value)
        (missingDecorator name decorator span value) := by
      cases value with
      | none => exact ⟨rfl, .ok rfl⟩
      | some value => exact .ok rfl
    exact same.bind fun _ _ _ _ _ => second cursor twin twins
  exact keyword.behind <| .identifier fun name span => .expect .colon <| .lift (writtenType_agrees sized nestingLimit 0) fun written =>
      .expect .semicolon <| missing (missing .done)

end Declarations

end Ways

/-! ### Headings -/

/-- What is left behind the decorators and comments in front. -/
def Heads (start rest : Tokens) : Prop :=
  ∃ taken, start = taken ++ rest ∧ HeadingForm (taken.map LocatedToken.token)

/-- Headings can be joined. -/
theorem HeadingForm.append {tokens others : List Token} (form : HeadingForm tokens)
    (more : HeadingForm others) : HeadingForm (tokens ++ others) := by
  induction form with
  | nil => exact more
  | comment stages _ ih => exact .comment stages ih
  | decorator first _ ih =>
    rw [append_assoc]
    exact .decorator first ih

/-- Headings can be read in turn. -/
theorem Heads.append {start middle rest : Tokens} (heads : Heads start middle)
    (others : Heads middle rest) : Heads start rest := by
  obtain ⟨taken, split, form⟩ := heads
  obtain ⟨more, later, further⟩ := others
  refine ⟨taken ++ more, by rw [split, later, append_assoc], ?_⟩
  rw [map_append]
  exact form.append further

/-- A comment heads what follows. -/
theorem Heads.of_comment {cursor : Cursor} {stages : List Stage}
    (ahead : cursor.peek = .visibilityComment stages) : Heads cursor.rest cursor.advance.rest :=
  ⟨[_], rest_of_peek ahead, .comment stages .nil⟩

/-- A decorator heads what follows. -/
theorem Heads.of_decorator {cursor after : Cursor} {found : Option Attribute}
    (read : (decorator cursor).result = .ok (found, after)) : Heads cursor.rest after.rest := by
  obtain ⟨taken, _, _, split, form, _⟩ := decorator_takes read
  have single : HeadingForm (taken.map LocatedToken.token ++ []) := .decorator form .nil
  rw [append_nil] at single
  exact ⟨taken, split, single⟩

namespace Ways

variable {ways : Ways}

/-- Headings along both ways: the same decorators, and the same comments unless set apart. -/
structure HeadedAlike (ways : Ways) (apart : Tokens → Prop) (one other : Heading × Cursor) :
    Prop where
  attributes : one.1.attributes = other.1.attributes
  commented : one.1.commented = other.1.commented ∨ apart one.2.rest
  alike : ways.Alike 0 one.2 other.2
  parallel : ways.Parallel true 0 one.2 other.2

section Items

variable (sized : ways.Sized) {start : Tokens} {apart : Tokens → Prop}
  (kept : ∀ {cursor after : Cursor} {found : Option Attribute},
    (decorator cursor).result = .ok (found, after) → apart cursor.rest → apart after.rest)
  (step : ∀ {cursor twin : Cursor}, ways.Parallel true 0 cursor twin → Heads start cursor.rest →
    ways.Alike 0 cursor twin ∨ ∀ {bound twinBound : Nat} {found twinFound : Heading},
      found.attributes = twinFound.attributes → cursor.remaining ≤ bound →
      twin.remaining ≤ twinBound → ways.NotedMatched (ways.HeadedAlike apart)
        (Surface.heading bound found cursor) (Surface.heading twinBound twinFound twin))

include sized kept step

/-- What stands in front of an item agrees, if it does where the ways part. -/
theorem Parallel.heading {bound twinBound : Nat} {found twinFound : Heading} {cursor twin : Cursor}
    (parallel : ways.Parallel true 0 cursor twin) (heads : Heads start cursor.rest)
    (attributes : found.attributes = twinFound.attributes)
    (commented : found.commented = twinFound.commented ∨ apart cursor.rest)
    (enough : cursor.remaining ≤ bound) (twinEnough : twin.remaining ≤ twinBound) :
    ways.NotedMatched (ways.HeadedAlike apart) (heading bound found cursor)
      (heading twinBound twinFound twin) := by
  induction bound using Nat.strongRecOn generalizing twinBound found twinFound cursor twin with
  | ind bound ih =>
    rcases step parallel heads with alike | parted
    · by_cases comment : ∃ stages, cursor.peek = .visibilityComment stages
      · obtain ⟨stages, ahead⟩ := comment
        obtain ⟨bound, rfl, less⟩ := exists_bound_of_peek ahead enough
        obtain ⟨twinBound, rfl, twinLess⟩ :=
          exists_bound_of_peek (alike.peek.symm.trans ahead) twinEnough
        unfold Surface.heading
        rw [← alike.peek, ahead]
        exact ih bound (Nat.lt_succ_self _) (alike.step ahead).2.parallel
          (heads.append (.of_comment ahead)) attributes (.inl rfl) less twinLess
      · by_cases ahead : cursor.peek = .atSign
        · obtain ⟨bound, rfl, _⟩ := exists_bound_of_peek ahead enough
          obtain ⟨twinBound, rfl, _⟩ :=
            exists_bound_of_peek (alike.peek.symm.trans ahead) twinEnough
          unfold Surface.heading
          rw [← alike.peek, ahead]
          refine ((alike.expect ahead).decorator sized).bind ?_
          rintro ⟨next, after⟩ ⟨_, twinAfter⟩ read twinRead ⟨both⟩
          have shorter := remaining_lt_of_decorator read
          have twinShorter := remaining_lt_of_decorator twinRead
          refine ih bound (Nat.lt_succ_self _) both.parallel (heads.append (.of_decorator read)) ?_
            (commented.imp id (kept read)) (by omega) (by omega)
          rw [attributes]
        · have plain := not_exists.mp comment
          rw [heading_of_peek plain ahead, heading_of_peek (alike.peek ▸ plain) (alike.peek ▸ ahead)]
          exact .ok ⟨attributes, commented, alike, parallel⟩
    · exact parted attributes enough twinEnough

/-! ### Items -/

omit kept step

variable (headless : ∀ {cursor : Cursor}, apart cursor.rest →
  cursor.peek ≠ .uniformKeyword ∧ cursor.peek ≠ .varKeyword)

include headless

/-- An item agrees, if its heading does and no uniform stands where the comments differ. -/
theorem NotedMatched.item {cursor twin : Cursor}
    (headed : ways.NotedMatched (ways.HeadedAlike apart) (heading cursor.remaining {} cursor)
      (heading twin.remaining {} twin)) :
    ways.NotedMatched (ways.Read true 0) (item cursor) (item twin) := by
  refine headed.bind ?_
  rintro ⟨heading, after⟩ ⟨twinHeading, twinAfter⟩ _ _ ⟨attributes, commented, alike, parallel⟩
  dsimp only at attributes commented alike parallel ⊢
  have same (keyword : after.peek = .uniformKeyword ∨ after.peek = .varKeyword) :
      heading = twinHeading := by
    rcases commented with commented | apart
    · obtain ⟨_, _⟩ := heading
      obtain ⟨_, _⟩ := twinHeading
      cases attributes
      cases commented
      rfl
    · obtain ⟨notUniform, notVar⟩ := headless apart
      exact absurd keyword (not_or.mpr ⟨notUniform, notVar⟩)
  rw [← alike.peek]
  cases ahead : after.peek with
  | fnKeyword =>
    rw [attributes]
    exact ((alike.expect ahead).function sized twinHeading.attributes).done Declaration.function
  | structKeyword => exact ((alike.expect ahead).struct sized).done Declaration.struct
  | uniformKeyword =>
    rw [same (.inl ahead)]
    exact ((alike.uniformKeyword (.inl ahead)).uniform sized twinHeading.uniformAttributes).done Declaration.uniform
  | varKeyword =>
    rw [same (.inr ahead)]
    exact ((alike.uniformKeyword (.inr ahead)).uniform sized twinHeading.uniformAttributes).done Declaration.uniform
  | _ =>
    dsimp only
    rw [attributes]
    split <;> exact (parallel.fail _).lifted

include kept step

/-- Items agree behind the same heading. -/
theorem Parallel.item {cursor twin : Cursor} (parallel : ways.Parallel true 0 cursor twin)
    (heads : Heads start cursor.rest) : ways.NotedMatched (ways.Read true 0) (item cursor) (item twin) :=
  NotedMatched.item sized headless <|
    parallel.heading sized kept step heads rfl (.inl rfl) (Nat.le_refl _) (Nat.le_refl _)

end Items

/-- An item agrees, if the ways do not part in front of it. -/
theorem Parallel.item_of_alike (sized : ways.Sized) {start : Tokens} {cursor twin : Cursor}
    (parallel : ways.Parallel true 0 cursor twin)
    (alike : ∀ {cursor twin : Cursor}, ways.Parallel true 0 cursor twin →
      Heads start cursor.rest → ways.Alike 0 cursor twin) (heads : Heads start cursor.rest) :
    ways.NotedMatched (ways.Read true 0) (Surface.item cursor) (Surface.item twin) :=
  @Parallel.item ways sized start (fun _ => False) (fun _ apart => apart)
    (fun parallel heads => .inl (alike parallel heads)) False.elim cursor twin parallel heads

end Ways

end Shading.Surface
