import Mathlib.Algebra.Ring.Int.Defs
import Shading.Proofs.Descent

/-!
# A broken item does not spoil its neighbours

Items that are read without a report close their brackets and end with a brace or a semicolon, so they
are read in the same way when other items follow. An item that cannot be read is passed over up to the
next token that can start an item outside all brackets. So where its brackets are balanced, and no item
could start in it behind the place where reading failed, its neighbours are read as if they stood alone.
-/

namespace Shading.Surface

open List Cursor

variable {cursor : Cursor} {tokens other rest more : Tokens} {located : LocatedToken}
  {token : Token} {depth : Nat} {declaration : Declaration} {failure : Failure}

/-! ### Sequences of items -/

/-- What all tokens ahead are read as. -/
def Cursor.reading (cursor : Cursor) : Reading := items cursor.remaining cursor

/-- Declarations in front of what follows. -/
def Reading.behind (program : Program) (rest : Reading) : Reading :=
  { rest with declarations := rest.declarations.map (program ++ ·) }

/-- Without tokens nothing is read. -/
theorem Cursor.reading_of_nil (ended : cursor.rest = []) : cursor.reading = ⟨some [], []⟩ := by
  simp [Cursor.reading, Cursor.remaining, ended, items]

/-- An item that is read stands before the others. -/
theorem Cursor.reading_of_ok {next : Cursor}
    (read : (item cursor).result = .ok (declaration, next)) :
    cursor.reading = next.reading.prepend (item cursor).notes (some declaration) := by
  have shorter := remaining_lt_of_item read
  obtain ⟨bound, same⟩ := Nat.exists_eq_add_of_lt shorter
  have unread : cursor.atEnd = false := by
    cases tokens : cursor.rest with
    | nil => simp [Cursor.remaining, tokens] at shorter
    | cons located rest => simp [Cursor.atEnd, tokens]
  have later : items (next.remaining + bound) next = next.reading :=
    items_need_no_bound.eq_of_le _ (Nat.le_add_right _ _) (Nat.le_refl _)
  rw [Cursor.reading, same, items, if_neg (by simp [unread])]
  simp only [read, later]

/-- Behind a broken item reading goes on where it can be taken up. -/
theorem Cursor.reading_of_error (ahead : cursor.rest ≠ [])
    (read : (item cursor).result = .error failure) (found : recover cursor failure = (0, rest)) :
    cursor.reading = (Cursor.reading { failure.cursor with rest }).prepend
      ((item cursor).notes ++ [failure.diagnostic]) none := by
  have shorter := length_recover_lt ahead failure
  rw [found] at shorter
  obtain ⟨bound, same⟩ := Nat.exists_eq_add_of_lt shorter
  have later : items (rest.length + bound) { failure.cursor with rest } =
      Cursor.reading { failure.cursor with rest } :=
    items_need_no_bound.eq_of_le _ (Nat.le_add_right _ _) (Nat.le_refl _)
  rw [Cursor.reading, same, items, if_neg (by simpa [Cursor.atEnd] using ahead)]
  simp only [read, found, later, if_pos]

/-- Where nothing is reported, the first item is read. -/
theorem exists_item_of_silent (ahead : cursor.rest ≠ []) (silent : cursor.reading.diagnostics = []) :
    ∃ declaration next, item cursor = ⟨[], .ok (declaration, next)⟩ ∧
      next.reading.diagnostics = [] := by
  cases outcome : (item cursor).result with
  | ok read =>
    obtain ⟨declaration, next⟩ := read
    rw [reading_of_ok outcome] at silent
    obtain ⟨noteless, later⟩ := append_eq_nil_iff.mp silent
    refine ⟨declaration, next, ?_, later⟩
    rw [← noteless, ← outcome]
  | error failure =>
    obtain ⟨bound, same⟩ := Nat.exists_eq_add_of_lt (length_pos_iff.mpr ahead)
    rw [Cursor.reading, Cursor.remaining, same, items,
      if_neg (by simpa [Cursor.atEnd] using ahead)] at silent
    simp only [outcome] at silent
    split at silent
    · simp [Reading.prepend] at silent
    · split at silent <;> simp at silent

/-! ### Lists of tokens as ways -/

/-- Two lists of tokens along which the same is read. -/
structure TokenWays where
  /-- What is left along both ways, where some number of brackets are open. -/
  Parallel : Nat → Tokens → Tokens → Prop
  /-- The same token comes next along both ways, or both have ended, or they part outside brackets. -/
  next {depth : Nat} {rest other : Tokens} (parallel : Parallel depth rest other) :
    (∃ located rest' other', rest = located :: rest' ∧ other = located :: other' ∧
      Parallel (located.token.depthAfter depth) rest' other') ∨
    (rest = [] ∧ other = []) ∨ (depth = 0 ∧ Parted rest other)
  /-- Where they part behind the decorators of a result, no other decorator follows. -/
  undecorated {arrow : Span} {taken rest other whole : Tokens}
    (start : Parallel 0 (⟨.arrow, arrow⟩ :: (taken ++ rest)) whole)
    (form : DecoratorsForm (taken.map LocatedToken.token)) (parallel : Parallel 0 rest other)
    (parted : Parted rest other) : ∀ next ∈ other.head?, next.token ≠ .atSign
  /-- Where they part in front of an address space, it does not follow. -/
  unkeyed {less : Span} {rest other whole : Tokens}
    (start : Parallel 0 (⟨.less, less⟩ :: rest) whole) (parallel : Parallel 0 rest other)
    (parted : Parted rest other) : ∀ next ∈ other.head?, next.token ≠ .uniformKeyword

/-- The first token comes next. -/
theorem Cursor.peek_ne_of_head? (cursor : Cursor) (real : token ≠ .eof)
    (other : ∀ next ∈ cursor.rest.head?, next.token ≠ token) : cursor.peek ≠ token := by
  intro ahead
  exact other ⟨token, cursor.span⟩ (by rw [rest_of_peek ahead real]; rfl) rfl

namespace TokenWays

variable {tokens : TokenWays} {cursor twin : Cursor}

/-- Both ways can be advanced. -/
theorem advance (next : ∃ located rest other, cursor.rest = located :: rest ∧ twin.rest = located :: other ∧
      tokens.Parallel (located.token.depthAfter depth) rest other) :
    ∃ located rest other, cursor.rest = located :: rest ∧ twin.rest = located :: other ∧
      tokens.Parallel (located.token.depthAfter depth) cursor.advance.rest twin.advance.rest := by
  obtain ⟨located, rest, other, here, there, after⟩ := next
  refine ⟨located, rest, other, here, there, ?_⟩
  simpa only [Cursor.advance, here, there] using after

/-- The ways that cursors go along, with failures of the same code and place. -/
def ways (tokens : TokenWays) : Ways where
  Parallel _ depth cursor twin := tokens.Parallel depth cursor.rest twin.rest
  Failed failure other := failure.error.code = other.error.code ∧
    ∃ depth, tokens.Parallel depth failure.cursor.rest other.cursor.rest
  forget parallel := parallel
  next parallel := (tokens.next parallel).imp_left advance
  fails parallel _ code := ⟨code _ _, _, parallel⟩
  undecorated start ahead form behind parted :=
    peek_ne_of_head? _ (by simp) (tokens.undecorated (ahead ▸ start) form behind parted)
  unkeyed start ahead behind parted :=
    peek_ne_of_head? _ (by simp) (tokens.unkeyed (ahead ▸ start) behind parted)

/-- The bounds of loops do not matter. -/
theorem sized (tokens : TokenWays) : tokens.ways.Sized where
  typeArguments allowance _ _ cursor twin _ := (separated_needs_no_bound
    (typeArgument_advances (innerType_advances allowance))).exists_bound cursor twin
  arguments allowance _ _ cursor twin _ := by
    refine (listed_needs_no_bound (nested_advances ?_)).exists_bound cursor twin
    cases allowance with
    | zero => simp [Ways.innerLevel]
    | succ allowance =>
      rintro _ ⟨⟩
      exact expression_advances allowance
  statements allowance _ _ cursor twin _ :=
    (statements_need_no_bound (statement_consumes allowance)).exists_bound cursor twin
  decoratorArguments _ _ cursor twin _ :=
    (listed_needs_no_bound decoratorArgument_advances).exists_bound cursor twin
  decorators _ _ cursor twin _ := decorators_need_no_bound.exists_bound cursor twin
  parameters _ _ cursor twin _ := parameters_need_no_bound.exists_bound cursor twin
  fields _ _ cursor twin _ := fields_need_no_bound.exists_bound cursor twin

/-- The same token comes next, or both ways have ended. -/
theorem alike (next : (∃ located rest other, cursor.rest = located :: rest ∧ twin.rest = located :: other ∧
      tokens.Parallel (located.token.depthAfter depth) rest other) ∨
    (cursor.rest = [] ∧ twin.rest = [])) : tokens.ways.Alike depth cursor twin :=
  .of_next (next.imp_left advance)

end TokenWays

/-! ### Closed items -/

/-- Joined tokens leave brackets open one after the other. -/
theorem depthAfter_append (depth : Nat) (tokens others : Tokens) :
    depthAfter depth (tokens ++ others) = depthAfter (depthAfter depth tokens) others :=
  foldl_append

/-- Where ways part at the same token, that is a comment. -/
theorem Parted.ne_of_head? (parted : Parted rest other)
    (same : rest.head? = other.head?)
    (plain : ∀ stages, token ≠ .visibilityComment stages) :
    ∀ next ∈ other.head?, next.token ≠ token := by
  intro next first ahead
  obtain ⟨stages, comment⟩ := isComment_iff.mp (parted.comment next (same ▸ first))
  exact plain stages (ahead.symm.trans comment)

/-- What is left behind tokens that leave `depth` brackets open. -/
def Leaves (start : Tokens) (depth : Nat) (rest other : Tokens) : Prop :=
  rest = other ∧ ∃ taken, start = taken ++ rest ∧ depthAfter 0 taken = depth

/-- The next token is the same, or both have ended. -/
theorem Leaves.next {start : Tokens}
    (leaves : Leaves start depth rest other) :
    (∃ located rest' other', rest = located :: rest' ∧ other = located :: other' ∧
      Leaves start (located.token.depthAfter depth) rest' other') ∨ (rest = [] ∧ other = []) := by
  obtain ⟨rfl, taken, split, opened⟩ := leaves
  cases rest with
  | nil => exact .inr ⟨rfl, rfl⟩
  | cons located rest =>
    refine .inl ⟨located, rest, rest, rfl, rfl, rfl, taken ++ [located], ?_, ?_⟩
    · rw [split, append_assoc, singleton_append]
    · rw [depthAfter_append, opened]
      rfl

/-- One way through tokens, on which brackets are counted. -/
def TokenWays.single (start : List LocatedToken) : TokenWays where
  Parallel := Leaves start
  next leaves := leaves.next.imp id .inl
  undecorated _ _ leaves parted := parted.ne_of_head? (congrArg List.head? leaves.1) (by simp)
  unkeyed _ leaves parted := parted.ne_of_head? (congrArg List.head? leaves.1) (by simp)

/-- Tokens of closed items: no bracket is open at their end. -/
structure Closed (depth : Nat) (tokens : Tokens) : Prop where
  closes : depthAfter depth tokens = 0
  ends : ∀ last ∈ tokens.getLast?, endsItem last.token

/-- The tokens of an item are closed. -/
theorem item_closed {cursor next : Cursor}
    (read : (item cursor).result = .ok (declaration, next)) :
    ∃ taken, cursor.rest = taken ++ next.rest ∧ Closed 0 taken := by
  have start : (TokenWays.single cursor.rest).ways.Parallel true 0 cursor cursor := ⟨rfl, [], rfl, rfl⟩
  have matched := (start.item_of_alike (TokenWays.sized _) (fun leaves _ => TokenWays.alike leaves.next)
    ⟨[], rfl, .nil⟩).result
  rw [read] at matched
  cases matched with
  | ok both =>
    obtain ⟨twins⟩ := both
    obtain ⟨_, taken, split, closes⟩ := twins.parallel
    obtain ⟨before, last, front, ends, _⟩ := item_takes read
    refine ⟨taken, split, closes, ?_⟩
    have same : taken ++ next.rest = before ++ [last] ++ next.rest := by
      rw [← split, front, append_assoc, singleton_append]
    rw [append_cancel_right same, getLast?_concat]
    rintro _ ⟨⟩
    exact ends

/-- Closed tokens can be joined. -/
theorem Closed.append {others : Tokens} (closed : Closed 0 tokens)
    (more : Closed 0 others) : Closed 0 (tokens ++ others) where
  closes := by rw [depthAfter_append, closed.closes, more.closes]
  ends last isLast := by
    rw [getLast?_append] at isLast
    rcases Option.or_eq_some_iff.mp isLast with behind | ⟨_, front⟩
    · exact more.ends last behind
    · exact closed.ends last front

/-- Items that are read without a report are closed. -/
theorem closed_of_silent (silent : cursor.reading.diagnostics = []) : Closed 0 cursor.rest := by
  generalize size : cursor.remaining = count
  induction count using Nat.strongRecOn generalizing cursor with
  | ind count ih =>
    by_cases ended : cursor.rest = []
    · rw [ended]
      exact ⟨rfl, nofun⟩
    · obtain ⟨declaration, next, read, later⟩ := exists_item_of_silent ended silent
      have outcome : (item cursor).result = .ok (declaration, next) := by rw [read]
      have shorter := remaining_lt_of_item outcome
      obtain ⟨taken, split, closed⟩ := item_closed outcome
      rw [split]
      exact closed.append (ih next.remaining (by omega) later rfl)

/-! ### Items in front of others -/

/-- Closed tokens do not end behind tokens that end no item. -/
theorem Closed.goes_on {taken : Tokens} (closed : Closed depth (taken ++ rest))
    (nonempty : taken ++ rest ≠ [])
    (endless : ∀ token ∈ taken.map LocatedToken.token, endsItem token = false) : rest ≠ [] := by
  rintro rfl
  rw [append_nil] at closed nonempty
  have ends := closed.ends _ (getLast?_eq_some_getLast nonempty)
  rw [endless _ (mem_map_of_mem (getLast_mem nonempty))] at ends
  cases ends

/-- Decorator arguments end no item. -/
theorem DecoratorArgumentsForm.endless {tokens : List Token} (form : DecoratorArgumentsForm tokens) :
    ∀ token ∈ tokens, endsItem token = false := by
  have plain {argument : Token} (plain : isDecoratorArgument argument) : endsItem argument = false := by
    cases argument <;> first | rfl | cases plain
  induction form with
  | nil => exact nofun
  | last argument => simpa using plain argument
  | cons argument _ ih =>
    exact forall_mem_cons.mpr ⟨plain argument, forall_mem_cons.mpr ⟨rfl, ih⟩⟩

/-- Decorators end no item. -/
theorem DecoratorForm.endless {tokens : List Token} (form : DecoratorForm tokens) :
    ∀ token ∈ tokens, endsItem token = false := by
  cases form with
  | plain name => simp [endsItem]
  | applied name listed =>
    have inner := listed.endless
    simpa [endsItem, or_imp, forall_and] using inner

/-- Lists of decorators end no item. -/
theorem DecoratorsForm.endless {tokens : List Token} (form : DecoratorsForm tokens) :
    ∀ token ∈ tokens, endsItem token = false := by
  induction form with
  | nil => exact nofun
  | cons first _ ih => exact forall_mem_append.mpr ⟨first.endless, ih⟩

/-- Headings end no item. -/
theorem HeadingForm.endless {tokens : List Token} (form : HeadingForm tokens) :
    ∀ token ∈ tokens, endsItem token = false := by
  induction form with
  | nil => exact nofun
  | comment stages _ ih => exact forall_mem_cons.mpr ⟨rfl, ih⟩
  | decorator first _ ih => exact forall_mem_append.mpr ⟨first.endless, ih⟩

/-- Closed tokens, and the same with others behind them. -/
def Continued (more : Tokens) (depth : Nat) (rest other : Tokens) : Prop :=
  other = rest ++ more ∧ Closed depth rest

/-- Before closed tokens end, the next is the same. -/
theorem Continued.next
    (continued : Continued more depth rest other) (ahead : rest ≠ []) :
    ∃ located rest' other', rest = located :: rest' ∧ other = located :: other' ∧
      Continued more (located.token.depthAfter depth) rest' other' := by
  obtain ⟨rfl, closes, ends⟩ := continued
  obtain ⟨located, rest, rfl⟩ := exists_cons_of_ne_nil ahead
  refine ⟨located, rest, rest ++ more, rfl, rfl, rfl, closes, fun last isLast => ends last ?_⟩
  rw [getLast?_cons, isLast]
  rfl

/-- There, ways do not part. -/
theorem Continued.ne_of_parted
    (continued : Continued more depth rest other) (parted : Parted rest other)
    (plain : ∀ stages, token ≠ .visibilityComment stages) (ahead : rest ≠ []) :
    ∀ next ∈ other.head?, next.token ≠ token := by
  obtain ⟨located, _, _, rfl, rfl, _⟩ := continued.next ahead
  exact parted.ne_of_head? rfl plain

/-- Where closed tokens have ended before items, ways part. -/
theorem Continued.parted
    (continued : Continued more depth [] other) (starts : ∀ next ∈ more.head?, startsItem next.token) :
    depth = 0 ∧ Parted [] other := by
  obtain ⟨rfl, closes, _⟩ := continued
  exact ⟨closes, by simp, starts⟩

/-- Closed tokens alone and before items are two ways. -/
def TokenWays.continued (more : Tokens) (starts : ∀ next ∈ more.head?, startsItem next.token) :
    TokenWays where
  Parallel := Continued more
  next continued := by
    rename_i depth rest other
    by_cases ended : rest = []
    · subst ended
      exact .inr (.inr (continued.parted starts))
    · exact .inl (continued.next ended)
  undecorated {arrow taken rest _ _} start form continued parted := by
    have closed : Closed 0 ((⟨.arrow, arrow⟩ :: taken) ++ rest) := start.2
    have ahead := closed.goes_on (by simp) (forall_mem_cons.mpr ⟨rfl, form.endless⟩)
    exact continued.ne_of_parted parted (by simp) ahead
  unkeyed {less rest _ _} start continued parted := by
    have closed : Closed 0 ([⟨.less, less⟩] ++ rest) := start.2
    exact continued.ne_of_parted parted (by simp) (closed.goes_on (by simp) (by simp [endsItem]))

/-- The cursor with more tokens behind, and another end. -/
def Cursor.followedBy (more : Tokens) (finish : Span) (cursor : Cursor) : Cursor :=
  { cursor with rest := cursor.rest ++ more, finish }

section Followed

variable {finish : Span}
  (starts : ∀ located ∈ more.head?, startsItem located.token)

include starts

/-- A closed item is read in the same way in front of others. -/
theorem item_followedBy {cursor next : Cursor}
    (closed : Closed 0 cursor.rest) (read : item cursor = ⟨[], .ok (declaration, next)⟩) :
    item (cursor.followedBy more finish) = ⟨[], .ok (declaration, next.followedBy more finish)⟩ := by
  have nonempty : cursor.rest ≠ [] := by
    obtain ⟨taken, last, split, _⟩ := item_takes (congrArg Noted.result read)
    simp [split]
  let ways := (TokenWays.continued more starts).ways
  have parallel : ways.Parallel true 0 cursor (cursor.followedBy more finish) := ⟨rfl, closed⟩
  -- A heading does not end closed tokens, so the ways do not part in it.
  have alike {here twin : Cursor} (parallel : ways.Parallel true 0 here twin)
      (heads : Heads cursor.rest here.rest) : ways.Alike 0 here twin := by
    obtain ⟨taken, split, form⟩ := heads
    rw [split] at closed nonempty
    exact TokenWays.alike (.inl (Continued.next parallel (closed.goes_on nonempty form.endless)))
  obtain ⟨notes, matched⟩ := parallel.item_of_alike (TokenWays.sized _) alike ⟨[], rfl, .nil⟩
  have lands : (cursor.followedBy more finish).Lands Prod.snd
    (item (cursor.followedBy more finish)).result := item_advances _
  generalize item (cursor.followedBy more finish) = followed at notes matched lands ⊢
  obtain ⟨others, outcome⟩ := followed
  rw [read] at notes matched
  cases notes
  cases matched with
  | ok both =>
    obtain @⟨_, _, ⟨previous, rest, stop⟩, ⟨samePrevious, behind, _⟩⟩ := both
    have reached : (cursor.followedBy more finish).Reaches ⟨previous, rest, stop⟩ := lands
    obtain rfl : next.previous = previous := samePrevious
    obtain rfl : rest = next.rest ++ more := behind
    obtain rfl : stop = finish := reached.finish
    rfl

/-- Items read without a report are read alike before others. -/
theorem reading_followedBy (cursor : Cursor) (silent : cursor.reading.diagnostics = []) :
    ∃ program previous, cursor.reading.declarations = some program ∧
      (cursor.followedBy more finish).reading =
        .behind program (Cursor.reading ⟨previous, more, finish⟩) := by
  generalize size : cursor.remaining = count
  induction count using Nat.strongRecOn generalizing cursor with
  | ind count ih =>
    by_cases ended : cursor.rest = []
    · refine ⟨[], cursor.previous, by rw [reading_of_nil ended], ?_⟩
      simp [Cursor.followedBy, ended, Reading.behind]
    · obtain ⟨declaration, next, read, later⟩ := exists_item_of_silent ended silent
      have outcome : (item cursor).result = .ok (declaration, next) := by rw [read]
      have shorter := remaining_lt_of_item outcome
      obtain ⟨program, previous, declared, same⟩ := ih next.remaining (by omega) next later rfl
      have still : item (cursor.followedBy more finish) = _ :=
        item_followedBy starts (closed_of_silent silent) read
      refine ⟨declaration :: program, previous, ?_, ?_⟩
      · rw [reading_of_ok outcome, Reading.prepend, declared]
        rfl
      · rw [reading_of_ok (congrArg Noted.result still), same, still]
        simp [Reading.prepend, Reading.behind, Function.comp_def]

end Followed

/-- An item is read alike whatever stands before. -/
theorem item_eq_of_startsItem (starts : startsItem located.token) (previous other : Span)
    (rest : Tokens) (finish : Span) :
    item ⟨previous, located :: rest, finish⟩ = item ⟨other, located :: rest, finish⟩ := by
  obtain ⟨token, span⟩ := located
  cases token with
  | fnKeyword | structKeyword | uniformKeyword | varKeyword | atSign | visibilityComment => rfl
  | _ => cases starts

/-- Items are read alike whatever stands before. -/
theorem reading_eq_of_startsItem (starts : startsItem located.token) (previous other : Span)
    (rest : Tokens) (finish : Span) :
    Cursor.reading ⟨previous, located :: rest, finish⟩ =
      Cursor.reading ⟨other, located :: rest, finish⟩ := by
  have same := item_eq_of_startsItem starts previous other rest finish
  simp only [Cursor.reading, Cursor.remaining, length_cons, items, Cursor.atEnd,
    isEmpty_cons, same]
  rfl

/-! ### Brackets -/

/-- How a token changes the number of open brackets. -/
def bracketChange (token : Token) : Int :=
  if token.opens then 1 else if token.closes then -1 else 0

/-- How many more brackets tokens open than they close. -/
def bracketCount (tokens : List LocatedToken) : Int :=
  (tokens.map fun located => bracketChange located.token).sum

/-- Where no bracket closes too much, the depth is counted. -/
theorem depthAfter_eq_bracketCount
    (nonnegative : ∀ front, front <+: tokens → 0 ≤ depth + bracketCount front) :
    (depthAfter depth tokens : Int) = depth + bracketCount tokens := by
  induction tokens generalizing depth with
  | nil => simp [depthAfter, bracketCount]
  | cons located rest ih =>
    have step : (located.token.depthAfter depth : Int) = depth + bracketChange located.token := by
      have first := nonnegative [located] (by simp)
      unfold bracketCount bracketChange at first
      unfold Token.depthAfter bracketChange
      split
      · simp
      · split
        · simp_all
          omega
        · simp
    have inside : ∀ front, front <+: rest →
        0 ≤ (located.token.depthAfter depth : Int) + bracketCount front := by
      intro front starts
      have whole := nonnegative (located :: front) (by simpa using starts)
      rw [step, Int.add_assoc]
      simpa [bracketCount] using whole
    have later := ih inside
    rw [step, Int.add_assoc] at later
    simpa [depthAfter, bracketCount] using later

/-- Tokens in which no item starts are passed over. -/
theorem synchronize_append (starts : startsItem located.token) (rest : Tokens)
    (within : ∀ before next after, tokens = before ++ next :: after → depthAfter depth before = 0 →
      startsItem next.token = false) (closed : depthAfter depth tokens = 0) :
    synchronize depth (tokens ++ located :: rest) = (0, located :: rest) := by
  induction tokens generalizing depth with
  | nil =>
    obtain rfl : depth = 0 := closed
    simp [synchronize, starts]
  | cons next others ih =>
    have passes : (depth = 0 && startsItem next.token) = false := by
      by_cases outside : depth = 0
      · simp [within [] next others rfl outside]
      · simp [outside]
    rw [cons_append, synchronize, passes]
    exact ih (fun before later after split shallow =>
      within (next :: before) later after (by rw [split, cons_append]) shallow) closed

/-! ### A broken item between others -/

/-- Plain tokens are read as they stand. -/
theorem readTokens_plain (plain : ∀ located ∈ tokens, isPlain located.token) (finish : Span) :
    readTokens (tokens ++ [⟨.eof, finish⟩]) =
      ((Cursor.reading ⟨.none, tokens, finish⟩).declarations.getD [],
        (Cursor.reading ⟨.none, tokens, finish⟩).diagnostics) := by
  have ended : terminated (tokens ++ [⟨.eof, finish⟩]) = tokens ++ [⟨.eof, finish⟩] := by
    simp [terminated]
  have kept (depth : Nat) : retainHeadings depth (tokens ++ [⟨.eof, finish⟩]) =
      tokens ++ [⟨.eof, finish⟩] := by
    clear ended
    induction tokens generalizing depth with
    | nil => rfl
    | cons located rest ih =>
      have later := ih (fun other member => plain other (by simp [member]))
      have here := plain located (by simp)
      obtain ⟨token, span⟩ := located
      cases token with
      | visibilityComment stages => cases here
      | _ => simp [retainHeadings, later]
  have real : ∀ located ∈ tokens, located.token ≠ .eof := by
    intro located member ends
    have here := plain located member
    rw [ends] at here
    cases here
  have start : Cursor.start (tokens ++ [⟨.eof, finish⟩]) = ⟨.none, tokens, finish⟩ := by
    have before : (tokens ++ [(⟨.eof, finish⟩ : LocatedToken)]).takeWhile
        (fun located => located.token ≠ .eof) = tokens := by
      rw [takeWhile_append_of_pos (by simpa using real)]
      simp
    have stop : (tokens ++ [(⟨.eof, finish⟩ : LocatedToken)]).find?
        (fun located => located.token = .eof) = some ⟨.eof, finish⟩ := by
      rw [find?_append, find?_eq_none.mpr (by simpa using real)]
      rfl
    simp only [Cursor.start, before, stop]
  unfold readTokens
  rw [ended, kept, start]
  rfl

/-- Reading is taken up behind a balanced broken item in which no item could start outside brackets
since it failed. -/
theorem recover_broken {broken : Tokens} {previous finish : Span}
    (starts : startsItem located.token) (nonempty : broken ≠ [])
    (nonnegative : ∀ front, front <+: broken → 0 ≤ bracketCount front)
    (balanced : bracketCount broken = 0)
    (reached : (located :: rest).length ≤ failure.cursor.remaining)
    (within : ∀ before next after, broken = before ++ next :: after →
      (next :: after ++ located :: rest).length ≤ failure.cursor.remaining →
      bracketCount before = 0 → startsItem next.token = false) :
    recover ⟨previous, broken ++ located :: rest, finish⟩ failure = (0, located :: rest) := by
  -- The depth is cut off at zero and the count is not: they agree as no prefix closes too much.
  have counted {front : Tokens} (isFront : front <+: broken) :
      (depthAfter 0 front : Int) = bracketCount front := by
    have inside : ∀ earlier, earlier <+: front → 0 ≤ ((0 : Nat) : Int) + bracketCount earlier := by
      intro earlier inFront
      simpa using nonnegative earlier (inFront.trans isFront)
    simpa using depthAfter_eq_bracketCount inside
  have positive := length_pos_iff.mpr nonempty
  unfold recover Cursor.remaining
  dsimp only
  -- At least the first token is passed over, so that an item cannot fail twice in one place.
  generalize count : max 1 ((broken ++ located :: rest).length - failure.cursor.rest.length) = taken
  have least : taken ≤ broken.length := by
    simp only [Cursor.remaining, length_append, length_cons] at *
    omega
  rw [take_append_of_le_length least, drop_append_of_le_length least]
  refine synchronize_append starts rest ?_ ?_
  · intro before next after split shallow
    have whole : broken = broken.take taken ++ before ++ next :: after := by
      rw [append_assoc, ← split, take_append_drop]
    have lengths := congrArg List.length whole
    refine within (broken.take taken ++ before) next after whole ?_ ?_
    · simp only [Cursor.remaining, length_append, length_cons, length_take] at *
      omega
    · rw [← counted ⟨next :: after, whole.symm⟩, depthAfter, foldl_append]
      exact congrArg Int.ofNat shallow
  · have closed : (depthAfter 0 (broken.take taken ++ broken.drop taken) : Int) = 0 := by
      rw [take_append_drop, counted (prefix_refl broken), balanced]
    rw [depthAfter, foldl_append] at closed
    exact Int.ofNat_eq_zero.mp closed

/-- Tokens read without a report are read alike before items. -/
theorem reading_of_readTokens {stop : Span} {program : Program} (more : Tokens)
    (finish : Span) (plain : ∀ located ∈ tokens, isPlain located.token)
    (reads : readTokens (tokens ++ [⟨.eof, stop⟩]) = (program, []))
    (starts : ∀ located ∈ more.head?, startsItem located.token) :
    ∃ previous, Cursor.reading ⟨.none, tokens ++ more, finish⟩ =
      .behind program (Cursor.reading ⟨previous, more, finish⟩) := by
  rw [readTokens_plain plain] at reads
  obtain ⟨declared, silent⟩ := Prod.mk.inj reads
  obtain ⟨found, previous, whole, same⟩ := reading_followedBy starts ⟨.none, tokens, stop⟩ silent
  rw [whole] at declared
  cases declared
  exact ⟨previous, same⟩

/-- A broken item is passed over and reported, and the items around it are read as if they stood
alone, where its brackets are balanced and no item could start in it outside brackets from the token
on at which reading failed. -/
theorem recovery_isolates_item {ahead broken behind : List LocatedToken}
    {aheadStop behindStop previous finish : Span} {aheadRead behindRead : Program} {failure : Failure}
    (plain : ∀ located ∈ ahead ++ broken ++ behind, isPlain located.token)
    (aheadReads : readTokens (ahead ++ [⟨.eof, aheadStop⟩]) = (aheadRead, []))
    (behindStarts : ∃ located ∈ behind.head?, startsItem located.token)
    (behindReads : readTokens (behind ++ [⟨.eof, behindStop⟩]) = (behindRead, []))
    (brokenStarts : ∃ located ∈ broken.head?, startsItem located.token)
    (nonnegative : ∀ front, front <+: broken → 0 ≤ bracketCount front)
    (balanced : bracketCount broken = 0)
    (fails : (item ⟨previous, broken ++ behind, finish⟩).result = .error failure)
    (reached : behind.length ≤ failure.cursor.remaining)
    (within : ∀ before next after, broken = before ++ next :: after →
      (next :: after ++ behind).length ≤ failure.cursor.remaining →
      bracketCount before = 0 → startsItem next.token = false) :
    readTokens (ahead ++ broken ++ behind ++ [⟨.eof, finish⟩]) =
      (aheadRead ++ behindRead,
        (item ⟨previous, broken ++ behind, finish⟩).notes ++ [failure.diagnostic]) := by
  rw [readTokens_plain plain]
  simp only [mem_append, or_imp, forall_and] at plain
  obtain ⟨⟨plainAhead, _⟩, plainBehind⟩ := plain
  obtain ⟨firstBehind, isFirstBehind, behindStarts⟩ := behindStarts
  obtain ⟨behindRest, rfl⟩ := head?_eq_some_iff.mp isFirstBehind
  obtain ⟨firstBroken, isFirstBroken, brokenStarts⟩ := brokenStarts
  obtain ⟨brokenRest, rfl⟩ := head?_eq_some_iff.mp isFirstBroken
  have starts : ∀ located ∈ (firstBroken :: brokenRest ++ firstBehind :: behindRest).head?,
      startsItem located.token := by
    rintro _ ⟨⟩
    exact brokenStarts
  obtain ⟨lastAhead, aheadWhole⟩ := reading_of_readTokens _ finish plainAhead aheadReads starts
  obtain ⟨lastBehind, behindWhole⟩ :=
    reading_of_readTokens [] failure.cursor.finish plainBehind behindReads nofun
  have brokenWhole := reading_of_error (by simp) fails
    (recover_broken behindStarts nofun nonnegative balanced reached within)
  rw [append_assoc, aheadWhole, cons_append,
    reading_eq_of_startsItem brokenStarts lastAhead previous, ← cons_append, brokenWhole,
    reading_eq_of_startsItem behindStarts _ .none]
  rw [append_nil] at behindWhole
  rw [behindWhole, reading_of_nil rfl]
  simp [Reading.behind, Reading.prepend]

/-- Tokens at no place. -/
def unplaced (tokens : List Token) : List LocatedToken := tokens.map fun token => ⟨token, .none⟩

/-- A parameter lacks its type; the structs around are read. -/
theorem recovery_isolates_untyped_parameter :
    readTokens (unplaced [.structKeyword, .identifier "A", .leftBrace, .rightBrace] ++
        unplaced [.fnKeyword, .identifier "f", .leftParen, .identifier "x", .rightParen, .leftBrace,
          .rightBrace] ++
        unplaced [.structKeyword, .identifier "B", .leftBrace, .rightBrace] ++ [⟨.eof, .none⟩]) =
      ([.struct ⟨"A", [], .none⟩, .struct ⟨"B", [], .none⟩],
        [.located .unexpectedToken (SyntaxError.message (.expected .colon .rightParen)) .none]) := by
  let broken := unplaced [.fnKeyword, .identifier "f", .leftParen, .identifier "x", .rightParen,
    .leftBrace, .rightBrace]
  let behind := unplaced [.structKeyword, .identifier "B", .leftBrace, .rightBrace]
  have aheadReads : readTokens (unplaced [.structKeyword, .identifier "A", .leftBrace, .rightBrace] ++
      [⟨.eof, .none⟩]) = ([.struct ⟨"A", [], .none⟩], []) := rfl
  have behindReads : readTokens (behind ++ [⟨.eof, .none⟩]) = ([.struct ⟨"B", [], .none⟩], []) := rfl
  have fails : (item ⟨.none, broken ++ behind, .none⟩).result =
      .error ⟨.expected .colon .rightParen, ⟨.none, broken.drop 4 ++ behind, .none⟩⟩ := rfl
  have nonnegative : ∀ front, front <+: broken → 0 ≤ bracketCount front := by
    have each : ∀ count < 8, 0 ≤ bracketCount (broken.take count) := by decide
    intro front isFront
    rw [prefix_iff_eq_take.mp isFront]
    exact each front.length (Nat.lt_succ_of_le isFront.length_le)
  have within : ∀ before next after, broken = before ++ next :: after →
      (next :: after ++ behind).length ≤ 7 → bracketCount before = 0 →
      startsItem next.token = false := by
    have each : ∀ count < 7, 4 ≤ count → bracketCount (broken.take count) = 0 →
        broken[count]?.any (fun next => startsItem next.token) = false := by decide
    intro before next after split reached outside
    have size : 7 = (before ++ next :: after).length := congrArg List.length split
    have rest : behind.length = 4 := rfl
    rw [length_append, length_cons] at size reached
    have here := each before.length (by omega) (by omega)
    rw [split] at here
    simpa [outside] using here
  exact recovery_isolates_item (by decide) aheadReads ⟨_, rfl, rfl⟩ behindReads ⟨_, rfl, rfl⟩
    nonnegative (by decide) fails (by decide) within

end Shading.Surface
