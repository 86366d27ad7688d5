import Shading.Proofs.Recovery

/-!
# Items along two ways of a fork

Two lists of tokens have the same front and the same end, but outside all brackets one makes a detour
over visibility comments. Where the fork is even, the same declarations are read along both ways, and
the reports have the same codes. An item that ends before the fork is read in the same way, one that
meets the fork fails along both ways, and reading is taken up again at the fork itself. What stands
there heads no uniform, so the comments are passed over without effect.
-/

namespace Shading.Surface

open List Cursor

variable {cursor twin start : Cursor} {rest other comments : Tokens}
  {failure twinFailure : Failure} {token : Token}

/-- The token starts an item that is no uniform. -/
def halts : Token → Bool
  | .fnKeyword | .structKeyword | .atSign | .visibilityComment _ => true
  | _ => false

/-- Such a token starts an item. -/
theorem startsItem_of_halts (halting : halts token) : startsItem token := by
  cases token <;> first | rfl | cases halting

/-- Tokens that go two ways, over comments or others, to the same. -/
structure Fork where
  front : Tokens
  comments : Tokens
  others : Tokens
  behind : Tokens

namespace Fork

/-- The tokens from the fork on along one way. -/
def detour (fork : Fork) : Tokens := fork.comments ++ fork.behind

/-- The tokens from the fork on along the other way. -/
def shortcut (fork : Fork) : Tokens := fork.others ++ fork.behind

/-- The ways cannot be told apart by what is read. -/
structure Even (fork : Fork) : Prop where
  areComments : ∀ located ∈ fork.comments ++ fork.others, isComment located
  commented : fork.comments ≠ []
  halts : ∃ next rest, fork.shortcut = next :: rest ∧ halts next.token
  undivided : EndsInResult fork.front → ∀ next ∈ fork.shortcut.head?, next.token ≠ .atSign
  headless : ¬HeadsUniform fork.behind

/-- What is left along both ways: the fork lies ahead, outside all brackets, or the ways have met. -/
inductive Parallel (fork : Fork) (depth : Nat) : Tokens → Tokens → Prop where
  | ahead {front : Tokens} (even : fork.Even) (within : front <:+ fork.front)
      (closes : depthAfter depth front = 0) :
      Parallel fork depth (front ++ fork.detour) (front ++ fork.shortcut)
  | joined {rest : Tokens} (behind : rest <:+ fork.behind) : Parallel fork depth rest rest

variable {fork : Fork} {depth : Nat}

/-- The detour begins with a comment. -/
theorem Even.detour_eq (even : fork.Even) :
    ∃ stages span rest, fork.detour = ⟨.visibilityComment stages, span⟩ :: rest := by
  obtain ⟨⟨token, span⟩, rest, split⟩ := exists_cons_of_ne_nil even.commented
  obtain ⟨stages, rfl⟩ := isComment_iff.mp (even.areComments ⟨token, span⟩ (by simp [split]))
  exact ⟨stages, span, rest ++ fork.behind, by rw [detour, split, cons_append]⟩

/-- The same token comes next along both ways, or this is the fork. -/
theorem Parallel.next (parallel : fork.Parallel depth rest other) :
    (∃ located rest' other', rest = located :: rest' ∧ other = located :: other' ∧
      fork.Parallel (located.token.depthAfter depth) rest' other') ∨
    (rest = [] ∧ other = []) ∨
    (depth = 0 ∧ fork.Even ∧ rest = fork.detour ∧ other = fork.shortcut) := by
  cases parallel with
  | @ahead front even within closes =>
    cases front with
    | nil => exact .inr (.inr ⟨closes, even, rfl, rfl⟩)
    | cons located front =>
      exact .inl ⟨located, _, _, rfl, rfl, .ahead even ((suffix_cons _ _).trans within) closes⟩
  | joined behind =>
    cases rest with
    | nil => exact .inr (.inl ⟨rfl, rfl⟩)
    | cons located rest =>
      exact .inl ⟨located, _, _, rfl, rfl, .joined ((suffix_cons _ _).trans behind)⟩

/-- Tokens in front of the fork are the last ones there. -/
theorem Parallel.front_suffix {taken : Tokens}
    (parallel : fork.Parallel depth (taken ++ fork.detour) other) (even : fork.Even) :
    taken <:+ fork.front := by
  have positive := length_pos_iff.mpr even.commented
  generalize split : taken ++ fork.detour = rest at parallel
  cases parallel with
  | ahead _ within _ =>
    rw [append_cancel_right split]
    exact within
  | joined behind =>
    have longer := behind.length_le
    rw [← split, length_append, detour, length_append] at longer
    omega

/-- At an even fork the ways part. -/
theorem Even.parted (even : fork.Even) : Parted fork.detour fork.shortcut := by
  obtain ⟨stages, span, rest, detour⟩ := even.detour_eq
  obtain ⟨next, others, shortcut, halting⟩ := even.halts
  rw [detour, shortcut]
  refine ⟨?_, ?_⟩
  · rintro _ ⟨⟩
    rfl
  · rintro _ ⟨⟩
    exact startsItem_of_halts halting

/-- Where the ways part, a comment or the fork follows. -/
theorem Parallel.ne_of_parted (parallel : fork.Parallel depth rest other)
    (parted : Parted rest other) (plain : ∀ stages, token ≠ .visibilityComment stages)
    (free : fork.Even → rest = fork.detour → ∀ next ∈ fork.shortcut.head?, next.token ≠ token) :
    ∀ next ∈ other.head?, next.token ≠ token := by
  rcases parallel.next with ⟨_, _, _, rfl, rfl, _⟩ | ⟨rfl, rfl⟩ | ⟨_, even, detour, rfl⟩
  · exact parted.ne_of_head? rfl plain
  · exact nofun
  · exact free even detour

/-- No decorator follows where the ways part. -/
theorem Parallel.undecorated {arrow : Span} {taken whole : Tokens}
    (start : fork.Parallel 0 (⟨.arrow, arrow⟩ :: (taken ++ rest)) whole)
    (form : DecoratorsForm (taken.map LocatedToken.token)) (parallel : fork.Parallel 0 rest other)
    (parted : Parted rest other) : ∀ next ∈ other.head?, next.token ≠ .atSign := by
  refine parallel.ne_of_parted parted nofun fun even detour => ?_
  rw [detour, ← cons_append] at start
  obtain ⟨before, whole⟩ := start.front_suffix even
  refine even.undivided ⟨before.map LocatedToken.token, _, ?_, form⟩
  rw [← whole, map_append, map_cons]

/-- No address space follows where the ways part. -/
theorem Parallel.unkeyed (parallel : fork.Parallel 0 rest other) (parted : Parted rest other) :
    ∀ next ∈ other.head?, next.token ≠ .uniformKeyword := by
  refine parallel.ne_of_parted parted nofun fun even _ => ?_
  obtain ⟨next, rest, split, halting⟩ := even.halts
  rw [split]
  rintro _ ⟨⟩ keyed
  rw [keyed] at halting
  cases halting

/-- The tokens along the ways of a fork. -/
def tokenWays (fork : Fork) : TokenWays where
  Parallel := fork.Parallel
  next parallel := by
    rcases parallel.next with next | ended | ⟨flat, even, rfl, rfl⟩
    · exact .inl next
    · exact .inr (.inl ended)
    · exact .inr (.inr ⟨flat, even.parted⟩)
  undecorated := Parallel.undecorated
  unkeyed _ := Parallel.unkeyed

/-- The ways of a fork. -/
def ways (fork : Fork) : Ways := fork.tokenWays.ways

end Fork

/-- Comments are gathered one by one; the decorators stay. -/
theorem heading_comments (areComments : ∀ located ∈ comments, isComment located) (found : Heading)
    (previous finish : Span) (rest : Tokens) (bound : Nat) :
    ∃ commented previous', heading (comments.length + bound) found ⟨previous, comments ++ rest, finish⟩ =
      heading bound ⟨found.attributes, commented⟩ ⟨previous', rest, finish⟩ := by
  induction comments generalizing found previous with
  | nil => exact ⟨found.commented, previous, by rw [length_nil, Nat.zero_add, nil_append]⟩
  | cons located others ih =>
    obtain ⟨comment, later⟩ := forall_mem_cons.mp areComments
    obtain ⟨token, span⟩ := located
    obtain ⟨stages, rfl⟩ := isComment_iff.mp comment
    rw [length_cons, Nat.succ_add]
    exact ih later { found with commented := some stages } span

namespace Fork

variable {fork : Fork} {depth : Nat}

/-- What is left behind a heading at the end of the fork. -/
def Headed (fork : Fork) (rest : Tokens) : Prop := fork.Even ∧ Heads fork.behind rest

/-- Behind the fork the ways are alike. -/
theorem Parallel.alike_of_heads (parallel : fork.Parallel 0 cursor.rest twin.rest)
    (heads : Heads fork.behind cursor.rest) : fork.ways.Alike 0 cursor twin := by
  rcases parallel.next with next | ended | ⟨_, even, detour, _⟩
  · exact TokenWays.alike (.inl next)
  · exact TokenWays.alike (.inr ended)
  · obtain ⟨taken, split, _⟩ := heads
    have positive := length_pos_iff.mpr even.commented
    have longer := congrArg List.length split
    rw [detour, Fork.detour, length_append, length_append] at longer
    omega

/-- A decorator stays behind the fork. -/
theorem Headed.decorator {after : Cursor} {found : Option Attribute}
    (read : (decorator cursor).result = .ok (found, after)) (headed : fork.Headed cursor.rest) :
    fork.Headed after.rest :=
  ⟨headed.1, headed.2.append (.of_decorator read)⟩

/-- Before an item the ways are alike or lead over comments. -/
theorem Parallel.heading (parallel : fork.Parallel 0 cursor.rest twin.rest) :
    fork.ways.Alike 0 cursor twin ∨ ∀ {bound twinBound : Nat} {found twinFound : Heading},
      found.attributes = twinFound.attributes → cursor.remaining ≤ bound →
      twin.remaining ≤ twinBound → fork.ways.NotedMatched (fork.ways.HeadedAlike fork.Headed)
        (heading bound found cursor) (heading twinBound twinFound twin) := by
  rcases parallel.next with next | ended | ⟨_, even, detour, shortcut⟩
  · exact .inl (TokenWays.alike (.inl next))
  · exact .inl (TokenWays.alike (.inr ended))
  · refine .inr fun {bound twinBound found twinFound} attributes enough twinEnough => ?_
    obtain ⟨previous, rest, finish⟩ := cursor
    obtain ⟨twinPrevious, twinRest, twinFinish⟩ := twin
    obtain rfl : rest = fork.detour := detour
    obtain rfl : twinRest = fork.shortcut := shortcut
    obtain ⟨areComments, areOthers⟩ := forall_mem_append.mp even.areComments
    simp only [Cursor.remaining, Fork.detour, Fork.shortcut, length_append] at enough twinEnough
    obtain ⟨bound, rfl⟩ := Nat.exists_eq_add_of_le (Nat.le_of_add_right_le enough)
    obtain ⟨twinBound, rfl⟩ := Nat.exists_eq_add_of_le (Nat.le_of_add_right_le twinEnough)
    obtain ⟨last, behind, here⟩ :=
      heading_comments areComments found previous finish fork.behind bound
    obtain ⟨twinLast, twinBehind, there⟩ :=
      heading_comments areOthers twinFound twinPrevious twinFinish fork.behind twinBound
    rw [Fork.detour, Fork.shortcut, here, there]
    have joined : fork.ways.Parallel true 0 ⟨behind, fork.behind, finish⟩
      ⟨twinBehind, fork.behind, twinFinish⟩ := Parallel.joined (suffix_refl _)
    have heads : Heads fork.behind fork.behind := ⟨[], rfl, .nil⟩
    refine joined.heading fork.tokenWays.sized Headed.decorator (fun parallel heads => .inl ?_) heads attributes
      (.inr ⟨even, heads⟩) (Nat.le_of_add_le_add_left enough) (Nat.le_of_add_le_add_left twinEnough)
    exact Parallel.alike_of_heads parallel heads

/-- No uniform stands behind such a heading. -/
theorem Headed.headless (headed : fork.Headed cursor.rest) :
    cursor.peek ≠ .uniformKeyword ∧ cursor.peek ≠ .varKeyword := by
  obtain ⟨even, taken, split, form⟩ := headed
  refine not_or.mp fun keyword => ?_
  have real : cursor.peek ≠ .eof := by rcases keyword with key | key <;> rw [key] <;> exact nofun
  refine even.headless ⟨_, cursor.peek, cursor.advance.rest.map LocatedToken.token, ?_, form, keyword⟩
  rw [split, rest_of_peek rfl real, map_append, map_cons]

/-- An item is read along both ways. -/
theorem Parallel.item {cursor twin : Cursor} (parallel : fork.Parallel 0 cursor.rest twin.rest) :
    fork.ways.NotedMatched (fork.ways.Read true 0) (item cursor) (item twin) :=
  Ways.Parallel.item fork.tokenWays.sized Headed.decorator (fun parallel _ => Parallel.heading parallel) Headed.headless
    parallel ⟨[], rfl, .nil⟩

end Fork

/-- A token that is expected and comes next is passed over. -/
theorem lands_of_peek (ahead : cursor.peek = token) :
    cursor.advance.Lands id (expect token cursor) := by
  rw [expect_of_peek ahead]
  exact .done (.refl _)

/-- An item passes over its first token, also if broken. -/
theorem item_passes (halting : halts cursor.peek) :
    cursor.advance.Lands Prod.snd (item cursor).result := by
  cases ahead : cursor.peek with
  | visibilityComment stages =>
    refine item_lands ?_
    rw [remaining_of_peek ahead (by simp), heading, ahead]
    exact heading_advances _ _ cursor.advance
  | atSign =>
    refine item_lands ?_
    rw [remaining_of_peek ahead (by simp), heading, ahead]
    exact (decorator_lands (lands_of_peek ahead)).noted fun next => heading_advances _ _ next.2
  | fnKeyword =>
    have plain : ∀ stages, cursor.peek ≠ .visibilityComment stages := by simp [ahead]
    have headed := heading_of_peek plain (by simp [ahead]) cursor.remaining {}
    have read : (item cursor).result = (function [] cursor >>= fun found =>
        pure (Declaration.function found.1, found.2)).result := by
      rw [item, headed, Noted.result_bind]
      simp only [pure, bind, Except.bind, ahead]
    rw [read]
    exact (function_lands [] (lands_of_peek ahead)).noted fun _ => .done (.refl _)
  | structKeyword =>
    have plain : ∀ stages, cursor.peek ≠ .visibilityComment stages := by simp [ahead]
    have headed := heading_of_peek plain (by simp [ahead]) cursor.remaining {}
    have read : (item cursor).result = (struct cursor >>= fun found =>
        pure (Declaration.struct found.1, found.2)).result := by
      rw [item, headed, Noted.result_bind]
      simp only [pure, bind, Except.bind, ahead]
    rw [read]
    exact (struct_lands (lands_of_peek ahead)).noted fun _ => .done (.refl _)
  | _ =>
    rw [ahead] at halting
    cases halting

/-- An item that fails at once does not halt there. -/
theorem halts_of_untaken (failed : (item cursor).result = .error failure)
    (same : failure.cursor.rest = cursor.rest) : halts cursor.peek = false := by
  cases halting : halts cursor.peek with
  | false => rfl
  | true =>
    have real : cursor.peek ≠ .eof := fun ended => by
      rw [ended] at halting
      cases halting
    have passes := item_passes halting
    rw [failed] at passes
    have shorter := passes.rest.length_le
    have one := remaining_of_peek rfl real
    rw [same] at shorter
    unfold Cursor.remaining at one
    omega

/-- Reading goes on where it failed, if a token was passed. -/
theorem recover_of_taken {taken : Tokens}
    (split : start.rest = taken ++ failure.cursor.rest) (nonempty : taken ≠ []) :
    recover start failure = synchronize (depthAfter 0 taken) failure.cursor.rest := by
  have positive := length_pos_iff.mpr nonempty
  have passed : max 1 (start.remaining - failure.cursor.remaining) = taken.length := by
    rw [Cursor.remaining, Cursor.remaining, split, length_append, Nat.add_sub_cancel]
    omega
  rw [recover, passed, split, take_left, drop_left]

/-- Where no token had been passed over, the next one is. -/
theorem recover_of_untaken {next : LocatedToken} (split : start.rest = next :: rest)
    (same : failure.cursor.rest = start.rest) :
    recover start failure = synchronize (next.token.depthAfter 0) rest := by
  have passed : max 1 (start.remaining - failure.cursor.remaining) = 1 := by
    rw [Cursor.remaining, Cursor.remaining, same, Nat.sub_self]
    rfl
  rw [recover, passed, split]
  rfl

/-- Nothing is passed over before a token that halts. -/
theorem synchronize_of_halts {next : LocatedToken} (halting : halts next.token)
    (rest : Tokens) : synchronize 0 (next :: rest) = (0, next :: rest) := by
  simp [synchronize, startsItem_of_halts halting]

/-- A comment opens and closes nothing. -/
theorem depthAfter_comment {located : LocatedToken} (comment : isComment located) {depth : Nat} :
    depthAfter depth (located :: rest) = depthAfter depth rest := by
  obtain ⟨stages, same⟩ := isComment_iff.mp comment
  rw [depthAfter, foldl_cons, same]
  rfl

/-- Comments open no brackets. -/
theorem depthAfter_comments (areComments : ∀ located ∈ comments, isComment located) (depth : Nat) :
    depthAfter depth comments = depth := by
  induction comments with
  | nil => rfl
  | cons located others ih =>
    obtain ⟨comment, later⟩ := forall_mem_cons.mp areComments
    rw [depthAfter_comment comment]
    exact ih later

namespace Fork

variable {fork : Fork} {depth : Nat}

/-- Tokens are passed over up to the same place. -/
theorem Parallel.synchronize (parallel : fork.Parallel depth rest other) :
    (synchronize depth rest).1 = (synchronize depth other).1 ∧
      fork.Parallel (synchronize depth rest).1 (synchronize depth rest).2
        (synchronize depth other).2 := by
  induction rest generalizing depth other with
  | nil =>
    rcases parallel.next with ⟨_, _, _, split, _⟩ | ⟨_, rfl⟩ | ⟨_, even, detour, _⟩
    · cases split
    · exact ⟨rfl, parallel⟩
    · obtain ⟨stages, span, rest, comment⟩ := even.detour_eq
      rw [comment] at detour
      cases detour
  | cons located rest ih =>
    rcases parallel.next with ⟨_, _, _, split, rfl, after⟩ | ⟨ended, _⟩ | ⟨rfl, even, detour, rfl⟩
    · cases split
      unfold Surface.synchronize
      split
      · exact ⟨rfl, parallel⟩
      · exact ih after
    · cases ended
    · obtain ⟨stages, span, others, comment⟩ := even.detour_eq
      obtain ⟨next, behind, shortcut, halting⟩ := even.halts
      rw [comment] at detour
      cases detour
      rw [shortcut] at parallel ⊢
      rw [synchronize_of_halts rfl, synchronize_of_halts halting]
      exact ⟨rfl, parallel⟩

/-- What was passed is the same, or the fork. -/
theorem Parallel.taken {start twinStart twinRest taken twinTaken : Tokens}
    (parallel : fork.Parallel 0 start twinStart) (place : fork.Parallel depth rest twinRest)
    (split : start = taken ++ rest) (twinSplit : twinStart = twinTaken ++ twinRest) :
    depthAfter 0 taken = depthAfter 0 twinTaken ∧
      fork.Parallel (depthAfter 0 taken) rest twinRest ∧
      (taken = twinTaken ∨ fork.Even ∧ taken ≠ [] ∧
        (twinTaken = [] → twinStart = fork.shortcut)) := by
  cases parallel with
  | @ahead front even within closes =>
    cases place with
    | @ahead inner _ _ _ =>
      rw [← append_assoc] at split twinSplit
      obtain rfl := append_cancel_right split
      have same := append_cancel_right twinSplit
      obtain rfl := append_cancel_right same
      rw [depthAfter_append] at closes
      exact ⟨rfl, .ahead even ((suffix_append _ _).trans within) closes, .inl rfl⟩
    | joined behind =>
      obtain ⟨before, whole⟩ := behind
      obtain ⟨areComments, areOthers⟩ := forall_mem_append.mp even.areComments
      have passed (comments : Tokens) :
          front ++ (comments ++ fork.behind) = front ++ (comments ++ before) ++ rest := by
        rw [← whole]
        simp only [append_assoc]
      have here := append_cancel_right (split.symm.trans (passed fork.comments))
      have there := append_cancel_right (twinSplit.symm.trans (passed fork.others))
      have depths {comments : Tokens}
          (areComments : ∀ located ∈ comments, isComment located) :
          depthAfter 0 (front ++ (comments ++ before)) = depthAfter 0 before := by
        rw [depthAfter_append, depthAfter_append, closes, depthAfter_comments areComments]
      refine ⟨?_, .joined ⟨before, whole⟩, .inr ⟨even, ?_, fun none => ?_⟩⟩
      · rw [here, there, depths areComments, depths areOthers]
      · simp [here, even.commented]
      · rw [there] at none
        rw [(append_eq_nil_iff.mp none).1, nil_append]
  | joined behind =>
    cases place with
    | @ahead inner even _ _ =>
      have some := length_pos_iff.mpr even.commented
      have longer := behind.length_le
      rw [split, length_append, length_append, detour, length_append] at longer
      omega
    | joined later =>
      obtain rfl := append_cancel_right (split.symm.trans twinSplit)
      exact ⟨rfl, .joined later, .inl rfl⟩

/-- Reading is taken up again at the same place of both ways. -/
theorem Parallel.recover (parallel : fork.Parallel 0 cursor.rest twin.rest)
    (ahead : cursor.rest ≠ [])
    (place : fork.Parallel depth failure.cursor.rest twinFailure.cursor.rest)
    (failed : (Surface.item cursor).result = .error failure)
    (twinFailed : (Surface.item twin).result = .error twinFailure) :
    (recover cursor failure).1 = (recover twin twinFailure).1 ∧
      fork.Parallel (recover cursor failure).1 (recover cursor failure).2
        (recover twin twinFailure).2 := by
  obtain ⟨taken, split⟩ := (Advances.reaches_failure item_advances failed).rest
  obtain ⟨twinTaken, twinSplit⟩ := (Advances.reaches_failure item_advances twinFailed).rest
  obtain ⟨depths, later, same⟩ := parallel.taken place split.symm twinSplit.symm
  by_cases none : twinTaken = []
  · -- Nothing has been passed over, so this is not the fork, where items would start.
    rw [none, nil_append] at twinSplit
    have unhalted := halts_of_untaken twinFailed twinSplit
    rcases parallel.next with
      ⟨next, rest, twinRest, here, there, after⟩ | ⟨ended, _⟩ | ⟨_, even, _, shortcut⟩
    · have untouched : taken = twinTaken := by
        refine same.resolve_right ?_
        rintro ⟨even, _, atFork⟩
        obtain ⟨_, _, split, halting⟩ := even.halts
        rw [Cursor.peek, atFork none, split, halting] at unhalted
        cases unhalted
      rw [untouched, none, nil_append] at split
      rw [recover_of_untaken here split, recover_of_untaken there twinSplit]
      exact after.synchronize
    · exact absurd ended ahead
    · obtain ⟨_, _, split, halting⟩ := even.halts
      rw [Cursor.peek, shortcut, split, halting] at unhalted
      cases unhalted
  · have some : taken ≠ [] := by
      rcases same with rfl | ⟨_, some, _⟩
      · exact none
      · exact some
    rw [recover_of_taken split.symm some, recover_of_taken twinSplit.symm none, ← depths]
    exact later.synchronize

/-- Both ways end together. -/
theorem Parallel.eq_nil_iff (parallel : fork.Parallel depth rest other) :
    rest = [] ↔ other = [] := by
  rcases parallel.next with ⟨_, _, _, rfl, rfl, _⟩ | ⟨rfl, rfl⟩ | ⟨_, even, rfl, rfl⟩
  · exact ⟨nofun, nofun⟩
  · exact Iff.rfl
  · obtain ⟨_, _, _, detour⟩ := even.detour_eq
    obtain ⟨_, _, shortcut, _⟩ := even.halts
    rw [detour, shortcut]
    exact ⟨nofun, nofun⟩

end Fork

/-- A broken item that leaves a bracket open discards the program. -/
theorem Cursor.reading_of_unterminated (ahead : cursor.rest ≠ [])
    (read : (item cursor).result = .error failure) (opened : (recover cursor failure).1 ≠ 0) :
    cursor.reading = ⟨none, if failure.cursor.atEnd then (item cursor).notes ++ [failure.diagnostic]
      else (item cursor).notes ++ [failure.diagnostic] ++ [unterminated cursor.finish]⟩ := by
  obtain ⟨bound, same⟩ := Nat.exists_eq_add_of_lt (length_pos_iff.mpr ahead)
  rw [Cursor.reading, Cursor.remaining, same, items, if_neg (by simpa [Cursor.atEnd] using ahead)]
  simp only [read, if_neg opened]

/-- The same declarations, and reports of the same codes. -/
structure Reading.Alike (one other : Reading) : Prop where
  declarations : one.declarations = other.declarations
  codes : one.diagnostics.map Diagnostic.code = other.diagnostics.map Diagnostic.code

/-- Readings stay alike behind alike notes. -/
theorem Reading.Alike.prepend {one other : Reading} (alike : one.Alike other)
    {notes others : List Diagnostic} (codes : notes.map Diagnostic.code = others.map Diagnostic.code)
    (declaration : Option Declaration) :
    (one.prepend notes declaration).Alike (other.prepend others declaration) where
  declarations := by rw [Reading.prepend, Reading.prepend, alike.declarations]
  codes := by
    rw [Reading.prepend, Reading.prepend, map_append, map_append, codes, alike.codes]

/-- Behind a broken item both ways go on or both discard the program. -/
theorem Fork.Parallel.reading_of_error {fork : Fork} {depth : Nat}
    (parallel : fork.Parallel 0 cursor.rest twin.rest) (ahead : cursor.rest ≠ [])
    (read : (Surface.item cursor).result = .error failure)
    (twinRead : (Surface.item twin).result = .error twinFailure)
    (code : failure.error.code = twinFailure.error.code)
    (place : fork.Parallel depth failure.cursor.rest twinFailure.cursor.rest)
    (resume : fork.Parallel 0 (Surface.recover cursor failure).2 (Surface.recover twin twinFailure).2 →
      (Cursor.reading { failure.cursor with rest := (Surface.recover cursor failure).2 }).Alike
        (Cursor.reading { twinFailure.cursor with rest := (Surface.recover twin twinFailure).2 })) :
    cursor.reading.Alike twin.reading := by
  have twinAhead : twin.rest ≠ [] := mt parallel.eq_nil_iff.mpr ahead
  have codes : ((Surface.item cursor).notes ++ [failure.diagnostic]).map Diagnostic.code =
      ((Surface.item twin).notes ++ [twinFailure.diagnostic]).map Diagnostic.code := by
    rw [parallel.item.notes, map_append, map_append, map_singleton, map_singleton,
      Failure.diagnostic, Failure.diagnostic, Diagnostic.located, Diagnostic.located, code]
  obtain ⟨depths, later⟩ := parallel.recover ahead place read twinRead
  by_cases closed : (Surface.recover cursor failure).1 = 0
  · rw [Cursor.reading_of_error ahead read (Prod.ext closed rfl),
      Cursor.reading_of_error twinAhead twinRead (Prod.ext (depths ▸ closed) rfl)]
    rw [closed] at later
    exact (resume later).prepend codes none
  · have same : failure.cursor.atEnd = twinFailure.cursor.atEnd := by
      rw [Cursor.atEnd, Cursor.atEnd, Bool.eq_iff_iff, List.isEmpty_iff, List.isEmpty_iff]
      exact place.eq_nil_iff
    rw [reading_of_unterminated ahead read closed,
      reading_of_unterminated twinAhead twinRead (depths ▸ closed), same]
    refine ⟨rfl, ?_⟩
    split
    · exact codes
    · have ends : [unterminated cursor.finish].map Diagnostic.code =
          [unterminated twin.finish].map Diagnostic.code := rfl
      rw [map_append, codes, ends, ← map_append]

/-- Items are read along both ways of a fork. -/
theorem Fork.Parallel.reading {fork : Fork} (parallel : fork.Parallel 0 cursor.rest twin.rest) :
    cursor.reading.Alike twin.reading := by
  generalize size : cursor.remaining = count
  induction count using Nat.strongRecOn generalizing cursor twin with
  | ind count ih =>
    by_cases ended : cursor.rest = []
    · rw [reading_of_nil ended, reading_of_nil (parallel.eq_nil_iff.mp ended)]
      exact ⟨rfl, rfl⟩
    · obtain ⟨notes, matched⟩ := parallel.item
      generalize read : (Surface.item cursor).result = outcome at matched
      generalize twinRead : (Surface.item twin).result = twinOutcome at matched
      cases matched with
      | ok both =>
        obtain @⟨declaration, next, twinNext, after⟩ := both
        have shorter := remaining_lt_of_item read
        rw [reading_of_ok read, reading_of_ok twinRead, notes]
        exact (ih next.remaining (by omega) after.parallel rfl).prepend rfl _
      | @error failure _ failed =>
        obtain ⟨code, depth, place⟩ := failed
        refine parallel.reading_of_error ended read twinRead code place fun later => ?_
        have shorter := length_recover_lt ended failure
        exact ih _ (Nat.lt_of_lt_of_eq shorter size) later rfl

end Shading.Surface
