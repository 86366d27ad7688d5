import Shading.Proofs.Forks
import Shading.Proofs.Occurrences
import Mathlib.Data.List.DropRight

/-!
# Stray visibility comments

A visibility comment counts in front of a uniform. Elsewhere it is dropped before reading, but for two
kinds of places outside brackets. It is kept in front of an at sign, though that may start a decorator
of a result. And of comments directly behind one another all but the last are kept. Otherwise a comment
that heads no uniform can be left out: the declarations and the codes of the reports stay the same.
-/

namespace Shading.Surface

open List

variable {comments tokens before after front rest : Tokens} {next : LocatedToken}

section Retained

variable {located : LocatedToken} {depth : Nat}

/-- A comment is retained outside brackets before an item. -/
theorem retainHeadings_comment (comment : isComment located) :
    retainHeadings depth (located :: rest) = if depth = 0 && headsItem rest then
      located :: retainHeadings depth rest else retainHeadings depth rest := by
  obtain ⟨stages, same⟩ := isComment_iff.mp comment
  obtain ⟨token, span⟩ := located
  cases same
  rfl

/-- Other tokens are retained. -/
theorem retainHeadings_plain (plain : isComment located = false) :
    retainHeadings depth (located :: rest) =
      located :: retainHeadings (located.token.depthAfter depth) rest := by
  obtain ⟨token, span⟩ := located
  cases token <;> first | rfl | cases plain

/-- A comment may head an item. -/
theorem headsItem_comment (comment : isComment located) : headsItem (located :: rest) = true := by
  obtain ⟨stages, same⟩ := isComment_iff.mp comment
  rw [headsItem, same]

/-- What is retained does not depend on what follows, but for a comment at its end. -/
theorem retainHeadings_append
    (ends : ∀ last ∈ front.getLast?, isComment last = false) (depth : Nat)
    (tokens : Tokens) :
    retainHeadings depth (front ++ tokens) =
      retainHeadings depth front ++ retainHeadings (depthAfter depth front) tokens := by
  induction front generalizing depth with
  | nil => rfl
  | cons next front ih =>
    cases front with
    | nil =>
      have plain := ends next rfl
      rw [singleton_append, retainHeadings_plain plain, retainHeadings_plain plain]
      rfl
    | cons second front =>
      rw [getLast?_cons_cons] at ends
      cases comment : isComment next with
      | true =>
        have heads : headsItem (second :: front ++ tokens) = headsItem (second :: front) := rfl
        rw [cons_append, retainHeadings_comment comment, retainHeadings_comment comment, heads,
          ih ends, depthAfter_comment comment]
        split <;> rfl
      | false =>
        rw [cons_append, retainHeadings_plain comment, retainHeadings_plain comment,
          ih ends]
        rfl

/-- Brackets are retained. -/
theorem depthAfter_retainHeadings (depth : Nat) (tokens : Tokens) :
    depthAfter depth (retainHeadings depth tokens) = depthAfter depth tokens := by
  induction tokens generalizing depth with
  | nil => rfl
  | cons next tokens ih =>
    cases comment : isComment next with
    | true =>
      rw [retainHeadings_comment comment, depthAfter_comment comment]
      split
      · rw [depthAfter_comment comment, ih]
      · exact ih depth
    | false =>
      rw [retainHeadings_plain comment]
      exact ih _

/-- Of a run before other tokens, the last comment only if an item may start there. -/
def retainedRun (comments rest : Tokens) : Tokens :=
  if headsItem rest then comments else comments.dropLast

/-- A run outside brackets is retained so. -/
theorem retainHeadings_run (areComments : ∀ comment ∈ comments, isComment comment)
    (rest : Tokens) :
    retainHeadings 0 (comments ++ rest) = retainedRun comments rest ++ retainHeadings 0 rest := by
  induction comments with
  | nil => simp [retainedRun]
  | cons first others ih =>
    obtain ⟨comment, later⟩ := forall_mem_cons.mp areComments
    rw [cons_append, retainHeadings_comment comment, ih later]
    cases others with
    | nil =>
      cases heads : headsItem rest <;> simp [retainedRun, heads]
    | cons second others =>
      have heads : headsItem (second :: others ++ rest) = true :=
        headsItem_comment (later second mem_cons_self)
      rw [heads]
      cases heads : headsItem rest <;> simp [retainedRun, heads]

/-- In brackets no comment is retained. -/
theorem retainHeadings_inside (areComments : ∀ comment ∈ comments, isComment comment)
    (inside : depth ≠ 0) (rest : Tokens) :
    retainHeadings depth (comments ++ rest) = retainHeadings depth rest := by
  induction comments with
  | nil => rfl
  | cons first others ih =>
    obtain ⟨comment, later⟩ := forall_mem_cons.mp areComments
    rw [cons_append, retainHeadings_comment comment, ih later]
    simp [inside]

end Retained

/-- The tokens before the end of the input. -/
def beforeEnd (tokens : Tokens) : Tokens :=
  tokens.takeWhile fun located => located.token ≠ .eof

/-- The end does not matter for heading an item. -/
theorem headsItem_beforeEnd (tokens : Tokens) :
    headsItem (beforeEnd tokens) = headsItem tokens := by
  cases tokens with
  | nil => rfl
  | cons next rest =>
    obtain ⟨token, span⟩ := next
    cases token <;> rfl

/-- The end does not matter for what is retained. -/
theorem beforeEnd_retainHeadings (depth : Nat) (tokens : Tokens) :
    beforeEnd (retainHeadings depth tokens) = retainHeadings depth (beforeEnd tokens) := by
  induction tokens generalizing depth with
  | nil => rfl
  | cons next rest ih =>
    cases comment : isComment next with
    | true =>
      obtain ⟨stages, same⟩ := isComment_iff.mp comment
      have here (tokens : Tokens) : beforeEnd (next :: tokens) = next :: beforeEnd tokens := by
        simp [beforeEnd, same]
      rw [retainHeadings_comment comment, here, retainHeadings_comment comment, headsItem_beforeEnd,
        ← ih]
      split
      · exact here _
      · rfl
    | false =>
      by_cases ended : next.token = .eof
      · rw [retainHeadings_plain comment]
        simp [beforeEnd, ended, retainHeadings]
      · have here (tokens : Tokens) : beforeEnd (next :: tokens) = next :: beforeEnd tokens := by
          simp [beforeEnd, ended]
        rw [retainHeadings_plain comment, here, here, retainHeadings_plain comment, ih]

/-- An end behind the end does not matter. -/
theorem beforeEnd_terminated (tokens : Tokens) :
    beforeEnd (terminated tokens) = beforeEnd tokens := by
  unfold terminated
  split
  · rfl
  · unfold beforeEnd
    rw [takeWhile_append]
    split
    · rename_i all
      rw [( takeWhile_prefix _).eq_of_length all]
      simp
    · rfl

/-- Tokens are read from those retained before the end. -/
theorem readTokens_eq (tokens : Tokens) :
    ∃ finish, readTokens tokens =
      let reading := Cursor.reading ⟨.none, retainHeadings 0 (beforeEnd tokens), finish⟩
      (reading.declarations.getD [], reading.diagnostics) := by
  have ahead : (Cursor.start (retainHeadings 0 (terminated tokens))).rest =
      retainHeadings 0 (beforeEnd tokens) := by
    rw [← beforeEnd_terminated, ← beforeEnd_retainHeadings]
    rfl
  refine ⟨(Cursor.start (retainHeadings 0 (terminated tokens))).finish, ?_⟩
  rw [← ahead]
  rfl

/-- The number of comments around a place. -/
def neighbours (before after : List LocatedToken) : Nat :=
  (before.rtakeWhile isComment).length + (after.takeWhile isComment).length

/-- A comment there would stand alone behind the arrow or a decorator of a result, before another
one. -/
def DividesResult (before after : List LocatedToken) : Prop :=
  neighbours before after = 0 ∧ EndsInResult (retainHeadings 0 before) ∧
    ∃ next ∈ after.head?, next.token = .atSign

/-- It would be one of two, and no item starts behind. -/
def Pairs (before after : List LocatedToken) : Prop :=
  neighbours before after = 1 ∧
    ∀ next ∈ (after.dropWhile isComment).head?, startsItem next.token = false

/-- It would head no uniform, divide no result and make no pair. -/
structure Stray (before after : List LocatedToken) : Prop where
  headless : ¬HeadsUniform (retainHeadings 0 after)
  undivided : ¬DividesResult before after
  unpaired : ¬Pairs before after

/-- Tokens without the end stand before it. -/
theorem beforeEnd_append (endless : ∀ located ∈ front, located.token ≠ .eof)
    (rest : Tokens) : beforeEnd (front ++ rest) = front ++ beforeEnd rest :=
  takeWhile_append_of_pos fun located member => decide_eq_true (endless located member)

/-- More tokens may follow a uniform. -/
theorem HeadsUniform.append (heads : HeadsUniform tokens) (more : Tokens) :
    HeadsUniform (tokens ++ more) := by
  obtain ⟨heading, next, rest, split, form, keyword⟩ := heads
  refine ⟨heading, next, rest ++ more.map LocatedToken.token, ?_, form, keyword⟩
  rw [map_append, split, append_assoc, cons_append]

/-- Comments in front of the head of a uniform belong to it. -/
theorem HeadsUniform.commented {comments tokens : Tokens}
    (areComments : ∀ comment ∈ comments, isComment comment) (heads : HeadsUniform tokens) :
    HeadsUniform (comments ++ tokens) := by
  induction comments with
  | nil => exact heads
  | cons first others ih =>
    obtain ⟨comment, later⟩ := forall_mem_cons.mp areComments
    obtain ⟨stages, same⟩ := isComment_iff.mp comment
    obtain ⟨heading, next, rest, split, form, keyword⟩ := ih later
    refine ⟨.visibilityComment stages :: heading, next, rest, ?_, .comment stages form, keyword⟩
    rw [cons_append, map_cons, split, same, cons_append]

/-- Retained comments are comments. -/
theorem mem_retainedRun {comment : LocatedToken}
    (member : comment ∈ retainedRun comments rest) : comment ∈ comments := by
  unfold retainedRun at member
  split at member
  · exact member
  · exact dropLast_subset _ member

/-- What heads an item is a comment, an at sign or a uniform. -/
theorem headsItem_cases (heads : headsItem (next :: rest) = true)
    (plain : isComment next = false) :
    next.token = .atSign ∨ next.token = .uniformKeyword ∨ next.token = .varKeyword := by
  obtain ⟨token, span⟩ := next
  cases token <;> simp_all [headsItem, isComment]

/-- Other items are functions and structs. -/
theorem startsItem_cases (starts : startsItem next.token = true)
    (plain : isComment next = false) (headless : headsItem (next :: rest) = false) :
    next.token = .fnKeyword ∨ next.token = .structKeyword := by
  obtain ⟨token, span⟩ := next
  cases token <;> simp_all [headsItem, isComment, startsItem]

section Runs

variable {front early late rest : Tokens} {comment : LocatedToken}

/-- A run left out stands before an item that is no uniform. -/
theorem exists_item_of_retainedRun (starts : ∀ next ∈ rest.head?, isComment next = false)
    (some : retainedRun (early ++ comment :: late) rest ≠ [])
    (none : retainedRun (early ++ late) rest = [])
    (headless : ¬HeadsUniform (retainHeadings 0 rest))
    (unpaired : (early ++ late).length = 1 → ∃ next ∈ rest.head?, startsItem next.token = true) :
    ∃ next others, rest = next :: others ∧ (early ++ late = [] ∧ next.token = .atSign ∨
      next.token = .fnKeyword ∨ next.token = .structKeyword) := by
  unfold retainedRun at some none
  cases heads : headsItem rest with
  | true =>
    rw [heads, if_pos rfl] at none
    cases rest with
    | nil => cases heads
    | cons next others =>
      have plain := starts next rfl
      refine ⟨next, others, rfl, ?_⟩
      rcases headsItem_cases heads plain with sign | keyword
      · exact .inl ⟨none, sign⟩
      · rw [retainHeadings_plain plain] at headless
        exact absurd ⟨[], next.token, _, rfl, .nil, keyword⟩ headless
  | false =>
    rw [heads, if_neg nofun] at none some
    have one : (early ++ late).length = 1 := by
      have more := length_pos_iff.mpr some
      have less := congrArg List.length none
      simp only [length_dropLast, length_append, length_cons, length_nil] at more less ⊢
      omega
    obtain ⟨next, member, item⟩ := unpaired one
    obtain ⟨others, rfl⟩ := head?_eq_some_iff.mp member
    exact ⟨next, others, rfl, .inr (startsItem_cases item (starts next rfl) heads)⟩

/-- A run with and without a stray comment is an even fork. -/
theorem even_of_stray (areComments : ∀ comment ∈ early ++ late, isComment comment)
    (isOne : isComment comment) (starts : ∀ next ∈ rest.head?, isComment next = false)
    (some : retainedRun (early ++ comment :: late) rest ≠ [])
    (headless : ¬HeadsUniform (retainHeadings 0 rest))
    (undivided : early ++ late = [] → EndsInResult (retainHeadings 0 front) →
      ∀ next ∈ rest.head?, next.token ≠ .atSign)
    (unpaired : (early ++ late).length = 1 → ∃ next ∈ rest.head?, startsItem next.token = true) :
    Fork.Even ⟨retainHeadings 0 front, retainedRun (early ++ comment :: late) rest,
      retainedRun (early ++ late) rest, beforeEnd (retainHeadings 0 rest)⟩ := by
  have areRetained : ∀ located ∈ retainedRun (early ++ late) rest, isComment located :=
    fun located member => areComments located (mem_retainedRun member)
  -- The other way starts with a comment, or with what follows the run.
  have other : ∃ next others,
      retainedRun (early ++ late) rest ++ beforeEnd (retainHeadings 0 rest) = next :: others ∧
        halts next.token ∧
        (next.token = .atSign → early ++ late = [] ∧ ∃ sign ∈ rest.head?, sign.token = .atSign) := by
    cases retained : retainedRun (early ++ late) rest with
    | cons first others =>
      obtain ⟨stages, same⟩ := isComment_iff.mp (areRetained first (by simp [retained]))
      refine ⟨first, _, rfl, ?_, ?_⟩
      · rw [same]
        rfl
      · rw [same]
        exact nofun
    | nil =>
      obtain ⟨next, others, rfl, item⟩ :=
        exists_item_of_retainedRun starts some retained headless unpaired
      have real : next.token ≠ .eof := by
        rcases item with ⟨_, same⟩ | same | same <;> rw [same] <;> exact nofun
      refine ⟨next, beforeEnd (retainHeadings (next.token.depthAfter 0) others), ?_, ?_, ?_⟩
      · rw [retainHeadings_plain (starts next rfl)]
        simp [beforeEnd, real]
      · rcases item with ⟨_, same⟩ | same | same <;> rw [same] <;> rfl
      · intro sign
        rcases item with ⟨alone, _⟩ | same | same
        · exact ⟨alone, next, rfl, sign⟩
        · rw [same] at sign
          cases sign
        · rw [same] at sign
          cases sign
  obtain ⟨next, others, shortcut, halting, signed⟩ := other
  refine ⟨?_, some, ⟨next, others, shortcut, halting⟩, ?_, ?_⟩
  · intro located member
    rcases mem_append.mp member with member | member
    · rcases mem_append.mp (mem_retainedRun member) with member | member
      · exact areComments located (mem_append_left _ member)
      · rcases mem_cons.mp member with rfl | member
        · exact isOne
        · exact areComments located (mem_append_right _ member)
    · exact areRetained located member
  · intro ends located member sign
    rw [Fork.shortcut, shortcut, head?_cons] at member
    cases member
    obtain ⟨alone, first, head, same⟩ := signed sign
    exact undivided alone ends first head same
  · intro heads
    obtain ⟨after, split⟩ := takeWhile_prefix (l := retainHeadings 0 rest)
      fun located => located.token ≠ .eof
    refine headless ?_
    rw [← split]
    exact heads.append after

/-- If nothing of a run is retained, nothing is with one less. -/
theorem retainedRun_eq_nil (none : retainedRun (early ++ comment :: late) rest = []) :
    retainedRun (early ++ late) rest = [] := by
  unfold retainedRun at none ⊢
  split at none
  · simp at none
  · rename_i heads
    have short := congrArg List.length none
    rw [if_neg heads]
    refine eq_nil_of_length_eq_zero ?_
    simp only [length_dropLast, length_append, length_cons, length_nil] at short ⊢
    omega

/-- Without a stray comment, the tokens are the same or go along a fork. -/
theorem parallel_of_stray (ends : ∀ last ∈ front.getLast?, isComment last = false)
    (endless : ∀ located ∈ front, located.token ≠ .eof)
    (areComments : ∀ comment ∈ early ++ late, isComment comment) (isOne : isComment comment)
    (starts : ∀ next ∈ rest.head?, isComment next = false)
    (stray : depthAfter 0 front = 0 → ¬HeadsUniform (retainHeadings 0 rest) ∧
      (early ++ late = [] → EndsInResult (retainHeadings 0 front) →
        ∀ next ∈ rest.head?, next.token ≠ .atSign) ∧
      ((early ++ late).length = 1 → ∃ next ∈ rest.head?, startsItem next.token = true)) :
    ∃ fork : Fork, fork.Parallel 0
      (beforeEnd (retainHeadings 0 (front ++ ((early ++ comment :: late) ++ rest))))
      (beforeEnd (retainHeadings 0 (front ++ ((early ++ late) ++ rest)))) := by
  have areAll : ∀ located ∈ early ++ comment :: late, isComment located := by
    simpa [or_imp, forall_and, isOne] using areComments
  by_cases outside : depthAfter 0 front = 0
  · have runs {comments : Tokens} (areComments : ∀ comment ∈ comments, isComment comment) :
        beforeEnd (retainHeadings 0 (front ++ (comments ++ rest))) = retainHeadings 0 front ++
          (retainedRun comments rest ++ beforeEnd (retainHeadings 0 rest)) := by
      have real : ∀ located ∈ retainedRun comments rest, located.token ≠ .eof := by
        intro located member
        obtain ⟨stages, same⟩ := isComment_iff.mp (areComments located (mem_retainedRun member))
        rw [same]
        exact nofun
      have kept : ∀ located ∈ retainHeadings 0 front, located.token ≠ .eof :=
        fun located member => endless located ((retainHeadings_sublist 0 front).subset member)
      rw [retainHeadings_append ends, outside, retainHeadings_run areComments, beforeEnd_append kept,
        beforeEnd_append real]
    obtain ⟨headless, undivided, unpaired⟩ := stray outside
    rw [runs areAll, runs areComments]
    by_cases none : retainedRun (early ++ comment :: late) rest = []
    · rw [none, retainedRun_eq_nil none]
      exact ⟨⟨[], [], [], _⟩, .joined (suffix_refl _)⟩
    · refine ⟨_, .ahead (even_of_stray areComments isOne starts none headless undivided unpaired)
        (suffix_refl _) ?_⟩
      rw [depthAfter_retainHeadings, outside]
  · rw [retainHeadings_append ends, retainHeadings_append ends, retainHeadings_inside areAll outside,
      retainHeadings_inside areComments outside]
    exact ⟨⟨[], [], [], _⟩, .joined (suffix_refl _)⟩

end Runs

/-- Behind the end nothing counts. -/
theorem beforeEnd_append_of_mem
    (ended : ∃ located ∈ front, located.token = .eof) (rest : Tokens) :
    beforeEnd (front ++ rest) = beforeEnd front := by
  obtain ⟨located, member, ended⟩ := ended
  unfold beforeEnd
  rw [takeWhile_append, if_neg]
  intro all
  rw [← ( takeWhile_prefix _).eq_of_length all] at member
  have real := mem_takeWhile_imp member
  exact of_decide_eq_true real ended

/-- Whether a comment is stray is told by what is around it. -/
theorem Stray.around (stray : Stray before after) :
    ¬HeadsUniform (retainHeadings 0 (after.dropWhile isComment)) ∧
    (before.rtakeWhile isComment ++ after.takeWhile isComment = [] →
      EndsInResult (retainHeadings 0 (before.rdropWhile isComment)) →
        ∀ next ∈ (after.dropWhile isComment).head?, next.token ≠ .atSign) ∧
    ((before.rtakeWhile isComment ++ after.takeWhile isComment).length = 1 →
      ∃ next ∈ (after.dropWhile isComment).head?, startsItem next.token = true) := by
  have leads : before.rdropWhile isComment ++ before.rtakeWhile isComment = before :=
    rdropWhile_append_rtakeWhile
  have follows : after.takeWhile isComment ++ after.dropWhile isComment = after :=
    takeWhile_append_dropWhile
  refine ⟨fun heads => stray.headless ?_, fun alone ends next member sign => ?_, fun one => ?_⟩
  · rw [← follows, retainHeadings_run fun _ => mem_takeWhile_imp]
    exact heads.commented fun _ retained => mem_takeWhile_imp (mem_retainedRun retained)
  · obtain ⟨noneBefore, noneAfter⟩ := append_eq_nil_iff.mp alone
    rw [noneBefore, append_nil] at leads
    rw [noneAfter, nil_append] at follows
    rw [leads] at ends
    rw [follows] at member
    refine stray.undivided ⟨?_, ends, next, member, sign⟩
    rw [neighbours, noneBefore, noneAfter]
    rfl
  · by_contra missing
    refine stray.unpaired ⟨?_, fun next member => ?_⟩
    · rw [neighbours, ← length_append, one]
    · exact Bool.eq_false_iff.mpr fun starts => missing ⟨next, member, starts⟩

/-- With and without a comment, tokens go along a fork unless it is outside brackets and not stray. -/
theorem exists_parallel {comment : LocatedToken} (isOne : isComment comment)
    (stray : (∀ located ∈ before, located.token ≠ .eof) →
      depthAfter 0 before = 0 → Stray before after) :
    ∃ fork : Fork, fork.Parallel 0 (retainHeadings 0 (beforeEnd (before ++ comment :: after)))
      (retainHeadings 0 (beforeEnd (before ++ after))) := by
  by_cases endless : ∀ located ∈ before, located.token ≠ .eof
  · have leads : before.rdropWhile isComment ++ before.rtakeWhile isComment = before :=
      rdropWhile_append_rtakeWhile
    have follows : after.takeWhile isComment ++ after.dropWhile isComment = after :=
      takeWhile_append_dropWhile
    have ends : ∀ last ∈ (before.rdropWhile isComment).getLast?, isComment last = false := by
      intro last member
      obtain ⟨some, rfl⟩ := mem_getLast?_eq_getLast member
      exact Bool.eq_false_iff.mpr (rdropWhile_last_not isComment before some)
    have starts : ∀ next ∈ (after.dropWhile isComment).head?, isComment next = false := by
      intro next member
      have plain := head?_dropWhile_not isComment after
      rw [Option.mem_def.mp member] at plain
      exact plain
    have areComments : ∀ comment ∈ before.rtakeWhile isComment ++ after.takeWhile isComment,
        isComment comment := by
      intro comment member
      rcases mem_append.mp member with member | member
      · exact mem_rtakeWhile_imp member
      · exact mem_takeWhile_imp member
    have kept : ∀ located ∈ before.rdropWhile isComment, located.token ≠ .eof :=
      fun located member => endless located (( rdropWhile_prefix ..).subset member)
    have outer : depthAfter 0 before = depthAfter 0 (before.rdropWhile isComment) :=
      calc depthAfter 0 before
        _ = depthAfter 0 (before.rdropWhile isComment ++ before.rtakeWhile isComment) := by rw [leads]
        _ = depthAfter 0 (before.rdropWhile isComment) := by
          rw [depthAfter_append, depthAfter_comments fun _ => mem_rtakeWhile_imp]
    have parallel := parallel_of_stray ends kept areComments isOne starts fun outside =>
      (stray endless (outer.trans outside)).around
    rw [append_assoc, append_assoc, cons_append, ← append_assoc, leads, follows,
      ← append_assoc, leads] at parallel
    rw [← beforeEnd_retainHeadings, ← beforeEnd_retainHeadings]
    exact parallel
  · have ended : ∃ located ∈ before, located.token = .eof := by simpa using endless
    rw [beforeEnd_append_of_mem ended, beforeEnd_append_of_mem ended]
    exact ⟨⟨[], [], [], _⟩, .joined (suffix_refl _)⟩

/-- A comment that is stray, in brackets or behind the end can be left out: the same declarations
are read, and reports with the same codes are made. -/
theorem stray_comment_is_trivia (before after : List LocatedToken) (stages : List Stage) (span : Span)
    (stray : (∀ located ∈ before, located.token ≠ .eof) → depthAfter 0 before = 0 →
      Stray before after) :
    (readTokens (before ++ ⟨.visibilityComment stages, span⟩ :: after)).1 =
        (readTokens (before ++ after)).1 ∧
      (readTokens (before ++ ⟨.visibilityComment stages, span⟩ :: after)).2.map Diagnostic.code =
        (readTokens (before ++ after)).2.map Diagnostic.code := by
  have isOne : isComment ⟨.visibilityComment stages, span⟩ := rfl
  obtain ⟨fork, parallel⟩ := exists_parallel isOne stray
  obtain ⟨finish, reads⟩ := readTokens_eq (before ++ ⟨.visibilityComment stages, span⟩ :: after)
  obtain ⟨otherFinish, otherReads⟩ := readTokens_eq (before ++ after)
  have alike : (Cursor.reading ⟨.none, _, finish⟩).Alike (Cursor.reading ⟨.none, _, otherFinish⟩) :=
    parallel.reading
  rw [reads, otherReads]
  exact ⟨congrArg (Option.getD · []) alike.declarations, alike.codes⟩

/-- Whether `uniform` or `var` is among tokens. -/
def mentionsUniform (tokens : List LocatedToken) : Bool :=
  tokens.any fun located => located.token = .uniformKeyword || located.token = .varKeyword

/-- A uniform is mentioned. -/
theorem HeadsUniform.mentions (heads : HeadsUniform (retainHeadings 0 tokens)) :
    mentionsUniform tokens := by
  obtain ⟨heading, next, rest, split, _, keyword⟩ := heads
  have member : next ∈ (retainHeadings 0 tokens).map LocatedToken.token := by simp [split]
  obtain ⟨located, retained, rfl⟩ := mem_map.mp member
  refine any_eq_true.mpr ⟨located, (retainHeadings_sublist 0 tokens).subset retained, ?_⟩
  simpa using keyword

/-- A comment before a decorated function has no effect. -/
theorem comment_on_function_is_trivia :
    let tokens := (tokenize ⟨"wave.shade", "uniform tint: vec4f;\n// visibility: fragment\n" ++
      "@vertex fn wave() -> @builtin(position) vec4f \x7b return tint; \x7d"⟩).tokens
    let before := tokens.take 5
    let after := tokens.drop 6
    tokens = before ++ ⟨.visibilityComment [.fragment], ⟨2, 1, 21, 23⟩⟩ :: after ∧
      depthAfter 0 before = 0 ∧ Stray before after ∧ (readTokens tokens).1.length = 2 ∧
      (readTokens tokens).1 = (readTokens (before ++ after)).1 ∧
      (readTokens tokens).2.map Diagnostic.code =
        (readTokens (before ++ after)).2.map Diagnostic.code := by
  intro tokens before after
  have found : tokens = before ++ ⟨.visibilityComment [.fragment], ⟨2, 1, 21, 23⟩⟩ :: after ∧
      depthAfter 0 before = 0 ∧ (readTokens tokens).1.length = 2 ∧ mentionsUniform after = false ∧
      Token.arrow ∉ (retainHeadings 0 before).map LocatedToken.token ∧ neighbours before after = 0 := by
    decide +kernel
  obtain ⟨split, outside, two, plain, resultless, alone⟩ := found
  have stray : Stray before after := by
    refine ⟨fun heads => ?_, ?_, ?_⟩
    · rw [heads.mentions] at plain
      cases plain
    · rintro ⟨_, ⟨front, decorators, ends, _⟩, _⟩
      exact resultless (by simp [ends])
    · rintro ⟨one, _⟩
      rw [alone] at one
      cases one
  have trivia := stray_comment_is_trivia before after [.fragment] ⟨2, 1, 21, 23⟩ fun _ _ => stray
  rw [← split] at trivia
  exact ⟨split, outside, stray, two, trivia⟩

/-- Without the comment at the place other codes are reported. -/
def changesCodes (tokens : List LocatedToken) (place : Nat) : Bool :=
  tokens[place]?.any isComment &&
    (readTokens tokens).2.map Diagnostic.code ≠
      (readTokens (tokens.eraseIdx place)).2.map Diagnostic.code

/-- A comment before a decorator of a result, one of two before the end, and one in the angle
brackets of a uniform are no trivia. -/
theorem comments_change_codes :
    let divided := (tokenize ⟨"divided.shade",
      "fn f() -> // visibility: vertex\n@location(0) vec4<f32> \x7b \x7d"⟩).tokens
    let paired := (tokenize ⟨"paired.shade", "// visibility: vertex\n// visibility: vertex\n"⟩).tokens
    let bracketed :=
      (tokenize ⟨"bracketed.shade", "var< // visibility: vertex\nuniform> x: f32;"⟩).tokens
    changesCodes divided 5 ∧ mentionsUniform divided = false ∧
      changesCodes paired 0 ∧ mentionsUniform paired = false ∧ changesCodes bracketed 2 := by
  decide +kernel

end Shading.Surface
