import Shading.Surface.Items

/-!
# What readers take from the tokens ahead

What a reader does depends on the tokens before its cursor, not on where they stand. The elementary
readers are described by these tokens, and lists divided by commas by what is read for each item.
-/

namespace Shading.Surface

open List Cursor

variable {tokens : List Token} {α β : Type} {result : β} {source : SourceText}

/-- A computation in two steps succeeds if both do. -/
theorem bind_eq_ok {Error : Type} {first : Except Error α} {next : α → Except Error β} :
    (first >>= next) = .ok result ↔ ∃ value, first = .ok value ∧ next value = .ok result := by
  cases first with
  | ok value => exact ⟨fun done => ⟨value, rfl, done⟩, fun ⟨_, same, done⟩ => by cases same; exact done⟩
  | error failure => exact ⟨nofun, nofun⟩

/-- A noted computation in two steps succeeds if both do. -/
theorem noted_bind_eq_ok {first : Noted α} {next : α → Noted β} :
    (first >>= next).result = .ok result ↔
      ∃ value, first.result = .ok value ∧ (next value).result = .ok result := by
  obtain ⟨notes, outcome⟩ := first
  cases outcome with
  | ok value => exact ⟨fun done => ⟨value, rfl, done⟩, fun ⟨_, same, done⟩ => by cases same; exact done⟩
  | error failure => exact ⟨nofun, nofun⟩

/-- No unary operator is a bracket or the end of the input. -/
theorem depthAfter_unary {token : Token} {operator : UnaryOperator}
    (known : UnaryOperator.ofToken? token = some operator) (depth : Nat) :
    token ≠ .eof ∧ token.depthAfter depth = depth := by
  cases token <;> cases known <;> exact ⟨nofun, rfl⟩

/-- No binary operator is a bracket or the end of the input. -/
theorem depthAfter_binary {token : Token} {operator : BinaryOperator}
    (known : BinaryOperator.ofToken? token = some operator) (depth : Nat) :
    token ≠ .eof ∧ token.depthAfter depth = depth := by
  cases token <;> cases known <;> exact ⟨nofun, rfl⟩

/-- Reads blocks one level deeper, if that is admitted. -/
def innerBlock : (allowance : Nat) → Option (Reader (Block Expr WrittenType))
  | 0 => none
  | allowance + 1 => some (block allowance)

/-- A block is read in braces. -/
theorem block_eq (allowance : Nat) : block allowance = braced allowance (innerBlock allowance) := by
  cases allowance <;> rfl

/-- The token of an argument of a decorator. -/
def DecoratorArgument.token : DecoratorArgument → Token
  | .name word => .identifier word
  | .number literal => .number literal

/-- The tokens ahead, without places and the end. -/
def Cursor.kinds (cursor : Cursor) : List Token := cursor.rest.map LocatedToken.token

/-- The first token, or the end of the input. -/
def first (tokens : List Token) : Token := tokens.head?.getD .eof

/-- The first token stands in front. -/
@[simp] theorem first_cons (token : Token) (rest : List Token) : first (token :: rest) = token := rfl

/-- What stands behind does not change the first token. -/
theorem first_append_of_ne_nil (nonempty : tokens ≠ []) (rest : List Token) :
    first (tokens ++ rest) = first tokens := by
  obtain ⟨token, others, rfl⟩ := exists_cons_of_ne_nil nonempty
  rfl

section Elementary

variable {cursor : Cursor} {token : Token} {rest : List Token}

/-- The next token is the first of those ahead. -/
theorem Cursor.peek_eq (cursor : Cursor) : cursor.peek = first cursor.kinds := by
  unfold Cursor.peek Cursor.kinds
  cases cursor.rest <;> rfl

/-- The next token is the first of those ahead. -/
theorem Cursor.peek_of_kinds (ahead : cursor.kinds = rest) : cursor.peek = first rest := by
  rw [peek_eq, ahead]

/-- Behind the next token stand the others. -/
theorem Cursor.kinds_advance (ahead : cursor.kinds = token :: rest) :
    cursor.advance.kinds = rest := by
  unfold Cursor.kinds Cursor.advance at *
  cases tokens : cursor.rest with
  | nil => simp [tokens] at ahead
  | cons next others =>
    rw [tokens, map_cons, List.cons.injEq] at ahead
    exact ahead.2

/-- As many tokens are to be read as stand ahead. -/
theorem Cursor.remaining_eq (cursor : Cursor) : cursor.remaining = cursor.kinds.length := by
  simp [Cursor.remaining, Cursor.kinds]

/-- The next token can be taken. -/
theorem Cursor.eat?_of_kinds (ahead : cursor.kinds = token :: rest) :
    cursor.eat? token = some cursor.advance := by
  rw [Cursor.eat?, peek_of_kinds ahead, first_cons, if_pos rfl]

/-- Another token than the next cannot be taken. -/
theorem Cursor.eat?_eq_none (ahead : cursor.kinds = rest) (other : first rest ≠ token) :
    cursor.eat? token = none := by
  rw [Cursor.eat?, peek_of_kinds ahead, if_neg other]

/-- The expected token is read. -/
theorem expect_of_kinds (ahead : cursor.kinds = token :: rest) :
    expect token cursor = .ok cursor.advance := by
  rw [expect, eat?_of_kinds ahead]

/-- A name is read. -/
theorem identifier_of_kinds {name : String} (ahead : cursor.kinds = .identifier name :: rest) :
    identifier cursor = .ok ((name, cursor.span), cursor.advance) := by
  rw [identifier, peek_of_kinds ahead, first_cons]

end Elementary

/-- The reader takes tokens before one that `next` admits. -/
def Reads {α : Type} (reader : Reader α) (tokens : List Token) (next : Token → Prop)
    (result : α → Prop) : Prop :=
  ∀ cursor rest, cursor.kinds = tokens ++ rest → next (first rest) →
    ∃ value after, reader cursor = .ok (value, after) ∧ result value ∧ after.kinds = rest

section Lists

variable {α β γ : Type} {item : Reader α} {tokens : β → List Token} {next : Token → Prop}
  {view : α → γ} {expected : β → γ}

/-- Items divided by commas are read one by one. -/
theorem separated_reads {items : List β} (nonempty : items ≠ []) (comma : next .comma)
    (each : ∀ one ∈ items, Reads item (tokens one) next (view · = expected one))
    {bound : Nat} (enough : items.length ≤ bound + 1) :
    Reads (separated item bound) (List.intercalate [.comma] (items.map tokens))
      (fun token => next token ∧ token ≠ .comma)
      (fun values => values.map view = items.map expected) := by
  induction items generalizing bound with
  | nil => exact absurd rfl nonempty
  | cons one others ih =>
    intro cursor rest ahead follows
    cases others with
    | nil =>
      rw [map_singleton, intercalate_singleton] at ahead
      obtain ⟨value, after, read, right, behind⟩ :=
        each one (by simp) cursor rest ahead follows.1
      have stop := eat?_eq_none behind follows.2
      refine ⟨[value], after, ?_, by simp [right], behind⟩
      cases bound <;> simp [separated, bind, Except.bind, read, stop]
    | cons second others =>
      rw [map_cons, map_cons, intercalate_cons_cons, append_assoc,
        append_assoc] at ahead
      obtain ⟨value, middle, read, right, behind⟩ := each one (by simp) cursor _ ahead comma
      have more : 0 < bound := Nat.zero_lt_of_lt (Nat.le_of_succ_le_succ enough)
      obtain ⟨bound, rfl⟩ := Nat.exists_eq_add_one.mpr more
      have smaller : (second :: others).length ≤ bound + 1 := by simp at enough ⊢; omega
      obtain ⟨values, after, readRest, rightRest, last⟩ :=
        ih (by simp) (fun other member => each other (by simp [member])) smaller
          middle.advance rest (kinds_advance behind) follows
      refine ⟨value :: values, after, ?_, by simp [right, rightRest], last⟩
      simp [separated, bind, Except.bind, read, eat?_of_kinds behind, readRest]

/-- Items divided by commas are read up to the closing token. -/
theorem listed_reads (closing : Token) {items : List β} (comma : next .comma) (close : next closing)
    (notComma : closing ≠ .comma)
    (each : ∀ one ∈ items, Reads item (tokens one) next (view · = expected one))
    (inside : ∀ one ∈ items, tokens one ≠ [] ∧ first (tokens one) ≠ closing)
    {bound : Nat} (enough : items.length < bound) :
    Reads (listed closing item bound) (List.intercalate [.comma] (items.map tokens))
      (fun token => token = closing) (fun values => values.map view = items.map expected) := by
  induction items generalizing bound with
  | nil =>
    intro cursor rest ahead follows
    have atClosing : cursor.peek = closing := by
      rw [peek_of_kinds ahead]
      exact follows
    obtain ⟨bound, rfl⟩ := Nat.exists_eq_add_one.mpr (Nat.zero_lt_of_lt enough)
    exact ⟨[], cursor, by rw [listed, if_pos atClosing], rfl, ahead⟩
  | cons one others ih =>
    intro cursor rest ahead follows
    obtain ⟨bound, rfl⟩ := Nat.exists_eq_add_one.mpr (Nat.zero_lt_of_lt enough)
    obtain ⟨nonempty, notClosing⟩ := inside one (by simp)
    cases others with
    | nil =>
      rw [map_singleton, intercalate_singleton] at ahead
      have notYet : cursor.peek ≠ closing := by
        rwa [peek_of_kinds ahead, first_append_of_ne_nil nonempty]
      obtain ⟨value, after, read, right, behind⟩ :=
        each one (by simp) cursor rest ahead (follows ▸ close)
      have stop : after.eat? .comma = none := eat?_eq_none behind (follows ▸ notComma)
      exact ⟨[value], after, by simp [listed, notYet, bind, Except.bind, read, stop],
        by simp [right], behind⟩
    | cons second others =>
      rw [map_cons, map_cons, intercalate_cons_cons, append_assoc,
        append_assoc] at ahead
      have notYet : cursor.peek ≠ closing := by
        rwa [peek_of_kinds ahead, first_append_of_ne_nil nonempty]
      obtain ⟨value, middle, read, right, behind⟩ := each one (by simp) cursor _ ahead comma
      obtain ⟨values, after, readRest, rightRest, last⟩ :=
        ih (fun other member => each other (by simp [member]))
          (fun other member => inside other (by simp [member])) (by simp at enough ⊢; omega)
          middle.advance rest (kinds_advance behind) follows
      refine ⟨value :: values, after, ?_, by simp [right, rightRest], last⟩
      simp [listed, notYet, bind, Except.bind, read, eat?_of_kinds behind, readRest]

/-- Items with commas are at most as many as their tokens. -/
theorem length_le_intercalate {items : List β} (nonempty : ∀ one ∈ items, tokens one ≠ []) :
    items.length ≤ (List.intercalate [.comma] (items.map tokens)).length := by
  induction items with
  | nil => exact Nat.le_refl 0
  | cons one others ih =>
    have positive := length_pos_iff.mpr (nonempty one (by simp))
    have later := ih fun other member => nonempty other (by simp [member])
    cases others with
    | nil => rwa [map_singleton, intercalate_singleton]
    | cons second rest =>
      simp only [map_cons, intercalate_cons_cons, length_append,
        length_cons] at later ⊢
      omega

end Lists

/-- The cursor before the tokens of a source text. -/
def cursorAt (source : SourceText) : Cursor :=
  Cursor.start (retainHeadings 0 (terminated (tokenize source).tokens))

/-- Whether a visibility comment may stand before the token. -/
def followsComment : Token → Bool
  | .atSign | .varKeyword | .uniformKeyword | .visibilityComment _ => true
  | _ => false

/-- The tokens that count: visibility comments stay only before items. -/
def keepHeadings (depth : Nat) : List Token → List Token
  | [] => []
  | .visibilityComment stages :: rest =>
    if depth = 0 && followsComment (first rest) then
      .visibilityComment stages :: keepHeadings depth rest
    else keepHeadings depth rest
  | token :: rest => token :: keepHeadings (token.depthAfter depth) rest

/-- Which comments stay is told by the tokens alone. -/
theorem map_retainHeadings (depth : Nat) (tokens : Tokens) :
    (retainHeadings depth tokens).map LocatedToken.token =
      keepHeadings depth (tokens.map LocatedToken.token) := by
  induction tokens generalizing depth with
  | nil => rfl
  | cons next rest ih =>
    have heads : headsItem rest = followsComment (first (rest.map LocatedToken.token)) := by
      cases rest <;> rfl
    obtain ⟨token, span⟩ := next
    cases token with
    | visibilityComment stages =>
      rw [map_cons, keepHeadings, ← heads, ← ih]
      simp only [retainHeadings]
      split <;> simp
    | _ => simp [retainHeadings, keepHeadings, ih]

/-- The end of the input stands behind what stays. -/
theorem keepHeadings_append_eof (depth : Nat) (tokens : List Token) :
    keepHeadings depth (tokens ++ [.eof]) = keepHeadings depth tokens ++ [.eof] := by
  induction tokens generalizing depth with
  | nil => rfl
  | cons token rest ih =>
    have start : first (rest ++ [.eof]) = first rest := by cases rest <;> rfl
    cases token with
    | visibilityComment stages =>
      rw [cons_append, keepHeadings, keepHeadings, start, ih]
      split <;> rfl
    | _ => simp [keepHeadings, ih]

/-- What stays was there. -/
theorem keepHeadings_sublist (depth : Nat) (tokens : List Token) :
    (keepHeadings depth tokens).Sublist tokens := by
  induction tokens generalizing depth with
  | nil => exact .slnil
  | cons next rest ih =>
    cases next with
    | visibilityComment stages =>
      rw [keepHeadings]
      split
      · exact (ih _).cons_cons _
      · exact (ih _).cons _
    | _ => exact (ih _).cons_cons _

/-- The cursor before a text stands before its tokens. -/
theorem kinds_cursorAt
    (divided : (tokenize source).tokens.map LocatedToken.token = tokens ++ [.eof])
    (inside : .eof ∉ tokens) : (cursorAt source).kinds = keepHeadings 0 tokens := by
  have ended : terminated (tokenize source).tokens = (tokenize source).tokens := by
    have last := congrArg List.getLast? divided
    rw [getLast?_map, getLast?_append] at last
    unfold terminated
    cases final : (tokenize source).tokens.getLast? with
    | none => simp [final] at last
    | some located =>
      obtain ⟨token, span⟩ := located
      obtain rfl : token = .eof := by simpa [final] using last
      rfl
  have stop : ∀ token ∈ keepHeadings 0 tokens, decide (token ≠ .eof) = true := by
    intro token member
    rw [decide_eq_true_eq]
    rintro rfl
    exact inside ((keepHeadings_sublist ..).mem member)
  have kinds : (cursorAt source).kinds =
      (keepHeadings 0 (tokens ++ [.eof])).takeWhile fun token => token ≠ .eof := by
    rw [← divided, ← map_retainHeadings, cursorAt, ended]
    simp only [Cursor.kinds, Cursor.start]
    rw [takeWhile_map]
    rfl
  rw [kinds, keepHeadings_append_eof, takeWhile_append_of_pos stop]
  simp

/-- Whether the token is no comment and not the end. -/
def isPlain : Token → Bool
  | .eof => false
  | .visibilityComment _ => false
  | _ => true

/-- Plain lists with commas are plain. -/
theorem all_isPlain_intercalate {lists : List (List Token)}
    (each : ∀ tokens ∈ lists, tokens.all isPlain) :
    (List.intercalate [.comma] lists).all isPlain := by
  induction lists with
  | nil => rfl
  | cons one others ih =>
    have later := ih fun tokens member => each tokens (by simp [member])
    cases others with
    | nil => simpa using each one (by simp)
    | cons second rest =>
      rw [intercalate_cons_cons, all_append, all_append, each one (by simp), later]
      rfl

/-- Plain tokens stay and change the open brackets. -/
theorem keepHeadings_append (plain : tokens.all isPlain) (depth : Nat) (rest : List Token) :
    keepHeadings depth (tokens ++ rest) =
      tokens ++ keepHeadings (tokens.foldl Token.depthAfter depth) rest := by
  induction tokens generalizing depth with
  | nil => rfl
  | cons token others ih =>
    rw [all_cons, Bool.and_eq_true] at plain
    have later := ih plain.2 (token.depthAfter depth)
    cases token with
    | visibilityComment stages => exact nomatch plain.1
    | _ => simp only [cons_append, keepHeadings, later, foldl_cons]

/-- Before plain tokens, the cursor stands before all. -/
theorem kinds_cursorAt_plain
    (divided : (tokenize source).tokens.map LocatedToken.token = tokens ++ [.eof])
    (plain : tokens.all isPlain) : (cursorAt source).kinds = tokens := by
  rw [kinds_cursorAt divided fun member => nomatch all_eq_true.mp plain _ member]
  simpa [keepHeadings] using keepHeadings_append plain 0 []

end Shading.Surface
