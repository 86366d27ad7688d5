import Shading.Proofs.Lexing

/-!
# Tiles of a text

Dividing a text cuts it into pieces with at least one character each. A piece is skipped, or it is
reported, or it is that of a token, and then its characters tell which.
-/

namespace Shading.Lexer

open List

variable {first : Char} {piece rest text : List Char} {token : Token}

/-- The piece that is skipped before `rest`. -/
inductive Trivia (piece rest : List Char) : Prop
  /-- All blanks up to the next character that is none. -/
  | blanks (nonempty : piece ≠ []) (all : ∀ character ∈ piece, isBlank character)
      (stops : ∀ character ∈ rest.head?, isBlank character = false)
  /-- Two slashes and all characters up to the end of the line. -/
  | lineComment (comment : List Char) (spelled : piece = '/' :: '/' :: comment)
      (oneLine : '\n' ∉ comment) (stops : ∀ character ∈ rest.head?, character = '\n')
  /-- All characters through the first `*/` behind the opening. -/
  | blockComment (inner : List Char) (spelled : piece = '/' :: '*' :: (inner ++ ['*', '/']))
      (first : ¬ ['*', '/'] <:+: inner ++ ['*'])

/-- Something is skipped. -/
theorem Trivia.ne_nil (trivia : Trivia piece rest) : piece ≠ [] := by
  cases trivia with
  | blanks nonempty => exact nonempty
  | lineComment _ spelled | blockComment _ spelled =>
    rw [spelled]
    exact cons_ne_nil _ _

/-- A first character that passes is taken. -/
theorem takeWhile_ne_nil {test : Char → Bool} {first : Char} {rest : List Char}
    (holds : test first) : (first :: rest).takeWhile test ≠ [] := by
  rw [takeWhile_cons_of_pos holds]
  exact cons_ne_nil _ _

/-- The first `*/` of a text divides it. -/
theorem closingOffset?_eq_some {inner : Nat} (closed : closingOffset? text = some inner) :
    ∃ front rest, text = front ++ '*' :: '/' :: rest ∧ front.length = inner ∧
      ¬ ['*', '/'] <:+: front ++ ['*'] := by
  fun_induction closingOffset? text generalizing inner with
  | case1 rest =>
    cases closed
    refine ⟨[], rest, rfl, rfl, ?_⟩
    decide
  | case2 first rest unclosed ih =>
    obtain ⟨before, later, rfl⟩ := Option.map_eq_some_iff.mp closed
    obtain ⟨front, behind, rfl, rfl, earliest⟩ := ih later
    refine ⟨first :: front, behind, rfl, rfl, ?_⟩
    rw [cons_append, infix_cons_iff]
    rintro (starts | within)
    · -- The two characters would stand at the start of the text.
      obtain ⟨others, spelled⟩ := starts
      cases front with
      | nil => simp at spelled
      | cons second others =>
        simp only [cons_append, nil_append, List.cons.injEq] at spelled
        obtain ⟨rfl, rfl, _⟩ := spelled
        exact unclosed _ rfl rfl
    · exact earliest within
  | case3 => cases closed

/-- A fraction is a part of the text. -/
theorem fractionLength_le (text : List Char) : fractionLength text ≤ text.length := by
  unfold fractionLength
  split
  · rename_i rest
    have digits := ( takeWhile_prefix (l := rest) Char.isDigit).length_le
    rw [length_cons]
    dsimp only
    split <;> omega
  · exact Nat.zero_le _

/-- An exponent is a part of the text. -/
theorem exponentLength_le (text : List Char) : exponentLength text ≤ text.length := by
  unfold exponentLength
  split
  · rename_i mark rest
    have bounded (sign : Nat) (short : sign ≤ rest.length) :
        (if ((rest.drop sign).takeWhile Char.isDigit).length = 0 then 0
          else 1 + sign + ((rest.drop sign).takeWhile Char.isDigit).length) ≤
          (mark :: rest).length := by
      have digits := ( takeWhile_prefix (l := rest.drop sign) Char.isDigit).length_le
      rw [length_drop] at digits
      rw [length_cons]
      split <;> omega
    split
    · exact bounded _ (by split <;> simp)
    · exact Nat.zero_le _
  · exact Nat.zero_le _

/-- A number is a part of the text. -/
theorem numberLength_le (text : List Char) : numberLength text ≤ text.length := by
  unfold numberLength
  dsimp only
  have whole := ( takeWhile_prefix (l := text) Char.isDigit).length_le
  generalize (text.takeWhile Char.isDigit).length = digits at whole ⊢
  have fraction := fractionLength_le (text.drop digits)
  generalize fractionLength (text.drop digits) = point at fraction ⊢
  have exponent := exponentLength_le (text.drop (digits + point))
  generalize exponentLength (text.drop (digits + point)) = power at exponent ⊢
  have tail := ( takeWhile_prefix (l := text.drop (digits + point + power))
    continuesWord).length_le
  rw [length_drop] at fraction exponent tail
  omega

/-- A number has a digit. -/
theorem numberLength_pos (rest : List Char) (digit : first.isDigit) :
    0 < numberLength (first :: rest) := by
  have whole : 0 < ((first :: rest).takeWhile Char.isDigit).length :=
    length_pos_iff.mpr (takeWhile_ne_nil digit)
  unfold numberLength
  dsimp only
  omega

/-- What a piece tells about its token: a name, a number, a comment that lists stages, never the
end. -/
def Writes (piece : List Char) : Token → Prop
  | .identifier name => piece = name.toList ∧ IsName name
  | .number literal => ∃ first rest, piece = first :: rest ∧ first.isDigit ∧
      Number.read (String.ofList piece) = .ok literal
  | .visibilityComment stages => stages ≠ []
  | .eof => False
  | _ => True

/-- A piece has a character and writes its token, or is blank or a comment. -/
structure Cuts (lexeme : Lexeme) (piece rest : List Char) : Prop where
  nonempty : piece ≠ []
  writes : ∀ token, lexeme = .token token → Writes piece token
  skips : lexeme = .trivia → Trivia piece rest

/-- What is skipped cuts. -/
theorem Cuts.of_trivia (trivia : Trivia piece rest) : Cuts .trivia piece rest :=
  ⟨trivia.ne_nil, nofun, fun _ => trivia⟩

/-- A token cuts. -/
theorem Cuts.of_token (nonempty : piece ≠ []) (writes : Writes piece token) :
    Cuts (.token token) piece rest :=
  ⟨nonempty, fun _ same => Lexeme.token.inj same ▸ writes, nofun⟩

/-- What is invalid cuts. -/
theorem Cuts.of_invalid {error : LexicalError} (nonempty : piece ≠ []) :
    Cuts (.invalid error) piece rest :=
  ⟨nonempty, nofun, nofun⟩

/-- The match cuts off a piece of its length. -/
def Match.CutsOff (found : Match) (text : List Char) : Prop :=
  ∃ piece rest, text = piece ++ rest ∧ found.2 = piece.length ∧ Cuts found.1 piece rest

/-- Blanks cut off. -/
theorem blanks_cutsOff (rest : List Char) (blank : isBlank first) :
    Match.CutsOff (.trivia, ((first :: rest).takeWhile isBlank).length) (first :: rest) := by
  refine ⟨_, (first :: rest).dropWhile isBlank, takeWhile_append_dropWhile.symm, rfl, ?_⟩
  refine .of_trivia (.blanks (takeWhile_ne_nil blank) ?_ ?_)
  · exact fun character member => all_eq_true.mp all_takeWhile character member
  · intro character member
    have stops := head?_dropWhile_not isBlank (first :: rest)
    rw [Option.mem_def.mp member] at stops
    exact stops

/-- Stages that a comment lists are some. -/
theorem stageList?_ne_nil {stages : List Stage} (listed : stageList? text = some stages) :
    stages ≠ [] := by
  have pieces : splitCommas text ≠ [] := by
    cases text with
    | nil => exact nofun
    | cons first rest =>
      unfold splitCommas
      split
      · exact nofun
      · split <;> exact nofun
  obtain ⟨first, rest, split⟩ := exists_cons_of_ne_nil pieces
  rintro rfl
  simp [stageList?, split, Option.bind_eq_some_iff] at listed

/-- A comment of one line cuts off. -/
theorem lineComment_cutsOff (rest : List Char) :
    Match.CutsOff (lineComment (rest.takeWhile (· ≠ '\n')), (rest.takeWhile (· ≠ '\n')).length + 2)
      ('/' :: '/' :: rest) := by
  refine ⟨'/' :: '/' :: rest.takeWhile (· ≠ '\n'), rest.dropWhile (· ≠ '\n'), ?_, rfl, ?_⟩
  · rw [cons_append, cons_append, takeWhile_append_dropWhile]
  · unfold lineComment
    split
    · rename_i stages listed
      obtain ⟨_, _, listed⟩ := Option.bind_eq_some_iff.mp listed
      exact .of_token (cons_ne_nil _ _) (stageList?_ne_nil listed)
    · refine .of_trivia (.lineComment _ rfl ?_ ?_)
      · intro member
        have other := all_eq_true.mp all_takeWhile _ member
        exact absurd rfl (of_decide_eq_true other)
      · intro character member
        have stops := head?_dropWhile_not (· ≠ '\n') rest
        rw [Option.mem_def.mp member] at stops
        simpa using stops

/-- A comment cuts off. -/
theorem comment?_cutsOff {found : Match} (told : comment? text = some found) :
    found.CutsOff text := by
  unfold comment? at told
  split at told
  · cases told
    exact lineComment_cutsOff _
  · obtain ⟨inner, closed, rfl⟩ := Option.map_eq_some_iff.mp told
    obtain ⟨front, rest, rfl, rfl, earliest⟩ := closingOffset?_eq_some closed
    refine ⟨'/' :: '*' :: (front ++ ['*', '/']), rest, by simp, by simp, ?_⟩
    exact .of_trivia (.blockComment front rfl earliest)
  · cases told

/-- A word is that of a keyword or of a name. -/
theorem writes_ofWord (starts : ∃ first ∈ text.head?, startsWord first)
    (continues : ∀ character ∈ text, continuesWord character) :
    Writes text (Token.ofWord (String.ofList text)) := by
  cases token : Token.ofWord (String.ofList text) with
  | identifier name =>
    have same : name = String.ofList text := by
      unfold Token.ofWord at token
      split at token <;> simp_all
    rw [← same] at token
    have spelled : name.toList = text := same ▸ String.toList_ofList
    exact ⟨spelled.symm, spelled ▸ starts, spelled ▸ continues, token⟩
  | number | visibilityComment | eof =>
    unfold Token.ofWord at token
    split at token <;> cases token
  | _ => trivial

/-- A word cuts off. -/
theorem word_cutsOff (rest : List Char) (starts : startsWord first) :
    let word := (first :: rest).takeWhile continuesWord
    Match.CutsOff (.token (Token.ofWord (String.ofList word)), word.length) (first :: rest) := by
  have continues := continuesWord_of_startsWord starts
  refine ⟨_, (first :: rest).dropWhile continuesWord, takeWhile_append_dropWhile.symm, rfl, ?_⟩
  refine .of_token (takeWhile_ne_nil continues) (writes_ofWord ⟨first, ?_, starts⟩ ?_)
  · simp [continues]
  · exact fun character member => all_eq_true.mp all_takeWhile character member

/-- A number cuts off. -/
theorem number_cutsOff (rest : List Char) (digit : first.isDigit) :
    Match.CutsOff (numberLexeme ((first :: rest).take (numberLength (first :: rest))),
      numberLength (first :: rest)) (first :: rest) := by
  have short := numberLength_le (first :: rest)
  refine ⟨(first :: rest).take (numberLength (first :: rest)), (first :: rest).drop _,
    (take_append_drop _ _).symm, (length_take_of_le short).symm, ?_⟩
  obtain ⟨length, positive⟩ := Nat.exists_eq_succ_of_ne_zero (Nat.ne_of_gt (numberLength_pos rest digit))
  have starts : (first :: rest).take (numberLength (first :: rest)) = first :: rest.take length := by
    rw [positive, take_succ_cons]
  rw [starts]
  unfold numberLexeme
  split
  · rename_i literal read
    exact .of_token (cons_ne_nil _ _) ⟨_, _, rfl, digit, read⟩
  · exact .of_invalid (cons_ne_nil _ _)

/-- A symbol cuts off. -/
theorem symbol_cutsOff (first : Char) (rest : List Char) :
    (symbol first rest).CutsOff (first :: rest) := by
  unfold symbol
  split
  · rename_i token long
    unfold longOperator? at long
    split at long <;> cases long <;>
      exact ⟨[_, _], _, ‹first :: rest = _›, rfl, .of_token (cons_ne_nil _ _) trivial⟩
  · refine ⟨[first], rest, rfl, ?_⟩
    split
    · rename_i token known
      refine ⟨rfl, .of_token (cons_ne_nil _ _) ?_⟩
      unfold symbol? at known
      split at known <;> cases known <;> trivial
    · exact ⟨rfl, .of_invalid (cons_ne_nil _ _)⟩

/-- A text starts with a lexeme of at least one character. -/
theorem lexeme_cutsOff (first : Char) (rest : List Char) :
    (lexeme first rest).CutsOff (first :: rest) := by
  unfold lexeme
  dsimp only
  split
  · exact blanks_cutsOff rest ‹_›
  · split
    · exact comment?_cutsOff ‹_›
    · split
      · exact word_cutsOff rest ‹_›
      · split
        · exact number_cutsOff rest ‹_›
        · exact symbol_cutsOff first rest

/-- The tokens and reports that a text is divided into from `here` on. -/
inductive Tiled : (here : Position) → (text : List Char) → (tokens : Tokens) →
    (reports : List (LexicalError × Span)) → Prop
  | finished (here : Position) : Tiled here [] [] []
  | unterminated {text : List Char} (here : Position) (opened : isUnterminated text) :
    Tiled here text [] [(.unterminatedComment, .startingAt here 2)]
  | skipped {here : Position} {piece rest : List Char} {tokens : Tokens}
      {reports : List (LexicalError × Span)} (trivia : Trivia piece rest)
      (later : Tiled (here.advanceAll piece) rest tokens reports) :
    Tiled here (piece ++ rest) tokens reports
  | token {here : Position} {piece rest : List Char} {tokens : Tokens}
      {reports : List (LexicalError × Span)} (found : Token) (writes : Writes piece found)
      (nonempty : piece ≠ []) (later : Tiled (here.advanceAll piece) rest tokens reports) :
    Tiled here (piece ++ rest) (⟨found, .startingAt here (byteLength piece)⟩ :: tokens) reports
  | invalid {here : Position} {piece rest : List Char} {tokens : Tokens}
      {reports : List (LexicalError × Span)} (error : LexicalError) (nonempty : piece ≠ [])
      (later : Tiled (here.advanceAll piece) rest tokens reports) :
    Tiled here (piece ++ rest) tokens ((error, .startingAt here (byteLength piece)) :: reports)

/-- The tokens and reports with the end behind them. -/
def closed (stop : Position) (tokens : List LocatedToken) (reports : List (LexicalError × Span)) :
    Lexed :=
  ⟨tokens ++ [⟨.eof, .startingAt stop 0⟩], reports.map fun report => report.1.diagnostic report.2⟩

/-- Dividing a text tiles it. -/
theorem scan_tiled (here : Position) (text : List Char) :
    ∃ tokens reports, Tiled here text tokens reports ∧
      scan 0 here text = closed (here.advanceAll text) tokens reports := by
  -- The rest behind the first lexeme is shorter than the text.
  induction counted : text.length using Nat.strongRecOn generalizing here text with
  | ind size ih =>
    cases text with
    | nil => exact ⟨[], [], .finished here, rfl⟩
    | cons first rest =>
      by_cases opened : isUnterminated (first :: rest) = true
      · refine ⟨[], _, .unterminated here opened, ?_⟩
        rw [scan, if_pos opened]
        rfl
      · obtain ⟨piece, behind, split, length, cuts⟩ := lexeme_cutsOff first rest
        obtain ⟨start, others, rfl⟩ := exists_cons_of_ne_nil cuts.nonempty
        rw [cons_append] at split
        obtain ⟨rfl, rfl⟩ := List.cons.inj split
        have shorter : behind.length < size := by
          rw [← counted, length_cons, length_append]
          omega
        obtain ⟨tokens, reports, tiled, divided⟩ :=
          ih _ shorter (here.advanceAll (first :: others)) behind rfl
        have stepped : scan 0 here (first :: (others ++ behind)) =
            (lexeme first (others ++ behind)).1.prepend
              (.startingAt here (byteLength (first :: others)))
              (closed (here.advanceAll (first :: (others ++ behind))) tokens reports) := by
          rw [scan, if_neg opened]
          dsimp only
          rw [length, length_cons, Nat.add_sub_cancel, scan_pending, ← Position.advanceAll_cons,
            divided, ← Position.advanceAll_append, ← length_cons (a := first),
            ← cons_append, take_left]
        rw [stepped]
        cases told : (lexeme first (others ++ behind)).1 with
        | trivia => exact ⟨tokens, reports, .skipped (cuts.skips told) tiled, rfl⟩
        | token found =>
          exact ⟨_, reports, .token found (cuts.writes found told) cuts.nonempty tiled, rfl⟩
        | invalid error => exact ⟨tokens, _, .invalid error cuts.nonempty tiled, rfl⟩

end Shading.Lexer
