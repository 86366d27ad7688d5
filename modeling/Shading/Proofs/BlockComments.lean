import Shading.Proofs.Tiling

/-!
# Block comments

A block comment ends with the first `*/` behind its opening, and the text behind it is divided as if it
stood alone. The star of the opening ends no comment, but it belongs to the text that is searched for an
end: a comment that has none and begins with a slash is not reported, and its opening is divided into
two tokens.
-/

namespace Shading

open List

namespace Lexer

/-- The end of a comment is found if it occurs. -/
theorem isSome_closingOffset? (text : List Char) :
    (closingOffset? text).isSome ↔ ['*', '/'] <:+: text := by
  fun_induction closingOffset? text with
  | case1 rest => simpa using (prefix_append ['*', '/'] rest).isInfix
  | case2 first rest unclosed ih =>
    rw [Option.isSome_map, ih, infix_cons_iff]
    refine ⟨.inr, fun occurs => occurs.resolve_left ?_⟩
    rintro ⟨behind, spelled⟩
    obtain ⟨rfl, rfl⟩ := List.cons.inj spelled
    exact unclosed behind rfl rfl
  | case3 => simp

/-- It is the one behind a text in which there is none. -/
theorem closingOffset?_append {inner : List Char} (unclosed : ¬ ['*', '/'] <:+: inner)
    (rest : List Char) : closingOffset? (inner ++ '*' :: '/' :: rest) = some inner.length := by
  induction inner with
  | nil => rfl
  | cons first others ih =>
    rw [infix_cons_iff, not_or] at unclosed
    rw [cons_append, closingOffset?, ih unclosed.2]
    · rfl
    · -- The two characters would stand at the start of the text, or its first one is the last.
      rintro behind rfl spelled
      cases others with
      | nil => simp at spelled
      | cons second others =>
        obtain ⟨rfl, _⟩ := List.cons.inj spelled
        exact unclosed.1 ⟨others, rfl⟩

/-- An opening without end and slash is reported. -/
theorem isUnterminated_opening (inner : List Char) :
    isUnterminated ('/' :: '*' :: inner) = true ↔
      ¬ ['*', '/'] <:+: inner ∧ inner.head? ≠ some '/' := by
  have starts : startsWith "/*".toList ('/' :: '*' :: inner) = true := by simp [startsWith]
  rw [isUnterminated, starts, Bool.true_and, ← Option.not_isSome, Bool.not_eq_true',
    ← Bool.not_eq_true, isSome_closingOffset?, infix_cons_iff, infix_cons_iff]
  cases inner <;> simp [and_comm, @eq_comm _ '/']

/-- A block comment spells nothing. -/
theorem spells_blockComment {inner : List Char} (unclosed : ¬ ['*', '/'] <:+: inner) :
    Spells Anything ('/' :: '*' :: (inner ++ ['*', '/'])) [] := by
  intro here rest _
  have ended : ¬ isUnterminated ('/' :: '*' :: (inner ++ '*' :: '/' :: rest)) = true := by
    rw [isUnterminated_opening]
    exact fun opened => opened.1 ⟨inner, rest, by simp⟩
  have found : lexeme '/' ('*' :: (inner ++ '*' :: '/' :: rest)) = (.trivia, inner.length + 4) := by
    simp [lexeme, isBlank, comment?, closingOffset?_append unclosed]
  have divided : scan 0 here ('/' :: '*' :: (inner ++ ['*', '/']) ++ rest) =
      scan 0 (here.advanceAll ('/' :: '*' :: (inner ++ ['*', '/']))) rest := by
    have passed := scan_pending (here.advance '/') ('*' :: (inner ++ ['*', '/'])) rest
    simp only [cons_append, append_assoc, nil_append] at passed ⊢
    rw [scan, if_neg ended, found]
    simpa [Lexeme.prepend] using passed
  rw [divided]
  exact ⟨rfl, rfl⟩

/-- An open comment with a slash is divided into two tokens. -/
theorem spells_opening :
    Spells (fun rest => rest.head? = some '/' ∧ ¬ ['*', '/'] <:+: rest) ['/', '*']
      [.slash, .star] := by
  have slash : Spells (fun rest => ∃ behind, rest = '*' :: '/' :: behind ∧
      ¬ ['*', '/'] <:+: '/' :: behind) ['/'] [.slash] := by
    refine spells_lexeme ?_ ?_
    · rintro _ ⟨behind, rfl, _⟩
      exact Bool.eq_false_iff.mpr fun opened => ((isUnterminated_opening _).mp opened).2 rfl
    · rintro _ ⟨behind, rfl, unclosed⟩
      have open_ : closingOffset? ('/' :: behind) = none := by
        rwa [← Option.not_isSome_iff_eq_none, isSome_closingOffset?]
      simp [lexeme, isBlank, comment?, open_, symbol, longOperator?, symbol?, startsWord]
  refine slash.append ((spells_symbol rfl (by decide)).weaken fun rest _ => ?_) ?_
  · rfl
  · rintro rest ⟨slashed, unclosed⟩
    obtain ⟨behind, rfl⟩ := head?_eq_some_iff.mp slashed
    exact ⟨behind, rfl, unclosed⟩

/-- Tokens do not depend on where their text stands. -/
theorem kinds_scan (pending : Nat) (here there : Position) (text : List Char) :
    (scan pending here text).kinds = (scan pending there text).kinds := by
  induction text generalizing pending here there with
  | nil => rfl
  | cons first rest ih =>
    unfold scan
    split
    · exact ih ..
    · split
      · rfl
      · dsimp only
        have later := ih ((lexeme first rest).2 - 1) (here.advance first) (there.advance first)
        cases (lexeme first rest).1 with
        | trivia | invalid => exact later
        | token found => exact congrArg (found :: ·) later

end Lexer

/-- A block comment leaves the tokens behind it. Without an end it hides the rest and is reported
once, unless it begins with a slash: then it is read as a slash, a star and other text. -/
theorem block_comments_hide_their_text (name comment : String)
    (unclosed : ¬ ['*', '/'] <:+: comment.toList) :
    (∀ text, (tokenize ⟨name, "/*" ++ comment ++ "*/" ++ text⟩).kinds = (tokenize ⟨name, text⟩).kinds) ∧
      (comment.toList.head? ≠ some '/' →
        (tokenize ⟨name, "/*" ++ comment⟩).kinds = [.eof] ∧
          (tokenize ⟨name, "/*" ++ comment⟩).diagnostics =
            [LexicalError.unterminatedComment.diagnostic ⟨1, 1, 0, 2⟩]) ∧
      (comment.toList.head? = some '/' →
        (tokenize ⟨name, "/*" ++ comment⟩).kinds =
          .slash :: .star :: (tokenize ⟨name, comment⟩).kinds) := by
  have opened : ("/*" ++ comment).toList = '/' :: '*' :: comment.toList := by simp
  refine ⟨fun text => ?_, fun plain => ?_, fun slashed => ?_⟩
  · have split : ("/*" ++ comment ++ "*/" ++ text).toList =
        '/' :: '*' :: (comment.toList ++ ['*', '/']) ++ text.toList := by simp
    rw [tokenize, SourceText.characters, split, (Lexer.spells_blockComment unclosed .start _ trivial).1]
    exact Lexer.kinds_scan ..
  · rw [tokenize, SourceText.characters, opened, Lexer.scan,
      if_pos ((Lexer.isUnterminated_opening _).mpr ⟨unclosed, plain⟩)]
    exact ⟨rfl, rfl⟩
  · have spelled := (Lexer.spells_opening .start _ ⟨slashed, unclosed⟩).1
    rw [tokenize, SourceText.characters, opened]
    refine spelled.trans ?_
    exact congrArg _ (Lexer.kinds_scan ..)

/-- Stars and slashes in a comment end it no earlier. -/
theorem stars_hide_their_text :
    ¬ ['*', '/'] <:+: "/ **".toList ∧
      (tokenize ⟨"stars.shade", "/*" ++ "/ **" ++ "*/" ++ "a * b"⟩).kinds =
        (tokenize ⟨"stars.shade", "a * b"⟩).kinds := by
  have unclosed : ¬ ['*', '/'] <:+: "/ **".toList := by decide
  exact ⟨unclosed, (block_comments_hide_their_text "stars.shade" "/ **" unclosed).1 "a * b"⟩

/-- An open comment that begins with a slash is not reported. -/
theorem open_slash_comment_leaks :
    ¬ ['*', '/'] <:+: "/".toList ∧
      (tokenize ⟨"open.shade", "/*" ++ "/"⟩).kinds = [.slash, .star, .slash, .eof] ∧
      (tokenize ⟨"open.shade", "/*" ++ "/"⟩).diagnostics = [] := by
  decide +kernel

end Shading
