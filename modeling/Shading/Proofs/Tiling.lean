import Shading.Proofs.Places

/-!
# Tokens and reports tile a text

The lexemes of a text follow one another without a gap. So the spans of the tokens and of the lexical
reports are apart from one another, and what none of them covers is blank, a comment, or the inside of a
block comment that is reported as open.
-/

namespace Shading

open List

variable {source : SourceText} {low offset : Nat}

/-- Offsets do not go back. -/
theorem Position.offset_le_advanceAll (here : Position) (characters : List Char) :
    here.offset ≤ (here.advanceAll characters).offset := by
  rw [offset_advanceAll]
  exact Nat.le_add_right ..

namespace Span

/-- The byte at `offset` lies in the span. -/
def Covers (span : Span) (offset : Nat) : Prop := span.offset ≤ offset ∧ offset < span.stop

/-- No byte lies in both spans. -/
def Apart (first second : Span) : Prop :=
  first.stop ≤ second.offset ∨ second.stop ≤ first.offset

/-- A piece stops where the next starts. -/
theorem stop_startingAt (here : Position) (characters : List Char) :
    (startingAt here (byteLength characters)).stop = (here.advanceAll characters).offset :=
  (Position.offset_advanceAll here characters).symm

end Span

namespace SourceText

/-- A span of the text with a byte that ends between characters. -/
structure Marks (source : SourceText) (span : Span) : Prop extends source.Holds span where
  nonempty : 0 < span.length
  bounded : ∃ place, source.position? span.stop = some place ∧ place.offset = span.stop

/-- The span of blanks or of a comment of the text. -/
def Skips (source : SourceText) (span : Span) : Prop :=
  ∃ here piece rest, source.Remains here (piece ++ rest) ∧ Lexer.Trivia piece rest ∧
    span = .startingAt here (byteLength piece)

/-- A piece of the text with a character marks it. -/
theorem Cut.marks {piece : List Char} {span : Span} (cut : source.Cut piece span) :
    source.Marks span := by
  refine ⟨cut.holds, ?_, ?_⟩ <;> obtain ⟨nonempty, before, behind, split, rfl⟩ := cut
  · exact byteLength_pos nonempty
  · have place := position?_advanceAll (split.trans (append_assoc before piece behind).symm)
    rw [Position.advanceAll_append] at place
    rw [Span.stop_startingAt]
    exact ⟨_, place, rfl⟩

end SourceText

namespace Lexer

variable {tokens : Tokens} {reports : List (LexicalError × Span)}

/-- The spans of some tokens and reports. -/
def marks (tokens : List LocatedToken) (reports : List (LexicalError × Span)) : List Span :=
  tokens.map LocatedToken.span ++ reports.map Prod.snd

/-- Tokens have marks. -/
theorem mem_marks_token {located : LocatedToken} (member : located ∈ tokens) :
    located.span ∈ marks tokens reports :=
  mem_append_left _ (mem_map_of_mem member)

/-- Reports have marks. -/
theorem mem_marks_report {report : LexicalError × Span} (member : report ∈ reports) :
    report.2 ∈ marks tokens reports :=
  mem_append_right _ (mem_map_of_mem member)

/-- What holds of tokens and reports holds of all marks. -/
theorem forall_marks
    {good : Span → Prop} : (∀ span ∈ marks tokens reports, good span) ↔
      (∀ located ∈ tokens, good located.span) ∧ ∀ report ∈ reports, good report.2 := by
  rw [marks, forall_mem_append, forall_mem_map, forall_mem_map]

namespace Tiled

variable {here : Position} {text : List Char}

/-- No token is the end of the input. -/
theorem noEnd (tiled : Tiled here text tokens reports) :
    ∀ located ∈ tokens, located.token ≠ .eof := by
  induction tiled with
  | finished | unterminated => exact forall_mem_nil _
  | skipped _ _ ih | invalid _ _ _ ih => exact ih
  | token found writes _ _ ih => exact forall_mem_cons.mpr ⟨by rintro rfl; exact writes, ih⟩

/-- Reports stand in a row. -/
theorem row_reports (tiled : Tiled here text tokens reports) :
    Row Prod.snd here.offset reports (here.offset + byteLength text) := by
  induction tiled with
  | finished => exact Nat.le_add_right ..
  | unterminated here opened =>
    obtain ⟨rest, rfl⟩ := eq_of_isUnterminated opened
    rw [byteLength_append]
    exact ⟨Nat.le_refl _, Nat.add_le_add_left (Nat.le_add_right 2 _) _⟩
  | skipped _ _ ih | token _ _ _ _ ih =>
    rw [Position.offset_advanceAll, Nat.add_assoc, ← byteLength_append] at ih
    exact ih.widen (Nat.le_add_right ..) (Nat.le_refl _)
  | invalid _ _ _ ih =>
    rw [Position.offset_advanceAll, Nat.add_assoc, ← byteLength_append] at ih
    exact ⟨Nat.le_refl _, ih⟩

/-- All spans start at or behind the place divided from. -/
theorem behind (tiled : Tiled here text tokens reports) :
    ∀ span ∈ marks tokens reports, here.offset ≤ span.offset :=
  forall_marks.mpr ⟨fun _ member => (tiled.row_tokens.inside member).1,
    fun _ member => (tiled.row_reports.inside member).1⟩

/-- A piece is apart from what is behind it. -/
theorem apart_behind {piece : List Char}
    (tiled : Tiled (here.advanceAll piece) text tokens reports) :
    ∀ span ∈ marks tokens reports, (Span.startingAt here (byteLength piece)).Apart span := by
  intro span member
  refine .inl ?_
  rw [Span.stop_startingAt]
  exact tiled.behind span member

/-- Tokens are apart from reports. -/
theorem apart (tiled : Tiled here text tokens reports) :
    ∀ located ∈ tokens, ∀ report ∈ reports, located.span.Apart report.2 := by
  induction tiled with
  | finished | unterminated => exact forall_mem_nil _
  | skipped _ _ ih => exact ih
  | token _ _ _ later ih =>
    refine forall_mem_cons.mpr ⟨?_, ih⟩
    exact fun report member => later.apart_behind _ (mem_marks_report member)
  | invalid _ _ later ih =>
    intro located member
    refine forall_mem_cons.mpr ⟨?_, ih located member⟩
    exact (later.apart_behind _ (mem_marks_token member)).symm

/-- Any two spans are apart. -/
theorem pairwise_apart (tiled : Tiled here text tokens reports) :
    (marks tokens reports).Pairwise Span.Apart := by
  refine pairwise_append.mpr ⟨?_, ?_, ?_⟩
  · exact pairwise_map.mpr (tiled.row_tokens.pairwise.imp .inl)
  · exact pairwise_map.mpr (tiled.row_reports.pairwise.imp .inl)
  · exact forall_mem_map.mpr fun located member =>
      forall_mem_map.mpr (tiled.apart located member)

/-- Every span marks the text. -/
theorem marked (tiled : Tiled here text tokens reports) (remains : source.Remains here text) :
    ∀ span ∈ marks tokens reports, source.Marks span := by
  obtain ⟨cutTokens, cutReports⟩ := tiled.cut remains
  refine forall_marks.mpr ⟨fun located member => ?_, fun report member => ?_⟩
  · obtain ⟨piece, cut, _⟩ := cutTokens located member
    exact cut.marks
  · obtain ⟨piece, cut⟩ := cutReports report member
    exact cut.marks

end Tiled

/-- What the byte at `offset`, from `low` on, belongs to. -/
inductive Accounted (source : SourceText) (tokens : List LocatedToken)
    (reports : List (LexicalError × Span)) (low offset : Nat) : Prop
  /-- A token or a report. -/
  | marked {span : Span} (member : span ∈ marks tokens reports) (covers : span.Covers offset)
  /-- Blanks or a comment, apart from all tokens and reports. -/
  | skipped {span : Span} (skips : source.Skips span) (covers : span.Covers offset)
      (low_le : low ≤ span.offset) (apart : ∀ mark ∈ marks tokens reports, span.Apart mark)
  /-- What stands behind the start of an open block comment. -/
  | opened {span : Span} (reported : (.unterminatedComment, span) ∈ reports)
      (started : span.offset ≤ offset)

/-- Tokens and reports before the first byte change nothing. -/
theorem Accounted.extend {tokens' : Tokens}
    {reports' : List (LexicalError × Span)} {low' : Nat}
    (accounted : Accounted source tokens reports low offset) (lower : low' ≤ low)
    (moreTokens : tokens ⊆ tokens') (moreReports : reports ⊆ reports')
    (added : ∀ span ∈ marks tokens' reports', span ∈ marks tokens reports ∨ span.stop ≤ low) :
    Accounted source tokens' reports' low' offset := by
  cases accounted with
  | marked member covers =>
    refine .marked (mem_append.mpr ?_) covers
    exact (mem_append.mp member).imp (map_subset _ moreTokens ·)
      (map_subset _ moreReports ·)
  | skipped skips covers low_le apart =>
    refine .skipped skips covers (Nat.le_trans lower low_le) fun mark member => ?_
    rcases added mark member with known | ended
    · exact apart mark known
    · exact .inr (Nat.le_trans ended low_le)
  | opened reported started => exact .opened (moreReports reported) started

/-- Every byte of a tiled text is accounted for. -/
theorem Tiled.accounted {here : Position} {text : List Char}
    (tiled : Tiled here text tokens reports) (remains : source.Remains here text)
    (low_le : here.offset ≤ offset) (below : offset < here.offset + byteLength text) :
    Accounted source tokens reports here.offset offset := by
  induction tiled with
  | finished here =>
    rw [byteLength] at below
    omega
  | unterminated here opened => exact .opened mem_cons_self low_le
  | @skipped here piece rest _ _ trivia later ih =>
    by_cases within : offset < (here.advanceAll piece).offset
    · refine .skipped ⟨here, piece, rest, remains, trivia, rfl⟩ ⟨low_le, ?_⟩ (Nat.le_refl _)
        later.apart_behind
      rwa [Span.stop_startingAt]
    · rw [byteLength_append, ← Nat.add_assoc, ← Position.offset_advanceAll] at below
      exact (ih remains.behind (Nat.le_of_not_lt within) below).extend
        (here.offset_le_advanceAll piece) (List.Subset.refl _) (List.Subset.refl _)
        fun _ member => .inl member
  | @token here piece rest _ _ found _ _ later ih =>
    by_cases within : offset < (here.advanceAll piece).offset
    · refine .marked (mem_marks_token mem_cons_self) ⟨low_le, ?_⟩
      rwa [Span.stop_startingAt]
    · rw [byteLength_append, ← Nat.add_assoc, ← Position.offset_advanceAll] at below
      refine (ih remains.behind (Nat.le_of_not_lt within) below).extend
        (here.offset_le_advanceAll piece) (subset_cons_self _ _) (List.Subset.refl _) ?_
      refine forall_marks.mpr ⟨forall_mem_cons.mpr ⟨.inr ?_, ?_⟩, ?_⟩
      · exact Nat.le_of_eq (Span.stop_startingAt ..)
      · exact fun located member => .inl (mem_marks_token member)
      · exact fun report member => .inl (mem_marks_report member)
  | @invalid here piece rest _ _ error _ later ih =>
    by_cases within : offset < (here.advanceAll piece).offset
    · refine .marked (mem_marks_report mem_cons_self) ⟨low_le, ?_⟩
      rwa [Span.stop_startingAt]
    · rw [byteLength_append, ← Nat.add_assoc, ← Position.offset_advanceAll] at below
      refine (ih remains.behind (Nat.le_of_not_lt within) below).extend
        (here.offset_le_advanceAll piece) (List.Subset.refl _) (subset_cons_self _ _) ?_
      refine forall_marks.mpr ⟨?_, forall_mem_cons.mpr ⟨.inr ?_, ?_⟩⟩
      · exact fun located member => .inl (mem_marks_token member)
      · exact Nat.le_of_eq (Span.stop_startingAt ..)
      · exact fun report member => .inl (mem_marks_report member)

end Lexer

/-- Items in a row with a byte each ascend. -/
theorem Row.ascends {α : Type} {place : α → Span} {high : Nat} {items : List α}
    (row : Row place low items high) (nonempty : ∀ item ∈ items, 0 < (place item).length) :
    items.Pairwise fun first second => (place first).offset < (place second).offset := by
  refine row.pairwise.imp_of_mem fun member _ ends => ?_
  have positive := nonempty _ member
  rw [Span.stop] at ends
  omega

/-- Tokens and lexical reports tile the text: the only end is the last token, behind the last byte;
the others have spans of the text that are not empty, end between characters, are apart and ascend;
every other byte belongs to blanks, to a comment, or to one reported as open. -/
theorem tokenize_tiles (source : SourceText) :
    ∃ (tokens : List LocatedToken) (reports : List (LexicalError × Span)) (stop : Span),
      (tokenize source).tokens = tokens ++ [⟨.eof, stop⟩] ∧
      (∀ located ∈ tokens, located.token ≠ .eof) ∧
      stop.offset = source.text.utf8ByteSize ∧ stop.length = 0 ∧
      (tokenize source).diagnostics = reports.map (fun report => report.1.diagnostic report.2) ∧
      (∀ span ∈ Lexer.marks tokens reports, source.Marks span) ∧
      (Lexer.marks tokens reports).Pairwise Span.Apart ∧
      tokens.Pairwise (fun first second => first.span.offset < second.span.offset) ∧
      reports.Pairwise (fun first second => first.2.offset < second.2.offset) ∧
      ∀ offset < source.text.utf8ByteSize, Lexer.Accounted source tokens reports 0 offset := by
  obtain ⟨tokens, reports, tiled, divided⟩ := Lexer.scan_tiled .start source.characters
  have marked := tiled.marked source.remains_start
  obtain ⟨markedTokens, markedReports⟩ := Lexer.forall_marks.mp marked
  refine ⟨tokens, reports, .startingAt (Position.start.advanceAll source.characters) 0, ?_,
    tiled.noEnd, ?_, rfl, ?_, marked, tiled.pairwise_apart, ?_, ?_, ?_⟩
  · rw [tokenize, divided, Lexer.closed]
  · rw [Span.startingAt, Position.offset_advanceAll, source.byteLength_characters]
    exact Nat.zero_add _
  · rw [tokenize, divided, Lexer.closed]
  · exact tiled.row_tokens.ascends fun located member => (markedTokens located member).nonempty
  · exact tiled.row_reports.ascends fun report member => (markedReports report member).nonempty
  · intro offset below
    refine tiled.accounted source.remains_start (Nat.zero_le _) ?_
    rw [source.byteLength_characters]
    exact Nat.lt_of_lt_of_eq below (Nat.zero_add _).symm

end Shading
