import Shading.Proofs.LineTables
import Shading.Proofs.Occurrences

/-!
# Places of tokens

A text holds a span that ends inside the text and whose line and column are those of its offset. All
tokens of a text are held by it and stand in a row, and so are the places of all lexical reports.
-/

namespace Shading

open List

variable {source : SourceText} {before rest : List Char} {lower higher : Nat}

namespace SourceText

/-- The place behind some characters is found at its offset. -/
theorem position?_advanceAll (split : source.characters = before ++ rest) :
    source.position? (Position.start.advanceAll before).offset =
      some (Position.start.advanceAll before) := by
  rw [Position.offset_advanceAll, Position.start, Nat.zero_add]
  exact (Divides.of_append split).position?

/-- It ends in the text, and line and column are those of its offset. -/
structure Holds (source : SourceText) (span : Span) : Prop where
  within : span.offset + span.length ≤ source.text.utf8ByteSize
  located : source.position? span.offset = some ⟨span.line, span.column, span.offset⟩

/-- A piece of the text has a span of the text. -/
theorem holds_piece {piece : List Char} (split : source.characters = before ++ (piece ++ rest)) :
    source.Holds (.startingAt (Position.start.advanceAll before) (byteLength piece)) where
  within := by
    have offset : (Position.start.advanceAll before).offset = byteLength before := by
      rw [Position.offset_advanceAll, Position.start, Nat.zero_add]
    rw [← byteLength_characters, split, byteLength_append, byteLength_append]
    simp only [Span.startingAt, offset]
    omega
  located := position?_advanceAll split

end SourceText

namespace Span

variable (first last : Span)

/-- Where a joined span stops. -/
@[simp] theorem stop_through : (first.through last).stop = max last.stop first.stop := by
  simp only [stop, through]
  omega

/-- A span stops behind its start. -/
theorem offset_le_stop (span : Span) : span.offset ≤ span.stop := Nat.le_add_right ..

end Span

/-- Joined spans of the text are spans of it. -/
theorem SourceText.Holds.through {first last : Span} (firstHeld : source.Holds first)
    (lastHeld : source.Holds last) : source.Holds (first.through last) where
  within := by
    have stop := first.stop_through last
    have firstWithin := firstHeld.within
    have lastWithin := lastHeld.within
    simp only [Span.stop] at stop
    omega
  located := firstHeld.located

/-- The items stand in order between `low` and `high`. -/
def Row {α : Type} (place : α → Span) (low : Nat) : (items : List α) → (high : Nat) → Prop
  | [], high => low ≤ high
  | first :: rest, high => low ≤ (place first).offset ∧ Row place (place first).stop rest high

namespace Row

variable {α : Type} {place : α → Span} {low middle high : Nat} {items others : List α}

/-- Its bounds are in order. -/
theorem le (row : Row place low items high) : low ≤ high := by
  induction items generalizing low with
  | nil => exact row
  | cons first rest ih =>
    have behind := ih row.2
    have length := (place first).offset_le_stop
    have ahead := row.1
    omega

/-- Bounds can be widened. -/
theorem widen (row : Row place low items high) (below : lower ≤ low) (above : high ≤ higher) :
    Row place lower items higher := by
  induction items generalizing low lower with
  | nil => exact Nat.le_trans below (Nat.le_trans row above)
  | cons first rest ih => exact ⟨Nat.le_trans below row.1, ih row.2 (Nat.le_refl _)⟩

/-- Rows can be joined. -/
theorem append (row : Row place low items middle) (more : Row place middle others high) :
    Row place low (items ++ others) high := by
  induction items generalizing low with
  | nil => exact more.widen row (Nat.le_refl _)
  | cons first rest ih => exact ⟨row.1, ih row.2⟩

/-- Two parts of a row meet at some offset. -/
theorem split (row : Row place low (items ++ others) high) :
    ∃ middle, Row place low items middle ∧ Row place middle others high := by
  induction items generalizing low with
  | nil => exact ⟨low, Nat.le_refl _, row⟩
  | cons first rest ih =>
    obtain ⟨middle, front, back⟩ := ih row.2
    exact ⟨middle, ⟨row.1, front⟩, back⟩

/-- Items can be left out. -/
theorem sublist (row : Row place low items high) (taken : others.Sublist items) :
    Row place low others high := by
  induction taken generalizing low with
  | slnil => exact row
  | cons first _ ih =>
    have shorter := Nat.le_trans row.1 (place first).offset_le_stop
    exact ih (row.2.widen shorter (Nat.le_refl _))
  | cons_cons first _ ih => exact ⟨row.1, ih row.2⟩

/-- Each item lies between the bounds. -/
theorem inside (row : Row place low items high) {item : α} (member : item ∈ items) :
    low ≤ (place item).offset ∧ (place item).stop ≤ high := by
  induction items generalizing low with
  | nil => exact absurd member not_mem_nil
  | cons first rest ih =>
    rcases mem_cons.mp member with rfl | later
    · exact ⟨row.1, row.2.le⟩
    · have bounds := ih row.2 later
      have shorter := Nat.le_trans row.1 (place first).offset_le_stop
      exact ⟨Nat.le_trans shorter bounds.1, bounds.2⟩

/-- The first of two items ends before the second. -/
theorem pairwise (row : Row place low items high) :
    items.Pairwise fun first second => (place first).stop ≤ (place second).offset := by
  induction items generalizing low with
  | nil => exact .nil
  | cons first rest ih =>
    exact .cons (fun item member => (row.2.inside member).1) (ih row.2)

end Row

/-- Items with a property, in a row between two offsets. -/
structure Series {α : Type} (place : α → Span) (good : α → Prop) (low : Nat) (items : List α)
    (high : Nat) : Prop where
  row : Row place low items high
  each : ∀ item ∈ items, good item

namespace Series

variable {α : Type} {place : α → Span} {good : α → Prop} {low middle high : Nat} {first : α}
  {items others : List α}

/-- No items are a series. -/
theorem nil (bounds : low ≤ high) : Series place good low [] high :=
  ⟨bounds, fun _ member => absurd member not_mem_nil⟩

/-- A series is its first item and the others. -/
theorem cons_iff : Series place good low (first :: items) high ↔
    low ≤ (place first).offset ∧ good first ∧ Series place good (place first).stop items high := by
  constructor
  · rintro ⟨row, each⟩
    obtain ⟨here, later⟩ := forall_mem_cons.mp each
    exact ⟨row.1, here, row.2, later⟩
  · rintro ⟨below, here, row, later⟩
    exact ⟨⟨below, row⟩, forall_mem_cons.mpr ⟨here, later⟩⟩

/-- Bounds can be widened. -/
theorem widen (series : Series place good low items high) (below : lower ≤ low)
    (above : high ≤ higher) : Series place good lower items higher :=
  ⟨series.row.widen below above, series.each⟩

/-- Series can be joined. -/
theorem append (series : Series place good low items middle)
    (more : Series place good middle others high) : Series place good low (items ++ others) high :=
  ⟨series.row.append more.row, forall_mem_append.mpr ⟨series.each, more.each⟩⟩

/-- Two parts of a series meet at some offset. -/
theorem split (series : Series place good low (items ++ others) high) :
    ∃ middle, Series place good low items middle ∧ Series place good middle others high := by
  obtain ⟨middle, front, back⟩ := series.row.split
  obtain ⟨frontEach, backEach⟩ := forall_mem_append.mp series.each
  exact ⟨middle, ⟨front, frontEach⟩, back, backEach⟩

/-- Items can be left out. -/
theorem sublist (series : Series place good low items high) (taken : others.Sublist items) :
    Series place good low others high :=
  ⟨series.row.sublist taken, fun item member => series.each item (taken.subset member)⟩

/-- The first item can be left out. -/
theorem tail (series : Series place good low (first :: items) high) :
    Series place good low items high :=
  series.sublist (sublist_cons_self ..)

/-- A series may be taken to start where its first item does. -/
theorem started (series : Series place good low (first :: items) high) :
    low ≤ (place first).offset ∧ good first ∧
      Series place good (place first).offset (first :: items) high := by
  obtain ⟨below, here, rest⟩ := cons_iff.mp series
  exact ⟨below, here, cons_iff.mpr ⟨Nat.le_refl _, here, rest⟩⟩

/-- The items in front of the last one end before it does. -/
theorem of_concat {last : α} (series : Series place good low (items ++ [last]) high) :
    Series place good low items (place last).stop ∧ good last ∧ (place last).stop ≤ high := by
  obtain ⟨middle, front, back⟩ := series.split
  obtain ⟨ahead, here, rest⟩ := cons_iff.mp back
  exact ⟨front.widen (Nat.le_refl _) (Nat.le_trans ahead (place last).offset_le_stop), here, rest.row⟩

end Series

/-- The places that a report names, related ones and fixes included. -/
def Diagnostic.places (report : Diagnostic) : List Span :=
  report.location.toList ++ report.related.filterMap Related.location ++
    report.fixes.map Fix.location

/-- A report has one of some codes and places with a property. -/
structure Diagnostic.Among (codes : List Code) (held : Span → Prop) (report : Diagnostic) : Prop where
  code : report.code ∈ codes
  places : ∀ place ∈ report.places, held place

section Leaves

variable {codes : List Code} {held : Span → Prop} {report : Diagnostic} {span first : Span}

/-- A report with a single place. -/
theorem Diagnostic.Among.single (code : Code) (listed : code ∈ codes) (same : report.code = code)
    (only : report.places = [span]) (here : held span) : report.Among codes held where
  code := same ▸ listed
  places := only ▸ forall_mem_singleton.mpr here

/-- A report with two places. -/
theorem Diagnostic.Among.pair (code : Code) (listed : code ∈ codes) (same : report.code = code)
    (both : report.places = [span, first]) (here : held span) (firstHeld : held first) :
    report.Among codes held where
  code := same ▸ listed
  places := both ▸ forall_mem_cons.mpr ⟨here, forall_mem_singleton.mpr firstHeld⟩

end Leaves

/-- The codes of reports about the syntax of a text. -/
abbrev syntaxCodes : List Code :=
  [.unexpectedToken, .invalidCharacter, .invalidNumber, .expectedItem, .unknownDecorator,
    .invalidDecoratorArgument]

namespace SourceText

/-- All places that a report names are spans of the text. -/
def Locates (source : SourceText) (report : Diagnostic) : Prop :=
  ∀ span ∈ report.places, source.Holds span

/-- The text has the characters of a word at a span. -/
structure Spells (source : SourceText) (span : Span) (word : String) : Prop where
  characters : ∃ before behind, source.characters = before ++ (word.toList ++ behind) ∧
    span.offset = byteLength before
  length : span.length = word.utf8ByteSize

/-- A token of the text, which spells its name there. -/
structure Shows (source : SourceText) (located : LocatedToken) : Prop where
  held : source.Holds located.span
  named : ∀ name, located.token = .identifier name → source.Spells located.span name

/-- The text is what remains of the source from `here` on. -/
def Remains (source : SourceText) (here : Position) (text : List Char) : Prop :=
  ∃ before, here = Position.start.advanceAll before ∧ source.characters = before ++ text

/-- The span of a piece of the text that has a character. -/
structure Cut (source : SourceText) (piece : List Char) (span : Span) : Prop where
  nonempty : piece ≠ []
  stands : ∃ before behind, source.characters = before ++ (piece ++ behind) ∧
    span = .startingAt (Position.start.advanceAll before) (byteLength piece)

variable {here : Position} {piece : List Char} {span : Span}

/-- At the start all of the text remains. -/
theorem remains_start (source : SourceText) : source.Remains .start source.characters :=
  ⟨[], rfl, rfl⟩

/-- Behind a piece the rest remains. -/
theorem Remains.behind (remains : source.Remains here (piece ++ rest)) :
    source.Remains (here.advanceAll piece) rest := by
  obtain ⟨before, rfl, split⟩ := remains
  refine ⟨before ++ piece, ?_, ?_⟩
  · rw [Position.advanceAll_append]
  · rw [split, append_assoc]

/-- A piece is cut from what remains. -/
theorem Remains.cut (remains : source.Remains here (piece ++ rest)) (nonempty : piece ≠ []) :
    source.Cut piece (.startingAt here (byteLength piece)) := by
  obtain ⟨before, rfl, split⟩ := remains
  exact ⟨nonempty, before, rest, split, rfl⟩

/-- What is cut stands in the text. -/
theorem Cut.holds (cut : source.Cut piece span) : source.Holds span := by
  obtain ⟨-, before, behind, split, rfl⟩ := cut
  exact holds_piece split

/-- A token is one of the text if its piece writes it. -/
theorem Cut.shows {token : Token} (cut : source.Cut piece span) (writes : Lexer.Writes piece token) :
    source.Shows ⟨token, span⟩ := by
  refine ⟨cut.holds, ?_⟩
  rintro name rfl
  obtain ⟨-, before, behind, split, rfl⟩ := cut
  obtain ⟨rfl, -⟩ := writes
  exact ⟨⟨before, behind, split, by simp [Span.startingAt, Position.start]⟩,
    by rw [Span.startingAt, ← utf8ByteSize_ofList, String.ofList_toList]⟩

/-- Tokens of the text in a row between two offsets. -/
abbrev Lays (source : SourceText) : (low : Nat) → Tokens → (high : Nat) → Prop :=
  Series LocatedToken.span source.Shows

end SourceText

namespace Lexer

/-- An open block comment starts with two characters. -/
theorem eq_of_isUnterminated {text : List Char} (opened : isUnterminated text) :
    ∃ rest, text = ['/', '*'] ++ rest := by
  obtain ⟨starts, _⟩ := Bool.and_eq_true_iff.mp opened
  obtain ⟨rest, split⟩ := isPrefixOf_iff_prefix.mp starts
  exact ⟨rest, split.symm⟩

namespace Tiled

variable {here : Position} {text : List Char} {tokens : Tokens}
  {reports : List (LexicalError × Span)}

/-- Tokens stand in a row. -/
theorem row_tokens (tiled : Tiled here text tokens reports) :
    Row LocatedToken.span here.offset tokens (here.offset + byteLength text) := by
  induction tiled with
  | finished | unterminated => exact Nat.le_add_right ..
  | skipped _ _ ih | invalid _ _ _ ih =>
    rw [Position.offset_advanceAll, Nat.add_assoc, ← byteLength_append] at ih
    exact ih.widen (Nat.le_add_right ..) (Nat.le_refl _)
  | token _ _ _ _ ih =>
    rw [Position.offset_advanceAll, Nat.add_assoc, ← byteLength_append] at ih
    exact ⟨Nat.le_refl _, ih⟩

/-- Every token and every report is cut out of the text. -/
theorem cut (tiled : Tiled here text tokens reports) (remains : source.Remains here text) :
    (∀ located ∈ tokens, ∃ piece, source.Cut piece located.span ∧ Writes piece located.token) ∧
      ∀ report ∈ reports, ∃ piece, source.Cut piece report.2 := by
  induction tiled with
  | finished => exact ⟨forall_mem_nil _, forall_mem_nil _⟩
  | unterminated here opened =>
    obtain ⟨rest, rfl⟩ := eq_of_isUnterminated opened
    have opening := remains.cut (cons_ne_nil _ _)
    exact ⟨forall_mem_nil _, forall_mem_singleton.mpr ⟨_, opening⟩⟩
  | skipped _ _ ih => exact ih remains.behind
  | token _ writes nonempty _ ih =>
    obtain ⟨laterTokens, laterReports⟩ := ih remains.behind
    exact ⟨forall_mem_cons.mpr ⟨⟨_, remains.cut nonempty, writes⟩, laterTokens⟩, laterReports⟩
  | invalid _ nonempty _ ih =>
    obtain ⟨laterTokens, laterReports⟩ := ih remains.behind
    exact ⟨laterTokens, forall_mem_cons.mpr ⟨⟨_, remains.cut nonempty⟩, laterReports⟩⟩

end Tiled

end Lexer

/-- A text lays out its tokens in a row. -/
theorem tokenize_lays (source : SourceText) :
    source.Lays 0 (tokenize source).tokens source.text.utf8ByteSize := by
  obtain ⟨tokens, reports, tiled, divided⟩ := Lexer.scan_tiled .start source.characters
  have row := tiled.row_tokens
  rw [source.byteLength_characters] at row
  have shown : ∀ located ∈ tokens, source.Shows located := by
    intro located member
    obtain ⟨piece, cut, writes⟩ := (tiled.cut source.remains_start).1 located member
    exact cut.shows writes
  have whole : source.characters = source.characters ++ ([] ++ []) := by simp
  have stop : (Position.start.advanceAll source.characters).offset = source.text.utf8ByteSize := by
    rw [Position.offset_advanceAll, source.byteLength_characters]
    exact Nat.zero_add _
  rw [tokenize, divided]
  refine Series.append ⟨row, shown⟩ (Series.cons_iff.mpr ⟨?_, ⟨SourceText.holds_piece whole, by simp⟩, ?_⟩)
  · exact Nat.le_of_eq ((Nat.zero_add _).trans stop.symm)
  · exact .nil (Nat.le_of_eq stop)

/-- Lexical reports name places in the text. -/
theorem tokenize_among (source : SourceText) :
    ∀ report ∈ (tokenize source).diagnostics, report.Among syntaxCodes source.Holds := by
  obtain ⟨tokens, reports, tiled, divided⟩ := Lexer.scan_tiled .start source.characters
  rw [tokenize, divided]
  refine forall_mem_map.mpr fun report member => ?_
  obtain ⟨piece, cut⟩ := (tiled.cut source.remains_start).2 report member
  exact .single report.1.code (by cases report.1 <;> simp [LexicalError.code]) rfl rfl cut.holds

/-- The tokens of a text start one behind the other. -/
theorem tokenize_ascends (source : SourceText) :
    (tokenize source).tokens.Pairwise fun first second => first.span.offset < second.span.offset := by
  have pairs := (tokenize_lays source).row.pairwise
  obtain ⟨tokens, reports, tiled, divided⟩ := Lexer.scan_tiled .start source.characters
  have ascends {first second : LocatedToken} (member : first ∈ tokens)
      (ends : first.span.stop ≤ second.span.offset) : first.span.offset < second.span.offset := by
    obtain ⟨piece, ⟨nonempty, _, _, _, same⟩, _⟩ := (tiled.cut source.remains_start).1 first member
    have positive := byteLength_pos nonempty
    rw [Span.stop, same] at ends
    rw [same]
    exact Nat.lt_of_lt_of_le (Nat.lt_add_of_pos_right positive) ends
  rw [tokenize, divided] at pairs ⊢
  obtain ⟨others, single, last⟩ := pairwise_append.mp pairs
  refine pairwise_append.mpr ⟨?_, pairwise_singleton .., ?_⟩
  · exact others.imp_of_mem fun member _ ends => ascends member ends
  · exact fun first member second final => ascends member (last first member second final)

/-- The names of a program are used one behind the other. -/
theorem Surface.occurrences_ascend (source : SourceText) :
    (occurrences (read source).1).Pairwise fun first second =>
      first.span.offset < second.span.offset := by
  have names := (read_takes source).occurrences.trans (cursorAt_sublist source)
  have ascending := (tokenize_ascends source).sublist names
  rw [pairwise_map] at ascending
  exact ascending

end Shading
