import Shading.Proofs.Layouts
import Shading.Proofs.ReadParts

/-!
# Places in a program

Whatever is read from the tokens of a text is placed in the text: names, types, the statements of
bodies, and every syntactic report. Reading keeps the tokens ahead to be tokens of the text, also where
it goes on after an item that could not be read.
-/

namespace Shading.Surface

open List

/-- The tokens ahead and the end are of the text. -/
structure Cursor.Sited (source : SourceText) (cursor : Cursor) : Prop where
  ahead : source.Lays 0 cursor.rest source.text.utf8ByteSize
  finish : source.Holds cursor.finish

namespace Cursor.Sited

variable {source : SourceText} {cursor after : Cursor}

/-- What is reached is sited too. -/
theorem of_reaches (sited : cursor.Sited source) (reached : cursor.Reaches after) :
    after.Sited source :=
  ⟨sited.ahead.sublist reached.rest.sublist, reached.finish ▸ sited.finish⟩

/-- Reading goes on in the text after a broken item. -/
theorem resumes (sited : cursor.Sited source) {failure : Failure} (stopped : failure.cursor.Sited source)
    {rest : Tokens} (ahead : rest <:+ cursor.rest) :
    Cursor.Sited source { failure.cursor with rest } :=
  ⟨sited.ahead.sublist ahead.sublist, stopped.finish⟩

/-- The next token stands in the text. -/
theorem span (sited : cursor.Sited source) : source.Holds cursor.span := by
  have each := sited.ahead.each
  unfold Cursor.span
  split
  · exact sited.finish
  · rename_i next rest ahead
    exact (each next (by simp [ahead])).held

/-- The token read last stands in the text. -/
theorem previous (sited : cursor.Sited source) (held : source.Holds cursor.previous)
    (reached : cursor.Reaches after) : source.Holds after.previous := by
  rcases reached.previous with same | ⟨located, member, same⟩
  · rwa [same]
  · rw [same]
    exact (sited.ahead.each located member).held

end Cursor.Sited

variable {source : SourceText} {cursor after : Cursor}

/-- A type stands in the text. -/
theorem Cursor.Sited.type (sited : cursor.Sited source) {written : WrittenType}
    (read : writtenType nestingLimit cursor = .ok (written, after)) : source.Holds written.span := by
  obtain ⟨taken, split, tokens⟩ := writtenType_takes nestingLimit _ _ _ read
  have laid := sited.ahead
  rw [split] at laid
  obtain ⟨middle, front, _⟩ := laid.split
  exact (arranges_singleton.mp (tokens.arranged front)).2.1.held

/-- The statements of a block are laid out in the text. -/
theorem Cursor.Sited.body (sited : cursor.Sited source) {body : Block Expr WrittenType}
    (read : block nestingLimit cursor = .ok (body, after)) :
    source.Arranges 0 (statementLayouts body.statements) source.text.utf8ByteSize := by
  obtain ⟨tokens, split, made, _⟩ := block_takes nestingLimit _ _ _ read
  have laid := sited.ahead
  rw [split] at laid
  exact made.arranged (laid.tail.sublist (sublist_append_left ..))

/-- A name stands in the text. -/
theorem Cursor.Sited.name (sited : cursor.Sited source) {name : String} {span : Span}
    (read : identifier cursor = .ok ((name, span), after)) : source.Holds span := by
  have shown := sited.ahead.each ⟨.identifier name, span⟩ (by simp [(rest_of_identifier read).1])
  exact shown.held

/-- The places of a text are features of what is read. -/
def places (source : SourceText) : Features where
  cursor := Cursor.Sited source
  name _ span := source.Holds span
  type written := source.Holds written.span
  body body := source.Arranges 0 (statementLayouts body.statements) source.text.utf8ByteSize
  attributed _ := True
  note report := report.Among syntaxCodes source.Holds

/-- What is noted about a decorator is noted where it stands. -/
theorem Cursor.Sited.decorated (sited : cursor.Sited source) :
    ∀ note ∈ (decorator cursor).notes, note.Among syntaxCodes source.Holds := by
  have parts : (Noted.lift (decoratorParts cursor)).Tells (places source) fun found =>
      source.Holds found.1.2.2 := by
    refine .lift fun found read => ?_
    obtain ⟨afterSign, sign, read⟩ := bind_eq_ok.mp read
    obtain ⟨⟨⟨_, nameSpan⟩, afterName⟩, named, read⟩ := bind_eq_ok.mp read
    obtain ⟨⟨_, final⟩, listed, read⟩ := bind_eq_ok.mp read
    cases read
    have behindSign := sited.of_reaches ((expect_lands .atSign cursor).reaches sign)
    have held := behindSign.name named
    have behindName := behindSign.of_reaches (identifier_advances.reaches named)
    have last := behindName.previous ((rest_of_identifier named).2 ▸ held)
      (decoratorArguments_advances.reaches listed)
    exact (sited.span.through held).through last
  have told : (decorator cursor).Tells (places source) fun _ => True := by
    refine parts.bind fun found held => ?_
    dsimp only
    split
    · exact .pure trivial
    · rename_i error _
      refine ⟨forall_mem_singleton.mpr (.single error.code ?_ rfl rfl held), fun _ _ => trivial⟩
      cases error <;> simp [DecoratorError.code]
  exact told.notes

/-- Places of a text hold. -/
theorem places_hold (source : SourceText) : (places source).Hold where
  reaches sited reached := Cursor.Sited.of_reaches sited reached
  resumes sited stopped ahead := Cursor.Sited.resumes sited stopped ahead
  name sited read := Cursor.Sited.name sited read
  type sited read := Cursor.Sited.type sited read
  body sited read := Cursor.Sited.body sited read
  attributed _ _ := fun _ _ => trivial
  comment _ _ := trivial
  decorated sited := Cursor.Sited.decorated sited
  missing {_ _ _ value} held := by
    cases value with
    | some _ => exact forall_mem_nil _
    | none =>
      exact forall_mem_singleton.mpr (.single .invalidDecoratorArgument (by simp) rfl rfl held)
  failure {failure} stopped := by
    refine .single failure.error.code ?_ rfl rfl (Cursor.Sited.span stopped)
    cases failure.error <;> simp [SyntaxError.code]
  ending sited := .single .unexpectedToken (by simp) rfl rfl (Cursor.Sited.finish sited)

/-- The end is kept. -/
theorem eof_mem_retainHeadings {tokens : Tokens} {stop : Span}
    (member : ⟨.eof, stop⟩ ∈ tokens) (depth : Nat) : ⟨.eof, stop⟩ ∈ retainHeadings depth tokens := by
  induction tokens generalizing depth with
  | nil => exact absurd member not_mem_nil
  | cons next rest ih =>
    unfold retainHeadings
    rcases mem_cons.mp member with rfl | later
    · exact mem_cons_self
    · split
      · split
        · exact mem_cons_of_mem _ (ih later _)
        · exact ih later _
      · exact mem_cons_of_mem _ (ih later _)

/-- The first cursor stands in the text. -/
theorem cursorAt_sited (source : SourceText) : (cursorAt source).Sited source where
  ahead := (tokenize_lays source).sublist (cursorAt_sublist source)
  finish := by
    obtain ⟨tokens, reports, -, divided⟩ := Lexer.scan_tiled .start source.characters
    have last := @eof_mem_retainHeadings (tokenize source).tokens _
      (by rw [tokenize, divided]; exact mem_append_right _ mem_cons_self) 0
    unfold cursorAt Cursor.start
    rw [terminated_tokenize]
    dsimp only
    split
    · rename_i located found
      have kept := (retainHeadings_sublist 0 _).subset (mem_of_find?_eq_some found)
      exact ((tokenize_lays source).each located kept).held
    · rename_i none
      exact absurd (find?_eq_none.mp none _ last) (by simp)

/-- A program is placed in the text that it is read from. -/
theorem read_placed (source : SourceText) :
    ∀ declaration ∈ (read source).1, (places source).HasDeclaration declaration :=
  (read_has (places_hold source) (cursorAt_sited source)).1

/-- Lexical and syntactic reports name places in the text. -/
theorem read_among (source : SourceText) :
    ∀ report ∈ (read source).2, report.Among syntaxCodes source.Holds := by
  intro report member
  rcases (read_has (places_hold source) (cursorAt_sited source)).2 report member with lexical | located
  · exact tokenize_among source report lexical
  · exact located

end Shading.Surface
