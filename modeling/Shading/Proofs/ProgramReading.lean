import Shading.Proofs.DeclarationReading
import Shading.Proofs.Recovery

/-!
# Programs of structs and uniforms are read back

The code of a program without functions is divided into the tokens of its declarations, no comment among
them is dropped, and the declarations are read one by one, without a report, as they were printed.
-/

namespace Shading

open List

open Typed (DeclaredType)

variable {tokens : List Token}

namespace Surface

/-- A struct is read as an item. -/
theorem item_reads_struct {printed : Struct DeclaredType} (legible : printed.Legible)
    (shallow : ∀ field ∈ printed.fields, field.ascription.spelling.depth ≤ nestingLimit) :
    NotedReads item printed.tokens (· ≠ .semicolon)
      (Declaration.unplaced · = .struct (printed.bare DeclaredType.spelling)) := by
  intro cursor rest ahead follows
  have enough : ([] : List Attribute).length < cursor.remaining := by
    rw [Cursor.remaining_eq, ahead]
    exact Nat.zero_lt_succ _
  obtain ⟨start, headingRead, atKeyword⟩ :=
    @heading_decorators [] nofun {} _ enough cursor _ ahead (.inr (.inl rfl))
  have next : start.peek = .structKeyword := Cursor.peek_of_kinds atKeyword
  obtain ⟨declared, after, read, same, behind⟩ :=
    struct_reads legible shallow start rest atKeyword follows
  refine ⟨.struct declared, after, ?_, ?_, behind⟩
  · simp only [item, headingRead, Noted.silent_bind, next, read]
    rfl
  · exact congrArg Declaration.struct same

/-- A uniform is read with the stages in a comment. -/
theorem item_reads_uniform {printed : Uniform DeclaredType} (legible : printed.Legible)
    (shallow : printed.ascription.spelling.depth ≤ nestingLimit) :
    NotedReads item printed.tokens (· ≠ .semicolon)
      (Declaration.unplaced · = .uniform (printed.bare DeclaredType.spelling)) := by
  intro cursor rest ahead _
  rw [Uniform.tokens, cons_append, append_assoc] at ahead
  have comment : cursor.peek = .visibilityComment printed.visibility := Cursor.peek_of_kinds ahead
  have decorated := Cursor.kinds_advance ahead
  obtain ⟨bound, counted⟩ : ∃ bound, cursor.remaining = bound + 1 := by
    refine ⟨cursor.kinds.length - 1, ?_⟩
    rw [Cursor.remaining_eq, ahead, length_cons]
    omega
  have enough : [Attribute.group printed.group, .binding printed.binding].length < bound := by
    have bounded := length_le_attributeTokens [.group printed.group, .binding printed.binding]
    rw [Cursor.remaining_eq, ahead, length_cons, length_append, length_append,
      length_append, length_cons] at counted
    omega
  have given : ∀ one ∈ [Attribute.group printed.group, .binding printed.binding], one.Legible := by
    simpa [Attribute.Legible] using ⟨legible.group, legible.binding⟩
  have keyword (after : List Token) :
      first (Uniform.storageTokens printed.ascription ++ after) = .varKeyword := by
    unfold Uniform.storageTokens
    split <;> rfl
  obtain ⟨start, headingRead, atKeyword⟩ :=
    heading_decorators given ⟨[], some printed.visibility⟩ enough decorated
      (.inr (.inr (by rw [append_assoc]; exact keyword _)))
  have next : start.peek = .varKeyword := by
    rw [Cursor.peek_of_kinds atKeyword, append_assoc]
    exact keyword _
  obtain ⟨declared, after, read, same, behind⟩ :=
    uniform_reads legible shallow start rest atKeyword trivial
  have whole : heading cursor.remaining {} cursor = ⟨[], .ok
      (⟨[.group printed.group, .binding printed.binding], some printed.visibility⟩, start)⟩ := by
    rw [counted, heading, comment]
    exact headingRead
  have attributes : Heading.uniformAttributes
      ⟨[.group printed.group, .binding printed.binding], some printed.visibility⟩ =
        [.group printed.group, .binding printed.binding, .visibility printed.visibility] := rfl
  refine ⟨.uniform declared, after, ?_, ?_, behind⟩
  · simp only [item, whole, Noted.silent_bind, next, attributes, read]
    rfl
  · exact congrArg Declaration.uniform same

/-- Items are read one by one up to the end of the input. -/
theorem items_read {entries : List (List Token × Declaration)}
    (each : ∀ entry ∈ entries,
      NotedReads item entry.1 (· ≠ .semicolon) (Declaration.unplaced · = entry.2))
    (starts : ∀ entry ∈ entries, entry.1 ≠ [] ∧ first entry.1 ≠ .semicolon) {bound : Nat}
    (enough : entries.length ≤ bound) {cursor : Cursor}
    (ahead : cursor.kinds = entries.flatMap Prod.fst) :
    ∃ declarations, items bound cursor = ⟨some declarations, []⟩ ∧
      declarations.map Declaration.unplaced = entries.map Prod.snd := by
  induction entries generalizing bound cursor with
  | nil =>
    have atEnd : cursor.atEnd := by simpa [Cursor.kinds, Cursor.atEnd] using ahead
    refine ⟨[], ?_, rfl⟩
    cases bound with
    | zero => rfl
    | succ bound => rw [items, if_pos atEnd]
  | cons entry others ih =>
    obtain ⟨bound, rfl⟩ := Nat.exists_eq_add_one.mpr (Nat.zero_lt_of_lt enough)
    obtain ⟨nonempty, _⟩ := starts entry (by simp)
    have notAtEnd : cursor.atEnd = false := by
      cases emptiness : cursor.atEnd with
      | false => rfl
      | true =>
        have nothing : cursor.kinds = [] := by
          simpa [Cursor.kinds, Cursor.atEnd] using emptiness
        rw [nothing, flatMap_cons] at ahead
        exact absurd (append_eq_nil_iff.mp ahead.symm).1 nonempty
    have follows : first (others.flatMap Prod.fst) ≠ .semicolon := by
      cases others with
      | nil => rintro ⟨⟩
      | cons second rest =>
        obtain ⟨some, notSemicolon⟩ := starts second (by simp)
        rw [flatMap_cons, first_append_of_ne_nil some]
        exact notSemicolon
    rw [flatMap_cons] at ahead
    obtain ⟨declared, after, read, same, behind⟩ := each entry (by simp) cursor _ ahead follows
    obtain ⟨declarations, readRest, sameRest⟩ :=
      ih (fun other member => each other (by simp [member]))
        (fun other member => starts other (by simp [member])) (by simp at enough; omega) behind
    refine ⟨declared :: declarations, ?_, ?_⟩
    · rw [items, notAtEnd]
      simp only [Bool.false_eq_true, if_false, read, readRest]
      rfl
    · rw [map_cons, map_cons, same, sameRest]

/-- Tokens that an item is read from leave no bracket open. -/
theorem NotedReads.closes {result : Declaration → Prop}
    (reads : NotedReads item tokens (· ≠ .semicolon) result) :
    tokens.foldl Token.depthAfter 0 = 0 := by
  have ahead : (⟨.none, unplaced tokens, .none⟩ : Cursor).kinds = tokens ++ [] := by
    simp [Cursor.kinds, unplaced, Function.comp_def]
  obtain ⟨declared, after, read, _, behind⟩ := reads _ [] ahead (by simp [first])
  obtain ⟨taken, split, closed⟩ := item_closed (congrArg Noted.result read)
  rw [map_eq_nil_iff.mp behind, append_nil] at split
  have closes := closed.closes
  rwa [← split, depthAfter, unplaced, foldl_map] at closes

/-- Plain lists are plain together. -/
theorem all_isPlain_flatMap {β : Type} {tokens : β → List Token} {items : List β}
    (each : ∀ one ∈ items, (tokens one).all isPlain) : (items.flatMap tokens).all isPlain := by
  rw [all_flatMap]
  exact all_eq_true.mpr each

/-- Decorators have plain tokens. -/
theorem plain_attribute (decorator : Attribute) : decorator.tokens.all isPlain := by
  have arguments : (List.intercalate [.comma]
      (decorator.arguments.map fun argument => [argument.token])).all isPlain := by
    refine all_isPlain_intercalate fun tokens member => ?_
    obtain ⟨argument, _, rfl⟩ := mem_map.mp member
    cases argument <;> rfl
  unfold Attribute.tokens
  split
  · rfl
  · rw [all_cons, all_cons, all_cons, all_append, arguments]
    rfl

/-- Lists of decorators have plain tokens. -/
theorem plain_attributes (attributes : List Attribute) :
    (Attribute.allTokens attributes).all isPlain :=
  all_isPlain_flatMap fun decorator _ => plain_attribute decorator

/-- Slots have plain tokens. -/
theorem plain_slot (slot : Slot DeclaredType) : slot.tokens.all isPlain := by
  rw [Slot.tokens, all_append, plain_attributes, all_cons, all_cons,
    WrittenType.tokens_plain]
  rfl

/-- Structs have plain tokens. -/
theorem plain_struct (struct : Struct DeclaredType) : struct.tokens.all isPlain := by
  have fields := all_isPlain_flatMap fun field (_ : field ∈ struct.fields) =>
    (by rw [all_append, plain_slot]; rfl : (field.tokens ++ [Token.comma]).all isPlain)
  rw [Struct.tokens, all_cons, all_cons, all_cons, all_append, fields]
  rfl

/-- A uniform is plain behind its comment. -/
theorem plain_uniform (uniform : Uniform DeclaredType) :
    ∃ body, uniform.tokens = .visibilityComment uniform.visibility :: .atSign :: body ∧
      (Token.atSign :: body).all isPlain := by
  have storage : (Uniform.storageTokens uniform.ascription).all isPlain := by
    unfold Uniform.storageTokens
    split <;> rfl
  have plain : (Attribute.allTokens [.group uniform.group, .binding uniform.binding] ++
      (Uniform.storageTokens uniform.ascription ++ Token.identifier uniform.name :: Token.colon ::
        (uniform.ascription.spelling.tokens ++ [Token.semicolon]))).all isPlain := by
    simp only [all_append, all_cons, plain_attributes, storage, WrittenType.tokens_plain,
      all_nil, isPlain, Bool.and_self]
  exact ⟨_, rfl, plain⟩

/-- The tokens are plain, or so behind a comment before a decorator. -/
inductive Retained : List Token → Prop where
  | plain {tokens : List Token} (plain : tokens.all isPlain) : Retained tokens
  | commented (stages : List Stage) {body : List Token} (plain : (Token.atSign :: body).all isPlain) :
      Retained (.visibilityComment stages :: .atSign :: body)

/-- All of them are read. -/
theorem Retained.keepHeadings (retained : Retained tokens)
    (closes : tokens.foldl Token.depthAfter 0 = 0) (rest : List Token) :
    keepHeadings 0 (tokens ++ rest) = tokens ++ keepHeadings 0 rest := by
  cases retained with
  | plain plain => rw [keepHeadings_append plain, closes]
  | @commented stages body plain =>
    have behind := keepHeadings_append plain 0 rest
    have inner : (Token.atSign :: body).foldl Token.depthAfter 0 = 0 := closes
    rw [inner] at behind
    exact congrArg (Token.visibilityComment stages :: ·) behind

/-- The end is not among them. -/
theorem Retained.eof_notMem (retained : Retained tokens) : .eof ∉ tokens := by
  have outside {tokens : List Token} (plain : tokens.all isPlain) : .eof ∉ tokens :=
    fun member => nomatch all_eq_true.mp plain _ member
  cases retained with
  | plain plain => exact outside plain
  | commented stages plain =>
    rw [mem_cons]
    exact not_or.mpr ⟨nofun, outside plain⟩

/-- Items stay with the comments in front of them. -/
theorem keepHeadings_flatMap {entries : List (List Token × Declaration)}
    (retained : ∀ entry ∈ entries, Retained entry.1)
    (closes : ∀ entry ∈ entries, entry.1.foldl Token.depthAfter 0 = 0) :
    keepHeadings 0 (entries.flatMap Prod.fst) = entries.flatMap Prod.fst := by
  induction entries with
  | nil => rfl
  | cons entry others ih =>
    obtain ⟨firstRetained, restRetained⟩ := forall_mem_cons.mp retained
    obtain ⟨firstCloses, restCloses⟩ := forall_mem_cons.mp closes
    rw [flatMap_cons, firstRetained.keepHeadings firstCloses, ih restRetained restCloses]

end Surface

namespace Typed.Program

/-- The declared types nest no deeper than is read. -/
structure Shallow (program : Program) : Prop where
  structs : ∀ struct ∈ program.structs, ∀ field ∈ struct.fields,
    field.ascription.spelling.depth ≤ Surface.nestingLimit
  uniforms : ∀ uniform ∈ program.uniforms,
    uniform.ascription.spelling.depth ≤ Surface.nestingLimit

/-- The tokens of each declaration with what they are read as. -/
def entries (program : Program) : List (List Token × Surface.Declaration) :=
  program.structs.map (fun struct =>
      (struct.tokens, .struct (struct.bare DeclaredType.spelling))) ++
    program.uniforms.map fun uniform =>
      (uniform.tokens, .uniform (uniform.bare DeclaredType.spelling))

/-- Together they are the tokens of the program. -/
theorem flatMap_entries (program : Program) : program.entries.flatMap Prod.fst = program.tokens := by
  simp only [entries, tokens, flatMap_append, flatMap_map]

/-- Together they are what is read. -/
theorem map_entries (program : Program) : program.entries.map Prod.snd = program.reread := by
  simp only [entries, reread, map_append, map_map]
  rfl

/-- Each is that of a struct or a uniform. -/
theorem mem_entries {program : Program} {entry : List Token × Surface.Declaration}
    (member : entry ∈ program.entries) :
    (∃ struct ∈ program.structs,
      entry = (struct.tokens, .struct (struct.bare DeclaredType.spelling))) ∨
    ∃ uniform ∈ program.uniforms,
      entry = (uniform.tokens, .uniform (uniform.bare DeclaredType.spelling)) := by
  simp only [entries, mem_append, mem_map] at member
  rcases member with ⟨struct, inside, rfl⟩ | ⟨uniform, inside, rfl⟩
  · exact .inl ⟨struct, inside, rfl⟩
  · exact .inr ⟨uniform, inside, rfl⟩

/-- Each struct and uniform of a program is read as an item. -/
theorem entries_read {program : Program} (legible : program.Legible) (shallow : program.Shallow) :
    ∀ entry ∈ program.entries, Surface.NotedReads Surface.item entry.1 (· ≠ .semicolon)
      (Surface.Declaration.unplaced · = entry.2) := by
  intro entry member
  rcases mem_entries member with ⟨struct, inside, rfl⟩ | ⟨uniform, inside, rfl⟩
  · exact Surface.item_reads_struct (legible.structs struct inside) (shallow.structs struct inside)
  · exact Surface.item_reads_uniform (legible.uniforms uniform inside)
      (shallow.uniforms uniform inside)

/-- No declaration starts with a semicolon. -/
theorem entries_start (program : Program) :
    ∀ entry ∈ program.entries, entry.1 ≠ [] ∧ Surface.first entry.1 ≠ .semicolon := by
  intro entry member
  rcases mem_entries member with ⟨struct, _, rfl⟩ | ⟨uniform, _, rfl⟩
  · exact ⟨nofun, nofun⟩
  · exact ⟨nofun, nofun⟩

/-- The only comments stand in front of uniforms. -/
theorem entries_retained (program : Program) :
    ∀ entry ∈ program.entries, Surface.Retained entry.1 := by
  intro entry member
  rcases mem_entries member with ⟨struct, _, rfl⟩ | ⟨uniform, _, rfl⟩
  · exact .plain (Surface.plain_struct struct)
  · obtain ⟨body, split, plain⟩ := Surface.plain_uniform uniform
    rw [split]
    exact .commented uniform.visibility plain

/-- Code without functions is read as what was printed. -/
theorem read_code {program : Program} (legible : program.Legible) (shallow : program.Shallow)
    (noFunctions : program.functions = []) (name : String) :
    ∃ declarations, Surface.read ⟨name, Printed.code (Printed.program program)⟩ =
        (declarations, []) ∧ declarations.map Surface.Declaration.unplaced = program.reread := by
  obtain ⟨divided, silent⟩ := (spells legible noFunctions).tokenize trivial name
  have ahead : (Surface.cursorAt ⟨name, Printed.code (Printed.program program)⟩).kinds =
      program.entries.flatMap Prod.fst := by
    have inside : .eof ∉ program.entries.flatMap Prod.fst := by
      intro member
      obtain ⟨entry, listed, within⟩ := mem_flatMap.mp member
      exact (program.entries_retained entry listed).eof_notMem within
    rw [← flatMap_entries] at divided
    rw [Surface.kinds_cursorAt divided inside, Surface.keepHeadings_flatMap program.entries_retained]
    exact fun entry member => (entries_read legible shallow entry member).closes
  have enough : program.entries.length ≤
      (Surface.cursorAt ⟨name, Printed.code (Printed.program program)⟩).remaining := by
    rw [Surface.Cursor.remaining_eq, ahead]
    exact Surface.length_le_flatMap fun entry member => (program.entries_start entry member).1
  obtain ⟨declarations, read, same⟩ :=
    Surface.items_read (entries_read legible shallow) program.entries_start enough ahead
  refine ⟨declarations, ?_, same.trans program.map_entries⟩
  unfold Surface.cursorAt at read
  simp only [Surface.read, Surface.readTokens, read, silent, Option.getD_some, append_nil]

end Typed.Program

end Shading
