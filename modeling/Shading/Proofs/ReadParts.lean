import Shading.Proofs.DerivedPrograms

/-!
# The parts of what is read

Declarations are put together from names, types, decorators and blocks, and what is noted about them is
noted at these parts or at the next token. What holds of the parts wherever reading goes on holds of the
declarations, and so of whole programs, also where an item could not be read.
-/

namespace Shading.Surface

open List

/-- Properties of cursors, of the parts read there and of notes. -/
structure Features where
  cursor : Cursor → Prop
  name : String → Span → Prop
  type : WrittenType → Prop
  body : Block Expr WrittenType → Prop
  attributed : Attribute → Prop
  note : Diagnostic → Prop

namespace Features

/-- What is read at a cursor has its properties, as have the cursors behind it and the notes. -/
structure Hold (features : Features) : Prop where
  reaches {cursor after : Cursor} : features.cursor cursor → cursor.Reaches after →
    features.cursor after
  resumes {cursor : Cursor} {failure : Failure} {rest : Tokens} : features.cursor cursor →
    features.cursor failure.cursor → rest <:+ cursor.rest →
      features.cursor { failure.cursor with rest }
  name {cursor after : Cursor} {name : String} {span : Span} : features.cursor cursor →
    identifier cursor = .ok ((name, span), after) → features.name name span
  type {cursor after : Cursor} {written : WrittenType} : features.cursor cursor →
    writtenType nestingLimit cursor = .ok (written, after) → features.type written
  body {cursor after : Cursor} {body : Block Expr WrittenType} : features.cursor cursor →
    block nestingLimit cursor = .ok (body, after) → features.body body
  attributed {cursor after : Cursor} {found : Option Attribute} : features.cursor cursor →
    (decorator cursor).result = .ok (found, after) → ∀ one ∈ found, features.attributed one
  comment {cursor : Cursor} {stages : List Stage} : features.cursor cursor →
    cursor.peek = .visibilityComment stages → features.attributed (.visibility stages)
  decorated {cursor : Cursor} : features.cursor cursor →
    ∀ note ∈ (decorator cursor).notes, features.note note
  missing {name decorator : String} {span : Span} {value : Option Nat} : features.name name span →
    ∀ note ∈ (missingDecorator name decorator span value).notes, features.note note
  failure {failure : Failure} : features.cursor failure.cursor → features.note failure.diagnostic
  ending {cursor : Cursor} : features.cursor cursor → features.note (unterminated cursor.finish)

variable (features : Features)

/-- All decorators have their property. -/
def HasAttributes (attributes : List Attribute) : Prop := ∀ one ∈ attributes, features.attributed one

/-- The parts of a parameter or field have their properties. -/
structure HasSlot (slot : Slot WrittenType) : Prop where
  attributes : features.HasAttributes slot.attributes
  name : features.name slot.name slot.span
  type : features.type slot.ascription

/-- The parts of a function have their properties. -/
structure HasFunction (function : Function Expr WrittenType) : Prop where
  attributes : features.HasAttributes function.attributes
  name : features.name function.name function.span
  parameters : ∀ slot ∈ function.parameters, features.HasSlot slot
  returnType : ∀ written ∈ function.returnType, features.type written
  returnAttributes : features.HasAttributes function.returnAttributes
  body : features.body function.body

/-- The parts of a struct have their properties. -/
structure HasStruct (struct : Struct WrittenType) : Prop where
  name : features.name struct.name struct.span
  fields : ∀ slot ∈ struct.fields, features.HasSlot slot

/-- The parts have their properties; address and visibility are those of decorators. -/
structure HasUniform (uniform : Uniform WrittenType) : Prop where
  name : features.name uniform.name uniform.span
  type : features.type uniform.ascription
  decorated : ∃ attributes, features.HasAttributes attributes ∧
    uniform.group = (lastGroup? attributes).getD 0 ∧
      uniform.binding = (lastBinding? attributes).getD 0 ∧
        uniform.visibility = (lastVisibility? attributes).getD [.vertex, .fragment]

/-- The parts of a declaration have their properties. -/
def HasDeclaration : Declaration → Prop
  | .function declared => features.HasFunction declared
  | .struct declared => features.HasStruct declared
  | .uniform declared => features.HasUniform declared

/-- The decorators of a heading have theirs, as has its comment. -/
structure HasHeading (heading : Heading) : Prop where
  attributes : features.HasAttributes heading.attributes
  commented : ∀ stages ∈ heading.commented, features.attributed (.visibility stages)

end Features

variable {features : Features}

section Steps

variable {α β : Type}

/-- All notes have their property, and what is read has one. -/
structure Noted.Tells (features : Features) (noted : Noted α) (good : α → Prop) : Prop where
  notes : ∀ note ∈ noted.notes, features.note note
  result : ∀ value, noted.result = .ok value → good value

namespace Noted.Tells

variable {good : α → Prop} {further : β → Prop}

/-- A value tells nothing. -/
theorem pure {value : α} (here : good value) : (Pure.pure value : Noted α).Tells features good where
  notes := forall_mem_nil _
  result := by
    rintro _ ⟨⟩
    exact here

/-- A lifted value tells nothing. -/
theorem lift {outcome : Except Failure α} (here : ∀ value, outcome = .ok value → good value) :
    (Noted.lift outcome).Tells features good :=
  ⟨forall_mem_nil _, here⟩

/-- Two steps tell what both tell. -/
theorem bind {first : Noted α} {next : α → Noted β} (front : first.Tells features good)
    (back : ∀ value, good value → (next value).Tells features further) :
    (first >>= next).Tells features further := by
  obtain ⟨notes, outcome⟩ := first
  cases outcome with
  | error failure =>
    refine ⟨front.notes, ?_⟩
    rintro _ ⟨⟩
  | ok value =>
    have second := back value (front.result value rfl)
    exact ⟨forall_mem_append.mpr ⟨front.notes, second.notes⟩, second.result⟩

end Noted.Tells

/-- A value with a property, up to a cursor with its property. -/
structure Found (features : Features) (good : α → Prop) (found : α × Cursor) : Prop where
  value : good found.1
  behind : features.cursor found.2

/-- The reader gives such values. -/
def Finds (features : Features) (reader : Cursor → Noted (α × Cursor)) (good : α → Prop) : Prop :=
  ∀ cursor, features.cursor cursor → (reader cursor).Tells features (Found features good)

end Steps

section Declarations

variable (hold : features.Hold) {cursor : Cursor}

include hold

/-- Behind an expected token the cursor has its property. -/
theorem expect_tells (token : Token) (here : features.cursor cursor) :
    (Noted.lift (expect token cursor)).Tells features features.cursor :=
  .lift fun _ read => hold.reaches here ((expect_lands token cursor).reaches read)

/-- Names are found. -/
theorem identifier_finds :
    Finds features (fun cursor => Noted.lift (identifier cursor)) fun named =>
      features.name named.1 named.2 :=
  fun _ here => .lift fun _ read =>
    ⟨hold.name here read, hold.reaches here (identifier_advances.reaches read)⟩

/-- Types are found. -/
theorem writtenType_finds :
    Finds features (fun cursor => Noted.lift (writtenType nestingLimit cursor)) features.type :=
  fun _ here => .lift fun _ read =>
    ⟨hold.type here read, hold.reaches here ((writtenType_advances _).reaches read)⟩

/-- Decorators are found. -/
theorem decorator_finds :
    Finds features decorator fun found => ∀ one ∈ found, features.attributed one :=
  fun _ here => ⟨hold.decorated here, fun _ read =>
    ⟨hold.attributed here read, hold.reaches here (decorator_advances.reaches read)⟩⟩

/-- Lists of decorators are found. -/
theorem decorators_find (bound : Nat) : Finds features (decorators bound) features.HasAttributes := by
  induction bound with
  | zero => exact fun cursor here => .pure ⟨forall_mem_nil _, here⟩
  | succ bound ih =>
    intro cursor here
    simp only [decorators]
    split
    · refine (decorator_finds hold cursor here).bind ?_
      rintro ⟨first, middle⟩ ⟨one, here⟩
      refine (ih middle here).bind ?_
      rintro ⟨rest, final⟩ ⟨others, here⟩
      refine .pure ⟨forall_mem_append.mpr ⟨fun found member => ?_, others⟩, here⟩
      exact one found (Option.mem_toList.mp member)
    · exact .pure ⟨forall_mem_nil _, here⟩

/-- Slots are found. -/
theorem slot_finds : Finds features slot features.HasSlot := by
  intro cursor here
  refine (decorators_find hold _ cursor here).bind ?_
  rintro ⟨attributes, afterDecorators⟩ ⟨decorated, here⟩
  refine (identifier_finds hold _ here).bind ?_
  rintro ⟨⟨name, span⟩, afterName⟩ ⟨named, here⟩
  refine (expect_tells hold .colon here).bind fun afterColon here => ?_
  refine (writtenType_finds hold _ here).bind ?_
  rintro ⟨written, final⟩ ⟨typed, here⟩
  exact .pure ⟨⟨decorated, named, typed⟩, here⟩

/-- Parameters are found. -/
theorem parameters_find (bound : Nat) :
    Finds features (parameters bound) fun slots => ∀ slot ∈ slots, features.HasSlot slot := by
  induction bound with
  | zero => exact fun cursor here => .pure ⟨forall_mem_nil _, here⟩
  | succ bound ih =>
    intro cursor here
    simp only [parameters]
    split
    · exact .pure ⟨forall_mem_nil _, here⟩
    · refine (slot_finds hold cursor here).bind ?_
      rintro ⟨first, middle⟩ ⟨has, here⟩
      split
      · exact .pure ⟨forall_mem_singleton.mpr has, here⟩
      · rename_i behind eaten
        refine (ih behind (hold.reaches here (Cursor.reaches_eat? eaten))).bind ?_
        rintro ⟨rest, final⟩ ⟨others, here⟩
        exact .pure ⟨forall_mem_cons.mpr ⟨has, others⟩, here⟩

/-- Fields are found. -/
theorem fields_find (bound : Nat) :
    Finds features (fields bound) fun slots => ∀ slot ∈ slots, features.HasSlot slot := by
  induction bound with
  | zero => exact fun cursor here => .pure ⟨forall_mem_nil _, here⟩
  | succ bound ih =>
    intro cursor here
    simp only [fields]
    split
    · exact .pure ⟨forall_mem_nil _, here⟩
    · refine (slot_finds hold cursor here).bind ?_
      rintro ⟨first, middle⟩ ⟨has, here⟩
      refine (ih _ (hold.reaches here ?_)).bind ?_
      · split
        · rename_i eaten
          exact Cursor.reaches_eat? eaten
        · exact middle.reaches_skip .semicolon
      · rintro ⟨rest, final⟩ ⟨others, here⟩
        exact .pure ⟨forall_mem_cons.mpr ⟨has, others⟩, here⟩

/-- Results are found. -/
theorem returnPart_finds : Finds features returnPart fun result =>
    (∀ written ∈ result.1, features.type written) ∧ features.HasAttributes result.2 := by
  intro cursor here
  simp only [returnPart]
  split
  · refine .pure ⟨⟨?_, forall_mem_nil _⟩, here⟩
    rintro _ ⟨⟩
  · rename_i next eaten
    refine (decorators_find hold _ next (hold.reaches here (Cursor.reaches_eat? eaten))).bind ?_
    rintro ⟨attributes, afterDecorators⟩ ⟨decorated, here⟩
    refine (writtenType_finds hold _ here).bind ?_
    rintro ⟨written, final⟩ ⟨typed, here⟩
    refine .pure ⟨⟨?_, decorated⟩, here⟩
    rintro _ ⟨⟩
    exact typed

/-- Functions are found. -/
theorem function_finds {attributes : List Attribute} (given : features.HasAttributes attributes) :
    Finds features (function attributes) features.HasFunction := by
  intro cursor here
  refine (expect_tells hold .fnKeyword here).bind fun afterKeyword here => ?_
  refine (identifier_finds hold _ here).bind ?_
  rintro ⟨⟨name, span⟩, afterName⟩ ⟨named, here⟩
  refine (expect_tells hold .leftParen here).bind fun afterOpening here => ?_
  refine (parameters_find hold _ _ here).bind ?_
  rintro ⟨parameters, afterParameters⟩ ⟨listed, here⟩
  refine (expect_tells hold .rightParen here).bind fun afterClosing here => ?_
  refine (returnPart_finds hold _ here).bind ?_
  rintro ⟨⟨returnType, returnAttributes⟩, afterResult⟩ ⟨⟨returned, decorated⟩, here⟩
  have inside : (Noted.lift (block nestingLimit afterResult)).Tells features
      (Found features features.body) := .lift fun _ read =>
    ⟨hold.body here read, hold.reaches here ((block_advances _).reaches read)⟩
  refine inside.bind ?_
  rintro ⟨body, final⟩ ⟨has, here⟩
  exact .pure ⟨⟨given, named, listed, returned, decorated, has⟩, here⟩

/-- Structs are found. -/
theorem struct_finds : Finds features struct features.HasStruct := by
  intro cursor here
  refine (expect_tells hold .structKeyword here).bind fun afterKeyword here => ?_
  refine (identifier_finds hold _ here).bind ?_
  rintro ⟨⟨name, span⟩, afterName⟩ ⟨named, here⟩
  refine (expect_tells hold .leftBrace here).bind fun afterOpening here => ?_
  refine (fields_find hold _ _ here).bind ?_
  rintro ⟨fields, afterFields⟩ ⟨listed, here⟩
  exact (expect_tells hold .rightBrace here).bind fun final here =>
    .pure ⟨⟨named, listed⟩, hold.reaches here (final.reaches_skip .semicolon)⟩

/-- Uniforms are found. -/
theorem uniform_finds {attributes : List Attribute} (given : features.HasAttributes attributes) :
    Finds features (uniform attributes) features.HasUniform := by
  intro cursor here
  have keyword : (Noted.lift (uniformKeyword cursor)).Tells features features.cursor :=
    .lift fun _ read => hold.reaches here ((uniformKeyword_lands cursor).reaches read)
  refine keyword.bind fun afterKeyword here => ?_
  refine (identifier_finds hold _ here).bind ?_
  rintro ⟨⟨name, span⟩, afterName⟩ ⟨named, here⟩
  refine (expect_tells hold .colon here).bind fun afterColon here => ?_
  refine (writtenType_finds hold _ here).bind ?_
  rintro ⟨written, afterType⟩ ⟨typed, here⟩
  refine (expect_tells hold .semicolon here).bind fun final here => ?_
  have missing (decorator : String) (value : Option Nat) :
      (missingDecorator name decorator span value).Tells features fun _ => True :=
    ⟨hold.missing named, fun _ _ => trivial⟩
  refine (missing _ _).bind fun _ _ => (missing _ _).bind fun _ _ => ?_
  exact .pure ⟨⟨named, typed, attributes, given, rfl, rfl, rfl⟩, here⟩

/-- Headings are found. -/
theorem heading_finds (bound : Nat) {found : Heading} (given : features.HasHeading found) :
    Finds features (heading bound found) features.HasHeading := by
  induction bound generalizing found with
  | zero => exact fun cursor here => .pure ⟨given, here⟩
  | succ bound ih =>
    intro cursor here
    simp only [heading]
    split
    · rename_i stages ahead
      have commented : features.HasHeading { found with commented := some stages } := by
        refine ⟨given.attributes, ?_⟩
        rintro _ ⟨⟩
        exact hold.comment here ahead
      exact ih commented _ (hold.reaches here cursor.reaches_advance)
    · refine (decorator_finds hold cursor here).bind ?_
      rintro ⟨next, middle⟩ ⟨one, here⟩
      have longer : features.HasHeading { found with attributes := found.attributes ++ next.toList } := by
        refine ⟨forall_mem_append.mpr ⟨given.attributes, fun found member => ?_⟩, given.commented⟩
        exact one found (Option.mem_toList.mp member)
      exact ih longer middle here
    · exact .pure ⟨given, here⟩

omit hold in
/-- A uniform has the decorators of its heading, or its comment too. -/
theorem Features.HasHeading.uniformAttributes {heading : Heading} (has : features.HasHeading heading) :
    features.HasAttributes heading.uniformAttributes := by
  unfold Heading.uniformAttributes
  split
  · rename_i stages _ found
    exact forall_mem_append.mpr
      ⟨has.attributes, forall_mem_singleton.mpr (has.commented stages found)⟩
  · exact has.attributes

/-- Items are found. -/
theorem item_finds : Finds features item features.HasDeclaration := by
  intro cursor here
  have start : features.HasHeading {} := by
    refine ⟨forall_mem_nil _, ?_⟩
    rintro _ ⟨⟩
  refine (heading_finds hold _ start cursor here).bind ?_
  rintro ⟨heading, middle⟩ ⟨headed, here⟩
  have asUniform : (uniform heading.uniformAttributes middle >>= fun found =>
      pure (Declaration.uniform found.1, found.2)).Tells features
        (Found features features.HasDeclaration) :=
    (uniform_finds hold headed.uniformAttributes middle here).bind fun _ found =>
      .pure ⟨found.value, found.behind⟩
  dsimp only
  split
  · exact (function_finds hold headed.attributes middle here).bind fun _ found =>
      .pure ⟨found.value, found.behind⟩
  · exact (struct_finds hold middle here).bind fun _ found => .pure ⟨found.value, found.behind⟩
  · exact asUniform
  · exact asUniform
  · split <;> exact .lift fun _ read => by cases read

end Declarations

/-- What is read and reported has its properties. -/
structure Reading.Has (features : Features) (reading : Reading) : Prop where
  declarations : ∀ program ∈ reading.declarations, ∀ declaration ∈ program,
    features.HasDeclaration declaration
  diagnostics : ∀ report ∈ reading.diagnostics, features.note report

/-- A reading has its properties with an item before it. -/
theorem Reading.Has.prepend {rest : Reading} (has : rest.Has features) {notes : List Diagnostic}
    (noted : ∀ note ∈ notes, features.note note) {declaration : Option Declaration}
    (first : ∀ declared ∈ declaration, features.HasDeclaration declared) :
    (rest.prepend notes declaration).Has features where
  declarations := by
    intro program listed declared member
    obtain ⟨others, read, rfl⟩ := Option.map_eq_some_iff.mp listed
    rcases mem_append.mp member with here | later
    · exact first declared (Option.mem_toList.mp here)
    · exact has.declarations others read declared later
  diagnostics := forall_mem_append.mpr ⟨noted, has.diagnostics⟩

/-- All items have their properties. -/
theorem items_have (hold : features.Hold) (bound : Nat) {cursor : Cursor}
    (here : features.cursor cursor) : (items bound cursor).Has features := by
  have none : Reading.Has features ⟨some [], []⟩ := by
    refine ⟨?_, forall_mem_nil _⟩
    rintro _ ⟨⟩
    exact forall_mem_nil _
  induction bound generalizing cursor with
  | zero => exact none
  | succ bound ih =>
    have told := item_finds hold cursor here
    unfold items
    split
    · exact none
    · dsimp only
      split
      · rename_i declaration next read
        obtain ⟨has, behind⟩ := told.result _ read
        refine (ih behind).prepend told.notes ?_
        rintro _ ⟨⟩
        exact has
      · rename_i failure read
        have stopped := hold.reaches here (item_advances.reaches_failure read)
        have notes : ∀ note ∈ (item cursor).notes ++ [failure.diagnostic], features.note note :=
          forall_mem_append.mpr
            ⟨told.notes, forall_mem_singleton.mpr (hold.failure stopped)⟩
        -- Reading is taken up again, or the program is given up and its end reported.
        split
        · have ahead : (recover cursor failure).2 <:+ cursor.rest :=
            (synchronize_suffix _ _).trans (drop_suffix _ cursor.rest)
          refine (ih (hold.resumes here stopped ahead)).prepend notes ?_
          rintro _ ⟨⟩
        · refine ⟨?_, ?_⟩
          · rintro _ ⟨⟩
          · split
            · exact notes
            · exact forall_mem_append.mpr
                ⟨notes, forall_mem_singleton.mpr (hold.ending here)⟩

/-- A text that is read and its reports have their properties. -/
theorem read_has (hold : features.Hold) {source : SourceText}
    (here : features.cursor (cursorAt source)) :
    (∀ declaration ∈ (read source).1, features.HasDeclaration declaration) ∧
      ∀ report ∈ (read source).2, report ∈ (tokenize source).diagnostics ∨ features.note report := by
  have has := items_have hold (cursorAt source).remaining here
  constructor
  · intro declaration member
    change declaration ∈ (items (cursorAt source).remaining (cursorAt source)).declarations.getD [] at member
    cases declared : (items (cursorAt source).remaining (cursorAt source)).declarations with
    | none => simp [declared] at member
    | some declarations =>
      rw [declared] at member
      exact has.declarations declarations declared declaration member
  · exact forall_mem_append.mpr
      ⟨fun _ => .inl, fun report member => .inr (has.diagnostics report member)⟩

end Shading.Surface
