import Shading.Proofs.DeclarationTexts
import Shading.Proofs.ExpressionReading

/-!
# Printed declarations are read back

The tokens of a printed struct or uniform are read as the declaration that was printed, with all its
decorators, and nothing is reported.
-/

namespace Shading

open List

open Typed (DeclaredType)

variable {literal : Number} {attributes : List Attribute} {bound : Nat} {cursor : Surface.Cursor}
  {rest : List Token}

section Bare

variable {Ascription Different : Type} (type : Ascription → Different)

/-- The slot without its place, with another ascription. -/
def Slot.bare (slot : Slot Ascription) : Slot Different :=
  ⟨slot.attributes, slot.name, type slot.ascription, .none⟩

/-- The struct without its places, with other ascriptions. -/
def Struct.bare (struct : Struct Ascription) : Struct Different :=
  ⟨struct.name, struct.fields.map (Slot.bare type), .none⟩

/-- The uniform without its place, with another ascription. -/
def Uniform.bare (uniform : Uniform Ascription) : Uniform Different :=
  ⟨uniform.name, type uniform.ascription, uniform.group, uniform.binding, uniform.visibility, .none⟩

end Bare

/-- The declaration without places. -/
def Surface.Declaration.unplaced : Declaration → Declaration
  | .function declared => .function declared
  | .struct declared => .struct (declared.bare WrittenType.unplaced)
  | .uniform declared => .uniform (declared.bare WrittenType.unplaced)

/-- What the code of a program without functions is read as. -/
def Typed.Program.reread (program : Program) : Surface.Program :=
  program.structs.map (fun struct => .struct (struct.bare DeclaredType.spelling)) ++
    program.uniforms.map fun uniform => .uniform (uniform.bare DeclaredType.spelling)

namespace Surface

namespace Noted

variable {α β : Type}

/-- A step without reports is followed by the next one. -/
@[simp] theorem silent_bind (value : α) (next : α → Noted β) :
    ((⟨[], .ok value⟩ : Noted α) >>= next) = next value := rfl

/-- A lifted success notes nothing. -/
@[simp] theorem lift_ok (value : α) : Noted.lift (.ok value) = ⟨[], .ok value⟩ := rfl

end Noted

/-- The reader takes tokens before one that `next` admits, and reports nothing. -/
def NotedReads {α : Type} (reader : Cursor → Noted (α × Cursor)) (tokens : List Token)
    (next : Token → Prop) (result : α → Prop) : Prop :=
  ∀ cursor rest, cursor.kinds = tokens ++ rest → next (first rest) →
    ∃ value after, reader cursor = ⟨[], .ok (value, after)⟩ ∧ result value ∧ after.kinds = rest

/-- A count is the number of a decorator. -/
theorem singleIndex_of_index? {index : Nat} (counts : literal.index? = some index) (name : String) :
    singleIndex name [.number literal] = .ok index := by
  simp only [singleIndex, counts]

/-- A positive count is a dimension. -/
theorem dimension?_of_index? {size : Nat} (counts : literal.index? = some size)
    (positive : 0 < size) : dimension? (.number literal) = some size := by
  simp [dimension?, counts, positive]

/-- The dimensions of a workgroup are read. -/
theorem dimensions_read {dimensions : List Nat}
    (sizes : ∀ size ∈ dimensions, 0 < size ∧ (size : Int) ≤ Number.greatestU32) :
    (dimensions.map fun size => DecoratorArgument.number (.natural size .abstract)).mapM dimension? =
      some dimensions := by
  induction dimensions with
  | nil => rfl
  | cons first rest ih =>
    obtain ⟨positive, counts⟩ := sizes first (by simp)
    have later := ih fun size member => sizes size (by simp [member])
    have here := dimension?_of_index? (Number.index?_natural counts) positive
    rw [map_cons, mapM_cons, here, later]
    rfl

/-- The stages of a visibility are read. -/
theorem stages_read (stages : List Stage) :
    (stages.map fun stage => DecoratorArgument.name stage.name).mapM stage? = some stages := by
  have each (stage : Stage) : stage? (.name stage.name) = some stage := Stage.ofName?_name stage
  rw [mapM_map]
  simp only [Function.comp_def, each]
  exact mapM_pure.trans (by simp)

/-- A decorator has the name and arguments it is written with. -/
theorem attributeOf_word {decorator : Attribute} (legible : decorator.Legible) :
    attributeOf decorator.word decorator.arguments = .ok decorator := by
  -- The arguments stay variables while the name is looked up, so that no number is evaluated.
  have single {word : String} {made : Nat → Attribute} {arguments : List DecoratorArgument} {index : Nat}
      (step : attributeOf word arguments = (singleIndex word arguments).map made)
      (read : singleIndex word arguments = .ok index) :
      attributeOf word arguments = .ok (made index) := by
    rw [step, read]
    rfl
  cases decorator with
  | stage which => cases which <;> rfl
  | workgroupSize dimensions =>
    obtain ⟨least, greatest, sizes⟩ := legible
    have known {arguments : List DecoratorArgument} (read : arguments.mapM dimension? = some dimensions) :
        attributeOf "workgroup_size" arguments = .ok (.workgroupSize dimensions) := by
      have unnamed : Stage.ofName? "workgroup_size" = none := rfl
      simp [attributeOf, unnamed, read, least, greatest]
    exact known (dimensions_read sizes)
  | group | binding | location =>
    exact single rfl (singleIndex_of_index? (Number.index?_natural legible) _)
  | visibility stages =>
    have nonempty : stages ≠ [] := legible
    have known {arguments : List DecoratorArgument} (read : arguments.mapM stage? = some stages) :
        attributeOf "visibility" arguments = .ok (.visibility stages) := by
      have unnamed : Stage.ofName? "visibility" = none := rfl
      simp [attributeOf, unnamed, read, nonempty]
    exact known (stages_read stages)
  | builtin name => rfl

/-- An argument of a decorator is read from its token. -/
theorem decoratorArgument_reads (argument : DecoratorArgument) :
    Reads decoratorArgument [argument.token] (fun _ => True) (id · = argument) := by
  intro cursor rest ahead _
  cases argument with
  | name word =>
    have next : cursor.peek = .identifier word := Cursor.peek_of_kinds ahead
    exact ⟨.name word, cursor.advance, by simp only [decoratorArgument, next], rfl,
      Cursor.kinds_advance ahead⟩
  | number literal =>
    have next : cursor.peek = .number literal := Cursor.peek_of_kinds ahead
    exact ⟨.number literal, cursor.advance, by simp only [decoratorArgument, next], rfl,
      Cursor.kinds_advance ahead⟩

/-- Decorator arguments are read with their parentheses. -/
theorem decoratorArguments_reads (arguments : List DecoratorArgument) :
    Reads decoratorArguments
      (if arguments.isEmpty then []
        else .leftParen :: (List.intercalate [.comma] (arguments.map fun argument => [argument.token]) ++
          [.rightParen]))
      (· ≠ .leftParen) (· = arguments) := by
  intro cursor rest ahead follows
  split at ahead
  · rename_i empty
    have stop := Cursor.eat?_eq_none ahead follows
    refine ⟨[], cursor, by simp only [decoratorArguments, stop], ?_, ahead⟩
    exact (isEmpty_iff.mp empty).symm
  · simp only [cons_append, append_assoc, nil_append] at ahead
    have inside := Cursor.kinds_advance ahead
    have token : ∀ argument ∈ arguments, [argument.token] ≠ [] ∧
        first [argument.token] ≠ .rightParen := by
      intro argument _
      cases argument <;> exact ⟨nofun, nofun⟩
    have length := length_le_intercalate fun argument member => (token argument member).1
    have enough : arguments.length < cursor.advance.remaining + 1 := by
      rw [Cursor.remaining_eq, inside, length_append]
      omega
    obtain ⟨values, last, read, same, behind⟩ := listed_reads .rightParen trivial trivial nofun
      (fun argument _ => decoratorArgument_reads argument) token enough cursor.advance _ inside rfl
    refine ⟨values, last.advance, ?_, by simpa using same, Cursor.kinds_advance behind⟩
    simp only [decoratorArguments, Cursor.eat?_of_kinds ahead, read, expect_of_kinds behind, bind,
      Except.bind]

/-- A decorator is read from its tokens. -/
theorem decorator_reads {one : Attribute} (legible : one.Legible) :
    NotedReads decorator one.tokens (· ≠ .leftParen) (· = some one) := by
  intro cursor rest ahead follows
  rw [Attribute.tokens, cons_append, cons_append] at ahead
  have named := Cursor.kinds_advance ahead
  obtain ⟨arguments, after, read, rfl, behind⟩ := decoratorArguments_reads one.arguments
    cursor.advance.advance rest (Cursor.kinds_advance named) follows
  refine ⟨some one, after, ?_, rfl, behind⟩
  simp only [decorator, decoratorParts, expect_of_kinds ahead, identifier_of_kinds named, read, bind,
    Except.bind]
  simp only [Noted.lift_ok, Noted.andThen, attributeOf_word legible]
  rfl

/-- Decorators are read as long as there are any. -/
theorem decorators_reads (legible : ∀ one ∈ attributes, one.Legible)
    (enough : attributes.length ≤ bound) :
    NotedReads (decorators bound) (Attribute.allTokens attributes)
      (fun token => token ≠ .atSign ∧ token ≠ .leftParen) (· = attributes) := by
  induction attributes generalizing bound with
  | nil =>
    intro cursor rest ahead follows
    have stop : cursor.peek ≠ .atSign := by
      rw [Cursor.peek_of_kinds ahead]
      exact follows.1
    refine ⟨[], cursor, ?_, rfl, ahead⟩
    cases bound with
    | zero => rfl
    | succ bound => simp only [decorators, if_neg stop]; rfl
  | cons one others ih =>
    intro cursor rest ahead follows
    obtain ⟨bound, rfl⟩ := Nat.exists_eq_add_one.mpr (Nat.zero_lt_of_lt enough)
    rw [Attribute.allTokens, flatMap_cons, append_assoc] at ahead
    have next : cursor.peek = .atSign := Cursor.peek_of_kinds ahead
    have noArguments : first (Attribute.allTokens others ++ rest) ≠ .leftParen := by
      cases others with
      | nil => exact follows.2
      | cons second others => rintro ⟨⟩
    obtain ⟨found, middle, read, rfl, behind⟩ :=
      decorator_reads (legible one (by simp)) cursor _ ahead noArguments
    obtain ⟨later, after, readRest, rfl, last⟩ :=
      ih (fun other member => legible other (by simp [member])) (by simp at enough; omega)
        middle rest behind follows
    refine ⟨one :: later, after, ?_, rfl, last⟩
    simp only [decorators, if_pos next, read, Noted.silent_bind, readRest]
    rfl

/-- Pieces are at most as many as their tokens. -/
theorem length_le_flatMap {β : Type} {tokens : β → List Token} {items : List β}
    (nonempty : ∀ one ∈ items, tokens one ≠ []) : items.length ≤ (items.flatMap tokens).length := by
  induction items with
  | nil => exact Nat.le_refl 0
  | cons one others ih =>
    have here := length_pos_iff.mpr (nonempty one (by simp))
    have later := ih fun other member => nonempty other (by simp [member])
    rw [flatMap_cons, length_append, length_cons]
    omega

/-- Decorators are at most as many as their tokens. -/
theorem length_le_attributeTokens (attributes : List Attribute) :
    attributes.length ≤ (Attribute.allTokens attributes).length :=
  length_le_flatMap fun _ _ => nofun

/-- All decorators ahead are read. -/
theorem decorators_ahead (legible : ∀ one ∈ attributes, one.Legible)
    (ahead : cursor.kinds = Attribute.allTokens attributes ++ rest) (noSign : first rest ≠ .atSign)
    (noParen : first rest ≠ .leftParen) :
    ∃ after, decorators cursor.remaining cursor = ⟨[], .ok (attributes, after)⟩ ∧
      after.kinds = rest := by
  have enough : attributes.length ≤ cursor.remaining := by
    have bound := length_le_attributeTokens attributes
    rw [Cursor.remaining_eq, ahead, length_append]
    omega
  obtain ⟨found, after, read, rfl, behind⟩ :=
    decorators_reads legible enough cursor rest ahead ⟨noSign, noParen⟩
  exact ⟨after, read, behind⟩

/-- A parameter or field is read from its tokens. -/
theorem slot_reads {printed : Slot DeclaredType} (legible : printed.Legible)
    (shallow : printed.ascription.spelling.depth ≤ nestingLimit) :
    NotedReads slot printed.tokens (· ≠ .less)
      (Slot.bare WrittenType.unplaced · = printed.bare DeclaredType.spelling) := by
  intro cursor rest ahead follows
  simp only [Slot.tokens, append_assoc, cons_append] at ahead
  obtain ⟨middle, read, named⟩ :=
    decorators_ahead legible.attributes ahead (by rintro ⟨⟩) (by rintro ⟨⟩)
  have colon := Cursor.kinds_advance named
  obtain ⟨written, after, typeRead, same, behind⟩ := WrittenType.reads printed.ascription.spelling
    legible.ascription.spelling shallow middle.advance.advance rest (Cursor.kinds_advance colon) follows
  refine ⟨⟨printed.attributes, printed.name, written, middle.span⟩, after, ?_, ?_, behind⟩
  · simp only [slot, read, Noted.silent_bind, identifier_of_kinds named, Noted.lift_ok,
      expect_of_kinds colon, typeRead]
    rfl
  · simp only [Slot.bare, same, printed.ascription.unplaced_spelling]

/-- Parameters and fields start with a decorator or a name. -/
theorem slot_start (printed : Slot DeclaredType) (rest : List Token) :
    first (printed.tokens ++ rest) = .atSign ∨
      first (printed.tokens ++ rest) = .identifier printed.name := by
  unfold Slot.tokens
  cases printed.attributes with
  | nil => exact .inr rfl
  | cons one others => exact .inl rfl

/-- What can be read of parameters or fields. -/
abbrev SameSlots (read : List (Slot WrittenType)) (printed : List (Slot DeclaredType)) : Prop :=
  read.map (Slot.bare WrittenType.unplaced) = printed.map (Slot.bare DeclaredType.spelling)

/-- Fields are read up to the closing brace. -/
theorem fields_reads {printed : List (Slot DeclaredType)} (legible : ∀ one ∈ printed, one.Legible)
    (shallow : ∀ one ∈ printed, one.ascription.spelling.depth ≤ nestingLimit)
    (enough : printed.length < bound) :
    NotedReads (fields bound) (printed.flatMap fun field => field.tokens ++ [.comma])
      (· = .rightBrace) (SameSlots · printed) := by
  induction printed generalizing bound with
  | nil =>
    intro cursor rest ahead follows
    obtain ⟨bound, rfl⟩ := Nat.exists_eq_add_one.mpr (Nat.zero_lt_of_lt enough)
    have closing : cursor.peek = .rightBrace := (Cursor.peek_of_kinds ahead).trans follows
    exact ⟨[], cursor, by simp only [fields, closing]; rfl, rfl, ahead⟩
  | cons one others ih =>
    intro cursor rest ahead follows
    obtain ⟨bound, rfl⟩ := Nat.exists_eq_add_one.mpr (Nat.zero_lt_of_lt enough)
    simp only [flatMap_cons, append_assoc, cons_append, nil_append] at ahead
    have notYet : cursor.peek ≠ .rightBrace := by
      rw [Cursor.peek_of_kinds ahead]
      rcases slot_start one _ with start | start <;> rw [start] <;> rintro ⟨⟩
    have notEnd : cursor.atEnd = false := by
      rw [Cursor.atEnd, isEmpty_eq_false_iff]
      intro empty
      simp [Cursor.kinds, empty] at ahead
    obtain ⟨found, middle, read, same, comma⟩ :=
      slot_reads (legible one (by simp)) (shallow one (by simp)) cursor _ ahead (by rintro ⟨⟩)
    obtain ⟨later, after, readRest, sameRest, behind⟩ :=
      ih (fun other member => legible other (by simp [member]))
        (fun other member => shallow other (by simp [member])) (by simp at enough ⊢; omega)
        middle.advance rest (Cursor.kinds_advance comma) follows
    refine ⟨found :: later, after, ?_, cons_eq_cons.mpr ⟨same, sameRest⟩, behind⟩
    simp only [fields, notYet, notEnd, decide_false, Bool.or_self, Bool.false_eq_true, if_false, read,
      Noted.silent_bind, Cursor.eat?_of_kinds comma, readRest]
    rfl

/-- A struct is read from its tokens. -/
theorem struct_reads {printed : Struct DeclaredType} (legible : printed.Legible)
    (shallow : ∀ field ∈ printed.fields, field.ascription.spelling.depth ≤ nestingLimit) :
    NotedReads struct printed.tokens (· ≠ .semicolon)
      (Struct.bare WrittenType.unplaced · = printed.bare DeclaredType.spelling) := by
  intro cursor rest ahead follows
  simp only [Struct.tokens, cons_append, append_assoc, nil_append] at ahead
  have named := Cursor.kinds_advance ahead
  have opened := Cursor.kinds_advance named
  have inside := Cursor.kinds_advance opened
  have enough : printed.fields.length < cursor.advance.advance.advance.remaining := by
    have bound : printed.fields.length ≤
        (printed.fields.flatMap fun field => field.tokens ++ [.comma]).length :=
      length_le_flatMap fun _ _ => by simp
    rw [Cursor.remaining_eq, inside, length_append, length_cons]
    omega
  obtain ⟨fields, last, fieldsRead, fieldsSame, closed⟩ :=
    fields_reads legible.fields shallow enough _ _ inside rfl
  have behind := Cursor.kinds_advance closed
  have noSemicolon : last.advance.skip .semicolon = last.advance := by
    rw [Cursor.skip, if_neg]
    rw [Cursor.peek_of_kinds behind]
    exact follows
  refine ⟨⟨printed.name, fields, cursor.advance.span⟩, last.advance, ?_, ?_, behind⟩
  · simp only [struct, expect_of_kinds ahead, Noted.lift_ok, Noted.silent_bind,
      identifier_of_kinds named, expect_of_kinds opened, fieldsRead, expect_of_kinds closed, noSemicolon]
    rfl
  · simp only [Struct.bare]
    rw [fieldsSame]

/-- The keyword of a uniform is read with its address space. -/
theorem uniformKeyword_reads (declared : DeclaredType)
    (ahead : cursor.kinds = Uniform.storageTokens declared ++ rest) (noSpace : first rest ≠ .less) :
    ∃ after, uniformKeyword cursor = .ok after ∧ after.kinds = rest := by
  unfold Uniform.storageTokens at ahead
  split at ahead
  · have keyword : cursor.kinds = .varKeyword :: rest := ahead
    have behind := Cursor.kinds_advance keyword
    have stop := Cursor.eat?_eq_none behind noSpace
    refine ⟨cursor.advance, ?_, behind⟩
    simp only [uniformKeyword, Cursor.eat?_of_kinds keyword, addressSpace, stop]
  · have keyword : cursor.kinds = .varKeyword :: .less :: .uniformKeyword :: .greater :: rest := ahead
    have less := Cursor.kinds_advance keyword
    have space := Cursor.kinds_advance less
    have greater := Cursor.kinds_advance space
    have noComma : cursor.advance.advance.advance.eat? .comma = none :=
      Cursor.eat?_eq_none greater nofun
    refine ⟨cursor.advance.advance.advance.advance, ?_, Cursor.kinds_advance greater⟩
    simp only [uniformKeyword, Cursor.eat?_of_kinds keyword, addressSpace, Cursor.eat?_of_kinds less,
      Cursor.eat?_of_kinds space, noComma, expect_of_kinds greater, bind, Except.bind]

/-- A uniform is read behind decorators and stages. -/
theorem uniform_reads {printed : Uniform DeclaredType} (legible : printed.Legible)
    (shallow : printed.ascription.spelling.depth ≤ nestingLimit) :
    NotedReads
      (uniform [.group printed.group, .binding printed.binding, .visibility printed.visibility])
      (Uniform.storageTokens printed.ascription ++ .identifier printed.name :: .colon ::
        (printed.ascription.spelling.tokens ++ [.semicolon]))
      (fun _ => True) (Uniform.bare WrittenType.unplaced · = printed.bare DeclaredType.spelling) := by
  intro cursor rest ahead _
  simp only [append_assoc, cons_append, nil_append] at ahead
  obtain ⟨first, keywordRead, named⟩ := uniformKeyword_reads printed.ascription ahead nofun
  have colon := Cursor.kinds_advance named
  obtain ⟨written, last, typeRead, same, semicolon⟩ := WrittenType.reads printed.ascription.spelling
    legible.ascription.spelling shallow first.advance.advance _ (Cursor.kinds_advance colon) nofun
  refine ⟨⟨printed.name, written, printed.group, printed.binding, printed.visibility, first.span⟩,
    last.advance, ?_, ?_, Cursor.kinds_advance semicolon⟩
  · simp only [uniform, keywordRead, Noted.lift_ok, Noted.silent_bind, identifier_of_kinds named,
      expect_of_kinds colon, typeRead, expect_of_kinds semicolon]
    rfl
  · simp only [Uniform.bare, same, printed.ascription.unplaced_spelling]

/-- Decorators in front of an item are gathered. -/
theorem heading_decorators {attributes : List Attribute} (legible : ∀ one ∈ attributes, one.Legible)
    (found : Heading) {bound : Nat} (enough : attributes.length < bound) {cursor : Cursor}
    {rest : List Token} (ahead : cursor.kinds = Attribute.allTokens attributes ++ rest)
    (item : first rest = .fnKeyword ∨ first rest = .structKeyword ∨ first rest = .varKeyword) :
    ∃ after, heading bound found cursor =
        ⟨[], .ok ({ found with attributes := found.attributes ++ attributes }, after)⟩ ∧
      after.kinds = rest := by
  induction attributes generalizing bound found cursor with
  | nil =>
    obtain ⟨bound, rfl⟩ := Nat.exists_eq_add_one.mpr (Nat.zero_lt_of_lt enough)
    have next : cursor.peek = first rest := Cursor.peek_of_kinds ahead
    refine ⟨cursor, ?_, ahead⟩
    rw [append_nil]
    rcases item with start | start | start <;> simp only [heading, next, start] <;> rfl
  | cons one others ih =>
    obtain ⟨bound, rfl⟩ := Nat.exists_eq_add_one.mpr (Nat.zero_lt_of_lt enough)
    rw [Attribute.allTokens, flatMap_cons, append_assoc] at ahead
    have next : cursor.peek = .atSign := Cursor.peek_of_kinds ahead
    have noArguments : first (Attribute.allTokens others ++ rest) ≠ .leftParen := by
      cases others with
      | nil => rcases item with start | start | start <;> exact start ▸ by rintro ⟨⟩
      | cons second others => rintro ⟨⟩
    obtain ⟨_, middle, read, rfl, behind⟩ :=
      decorator_reads (legible one (by simp)) cursor _ ahead noArguments
    obtain ⟨after, readRest, last⟩ :=
      ih (fun other member => legible other (by simp [member]))
        { found with attributes := found.attributes ++ [one] } (by simp at enough; omega) behind
    refine ⟨after, ?_, last⟩
    simp only [heading, next, read, Noted.silent_bind, Option.toList_some, readRest]
    simp only [append_assoc, singleton_append]

end Surface

end Shading
