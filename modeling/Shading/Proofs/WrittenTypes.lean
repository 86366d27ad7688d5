import Shading.Proofs.Cursors
import Shading.Proofs.Lexing

/-!
# Types are read as they are written

The text of a written type spells its tokens, and from its tokens the type is read, if its names are
identifiers, its sizes are counts and the angle brackets are not nested too deep.
-/

namespace Shading

open List

mutual

/-- The type without the places it was read from. -/
def WrittenType.unplaced : WrittenType → WrittenType
  | .mk name arguments _ => .mk name (TypeArgument.allUnplaced arguments) .none

/-- The argument without the places it was read from. -/
def TypeArgument.unplaced : TypeArgument → TypeArgument
  | .type written => .type written.unplaced
  | .size value => .size value

/-- The arguments without the places they were read from. -/
def TypeArgument.allUnplaced : List TypeArgument → List TypeArgument
  | [] => []
  | first :: rest => first.unplaced :: TypeArgument.allUnplaced rest

end

/-- Arguments are unplaced one by one. -/
theorem TypeArgument.allUnplaced_eq (arguments : List TypeArgument) :
    TypeArgument.allUnplaced arguments = arguments.map TypeArgument.unplaced := by
  induction arguments with
  | nil => rfl
  | cons first rest ih => rw [allUnplaced, ih, map_cons]

/-- The arguments of a type are unplaced one by one. -/
theorem WrittenType.arguments_unplaced (written : WrittenType) :
    written.unplaced.arguments = TypeArgument.allUnplaced written.arguments := by
  cases written
  rfl

mutual

/-- The tokens that a type is written with. -/
def WrittenType.tokens : WrittenType → List Token
  | .mk name arguments _ => .identifier name :: TypeArgument.listTokens arguments

/-- The tokens that an argument of a type is written with. -/
def TypeArgument.tokens : TypeArgument → List Token
  | .type written => written.tokens
  | .size value => [.number (.natural value .abstract)]

/-- Arguments in angle brackets; none without. -/
def TypeArgument.listTokens : List TypeArgument → List Token
  | [] => []
  | first :: rest => .less :: (first.tokens ++ (TypeArgument.tailTokens rest ++ [.greater]))

/-- The tokens of further arguments, each after a comma. -/
def TypeArgument.tailTokens : List TypeArgument → List Token
  | [] => []
  | next :: rest => .comma :: (next.tokens ++ TypeArgument.tailTokens rest)

end

mutual

/-- How deep the angle brackets are nested. -/
def WrittenType.depth : WrittenType → Nat
  | .mk _ arguments _ => TypeArgument.depths arguments

/-- How deep those of an argument are, with those around it. -/
def TypeArgument.depth : TypeArgument → Nat
  | .type written => written.depth + 1
  | .size _ => 0

/-- How deep those of arguments are. -/
def TypeArgument.depths : List TypeArgument → Nat
  | [] => 0
  | first :: rest => max first.depth (TypeArgument.depths rest)

end

mutual

/-- Its names are identifiers and its sizes counts. -/
def WrittenType.Legible : WrittenType → Prop
  | .mk name arguments _ => Lexer.IsName name ∧ TypeArgument.AllLegible arguments

/-- Names in the argument are identifiers, sizes counts. -/
def TypeArgument.Legible : TypeArgument → Prop
  | .type written => written.Legible
  | .size value => (value : Int) ≤ Number.greatestU32

/-- Names in the arguments are identifiers, sizes counts. -/
def TypeArgument.AllLegible : List TypeArgument → Prop
  | [] => True
  | first :: rest => first.Legible ∧ TypeArgument.AllLegible rest

end

open TypeArgument (AllLegible allUnplaced depths listTokens tailText tailTokens)

/-- Each argument nests no deeper than all. -/
theorem TypeArgument.depth_le_depths {arguments : List TypeArgument} {argument : TypeArgument}
    (member : argument ∈ arguments) : argument.depth ≤ depths arguments := by
  induction arguments with
  | nil => simp at member
  | cons first rest ih =>
    rw [depths]
    rcases mem_cons.mp member with rfl | later
    · exact Nat.le_max_left ..
    · exact Nat.le_trans (ih later) (Nat.le_max_right ..)

/-- Arguments are written with commas between them. -/
theorem TypeArgument.tokens_append_tailTokens (first : TypeArgument) (rest : List TypeArgument) :
    first.tokens ++ tailTokens rest =
      List.intercalate [.comma] ((first :: rest).map TypeArgument.tokens) := by
  induction rest generalizing first with
  | nil => simp [tailTokens]
  | cons second others ih =>
    rw [tailTokens, ih second]
    simp only [map_cons, intercalate_cons_cons, append_assoc, singleton_append]

/-- Arguments are no more than their tokens. -/
theorem TypeArgument.length_le_length_tailTokens (arguments : List TypeArgument) :
    arguments.length ≤ (tailTokens arguments).length := by
  induction arguments with
  | nil => exact Nat.le_refl 0
  | cons first rest ih =>
    simp only [tailTokens, length_cons, length_append]
    omega

/-- Whether the token stands in types. -/
def Token.standsInType : Token → Bool
  | .identifier _ | .number _ | .less | .greater | .comma => true
  | _ => false

mutual

/-- The tokens of a type are of these kinds. -/
theorem WrittenType.tokens_standInType : (written : WrittenType) →
    written.tokens.all Token.standsInType
  | .mk _ [] _ => rfl
  | .mk _ (first :: rest) _ => by
    have inner := TypeArgument.tokens_standInType first
    have tail := TypeArgument.tailTokens_standInType rest
    simp only [WrittenType.tokens, listTokens, all_cons, all_append, inner, tail]
    rfl

/-- Arguments consist of tokens of types. -/
theorem TypeArgument.tokens_standInType : (argument : TypeArgument) →
    argument.tokens.all Token.standsInType
  | .type written => by
    rw [TypeArgument.tokens]
    exact WrittenType.tokens_standInType written
  | .size _ => by simp [TypeArgument.tokens, Token.standsInType]

/-- Lists of arguments consist of tokens of types. -/
theorem TypeArgument.tailTokens_standInType : (arguments : List TypeArgument) →
    (tailTokens arguments).all Token.standsInType
  | [] => rfl
  | next :: rest => by
    have inner := TypeArgument.tokens_standInType next
    have tail := TypeArgument.tailTokens_standInType rest
    simp only [tailTokens, all_cons, all_append, inner, tail]
    rfl

end

/-- The tokens of a type stand inside items. -/
theorem WrittenType.tokens_plain (written : WrittenType) : written.tokens.all Surface.isPlain := by
  refine all_eq_true.mpr fun token member => ?_
  have inType := all_eq_true.mp written.tokens_standInType token member
  cases token with
  | eof | visibilityComment => cases inType
  | _ => rfl

open Lexer

/-- A comma or a closing angle bracket follows. -/
def Delimits (rest : List Char) : Prop := rest.head? = some ',' ∨ rest.head? = some '>'

/-- What delimits stops. -/
theorem Delimits.stops {rest : List Char} (delimits : Delimits rest) : Stops rest := by
  intro next member
  rcases delimits with comma | angle
  · obtain rfl : ',' = next := by simpa [comma] using member
    decide
  · obtain rfl : '>' = next := by simpa [angle] using member
    decide

/-- Further arguments in front of a delimiter start with one. -/
theorem delimits_tailText (arguments : List TypeArgument) {rest : List Char}
    (delimits : Delimits rest) : Delimits ((tailText arguments).toList ++ rest) := by
  cases arguments with
  | nil => simpa [tailText] using delimits
  | cons next others => exact .inl (by simp [tailText])

/-- No argument starts with an equals sign. -/
theorem TypeArgument.head_text_ne_equal {argument : TypeArgument} (legible : argument.Legible)
    (rest : List Char) : (argument.text.toList ++ rest).head? ≠ some '=' := by
  cases argument with
  | type written =>
    obtain ⟨name, arguments, span⟩ := written
    obtain ⟨character, head, starts⟩ := legible.1.starts
    have start : name.toList.head? = some character := head
    simp only [text, WrittenType.text, String.toList_append, head?_append, start,
      Option.some_or, ne_eq, Option.some.injEq]
    rintro rfl
    simp +decide at starts
  | size value =>
    obtain ⟨digit, others, digits⟩ := exists_cons_of_ne_nil (Decimal.repr_ne_nil value)
    have isDigit := @Decimal.isDigit_of_mem_repr value digit (by rw [digits]; simp)
    simp only [text, digits, cons_append, head?_cons, ne_eq, Option.some.injEq]
    rintro rfl
    simp +decide at isDigit

mutual

/-- The text of a type spells its tokens. -/
theorem WrittenType.spells : (written : WrittenType) → written.Legible →
    Spells Stops written.text.toList written.tokens
  | .mk name [] span, legible => by
    simpa [WrittenType.text, WrittenType.tokens, TypeArgument.listText, listTokens]
      using spells_name legible.1
  | .mk name (first :: rest) span, legible => by
    have tail : Spells Stops ((tailText rest).toList ++ ['>'])
        (tailTokens rest ++ [.greater]) :=
      (TypeArgument.spells_tail rest legible.2.2).append
        ((spells_angle '>' rfl (.inr rfl)).weaken fun _ => Stops.head_ne_equal)
        fun _ _ => .inr rfl
    have inner : Spells Stops (first.text.toList ++ ((tailText rest).toList ++ ['>']))
        (first.tokens ++ (tailTokens rest ++ [.greater])) :=
      (TypeArgument.spells first legible.2.1).append tail fun more _ => by
        rw [append_assoc]
        exact delimits_tailText rest (.inr rfl)
    have bracketed := (spells_angle '<' rfl (.inl rfl)).append inner fun more _ => by
      rw [append_assoc]
      exact TypeArgument.head_text_ne_equal legible.2.1 _
    have whole := (spells_name legible.1).append bracketed fun _ _ => stops_cons _
    simpa [WrittenType.text, WrittenType.tokens, TypeArgument.listText, listTokens]
      using whole

/-- The text of an argument spells its tokens. -/
theorem TypeArgument.spells : (argument : TypeArgument) → argument.Legible →
    Spells Delimits argument.text.toList argument.tokens
  | .type written, legible => (WrittenType.spells written legible).weaken fun _ => Delimits.stops
  | .size value, legible => by
    have small : value < twoTo 53 := by
      have bound : (value : Int) ≤ 4294967295 := legible
      have limit : 4294967296 ≤ twoTo 53 := by decide
      omega
    have spelled : Spells _ (value.repr.toList ++ []) [.number (.natural value .abstract)] :=
      spells_natural small rfl rfl
    rw [append_nil] at spelled
    refine spelled.weaken fun rest delimits => ⟨delimits.stops, ?_⟩
    rcases delimits with comma | angle
    · simp [comma]
    · simp [angle]

/-- The text of further arguments spells their tokens. -/
theorem TypeArgument.spells_tail : (arguments : List TypeArgument) →
    AllLegible arguments →
    Spells Delimits (tailText arguments).toList (tailTokens arguments)
  | [], _ => spells_nil
  | next :: rest, legible => by
    have comma : Spells Anything [',', ' '] [.comma] :=
      (spells_mark ',' rfl).followedBy (spells_blank rfl)
    have behind := (TypeArgument.spells next legible.1).append
      (TypeArgument.spells_tail rest legible.2) fun _ => delimits_tailText rest
    simpa [tailText, tailTokens] using comma.followedBy behind

end

open Surface

/-- A literal that counts something is read as a size. -/
theorem typeArgument_size {inner : Option (Reader WrittenType)} {cursor : Cursor} {literal : Number}
    {value : Nat} (next : cursor.peek = .number literal) (counts : literal.index? = some value) :
    typeArgument inner cursor = .ok (.size value, cursor.advance) := by
  simp [typeArgument, next, counts]

/-- Arguments in angle brackets are read if each of them is. -/
theorem typeArguments_reads {inner : Option (Reader WrittenType)} {first : TypeArgument}
    {rest : List TypeArgument}
    (each : ∀ argument ∈ first :: rest, Reads (typeArgument inner) argument.tokens (· ≠ .less)
      (TypeArgument.unplaced · = argument.unplaced)) :
    Reads (typeArguments inner) (listTokens (first :: rest)) (fun _ => True)
      (fun values => allUnplaced values = allUnplaced (first :: rest)) := by
  intro cursor tokens ahead _
  rw [listTokens, cons_append, ← append_assoc,
    TypeArgument.tokens_append_tailTokens, append_assoc] at ahead
  have inside := Cursor.kinds_advance ahead
  have enough : (first :: rest).length ≤ cursor.advance.remaining + 1 := by
    have bound := TypeArgument.length_le_length_tailTokens rest
    rw [Cursor.remaining_eq, inside, ← TypeArgument.tokens_append_tailTokens]
    simp only [length_append, length_cons]
    omega
  obtain ⟨values, after, read, right, behind⟩ :=
    separated_reads (by simp) (by decide) each enough cursor.advance _ inside (by simp)
  refine ⟨values, after.advance, ?_, ?_, Cursor.kinds_advance behind⟩
  · simp [typeArguments, bind, Except.bind, expect_of_kinds ahead, read, expect_of_kinds behind]
  · simp only [TypeArgument.allUnplaced_eq, right]

/-- A name with arguments is read if each of them is. -/
theorem namedType_reads {inner : Option (Reader WrittenType)} {name : String}
    {arguments : List TypeArgument}
    (each : ∀ argument ∈ arguments, Reads (typeArgument inner) argument.tokens (· ≠ .less)
      (TypeArgument.unplaced · = argument.unplaced)) (span : Span) :
    Reads (namedType inner) (WrittenType.tokens (.mk name arguments span)) (· ≠ .less)
      (WrittenType.unplaced · = WrittenType.unplaced (.mk name arguments span)) := by
  intro cursor tokens ahead follows
  rw [WrittenType.tokens, cons_append] at ahead
  have behindName := Cursor.kinds_advance ahead
  cases arguments with
  | nil =>
    have plain : cursor.advance.peek ≠ .less := by
      rw [Cursor.peek_of_kinds behindName]
      exact follows
    exact ⟨.mk name [] (cursor.span.through cursor.advance.previous), cursor.advance,
      by simp [namedType, bind, Except.bind, identifier_of_kinds ahead, plain], rfl, behindName⟩
  | cons first rest =>
    have bracket : cursor.advance.peek = .less := by
      rw [Cursor.peek_of_kinds behindName]
      rfl
    obtain ⟨values, after, read, right, behind⟩ :=
      typeArguments_reads each cursor.advance tokens behindName trivial
    refine ⟨.mk name values (cursor.span.through after.previous), after, ?_, ?_, behind⟩
    · simp [namedType, bind, Except.bind, identifier_of_kinds ahead, bracket, read]
    · simp only [WrittenType.unplaced, right]

mutual

/-- A type is read from its tokens. -/
theorem WrittenType.reads : (written : WrittenType) → written.Legible →
    ∀ {allowance : Nat}, written.depth ≤ allowance →
      Reads (writtenType allowance) written.tokens (· ≠ .less)
        (WrittenType.unplaced · = written.unplaced)
  | .mk name arguments span, legible, allowance, within => by
    rw [writtenType_eq]
    exact namedType_reads (fun argument member => TypeArgument.all_read arguments legible.2
      argument member (Nat.le_trans (TypeArgument.depth_le_depths member) within)) span

/-- An argument is read from its tokens. -/
theorem TypeArgument.reads : (argument : TypeArgument) → argument.Legible →
    ∀ {allowance : Nat}, argument.depth ≤ allowance →
      Reads (typeArgument (innerType allowance)) argument.tokens (· ≠ .less)
        (TypeArgument.unplaced · = argument.unplaced)
  | .type written, legible, allowance, within => by
    intro cursor rest ahead follows
    obtain ⟨smaller, rfl⟩ : ∃ smaller, allowance = smaller + 1 :=
      ⟨allowance - 1, by simp only [TypeArgument.depth] at within; omega⟩
    obtain ⟨value, after, read, right, behind⟩ := WrittenType.reads written legible
      (Nat.le_of_succ_le_succ within) cursor rest ahead follows
    obtain ⟨name, arguments, span⟩ := written
    have next : cursor.peek = .identifier name := Cursor.peek_of_kinds ahead
    refine ⟨.type value, after, ?_, congrArg TypeArgument.type right, behind⟩
    simp [typeArgument, next, innerType, bind, Except.bind, read]
  | .size value, legible, allowance, _ => by
    intro cursor rest ahead follows
    have next : cursor.peek = .number (.natural value .abstract) := Cursor.peek_of_kinds ahead
    exact ⟨.size value, cursor.advance, typeArgument_size next (Number.index?_natural legible), rfl,
      Cursor.kinds_advance ahead⟩

/-- Each of some arguments is read from its tokens. -/
theorem TypeArgument.all_read : (arguments : List TypeArgument) →
    AllLegible arguments → ∀ argument ∈ arguments,
    ∀ {allowance : Nat}, argument.depth ≤ allowance →
      Reads (typeArgument (innerType allowance)) argument.tokens (· ≠ .less)
        (TypeArgument.unplaced · = argument.unplaced)
  | [], _ => by simp
  | first :: rest, legible => forall_mem_cons.mpr
      ⟨TypeArgument.reads first legible.1, TypeArgument.all_read rest legible.2⟩

end

namespace Ty

/-- The written form of a type. -/
def written : Ty → WrittenType
  | .scalar element => .mk element.name [] .none
  | .vector size element =>
    .mk ("vec" ++ size.repr) [.type (.mk element.name [] .none)] .none
  | .matrix columns rows element =>
    .mk ("mat" ++ columns.repr ++ "x" ++ rows.repr) [.type (.mk element.name [] .none)] .none
  | .array element (some size) => .mk "array" [.type element.written, .size size] .none
  | .array element none => .mk "array" [.type element.written] .none
  | .struct name _ => .mk name [] .none
  | .sampler false => .mk "sampler" [] .none
  | .sampler true => .mk "sampler_comparison" [] .none
  | .texture .depthTwo _ => .mk "texture_depth_2d" [] .none
  | .texture dimension sample => .mk dimension.typeName [.type (.mk sample.name [] .none)] .none

/-- Two to four components each way, arrays of a positive count, and structs with a name. -/
def WellFormed : Ty → Prop
  | .vector size _ => 2 ≤ size ∧ size ≤ 4
  | .matrix columns rows _ => (2 ≤ columns ∧ columns ≤ 4) ∧ 2 ≤ rows ∧ rows ≤ 4
  | .array element size =>
    element.WellFormed ∧ ∀ count ∈ size, 0 < count ∧ (count : Int) ≤ Number.greatestU32
  | .struct name _ => IsName name
  | _ => True

/-- A type is written as its written form. -/
theorem text_written (type : Ty) : type.written.text = type.text := by
  have array : "array<" = "array" ++ "<" := by decide
  fun_induction written type with
  | case4 element size ih =>
    simp only [WrittenType.text, TypeArgument.listText, tailText, TypeArgument.text,
      text, array, ih, String.append_assoc, String.append_empty]
  | case5 element ih =>
    simp only [WrittenType.text, TypeArgument.listText, tailText, TypeArgument.text,
      text, array, ih, String.append_assoc, String.empty_append]
  | _ =>
    simp [WrittenType.text, TypeArgument.listText, tailText, TypeArgument.text, text,
      String.append_assoc]

/-- Written forms have no places. -/
theorem unplaced_written (type : Ty) : type.written.unplaced = type.written := by
  fun_induction written type <;>
    simp_all [WrittenType.unplaced, allUnplaced, TypeArgument.unplaced]

/-- Scalars have names. -/
theorem isName_scalar (element : Scalar) : IsName element.name := by
  cases element <;> decide

/-- A vector is not named like a scalar and tells its size. -/
theorem name_vector {size : Nat} (least : 2 ≤ size) (most : size ≤ 4) :
    let name := "vec" ++ size.repr
    IsName name ∧ Scalar.ofName? name = none ∧ Shape.ofName? name = some (.vector size none) := by
  obtain rfl | rfl | rfl : size = 2 ∨ size = 3 ∨ size = 4 := by omega
  all_goals decide

/-- A matrix is not named like a scalar and tells its sizes. -/
theorem name_matrix {columns rows : Nat} (leastColumns : 2 ≤ columns) (mostColumns : columns ≤ 4)
    (leastRows : 2 ≤ rows) (mostRows : rows ≤ 4) :
    let name := "mat" ++ columns.repr ++ "x" ++ rows.repr
    IsName name ∧ Scalar.ofName? name = none ∧
      Shape.ofName? name = some (.matrix columns rows none) := by
  obtain rfl | rfl | rfl : columns = 2 ∨ columns = 3 ∨ columns = 4 := by omega
  all_goals
    obtain rfl | rfl | rfl : rows = 2 ∨ rows = 3 ∨ rows = 4 := by omega
    all_goals decide

/-- The written form of a well-formed type is legible. -/
theorem legible_written {type : Ty} (wellFormed : type.WellFormed) : type.written.Legible := by
  fun_induction written type with
  | case1 element => exact ⟨isName_scalar element, trivial⟩
  | case2 size element =>
    obtain ⟨least, most⟩ := wellFormed
    exact ⟨(name_vector least most).1, ⟨isName_scalar element, trivial⟩, trivial⟩
  | case3 columns rows element =>
    obtain ⟨⟨leastColumns, mostColumns⟩, leastRows, mostRows⟩ := wellFormed
    have name := (name_matrix leastColumns mostColumns leastRows mostRows).1
    exact ⟨name, ⟨isName_scalar element, trivial⟩, trivial⟩
  | case4 element size ih =>
    exact ⟨by decide, ih wellFormed.1, (wellFormed.2 size rfl).2, trivial⟩
  | case5 element ih => exact ⟨by decide, ih wellFormed.1, trivial⟩
  | case6 name fields => exact ⟨wellFormed, trivial⟩
  | case7 | case8 | case9 => exact ⟨by decide, trivial⟩
  | case10 dimension sample known =>
    have name : IsName dimension.typeName := by cases dimension <;> decide
    exact ⟨name, ⟨isName_scalar sample, trivial⟩, trivial⟩

end Ty

mutual

/-- The text of a type does not tell its places. -/
theorem WrittenType.text_unplaced : (written : WrittenType) → written.unplaced.text = written.text
  | .mk _ [] _ => rfl
  | .mk _ (first :: rest) _ => by
    rw [WrittenType.unplaced, allUnplaced, WrittenType.text, WrittenType.text,
      TypeArgument.listText, TypeArgument.listText, TypeArgument.text_unplaced first,
      TypeArgument.tailText_unplaced rest]

/-- The text of an argument has no places. -/
theorem TypeArgument.text_unplaced : (argument : TypeArgument) → argument.unplaced.text = argument.text
  | .type written => by
    rw [TypeArgument.unplaced, TypeArgument.text, TypeArgument.text, WrittenType.text_unplaced written]
  | .size _ => rfl

/-- The texts of lists have no places. -/
theorem TypeArgument.tailText_unplaced : (arguments : List TypeArgument) →
    tailText (allUnplaced arguments) = tailText arguments
  | [] => rfl
  | next :: rest => by
    rw [allUnplaced, tailText, tailText,
      TypeArgument.text_unplaced next, TypeArgument.tailText_unplaced rest]

end

mutual

/-- Without places a type is as legible and as deep. -/
theorem WrittenType.unplaced_spec : (written : WrittenType) →
    (written.Legible → written.unplaced.Legible) ∧ written.unplaced.depth = written.depth ∧
      written.unplaced.unplaced = written.unplaced
  | .mk name arguments _ => by
    obtain ⟨legible, depth, none⟩ := TypeArgument.allUnplaced_spec arguments
    exact ⟨fun ⟨isName, inner⟩ => ⟨isName, legible inner⟩, depth,
      congrArg (WrittenType.mk name · Span.none) none⟩

/-- Without places an argument is as legible and as deep. -/
theorem TypeArgument.unplaced_spec : (argument : TypeArgument) →
    (argument.Legible → argument.unplaced.Legible) ∧ argument.unplaced.depth = argument.depth ∧
      argument.unplaced.unplaced = argument.unplaced
  | .type written => by
    obtain ⟨legible, depth, none⟩ := WrittenType.unplaced_spec written
    exact ⟨legible, congrArg (· + 1) depth, congrArg TypeArgument.type none⟩
  | .size _ => ⟨id, rfl, rfl⟩

/-- Without places lists are as legible and as deep. -/
theorem TypeArgument.allUnplaced_spec : (arguments : List TypeArgument) →
    (AllLegible arguments → AllLegible (allUnplaced arguments)) ∧
      depths (allUnplaced arguments) = depths arguments ∧
      allUnplaced (allUnplaced arguments) =
        allUnplaced arguments
  | [] => ⟨id, rfl, rfl⟩
  | first :: rest => by
    obtain ⟨legible, depth, none⟩ := TypeArgument.unplaced_spec first
    obtain ⟨legibleRest, depthRest, noneRest⟩ := TypeArgument.allUnplaced_spec rest
    refine ⟨fun ⟨here, later⟩ => ⟨legible here, legibleRest later⟩, ?_, ?_⟩
    · rw [allUnplaced, depths, depths, depth, depthRest]
    · rw [allUnplaced, allUnplaced, none, noneRest]

end

/-- The type that a text is read as, without places. -/
def WrittenType.ofText? (text : String) : Option WrittenType :=
  match writtenType nestingLimit (cursorAt ⟨"", text⟩) with
  | .ok (written, _) => some written.unplaced
  | .error _ => none

/-- A type is read from its text. -/
theorem WrittenType.ofText?_text {written : WrittenType} (legible : written.Legible)
    (shallow : written.depth ≤ nestingLimit) : ofText? written.text = some written.unplaced := by
  obtain ⟨divided, _⟩ := (written.spells legible).tokenize stops_nil ""
  have ahead : (cursorAt ⟨"", written.text⟩).kinds = written.tokens ++ [] := by
    rw [append_nil]
    exact kinds_cursorAt_plain divided written.tokens_plain
  obtain ⟨value, after, read, same, _⟩ := written.reads legible shallow _ [] ahead nofun
  rw [ofText?, read]
  exact congrArg some same

end Shading
