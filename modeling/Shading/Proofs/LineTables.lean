import Mathlib.Data.List.DropRight
import Mathlib.Data.List.Induction
import Shading.SourceText

/-!
# Line tables

Offsets are located by a binary search in the table of the offsets at which lines start. A place in a
text divides the table, and the search ends at the last line that starts before the place. So its index
counts the newlines before the place, and the piece from that entry on holds the characters since the
last of them, as a walk over the characters counts them.
-/

namespace Shading

open List

/-- The bytes of two texts are those of one behind the other. -/
@[simp] theorem byteLength_append (left right : List Char) :
    byteLength (left ++ right) = byteLength left + byteLength right := by
  induction left with
  | nil => exact (Nat.zero_add _).symm
  | cons first rest ih => rw [cons_append, byteLength, byteLength, ih, Nat.add_assoc]

/-- Characters have bytes. -/
theorem byteLength_pos {characters : List Char} (nonempty : characters ≠ []) :
    0 < byteLength characters := by
  obtain ⟨first, rest, rfl⟩ := exists_cons_of_ne_nil nonempty
  have positive := Char.utf8Size_pos first
  rw [byteLength]
  omega

/-- Every character has a byte. -/
theorem length_le_byteLength (characters : List Char) :
    characters.length ≤ byteLength characters := by
  induction characters with
  | nil => exact Nat.le_refl 0
  | cons first rest ih =>
    have positive := first.utf8Size_pos
    rw [length_cons, byteLength]
    omega

/-- The bytes of characters are those of their text. -/
theorem utf8ByteSize_ofList (characters : List Char) :
    (String.ofList characters).utf8ByteSize = byteLength characters := by
  induction characters with
  | nil => rfl
  | cons first rest ih =>
    rw [← singleton_append, String.ofList_append, String.utf8ByteSize_append,
      byteLength_append, ih]
    simp [byteLength]

/-- The size of a text is that of its characters. -/
theorem utf8ByteSize_eq (text : String) : text.utf8ByteSize = byteLength text.toList := by
  rw [← utf8ByteSize_ofList, String.ofList_toList]

/-- A character moves a place by its bytes. -/
@[simp] theorem Position.offset_advance (here : Position) (character : Char) :
    (here.advance character).offset = here.offset + character.utf8Size := by
  unfold Position.advance
  split <;> rfl

/-- Characters move a place by their bytes. -/
@[simp] theorem Position.offset_advanceAll (here : Position) (characters : List Char) :
    (here.advanceAll characters).offset = here.offset + byteLength characters := by
  induction characters generalizing here with
  | nil => rfl
  | cons first rest ih =>
    rw [advanceAll_cons, ih, offset_advance, byteLength, Nat.add_assoc]

namespace SourceText

/-- The size of a source text is that of its characters. -/
theorem byteLength_characters (source : SourceText) :
    byteLength source.characters = source.text.utf8ByteSize :=
  (utf8ByteSize_eq source.text).symm

/-- The bytes that characters are written with. -/
def encode (characters : List Char) : List UInt8 := characters.flatMap String.utf8EncodeChar

/-- The bytes of a text are those of its characters. -/
theorem bytes_eq (source : SourceText) : source.bytes = encode source.characters := by
  rw [bytes, ← String.ofList_toList (s := source.text), String.toUTF8_eq_toByteArray,
    String.toByteArray_ofList, List.utf8Encode, data_toByteArray, toList_toArray]
  rfl

/-- There are as many bytes as the characters take. -/
theorem length_encode (characters : List Char) :
    (encode characters).length = byteLength characters := by
  induction characters with
  | nil => rfl
  | cons first rest ih =>
    rw [encode, flatMap_cons, length_append, String.length_utf8EncodeChar, byteLength, ← ih]
    rfl

/-- No byte of another character is a newline. -/
theorem newline_notMem_utf8EncodeChar {character : Char} (other : character ≠ '\n') :
    10 ∉ String.utf8EncodeChar character := by
  have value : character.toNat ≠ 10 := fun same => other (Char.toNat_inj.mp same)
  unfold String.utf8EncodeChar
  simp only [show character.val.toNat = character.toNat from rfl]
  split_ifs <;> simp [← UInt8.toNat_inj] <;> omega

/-- Characters are divided behind the bytes of the first ones. -/
theorem divide?_append (front back : List Char) :
    divide? (byteLength front) (front ++ back) = some (front, back) := by
  induction front with
  | nil => cases back <;> rfl
  | cons first front ih =>
    have positive := first.utf8Size_pos
    have size : byteLength (first :: front) = first.utf8Size + byteLength front := rfl
    rw [cons_append, divide?, size, if_neg (by omega), if_neg (by omega),
      Nat.add_sub_cancel_left, ih]
    rfl

variable {source : SourceText} {before inside after : List Char}

/-- A slice is found by the offsets of its ends. -/
theorem slice?_eq (whole : source.characters = before ++ (inside ++ after)) :
    source.slice? (byteLength before) (byteLength (before ++ inside)) = some inside := by
  rw [slice?, whole, divide?_append, byteLength_append]
  simp only [Option.bind_eq_bind, Option.bind_some, Nat.add_sub_cancel_left, divide?_append]
  rfl

section Search

variable {front back : List Nat} {offset : Nat} (low : ∀ entry ∈ front, entry ≤ offset)
  (high : ∀ entry ∈ back, offset < entry)

include low high in
/-- Entries beyond the offset stand behind the division. -/
theorem lt_getD_iff (index : Nat) (within : index < (front ++ back).length) :
    offset < (front ++ back).getD index 0 ↔ front.length ≤ index := by
  rw [getD_eq_getElem?_getD, getElem?_eq_getElem within, Option.getD_some]
  by_cases first : index < front.length
  · have below := low _ (getElem_mem first)
    rw [getElem_append_left first]
    omega
  · have above := high _ (getElem_mem (l := back) (n := index - front.length) (by
      rw [length_append] at within
      omega))
    rw [getElem_append_right (Nat.not_lt.mp first)]
    omega

include low high in
/-- Halving keeps the last entry before the division. -/
theorem narrow_eq (base size : Nat) (below : base < front.length) (above : front.length ≤ base + size)
    (within : base + size ≤ (front ++ back).length) :
    narrow (front ++ back) offset base size = front.length - 1 := by
  induction size using Nat.strongRecOn generalizing base with
  | ind size ih =>
    rw [narrow]
    split
    · omega
    · have middle := lt_getD_iff low high (base + size / 2) (by omega)
      dsimp only
      split
      · exact ih _ (by omega) base below (by omega) (by omega)
      · exact ih _ (by omega) _ (by omega) (by omega) (by omega)

include low high in
/-- The line of an offset is the last one before the division. -/
theorem lineIndex_eq (nonempty : front ≠ []) :
    lineIndex (front ++ back) offset = front.length - 1 := by
  have positive := length_pos_of_ne_nil nonempty
  have length : (front ++ back).length = front.length + back.length := length_append
  have found := narrow_eq low high 0 (front ++ back).length positive (by omega) (by omega)
  have entry := lt_getD_iff low high (front.length - 1) (by omega)
  have last : (front ++ back).getD (front.length - 1) 0 ≤ offset := by omega
  rw [lineIndex, search]
  simp only [found]
  by_cases same : (front ++ back).getD (front.length - 1) 0 = offset
  · rw [if_pos same]
  · rw [if_neg same, if_pos (Nat.lt_of_le_of_ne last same)]
    exact Nat.add_sub_cancel ..

end Search

/-- Lines in bytes are followed by those behind them. -/
theorem startsFrom_append (offset : Nat) (front back : List UInt8) :
    startsFrom offset (front ++ back) =
      startsFrom offset front ++ startsFrom (offset + front.length) back := by
  induction front generalizing offset with
  | nil => rfl
  | cons byte front ih =>
    rw [cons_append, startsFrom, startsFrom, ih, length_cons, Nat.add_right_comm,
      Nat.add_assoc offset]
    split <;> rfl

/-- Lines start behind the first offset, within the bytes. -/
theorem mem_startsFrom {offset entry : Nat} {bytes : List UInt8}
    (member : entry ∈ startsFrom offset bytes) : offset < entry ∧ entry ≤ offset + bytes.length := by
  induction bytes generalizing offset with
  | nil => cases member
  | cons byte rest ih =>
    rw [startsFrom] at member
    rw [length_cons]
    have later (rest : entry ∈ startsFrom (offset + 1) rest) := ih rest
    split at member
    · rcases mem_cons.mp member with rfl | rest
      · omega
      · have := later rest
        omega
    · have := later member
      omega

/-- Only a newline starts a line. -/
theorem startsFrom_utf8EncodeChar (offset : Nat) (character : Char) :
    startsFrom offset (String.utf8EncodeChar character) =
      if character = '\n' then [offset + 1] else [] := by
  split
  · rename_i newline
    rw [newline]
    rfl
  · rename_i other
    have bytes := newline_notMem_utf8EncodeChar other
    generalize String.utf8EncodeChar character = encoded at bytes
    induction encoded generalizing offset with
    | nil => rfl
    | cons byte rest ih =>
      rw [mem_cons, not_or] at bytes
      rw [startsFrom, if_neg (Ne.symm bytes.1), ih _ bytes.2]

/-- The offsets at which the lines of some characters start. -/
def tableOf (characters : List Char) : List Nat := 0 :: startsFrom 0 (encode characters)

/-- What stands behind the last newline. -/
def lineStart (before : List Char) : List Char := before.rtakeWhile (· ≠ '\n')

/-- A newline ends a line; other characters continue it. -/
theorem lineStart_concat (before : List Char) (last : Char) :
    lineStart (before ++ [last]) = if last = '\n' then [] else lineStart before ++ [last] := by
  rw [lineStart, rtakeWhile_concat]
  by_cases newline : last = '\n' <;> simp [newline, lineStart]

/-- The table of a text is followed by the lines behind it. -/
theorem tableOf_append (before after : List Char) :
    tableOf (before ++ after) = tableOf before ++ startsFrom (byteLength before) (encode after) := by
  rw [tableOf, encode, flatMap_append, startsFrom_append, ← encode, length_encode, Nat.zero_add]
  rfl

/-- A newline adds the place behind it to the table. -/
theorem tableOf_concat (before : List Char) (last : Char) :
    tableOf (before ++ [last]) =
      if last = '\n' then tableOf before ++ [byteLength before + 1] else tableOf before := by
  rw [tableOf_append, encode, flatMap_singleton, startsFrom_utf8EncodeChar]
  split
  · rfl
  · exact append_nil _

/-- An entry for the first line and for each newline. -/
theorem length_tableOf (characters : List Char) :
    (tableOf characters).length = characters.count '\n' + 1 := by
  induction characters using List.reverseRecOn with
  | nil => rfl
  | append_singleton before last ih =>
    rw [tableOf_concat, count_append, count_singleton]
    split <;> simp_all

/-- The last line starts where its table ends. -/
theorem getLast?_tableOf (characters : List Char) : (tableOf characters).getLast? =
    some (byteLength (characters.rdropWhile (· ≠ '\n'))) := by
  induction characters using List.reverseRecOn with
  | nil => rfl
  | append_singleton before last ih =>
    rw [tableOf_concat, rdropWhile_concat]
    by_cases newline : last = '\n'
    · have size : '\n'.utf8Size = 1 := rfl
      simp [newline, byteLength, size]
    · simpa [newline] using ih

/-- A place divides the table, and the search ends before it. -/
theorem lineIndex_tableOf (before after : List Char) :
    lineIndex (tableOf (before ++ after)) (byteLength before) = before.count '\n' := by
  rw [tableOf_append, lineIndex_eq, length_tableOf, Nat.add_sub_cancel]
  · intro entry member
    rcases mem_cons.mp member with rfl | started
    · exact Nat.zero_le _
    · have bounds := mem_startsFrom started
      rw [length_encode] at bounds
      omega
  · intro entry member
    exact (mem_startsFrom member).1
  · exact cons_ne_nil _ _

/-- The word of a further count is that of the word before it. -/
theorem toWord_toWord_add (count more : Nat) : toWord (toWord count + more) = toWord (count + more) :=
  Nat.mod_add_mod ..

/-- A walk counts newlines and characters since the last. -/
theorem advanceAll_start (before : List Char) : Position.start.advanceAll before =
    ⟨toWord (1 + before.count '\n'), toWord (1 + (lineStart before).length), byteLength before⟩ := by
  induction before using List.reverseRecOn with
  | nil => rfl
  | append_singleton before last ih =>
    rw [Position.advanceAll_append, ih, Position.advanceAll_cons, Position.advanceAll_nil,
      Position.advance, lineStart_concat, byteLength_append]
    by_cases newline : last = '\n'
    · simp [newline, byteLength, toWord_toWord_add, Nat.add_assoc]
      rfl
    · simp [newline, byteLength, toWord_toWord_add, Nat.add_assoc]

/-- The text before and behind an offset; beyond the end, it is the end. -/
structure Divides (source : SourceText) (offset : Nat) (before after : List Char) : Prop where
  whole : source.characters = before ++ after
  bytes : byteLength before = min offset source.text.utf8ByteSize

/-- Characters divide their text behind them. -/
theorem Divides.of_append (whole : source.characters = before ++ after) :
    source.Divides (byteLength before) before after := by
  refine ⟨whole, ?_⟩
  rw [← byteLength_characters, whole, byteLength_append]
  omega

/-- The table of a text is divided at each of its places. -/
theorem lineStarts_eq (whole : source.characters = before ++ after) :
    source.lineStarts = tableOf before ++ startsFrom (byteLength before) (encode after) := by
  rw [← tableOf_append, ← whole, lineStarts, bytes_eq]
  rfl

/-- A line starts behind the last newline before it. -/
theorem getElem?_lineStarts (whole : source.characters = before ++ after) :
    source.lineStarts[before.count '\n']? = some (byteLength (before.rdropWhile (· ≠ '\n'))) := by
  have length := length_tableOf before
  have last := getLast?_tableOf before
  rw [getLast?_eq_getElem?, length, Nat.add_sub_cancel] at last
  rw [lineStarts_eq whole, getElem?_append_left (by omega), last]

/-- Characters through the last newline, and those behind. -/
theorem rdropWhile_append_lineStart (before : List Char) :
    before.rdropWhile (· ≠ '\n') ++ lineStart before = before :=
  rdropWhile_append_rtakeWhile

/-- The search finds the place that a walk ends at. -/
theorem Divides.position? {offset : Nat} (divides : source.Divides offset before after) :
    source.position? offset = some (Position.start.advanceAll before) := by
  have parts := rdropWhile_append_lineStart before
  have start : source.lineStarts.getD (before.count '\n') 0 =
      byteLength (before.rdropWhile (· ≠ '\n')) := by
    rw [getD_eq_getElem?_getD, getElem?_lineStarts divides.whole, Option.getD_some]
  have index : lineIndex source.lineStarts (byteLength before) = before.count '\n' := by
    rw [lineStarts_eq divides.whole, ← tableOf_append, lineIndex_tableOf]
  have whole : source.characters = before.rdropWhile (· ≠ '\n') ++ (lineStart before ++ after) := by
    rw [← append_assoc, parts, divides.whole]
  have piece := slice?_eq whole
  rw [parts] at piece
  rw [SourceText.position?]
  simp only [← divides.bytes]
  rw [index, start, piece, advanceAll_start, Nat.add_comm, Nat.add_comm 1 (lineStart before).length]
  rfl

end SourceText

end Shading
