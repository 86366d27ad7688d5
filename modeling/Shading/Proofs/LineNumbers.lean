import Shading.Proofs.LineTables

/-!
# Lines and columns of offsets

An offset between two characters divides a text. As long as its line and column fit into words, places
are ordered as their offsets are, the line with that number is the one around the offset, and the column
is where the character at the offset stands in it. In a text with fewer than `2 ^ 32 - 1` bytes they
fit, and in one with as many they may not.
-/

namespace Shading

open List

/-- An earlier line, or further to the left on the same one. -/
def Position.Precedes (here there : Position) : Prop :=
  here.line < there.line ∨ here.line = there.line ∧ here.column < there.column

namespace SourceText

/-- The rest of the first line, with its newline. -/
def lineRest (after : List Char) : List Char :=
  after.takeWhile (· ≠ '\n') ++ (after.dropWhile (· ≠ '\n')).take 1

variable {source : SourceText} {offset : Nat} {before inside after : List Char}

/-- Line and column are not beyond the largest word. -/
def Fits (before : List Char) : Prop :=
  1 + before.count '\n' < twoTo 32 ∧ 1 + (lineStart before).length < twoTo 32

/-- A count below the number of words is its own word. -/
theorem toWord_eq {count : Nat} (fits : count < twoTo 32) : toWord count = count :=
  Nat.mod_eq_of_lt fits

/-- Then they are the counts themselves. -/
theorem Fits.advanceAll_start (fits : Fits before) : Position.start.advanceAll before =
    ⟨1 + before.count '\n', 1 + (lineStart before).length, byteLength before⟩ := by
  rw [SourceText.advanceAll_start, toWord_eq fits.1, toWord_eq fits.2]

/-- They count no more than bytes, so they fit while bytes do. -/
theorem fits_of_byteLength (small : byteLength before + 1 < twoTo 32) : Fits before := by
  have bytes := length_le_byteLength before
  have newlines := before.count_le_length (a := '\n')
  have characters : (lineStart before).length ≤ before.length :=
    (rtakeWhile_suffix _ _).length_le
  constructor <;> omega

/-- Characters without a newline continue the last line. -/
theorem lineStart_append (single : '\n' ∉ inside) :
    lineStart (before ++ inside) = lineStart before ++ inside := by
  induction inside using List.reverseRecOn with
  | nil => rw [append_nil, append_nil]
  | append_singleton inside last ih =>
    obtain ⟨earlier, other⟩ : '\n' ∉ inside ∧ '\n' ≠ last := by simpa using single
    rw [← append_assoc, lineStart_concat, if_neg other.symm, ih earlier, append_assoc]

/-- A place with a smaller offset precedes. -/
theorem Divides.precedes (divides : source.Divides offset before after) {further : Nat}
    {longer shorter : List Char} (later : source.Divides further longer shorter)
    (less : byteLength before < byteLength longer) (fits : Fits before) (further : Fits longer) :
    (Position.start.advanceAll before).Precedes (Position.start.advanceAll longer) := by
  obtain ⟨between, rfl⟩ : ∃ between, longer = before ++ between := by
    rcases append_eq_append_iff.mp (divides.whole.symm.trans later.whole) with
      ⟨between, whole, -⟩ | ⟨between, rfl, -⟩
    · exact ⟨between, whole⟩
    · rw [byteLength_append] at less
      omega
  have nonempty : 0 < between.length := by
    refine length_pos_of_ne_nil ?_
    rintro rfl
    simp at less
  rw [fits.advanceAll_start, further.advanceAll_start]
  by_cases newline : '\n' ∈ between
  · have positive := count_pos_iff.mpr newline
    left
    simp only [count_append]
    omega
  · right
    simp only [count_append, count_eq_zero_of_not_mem newline, lineStart_append newline,
      length_append]
    omega

/-- The next line starts behind the rest of the first. -/
theorem head?_startsFrom (offset : Nat) (after : List Char) :
    (startsFrom offset (encode after)).head?.getD (offset + byteLength after) =
      offset + byteLength (lineRest after) := by
  induction after generalizing offset with
  | nil => rfl
  | cons first rest ih =>
    have bytes : encode (first :: rest) = String.utf8EncodeChar first ++ encode rest := rfl
    rw [bytes, startsFrom_append, startsFrom_utf8EncodeChar, String.length_utf8EncodeChar]
    by_cases newline : first = '\n'
    · simp [newline, lineRest, byteLength]
      rfl
    · have later := ih (offset + first.utf8Size)
      simp [newline, lineRest, byteLength, ← Nat.add_assoc] at later ⊢
      exact later

/-- The line of a place is the one around it, without its end. -/
theorem line?_eq (whole : source.characters = before ++ after) :
    source.line? (1 + before.count '\n') =
      some (String.ofList ((lineStart before ++ lineRest after).rdropWhile isLineEnd)) := by
  have parts := rdropWhile_append_lineStart before
  have size : source.text.utf8ByteSize = byteLength before + byteLength after := by
    rw [← byteLength_characters, whole, byteLength_append]
  have next : source.lineStarts[before.count '\n' + 1]?.getD source.text.utf8ByteSize =
      byteLength (before ++ lineRest after) := by
    rw [lineStarts_eq whole, ← length_tableOf, getElem?_append_right (Nat.le_refl _),
      Nat.sub_self, ← head?_eq_getElem?, size, head?_startsFrom, byteLength_append]
  have rest : lineRest after ++ (after.dropWhile (· ≠ '\n')).drop 1 = after := by
    rw [lineRest, append_assoc, take_append_drop, takeWhile_append_dropWhile]
  have divided : source.characters = before.rdropWhile (· ≠ '\n') ++
      (lineStart before ++ lineRest after ++ (after.dropWhile (· ≠ '\n')).drop 1) := by
    rw [append_assoc, rest, ← append_assoc, parts, whole]
  have piece := slice?_eq divided
  rw [← append_assoc, parts] at piece
  rw [Nat.add_comm, line?, getElem?_lineStarts whole]
  simp only [next, Option.bind_eq_bind, Option.bind_some, piece]
  rfl

/-- Only the line ends at the end are dropped. -/
theorem rdropWhile_append (start : List Char) {rest : List Char}
    (other : ∃ character ∈ rest, isLineEnd character = false) :
    (start ++ rest).rdropWhile isLineEnd = start ++ rest.rdropWhile isLineEnd ∧
      (rest.rdropWhile isLineEnd).head? = rest.head? := by
  obtain ⟨character, member, inner⟩ := other
  have kept : rest.rdropWhile isLineEnd ≠ [] := by
    intro empty
    have all := rdropWhile_eq_nil_iff.mp empty character member
    rw [inner] at all
    cases all
  constructor
  · unfold List.rdropWhile at kept ⊢
    rw [reverse_append, dropWhile_append, if_neg (by simpa using kept),
      reverse_append, reverse_reverse]
  · obtain ⟨dropped, whole⟩ := rdropWhile_prefix isLineEnd rest
    rw [← head?_append_of_ne_nil _ kept, whole]

/-- The rest of a line starts with its first character. -/
theorem head?_lineRest (after : List Char) : (lineRest after).head? = after.head? := by
  cases after with
  | nil => rfl
  | cons first rest => by_cases newline : first = '\n' <;> simp [lineRest, newline]

/-- An offset between two characters has a line and a column: the words of one more than the newlines
before it, and of one more than the characters since the last of them. In a text with fewer than
`2 ^ 32 - 1` bytes these are the counts themselves, and later offsets have later places. The line with
that number is the line around the offset without the carriage returns and newlines at its end, and it
has the character at the offset in that column, unless only such characters follow there. -/
theorem offset_is_located (divides : source.Divides offset before after) :
    ∃ here, source.position? offset = some here ∧ here.offset = byteLength before ∧
      here.line = toWord (1 + before.count '\n') ∧
      here.column = toWord (1 + (lineStart before).length) ∧
      (source.text.utf8ByteSize < twoTo 32 - 1 →
        here.line = 1 + before.count '\n' ∧ here.column = 1 + (lineStart before).length ∧
        (∀ further longer shorter, source.Divides further longer shorter →
          byteLength before < byteLength longer →
          ∃ there, source.position? further = some there ∧ here.Precedes there) ∧
        ∃ line, source.line? here.line = some line ∧
          line.toList = (lineStart before ++ lineRest after).rdropWhile isLineEnd ∧
          ((∃ character ∈ lineRest after, isLineEnd character = false) →
            line.toList[here.column - 1]? = after.head?)) := by
  have counted := advanceAll_start before
  refine ⟨_, divides.position?, ?_, ?_, ?_, fun small => ?_⟩
  · rw [counted]
  · rw [counted]
  · rw [counted]
  · have fit {start : List Char} {there : Nat} {rest : List Char}
        (divided : source.Divides there start rest) : Fits start := by
      have bytes := divided.bytes
      exact fits_of_byteLength (by omega)
    have here := (fit divides).advanceAll_start
    refine ⟨by rw [here], by rw [here], ?_, _, ?_, String.toList_ofList, ?_⟩
    · intro further longer shorter later less
      exact ⟨_, later.position?, divides.precedes later less (fit divides) (fit later)⟩
    · rw [here]
      exact line?_eq divides.whole
    · intro other
      obtain ⟨dropped, head⟩ := rdropWhile_append (lineStart before) other
      rw [String.toList_ofList, dropped, here, Nat.add_sub_cancel_left, getElem?_append_right
        (Nat.le_refl _), Nat.sub_self, ← head?_eq_getElem?, head, head?_lineRest]

/-- A sign behind an accented letter, on a line with a tab. -/
theorem sign_behind_accent_is_located :
    let source : SourceText := ⟨"marks.shade", "a\r\n\té=b\r\n"⟩
    source.Divides 6 ['a', '\r', '\n', '\t', 'é'] ['=', 'b', '\r', '\n'] ∧
      source.text.utf8ByteSize < twoTo 32 - 1 ∧
      ∃ here line, source.position? 6 = some here ∧ source.line? here.line = some line ∧
        here.line = 2 ∧ here.column = 3 ∧ line.toList = ['\t', 'é', '=', 'b'] ∧
        line.toList[here.column - 1]? = some '=' := by
  have divides : SourceText.Divides ⟨"marks.shade", "a\r\n\té=b\r\n"⟩ 6 ['a', '\r', '\n', '\t', 'é']
      ['=', 'b', '\r', '\n'] := ⟨by decide, by decide⟩
  have small : "a\r\n\té=b\r\n".utf8ByteSize < twoTo 32 - 1 := by decide
  obtain ⟨here, located, -, -, -, exact⟩ := offset_is_located divides
  obtain ⟨number, column, -, line, found, text, character⟩ := exact small
  exact ⟨divides, small, here, line, located, found, number, column, text,
    character ⟨'=', by decide, by decide⟩⟩

/-- Letters make no line, and each of them makes a column. -/
theorem lineStart_replicate (count : Nat) :
    lineStart (List.replicate count 'a') = List.replicate count 'a' := by
  rw [lineStart, rtakeWhile_eq_self_iff]
  intro letter member
  rw [eq_of_mem_replicate member]
  rfl

/-- Letters have one byte each. -/
theorem byteLength_replicate (count : Nat) : byteLength (List.replicate count 'a') = count := by
  induction count with
  | zero => rfl
  | succ count ih =>
    rw [replicate_succ, byteLength, ih, Nat.add_comm]
    rfl

/-- The place behind some letters. -/
theorem position?_letters (count : Nat) (rest : List Char) :
    let source : SourceText := ⟨"letters.shade", String.ofList (List.replicate count 'a' ++ rest)⟩
    source.position? count = some ⟨1, toWord (1 + count), count⟩ := by
  intro source
  have whole : source.characters = List.replicate count 'a' ++ rest := String.toList_ofList
  have located := (Divides.of_append whole).position?
  have newlines : (List.replicate count 'a').count '\n' = 0 := by
    rw [count_replicate]
    rfl
  rw [byteLength_replicate, advanceAll_start, newlines, lineStart_replicate, length_replicate,
    byteLength_replicate] at located
  exact located

/-- At the end of a line of `2 ^ 32 - 1` letters, which takes fewer than `2 ^ 32` bytes, the column
is zero. -/
theorem end_of_long_line_has_no_column :
    let letters := List.replicate (twoTo 32 - 1) 'a'
    let source : SourceText := ⟨"letters.shade", String.ofList letters⟩
    source.text.utf8ByteSize < twoTo 32 ∧ source.Divides (twoTo 32 - 1) letters [] ∧
      1 + (lineStart letters).length = twoTo 32 ∧
      source.position? (twoTo 32 - 1) = some ⟨1, 0, twoTo 32 - 1⟩ := by
  have located := position?_letters (twoTo 32 - 1) []
  have size : byteLength (List.replicate (twoTo 32 - 1) 'a') = twoTo 32 - 1 := byteLength_replicate _
  rw [append_nil] at located
  have divides : SourceText.Divides
      ⟨"letters.shade", String.ofList (List.replicate (twoTo 32 - 1) 'a')⟩ (twoTo 32 - 1)
      (List.replicate (twoTo 32 - 1) 'a') [] := by
    refine ⟨String.toList_ofList.trans (append_nil _).symm, ?_⟩
    rw [utf8ByteSize_ofList, size, Nat.min_self]
  refine ⟨?_, divides, ?_, located⟩
  · rw [utf8ByteSize_ofList, size]
    decide
  · rw [lineStart_replicate, length_replicate]
    decide

end SourceText

end Shading
