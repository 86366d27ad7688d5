import Shading.Proofs.LineNumbers
import Shading.Report.Excerpt

/-!
# Marks under the text

The marks under a line count characters where the reported length counts bytes. A reported piece of a
line gets as many marks as it has characters, behind as much space as its line has characters in front
of it, as long as its line and column fit into words.
-/

namespace Shading

open List

namespace SourceText

variable {source : SourceText} {before inside after : List Char}

/-- A piece of a line, with what stands before and behind it. It has characters, no newline, and
does not reach into the carriage returns and the newline that its line ends with. -/
structure HasPiece (source : SourceText) (before inside after : List Char) : Prop where
  whole : source.characters = before ++ (inside ++ after)
  nonempty : inside ≠ []
  single : '\n' ∉ inside
  inner : ∃ character ∈ inside.getLast nonempty :: lineRest after, isLineEnd character = false

/-- A piece stands in its line. -/
theorem lineRest_append (single : '\n' ∉ inside) :
    lineRest (inside ++ after) = inside ++ lineRest after := by
  have all : ∀ character ∈ inside, decide (character ≠ '\n') = true := fun character member =>
    decide_eq_true fun newline => single (newline ▸ member)
  rw [lineRest, takeWhile_append_of_pos all, dropWhile_append_of_pos all, append_assoc,
    lineRest]

/-- A piece stands in its line, also when the end is dropped. -/
theorem HasPiece.line (piece : source.HasPiece before inside after) : ∃ rest,
    (lineStart before ++ lineRest (inside ++ after)).rdropWhile isLineEnd =
      lineStart before ++ (inside ++ rest) := by
  obtain ⟨kept, head⟩ :=
    rdropWhile_append (lineStart before ++ inside.dropLast) piece.inner
  obtain ⟨rest, tail⟩ := head?_eq_some_iff.mp head
  refine ⟨rest, ?_⟩
  have ends := dropLast_append_getLast piece.nonempty
  rw [lineRest_append piece.single]
  conv_lhs => rw [← ends]
  rw [append_assoc, singleton_append, ← append_assoc, kept, tail, append_assoc,
    ← singleton_append, ← append_assoc inside.dropLast, ends]

end SourceText

namespace Report

/-- The characters that start within the bytes of a text. -/
theorem charactersWithin_append (inside rest : List Char) (before : Nat) :
    charactersWithin (before + byteLength inside) before (inside ++ rest) = inside.length := by
  induction inside generalizing before with
  | nil => cases rest <;> simp [charactersWithin, byteLength]
  | cons first inside ih =>
    have positive := byteLength_pos (cons_ne_nil first inside)
    have later : before + byteLength (first :: inside) =
        before + byteLength [first] + byteLength inside := by
      rw [byteLength, byteLength, byteLength]
      omega
    rw [cons_append, charactersWithin, if_pos (by omega), later, ih, length_cons,
      Nat.add_comm]

/-- A tab under a tab, else a space. -/
def blank (character : Char) : Char := if character = '\t' then '\t' else ' '

/-- The padding is blank. -/
theorem toList_padding (line : String) (column length : Nat) :
    (underline line column length).1.toList = (line.toList.take (column - 1)).map blank :=
  String.toList_ofList

/-- As many marks as characters, at least one. -/
theorem toList_marks (line : String) (column length : Nat) :
    (underline line column length).2.toList = List.replicate (max (if length = 0
      then line.length - (column - 1)
      else charactersWithin length 0 (line.toList.drop (column - 1))) 1) '^' := by
  rw [underline, String.toList_ofList, length_drop, String.length_toList]

/-- Marks stand under the text that is reported. Under a piece of a line whose place fits into words
they are as many as its characters, behind a padding with one character for each before the piece, a
tab under a tab and a space elsewhere. Without a length they run to the end of the line. In any case
the padding is no longer than the line, and there is a mark. -/
theorem marks_stand_under_text (source : SourceText) :
    (∀ before inside after, source.HasPiece before inside after → SourceText.Fits before →
      ∃ here line, source.position? (byteLength before) = some here ∧
        source.line? here.line = some line ∧
        let under := underline line here.column (byteLength inside)
        under.1.length = here.column - 1 ∧
          under.1.toList = (line.toList.take (here.column - 1)).map blank ∧
            under.2.toList = List.replicate inside.length '^') ∧
      (∀ line column, (underline line column 0).2.toList =
        List.replicate (max (line.length - (column - 1)) 1) '^') ∧
        ∀ line column length, (underline line column length).1.length ≤ line.length ∧
          ∃ more, (underline line column length).2.toList = List.replicate (more + 1) '^' := by
  refine ⟨fun before inside after piece fits => ?_, fun line column => toList_marks line column 0, ?_⟩
  · have place := fits.advanceAll_start
    have marked := byteLength_pos piece.nonempty
    have filled := length_pos_of_ne_nil piece.nonempty
    obtain ⟨rest, line⟩ := piece.line
    have found := SourceText.line?_eq piece.whole
    have number : (Position.start.advanceAll before).line = 1 + before.count '\n' := by rw [place]
    rw [← number] at found
    refine ⟨_, _, (SourceText.Divides.of_append piece.whole).position?, found, ?_, toList_padding .., ?_⟩
    · rw [← String.length_toList, toList_padding, place, line]
      simp
    · have within := charactersWithin_append inside rest 0
      rw [Nat.zero_add] at within
      rw [toList_marks, if_neg (Nat.ne_of_gt marked), place, line, String.toList_ofList,
        Nat.add_sub_cancel_left, drop_left, within, Nat.max_eq_left filled]
  · intro line column length
    constructor
    · rw [← String.length_toList, toList_padding, length_map, ← String.length_toList]
      exact length_take_le' ..
    · rw [toList_marks]
      exact ⟨_, congrArg (List.replicate · '^') (Nat.sub_add_cancel (Nat.le_max_right ..)).symm⟩

/-- An accented name of four characters and five bytes, behind a tab. -/
theorem marks_stand_under_accented_name :
    let source : SourceText := ⟨"marks.shade", "a;\r\n\tnoté;\r\n"⟩
    source.HasPiece "a;\r\n\t".toList "noté".toList ";\r\n".toList ∧
      SourceText.Fits "a;\r\n\t".toList ∧ ∃ here line,
      source.position? 5 = some here ∧ source.line? here.line = some line ∧
        (underline line here.column 5).1.length = here.column - 1 ∧
          (underline line here.column 5).2.toList = List.replicate 4 '^' := by
  have piece : SourceText.HasPiece ⟨"marks.shade", "a;\r\n\tnoté;\r\n"⟩ "a;\r\n\t".toList
      "noté".toList ";\r\n".toList := ⟨by decide, by decide, by decide, ⟨';', by decide, by decide⟩⟩
  have fits : SourceText.Fits "a;\r\n\t".toList := SourceText.fits_of_byteLength (by decide)
  obtain ⟨here, line, located, found, padding, -, marks⟩ :=
    (marks_stand_under_text _).1 _ _ _ piece fits
  exact ⟨piece, fits, here, line, located, found, padding, marks⟩

/-- Of enough letters as many are marked as bytes are. -/
theorem charactersWithin_letters (count more : Nat) (rest : List Char) :
    charactersWithin count 0 (List.replicate (count + more) 'a' ++ rest) = count := by
  have within := charactersWithin_append (List.replicate count 'a')
    (List.replicate more 'a' ++ rest) 0
  rw [SourceText.byteLength_replicate, length_replicate, Nat.zero_add] at within
  rw [← replicate_append_replicate, append_assoc, within]

/-- An accented letter behind `2 ^ 32` letters is in a column that is one again, so the first two
letters are marked. -/
theorem letter_behind_long_line_is_not_marked :
    let letters := List.replicate (twoTo 32) 'a'
    let source : SourceText := ⟨"letters.shade", String.ofList (letters ++ ['é'])⟩
    source.HasPiece letters ['é'] [] ∧ byteLength ['é'] = 2 ∧
      source.position? (byteLength letters) = some ⟨1, 1, twoTo 32⟩ ∧
      ∃ line, source.line? 1 = some line ∧ (underline line 1 2).2.toList = ['^', '^'] := by
  intro letters source
  have piece : source.HasPiece letters ['é'] [] :=
    ⟨String.toList_ofList, by decide, by decide, ⟨'é', by decide, by decide⟩⟩
  have located := SourceText.position?_letters (twoTo 32) ['é']
  have found := SourceText.line?_eq piece.whole
  obtain ⟨rest, line⟩ := piece.line
  have newlines : letters.count '\n' = 0 := by
    rw [count_replicate]
    rfl
  have total : 2 + (twoTo 32 - 2) = twoTo 32 := by decide
  have within := charactersWithin_letters 2 (twoTo 32 - 2) (['é'] ++ rest)
  rw [total] at within
  rw [newlines] at found
  refine ⟨piece, rfl, ?_, _, found, ?_⟩
  · rw [SourceText.byteLength_replicate]
    exact located
  · rw [toList_marks, line, SourceText.lineStart_replicate, String.toList_ofList, Nat.sub_self,
      drop_zero, if_neg (by decide), within]
    rfl

end Report

end Shading
