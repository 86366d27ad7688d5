import Shading.Report.Markup

/-!
# Tags of reports

What stands between `<` and the next `>` of a text is a tag. In a written tree these are the tags of its
elements, in order, since no escaped text starts a tag and no escaped value ends one. So the tags of a
report do not depend on the texts in it.
-/

namespace Shading

open List

namespace Html

/-- The characters that stand for others in escaped texts. -/
def unescapeCharacters : List Char → List Char
  | '&' :: 'a' :: 'm' :: 'p' :: ';' :: rest => '&' :: unescapeCharacters rest
  | '&' :: 'l' :: 't' :: ';' :: rest => '<' :: unescapeCharacters rest
  | '&' :: 'g' :: 't' :: ';' :: rest => '>' :: unescapeCharacters rest
  | '&' :: 'q' :: 'u' :: 'o' :: 't' :: ';' :: rest => '"' :: unescapeCharacters rest
  | '&' :: '#' :: '3' :: '9' :: ';' :: rest => '\'' :: unescapeCharacters rest
  | character :: rest => character :: unescapeCharacters rest
  | [] => []

/-- What an escaped text was made from. -/
def unescape (text : String) : String := String.ofList (unescapeCharacters text.toList)

/-- What stands behind `&` in escaped texts. -/
def entities : List (List Char) := ["amp;", "lt;", "gt;", "quot;", "#39;"].map String.toList

/-- The characters that are escaped. -/
def specials : List Char := ['&', '<', '>', '"', '\'']

/-- Special characters become entities, others stay. -/
theorem escapeCharacter_cases (character : Char) :
    (∃ entity ∈ entities, escapeCharacter character = '&' :: entity ∧
        ∀ rest, unescapeCharacters ('&' :: entity ++ rest) = character :: unescapeCharacters rest) ∨
      escapeCharacter character = [character] ∧ character ∉ specials := by
  unfold escapeCharacter
  split
  · exact .inl ⟨"amp;".toList, by decide, by decide, fun _ => rfl⟩
  · exact .inl ⟨"lt;".toList, by decide, by decide, fun _ => rfl⟩
  · exact .inl ⟨"gt;".toList, by decide, by decide, fun _ => rfl⟩
  · exact .inl ⟨"quot;".toList, by decide, by decide, fun _ => rfl⟩
  · exact .inl ⟨"#39;".toList, by decide, by decide, fun _ => rfl⟩
  · exact .inr ⟨rfl, by simp_all [specials]⟩

/-- Others stay also when undone. -/
theorem unescapeCharacters_plain {character : Char} (plain : character ∉ specials) (rest : List Char) :
    unescapeCharacters (character :: rest) = character :: unescapeCharacters rest := by
  rw [unescapeCharacters] <;> simp_all [specials]

/-- Escaping can be undone. -/
theorem unescapeCharacters_escapeCharacters (characters : List Char) :
    unescapeCharacters (escapeCharacters characters) = characters := by
  induction characters with
  | nil => rfl
  | cons first rest ih =>
    rw [escapeCharacters, flatMap_cons]
    rcases escapeCharacter_cases first with ⟨entity, -, escaped, unescaped⟩ | ⟨escaped, plain⟩
    · rw [escaped, unescaped]
      exact congrArg _ ih
    · rw [escaped, singleton_append, unescapeCharacters_plain plain]
      exact congrArg _ ih

/-- The parts of a text are escaped apart. -/
theorem escape_append (left right : String) : escape (left ++ right) = escape left ++ escape right := by
  rw [escape, String.toList_append, escapeCharacters, flatMap_append, String.ofList_append]
  rfl

/-- A text without special characters is written as it is. -/
theorem escape_of_plain {text : String} (plain : text.toList.all (!specials.contains ·)) :
    escape text = text := by
  have same : escapeCharacters text.toList = text.toList := by
    generalize text.toList = characters at plain
    induction characters with
    | nil => rfl
    | cons first rest ih =>
      obtain ⟨here, later⟩ := (Bool.and_eq_true ..).mp plain
      have single : escapeCharacter first = [first] := by
        unfold escapeCharacter
        split
        case h_6 => rfl
        all_goals exact absurd here (by decide)
      rw [escapeCharacters, flatMap_cons, single]
      exact congrArg _ (ih later)
  rw [escape, same, String.ofList_toList]

/-- Entities hold no special characters. -/
theorem plain_of_entity {entity : List Char} (listed : entity ∈ entities) {character : Char}
    (member : character ∈ entity) : character ∉ specials := by
  have all : entities.all (·.all (!specials.contains ·)) = true := by decide
  simpa using all_eq_true.mp (all_eq_true.mp all entity listed) character member

/-- A special character in an escaped text starts an entity. -/
theorem escapeCharacters_special {special : Char} (isSpecial : special ∈ specials) {after : List Char}
    (characters : List Char) : ∀ before, escapeCharacters characters = before ++ special :: after →
      special = '&' ∧ ∃ entity ∈ entities, entity <+: after := by
  induction characters with
  | nil => simp [escapeCharacters]
  | cons first rest ih =>
    intro before split
    rw [escapeCharacters, flatMap_cons] at split
    rcases append_eq_append_iff.mp split with ⟨more, -, later⟩ | ⟨more, here, later⟩
    · exact ih more later
    cases more with
    | nil => exact ih [] later.symm
    | cons found more =>
      obtain ⟨rfl, rfl⟩ := List.cons.inj later
      rcases escapeCharacter_cases first with ⟨entity, listed, escaped, -⟩ | ⟨escaped, plain⟩
      · rw [escaped] at here
        cases before with
        | nil =>
          obtain ⟨same, rfl⟩ := List.cons.inj here
          exact ⟨same.symm, entity, listed, prefix_append ..⟩
        | cons _ before =>
          have inside : special ∈ entity := by simp [(List.cons.inj here).2]
          exact absurd isSpecial (plain_of_entity listed inside)
      · have same : special ∈ [first] := by simp [← escaped, here]
        exact absurd isSpecial (mem_singleton.mp same ▸ plain)

/-- An escaped text holds no special character but `&`. -/
theorem special_notMem_escape {special : Char} (isSpecial : special ∈ specials) (other : special ≠ '&')
    (text : String) : special ∉ (escape text).toList := by
  intro member
  rw [escape, String.toList_ofList] at member
  obtain ⟨before, after, split⟩ := append_of_mem member
  exact other (escapeCharacters_special isSpecial _ before split).1

/-- The tags of a text behind what was `read` of one. -/
def tagsFrom : (read : Option (List Char)) → List Char → List (List Char)
  | none, [] => []
  | some read, [] => [read]
  | none, character :: rest => tagsFrom (if character = '<' then some [] else none) rest
  | some read, character :: rest =>
    if character = '>' then read :: tagsFrom none rest else tagsFrom (some (read ++ [character])) rest

/-- The tags with their attributes: what stands between `<` and the next `>`. -/
def tags (text : String) : List String := (tagsFrom none text.toList).map String.ofList

example : tags "<a title=\"b\">&lt;c&gt;</a>" = ["a title=\"b\"", "/a"] := by decide

/-- No tag starts in a text without `<`. -/
theorem tagsFrom_outside {text : List Char} (plain : '<' ∉ text) (rest : List Char) :
    tagsFrom none (text ++ rest) = tagsFrom none rest := by
  induction text with
  | nil => rfl
  | cons first text ih =>
    obtain ⟨other, others⟩ := ne_and_not_mem_of_not_mem_cons plain
    rw [cons_append, tagsFrom, if_neg other.symm, ih others]

/-- A tag ends with the first `>`. -/
theorem tagsFrom_inside {tag : List Char} (plain : '>' ∉ tag) (read rest : List Char) :
    tagsFrom (some read) (tag ++ '>' :: rest) = (read ++ tag) :: tagsFrom none rest := by
  induction tag generalizing read with
  | nil => rw [nil_append, tagsFrom, if_pos rfl, append_nil]
  | cons first tag ih =>
    obtain ⟨other, others⟩ := ne_and_not_mem_of_not_mem_cons plain
    rw [cons_append, tagsFrom, if_neg other.symm, ih others, append_assoc,
      singleton_append]

/-- A tag is read to its end. -/
theorem tagsFrom_tag {tag : List Char} (plain : '>' ∉ tag) (rest : List Char) :
    tagsFrom none ('<' :: tag ++ '>' :: rest) = tag :: tagsFrom none rest :=
  tagsFrom_inside plain [] rest

/-- No tag ends in its attributes. -/
theorem notMem_attributesText {attributes : List (String × String)}
    (plain : ∀ entry ∈ attributes, '>' ∉ entry.1.toList) : '>' ∉ (attributesText attributes).toList := by
  induction attributes with
  | nil => decide
  | cons first rest ih =>
    obtain ⟨here, later⟩ := forall_mem_cons.mp plain
    have value := special_notMem_escape (by decide : '>' ∈ specials) (by decide) first.2
    simpa [attributesText, String.join_cons, here, value] using ih later

/-- Trees that differ in texts only. -/
inductive Alike : List Html → List Html → Prop where
  | nil : Alike [] []
  | text {content other : String} {trees others : List Html} (rest : Alike trees others) :
      Alike (.text content :: trees) (.text other :: others)
  | element {tag : String} {attributes : List (String × String)} {inner outer trees others : List Html}
      (plainTag : '>' ∉ tag.toList) (plainNames : ∀ entry ∈ attributes, '>' ∉ entry.1.toList)
      (children : Alike inner outer) (rest : Alike trees others) :
      Alike (.element tag attributes inner :: trees) (.element tag attributes outer :: others)

/-- An element is its tags around what is inside. -/
theorem toList_element (tag : String) (attributes : List (String × String)) (inner trees : List Html)
    (rest : List Char) : (renderAll (.element tag attributes inner :: trees)).toList ++ rest =
      '<' :: (tag.toList ++ (attributesText attributes).toList) ++ '>' :: ((renderAll inner).toList ++
        ('<' :: ('/' :: tag.toList) ++ '>' :: ((renderAll trees).toList ++ rest))) := by
  simp [renderAll, render]

/-- Such trees have the same tags. -/
theorem Alike.tagsFrom_eq {trees others : List Html} (alike : Alike trees others) {rest more : List Char}
    (same : tagsFrom none rest = tagsFrom none more) :
    tagsFrom none ((renderAll trees).toList ++ rest) = tagsFrom none ((renderAll others).toList ++ more) := by
  induction alike generalizing rest more with
  | nil => exact same
  | text _ ih =>
    have unmarked (content : String) : '<' ∉ (escape content).toList :=
      special_notMem_escape (by decide) (by decide) content
    simp only [renderAll, render, String.toList_append, append_assoc]
    rw [tagsFrom_outside (unmarked _), tagsFrom_outside (unmarked _)]
    exact ih same
  | @element tag attributes _ _ _ _ plainTag plainNames _ _ children later =>
    have opening : '>' ∉ tag.toList ++ (attributesText attributes).toList := by
      simp [plainTag, notMem_attributesText plainNames]
    have closing : '>' ∉ '/' :: tag.toList := by simp [plainTag]
    rw [toList_element, toList_element, tagsFrom_tag opening, tagsFrom_tag opening]
    refine congrArg _ (children ?_)
    rw [tagsFrom_tag closing, tagsFrom_tag closing, later same]

/-- They can be joined. -/
theorem Alike.append {trees others more further : List Html} (front : Alike trees others)
    (back : Alike more further) : Alike (trees ++ more) (others ++ further) := by
  induction front with
  | nil => exact back
  | text _ ih => exact .text ih
  | element plainTag plainNames children _ _ ih => exact .element plainTag plainNames children ih

end Html

namespace Report

open Html (Alike escape escape_append escape_of_plain)

/-- Escaping changes only message, source and notes of a report. -/
theorem escape_frame (severity : Severity) (code : Code) (number count column length : Nat)
    (line : String) : escape severity.name = severity.name ∧ escape code.text = code.text ∧
      escape number.repr = number.repr ∧ escape (spaces count) = spaces count ∧
        let under := underline line column length
        escape under.1 = under.1 ∧ escape under.2 = under.2 := by
  refine ⟨?_, ?_, ?_, ?_, ?_, ?_⟩
  · cases severity <;> exact escape_of_plain (by decide)
  · cases code <;> exact escape_of_plain (by decide)
  all_goals
    refine escape_of_plain (all_eq_true.mpr fun character member => ?_)
  · rw [Nat.toList_repr] at member
    have digit := Nat.isDigit_of_mem_toDigits (by decide) (by decide) member
    have other : Html.specials.all (!·.isDigit) := by decide
    cases special : Html.specials.contains character with
    | false => rfl
    | true =>
      have apart := all_eq_true.mp other character (contains_iff_mem.mp special)
      simp [digit] at apart
  · rw [spaces, String.toList_ofList] at member
    rw [eq_of_mem_replicate member]
    decide
  · rw [underline, String.toList_ofList] at member
    obtain ⟨_, -, rfl⟩ := mem_map.mp member
    split <;> decide
  · rw [underline, String.toList_ofList] at member
    rw [eq_of_mem_replicate member]
    decide

/-- Of a place only the name of the source is escaped. -/
theorem escape_place (source : SourceText) (span : Span) : escape (place source span) =
    escape source.name ++ ":" ++ span.line.repr ++ ":" ++ span.column.repr := by
  have number (value : Nat) := (escape_frame .error .undefinedVariable value 0 0 0 "").2.2.1
  have colon : escape ":" = ":" := escape_of_plain (by decide)
  simp only [place, escape_append, number, colon]

/-- Of a marked line only its text is escaped. -/
theorem escape_marked (text : String) (span : Span) :
    let under := underline text span.column span.length
    let marks := spaces (digitCount span.line) ++ " | " ++ under.1 ++ under.2
    escape (span.line.repr ++ " | " ++ text ++ "\n" ++ marks) =
      span.line.repr ++ " | " ++ escape text ++ "\n" ++ marks := by
  obtain ⟨-, -, number, blank, padding, carets⟩ := escape_frame .error .undefinedVariable span.line
    (digitCount span.line) span.column span.length text
  have bar : escape " | " = " | " := escape_of_plain (by decide)
  have newline : escape "\n" = "\n" := escape_of_plain (by decide)
  simp only [escape_append, number, blank, padding, carets, bar, newline]

/-- What the tags of a report tell about it. -/
structure SameShape (diagnostic other : Diagnostic) : Prop where
  severity : diagnostic.severity = other.severity
  code : diagnostic.code = other.code
  location : diagnostic.location.isSome = other.location.isSome
  notes : (notes diagnostic).length = (notes other).length

variable {trees others : List Html}

/-- Elements with a class stay alike. -/
theorem alike_classed {tag name : String} (plain : '>' ∉ tag.toList) {inner outer : List Html}
    (children : Alike inner outer) (rest : Alike trees others) :
    Alike (classed tag name inner :: trees) (classed tag name outer :: others) :=
  .element plain (forall_mem_singleton.mpr (by simp)) children rest

/-- Headers are alike. -/
theorem alike_markupHeader (diagnostic other : Diagnostic) (rest : Alike trees others) :
    Alike (markupHeader diagnostic :: trees) (markupHeader other :: others) := by
  have span {name : String} {content other : String} {trees others : List Html}
      (rest : Alike trees others) : Alike (classed "span" name [.text content] :: trees)
        (classed "span" name [.text other] :: others) := alike_classed (by decide) (.text .nil) rest
  exact alike_classed (by decide) (span (.text (span (.text (span .nil))))) rest

/-- Excerpts are alike. -/
theorem alike_markupExcerpt (source other : SourceText) (span further : Span) :
    Alike (markupExcerpt source span) (markupExcerpt other further) :=
  .text (alike_classed (by decide) (.text .nil) (.text (.text
    (alike_classed (by decide) (.text .nil) (.text .nil)))))

/-- Equally many items are alike. -/
theorem alike_items : {notes others : List String} → notes.length = others.length →
    Alike (notes.flatMap fun note => [.text "    ", .element "li" [] [.text note], .text "\n"])
      (others.flatMap fun note => [.text "    ", .element "li" [] [.text note], .text "\n"])
  | [], [], _ => .nil
  | _ :: _, _ :: _, same => .text (.element (by decide) (forall_mem_nil _) (.text .nil)
      (.text (alike_items (Nat.succ.inj same))))

/-- Equally many notes are alike. -/
theorem alike_markupNotes {notes others : List String} (same : notes.length = others.length) :
    Alike (markupNotes notes) (markupNotes others) := by
  have empty : notes.isEmpty = others.isEmpty := by
    rw [Bool.eq_iff_iff, isEmpty_iff_length_eq_zero, isEmpty_iff_length_eq_zero, same]
  unfold markupNotes
  rw [empty]
  split
  · exact .nil
  · exact .text (alike_classed (by decide) (.text ((alike_items same).append (.text .nil))) (.text .nil))

/-- Reports of one shape are alike. -/
theorem alike_markup (source other : SourceText) {diagnostic another : Diagnostic}
    (same : SameShape diagnostic another) (rest : Alike trees others) :
    Alike (markup source diagnostic :: trees) (markup other another :: others) := by
  unfold markup
  rw [same.severity, same.code]
  refine .element (by decide) (by simp) (.append (.append (.text ?_) ?_) ?_) rest
  · exact alike_markupHeader diagnostic another (.text .nil)
  · have location := same.location
    cases here : diagnostic.location <;> cases there : another.location
    · exact .nil
    · simp [here, there] at location
    · simp [here, there] at location
    · exact alike_markupExcerpt ..
  · exact alike_markupNotes same.notes

/-- Nothing can be put into the markup of a report. Escaping can be undone; an escaped text holds
none of `<`, `>`, `"` and `'`, and `&` only before an entity. Reports with the same severity, code
and number of notes, both with a place or both without, have the same tags and attributes. -/
theorem markup_keeps_its_tags :
    (∀ text, Html.unescape (Html.escape text) = text) ∧
      (∀ text, (∀ character ∈ (Html.escape text).toList, character ∉ ['<', '>', '"', '\'']) ∧
        ∀ before after, (Html.escape text).toList = before ++ '&' :: after →
          ∃ entity ∈ Html.entities, entity <+: after) ∧
      ∀ source other diagnostic another, SameShape diagnostic another →
        Html.tags (Html.renderAll [markup source diagnostic, .text "\n"]) =
          Html.tags (Html.renderAll [markup other another, .text "\n"]) := by
  refine ⟨fun text => ?_, fun text => ⟨?_, fun before after split => ?_⟩, ?_⟩
  · rw [Html.unescape, Html.escape, String.toList_ofList, Html.unescapeCharacters_escapeCharacters,
      String.ofList_toList]
  · intro character member special
    have known : character ∈ Html.specials ∧ character ≠ '&' := by
      simp [Html.specials] at special ⊢
      grind
    exact Html.special_notMem_escape known.1 known.2 text member
  · rw [Html.escape, String.toList_ofList] at split
    exact (Html.escapeCharacters_special (by decide) _ before split).2
  · intro source other diagnostic another same
    rw [Html.tags, Html.tags, ← List.append_nil (Html.renderAll _).toList,
      ← List.append_nil (Html.renderAll [markup other another, _]).toList]
    exact congrArg _ ((alike_markup source other same (.text .nil)).tagsFrom_eq rfl)

/-- A message, line and suggestion that look like markup leave the tags. -/
theorem hostile_report_keeps_its_tags :
    let plain : Diagnostic :=
      { severity := .error, code := .undefinedVariable, message := "undefined variable `a`"
        location := some ⟨1, 1, 0, 1⟩, suggestions := ["b"] }
    let hostile : Diagnostic :=
      { severity := .error, code := .undefinedVariable, message := "</span><script>'\"&amp;"
        location := some ⟨1, 5, 4, 0⟩, suggestions := ["<b>"], documentation := some "\"><img src=x>" }
    SameShape plain hostile ∧
      Html.tags (Html.renderAll [markup ⟨"a.shade", "a"⟩ plain, .text "\n"]) =
        Html.tags (Html.renderAll [markup ⟨"<i>.shade", "</pre> >\t<"⟩ hostile, .text "\n"]) := by
  intro plain hostile
  have same : SameShape plain hostile := ⟨rfl, rfl, rfl, rfl⟩
  exact ⟨same, markup_keeps_its_tags.2.2 _ _ _ _ same⟩

end Report

end Shading
