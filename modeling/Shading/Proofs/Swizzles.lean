import Shading.Proofs.InheritedTypes
import Shading.Proofs.SimilarNames

/-!
# Swizzles name components

A valid swizzle of a vector has one to four letters, all of them among the first letters of one set, as
many as the vector has components. Exactly these are typed as members of the vector. What is suggested
in place of another text is a valid swizzle, and one edit leads to it.
-/

namespace Shading

open List

variable {size : Nat} {swizzle : String} {letters : List Char}

namespace Swizzle

/-- One to four letters, all among the first `size` of one set. -/
def IsValid (size : Nat) (swizzle : String) : Prop :=
  1 ≤ swizzle.length ∧ swizzle.length ≤ 4 ∧
    ((∀ letter ∈ swizzle.toList, letter ∈ positions.take size) ∨
      ∀ letter ∈ swizzle.toList, letter ∈ colors.take size)

/-- A letter names a component if it is among the first ones. -/
theorem isSome_component? (letters : List Char) (size : Nat) (letter : Char) :
    (component? letters size letter).isSome ↔ letter ∈ letters.take size := by
  induction letters generalizing size with
  | nil => simp [component?]
  | cons first rest ih =>
    cases size with
    | zero => simp [component?]
    | succ size =>
      rw [take_succ_cons, mem_cons, ← ih]
      unfold component?
      by_cases same : first = letter
      · simp [idxOf?_cons, same]
      · rw [idxOf?_cons, if_neg (by simpa using same)]
        cases rest.idxOf? letter with
        | none => simp [Ne.symm same]
        | some found => simp [Option.filter, Ne.symm same]

/-- Letters name components together if each does. -/
theorem isSome_mapM_component? (letters : List Char) (size : Nat) (text : List Char) :
    (text.mapM (component? letters size)).isSome ↔ ∀ letter ∈ text, letter ∈ letters.take size := by
  induction text with
  | nil => simp
  | cons first rest ih =>
    rw [forall_mem_cons, ← ih, ← isSome_component?, mapM_cons]
    cases component? letters size first with
    | none => simp
    | some component => cases rest.mapM (component? letters size) <;> simp

/-- A letter is a position or a color, never both. -/
theorem letters?_eq_some {letter : Char} :
    letters? letter = some letters ↔
      letter ∈ letters ∧ (letters = positions ∨ letters = colors) := by
  have apart : ∀ letter ∈ colors, letter ∉ positions := by simp [colors, positions]
  unfold letters?
  split
  · rename_i position
    have other : letter ∉ colors := fun color => apart letter color position
    grind
  · split <;> grind

/-- A valid swizzle is made of the first letters of one set. -/
theorem isValid_iff_set : IsValid size swizzle ↔
    1 ≤ swizzle.length ∧ swizzle.length ≤ 4 ∧
      ∃ letters, (letters = positions ∨ letters = colors) ∧
        ∀ letter ∈ swizzle.toList, letter ∈ letters.take size := by
  simp [IsValid]

/-- The letters of the sets have one byte each. -/
theorem byteLength_eq {text : List Char} (set : letters = positions ∨ letters = colors)
    (among : ∀ letter ∈ text, letter ∈ letters.take size) : byteLength text = text.length := by
  have single : ∀ letter ∈ letters, letter.utf8Size = 1 := by
    rcases set with rfl | rfl <;> simp [positions, colors] <;> decide
  induction text with
  | nil => rfl
  | cons first rest ih =>
    obtain ⟨here, later⟩ := forall_mem_cons.mp among
    rw [byteLength, single first (mem_of_mem_take here), ih later, length_cons, Nat.add_comm]

/-- Valid swizzles and no other texts name components. -/
theorem isSome_components? : (components? swizzle size).isSome ↔ IsValid size swizzle := by
  rw [isValid_iff_set, ← String.length_toList, components?, utf8ByteSize_eq]
  cases swizzle.toList with
  | nil => simp
  | cons first rest =>
    dsimp only
    split
    · rename_i long
      simp only [Option.isSome_none, Bool.false_eq_true, false_iff]
      rintro ⟨_, short, letters, set, among⟩
      rw [byteLength_eq set among] at long
      omega
    · rename_i short
      have length := length_le_byteLength (first :: rest)
      simp only [← isSome_mapM_component?]
      constructor
      · intro made
        cases set : letters? first with
        | none => simp [set] at made
        | some letters =>
          rw [set] at made
          exact ⟨by simp, by omega, letters, (letters?_eq_some.mp set).2, made⟩
      · rintro ⟨_, _, letters, set, made⟩
        have among := (isSome_mapM_component? ..).mp made first mem_cons_self
        rw [letters?_eq_some.mpr ⟨mem_of_mem_take among, set⟩]
        exact made

/-- Words are made by putting letters behind texts. -/
theorem mem_words {text : List Char} {texts : List (List Char)} {length : Nat}
    (member : text ∈ words letters texts length) :
    ∃ start ∈ texts, ∃ more, text = start ++ more ∧ 1 ≤ more.length ∧ more.length ≤ length ∧
      ∀ letter ∈ more, letter ∈ letters := by
  induction length generalizing texts with
  | zero => cases member
  | succ length ih =>
    have longer : ∀ next ∈ extend letters texts, ∃ start ∈ texts, ∃ letter ∈ letters,
        next = start ++ [letter] := by
      simp only [extend, mem_flatMap, mem_map]
      rintro next ⟨start, listed, letter, known, rfl⟩
      exact ⟨start, listed, letter, known, rfl⟩
    rcases mem_append.mp member with here | later
    · obtain ⟨start, listed, letter, known, rfl⟩ := longer text here
      exact ⟨start, listed, [letter], rfl, by simp, by simp, by simpa using known⟩
    · obtain ⟨next, made, more, rfl, _, short, known⟩ := ih later
      obtain ⟨start, listed, letter, first, rfl⟩ := longer next made
      refine ⟨start, listed, letter :: more, by simp, by simp, by simpa using short, ?_⟩
      exact forall_mem_cons.mpr ⟨first, known⟩

/-- What is suggested is valid and one edit away. -/
theorem of_mem_suggestions {suggestion : String} (member : suggestion ∈ suggestions swizzle size) :
    IsValid size suggestion ∧ Names.distance swizzle suggestion = 1 := by
  obtain ⟨candidate, different, near⟩ := Names.mem_similar.mp (mem_of_mem_take member)
  refine ⟨?_, Nat.le_antisymm near (Names.distance_pos different)⟩
  obtain ⟨word, listed, rfl⟩ := mem_map.mp candidate
  obtain ⟨_, empty, more, rfl, nonempty, short, known⟩ := mem_words listed
  rw [mem_singleton.mp empty, nil_append, isValid_iff_set, ← String.length_toList,
    String.toList_ofList]
  refine ⟨nonempty, Nat.le_trans short (Nat.min_le_left ..), _, ?_, known⟩
  cases found : swizzle.toList.findSome? letters? with
  | none => exact .inl rfl
  | some letters =>
    obtain ⟨letter, _, set⟩ := exists_of_findSome?_eq_some found
    exact (letters?_eq_some.mp set).2

end Swizzle

namespace Typing

open Swizzle (IsValid)

/-- One component stands for itself, several make a vector. -/
def swizzled (element : Scalar) (count : Nat) : Ty :=
  if count = 1 then .scalar element else .vector count element

/-- A swizzle is typed so. -/
theorem member_vector {name : String} {components : List Nat}
    (made : Swizzle.components? name size = some components) (element : Scalar) :
    member (.vector size element) name = .ok (swizzled element name.length, .swizzle) := by
  rw [← (length_components made).1]
  rw [member, made, swizzled]
  rcases components with _ | ⟨_, _ | ⟨_, _⟩⟩ <;> simp

/-- A member of a vector is typed if and only if it is a valid swizzle, as a component or as a
vector of its letters. Otherwise at most three different texts are suggested, each a valid swizzle
at distance one. -/
theorem vector_members_are_swizzles (size : Nat) (element : Scalar) (name : String) :
    (∀ found, member (.vector size element) name = .ok found ↔
        IsValid size name ∧ found = (swizzled element name.length, .swizzle)) ∧
      ∀ error, member (.vector size element) name = .error error →
        error.suggestions.Nodup ∧ error.suggestions.length ≤ 3 ∧
          ∀ suggestion ∈ error.suggestions,
            IsValid size suggestion ∧ Names.distance name suggestion = 1 := by
  rw [← Swizzle.isSome_components?]
  cases made : Swizzle.components? name size with
  | some components =>
    rw [member_vector made]
    refine ⟨fun found => ?_, by simp⟩
    simp [eq_comm]
  | none =>
    have refused : member (.vector size element) name = .error (.invalidSwizzle name size element) := by
      rw [member, made]
    rw [refused]
    refine ⟨by simp, ?_⟩
    rintro error ⟨⟩
    refine ⟨Names.nodup_similar.sublist (take_sublist ..), length_take_le .., ?_⟩
    exact fun suggestion => Swizzle.of_mem_suggestions

/-- A letter of the other set is no component; three swizzles are suggested. -/
theorem mixed_letters_are_refused :
    member (.vector 3 .f32) "xr" = .error (.invalidSwizzle "xr" 3 .f32) ∧
      (TypingError.invalidSwizzle "xr" 3 .f32).suggestions = ["x", "xx", "xy"] ∧
      ∀ suggestion ∈ (TypingError.invalidSwizzle "xr" 3 .f32).suggestions,
        IsValid 3 suggestion ∧ Names.distance "xr" suggestion = 1 := by
  have refused : member (.vector 3 .f32) "xr" = .error (.invalidSwizzle "xr" 3 .f32) := by decide
  have close : (TypingError.invalidSwizzle "xr" 3 .f32).suggestions = ["x", "xx", "xy"] := by
    change ((List.mergeSort _ _).map _).take _ = _
    rw [mergeSort_of_pairwise (by decide +kernel)]
    decide +kernel
  exact ⟨refused, close, ((vector_members_are_swizzles 3 .f32 "xr").2 _ refused).2.2⟩

end Typing

end Shading
