import Mathlib.Data.List.Infix
import Mathlib.Order.Bounds.Defs
import Shading.Names.Similar
import Shading.Proofs.ScopeRuns

/-!
# Edits and similar names

An edit inserts, deletes or substitutes one character. The distance of two texts is the least number of
edits between them, so it is a metric. A row holds the distances of the characters that were read to all
beginnings of the other text: the recursion on last characters writes it entry by entry, and it counts
what the recursion on first characters counts, since edits can be read from either end. The names that
are suggested are exactly the near ones, ranked by their distance and then by their first occurrence.
-/

namespace Shading.Names

open List

/-- One insertion, deletion or substitution of a character. -/
inductive Edit : (before after : List Char) → Prop where
  | insert (inserted : Char) (rest : List Char) : Edit rest (inserted :: rest)
  | delete (deleted : Char) (rest : List Char) : Edit (deleted :: rest) rest
  | substitute (old new : Char) (rest : List Char) : Edit (old :: rest) (new :: rest)
  | behind (first : Char) {before after : List Char} (edit : Edit before after) :
    Edit (first :: before) (first :: after)

/-- A number of edits, one after the other. -/
inductive Edits : (count : Nat) → (before after : List Char) → Prop where
  | none (text : List Char) : Edits 0 text text
  | more {count : Nat} {before between after : List Char} (edit : Edit before between)
    (edits : Edits count between after) : Edits (count + 1) before after

namespace Edit

variable {before after : List Char}

/-- An edit can be taken back. -/
theorem symm (edit : Edit before after) : Edit after before := by
  induction edit with
  | insert inserted rest => exact .delete inserted rest
  | delete deleted rest => exact .insert deleted rest
  | substitute old new rest => exact .substitute new old rest
  | behind first _ ih => exact .behind first ih

/-- An edit behind characters that stay. -/
theorem append_left (edit : Edit before after) (front : List Char) :
    Edit (front ++ before) (front ++ after) := by
  induction front with
  | nil => exact edit
  | cons first front ih => exact .behind first ih

/-- An edit in front of characters that stay. -/
theorem append_right (edit : Edit before after) (back : List Char) :
    Edit (before ++ back) (after ++ back) := by
  induction edit with
  | insert inserted rest => exact .insert inserted (rest ++ back)
  | delete deleted rest => exact .delete deleted (rest ++ back)
  | substitute old new rest => exact .substitute old new (rest ++ back)
  | behind first _ ih => exact .behind first ih

/-- An edit can be read from the other end. -/
theorem reverse (edit : Edit before after) : Edit before.reverse after.reverse := by
  induction edit with
  | insert inserted rest =>
    rw [reverse_cons]
    simpa using (insert inserted []).append_left rest.reverse
  | delete deleted rest =>
    rw [reverse_cons]
    simpa using (delete deleted []).append_left rest.reverse
  | substitute old new rest =>
    rw [reverse_cons, reverse_cons]
    exact (substitute old new []).append_left rest.reverse
  | behind first _ ih =>
    rw [reverse_cons, reverse_cons]
    exact ih.append_right [first]

end Edit

namespace Edits

variable {count further : Nat} {before between after : List Char}

/-- Edits can be joined. -/
theorem trans (edits : Edits count before between) (others : Edits further between after) :
    Edits (count + further) before after := by
  induction edits with
  | none _ => rwa [Nat.zero_add]
  | more edit _ ih =>
    rw [Nat.add_right_comm]
    exact .more edit (ih others)

/-- Edits can be undone. -/
theorem symm (edits : Edits count before after) : Edits count after before := by
  induction edits with
  | none text => exact .none text
  | more edit _ ih => exact ih.trans (.more edit.symm (.none _))

/-- Edits behind a character that stays. -/
theorem behind (first : Char) (edits : Edits count before after) :
    Edits count (first :: before) (first :: after) := by
  induction edits with
  | none text => exact .none (first :: text)
  | more edit _ ih => exact .more (.behind first edit) ih

/-- Two numbers of edits leave the smaller one. -/
theorem min (edits : Edits count before after) (others : Edits further before after) :
    Edits (min count further) before after := by
  rw [Nat.min_def]
  split
  · exact edits
  · exact others

/-- Edits can be read from the other end. -/
theorem reverse (edits : Edits count before after) : Edits count before.reverse after.reverse := by
  induction edits with
  | none text => exact .none text.reverse
  | more edit _ ih => exact .more edit.reverse ih

/-- No edit leaves a text as it is. -/
theorem zero_iff : Edits 0 before after ↔ before = after := by
  constructor
  · rintro ⟨⟩
    rfl
  · rintro rfl
    exact .none before

end Edits

/-- The distance by the standard recursion on first characters. -/
def levenshtein : (source target : List Char) → Nat
  | [], target => target.length
  | source, [] => source.length
  | first :: source, other :: target =>
    min (levenshtein source target + if first = other then 0 else 1)
      (min (levenshtein source (other :: target) + 1) (levenshtein (first :: source) target + 1))
termination_by source target => source.length + target.length

/-- Nothing becomes a text by insertions. -/
@[simp] theorem levenshtein_nil_left (target : List Char) : levenshtein [] target = target.length := by
  rw [levenshtein]

/-- A text becomes nothing by deletions. -/
@[simp] theorem levenshtein_nil_right (source : List Char) :
    levenshtein source [] = source.length := by
  cases source <;> simp [levenshtein]

/-- The three ways to settle the first characters. -/
theorem levenshtein_cons_cons (first other : Char) (source target : List Char) :
    levenshtein (first :: source) (other :: target) =
      min (levenshtein source target + if first = other then 0 else 1)
        (min (levenshtein source (other :: target) + 1)
          (levenshtein (first :: source) target + 1)) := by
  rw [levenshtein]

/-- A text has no distance to itself. -/
theorem levenshtein_self (text : List Char) : levenshtein text text = 0 := by
  induction text with
  | nil => exact levenshtein_nil_left []
  | cons first rest ih => rw [levenshtein_cons_cons, ih, if_pos rfl, Nat.zero_min]

/-- There are as many edits as the recursion counts. -/
theorem edits_levenshtein (source target : List Char) :
    Edits (levenshtein source target) source target := by
  fun_induction levenshtein source target with
  | case1 target =>
    induction target with
    | nil => exact .none []
    | cons first rest ih => exact ih.trans (.more (.insert first rest) (.none _))
  | case2 source nonempty =>
    clear nonempty
    induction source with
    | nil => exact .none []
    | cons first rest ih => exact .more (.delete first rest) ih
  | case3 first source other target both deleted inserted =>
    have substituted : Edits (levenshtein source target + if first = other then 0 else 1)
        (first :: source) (other :: target) := by
      split
      · rename_i same
        exact same ▸ both.behind first
      · exact .more (.substitute first other source) (both.behind other)
    have whole := inserted.trans (.more (.insert other target) (.none _))
    exact substituted.min (Edits.min (.more (.delete first source) deleted) whole)

/-- A further character adds at most one. -/
theorem levenshtein_cons_right_le (source : List Char) (other : Char) (target : List Char) :
    levenshtein source (other :: target) ≤ levenshtein source target + 1 := by
  cases source with
  | nil => simp
  | cons first source =>
    rw [levenshtein_cons_cons]
    omega

/-- One edit brings texts nearer by at most one. -/
theorem Edit.levenshtein_le {before after : List Char} (edit : Edit before after)
    (target : List Char) : levenshtein before target ≤ levenshtein after target + 1 := by
  -- Beside the induction on where the edit is made, each case is one on the target: the first
  -- character of the target is settled against both texts in the same way.
  induction edit generalizing target with
  | insert inserted rest =>
    induction target with
    | nil => simp; omega
    | cons other target ih =>
      have further := levenshtein_cons_right_le rest other target
      rw [levenshtein_cons_cons inserted]
      split <;> omega
  | delete deleted rest =>
    cases target with
    | nil => simp
    | cons other target =>
      rw [levenshtein_cons_cons]
      omega
  | substitute old new rest =>
    induction target with
    | nil => simp
    | cons other target ih =>
      rw [levenshtein_cons_cons, levenshtein_cons_cons]
      split <;> split <;> omega
  | behind first _ earlier =>
    induction target with
    | nil => simpa using earlier []
    | cons other target ih =>
      have both := earlier target
      have deleted := earlier (other :: target)
      rw [levenshtein_cons_cons, levenshtein_cons_cons]
      split <;> omega

/-- No fewer edits than the recursion counts will do. -/
theorem Edits.levenshtein_le {count : Nat} {before after : List Char}
    (edits : Edits count before after) : levenshtein before after ≤ count := by
  induction edits with
  | none text => rw [levenshtein_self]
  | more edit _ ih => exact Nat.le_trans (edit.levenshtein_le _) (by omega)

/-- The recursion may settle the last characters first. -/
theorem levenshtein_reverse (source target : List Char) :
    levenshtein source.reverse target.reverse = levenshtein source target := by
  have forth := (edits_levenshtein source target).reverse.levenshtein_le
  have back := (edits_levenshtein source.reverse target.reverse).reverse.levenshtein_le
  rw [reverse_reverse, reverse_reverse] at back
  exact Nat.le_antisymm forth back

/-- The three ways to settle the last characters. -/
theorem levenshtein_concat_concat (source target : List Char) (last other : Char) :
    levenshtein (source ++ [last]) (target ++ [other]) =
      min (levenshtein source target + if last = other then 0 else 1)
        (min (levenshtein source (target ++ [other]) + 1)
          (levenshtein (source ++ [last]) target + 1)) := by
  rw [← levenshtein_reverse, reverse_concat, reverse_concat, levenshtein_cons_cons,
    ← reverse_concat, ← reverse_concat, levenshtein_reverse, levenshtein_reverse,
    levenshtein_reverse]

namespace Rows

variable {rows : Rows} {target read : List Char} {character : Char}

/-- A written entry is found, others are as they were. -/
theorem getD_setIfInBounds {row : Array Nat} {column index entry : Nat} (within : column < row.size) :
    (row.setIfInBounds column entry).getD index 0 = if index = column then entry else row.getD index 0 := by
  rw [Array.getD_eq_getD_getElem?, Array.getD_eq_getD_getElem?, Array.getElem?_setIfInBounds]
  by_cases same : column = index
  · subst same
    simp [within]
  · simp [same, Ne.symm same]

/-- A row holds the distances of a text to beginnings of `target`. -/
structure Row (target source : List Char) (row : Array Nat) (length : Nat) : Prop where
  size : row.size = target.length + 1
  entry : ∀ column ≤ length, row.getD column 0 = levenshtein source (target.take column)

/-- While a row is written: up to a column it holds the distances with the character, and the row
before it is complete. -/
structure Writes (rows : Rows) (target read : List Char) (character : Char) (column : Nat) : Prop where
  complete : Row target read rows.previous target.length
  written : Row target (read ++ [character]) rows.current column

/-- What is written is the distance to the next beginning. -/
theorem Writes.put {front rest : List Char} {other : Char}
    (writes : rows.Writes (front ++ other :: rest) read character front.length) :
    (rows.put character other front.length).Writes (front ++ other :: rest) read character
      (front.length + 1) := by
  have shorter : (front ++ other :: rest).take front.length = front := take_left
  have longer : (front ++ other :: rest).take (front.length + 1) = front ++ [other] := by
    rw [take_length_add_append]
    rfl
  have before := writes.complete.entry front.length (by simp)
  have above := writes.complete.entry (front.length + 1) (by simp)
  have beside := writes.written.entry front.length (Nat.le_refl _)
  have size := writes.written.size
  rw [shorter] at before beside
  rw [longer] at above
  refine ⟨writes.complete, by rw [Rows.put, Array.size_setIfInBounds, size], fun column within => ?_⟩
  rw [Rows.put, getD_setIfInBounds (by simp [size])]
  split
  · rename_i last
    rw [last, longer, before, above, beside, levenshtein_concat_concat, Nat.min_assoc]
  · exact writes.written.entry column (by omega)

/-- Filling writes the rest of the row. -/
theorem Writes.fill {front rest : List Char}
    (writes : rows.Writes (front ++ rest) read character front.length) :
    (rows.fill character front.length rest).Writes (front ++ rest) read character
      (front ++ rest).length := by
  induction rest generalizing front rows with
  | nil => rwa [Rows.fill, append_nil] at *
  | cons other rest ih =>
    have length : (front ++ [other]).length = front.length + 1 := length_append
    have next := writes.put
    rw [← singleton_append, ← append_assoc, ← length] at next
    have later := ih next
    rwa [length, append_assoc] at later

/-- One row holds the distances of what was read; the other has room. -/
structure Holds (rows : Rows) (target read : List Char) : Prop where
  complete : Row target read rows.previous target.length
  room : rows.current.size = target.length + 1

/-- Before a character is read, distances are lengths. -/
theorem holds_start (target : List Char) : (start target.length).Holds target [] := by
  refine ⟨⟨Array.size_range, fun column within => ?_⟩, Array.size_replicate⟩
  rw [levenshtein_nil_left, length_take, Nat.min_eq_left within, start,
    Array.getD_eq_getD_getElem?, Array.getElem?_range, if_pos (by omega), Option.getD_some]

/-- A character changes a row to that with it. -/
theorem Holds.extend (holds : rows.Holds target read) (character : Char) :
    (rows.extend target read.length character).Holds target (read ++ [character]) := by
  have first : Row target (read ++ [character]) (rows.current.setIfInBounds 0 (read.length + 1)) 0 := by
    refine ⟨by rw [Array.size_setIfInBounds, holds.room], fun column within => ?_⟩
    rw [getD_setIfInBounds (by rw [holds.room]; omega), if_pos (Nat.le_zero.mp within),
      Nat.le_zero.mp within, take_zero, levenshtein_nil_right, length_append]
    rfl
  have started : Writes ⟨rows.previous, rows.current.setIfInBounds 0 (read.length + 1)⟩ ([] ++ target)
      read character 0 := ⟨holds.complete, first⟩
  have filled := Writes.fill started
  exact ⟨filled.written, filled.complete.size⟩

/-- After a run the row is that of the whole text. -/
theorem Holds.extendAll (holds : rows.Holds target read) (source : List Char) :
    (extendAll target rows read.length source).Holds target (read ++ source) := by
  induction source generalizing rows read with
  | nil => rwa [Rows.extendAll, append_nil]
  | cons character source ih =>
    have later := ih (holds.extend character)
    rw [append_assoc, length_append] at later
    exact later

end Rows

/-- The distance is the one of the standard recursion. -/
theorem distance_eq_levenshtein (left right : String) :
    distance left right = levenshtein left.toList right.toList := by
  have whole := (Rows.holds_start right.toList).extendAll left.toList
  have last := whole.complete.entry right.toList.length (Nat.le_refl _)
  rwa [take_length] at last

/-- The distance is the least number of edits. -/
theorem isLeast_distance (left right : String) :
    IsLeast {count | Edits count left.toList right.toList} (distance left right) := by
  rw [distance_eq_levenshtein]
  exact ⟨edits_levenshtein _ _, fun count edits => edits.levenshtein_le⟩

/-- The distance of two texts is the least number of insertions, deletions and substitutions between
them, as the standard recursion counts; it is a metric. -/
theorem distance_counts_edits (left middle right : String) :
    IsLeast {count | Edits count left.toList right.toList} (distance left right) ∧
      distance left right = levenshtein left.toList right.toList ∧
      distance left right = distance right left ∧
      (distance left right = 0 ↔ left = right) ∧
      distance left right ≤ distance left middle + distance middle right := by
  obtain ⟨forth, least⟩ := isLeast_distance left right
  obtain ⟨back, backLeast⟩ := isLeast_distance right left
  refine ⟨⟨forth, least⟩, distance_eq_levenshtein left right, ?_, ?_, ?_⟩
  · exact Nat.le_antisymm (least back.symm) (backLeast forth.symm)
  · constructor
    · intro zero
      rw [zero] at forth
      exact String.toList_inj.mp (Edits.zero_iff.mp forth)
    · rintro rfl
      exact Nat.le_zero.mp (least (Edits.none _))
  · exact least ((isLeast_distance left middle).1.trans (isLeast_distance middle right).1)

section Ranking

variable (key : String → Nat) (names : List String)

/-- Keys are ordered. -/
theorem key_trans (left middle right : String) (first : decide (key left ≤ key middle) = true)
    (second : decide (key middle ≤ key right) = true) : decide (key left ≤ key right) = true := by
  rw [decide_eq_true_eq] at *
  exact Nat.le_trans first second

/-- Keys can be compared. -/
theorem key_total (left right : String) :
    (decide (key left ≤ key right) || decide (key right ≤ key left)) = true := by
  rw [Bool.or_eq_true, decide_eq_true_eq, decide_eq_true_eq]
  exact Nat.le_total ..

/-- Sorting keeps the order of names with one key. -/
theorem filter_mergeSort (value : Nat) :
    (names.mergeSort fun left right => key left ≤ key right).filter (key · = value) =
      names.filter (key · = value) := by
  have level : (names.filter (key · = value)).Pairwise fun left right =>
      decide (key left ≤ key right) = true := by
    refine pairwise_of_forall_mem_list fun left leftMember right rightMember => ?_
    have leftKey := of_mem_filter leftMember
    have rightKey := of_mem_filter rightMember
    rw [decide_eq_true_eq] at *
    exact Nat.le_of_eq (leftKey.trans rightKey.symm)
  have kept := (sublist_mergeSort (key_trans key) (key_total key) level
    filter_sublist).filter (key · = value)
  rw [filter_filter] at kept
  simp only [Bool.and_self] at kept
  exact (kept.eq_of_length ((mergeSort_perm _ _).filter _).length_eq.symm).symm

/-- Sorted names are ranked by key and then by their order. -/
theorem pairwise_ranked {earlier : String → String → Prop} (ordered : names.Pairwise earlier) :
    (names.mergeSort fun left right => key left ≤ key right).Pairwise fun left right =>
      key left < key right ∨ key left = key right ∧ earlier left right := by
  have sorted := pairwise_mergeSort (key_trans key) (key_total key) names
  rw [pairwise_iff_forall_sublist] at *
  intro left right pair
  rcases Nat.lt_or_eq_of_le (of_decide_eq_true (sorted pair)) with less | same
  · exact .inl less
  · have level := pair.filter (key · = key right)
    rw [filter_mergeSort] at level
    simp only [same, decide_true, filter_cons_of_pos, filter_nil] at level
    exact .inr ⟨same, ordered (level.trans filter_sublist)⟩

end Ranking

section Similar

variable {target name : String} {candidates : List String} {limit : Nat}

/-- Whether a candidate is suggested for a name. -/
def isNear (target : String) (limit : Nat) (candidate : String) : Bool :=
  candidate != target && distance target candidate ≤ limit

/-- A candidate is kept by its distance and the names that are kept. -/
theorem keep_eq (target : String) (limit : Nat) (kept : List (Nat × String)) (candidate : String) :
    keep target limit kept candidate =
      if candidate = target || kept.any (·.2 = candidate) then kept
      else if distance target candidate ≤ limit then kept ++ [(distance target candidate, candidate)]
      else kept := rfl

/-- The near candidates are kept once, with their distances. -/
theorem foldl_keep (target : String) (candidates : List String) (limit : Nat) :
    candidates.foldl (keep target limit) [] =
      (candidates.eraseDups.filter (isNear target limit)).map fun name => (distance target name, name) := by
  induction candidates using List.reverseRecOn with
  | nil => rfl
  | append_singleton earlier candidate ih =>
    have seen : (List.any ((earlier.eraseDups.filter (isNear target limit)).map fun name =>
        (distance target name, name)) (·.2 = candidate)) =
          (decide (candidate ∈ earlier) && isNear target limit candidate) := by
      rw [Bool.eq_iff_iff]
      simp [and_comm]
    rw [foldl_append, ih, foldl_cons, foldl_nil, keep_eq, seen, eraseDups_append,
      filter_append, map_append]
    -- A candidate that is not kept is also none of the near ones, or was met before.
    by_cases near : isNear target limit candidate
    · have parts : candidate ≠ target ∧ distance target candidate ≤ limit := by
        simpa [isNear] using near
      by_cases member : candidate ∈ earlier
      · simp [near, member, List.removeAll]
      · simp [near, member, parts, List.removeAll, eraseDups_cons]
    · have apart : candidate = target ∨ ¬distance target candidate ≤ limit := by
        simpa [isNear, or_iff_not_imp_left] using near
      by_cases member : candidate ∈ earlier <;> rcases apart with same | far <;>
        simp_all [List.removeAll, eraseDups_cons]

/-- Suggestions are the near candidates, sorted by distance. -/
theorem similar_eq : similar target candidates limit =
    (candidates.eraseDups.filter (isNear target limit)).mergeSort fun left right =>
      distance target left ≤ distance target right := by
  rw [similar, foldl_keep, ← map_mergeSort (r := fun left right =>
    decide (distance target left ≤ distance target right)) (fun _ _ _ _ => rfl), map_map]
  exact map_id _

/-- The near candidates are suggested, and no others. -/
theorem mem_similar : name ∈ similar target candidates limit ↔
    name ∈ candidates ∧ name ≠ target ∧ distance target name ≤ limit := by
  simp [similar_eq, isNear]

/-- Suggestions are ranked by distance and then by first occurrence. -/
theorem pairwise_similar : (similar target candidates limit).Pairwise fun first second =>
    distance target first < distance target second ∨
      distance target first = distance target second ∧
        candidates.idxOf first < candidates.idxOf second := by
  rw [similar_eq]
  exact pairwise_ranked (distance target) _ ((Scopes.pairwise_eraseDups candidates).filter _)

/-- No name is suggested twice. -/
theorem nodup_similar : (similar target candidates limit).Nodup := by
  refine pairwise_similar.imp ?_
  rintro first _ ordered rfl
  omega

/-- Another name is at least one edit away. -/
theorem distance_pos (different : name ≠ target) : 0 < distance target name := by
  refine Nat.pos_of_ne_zero fun zero => different ?_
  have edits := (isLeast_distance target name).1
  rw [zero] at edits
  exact (String.toList_inj.mp (Edits.zero_iff.mp edits)).symm

end Similar

/-- The suggestions for a name are exactly the distinct candidates other than it within `limit`
edits, each once, the nearer ones first and equally near ones in the order of their first
occurrences. -/
theorem similar_ranks_near_names (target : String) (candidates : List String) (limit : Nat) :
    (∀ name, name ∈ similar target candidates limit ↔
        name ∈ candidates ∧ name ≠ target ∧ distance target name ≤ limit) ∧
      (similar target candidates limit).Nodup ∧
      (similar target candidates limit).Pairwise fun first second =>
        distance target first < distance target second ∨
          distance target first = distance target second ∧
            candidates.idxOf first < candidates.idxOf second :=
  ⟨fun _ => mem_similar, nodup_similar, pairwise_similar⟩

end Shading.Names
