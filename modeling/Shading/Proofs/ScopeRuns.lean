import Mathlib.Data.List.Forall2
import Mathlib.Data.List.Induction
import Shading.Scopes

/-!
# What scopes hold after any number of steps

Scopes are entered, left and filled one step after the other, and a record is kept of what has been
inserted into each open scope. However the steps are mixed, a name stands for what was inserted for it
last into the innermost scope that has it, the visible names are listed in the order in which they were
first inserted from the outside in, and what happens in a scope leaves no trace once it is left.
-/

namespace Shading

open List

variable {inserts : List (String × α)} {name first second : String} {scope : Scope α}

/-- The first entry of a name counts. -/
theorem lookup_cons_ite {α : Type} (other name : String) (value : α) (scope : Scope α) :
    List.lookup other ((name, value) :: scope) =
      if other = name then some value else List.lookup other scope := by
  rw [lookup_cons]
  by_cases same : other = name
  · rw [if_pos same, beq_iff_eq.mpr same]
  · rw [if_neg same, beq_false_of_ne same]

namespace Scope

variable {α : Type}

/-- What was inserted is found. -/
theorem lookup_insert (name : String) (value : α) (scope : Scope α) (other : String) :
    List.lookup other (scope.insert name value) =
      if other = name then some value else List.lookup other scope := by
  induction scope with
  | nil => exact lookup_cons_ite other name value []
  | cons first rest ih =>
    obtain ⟨bound, old⟩ := first
    unfold Scope.insert
    by_cases here : bound = name
    · rw [if_pos here, lookup_cons_ite, lookup_cons_ite, here]
      by_cases same : other = name
      · rw [if_pos same, if_pos same]
      · rw [if_neg same, if_neg same, if_neg same]
    · rw [if_neg here, lookup_cons_ite, lookup_cons_ite, ih]
      by_cases same : other = bound
      · rw [if_pos same, if_pos same, if_neg (same ▸ here)]
      · rw [if_neg same, if_neg same]

/-- The names that a scope binds, in order. -/
def names (scope : Scope α) : List String := scope.map Prod.fst

/-- A name bound again keeps its place; a new one comes last. -/
theorem names_insert (name : String) (value : α) (scope : Scope α) :
    (scope.insert name value).names =
      if name ∈ scope.names then scope.names else scope.names ++ [name] := by
  induction scope with
  | nil => rfl
  | cons first rest ih =>
    obtain ⟨bound, old⟩ := first
    unfold names at ih ⊢
    unfold Scope.insert
    by_cases here : bound = name
    · rw [if_pos here, map_cons, map_cons, here, if_pos mem_cons_self]
    · have other : name ∈ bound :: rest.map Prod.fst ↔ name ∈ rest.map Prod.fst := by
        simp [Ne.symm here]
      rw [if_neg here, map_cons, map_cons, ih]
      by_cases later : name ∈ rest.map Prod.fst
      · rw [if_pos later, if_pos (other.mpr later)]
      · rw [if_neg later, if_neg (mt other.mp later), cons_append]

/-- A name stands for its last insert, and the names are in the order of their first ones. -/
structure Holds (scope : Scope α) (inserts : List (String × α)) : Prop where
  lookup : ∀ name, List.lookup name scope = inserts.reverse.lookup name
  mem : ∀ name, name ∈ scope.names ↔ name ∈ inserts.map Prod.fst
  order : scope.names.Pairwise fun first second =>
    (inserts.map Prod.fst).idxOf first < (inserts.map Prod.fst).idxOf second

/-- Nothing was inserted into an empty scope. -/
theorem holds_nil : Holds ([] : Scope α) [] where
  lookup _ := rfl
  mem _ := Iff.rfl
  order := .nil

/-- Binding a name adds an insert. -/
theorem Holds.insert {scope : Scope α} {inserts : List (String × α)} (holds : scope.Holds inserts)
    (name : String) (value : α) :
    Holds (Scope.insert name value scope) (inserts ++ [(name, value)]) where
  lookup other := by
    rw [lookup_insert, reverse_append, reverse_singleton, singleton_append,
      lookup_cons_ite, holds.lookup]
  mem other := by
    rw [names_insert, map_append, mem_append, ← holds.mem other]
    by_cases known : name ∈ scope.names
    · rw [if_pos known]
      constructor
      · exact .inl
      · rintro (old | new)
        · exact old
        · rw [mem_singleton.mp new]
          exact known
    · rw [if_neg known, mem_append]
      rfl
  order := by
    have kept : scope.names.Pairwise fun first second =>
        ((inserts ++ [(name, value)]).map Prod.fst).idxOf first <
          ((inserts ++ [(name, value)]).map Prod.fst).idxOf second := by
      refine holds.order.imp_of_mem fun {first second} firstIn secondIn less => ?_
      rw [map_append, idxOf_append, idxOf_append, if_pos ((holds.mem first).mp firstIn),
        if_pos ((holds.mem second).mp secondIn)]
      exact less
    rw [names_insert]
    by_cases known : name ∈ scope.names
    · rw [if_pos known]
      exact kept
    · rw [if_neg known]
      refine pairwise_append.mpr ⟨kept, pairwise_singleton .., ?_⟩
      intro other otherIn last lastIn
      obtain rfl := mem_singleton.mp lastIn
      have before := (holds.mem other).mp otherIn
      have unknown := mt (holds.mem last).mpr known
      rw [map_append, idxOf_append, idxOf_append, if_pos before, if_neg unknown]
      have within := idxOf_lt_length_iff.mpr before
      omega

/-- A scope binds no name twice. -/
theorem Holds.nodup (holds : scope.Holds inserts) : scope.names.Nodup := by
  refine holds.order.imp fun {first second} less same => ?_
  rw [same] at less
  exact Nat.lt_irrefl _ less

end Scope

namespace Scopes

variable {α : Type}

/-- A step that scopes can take. -/
inductive Step (α : Type) where
  | push
  | pop
  | insert (name : String) (value : α)
deriving DecidableEq

/-- The scopes behind a step. -/
def take (scopes : Scopes α) : Step α → Scopes α
  | .push => scopes.push
  | .pop => scopes.pop
  | .insert name value => scopes.insert name value

/-- The scopes behind any number of steps. -/
def run (scopes : Scopes α) (steps : List (Step α)) : Scopes α := steps.foldl take scopes

/-- The inserts into the open scopes behind a step, from the inside out. The outermost stays open. -/
def record (opened : List (List (String × α))) : Step α → List (List (String × α))
  | .push => [] :: opened
  | .pop =>
    match opened with
    | _ :: next :: rest => next :: rest
    | _ => opened
  | .insert name value =>
    match opened with
    | inserts :: outer => (inserts ++ [(name, value)]) :: outer
    | [] => []

/-- The inserts into the scopes open behind some steps. -/
def openInserts (steps : List (Step α)) : List (List (String × α)) := steps.foldl record [[]]

/-- Steps run one after the other. -/
theorem run_append (scopes : Scopes α) (first second : List (Step α)) :
    scopes.run (first ++ second) = (scopes.run first).run second :=
  foldl_append

/-- A step keeps the scopes in line with the record. -/
theorem holds_take {scopes : Scopes α} {opened : List (List (String × α))}
    (holds : List.Forall₂ Scope.Holds scopes.all opened) (step : Step α) :
    List.Forall₂ Scope.Holds (scopes.take step).all (record opened step) := by
  obtain ⟨current, outer⟩ := scopes
  obtain _ | ⟨here, around⟩ := holds
  cases step with
  | push => exact .cons Scope.holds_nil (.cons here around)
  | pop =>
    cases around with
    | nil => exact .cons here .nil
    | cons next rest => exact .cons next rest
  | insert name value => exact .cons (here.insert name value) around

/-- The scopes are in line with the record behind any steps. -/
theorem holds_run (steps : List (Step α)) :
    List.Forall₂ Scope.Holds (run empty steps).all (openInserts steps) := by
  have generally : ∀ (scopes : Scopes α) (opened : List (List (String × α))),
      List.Forall₂ Scope.Holds scopes.all opened →
        List.Forall₂ Scope.Holds (scopes.run steps).all (steps.foldl record opened) := by
    induction steps with
    | nil => exact fun _ _ holds => holds
    | cons step rest ih =>
      intro scopes opened holds
      exact ih _ _ (holds_take holds step)
  exact generally empty [[]] (.cons Scope.holds_nil .nil)

/-- No scope in line with the record binds a name twice. -/
theorem nodup_of_holds {list : List (Scope α)} {opened : List (List (String × α))}
    (holds : List.Forall₂ Scope.Holds list opened) : ∀ scope ∈ list, scope.names.Nodup := by
  induction holds with
  | nil => exact forall_mem_nil _
  | cons here _ ih => exact forall_mem_cons.mpr ⟨here.nodup, ih⟩

/-- The last insert of the name into the innermost scope that has it. -/
def LatestInsert (opened : List (List (String × α))) (name : String) (value : α) : Prop :=
  ∃ inner inserts outer, opened = inner ++ inserts :: outer ∧
    (∀ other ∈ inner, name ∉ other.map Prod.fst) ∧
    ∃ earlier later, inserts = earlier ++ (name, value) :: later ∧ name ∉ later.map Prod.fst

/-- A name without an entry is not found. -/
theorem lookup_eq_none {entries : List (String × α)} :
    entries.lookup name = none ↔ name ∉ entries.map Prod.fst := by
  rw [lookup_eq_none_iff, mem_map]
  constructor
  · rintro absent ⟨entry, member, same⟩
    have differs := absent entry member
    rw [same, bne_self_eq_false] at differs
    cases differs
  · intro absent entry member
    rw [bne_iff_ne]
    intro same
    exact absent ⟨entry, member, same.symm⟩

/-- In reversed order a name without an entry is not found. -/
theorem lookup_reverse_eq_none :
    inserts.reverse.lookup name = none ↔ name ∉ inserts.map Prod.fst := by
  rw [lookup_eq_none, map_reverse, mem_reverse]

/-- Reversed, the last insert is found first. -/
theorem lookup_reverse_eq_some {name : String} {value : α} {inserts : List (String × α)} :
    inserts.reverse.lookup name = some value ↔
      ∃ earlier later, inserts = earlier ++ (name, value) :: later ∧ name ∉ later.map Prod.fst := by
  rw [lookup_eq_some_iff]
  constructor
  · rintro ⟨front, back, split, absent⟩
    refine ⟨back.reverse, front.reverse, ?_, ?_⟩
    · rw [← reverse_reverse inserts, split]
      simp
    · rw [map_reverse, mem_reverse, ← lookup_eq_none, lookup_eq_none_iff]
      exact absent
  · rintro ⟨earlier, later, split, absent⟩
    refine ⟨later.reverse, earlier.reverse, ?_, ?_⟩
    · rw [split]
      simp
    · rw [← lookup_eq_none_iff]
      exact lookup_reverse_eq_none.mpr absent

variable {scopes : Scopes α} {opened : List (List (String × α))}

/-- Names are looked up in the record in the same order. -/
theorem findSome?_of_holds {list : List (Scope α)} (holds : List.Forall₂ Scope.Holds list opened)
    (name : String) :
    (list.findSome? fun scope => List.lookup name scope) =
      opened.findSome? fun inserts => inserts.reverse.lookup name := by
  induction holds with
  | nil => rfl
  | cons here _ ih => rw [findSome?_cons, findSome?_cons, here.lookup, ih]

/-- The latest insert is found. -/
theorem lookup?_eq_some (holds : List.Forall₂ Scope.Holds scopes.all opened) {name : String}
    {value : α} : scopes.lookup? name = some value ↔ LatestInsert opened name value := by
  rw [lookup?, findSome?_of_holds holds, findSome?_eq_some_iff]
  constructor
  · rintro ⟨inner, inserts, outer, split, found, absent⟩
    exact ⟨inner, inserts, outer, split, fun other member => lookup_reverse_eq_none.mp (absent other member),
      lookup_reverse_eq_some.mp found⟩
  · rintro ⟨inner, inserts, outer, split, absent, found⟩
    exact ⟨inner, inserts, outer, split, lookup_reverse_eq_some.mpr found,
      fun other member => lookup_reverse_eq_none.mpr (absent other member)⟩

/-- A name inserted nowhere is not found. -/
theorem lookup?_eq_none (holds : List.Forall₂ Scope.Holds scopes.all opened) :
    scopes.lookup? name = none ↔ ∀ inserts ∈ opened, name ∉ inserts.map Prod.fst := by
  rw [lookup?, findSome?_of_holds holds, findSome?_eq_none_iff]
  exact forall₂_congr fun inserts _ => lookup_reverse_eq_none

/-- The number of the scope, from the outside in, and of the insert where a name was first inserted.
-/
def firstInsert (name : String) : List (List (String × α)) → Nat × Nat
  | [] => (0, 0)
  | inserts :: inner =>
    if name ∈ inserts.map Prod.fst then (0, (inserts.map Prod.fst).idxOf name)
    else ((firstInsert name inner).1 + 1, (firstInsert name inner).2)

/-- Further out, or earlier in the same scope. -/
def Before (first second : Nat × Nat) : Prop :=
  first.1 < second.1 ∨ first.1 = second.1 ∧ first.2 < second.2

/-- Values left stand before the next if they first occur before. -/
theorem pairwise_eraseDups (names : List String) :
    names.eraseDups.Pairwise fun first second => names.idxOf first < names.idxOf second := by
  induction names using List.reverseRecOn with
  | nil => exact .nil
  | append_singleton names last ih =>
    have kept : names.eraseDups.Pairwise fun first second =>
        (names ++ [last]).idxOf first < (names ++ [last]).idxOf second := by
      refine ih.imp_of_mem fun {first second} firstIn secondIn less => ?_
      rw [idxOf_append, idxOf_append, if_pos (mem_eraseDups.mp firstIn),
        if_pos (mem_eraseDups.mp secondIn)]
      exact less
    rw [eraseDups_append]
    refine pairwise_append.mpr ⟨kept, ?_, ?_⟩
    · by_cases known : last ∈ names
      · simp [List.removeAll, known]
      · simp [List.removeAll, known, eraseDups_cons]
    · intro first firstIn second secondIn
      have member := mem_eraseDups.mp secondIn
      obtain ⟨single, fresh⟩ : second = last ∧ second ∉ names := by
        simpa [List.removeAll] using member
      have known := mem_eraseDups.mp firstIn
      have within := idxOf_lt_length_iff.mpr known
      rw [idxOf_append, idxOf_append, if_pos known, if_neg fresh]
      omega

/-- In a scope names stand in the order of first inserts. -/
theorem idxOf_lt_of_holds (holds : scope.Holds inserts) (known : second ∈ scope.names)
    (less : scope.names.idxOf first < scope.names.idxOf second) :
    (inserts.map Prod.fst).idxOf first < (inserts.map Prod.fst).idxOf second := by
  have bound := idxOf_lt_length_iff.mpr known
  have ordered := pairwise_iff_getElem.mp holds.order _ _ (Nat.lt_trans less bound) bound less
  rwa [getElem_idxOf, getElem_idxOf] at ordered

/-- Among scopes, one that comes first was inserted first. -/
theorem before_of_idxOf_lt {outward : List (Scope α)}
    (holds : List.Forall₂ Scope.Holds outward opened) (known : second ∈ outward.flatMap Scope.names)
    (less : (outward.flatMap Scope.names).idxOf first < (outward.flatMap Scope.names).idxOf second) :
    Before (firstInsert first opened) (firstInsert second opened) := by
  induction holds with
  | nil => cases known
  | @cons scope inserts inner others here _ ih =>
    rw [flatMap_cons] at known less
    rw [idxOf_append, idxOf_append] at less
    rw [firstInsert, firstInsert]
    by_cases firstIn : first ∈ scope.names
    · rw [if_pos firstIn] at less
      rw [if_pos ((here.mem first).mp firstIn)]
      by_cases secondIn : second ∈ scope.names
      · rw [if_pos secondIn] at less
        rw [if_pos ((here.mem second).mp secondIn)]
        exact .inr ⟨rfl, idxOf_lt_of_holds here secondIn less⟩
      · rw [if_neg (mt (here.mem second).mpr secondIn)]
        exact .inl (Nat.succ_pos _)
    · rw [if_neg firstIn] at less
      rw [if_neg (mt (here.mem first).mpr firstIn)]
      by_cases secondIn : second ∈ scope.names
      · rw [if_pos secondIn] at less
        have within := idxOf_lt_length_iff.mpr secondIn
        omega
      · rw [if_neg secondIn] at less
        rw [if_neg (mt (here.mem second).mpr secondIn)]
        have later := (mem_append.mp known).resolve_left secondIn
        rcases ih later (Nat.lt_of_add_lt_add_right less) with outer | ⟨same, earlier⟩
        · exact .inl (Nat.succ_lt_succ outer)
        · exact .inr ⟨congrArg Nat.succ same, earlier⟩

/-- Visible names are those that stand for something. -/
theorem mem_visibleNames (scopes : Scopes α) (name : String) :
    name ∈ scopes.visibleNames ↔ (scopes.lookup? name).isSome := by
  have bound (scope : Scope α) :
      name ∈ scope.map Prod.fst ↔ (List.lookup name scope).isSome = true := by
    rw [Option.isSome_iff_ne_none, ne_eq, lookup_eq_none, not_not]
  rw [visibleNames, mem_eraseDups, mem_flatMap, lookup?, findSome?_isSome_iff]
  simp only [mem_reverse, bound]

/-- Visible names are in the order of their first inserts, from the outside in. -/
theorem pairwise_visibleNames (holds : List.Forall₂ Scope.Holds scopes.all opened) :
    scopes.visibleNames.Pairwise fun first second =>
      Before (firstInsert first opened.reverse) (firstInsert second opened.reverse) := by
  have outward := forall₂_reverse_iff.mpr holds
  refine (pairwise_eraseDups _).imp_of_mem fun {first second} _ secondIn less => ?_
  exact before_of_idxOf_lt outward (mem_eraseDups.mp secondIn) less

/-- Each visible name is listed once. -/
theorem nodup_visibleNames (scopes : Scopes α) : scopes.visibleNames.Nodup := by
  refine (pairwise_eraseDups _).imp fun {first second} less same => ?_
  rw [same] at less
  exact Nat.lt_irrefl _ less

/-- The outermost scope. -/
def outermost (scopes : Scopes α) : Scope α := scopes.outer.getLastD scopes.current

/-- A step takes no name from the outermost scope. -/
theorem names_outermost_take (scopes : Scopes α) (step : Step α) :
    scopes.outermost.names <+: (scopes.take step).outermost.names := by
  obtain ⟨current, outer⟩ := scopes
  cases step with
  | push => cases outer <;> exact prefix_refl _
  | pop =>
    cases outer with
    | nil => exact prefix_refl _
    | cons next rest => cases rest <;> exact prefix_refl _
  | insert name value =>
    cases outer with
    | nil =>
      show current.names <+: (current.insert name value).names
      rw [Scope.names_insert]
      split
      · exact prefix_refl _
      · exact prefix_append _ _
    | cons next rest => exact prefix_refl _

/-- Names of the outermost scope stay. -/
theorem names_outermost_run (scopes : Scopes α) (steps : List (Step α)) :
    scopes.outermost.names <+: (scopes.run steps).outermost.names := by
  induction steps generalizing scopes with
  | nil => exact prefix_refl _
  | cons step rest ih => exact (scopes.names_outermost_take step).trans (ih _)

/-- The number of scopes open behind steps, from `depth` on; nothing if one of the others is left. -/
def depthBehind (depth : Nat) : List (Step α) → Option Nat
  | [] => some depth
  | .push :: rest => depthBehind (depth + 1) rest
  | .pop :: rest =>
    match depth with
    | 0 => none
    | depth + 1 => depthBehind depth rest
  | .insert _ _ :: rest => depthBehind depth rest

/-- The steps leave every scope that they enter and no other. -/
def Balanced (steps : List (Step α)) : Prop := depthBehind 0 steps = some 0

instance (steps : List (Step α)) : Decidable (Balanced steps) :=
  inferInstanceAs (Decidable (depthBehind 0 steps = some 0))

/-- Steps do not touch scopes that they do not leave. -/
theorem run_of_depthBehind {steps : List (Step α)} {current : Scope α} {inner outer : List (Scope α)}
    {depth : Nat} (stays : depthBehind inner.length steps = some depth) :
    ∃ last entered, run ⟨current, inner ++ outer⟩ steps = ⟨last, entered ++ outer⟩ ∧
      entered.length = depth := by
  induction steps generalizing current inner with
  | nil => exact ⟨current, inner, rfl, Option.some.inj stays⟩
  | cons step rest ih =>
    cases step with
    | push => exact @ih [] (current :: inner) stays
    | pop =>
      cases inner with
      | nil => cases stays
      | cons next others => exact @ih next others stays
    | insert name value => exact @ih (current.insert name value) inner stays

/-- Between entering and leaving a scope no trace is left. -/
theorem run_balanced (scopes : Scopes α) {steps : List (Step α)} (balanced : Balanced steps) :
    scopes.run (.push :: steps ++ [.pop]) = scopes := by
  obtain ⟨last, entered, inside, none⟩ :=
    @run_of_depthBehind α steps [] [] (scopes.current :: scopes.outer) 0 balanced
  obtain rfl := eq_nil_of_length_eq_zero none
  have opened : scopes.run (.push :: steps) = ⟨last, scopes.current :: scopes.outer⟩ := inside
  rw [run_append, opened]
  rfl

/-- Behind any steps from the outermost scope on: its names stay; no scope binds a name twice; a
name stands for the last insert into the innermost open scope that has it, or for nothing; the
visible names are those that stand for something, each once, by the outermost scope that has it and
the first insert there; and balanced steps between entering and leaving a scope change nothing. -/
theorem scopes_follow_inserts (steps : List (Step α)) :
    (∀ further, (run empty steps).outermost.names <+:
        (run empty (steps ++ further)).outermost.names) ∧
      (∀ scope ∈ (run empty steps).all, scope.names.Nodup) ∧
      (∀ name value, (run empty steps).lookup? name = some value ↔
        LatestInsert (openInserts steps) name value) ∧
      (∀ name, (run empty steps).lookup? name = none ↔
        ∀ inserts ∈ openInserts steps, name ∉ inserts.map Prod.fst) ∧
      (run empty steps).visibleNames.Nodup ∧
      (∀ name, name ∈ (run empty steps).visibleNames ↔ ((run empty steps).lookup? name).isSome) ∧
      ((run empty steps).visibleNames.Pairwise fun first second =>
        Before (firstInsert first (openInserts steps).reverse)
          (firstInsert second (openInserts steps).reverse)) ∧
      ∀ inside, Balanced inside →
        run empty (steps ++ (.push :: inside ++ [.pop])) = run empty steps := by
  have holds := holds_run steps
  refine ⟨?_, ?_, fun name value => lookup?_eq_some holds, fun name => lookup?_eq_none holds,
    nodup_visibleNames _, mem_visibleNames _, pairwise_visibleNames holds, ?_⟩
  · intro further
    rw [run_append]
    exact names_outermost_run _ further
  · exact nodup_of_holds holds
  · intro inside balanced
    rw [run_append]
    exact run_balanced _ balanced

/-- A name bound again inside stands for the inner value and keeps its place, and what a scope binds
is forgotten behind it. -/
theorem inner_time_hides_outer_time :
    let steps : List (Step Nat) :=
      [.insert "time" 1, .insert "position" 2, .pop, .push, .insert "color" 3, .insert "time" 4]
    let inside : List (Step Nat) := [.insert "color" 5, .push, .insert "time" 6, .pop]
    Balanced inside ∧ LatestInsert (openInserts steps) "time" 4 ∧
      (run empty steps).visibleNames = ["time", "position", "color"] ∧
        run empty (steps ++ (.push :: inside ++ [.pop])) = run empty steps := by
  intro steps inside
  obtain ⟨_, _, latest, _, _, _, _, restored⟩ := scopes_follow_inserts steps
  exact ⟨by decide, (latest "time" 4).mp (by decide), by decide, restored inside (by decide)⟩

end Scopes

end Shading
