import Mathlib.Data.Fintype.Card
import Mathlib.Data.List.Forall2
import Mathlib.Data.Set.Finite.List
import Mathlib.Logic.Relation
import Shading.Proofs.AnalysisReports
import Shading.Proofs.ScopeRuns
import Shading.Proofs.TypeSpellings

/-!
# Structs are resolved in rounds

A struct refers to the structs that the types of its fields name, directly or as elements of arrays. A
round defines every struct whose references are defined, until only structs are left that refer to one
another without end, and these are reported. If there are none, every struct is given its full type,
whatever the order of declarations.
-/

namespace Shading

open List WrittenType

variable {struct : Struct WrittenType} {other : String → Option Ty}
  {others : List (Struct WrittenType)}

/-- A definition is found, and other names as before. -/
theorem Typing.Context.lookup_define {α : Type} (definitions : List (String × α)) (name : String)
    (value : α) (other : String) : (define definitions name value).lookup other =
      if other = name then some value else definitions.lookup other := by
  unfold define
  induction definitions with
  | nil => exact lookup_cons_ite other name value []
  | cons first rest ih =>
    obtain ⟨bound, old⟩ := first
    rw [lookup_cons_ite, filter_cons]
    by_cases same : bound = name
    · rw [if_neg (by simp [same]), ih, same]
      split <;> rfl
    · rw [if_pos (by simp [same]), cons_append, lookup_cons_ite, ih]
      by_cases here : other = bound
      · rw [if_pos here, if_pos here, if_neg (here ▸ same)]
      · rw [if_neg here, if_neg here]

namespace Logged

variable {Entry α β : Type} {first : Logged Entry α}

/-- What is found silently goes on as if it had been there. -/
theorem bind_of_silent (silent : first.log = []) (next : α → Logged Entry β) :
    first >>= next = next first.value := by
  show Logged.mk _ (first.log ++ (next first.value).log) = _
  rw [silent]
  rfl

/-- Equal continuations go on alike. -/
theorem bind_congr {next other : α → Logged Entry β} (same : next first.value = other first.value) :
    first >>= next = first >>= other := by
  show Logged.mk (next first.value).value (first.log ++ (next first.value).log) = _
  rw [same]
  rfl

end Logged

namespace Analysis

open Relation (ReflTransGen TransGen)
open Typing (Context)

variable {first : Struct WrittenType}

/-! ### Going on without end -/

/-- Where each of finitely many things refers to one of them, a circle is reached. -/
theorem exists_circle {α : Type} {refers : α → α → Prop} {waiting : List α}
    (blocked : ∀ first ∈ waiting, ∃ second ∈ waiting, refers first second) :
    ∀ first ∈ waiting, ∃ other, ReflTransGen refers first other ∧ TransGen refers other other := by
  by_contra found
  push Not at found
  obtain ⟨first, member, free⟩ := found
  -- Those from which no circle is reached are finitely many, and references among them end.
  let Free := { thing // thing ∈ waiting ∧ ∀ other, ReflTransGen refers thing other →
    ¬ TransGen refers other other }
  have finite : Finite Free := (waiting.finite_toSet.subset fun _ inside => inside.1).to_subtype
  let behind (left right : Free) : Prop := TransGen refers right.1 left.1
  have : IsTrans Free behind := ⟨fun _ _ _ before after => after.trans before⟩
  have : Std.Irrefl behind := ⟨fun thing => thing.2.2 _ .refl⟩
  obtain ⟨last, -, ends⟩ := (Finite.wellFounded_of_trans_of_irrefl behind).has_min Set.univ
    ⟨⟨first, member, free⟩, trivial⟩
  obtain ⟨next, listed, step⟩ := blocked last.1 last.2.1
  have nextFree : ∀ other, ReflTransGen refers next other → ¬ TransGen refers other other :=
    fun other path => last.2.2 other (path.head step)
  exact ends ⟨next, listed, nextFree⟩ trivial (.single step)

/-! ### Types that name structs -/

/-- The name of a struct, or an array of what mentions it. -/
inductive Mentions (name : String) : WrittenType → Prop where
  | struct {span : Span} (free : Ty.isBuiltinName name = false) : Mentions name (.mk name [] span)
  | array {element : WrittenType} {span : Span} (inside : Mentions name element) :
      Mentions name (.mk "array" [.type element] span)
  | sized {element : WrittenType} {size : Nat} {span : Span} (positive : 0 < size)
      (inside : Mentions name element) : Mentions name (.mk "array" [.type element, .size size] span)

/-- What a written type stands for: a builtin type for itself, a name for its struct in `types`, an
array for an array. -/
inductive Denotes (types : String → Option Ty) : WrittenType → Ty → Prop where
  | builtin {written : WrittenType} {type : Ty} (always : ∀ named, written.resolve named = .ok type) :
      Denotes types written type
  | struct {name : String} {type : Ty} {span : Span} (free : Ty.isBuiltinName name = false)
      (declared : types name = some type) : Denotes types (.mk name [] span) type
  | array {element : WrittenType} {type : Ty} {span : Span} (inside : Denotes types element type) :
      Denotes types (.mk "array" [.type element] span) (.array type none)
  | sized {element : WrittenType} {type : Ty} {size : Nat} {span : Span} (positive : 0 < size)
      (inside : Denotes types element type) :
      Denotes types (.mk "array" [.type element, .size size] span) (.array type (some size))

/-- Spelled with builtin types and structs of the names. -/
def Spelled (names : List String) (written : WrittenType) : Prop :=
  ∃ type, Denotes (fun name => if name ∈ names then some (.struct name []) else none) written type

/-- The structs that are not defined yet. -/
def undefinedIn (context : Context) (structs : List (Struct WrittenType)) : List (Struct WrittenType) :=
  structs.filter fun struct => (context.struct? struct.name).isNone

section Meaning

variable {types : String → Option Ty} {context : Context} {written : WrittenType} {type : Ty}
  {name : String}

/-- What the names of structs without arguments stand for. -/
abbrev namedBy (types : String → Option Ty) (written : WrittenType) : Option Ty :=
  if written.arguments.isEmpty then types written.name else none

/-- A type that is resolved mentions only defined structs. -/
theorem Mentions.isSome_of_resolve (mentions : Mentions name written)
    (resolved : written.resolve (namedBy types) = .ok type) : (types name).isSome := by
  induction mentions generalizing type with
  | @struct span free =>
    simp only [WrittenType.resolve, WrittenType.resolveArgument,
      resolveBuiltin_of_free free] at resolved
    cases found : types name with
    | some type => rfl
    | none =>
      have unknown : namedBy types (.mk name [] span) = none := found
      rw [unknown] at resolved
      cases resolved
  | @array element span inside ih =>
    rw [resolve_array] at resolved
    cases found : element.resolve (namedBy types) with
    | ok inner => exact ih found
    | error error =>
      rw [found] at resolved
      cases resolved
  | @sized element size span positive inside ih =>
    rw [resolve_sized _ positive] at resolved
    cases found : element.resolve (namedBy types) with
    | ok inner => exact ih found
    | error error =>
      rw [found] at resolved
      cases resolved

/-- A written type is resolved as what it stands for. -/
theorem Denotes.resolve (denotes : Denotes types written type) :
    written.resolve (namedBy types) = .ok type := by
  induction denotes with
  | builtin always => exact always _
  | struct free declared => exact resolve_declared free declared
  | array inside ih =>
    rw [resolve_array, ih]
    rfl
  | sized positive inside ih =>
    rw [resolve_sized _ positive, ih]
    rfl

/-- It depends on the mentioned structs alone. -/
theorem Denotes.congr (denotes : Denotes types written type)
    (agrees : ∀ name, Mentions name written → ∀ type, types name = some type → other name = some type) :
    Denotes other written type := by
  induction denotes with
  | builtin always => exact .builtin always
  | struct free declared => exact .struct free (agrees _ (.struct free) _ declared)
  | array inside ih =>
    exact .array (ih fun name mentions => agrees name (.array mentions))
  | sized positive inside ih =>
    exact .sized positive (ih fun name mentions => agrees name (.sized positive mentions))

/-- A spelled type stands for a type or is refused for a struct that is not defined. -/
theorem Denotes.denotes_or_refused (denotes : Denotes types written type) (context : Context) :
    (∃ type, Denotes context.struct? written type) ∨
      ∃ name span, (types name).isSome ∧ Mentions name written ∧ context.struct? name = none ∧
        written.resolve (namedBy context.struct?) = .error (.unknown (.mk name [] span)) := by
  induction denotes with
  | builtin always => exact .inl ⟨_, .builtin always⟩
  | @struct name type span free declared =>
    cases found : context.struct? name with
    | some type => exact .inl ⟨type, .struct free found⟩
    | none =>
      refine .inr ⟨name, span, by rw [declared]; rfl, .struct free, found, ?_⟩
      have unknown : namedBy context.struct? (.mk name [] span) = none := found
      simp [WrittenType.resolve, WrittenType.resolveArgument,
        resolveBuiltin_of_free free, unknown, bind, Except.bind]
  | array inside ih =>
    rcases ih with ⟨type, denotes⟩ | ⟨name, span, known, mentions, missing, refused⟩
    · exact .inl ⟨_, .array denotes⟩
    · refine .inr ⟨name, span, known, .array mentions, missing, ?_⟩
      rw [resolve_array, refused]
      rfl
  | sized positive inside ih =>
    rcases ih with ⟨type, denotes⟩ | ⟨name, span, known, mentions, missing, refused⟩
    · exact .inl ⟨_, .sized positive denotes⟩
    · refine .inr ⟨name, span, known, .sized positive mentions, missing, ?_⟩
      rw [resolve_sized _ positive, refused]
      rfl

/-- A spelled type is resolved as what it stands for, or waits. -/
theorem resolution_spelled {structs : List (Struct WrittenType)} {waiting : List String}
    (spelled : Spelled (structs.map Struct.name) written)
    (waits : ∀ struct ∈ undefinedIn context structs, struct.name ∈ waiting) :
    (∃ type, resolution context waiting written = .resolved type ∧
        Denotes context.struct? written type) ∨
      resolution context waiting written = .pending ∧
        ∃ next ∈ undefinedIn context structs, Mentions next.name written := by
  obtain ⟨_, denotes⟩ := spelled
  have named : context.named? = namedBy context.struct? := rfl
  rw [resolution, named]
  rcases denotes.denotes_or_refused context with
    ⟨type, stands⟩ | ⟨name, span, known, mentions, missing, refused⟩
  · rw [stands.resolve]
    exact .inl ⟨type, rfl, stands⟩
  · have listed : name ∈ structs.map Struct.name := by
      by_contra unlisted
      rw [if_neg unlisted] at known
      cases known
    obtain ⟨next, member, rfl⟩ := mem_map.mp listed
    have unfinished : next ∈ undefinedIn context structs :=
      mem_filter.mpr ⟨member, by rw [missing]; rfl⟩
    have waited : waiting.contains next.name = true := contains_iff_mem.mpr (waits next unfinished)
    rw [refused]
    refine .inr ⟨?_, next, unfinished, mentions⟩
    simp only [WrittenType.arguments, WrittenType.name, isEmpty_nil, Bool.true_and, waited, if_true]

end Meaning

/-! ### What structs stand for -/

/-- A struct with the first field of each name, in order. -/
def StandsFor (types : String → Option Ty) (struct : Struct WrittenType) (type : Ty) : Prop :=
  ∃ entries : List (String × Ty),
    List.Forall₂ (fun slot entry => entry.1 = slot.name ∧ Denotes types slot.ascription entry.2)
        struct.fields entries ∧
      type = .struct struct.name (entries.eraseDupsBy fun later first => later.1 == first.1)

/-- What a struct stands for depends on the mentioned structs. -/
theorem StandsFor.congr {types : String → Option Ty} {type : Ty}
    (stands : StandsFor types struct type)
    (agrees : ∀ field ∈ struct.fields, ∀ name, Mentions name field.ascription →
      ∀ type, types name = some type → other name = some type) : StandsFor other struct type := by
  obtain ⟨entries, each, same⟩ := stands
  refine ⟨entries, ?_, same⟩
  rw [forall₂_iff_zip] at each ⊢
  refine ⟨each.1, fun member => ?_⟩
  obtain ⟨named, denotes⟩ := each.2 member
  exact ⟨named, denotes.congr (agrees _ (of_mem_zip member).1)⟩

/-- Then each field stands for a type. -/
theorem StandsFor.denotes {types : String → Option Ty} {type : Ty}
    (stands : StandsFor types struct type) :
    ∀ field ∈ struct.fields, ∃ type, Denotes types field.ascription type := by
  obtain ⟨entries, each, -⟩ := stands
  generalize struct.fields = fields at each
  induction each with
  | nil => exact forall_mem_nil _
  | cons first _ ih => exact forall_mem_cons.mpr ⟨⟨_, first.2⟩, ih⟩

/-- Names and later entries can be left out in either order. -/
theorem filter_eraseDupsBy (name : String) : (entries : List (String × Ty)) →
    (entries.eraseDupsBy fun later first => later.1 == first.1).filter (·.1 ≠ name) =
      (entries.filter (·.1 ≠ name)).eraseDupsBy fun later first => later.1 == first.1
  | [] => rfl
  | first :: rest => by
    have ih := filter_eraseDupsBy name
      (rest.filter fun later => decide ((later.1 == first.1) = false))
    rw [eraseDupsBy_cons, filter_cons, filter_cons, ih, filter_filter]
    by_cases same : first.1 = name
    · rw [if_neg (by simp [same]), if_neg (by simp [same])]
      congr 1
      refine filter_congr fun later _ => ?_
      simp [same]
    · rw [if_pos (by simp [same]), if_pos (by simp [same]), eraseDupsBy_cons, filter_filter]
      simp only [Bool.and_comm]
  termination_by entries => entries.length
  decreasing_by exact Nat.lt_succ_of_le (length_filter_le _ _)

/-- Resolved fields stand for their types. -/
theorem resolvedFields_eq {context : Context} {waiting : List String} {fields : List (Slot WrittenType)}
    (each : ∀ field ∈ fields, ∃ type, resolution context waiting field.ascription = .resolved type ∧
      Denotes context.struct? field.ascription type) :
    ∃ entries : List (String × Ty),
      List.Forall₂ (fun slot entry => entry.1 = slot.name ∧
          Denotes context.struct? slot.ascription entry.2) fields entries ∧
        resolvedFields (fields.map fun field => (field, resolution context waiting field.ascription)) =
          entries.eraseDupsBy fun later first => later.1 == first.1 := by
  induction fields with
  | nil => exact ⟨[], .nil, rfl⟩
  | cons first rest ih =>
    obtain ⟨⟨type, resolved, denotes⟩, others⟩ := forall_mem_cons.mp each
    obtain ⟨entries, stand, same⟩ := ih others
    refine ⟨(first.name, type) :: entries, .cons ⟨rfl, denotes⟩ stand, ?_⟩
    rw [map_cons, resolved, resolvedFields, same, filter_eraseDupsBy, eraseDupsBy_cons]
    simp only [beq_eq_false_iff_ne]

/-! ### References among structs -/

/-- The first struct has a field that mentions the second. -/
def Refers (structs : List (Struct WrittenType)) (first second : String) : Prop :=
  ∃ struct ∈ structs, struct.name = first ∧ ∃ field ∈ struct.fields, Mentions second field.ascription

/-- A struct that contains itself is reached from the name. -/
def LeadsToCircle (structs : List (Struct WrittenType)) (name : String) : Prop :=
  ∃ other, ReflTransGen (Refers structs) name other ∧ TransGen (Refers structs) other other

/-- Structs of different names, spelled with builtin types and these structs. -/
structure Declarable (structs : List (Struct WrittenType)) : Prop where
  distinct : (structs.map Struct.name).Nodup
  spelled : ∀ struct ∈ structs, ∀ field ∈ struct.fields,
    Spelled (structs.map Struct.name) field.ascription

/-- What leads to a circle refers to something that does. -/
theorem LeadsToCircle.next {structs : List (Struct WrittenType)} {name : String}
    (leads : LeadsToCircle structs name) : ∃ next, Refers structs name next ∧ LeadsToCircle structs next := by
  obtain ⟨other, path, circle⟩ := leads
  rcases path.cases_head with rfl | ⟨next, step, path⟩
  · obtain ⟨next, step, path⟩ := TransGen.head'_iff.mp circle
    exact ⟨next, step, name, path, circle⟩
  · exact ⟨next, step, other, path, circle⟩

/-- Defined structs stand for their types, and none that leads to a circle is defined. -/
structure Settled (structs : List (Struct WrittenType)) (context : Context) : Prop where
  stands : ∀ struct ∈ structs, ∀ type, context.struct? struct.name = some type →
    StandsFor context.struct? struct type
  circles : ∀ struct ∈ structs, LeadsToCircle structs struct.name → context.struct? struct.name = none

section Rounds

variable {structs : List (Struct WrittenType)} {context : Context} {waiting : List String}

/-- A struct is found once defined. -/
theorem struct?_defineStruct (struct : Struct WrittenType)
    (fields : List (Slot WrittenType × Resolution)) (name : String) :
    (defineStruct context struct fields).struct? name =
      if name = struct.name then some (.struct struct.name (resolvedFields fields))
      else context.struct? name :=
  Context.lookup_define ..

/-- A struct that does not wait is defined as what it stands for. -/
theorem defineStruct_settles (declarable : Declarable structs) (settled : Settled structs context)
    (member : first ∈ structs) (new : context.struct? first.name = none)
    (each : ∀ field ∈ first.fields, ∃ type,
      resolution context waiting field.ascription = .resolved type ∧
        Denotes context.struct? field.ascription type) :
    Settled structs (defineStruct context first (resolveFields context waiting first)) := by
  obtain ⟨entries, stand, same⟩ := resolvedFields_eq each
  have grows : ∀ name type, context.struct? name = some type →
      (defineStruct context first (resolveFields context waiting first)).struct? name = some type := by
    intro name type found
    rw [struct?_defineStruct, if_neg, found]
    rintro rfl
    rw [new] at found
    cases found
  constructor
  · intro struct inside type found
    rw [struct?_defineStruct] at found
    by_cases here : struct.name = first.name
    · obtain rfl := inj_on_of_nodup_map declarable.distinct inside member here
      rw [if_pos rfl, resolveFields, same] at found
      exact StandsFor.congr ⟨entries, stand, (Option.some.inj found).symm⟩ fun _ _ name _ => grows name
    · rw [if_neg here] at found
      exact (settled.stands struct inside type found).congr fun _ _ name _ => grows name
  · intro struct inside leads
    rw [struct?_defineStruct, if_neg]
    · exact settled.circles struct inside leads
    · -- The first struct refers to defined structs alone, and these lead to no circle.
      intro here
      obtain ⟨next, ⟨struct, inside, named, field, listed, mentions⟩, leads⟩ := leads.next
      obtain rfl := inj_on_of_nodup_map declarable.distinct inside member (named.trans here)
      obtain ⟨type, _, denotes⟩ := each field listed
      have defined := mentions.isSome_of_resolve denotes.resolve
      obtain ⟨_, ⟨struct, inside, rfl, _⟩, _⟩ := leads.next
      rw [settled.circles struct inside leads] at defined
      cases defined

/-- Once one is defined, the others are left. -/
theorem undefinedIn_defineStruct (declarable : Declarable structs)
    {before rest : List (Struct WrittenType)}
    (opens : before ++ first :: rest = undefinedIn context structs)
    (fields : List (Slot WrittenType × Resolution)) :
    before ++ rest = undefinedIn (defineStruct context first fields) structs := by
  have left : undefinedIn (defineStruct context first fields) structs =
      (undefinedIn context structs).filter (·.name ≠ first.name) := by
    unfold undefinedIn
    rw [filter_filter]
    refine filter_congr fun struct _ => ?_
    rw [struct?_defineStruct]
    by_cases here : struct.name = first.name
    · simp [here]
    · simp [here]
  have distinct : ((before ++ first :: rest).map Struct.name).Nodup := by
    rw [opens]
    exact declarable.distinct.sublist (filter_sublist.map _)
  rw [map_append, map_cons, nodup_middle, nodup_cons, ← map_append] at distinct
  have others : ∀ struct ∈ before ++ rest, struct.name ≠ first.name := fun struct member same =>
    distinct.1 (same ▸ mem_map_of_mem member)
  rw [left, ← opens, filter_append, filter_cons_of_neg (by simp), ← filter_append]
  exact (filter_eq_self.mpr fun struct member => decide_eq_true (others struct member)).symm

/-- A round leaves at most the structs that it is given. -/
theorem length_structRound_le (waiting : List String) (context : Context)
    (rest : List (Struct WrittenType)) :
    (structRound waiting context rest).value.2.length ≤ rest.length := by
  induction rest generalizing context with
  | nil => exact Nat.le_refl 0
  | cons first rest ih =>
    unfold structRound
    dsimp only
    split
    · exact Nat.succ_le_succ (ih context)
    · exact Nat.le_succ_of_le (ih _)

/-- A round is silent and defines structs as what they stand for. If it defines none, each refers to
one not defined. -/
theorem structRound_settles (declarable : Declarable structs) {before rest : List (Struct WrittenType)}
    (settled : Settled structs context) (opens : before ++ rest = undefinedIn context structs)
    (waits : ∀ struct ∈ before ++ rest, struct.name ∈ waiting) :
    (structRound waiting context rest).log = [] ∧
      Settled structs (structRound waiting context rest).value.1 ∧
      before ++ (structRound waiting context rest).value.2 =
        undefinedIn (structRound waiting context rest).value.1 structs ∧
      ((structRound waiting context rest).value.2.length = rest.length →
        (structRound waiting context rest).value.1 = context ∧
          ∀ struct ∈ rest, ∃ next ∈ undefinedIn context structs,
            Refers structs struct.name next.name) := by
  induction rest generalizing before context with
  | nil => exact ⟨rfl, settled, opens, fun _ => ⟨rfl, forall_mem_nil _⟩⟩
  | cons first rest ih =>
    have listed : first ∈ undefinedIn context structs := opens ▸ by simp
    obtain ⟨member, new⟩ := mem_filter.mp listed
    have spelled (field : Slot WrittenType) (inside : field ∈ first.fields) :=
      resolution_spelled (declarable.spelled first member field inside)
        (fun struct unfinished => waits struct (opens ▸ unfinished))
    unfold structRound
    dsimp only
    split
    · rename_i pending
      obtain ⟨⟨field, found⟩, listed, pending⟩ := any_eq_true.mp pending
      obtain ⟨slot, inside, same⟩ := mem_map.mp listed
      cases same
      have refers : ∃ next ∈ undefinedIn context structs, Refers structs first.name next.name := by
        rcases spelled _ inside with ⟨type, resolved, _⟩ | ⟨_, next, unfinished, mentions⟩
        · rw [resolved] at pending
          cases pending
        · exact ⟨next, unfinished, first, member, rfl, _, inside, mentions⟩
      obtain ⟨silent, settled, opens, stuck⟩ := @ih _ (before ++ [first]) settled
        (by rw [← opens, append_assoc]; rfl) (by simpa using waits)
      refine ⟨?_, settled, by simpa using opens, fun same => ?_⟩
      · rw [Logged.log_bind, silent]
        rfl
      · obtain ⟨unchanged, others⟩ := stuck (Nat.succ.inj same)
        exact ⟨unchanged, forall_mem_cons.mpr ⟨refers, others⟩⟩
    · rename_i ready
      have each : ∀ field ∈ first.fields, ∃ type,
          resolution context waiting field.ascription = .resolved type ∧
            Denotes context.struct? field.ascription type := by
        intro field inside
        refine (spelled field inside).resolve_right fun waits => ready ?_
        exact any_eq_true.mpr ⟨_, mem_map_of_mem inside, by rw [waits.1]; rfl⟩
      have reports : ((resolveFields context waiting first).flatMap fun found =>
          found.2.reports context found.1.ascription) = [] := by
        refine flatMap_eq_nil_iff.mpr fun found listed => ?_
        obtain ⟨field, inside, rfl⟩ := mem_map.mp listed
        obtain ⟨type, resolved, _⟩ := each field inside
        rw [resolved]
        rfl
      have shorter := length_structRound_le waiting
        (defineStruct context first (resolveFields context waiting first)) rest
      obtain ⟨silent, settled, opens, _⟩ := @ih _ before
        (defineStruct_settles declarable settled member (Option.isNone_iff_eq_none.mp new) each)
        (undefinedIn_defineStruct declarable opens _)
        (fun struct inside => waits struct (mem_append.mpr
          ((mem_append.mp inside).imp id (mem_cons_of_mem first))))
      refine ⟨?_, settled, opens, fun same => ?_⟩
      · rw [Logged.log_bind, silent]
        exact (append_nil _).trans reports
      · exact absurd (same ▸ shorter) (Nat.not_succ_le_self _)

/-- The report that a struct contains itself. -/
abbrev circleReport (struct : Struct WrittenType) : Diagnostic := selfContainment struct.name struct.span

/-- Structs that wait are reported, and definitions stay. -/
theorem defineCyclic_reports (waiting : List String) (context : Context)
    (rest : List (Struct WrittenType)) :
    (defineCyclic waiting context rest).log = rest.map circleReport ∧
      ∀ name, name ∉ rest.map Struct.name →
        (defineCyclic waiting context rest).value.struct? name = context.struct? name := by
  induction rest generalizing context with
  | nil => exact ⟨rfl, fun _ _ => rfl⟩
  | cons first rest ih =>
    obtain ⟨reports, kept⟩ :=
      ih (defineStruct context first (resolveFields context waiting first))
    refine ⟨congrArg (circleReport first :: ·) reports, fun name other => ?_⟩
    rw [map_cons, mem_cons, not_or] at other
    exact (kept name other.2).trans ((struct?_defineStruct ..).trans (if_neg other.1))

open Classical in
/-- The structs that lead to a circle, in declared order. -/
noncomputable def leading (structs : List (Struct WrittenType)) : List (Struct WrittenType) :=
  structs.filter fun struct => LeadsToCircle structs struct.name

/-- Leading structs lead to a circle. -/
theorem mem_leading :
    struct ∈ leading structs ↔ struct ∈ structs ∧ LeadsToCircle structs struct.name := by
  simp [leading]

/-- The structs that lead to a circle are reported, and all others defined. -/
structure Resolves (structs : List (Struct WrittenType)) (outcome : Logged Diagnostic Context) : Prop where
  reports : outcome.log = (leading structs).map circleReport
  defined : ∀ struct ∈ structs, ¬ LeadsToCircle structs struct.name →
    ∃ type, outcome.value.struct? struct.name = some type ∧ StandsFor outcome.value.struct? struct type

/-- Where no struct is left, all are resolved. -/
theorem Settled.resolves (settled : Settled structs context) (opens : undefinedIn context structs = []) :
    Resolves structs ⟨context, []⟩ := by
  have all (struct : Struct WrittenType) (member : struct ∈ structs) :
      ∃ type, context.struct? struct.name = some type := by
    have found := filter_eq_nil_iff.mp opens struct member
    cases known : context.struct? struct.name with
    | some type => exact ⟨type, rfl⟩
    | none => exact absurd (by rw [known]; rfl) found
  constructor
  · have none : leading structs = [] := by
      refine eq_nil_iff_forall_not_mem.mpr fun struct listed => ?_
      obtain ⟨member, leads⟩ := mem_leading.mp listed
      obtain ⟨type, found⟩ := all struct member
      rw [settled.circles struct member leads] at found
      cases found
    rw [none]
    rfl
  · intro struct member _
    obtain ⟨type, found⟩ := all struct member
    exact ⟨type, found, settled.stands struct member type found⟩

/-- If each struct left refers to another, all lead to a circle. -/
theorem Settled.resolves_circles (settled : Settled structs context)
    (stuck : ∀ struct ∈ undefinedIn context structs, ∃ next ∈ undefinedIn context structs,
      Refers structs struct.name next.name) (waiting : List String) :
    Resolves structs (defineCyclic waiting context (undefinedIn context structs)) := by
  have circle := @exists_circle _ (Refers structs) ((undefinedIn context structs).map Struct.name) (by
    intro name listed
    obtain ⟨struct, unfinished, rfl⟩ := mem_map.mp listed
    obtain ⟨next, nextUnfinished, refers⟩ := stuck struct unfinished
    exact ⟨next.name, mem_map_of_mem nextUnfinished, refers⟩)
  have leads (struct : Struct WrittenType) (member : struct ∈ structs) :
      context.struct? struct.name = none ↔ LeadsToCircle structs struct.name := by
    refine ⟨fun new => circle _ (mem_map_of_mem (mem_filter.mpr ⟨member, ?_⟩)),
      settled.circles struct member⟩
    rw [new]
    rfl
  have same : undefinedIn context structs = leading structs := by
    classical
    refine filter_congr fun struct member => ?_
    rw [Bool.eq_iff_iff, Option.isNone_iff_eq_none, decide_eq_true_iff, leads struct member]
  obtain ⟨reports, kept⟩ := defineCyclic_reports waiting context (undefinedIn context structs)
  refine ⟨by rw [reports, same], fun struct member free => ?_⟩
  -- What is defined in front of the circles is defined behind them.
  have grows : ∀ name type, context.struct? name = some type →
      (defineCyclic waiting context (undefinedIn context structs)).value.struct? name = some type := by
    intro name type found
    rw [kept, found]
    intro listed
    obtain ⟨struct, unfinished, rfl⟩ := mem_map.mp listed
    have new := (mem_filter.mp unfinished).2
    rw [found] at new
    cases new
  cases found : context.struct? struct.name with
  | none => exact absurd ((leads struct member).mp found) free
  | some type =>
    exact ⟨type, grows _ _ found,
      (settled.stands struct member type found).congr fun _ _ name _ => grows name⟩

/-- As many rounds as structs resolve them. -/
theorem defineStructs_resolves (declarable : Declarable structs) {bound : Nat}
    (settled : Settled structs context) (enough : (undefinedIn context structs).length ≤ bound) :
    Resolves structs (defineStructs bound context (undefinedIn context structs)) := by
  induction bound generalizing context with
  | zero => exact settled.resolves (length_eq_zero_iff.mp (Nat.le_zero.mp enough))
  | succ bound ih =>
    unfold defineStructs
    split
    · rename_i empty
      exact settled.resolves (isEmpty_iff.mp empty)
    · obtain ⟨silent, settledAfter, opens, stuck⟩ := @structRound_settles structs context
        ((undefinedIn context structs).map Struct.name) declarable [] (undefinedIn context structs)
        settled rfl (fun struct unfinished => mem_map_of_mem unfinished)
      have shorter := length_structRound_le ((undefinedIn context structs).map Struct.name) context
        (undefinedIn context structs)
      rw [nil_append] at opens
      dsimp only
      rw [Logged.bind_of_silent silent]
      rw [opens] at shorter stuck ⊢
      split
      · rename_i same
        obtain ⟨unchanged, refers⟩ := stuck same
        rw [unchanged]
        exact settled.resolves_circles refers _
      · exact ih settledAfter (by omega)

/-- The rounds end by themselves. -/
theorem defineStructs_eq {pending : List (Struct WrittenType)} {bound other : Nat}
    (enough : pending.length ≤ bound) (otherEnough : pending.length ≤ other) :
    defineStructs bound context pending = defineStructs other context pending := by
  induction bound generalizing context pending other with
  | zero =>
    obtain rfl := length_eq_zero_iff.mp (Nat.le_zero.mp enough)
    cases other <;> rfl
  | succ bound ih =>
    cases other with
    | zero =>
      obtain rfl := length_eq_zero_iff.mp (Nat.le_zero.mp otherEnough)
      rfl
    | succ other =>
      have shorter := length_structRound_le (pending.map Struct.name) context pending
      unfold defineStructs
      split
      · rfl
      · refine Logged.bind_congr ?_
        dsimp only
        split
        · rfl
        · exact ih (by omega) (by omega)

/-- Structs of different names are all kept. -/
theorem distinctStructs_eq {seen : List String} (distinct : (structs.map Struct.name).Nodup)
    (unseen : ∀ struct ∈ structs, struct.name ∉ seen) : distinctStructs seen structs = structs := by
  induction structs generalizing seen with
  | nil => rfl
  | cons first rest ih =>
    obtain ⟨new, others⟩ := forall_mem_cons.mp unseen
    obtain ⟨unique, distinct⟩ := nodup_cons.mp distinct
    rw [distinctStructs, if_neg (by simpa using new), ih distinct]
    intro struct member
    rw [mem_cons, not_or]
    exact ⟨fun same => unique (same ▸ mem_map_of_mem member), others struct member⟩

/-- Before the first round nothing is defined. -/
theorem settled_empty (structs : List (Struct WrittenType)) : Settled structs .empty where
  stands _ _ _ found := by cases found
  circles _ _ _ := rfl

/-- A field with the type that it has in a context. -/
abbrev typedField (context : Context) (slot : Slot WrittenType) : Slot Typed.DeclaredType :=
  { attributes := slot.attributes, name := slot.name
    ascription := declaredSilently context slot.ascription, span := slot.span }

/-- A struct with the types of its fields in a context. -/
abbrev typedStruct (context : Context) (struct : Struct WrittenType) : Struct Typed.DeclaredType :=
  { name := struct.name, fields := struct.fields.map (typedField context), span := struct.span }

/-- Structs are resolved in rounds; else only fields as such are reported. -/
theorem collectStructs_eq {program : Surface.Program}
    (distinct : ((Surface.structs program).map Struct.name).Nodup) :
    let outcome := defineStructs (Surface.structs program).length .empty (Surface.structs program)
    collectStructs program .empty =
      ⟨((Surface.structs program).map (typedStruct outcome.value), outcome.value),
        (Surface.structs program).flatMap fieldReports ++ outcome.log⟩ := by
  intro outcome
  have all := distinctStructs_eq distinct (fun struct _ => not_mem_nil)
  unfold collectStructs
  rw [all]
  show Logged.mk _ (_ ++ (_ ++ [])) = _
  rw [append_nil]
  rfl

/-- All structs are resolved. -/
theorem defineStructs_resolves_all (declarable : Declarable structs) :
    Resolves structs (defineStructs structs.length .empty structs) := by
  have all : undefinedIn .empty structs = structs := filter_eq_self.mpr fun _ _ => rfl
  have resolves := @defineStructs_resolves _ _ declarable structs.length (settled_empty structs)
    (by rw [all])
  rwa [all] at resolves

/-- Every struct that leads to a circle is reported once, in declared order, as one that contains
itself, and no other is. Else only the fields as such are reported. -/
theorem circles_are_reported (program : Surface.Program)
    (declarable : Declarable (Surface.structs program)) :
    (collectStructs program .empty).log =
      (Surface.structs program).flatMap fieldReports ++
        (leading (Surface.structs program)).map fun struct => selfContainment struct.name struct.span := by
  rw [collectStructs_eq declarable.distinct, (defineStructs_resolves_all declarable).reports]

/-- A field that stands nowhere in particular. -/
abbrev plainField (name : String) (ascription : WrittenType) : Slot WrittenType :=
  ⟨[], name, ascription, default⟩

/-- A struct in front of a circle, and the circle. -/
def lineage : Surface.Program :=
  [.struct ⟨"Child", [plainField "parent" (.mk "Parent" [] default)], default⟩,
    .struct ⟨"Parent", [plainField "parent" (.mk "Parent" [] default)], default⟩]

/-- The structs of that program are declarable. -/
theorem declarable_lineage : Declarable (Surface.structs lineage) where
  distinct := by decide
  spelled := by
    have parent : Spelled ["Child", "Parent"] (.mk "Parent" [] default) :=
      ⟨_, .struct (by decide) (if_pos (by decide))⟩
    simpa [lineage, Surface.structs] using parent

/-- Only the struct before the circle and the one inside are reported. -/
theorem lineage_is_reported : Declarable (Surface.structs lineage) ∧
    (collectStructs lineage .empty).log =
      [selfContainment "Child" default, selfContainment "Parent" default] := by
  have refers (struct : Struct WrittenType) (member : struct ∈ Surface.structs lineage) :
      Refers (Surface.structs lineage) struct.name "Parent" := by
    refine ⟨struct, member, rfl, plainField "parent" (.mk "Parent" [] default), ?_, .struct (by decide)⟩
    revert struct
    simp [lineage, Surface.structs]
  have leads (struct : Struct WrittenType) (member : struct ∈ Surface.structs lineage) :
      LeadsToCircle (Surface.structs lineage) struct.name :=
    ⟨"Parent", .single (refers struct member), .single (refers _ (mem_cons_of_mem _ (.head _)))⟩
  have all : leading (Surface.structs lineage) = Surface.structs lineage :=
    filter_eq_self.mpr fun struct member => by simpa using leads struct member
  refine ⟨declarable_lineage, ?_⟩
  rw [circles_are_reported lineage declarable_lineage, all]
  rfl

/-- A struct that does not contain itself is reported. -/
theorem child_is_reported : Declarable (Surface.structs lineage) ∧
    ¬ TransGen (Refers (Surface.structs lineage)) "Child" "Child" ∧
      selfContainment "Child" default ∈ (collectStructs lineage .empty).log := by
  refine ⟨declarable_lineage, fun circle => ?_, ?_⟩
  · have parents : ∀ struct ∈ Surface.structs lineage, ∀ slot ∈ struct.fields,
        slot.ascription = .mk "Parent" [] default := by simp [lineage, Surface.structs]
    obtain ⟨_, _, struct, member, _, slot, inside, mentions⟩ := TransGen.tail'_iff.mp circle
    have named : Denotes (fun name => if name = "Parent" then some (.sampler false) else none)
        slot.ascription (.sampler false) :=
      parents struct member slot inside ▸ .struct (by decide) (if_pos rfl)
    exact absurd (mentions.isSome_of_resolve named.resolve) (by decide)
  · exact .head _

/-! ### Structs without circles -/

/-- A spelled type mentions structs of the names. -/
theorem Spelled.mem_of_mentions {names : List String} {written : WrittenType} {name : String}
    (spelled : Spelled names written) (mentions : Mentions name written) : name ∈ names := by
  obtain ⟨type, denotes⟩ := spelled
  have known := mentions.isSome_of_resolve denotes.resolve
  by_contra unlisted
  rw [if_neg unlisted] at known
  cases known

/-- A struct stands for one type. -/
theorem StandsFor.unique {types : String → Option Ty} {first second : Ty}
    (stands : StandsFor types struct first) (other : StandsFor types struct second) :
    first = second := by
  obtain ⟨entries, each, rfl⟩ := stands
  obtain ⟨others, otherEach, rfl⟩ := other
  have unique : Relator.RightUnique fun (slot : Slot WrittenType) (entry : String × Ty) =>
      entry.1 = slot.name ∧ Denotes types slot.ascription entry.2 := by
    rintro slot ⟨name, type⟩ ⟨otherName, otherType⟩ ⟨rfl, denotes⟩ ⟨rfl, otherDenotes⟩
    have same : type = otherType := Except.ok.inj (denotes.resolve.symm.trans otherDenotes.resolve)
    rw [same]
  rw [unique.forall₂ each otherEach]

/-- Without circles, what structs stand for is determined. -/
theorem types_unique (declarable : Declarable structs)
    (free : ∀ struct ∈ structs, ¬ LeadsToCircle structs struct.name) {first second : String → Option Ty}
    (stands : ∀ struct ∈ structs, ∃ type, first struct.name = some type ∧ StandsFor first struct type)
    (others : ∀ struct ∈ structs, ∃ type, second struct.name = some type ∧ StandsFor second struct type) :
    ∀ struct ∈ structs, first struct.name = second struct.name := by
  classical
  let differing := (structs.map Struct.name).filter fun name => first name ≠ second name
  -- A struct that stands for two types refers to another one, so it would lead to a circle.
  have circle := @exists_circle _ (Refers structs) differing (by
    intro name listed
    obtain ⟨known, differs⟩ := mem_filter.mp listed
    obtain ⟨struct, member, rfl⟩ := mem_map.mp known
    by_contra alone
    push Not at alone
    obtain ⟨type, found, stands⟩ := stands struct member
    obtain ⟨other, otherFound, otherStands⟩ := others struct member
    have agrees : StandsFor second struct type := by
      refine stands.congr fun field inside name mentions type found => ?_
      by_contra different
      have known := (declarable.spelled struct member field inside).mem_of_mentions mentions
      refine alone name (mem_filter.mpr ⟨known, decide_eq_true fun same => different ?_⟩)
        ⟨struct, member, rfl, field, inside, mentions⟩
      rw [← same, found]
    refine of_decide_eq_true differs ?_
    rw [found, otherFound, agrees.unique otherStands])
  intro struct member
  by_contra differs
  exact free struct member (circle _ (mem_filter.mpr
    ⟨mem_map_of_mem member, decide_eq_true differs⟩))

/-- Declarable structs stay so in any order. -/
theorem Declarable.perm (declarable : Declarable structs) (same : others.Perm structs) :
    Declarable others where
  distinct := (same.map _).nodup_iff.mpr declarable.distinct
  spelled struct member field inside := by
    obtain ⟨type, denotes⟩ := declarable.spelled struct (same.mem_iff.mp member) field inside
    refine ⟨type, denotes.congr fun name _ type found => ?_⟩
    rw [← found]
    simp only [(same.map Struct.name).mem_iff]

/-- The order does not matter for references. -/
theorem Refers.perm (same : others.Perm structs) {first second : String}
    (refers : Refers others first second) : Refers structs first second := by
  obtain ⟨struct, member, rest⟩ := refers
  exact ⟨struct, same.mem_iff.mp member, rest⟩

/-- Structs without circles are resolved in any order of declarations: each name is bound to one
type, that of the first field of each name in declared order, every field has the type that its
spelling stands for, and only the fields as such are reported. The rounds end by themselves. -/
theorem structs_resolve_in_any_order (declarable : Declarable structs)
    (acyclic : ∀ struct ∈ structs, ¬ TransGen (Refers structs) struct.name struct.name) :
    ∃ types : String → Option Ty,
      (∀ struct ∈ structs, ∃ type, types struct.name = some type ∧ StandsFor types struct type) ∧
        ∀ program : Surface.Program, (Surface.structs program).Perm structs →
          (∀ report ∈ (collectStructs program .empty).log,
              report.code = .emptyStruct ∨ report.code = .duplicateField) ∧
            (∀ struct ∈ structs,
              (collectStructs program .empty).value.2.struct? struct.name = types struct.name) ∧
            List.Forall₂ (fun struct typed => typed.name = struct.name ∧
                List.Forall₂ (fun field typed => typed.name = field.name ∧
                    ∃ type, typed.ascription.resolved = some type ∧ Denotes types field.ascription type)
                  struct.fields typed.fields)
              (Surface.structs program) (collectStructs program .empty).value.1 ∧
            ∀ bound ≥ structs.length, defineStructs bound .empty (Surface.structs program) =
              defineStructs structs.length .empty (Surface.structs program) := by
  have free (others : List (Struct WrittenType)) (same : others.Perm structs) :
      ∀ struct ∈ others, ¬ LeadsToCircle others struct.name := by
    rintro struct - ⟨other, -, circle⟩
    have around := TransGen.mono (fun _ _ => Refers.perm same) _ _ circle
    obtain ⟨_, ⟨struct, member, rfl, _⟩, _⟩ := TransGen.head'_iff.mp around
    exact acyclic struct member around
  have solved (others : List (Struct WrittenType)) (same : others.Perm structs) :=
    (defineStructs_resolves_all (declarable.perm same)).defined
  refine ⟨(defineStructs structs.length .empty structs).value.struct?,
    fun struct member => solved _ (.refl _) struct member (free _ (.refl _) struct member), ?_⟩
  intro program same
  have stands := fun struct member => solved _ same struct member (free _ same struct member)
  have agrees := types_unique declarable (free _ (.refl _))
    (fun struct member => stands struct (same.mem_iff.mpr member))
    (fun struct member => solved _ (.refl _) struct member (free _ (.refl _) struct member))
  rw [collectStructs_eq (declarable.perm same).distinct]
  refine ⟨?_, agrees, ?_, fun bound enough => defineStructs_eq (same.length_eq ▸ enough) same.length_eq.le⟩
  · have none : leading (Surface.structs program) = [] :=
      eq_nil_iff_forall_not_mem.mpr fun struct listed =>
        free _ same struct (mem_leading.mp listed).1 (mem_leading.mp listed).2
    rw [(defineStructs_resolves_all (declarable.perm same)).reports, none, map_nil, append_nil]
    intro report listed
    obtain ⟨struct, _, inside⟩ := mem_flatMap.mp listed
    have among : AllAmong fieldCodes (fun _ => True) (fieldReports struct) :=
      fieldReports_among ⟨trivial, fun _ _ => ⟨trivial, trivial⟩⟩
    simpa using (among report inside).code
  · dsimp only
    rw [forall₂_map_right_iff, forall₂_same]
    intro struct member
    refine ⟨rfl, ?_⟩
    obtain ⟨_, _, whole⟩ := stands struct member
    rw [forall₂_map_right_iff, forall₂_same]
    intro field inside
    obtain ⟨type, denotes⟩ := whole.denotes field inside
    refine ⟨rfl, type, ?_, denotes.congr fun name mentions type found => ?_⟩
    · exact congrArg Except.toOption denotes.resolve
    · obtain ⟨other, member, rfl⟩ := mem_map.mp
        (((declarable.perm same).spelled struct member field inside).mem_of_mentions mentions)
      rw [← agrees other (same.mem_iff.mp member), found]

end Rounds

/-- A scene and its lights are resolved in either order. -/
theorem scene_resolves_in_front_of_lights :
    let light : Struct WrittenType := ⟨"Light", [plainField "power" (.mk "f32" [] default)], default⟩
    let scene : Struct WrittenType := ⟨"Scene",
      [plainField "lights" (.mk "array" [.type (.mk "Light" [] default), .size 4] default)], default⟩
    Declarable [scene, light] ∧
      (∀ struct ∈ [scene, light],
        ¬ TransGen (Refers [scene, light]) struct.name struct.name) ∧
      (collectStructs [.struct scene, .struct light] .empty).value.2.struct? "Scene" =
        (collectStructs [.struct light, .struct scene] .empty).value.2.struct? "Scene" := by
  intro light scene
  have power (types : String → Option Ty) : Denotes types (.mk "f32" [] default) (.scalar .f32) :=
    .builtin fun _ => resolve_scalar .f32 default
  have lights {types : String → Option Ty} {type : Ty} (known : types "Light" = some type) :
      Denotes types (.mk "array" [.type (.mk "Light" [] default), .size 4] default) (.array type (some 4)) :=
    .sized (by decide) (.struct (by decide) known)
  have declarable : Declarable [scene, light] := by
    constructor
    · decide
    · have spelled : Spelled ["Scene", "Light"] _ ∧ Spelled ["Scene", "Light"] _ :=
        ⟨⟨_, lights (if_pos (by decide))⟩, ⟨_, power _⟩⟩
      simpa [scene, light] using spelled
  -- Light refers to nothing, and Scene to Light alone.
  have step : ∀ first second, Refers [scene, light] first second → first = "Scene" ∧ second = "Light" := by
    rintro first second ⟨struct, member, rfl, slot, inside, mentions⟩
    simp only [scene, light, mem_cons, not_mem_nil, or_false] at member
    rcases member with rfl | rfl
    · obtain rfl := mem_singleton.mp inside
      have known := mentions.isSome_of_resolve
        (@lights (fun name => if name = "Light" then some (.sampler false) else none) _ (if_pos rfl)).resolve
      by_contra other
      rw [if_neg fun same => other ⟨rfl, same⟩] at known
      cases known
    · obtain rfl := mem_singleton.mp inside
      cases mentions.isSome_of_resolve (power fun _ => none).resolve
  have acyclic : ∀ struct ∈ [scene, light], ¬ TransGen (Refers [scene, light]) struct.name struct.name := by
    intro struct _ circle
    obtain ⟨_, first, _⟩ := TransGen.head'_iff.mp circle
    obtain ⟨_, _, last⟩ := TransGen.tail'_iff.mp circle
    exact absurd ((step _ _ first).1.symm.trans (step _ _ last).2) (by decide)
  obtain ⟨types, _, any⟩ := structs_resolve_in_any_order declarable acyclic
  refine ⟨declarable, acyclic, ?_⟩
  rw [(any [.struct scene, .struct light] (.refl _)).2.1 scene (by simp),
    (any [.struct light, .struct scene] (.swap ..)).2.1 scene (by simp)]

end Analysis

end Shading
