import Mathlib.Data.List.Forall2
import Mathlib.Data.Prod.Lex
import Shading.Proofs.EntryPoints
import Shading.Proofs.SingleLines

/-!
# Source maps are exact

The text of a program has a landmark for each struct, uniform, function and statement. The source map of
generated code has one mapping for each landmark, in order: it tells the line and the column at which
the landmark's text starts, and its place in the source. What is looked up for a line is the mapping of
the last landmark that starts on it or before it.
-/

namespace Shading

open List

open Typed (DeclaredType)

variable {mapping : Mapping} {map : SourceMap} {line : Nat}

namespace Mapping

/-- Where a mapping stands in the code, line before column. -/
def place (mapping : Mapping) : ℕ ×ₗ ℕ := toLex (mapping.generatedLine, mapping.generatedColumn)

/-- Places are compared. -/
theorem notBehind_iff (first second : Mapping) :
    first.notBehind second = true ↔ first.place ≤ second.place := by
  simp [notBehind, place, Prod.Lex.toLex_le_toLex]

end Mapping

namespace SourceMap

/-- Of no mappings none is furthest. -/
theorem furthest?_eq_none {mappings : List Mapping} : furthest? mappings = none ↔ mappings = [] := by
  cases mappings with
  | nil => exact ⟨fun _ => rfl, fun _ => rfl⟩
  | cons first rest =>
    refine ⟨fun none => ?_, nofun⟩
    rw [furthest?] at none
    split at none
    · split at none <;> cases none
    · cases none

/-- It has the greatest place, and those behind it smaller ones. -/
def IsFurthest (mappings : List Mapping) (mapping : Mapping) : Prop :=
  ∃ before after, mappings = before ++ mapping :: after ∧
    (∀ earlier ∈ before, earlier.place ≤ mapping.place) ∧ ∀ later ∈ after, later.place < mapping.place

/-- What is found is furthest. -/
theorem isFurthest_of_furthest? {mappings : List Mapping}
    (found : furthest? mappings = some mapping) : IsFurthest mappings mapping := by
  induction mappings generalizing mapping with
  | nil => cases found
  | cons first rest ih =>
    rw [furthest?] at found
    split at found
    · rename_i last lastFound
      obtain ⟨before, after, rfl, earlier, later⟩ := ih lastFound
      split at found
      · rename_i ahead
        cases found
        refine ⟨first :: before, after, rfl, ?_, later⟩
        exact forall_mem_cons.mpr ⟨(first.notBehind_iff mapping).mp ahead, earlier⟩
      · rename_i behind
        cases found
        have less : last.place < first.place :=
          lt_of_not_ge fun ahead => behind ((first.notBehind_iff last).mpr ahead)
        refine ⟨[], _, rfl, forall_mem_nil _, forall_mem_append.mpr ⟨?_, ?_⟩⟩
        · exact fun one member => lt_of_le_of_lt (earlier one member) less
        · exact forall_mem_cons.mpr ⟨less, fun one member => (later one member).trans less⟩
    · rename_i empty
      cases found
      rw [furthest?_eq_none.mp empty]
      exact ⟨[], [], rfl, forall_mem_nil _, forall_mem_nil _⟩

/-- The mapping that is found is the furthest one. -/
theorem furthest?_eq_some {mappings : List Mapping} :
    furthest? mappings = some mapping ↔ IsFurthest mappings mapping := by
  refine ⟨isFurthest_of_furthest?, ?_⟩
  rintro ⟨before, after, rfl, earlier, later⟩
  induction before with
  | nil =>
    rw [nil_append, furthest?]
    split
    · rename_i last found
      obtain ⟨front, back, rfl, _⟩ := isFurthest_of_furthest? found
      have less := later last (mem_append_right _ mem_cons_self)
      exact if_neg fun ahead => not_le_of_gt less ((mapping.notBehind_iff last).mp ahead)
    · rfl
  | cons first rest ih =>
    obtain ⟨here, others⟩ := forall_mem_cons.mp earlier
    rw [cons_append, furthest?, ih others]
    exact if_pos ((first.notBehind_iff mapping).mpr here)

/-- Mappings are added at the end. -/
theorem mappings_foldl_add (map : SourceMap) (added : List Mapping) :
    (added.foldl add map).mappings = map.mappings ++ added := by
  induction added generalizing map with
  | nil => exact (append_nil _).symm
  | cons first rest ih =>
    rw [foldl_cons, ih, add, append_assoc, singleton_append]

/-- Nothing is found if all mappings are behind the line. -/
theorem lookup?_eq_none :
    map.lookup? line = none ↔ ∀ mapping ∈ map.mappings, line < mapping.generatedLine := by
  rw [lookup?, furthest?_eq_none, filter_eq_nil_iff]
  simp

/-- The furthest mapping on or before a line is found. -/
theorem lookup?_eq_some :
    map.lookup? line = some mapping ↔ mapping.generatedLine ≤ line ∧
      ∃ before after, map.mappings = before ++ mapping :: after ∧
        (∀ earlier ∈ before, earlier.generatedLine ≤ line → earlier.place ≤ mapping.place) ∧
        ∀ later ∈ after, later.generatedLine ≤ line → later.place < mapping.place := by
  rw [lookup?, furthest?_eq_some]
  constructor
  · rintro ⟨before, after, split, earlier, later⟩
    obtain ⟨front, back, whole, rfl, backFiltered⟩ := filter_eq_append_iff.mp split
    obtain ⟨skipped, rest, rfl, none, near, rfl⟩ := filter_eq_cons_iff.mp backFiltered
    refine ⟨of_decide_eq_true near, front ++ skipped, rest, by rw [whole, append_assoc], ?_, ?_⟩
    · refine forall_mem_append.mpr ⟨fun one member close => ?_, fun one member close => ?_⟩
      · exact earlier one (mem_filter.mpr ⟨member, decide_eq_true close⟩)
      · exact absurd (decide_eq_true close) (none one member)
    · exact fun one member close => later one (mem_filter.mpr ⟨member, decide_eq_true close⟩)
  · rintro ⟨near, before, after, whole, earlier, later⟩
    have kept : (mapping :: after).filter (fun mapping => mapping.generatedLine ≤ line) =
        mapping :: after.filter fun mapping => mapping.generatedLine ≤ line :=
      filter_cons_of_pos (decide_eq_true near)
    have split := filter_append (p := fun mapping => mapping.generatedLine ≤ line) before
      (mapping :: after)
    rw [← whole, kept] at split
    refine ⟨_, _, split, ?_, ?_⟩
    · intro one member
      obtain ⟨inside, close⟩ := mem_filter.mp member
      exact earlier one inside (of_decide_eq_true close)
    · intro one member
      obtain ⟨inside, close⟩ := mem_filter.mp member
      exact later one inside (of_decide_eq_true close)

/-- On ascending lines it is the last one there. -/
theorem lookup?_eq_getLast? (ascending : map.mappings.Pairwise fun first second =>
    first.generatedLine < second.generatedLine) (line : Nat) :
    map.lookup? line =
      (map.mappings.filter fun mapping => mapping.generatedLine ≤ line).getLast? := by
  rw [lookup?]
  have below := ascending.filter fun mapping => mapping.generatedLine ≤ line
  generalize map.mappings.filter (fun mapping => mapping.generatedLine ≤ line) = near at below
  rcases eq_nil_or_concat' near with rfl | ⟨before, last, rfl⟩
  · rfl
  · rw [getLast?_concat, furthest?_eq_some]
    refine ⟨before, [], rfl, fun earlier member => ?_, forall_mem_nil _⟩
    have less := (pairwise_append.mp below).2.2 earlier member last mem_cons_self
    exact Prod.Lex.toLex_le_toLex.mpr (.inl less)

/-- On ascending lines the first mapping comes first. -/
theorem all_after_iff {mappings : List Mapping} (ascending : mappings.Pairwise fun first second =>
    first.generatedLine < second.generatedLine) (line : Nat) :
    (∀ mapping ∈ mappings, line < mapping.generatedLine) ↔
      ∀ first ∈ mappings.head?, line < first.generatedLine := by
  refine ⟨fun after first member => after first (mem_of_head? member), fun after => ?_⟩
  cases mappings with
  | nil => exact forall_mem_nil _
  | cons first rest =>
    have here := after first rfl
    have later := (pairwise_cons.mp ascending).1
    exact forall_mem_cons.mpr ⟨here, fun mapping member => here.trans (later mapping member)⟩

end SourceMap

namespace SourceText

/-- Divides characters at newlines, which belong to no piece. -/
def segments : List Char → List (List Char)
  | [] => [[]]
  | character :: rest =>
    if character = '\n' then [] :: segments rest
    else match segments rest with
      | [] => [[character]]
      | first :: others => (character :: first) :: others

/-- A line end divides a text. -/
theorem segments_line {front : List Char} (single : '\n' ∉ front) (rest : List Char) :
    segments (front ++ '\n' :: rest) = front :: segments rest := by
  induction front with
  | nil => rfl
  | cons first others ih =>
    obtain ⟨other, later⟩ := not_or.mp (mt mem_cons.mpr single)
    rw [cons_append, segments, if_neg (Ne.symm other), ih later]

end SourceText

namespace PrintedLine

/-- The line as it stands in the code, without its end. -/
def shown (line : PrintedLine) : List Char :=
  List.replicate (line.indent * indentWidth) ' ' ++ line.text.toList

/-- A line of code is shown with a newline. -/
theorem toList_code (line : PrintedLine) : line.code.toList = line.shown ++ ['\n'] := by
  simp [code, shown]

/-- Mappings of joined lines are numbered on. -/
theorem mappings_append (number : Nat) (front back : List PrintedLine) :
    mappings number (front ++ back) = mappings number front ++ mappings (number + front.length) back := by
  induction front generalizing number with
  | nil => rfl
  | cons first rest ih =>
    rw [cons_append, mappings, mappings, ih, append_assoc, length_cons,
      Nat.add_assoc, Nat.add_comm 1]

/-- Lines of unknown origin have no mappings. -/
theorem mappings_eq_nil {lines : List PrintedLine} (unknown : ∀ line ∈ lines, line.origin = none)
    (number : Nat) : mappings number lines = [] := by
  induction lines generalizing number with
  | nil => rfl
  | cons first rest ih =>
    obtain ⟨here, later⟩ := forall_mem_cons.mp unknown
    rw [mappings, mapping?, here, ih later]
    rfl

/-- The lines of mappings ascend. -/
theorem mappings_ascend (number : Nat) (lines : List PrintedLine) :
    (∀ mapping ∈ mappings number lines, number ≤ mapping.generatedLine) ∧
      (mappings number lines).Pairwise fun first second =>
        first.generatedLine < second.generatedLine := by
  induction lines generalizing number with
  | nil => exact ⟨forall_mem_nil _, .nil⟩
  | cons first rest ih =>
    obtain ⟨above, ascending⟩ := ih (number + 1)
    rw [mappings]
    cases mapped : first.mapping? number with
    | none => exact ⟨fun mapping member => Nat.le_of_succ_le (above mapping member), ascending⟩
    | some mapping =>
      have here : mapping.generatedLine = number := by
        obtain ⟨origin, _, rfl⟩ := Option.map_eq_some_iff.mp mapped
        rfl
      rw [Option.toList_some, singleton_append]
      constructor
      · refine forall_mem_cons.mpr ⟨Nat.le_of_eq here.symm, fun later member => ?_⟩
        exact Nat.le_of_succ_le (above later member)
      · refine .cons (fun later member => ?_) ascending
        rw [here]
        exact above later member

end PrintedLine

/-- The lines that are printed are the lines of the code. -/
theorem Printed.segments_code {lines : List PrintedLine} (single : AllSingle lines) :
    SourceText.segments (code lines).toList = lines.map PrintedLine.shown ++ [[]] := by
  induction lines with
  | nil => rfl
  | cons first rest ih =>
    obtain ⟨here, later⟩ := forall_mem_cons.mp single
    have whole : '\n' ∉ first.shown := by
      rw [PrintedLine.shown, mem_append, not_or]
      exact ⟨fun member => absurd (eq_of_mem_replicate member) (by decide), here⟩
    rw [code_cons, String.toList_append, first.toList_code, append_assoc, singleton_append,
      SourceText.segments_line whole, ih later, map_cons, cons_append]

/-- What a mapping is made for. -/
inductive Landmark where
  | struct (declared : Struct DeclaredType)
  | uniform (declared : Uniform DeclaredType)
  | function (declared : Function Typed.Expr DeclaredType)
  | statement (depth : Nat) (inner : Statement Typed.Expr DeclaredType)

namespace Landmark

/-- Where the landmark stands in the source. -/
def span : Landmark → Span
  | .struct declared => declared.span
  | .uniform declared => declared.span
  | .function declared => declared.span
  | .statement _ inner => inner.span

/-- The name that is declared there. -/
def name? : Landmark → Option String
  | .struct declared => some declared.name
  | .uniform declared => some declared.name
  | .function declared => some declared.name
  | .statement _ (.letBinding name ..) => some name
  | .statement _ (.varBinding name ..) => some name
  | .statement .. => none

/-- Number of levels by which its text is indented. -/
def depth : Landmark → Nat
  | .statement depth _ => depth
  | _ => 0

/-- The lines that are printed for it. -/
def lines : Landmark → List PrintedLine
  | .struct declared => Printed.struct declared
  | .uniform declared => Printed.uniform declared
  | .function declared => Printed.function declared
  | .statement depth inner => Printed.statement depth inner

/-- Comment lines before its own: a uniform has one. -/
def lead : Landmark → Nat
  | .uniform _ => 1
  | _ => 0

mutual

/-- A statement and, behind it, the statements in its blocks. -/
def ofStatement (depth : Nat) : Statement Typed.Expr DeclaredType → List Landmark
  | .block inner opening closing span =>
    .statement depth (.block inner opening closing span) :: ofStatements (depth + 1) inner
  | other => [.statement depth other]

/-- Statements, each followed by those in its blocks. -/
def ofStatements (depth : Nat) : List (Statement Typed.Expr DeclaredType) → List Landmark
  | [] => []
  | first :: rest => ofStatement depth first ++ ofStatements depth rest

end

/-- A function and, behind it, the statements of its body. -/
def ofFunction (declared : Function Typed.Expr DeclaredType) : List Landmark :=
  .function declared :: ofStatements 1 declared.body.statements

/-- Structs, uniforms, and functions with their statements. -/
def ofProgram (program : Typed.Program) : List Landmark :=
  program.structs.map .struct ++ program.uniforms.map .uniform ++
    program.functions.flatMap ofFunction

/-- It is printed among lines, and mapped from its first line behind the comment to its place in the
source. -/
def Prints (all : List PrintedLine) (landmark : Landmark) (mapping : Mapping) : Prop :=
  ∃ above below, all = above ++ (landmark.lines ++ below) ∧
    mapping = .toSpan (above.length + landmark.lead + 1)
      (landmark.depth * PrintedLine.indentWidth + 1) landmark.span landmark.name?

/-- Wherever lines stand, their mappings are of landmarks. -/
def Mapped (landmarks : List Landmark) (block : List PrintedLine) : Prop :=
  ∀ above below : List PrintedLine, List.Forall₂ (Prints (above ++ (block ++ below))) landmarks
    (PrintedLine.mappings (above.length + 1) block)

namespace Mapped

variable {landmarks more : List Landmark} {block rest : List PrintedLine}

/-- Lines without origin have no landmarks. -/
theorem silent (unknown : ∀ line ∈ block, line.origin = none) : Mapped [] block := by
  intro above below
  rw [PrintedLine.mappings_eq_nil unknown]
  exact .nil

/-- Landmarks are joined with lines. -/
theorem append (mapped : Mapped landmarks block) (later : Mapped more rest) :
    Mapped (landmarks ++ more) (block ++ rest) := by
  intro above below
  have first := mapped above (rest ++ below)
  have second := later (above ++ block) below
  rw [append_assoc] at second
  rw [length_append, Nat.add_right_comm] at second
  rw [PrintedLine.mappings_append, append_assoc]
  exact rel_append first second

/-- Items are mapped one by one. -/
theorem flatMap {Item : Type} {items : List Item} {marks : Item → List Landmark}
    {print : Item → List PrintedLine} (mapped : ∀ item, Mapped (marks item) (print item)) :
    Mapped (items.flatMap marks) (items.flatMap print) := by
  induction items with
  | nil => exact silent (forall_mem_nil _)
  | cons first others ih => exact (mapped first).append ih

/-- A comment, a line of its own, and lines with landmarks. -/
theorem headed (landmark : Landmark) (comment : List PrintedLine) {text : String}
    (whole : landmark.lines = comment ++
      ⟨landmark.depth, text, some (landmark.span, landmark.name?)⟩ :: rest)
    (unknown : ∀ line ∈ comment, line.origin = none) (lead : comment.length = landmark.lead)
    (inner : Mapped more rest) : Mapped (landmark :: more) landmark.lines := by
  intro above below
  have own := inner (above ++ comment ++ [⟨landmark.depth, text, some (landmark.span, landmark.name?)⟩])
    below
  rw [append_assoc, append_assoc, singleton_append, ← cons_append,
    ← append_assoc comment, ← whole, length_append, length_append,
    length_singleton] at own
  rw [whole, PrintedLine.mappings_append, PrintedLine.mappings_eq_nil unknown, nil_append,
    PrintedLine.mappings, ← whole, Nat.add_right_comm]
  refine .cons ⟨above, below, rfl, ?_⟩ own
  rw [← lead]

/-- A landmark that is printed as one line. -/
theorem single (landmark : Landmark) {text : String}
    (whole : landmark.lines = [⟨landmark.depth, text, some (landmark.span, landmark.name?)⟩])
    (lead : landmark.lead = 0) : Mapped [landmark] landmark.lines :=
  headed landmark [] whole (forall_mem_nil _) lead.symm (silent (forall_mem_nil _))

/-- A closing brace has no mapping. -/
theorem closed (mapped : Mapped landmarks block) (indent : Nat) :
    Mapped landmarks (block ++ [⟨indent, "\x7d", none⟩]) := by
  have brace : Mapped [] [⟨indent, "\x7d", none⟩] := silent (by simp)
  have both := mapped.append brace
  rwa [append_nil] at both

end Mapped

/-- Structs are mapped. -/
theorem mapped_struct (declared : Struct DeclaredType) :
    Mapped [.struct declared] (Printed.struct declared) := by
  refine Mapped.headed (.struct declared) [] rfl (forall_mem_nil _) rfl
    (Mapped.silent (forall_mem_append.mpr ⟨?_, ?_⟩))
  · rw [forall_mem_map]
    exact fun _ _ => rfl
  · simp [PrintedLine.blank]

/-- Uniforms are mapped. -/
theorem mapped_uniform (declared : Uniform DeclaredType) :
    Mapped [.uniform declared] (Printed.uniform declared) :=
  Mapped.headed (.uniform declared) [_] rfl (by simp) rfl (Mapped.silent (forall_mem_nil _))

mutual

/-- Statements are mapped. -/
theorem mapped_statement (depth : Nat) : (inner : Statement Typed.Expr DeclaredType) →
    Mapped (ofStatement depth inner) (Printed.statement depth inner)
  | .letBinding .. => Mapped.single (.statement depth (.letBinding ..)) rfl rfl
  | .varBinding .. => Mapped.single (.statement depth (.varBinding ..)) rfl rfl
  | .assignment .. => Mapped.single (.statement depth (.assignment ..)) rfl rfl
  | .returning (some _) _ => Mapped.single (.statement depth (.returning (some _) _)) rfl rfl
  | .returning none _ => Mapped.single (.statement depth (.returning none _)) rfl rfl
  | .evaluation .. => Mapped.single (.statement depth (.evaluation ..)) rfl rfl
  | .block statements opening closing span =>
    Mapped.headed (.statement depth (.block statements opening closing span)) [] rfl
      (forall_mem_nil _) rfl ((mapped_statements (depth + 1) statements).closed depth)

/-- Lists of statements are mapped. -/
theorem mapped_statements (depth : Nat) : (statements : List (Statement Typed.Expr DeclaredType)) →
    Mapped (ofStatements depth statements) (Printed.statements depth statements)
  | [] => Mapped.silent (forall_mem_nil _)
  | first :: rest => (mapped_statement depth first).append (mapped_statements depth rest)

end

/-- Functions are mapped. -/
theorem mapped_function (declared : Function Typed.Expr DeclaredType) :
    Mapped (ofFunction declared) (Printed.function declared) :=
  Mapped.headed (.function declared) [] rfl (forall_mem_nil _) rfl
    ((mapped_statements 1 declared.body.statements).closed 0)

/-- Lists of functions are mapped. -/
theorem mapped_functions (declared : List (Function Typed.Expr DeclaredType)) :
    Mapped (declared.flatMap ofFunction) (Printed.functions declared) := by
  induction declared with
  | nil => exact Mapped.silent (forall_mem_nil _)
  | cons first rest ih =>
    cases rest with
    | nil =>
      rw [flatMap_singleton]
      exact mapped_function first
    | cons second others =>
      have blank : Mapped [] [PrintedLine.blank] := Mapped.silent (by simp [PrintedLine.blank])
      exact (mapped_function first).append (blank.append ih)

/-- The mappings of a program are those of its landmarks. -/
theorem mapped_program (program : Typed.Program) :
    Mapped (ofProgram program) (Printed.program program) := by
  have structs : Mapped (program.structs.map .struct) (program.structs.flatMap Printed.struct) := by
    rw [map_eq_flatMap]
    exact Mapped.flatMap mapped_struct
  have uniforms : Mapped (program.uniforms.map .uniform)
      (program.uniforms.flatMap Printed.uniform) := by
    rw [map_eq_flatMap]
    exact Mapped.flatMap mapped_uniform
  have blank : Mapped [] (if program.uniforms.isEmpty then [] else [PrintedLine.blank]) := by
    refine Mapped.silent ?_
    split <;> simp [PrintedLine.blank]
  have all := ((structs.append uniforms).append blank).append (mapped_functions program.functions)
  rwa [append_nil] at all

/-- The mapping leads from the place where the text of a landmark starts to its place in the source.
-/
structure MappedBy (code : List (List Char)) (landmark : Landmark) (mapping : Mapping) : Prop where
  /-- The lines of the landmark stand in the code, with the mapping's line behind the comment. -/
  stands : ∃ above below, code = above ++ (landmark.lines.map PrintedLine.shown ++ below) ∧
    mapping.generatedLine = above.length + landmark.lead + 1
  /-- The mapping's line has spaces up to the mapping's column and then the landmark's own text. -/
  starts : ∃ first, landmark.lines[landmark.lead]? = some first ∧
    code[mapping.generatedLine - 1]? =
      some (List.replicate (mapping.generatedColumn - 1) ' ' ++ first.text.toList)
  column : 1 ≤ mapping.generatedColumn
  sourceLine : mapping.sourceLine = landmark.span.line
  sourceColumn : mapping.sourceColumn = landmark.span.column
  name : mapping.name = landmark.name?

/-- The first line behind the comment is indented. -/
theorem lines_lead (landmark : Landmark) :
    ∃ first, landmark.lines[landmark.lead]? = some first ∧ first.indent = landmark.depth := by
  cases landmark with
  | statement depth inner =>
    cases inner with
    | returning value span => cases value <;> exact ⟨_, rfl, rfl⟩
    | _ => exact ⟨_, rfl, rfl⟩
  | _ => exact ⟨_, rfl, rfl⟩

/-- Printed landmarks are mapped by places of their code. -/
theorem Prints.mappedBy {all : List PrintedLine} {landmark : Landmark} {mapping : Mapping}
    (prints : landmark.Prints all mapping) (rest : List (List Char)) :
    landmark.MappedBy (all.map PrintedLine.shown ++ rest) mapping := by
  obtain ⟨above, below, rfl, rfl⟩ := prints
  obtain ⟨first, found, indent⟩ := landmark.lines_lead
  refine ⟨⟨above.map PrintedLine.shown, below.map PrintedLine.shown ++ rest, ?_, ?_⟩,
    ⟨first, found, ?_⟩, Nat.le_add_left .., rfl, rfl, rfl⟩
  · simp only [map_append, append_assoc]
  · rw [List.length_map]
    rfl
  · have inside := (List.getElem?_eq_some_iff.mp found).1
    have printed : (above ++ (landmark.lines ++ below))[above.length + landmark.lead]? = some first := by
      rw [List.getElem?_append_right (Nat.le_add_right ..), Nat.add_sub_cancel_left,
        getElem?_append_left inside, found]
    have shown : ((above ++ (landmark.lines ++ below)).map PrintedLine.shown)[
        above.length + landmark.lead]? = some first.shown := by
      rw [getElem?_map, printed, Option.map_some]
    have within := (List.getElem?_eq_some_iff.mp shown).1
    rw [Mapping.toSpan, Nat.add_sub_cancel, Nat.add_sub_cancel, getElem?_append_left within, shown,
      PrintedLine.shown, indent]

end Landmark

/-- The source map of a checked program is exact. It has one mapping for each struct, uniform,
function and statement behind its function, in this order and on ascending lines, from the line and
column at which its text starts to its place in the source. For a line the last mapping on or before
it is found. In any map the one with the greatest place is found, and the last added among those. -/
theorem source_map_is_exact (source : SourceText) (options : Options) (passes : OptimizationOptions)
    (file : String) :
    let program := (check source options).program.optimize passes
    (∃ code map, program.generate file true = .ok ⟨code, some map⟩ ∧ map.file = file ∧
      List.Forall₂ (Landmark.MappedBy (SourceText.segments code.toList)) (Landmark.ofProgram program)
        map.mappings ∧
      (map.mappings.Pairwise fun first second => first.generatedLine < second.generatedLine) ∧
      ∀ line,
        map.lookup? line =
          (map.mappings.filter fun mapping => mapping.generatedLine ≤ line).getLast? ∧
        (map.lookup? line = none ↔ ∀ first ∈ map.mappings.head?, line < first.generatedLine)) ∧
    ∀ (added : List Mapping) (line : Nat) (found : Option Mapping),
      (added.foldl SourceMap.add ⟨file, []⟩).lookup? line = found ↔
        match found with
        | none => ∀ mapping ∈ added, line < mapping.generatedLine
        | some mapping => mapping.generatedLine ≤ line ∧
          ∃ before after, added = before ++ mapping :: after ∧
            (∀ earlier ∈ before, earlier.generatedLine ≤ line → earlier.place ≤ mapping.place) ∧
            ∀ later ∈ after, later.generatedLine ≤ line → later.place < mapping.place := by
  intro program
  refine ⟨⟨_, _, generate_check source options passes file true, rfl, ?_, ?_, fun line => ?_⟩, ?_⟩
  · rw [Printed.segments_code (Printed.allSingle_program source options passes)]
    have mapped := Landmark.mapped_program program [] []
    rw [append_nil] at mapped
    exact mapped.imp fun landmark mapping prints => prints.mappedBy [[]]
  · exact (PrintedLine.mappings_ascend 1 _).2
  · have ascending := (PrintedLine.mappings_ascend 1 (Printed.program program)).2
    refine ⟨SourceMap.lookup?_eq_getLast? ascending line, SourceMap.lookup?_eq_none.trans ?_⟩
    exact SourceMap.all_after_iff ascending line
  · intro added line found
    cases found with
    | none => rw [SourceMap.lookup?_eq_none, SourceMap.mappings_foldl_add, nil_append]
    | some mapping => rw [SourceMap.lookup?_eq_some, SourceMap.mappings_foldl_add, nil_append]

end Shading
