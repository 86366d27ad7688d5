import Shading.Proofs.FormedPrograms
import Shading.Proofs.PlacedIssues
import Shading.Proofs.PlacedPrograms
import Shading.Proofs.UnboundNames

/-!
# Places in reports

The analysis reports at the places of declarations, statements and expressions, and relates them to the
places of others, which it keeps in its context. So every report about a text names places in the text,
and the program that is read from it is laid out in it.
-/

namespace Shading

open List

namespace SourceText

variable {source : SourceText} {report : Diagnostic}

/-- Promotion keeps places. -/
theorem locates_promote (located : source.Locates report) : source.Locates report.promote := by
  unfold Diagnostic.promote
  split
  · exact located
  · exact located

end SourceText

namespace Analysis

open Typing (Binding Context Issue)
open Typed (DeclaredType)
open Surface (places)

variable {source : SourceText} {context : Context}

/-- The names in scope are bound at places in the text. -/
def ContextPlaced (source : SourceText) (context : Context) : Prop :=
  ∀ name binding, context.lookup? name = some binding → source.Holds binding.span

/-- A new name keeps a context placed. -/
theorem contextPlaced_bind (placed : ContextPlaced source context) (name : String)
    {binding : Binding} (held : source.Holds binding.span) :
    ContextPlaced source (context.bind name binding) := by
  intro other found bound
  rw [Context.lookup?_bind] at bound
  split at bound
  · rwa [← Option.some.inj bound]
  · exact placed other found bound

/-- A slot stands in the text. -/
theorem slotHeld {slot : Slot WrittenType} (placed : (places source).HasSlot slot) :
    SlotHeld source.Holds slot := ⟨placed.name, placed.type⟩

/-- Uniforms make a placed context. -/
theorem contextPlaced_signed {program : Surface.Program}
    (each : ∀ uniform ∈ Surface.uniforms program, (places source).HasUniform uniform) :
    ContextPlaced source (signedContext program) := by
  have structs : ContextPlaced source (structContext program) := by
    obtain ⟨defined, same⟩ := collectStructs_defines program .empty
    rw [structContext, same]
    intro name binding bound
    cases bound
  have uniforms : ContextPlaced source (boundContext program) :=
    List.foldlRecOn (motive := ContextPlaced source) _ _ structs fun before placed uniform member =>
      contextPlaced_bind placed _ (each uniform member).name
  intro name binding bound
  rw [Context.lookup?, scopes_signedContext] at bound
  exact uniforms name binding bound

/-- The names in scope and further down stand in the text. -/
structure FramePlaced (source : SourceText) (frame : Frame) : Prop where
  context : ContextPlaced source frame.context
  upcoming : ∀ level ∈ frame.upcoming, ∀ entry ∈ level, source.Holds entry.2

section Frames

variable {frame : Frame}

/-- An undefined name is told in the text. -/
theorem undefined_locates {span : Span} (held : source.Holds span) (code : Code) (message : String)
    (suggestions : List String) : source.Locates (undefined code message suggestions span) := by
  intro place member
  cases suggestions with
  | nil =>
    rw [mem_singleton.mp member]
    exact held
  | cons best others =>
    have same : place = span := by simpa [undefined, errorAt, Diagnostic.places] using member
    rwa [same]

/-- An issue is told in the text. -/
theorem report_locates (placed : FramePlaced source frame) {issue : Issue}
    (held : source.Holds issue.place) : source.Locates (frame.report issue) := by
  cases issue with
  | typing error span => exact (typing_among error held).places
  | undefinedFunction name span => exact undefined_locates held _ _ _
  | unresolved name span =>
    unfold Frame.report
    dsimp only
    split
    · rename_i declared later
      obtain ⟨level, listed, found⟩ := exists_of_findSome?_eq_some later
      exact forall_mem_cons.mpr ⟨held, forall_mem_singleton.mpr
        (placed.upcoming level listed _ (Typing.mem_of_lookup found))⟩
    · exact undefined_locates held _ _ _

/-- A typed expression stands in the text. -/
theorem typed_placed (placed : FramePlaced source frame) {expression : Surface.Expr}
    (hint : Option Scalar) (sound : expression.layout.Sound source) :
    (∀ report ∈ (frame.typed expression hint).log, source.Locates report) ∧
      source.HoldsNodes (frame.typed expression hint).value := by
  obtain ⟨told, holds⟩ :=
    (Typing.elaborate_elaborates expression hint : Typing.Elaborates frame.context ..).placed sound
  exact ⟨forall_mem_map.mpr fun issue member => report_locates placed (told issue member), holds⟩

/-- A declared name keeps a frame placed. -/
theorem framePlaced_declare (placed : FramePlaced source frame) (name : String)
    {binding : Binding} (held : source.Holds binding.span) :
    FramePlaced source (frame.declare name binding) where
  context := contextPlaced_bind placed.context name held
  upcoming := by
    have upcoming := placed.upcoming
    unfold Frame.declare
    dsimp only
    split
    · rename_i level outer levels
      rw [levels] at upcoming
      obtain ⟨here, later⟩ := forall_mem_cons.mp upcoming
      exact forall_mem_cons.mpr ⟨fun entry member => here entry (mem_of_mem_eraseP member),
        later⟩
    · exact forall_mem_nil _

/-- The names of statements stand where these do. -/
theorem framePlaced_enter (placed : FramePlaced source frame) {statements : List Surface.Stmt}
    (each : ∀ layout ∈ Surface.statementLayouts statements, layout.Sound source) :
    FramePlaced source (frame.enter statements) where
  context := placed.context
  upcoming := by
    refine forall_mem_cons.mpr ⟨fun entry member => ?_, placed.upcoming⟩
    obtain ⟨statement, listed, declared⟩ := mem_filterMap.mp member
    have held := (each _ (Surface.mem_statementLayouts listed)).held
    cases statement with
    | letBinding | varBinding =>
      cases declared
      exact held
    | assignment | returning | evaluation | block => cases declared

end Frames

section Bodies

open Surface (statementLayout statementLayouts span_statementLayout)

/-- The parts of a plain statement: ascription and expressions. -/
theorem parts_statementLayout {statement : Surface.Stmt} (plain : statement.isBlock = false) :
    (statementLayout statement).parts =
      (statement.ascriptions.map fun written => .node written.span []) ++
        statement.expressions.map Surface.Expr.layout := by
  cases statement with
  | letBinding _ ascription => cases ascription <;> rfl
  | varBinding _ ascription value => cases ascription <;> cases value <;> rfl
  | returning value => cases value <;> rfl
  | assignment | evaluation => rfl
  | block => cases plain

/-- Statements in the text are typed in placed frames. -/
theorem carried_placed (source : SourceText) (function : Enclosing) :
    Carried function (fun frame expression => FramePlaced source frame ∧ expression.layout.Sound source)
      source.Holds fun frame statements =>
        FramePlaced source frame ∧ ∀ layout ∈ statementLayouts statements, layout.Sound source where
  enter here := by
    have inside := (here.2 _ mem_cons_self).each
    exact ⟨framePlaced_enter here.1 inside, inside⟩
  behind {frame first _} here := by
    obtain ⟨sound, later⟩ := forall_mem_cons.mp here.2
    rcases frame_typeStatement function frame first with ⟨_, same⟩ | ⟨name, binding, _, stands, same⟩
    · rw [same]
      exact ⟨here.1, later⟩
    · have held := sound.held
      rw [span_statementLayout, ← stands] at held
      rw [same]
      exact ⟨framePlaced_declare here.1 name held, later⟩
  around {frame first _} here plain := by
    have sound := here.2 _ mem_cons_self
    have parts := sound.each
    rw [parts_statementLayout plain] at parts
    obtain ⟨types, values⟩ := forall_mem_append.mp parts
    have each := forall_mem_map.mp values
    exact ⟨fun expression member => ⟨here.1, each expression member⟩,
      { here := span_statementLayout first ▸ sound.held
        types := fun written member => (forall_mem_map.mp types written member).held
        values := fun expression member hint =>
          (typed_placed here.1 hint (each expression member)).2.held
        bound := here.1.context }⟩

end Bodies

/-- Parameters keep a context placed. -/
theorem bindParameters_placed (placed : ContextPlaced source context)
    {parameters : List (Slot WrittenType)}
    (each : ∀ parameter ∈ parameters, (places source).HasSlot parameter) (types : List DeclaredType) :
    ContextPlaced source (bindParameters context parameters types) := by
  refine List.foldlRecOn (motive := ContextPlaced source) _ _ placed ?_
  intro before beforePlaced entry member
  exact contextPlaced_bind beforePlaced _ (each _ (of_mem_zip member).1).name

/-- The expressions of a body are typed in placed frames. -/
theorem typedBody_placed (placed : ContextPlaced source context)
    {function : Function Surface.Expr WrittenType} (here : (places source).HasFunction function)
    (signature : DeclaredSignature) :
    Interleaved (fun frame expression => FramePlaced source frame ∧ expression.layout.Sound source)
      source.Holds (Statement.allExpressions function.body.statements)
      (Statement.allExpressions (typedBody context function signature).value)
      (typedBody context function signature).log := by
  have outside : FramePlaced source
      ⟨bindParameters context function.parameters signature.parameters, []⟩ :=
    ⟨bindParameters_placed placed here.parameters _, forall_mem_nil _⟩
  exact (carried_placed source _).typeStatements _
    ⟨framePlaced_enter outside here.body.each, here.body.each⟩

/-- All reports about a placed program are placed. -/
theorem typeProgram_tells {program : Surface.Program}
    (placed : ∀ declaration ∈ program, (places source).HasDeclaration declaration) :
    ∀ told ∈ (typeProgram program).log, source.Locates told := by
  have functions : ∀ function ∈ Surface.functions program, (places source).HasFunction function :=
    fun function member => placed _ (Surface.mem_functions.mp member)
  have uniforms : ∀ uniform ∈ Surface.uniforms program, (places source).HasUniform uniform :=
    fun uniform member => placed _ (Surface.mem_uniforms.mp member)
  have declared : ProgramHeld source.Holds program :=
    { names := fun declaration member => by
        cases declaration with
        | function | struct | uniform => exact (placed _ member).name
      structs := fun struct member => by
        have here : (places source).HasStruct struct := placed _ (Surface.mem_structs.mp member)
        exact ⟨here.name, fun field inside => slotHeld (here.fields field inside)⟩
      uniforms := fun uniform member => ⟨(uniforms uniform member).name, (uniforms uniform member).type⟩
      signatures := fun function member => ⟨(functions function member).name,
        fun slot inside => slotHeld ((functions function member).parameters slot inside),
        (functions function member).returnType⟩ }
  have bodies (function) (member : function ∈ Surface.functions program) :=
    typedBody_placed (contextPlaced_signed uniforms) (functions function member)
      (declaredSignature (boundContext program) function)
  refine forall_log_typeProgram declared (fun function member => ?_) (fun report among => among.places)
    fun function member => (bodies function member).forall_log
      (fun frame expression _ here hint => (typed_placed here.1 hint here.2).1)
      fun report among => among.places
  rw [typedFunction, value_typeFunction]
  refine ⟨(functions function member).name, fun node inside => ?_⟩
  obtain ⟨expression, listed, deeper⟩ := Typed.Expr.mem_allNodes.mp inside
  obtain ⟨frame, written, _, hint, here, rfl, _⟩ := (bodies function member).exists_of_mem listed
  exact (typed_placed here.1 hint here.2).2 node deeper

end Analysis

/-- All reports about a text name places in the text. -/
theorem check_locates (source : SourceText) (options : Options) :
    ∀ report ∈ (check source options).diagnostics ++ (check source options).hints,
      source.Locates report := by
  have syntactic : ∀ report ∈ (Surface.read source).2, source.Locates report :=
    fun report member => (Surface.read_among source report member).places
  exact forall_check syntactic (Analysis.typeProgram_tells (Surface.read_placed source))
    (fun report located => SourceText.locates_promote located) options

/-- Places are accurate. Every statement and expression that is read from a text stands in it, at
the line and column of its offset, and reaches over its parts, which stand one behind the other.
Every place that a report names, its own, a related one or one of a fix, is in the text. -/
theorem places_are_accurate (source : SourceText) (options : Options) :
    (∀ function ∈ Surface.functions (Surface.read source).1,
      ((Surface.statementLayouts function.body.statements).Pairwise fun first second =>
          first.span.Before second.span) ∧
        ∀ layout ∈ Surface.statementLayouts function.body.statements, ∀ node ∈ layout.nodes,
          source.Holds node.span ∧ (∀ inner ∈ node.nodes, node.span.Contains inner.span) ∧
            node.parts.Pairwise fun first second => first.span.Before second.span) ∧
      ∀ report ∈ (check source options).diagnostics ++ (check source options).hints,
        ∀ span ∈ report.places, source.Holds span := by
  refine ⟨fun function member => ?_, check_locates source options⟩
  have placed := Surface.read_placed source _ (Surface.mem_functions.mp member)
  refine ⟨placed.body.row.pairwise, fun layout listed node inside => ?_⟩
  have sound := ((placed.body.each layout listed).inside node inside).1
  exact ⟨sound.held, fun inner deeper => (sound.inside inner deeper).2, sound.ordered⟩

end Shading
