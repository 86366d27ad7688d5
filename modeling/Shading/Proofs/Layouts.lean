import Shading.Proofs.Places

/-!
# The layout of programs

An expression or a statement stands at a span, and its parts stand in that span one behind the other.
This layout is derived from the tokens that the tree is read from, since those stand in a row.
-/

namespace Shading

open List
open Series (cons_iff)

variable {allowance : Nat} {tokens : Tokens}

namespace Span

/-- The span reaches over all of another. -/
def Contains (outer inner : Span) : Prop := outer.offset ≤ inner.offset ∧ inner.stop ≤ outer.stop

/-- The span ends before another starts. -/
def Before (first second : Span) : Prop := first.stop ≤ second.offset

/-- Spans can be nested. -/
theorem Contains.trans {outer middle inner : Span} (first : outer.Contains middle)
    (second : middle.Contains inner) : outer.Contains inner :=
  ⟨Nat.le_trans first.1 second.1, Nat.le_trans second.2 first.2⟩

end Span

/-- Where a construct stands and how its parts stand in it. -/
inductive Layout where
  | node (span : Span) (parts : List Layout)

namespace Layout

/-- Where the construct stands. -/
def span : Layout → Span
  | .node span _ => span

/-- The layouts of the parts, in order. -/
def parts : Layout → List Layout
  | .node _ parts => parts

mutual

/-- The layout and those of all that is inside. -/
def nodes : Layout → List Layout
  | .node span parts => .node span parts :: allNodes parts

/-- Layouts and those of all that is inside. -/
def allNodes : List Layout → List Layout
  | [] => []
  | first :: rest => first.nodes ++ allNodes rest

end

/-- The nodes of layouts are those of each. -/
theorem mem_allNodes {layouts : List Layout} {node : Layout} :
    node ∈ allNodes layouts ↔ ∃ layout ∈ layouts, node ∈ layout.nodes := by
  induction layouts with
  | nil => simp [allNodes]
  | cons first rest ih => simp [allNodes, ih]

/-- The construct stands in the text, and its parts in it in order. -/
inductive Sound (source : SourceText) : Layout → Prop where
  | node {span : Span} {parts : List Layout} (held : source.Holds span)
      (row : Row Layout.span span.offset parts span.stop)
      (each : ∀ part ∈ parts, Sound source part) : Sound source (.node span parts)

section Sound

variable {source : SourceText} {layout : Layout}

/-- The text holds a sound layout. -/
theorem Sound.held (sound : layout.Sound source) : source.Holds layout.span := by
  cases sound with
  | node held _ _ => exact held

/-- Its parts are sound. -/
theorem Sound.each (sound : layout.Sound source) : ∀ part ∈ layout.parts, part.Sound source := by
  cases sound with
  | node _ _ each => exact each

/-- They stand in order. -/
theorem Sound.ordered (sound : layout.Sound source) :
    layout.parts.Pairwise fun first second => first.span.Before second.span := by
  cases sound with
  | node _ row _ => exact row.pairwise

/-- All inside a sound layout is sound and in its span. -/
theorem Sound.inside (sound : layout.Sound source) :
    ∀ node ∈ layout.nodes, node.Sound source ∧ layout.span.Contains node.span := by
  induction sound with
  | @node span parts held row each ih =>
    intro node member
    rw [nodes] at member
    rcases mem_cons.mp member with rfl | below
    · exact ⟨.node held row each, Nat.le_refl _, Nat.le_refl _⟩
    · obtain ⟨part, listed, deeper⟩ := mem_allNodes.mp below
      have here : span.Contains part.span := row.inside listed
      obtain ⟨nodeSound, contained⟩ := ih part listed node deeper
      exact ⟨nodeSound, here.trans contained⟩

end Sound

end Layout

/-- Sound layouts in a row between two offsets. -/
abbrev SourceText.Arranges (source : SourceText) :
    (low : Nat) → List Layout → (high : Nat) → Prop :=
  Series Layout.span (Layout.Sound source)

section Arranged

variable {source : SourceText} {low middle high : Nat} {first last : Span} {parts : List Layout}
  {layout : Layout}

/-- A single layout is arranged between bounds. -/
theorem arranges_singleton : source.Arranges low [layout] high ↔
    low ≤ layout.span.offset ∧ layout.Sound source ∧ layout.span.stop ≤ high :=
  cons_iff.trans (and_congr_right fun _ => and_congr_right fun _ => ⟨Series.row, Series.nil⟩)

/-- A leaf is arranged between bounds. -/
theorem arranges_leaf {span : Span} (held : source.Holds span) (below : low ≤ span.offset)
    (above : span.stop ≤ high) : source.Arranges low [.node span []] high :=
  arranges_singleton.mpr ⟨below, .node held span.offset_le_stop nofun, above⟩

/-- From `first` through `last` holds the parts between. -/
theorem arranges_through (firstHeld : source.Holds first) (lastHeld : source.Holds last)
    (forward : first.stop ≤ last.stop) (below : low ≤ first.offset)
    (inner : source.Arranges first.offset parts last.stop) (above : last.stop ≤ high) :
    source.Arranges low [.node (first.through last) parts] high := by
  have stop : (first.through last).stop = last.stop := by
    rw [Span.stop_through, Nat.max_eq_left forward]
  refine arranges_singleton.mpr ⟨below, .node (firstHeld.through lastHeld) ?_ inner.each, ?_⟩
  · rw [stop]
    exact inner.row
  · rw [Layout.span, stop]
    exact above

/-- It holds the parts behind `first`. -/
theorem arranges_between (firstHeld : source.Holds first) (lastHeld : source.Holds last)
    (below : low ≤ first.offset) (inner : source.Arranges first.stop parts last.stop)
    (above : last.stop ≤ high) : source.Arranges low [.node (first.through last) parts] high :=
  arranges_through firstHeld lastHeld inner.row.le below
    (inner.widen first.offset_le_stop (Nat.le_refl _)) above

/-- It holds a first part and those behind it. -/
theorem arranges_behind (before : source.Arranges low [layout] middle)
    (behind : source.Arranges middle parts last.stop) (lastHeld : source.Holds last)
    (above : last.stop ≤ high) :
    source.Arranges low [.node (layout.span.through last) (layout :: parts)] high := by
  obtain ⟨below, sound, ahead⟩ := arranges_singleton.mp before
  have start : source.Arranges layout.span.offset [layout] middle :=
    arranges_singleton.mpr ⟨Nat.le_refl _, sound, ahead⟩
  exact arranges_through sound.held lastHeld (Nat.le_trans ahead behind.row.le) below
    (start.append behind) above

end Arranged

namespace Surface

variable {low high : Nat}

mutual

/-- The layout of an expression, with the name of a call. -/
def Expr.layout : Expr → Layout
  | .number _ span => .node span []
  | .bool _ span => .node span []
  | .identifier _ span => .node span []
  | .binary _ left right span => .node span [left.layout, right.layout]
  | .unary _ operand span => .node span [operand.layout]
  | .call name _ arguments span =>
    .node span (.node { span with length := name.utf8ByteSize } [] :: Expr.layouts arguments)
  | .member base _ span => .node span [base.layout]
  | .index base position span => .node span [base.layout, position.layout]

/-- The layouts of expressions, in order. -/
def Expr.layouts : List Expr → List Layout
  | [] => []
  | first :: rest => first.layout :: Expr.layouts rest

end

/-- It has the span of the expression. -/
@[simp] theorem Expr.span_layout (expression : Expr) : expression.layout.span = expression.span := by
  cases expression <;> rfl

/-- A call stands between its name and its parenthesis. -/
theorem arranges_call {source : SourceText} {name : String} {span closing : Span}
    {typeArguments : List TypeArgument} {arguments : List Expr}
    (named : source.Shows ⟨.identifier name, span⟩) (closed : source.Holds closing)
    (below : low ≤ span.offset)
    (listed : source.Arranges span.stop (Expr.layouts arguments) closing.stop)
    (above : closing.stop ≤ high) :
    source.Arranges low
      [(Expr.call name typeArguments arguments (span.through closing)).layout] high := by
  have same : { span.through closing with length := name.utf8ByteSize } = span := by
    rw [← (named.named name rfl).length]
    rfl
  rw [Expr.layout, same]
  have inner := (arranges_leaf named.held (Nat.le_refl _) (Nat.le_refl _)).append listed
  exact arranges_through named.held closed listed.row.le below inner above

section Expressions

variable {source : SourceText}

mutual

/-- Joined operands are arranged. -/
theorem JoinedTokens.arranged {allowance least low high : Nat} {tokens : Tokens}
    {whole : Expr} : JoinedTokens allowance least tokens whole → source.Lays low tokens high →
      source.Arranges low [whole.layout] high
  | .mk first rest, laid => by
    obtain ⟨middle, front, back⟩ := laid.split
    exact rest.arranged (first.arranged front) back

/-- A chain starts where its left operand does. -/
theorem ChainTokens.arranged {allowance least low middle high : Nat} {left : Expr}
    {tokens : Tokens} {whole : Expr} : ChainTokens allowance least left tokens whole →
      source.Arranges low [left.layout] middle → source.Lays middle tokens high →
        source.Arranges low [whole.layout] high
  | .nil _ _ _, before, laid => before.widen (Nat.le_refl _) laid.row
  | .cons _ _ second _ rest, before, laid => by
    obtain ⟨next, operand, chain⟩ := laid.tail.split
    refine rest.arranged ?_ chain
    obtain ⟨behind, sound, above⟩ := arranges_singleton.mp (second.arranged operand)
    rw [Expr.layout, ← Expr.span_layout, ← Expr.span_layout]
    exact arranges_behind before (arranges_singleton.mpr ⟨behind, sound, Nat.le_refl _⟩) sound.held
      above

/-- Operands are arranged. -/
theorem OperandTokens.arranged {allowance low high : Nat} {tokens : Tokens}
    {whole : Expr} : OperandTokens allowance tokens whole → source.Lays low tokens high →
      source.Arranges low [whole.layout] high
  | .signed _ inner, laid => by
    obtain ⟨below, shown, laid⟩ := cons_iff.mp laid
    obtain ⟨behind, sound, above⟩ := arranges_singleton.mp (inner.arranged laid)
    rw [Expr.layout, ← Expr.span_layout]
    exact arranges_between shown.held sound.held below
      (arranges_singleton.mpr ⟨behind, sound, Nat.le_refl _⟩) above
  | .accessed start rest, laid => by
    obtain ⟨middle, front, back⟩ := laid.split
    exact rest.arranged (start.arranged front) back

/-- Accesses start where their base does. -/
theorem AccessTokens.arranged {allowance low middle high : Nat} {base : Expr}
    {tokens : Tokens} {whole : Expr} : AccessTokens allowance base tokens whole →
      source.Arranges low [base.layout] middle → source.Lays middle tokens high →
        source.Arranges low [whole.layout] high
  | .nil _ _, before, laid => before.widen (Nat.le_refl _) laid.row
  | .member _ _ span rest, before, laid => by
    obtain ⟨ahead, shown, laid⟩ := cons_iff.mp laid.tail
    refine rest.arranged ?_ laid
    rw [Expr.layout, ← Expr.span_layout]
    exact arranges_behind before (.nil (Nat.le_trans ahead span.offset_le_stop)) shown.held
      (Nat.le_refl _)
  | .index _ closing within rest, before, laid => by
    obtain ⟨next, inner, laid⟩ := laid.tail.split
    obtain ⟨ahead, closed, laid⟩ := cons_iff.mp laid
    refine rest.arranged ?_ laid
    have position := (within.arranged inner).widen (Nat.le_refl _)
      (Nat.le_trans ahead closing.offset_le_stop)
    rw [Expr.layout, ← Expr.span_layout]
    exact arranges_behind before position closed.held (Nat.le_refl _)

/-- Primaries are arranged. -/
theorem PrimaryTokens.arranged {allowance low high : Nat} {tokens : Tokens}
    {whole : Expr} : PrimaryTokens allowance tokens whole → source.Lays low tokens high →
      source.Arranges low [whole.layout] high
  | .number .., laid | .yes .., laid | .no .., laid | .identifier .., laid => by
    obtain ⟨below, shown, rest⟩ := cons_iff.mp laid
    exact arranges_leaf shown.held below rest.row
  | .parenthesized _ _ within, laid => by
    obtain ⟨inner, _, above⟩ := laid.tail.of_concat
    exact (within.arranged inner).widen (Nat.le_refl _) above
  | .call _ _ _ _ listed, laid => by
    obtain ⟨below, named, laid⟩ := cons_iff.mp laid
    obtain ⟨inner, closed, above⟩ := laid.tail.of_concat
    exact arranges_call named closed.held below (listed.arranged inner) above
  | .construction _ _ _ _ _ _ _ listed, laid => by
    obtain ⟨below, named, laid⟩ := cons_iff.mp laid
    have behindTypes := laid.tail.sublist (sublist_append_right ..)
    obtain ⟨inner, closed, above⟩ := behindTypes.tail.tail.of_concat
    exact arranges_call named closed.held below (listed.arranged inner) above

/-- Arguments are arranged. -/
theorem ArgumentsTokens.arranged {allowance low high : Nat} {tokens : Tokens}
    {arguments : List Expr} : ArgumentsTokens allowance tokens arguments →
      source.Lays low tokens high → source.Arranges low (Expr.layouts arguments) high
  | .nil _, laid => .nil laid.row
  | .last one, laid => one.arranged laid
  | .cons _ one rest, laid => by
    obtain ⟨middle, front, back⟩ := laid.split
    exact (one.arranged front).append (rest.arranged back.tail)

end

end Expressions

/-- The layout of an ascription, if there is one. -/
def ascriptionLayouts (ascription : Option WrittenType) : List Layout :=
  ascription.toList.map fun written => .node written.span []

mutual

/-- A statement with its ascription and expressions or its block. -/
def statementLayout : Stmt → Layout
  | .letBinding _ ascription value span => .node span (ascriptionLayouts ascription ++ [value.layout])
  | .varBinding _ ascription value span =>
    .node span (ascriptionLayouts ascription ++ Expr.layouts value.toList)
  | .assignment target value span => .node span [target.layout, value.layout]
  | .returning value span => .node span (Expr.layouts value.toList)
  | .evaluation value span => .node span [value.layout]
  | .block statements _ _ span => .node span (statementLayouts statements)

/-- The layouts of statements, in order. -/
def statementLayouts : List Stmt → List Layout
  | [] => []
  | first :: rest => statementLayout first :: statementLayouts rest

end

/-- It has the span of the statement. -/
theorem span_statementLayout (statement : Stmt) : (statementLayout statement).span = statement.span := by
  cases statement <;> rfl

/-- Each statement has its layout. -/
theorem mem_statementLayouts {statement : Stmt} {statements : List Stmt}
    (member : statement ∈ statements) : statementLayout statement ∈ statementLayouts statements := by
  induction statements with
  | nil => exact absurd member not_mem_nil
  | cons first rest ih =>
    rcases mem_cons.mp member with rfl | later
    · exact mem_cons_self
    · exact mem_cons_of_mem _ (ih later)

section Statements

variable {source : SourceText}

/-- A type stands where its tokens stand. -/
theorem TypeTokens.arranged {written : WrittenType} (made : TypeTokens allowance tokens written)
    (laid : source.Lays low tokens high) : source.Arranges low [.node written.span []] high := by
  cases made with
  | plain _ name span =>
    obtain ⟨below, shown, rest⟩ := cons_iff.mp laid
    exact arranges_between shown.held shown.held below (.nil (Nat.le_refl _)) rest.row
  | applied name span opening closing listed =>
    obtain ⟨below, shown, rest⟩ := cons_iff.mp laid
    obtain ⟨inner, closed, above⟩ := rest.tail.of_concat
    exact arranges_between shown.held closed.held below (.nil inner.row.le) above

/-- An ascription is arranged. -/
theorem AscriptionTokens.arranged {ascription : Option WrittenType}
    (made : AscriptionTokens allowance tokens ascription) (laid : source.Lays low tokens high) :
    source.Arranges low (ascriptionLayouts ascription) high := by
  cases made with
  | none => exact .nil laid.row
  | some _ typed => exact typed.arranged laid.tail

/-- An initial value is arranged. -/
theorem InitializerTokens.arranged {value : Option Expr}
    (made : InitializerTokens allowance tokens value) (laid : source.Lays low tokens high) :
    source.Arranges low (Expr.layouts value.toList) high := by
  cases made with
  | none => exact .nil laid.row
  | some _ initial => exact initial.arranged laid.tail

mutual

/-- A statement is arranged. -/
theorem StatementTokens.arranged {allowance low high : Nat} {tokens : Tokens}
    {statement : Stmt} : StatementTokens allowance tokens statement → source.Lays low tokens high →
      source.Arranges low [statementLayout statement] high
  | .letBinding _ _ _ _ _ typed made, laid => by
    obtain ⟨below, keyword, laid⟩ := cons_iff.mp laid
    obtain ⟨middle, types, laid⟩ := laid.tail.split
    obtain ⟨inner, stop, above⟩ := laid.tail.of_concat
    exact arranges_between keyword.held stop.held below
      ((typed.arranged types).append (made.arranged inner)) above
  | .varBinding _ _ _ _ typed made, laid => by
    obtain ⟨below, keyword, laid⟩ := cons_iff.mp laid
    obtain ⟨middle, types, laid⟩ := laid.tail.split
    obtain ⟨inner, stop, above⟩ := laid.of_concat
    exact arranges_between keyword.held stop.held below
      ((typed.arranged types).append (made.arranged inner)) above
  | .assignment _ _ changed made, laid => by
    -- No keyword stands in front: the span starts at the first token of the target.
    obtain ⟨below, shown, started⟩ := laid.started
    rw [← cons_append] at started
    obtain ⟨middle, front, back⟩ := started.split
    obtain ⟨inner, stop, above⟩ := back.tail.of_concat
    exact arranges_through shown.held stop.held (Nat.le_trans front.row.2.le inner.row.le) below
      ((changed.arranged front).append (made.arranged inner)) above
  | .returning _ _ made, laid => by
    obtain ⟨below, keyword, laid⟩ := cons_iff.mp laid
    obtain ⟨inner, stop, above⟩ := laid.of_concat
    exact arranges_between keyword.held stop.held below (made.arranged inner) above
  | .leaving _ _ stop, laid => by
    obtain ⟨below, keyword, laid⟩ := cons_iff.mp laid
    obtain ⟨ahead, stopped, rest⟩ := cons_iff.mp laid
    exact arranges_between keyword.held stopped.held below
      (.nil (Nat.le_trans ahead stop.offset_le_stop)) rest.row
  | .evaluation _ made, laid => by
    obtain ⟨below, shown, started⟩ := laid.started
    rw [← cons_append] at started
    obtain ⟨inner, stop, above⟩ := started.of_concat
    exact arranges_through shown.held stop.held inner.row.2.le below (made.arranged inner) above
  | .block _ _ inner, laid => by
    obtain ⟨below, opening, laid⟩ := cons_iff.mp laid
    obtain ⟨within, closing, above⟩ := laid.of_concat
    exact arranges_between opening.held closing.held below (inner.arranged within) above

/-- Statements are arranged. -/
theorem StatementsTokens.arranged {allowance low high : Nat} {tokens : Tokens}
    {statements : List Stmt} : StatementsTokens allowance tokens statements →
      source.Lays low tokens high → source.Arranges low (statementLayouts statements) high
  | .nil _, laid => .nil laid.row
  | .cons first rest, laid => by
    obtain ⟨middle, front, back⟩ := laid.split
    exact (first.arranged front).append (rest.arranged back)

end

end Statements

end Surface

end Shading
