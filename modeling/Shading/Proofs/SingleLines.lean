import Shading.Proofs.Coercions
import Shading.Proofs.DeclarationTexts
import Shading.Proofs.InheritedPrograms
import Shading.Proofs.OptimizedPrograms
import Shading.Proofs.References

/-!
# Printed lines are single lines

The names of a program are words of its text, and its types are made of builtin names and of the names
of structs. So no text that is printed for an analyzed program holds a line end, and the lines that are
printed are the lines of the code.
-/

namespace Shading

open List

open Typed (Callee DeclaredType)

/-- The text holds no line end. -/
def Inline (text : String) : Prop := '\n' ∉ text.toList

instance (text : String) : Decidable (Inline text) := inferInstanceAs (Decidable (¬ _))

namespace Inline

/-- A joined text is a single line if both parts are. -/
@[simp] theorem append_iff (left right : String) :
    Inline (left ++ right) ↔ Inline left ∧ Inline right := by
  simp [Inline]

/-- Of two texts the chosen one counts. -/
@[simp] theorem ite_iff (left right : String) (condition : Prop) [Decidable condition] :
    Inline (if condition then left else right) ↔ if condition then Inline left else Inline right := by
  split <;> rfl

/-- A text of characters other than newlines is a single line. -/
theorem of_forall {text : String} {good : Char → Prop} (each : ∀ character ∈ text.toList, good character)
    (bad : ¬ good '\n') : Inline text :=
  fun member => bad (each _ member)

/-- Names are single lines. -/
theorem of_isName {name : String} (isName : Lexer.IsName name) : Inline name :=
  of_forall isName.continues (by decide)

/-- Texts divided by commas are a single line if each is. -/
theorem intercalate {texts : List String} (each : ∀ text ∈ texts, Inline text) :
    Inline (", ".intercalate texts) := by
  induction texts with
  | nil => decide
  | cons first rest ih =>
    obtain ⟨here, later⟩ := forall_mem_cons.mp each
    cases rest with
    | nil => rwa [String.intercalate_singleton]
    | cons second others =>
      simp +decide [String.intercalate_cons_cons, here, ih later]

/-- Natural numbers are single lines. -/
@[simp] theorem repr (value : Nat) : Inline value.repr :=
  of_forall (fun _ => Decimal.isDigit_of_mem_repr) (by decide)

/-- Integers are single lines. -/
@[simp] theorem repr_int (value : Int) : Inline value.repr := by
  cases value with
  | ofNat size => exact repr size
  | negSucc less => simp +decide [show (Int.negSucc less).repr = "-" ++ (less + 1).repr from rfl]

/-- Names of stages are single lines. -/
@[simp] theorem stage (stage : Stage) : Inline stage.name := by cases stage <;> decide

/-- Names of scalars are single lines. -/
@[simp] theorem scalar (element : Scalar) : Inline element.name := by cases element <;> decide

/-- Names of textures are single lines. -/
@[simp] theorem dimension (dimension : TextureDimension) : Inline dimension.typeName := by
  cases dimension <;> decide

/-- Positional digits are a single line. -/
@[simp] theorem positional (digits : Decimal.Digits) : Inline digits.positional := by
  intro member
  rw [Decimal.Digits.toList_positional] at member
  have digit : '\n' ∈ digits.whole ++ digits.fraction := by
    rcases mem_append.mp member with before | behind
    · exact mem_append_left _ before
    · refine mem_append_right _ ?_
      cases fraction : digits.fraction with
      | nil =>
        rw [fraction] at behind
        exact behind
      | cons first rest =>
        rw [fraction] at behind
        rcases mem_cons.mp behind with point | inside
        · exact absurd point (by decide)
        · exact inside
  exact absurd (Decimal.Digits.isDigit_of_mem digits digit) (by decide)

/-- Floats are single lines. -/
@[simp] theorem floatText (value : Binary64) : Inline (Number.floatText value) := by
  have digits (format : Binary64.Format) (value : Binary64) : Inline (Decimal.text format value) := by
    cases value with
    | finite negative units => simp +decide [Decimal.text]
    | infinite negative =>
      rw [Decimal.text]
      cases negative <;> decide
  simp +decide [Number.floatText, digits]

/-- The text of a literal is a single line. -/
theorem number (literal : Number) (type : Option Ty) : Inline (literal.text type) := by
  unfold Number.text
  split <;> simp +decide

/-- Binary operators are single lines. -/
@[simp] theorem operator (operator : BinaryOperator) : Inline operator.text := by cases operator <;> decide

/-- Signs are single lines. -/
@[simp] theorem sign (operator : UnaryOperator) : Inline operator.text := by cases operator <;> decide

/-- Parentheses add no line end. -/
@[simp] theorem parenthesized_iff (text : String) : Inline (Typed.parenthesized text) ↔ Inline text := by
  simp +decide [Typed.parenthesized]

end Inline

mutual

/-- A written type is a single line if its words are. -/
theorem WrittenType.inline_text : (written : WrittenType) → Surface.written.HasType written →
    Inline written.text
  | .mk _ [] _, ⟨word, _⟩ => by simp +decide [WrittenType.text, TypeArgument.listText, Inline.of_isName word]
  | .mk _ (first :: rest) _, ⟨word, has⟩ => by
    simp +decide [WrittenType.text, TypeArgument.listText, Inline.of_isName word,
      first.inline_text has.1, TypeArgument.inline_tailText rest has.2]

/-- The text of a type argument is a single line. -/
theorem TypeArgument.inline_text : (argument : TypeArgument) → Surface.written.HasArgument argument →
    Inline argument.text
  | .type written, has => written.inline_text has
  | .size value, _ => .repr value

/-- The texts of further arguments are a single line. -/
theorem TypeArgument.inline_tailText : (arguments : List TypeArgument) →
    Surface.written.HasArguments arguments → Inline (TypeArgument.tailText arguments)
  | [], _ => by decide
  | next :: rest, ⟨nextHas, restHas⟩ => by
    simp +decide [TypeArgument.tailText, next.inline_text nextHas,
      TypeArgument.inline_tailText rest restHas]

end

namespace Ty

mutual

/-- The names of all structs in a type are single lines. -/
def InlineNames : Ty → Prop
  | .array element _ => element.InlineNames
  | .struct name fields => Inline name ∧ AllInlineNames fields
  | .scalar _ | .vector _ _ | .matrix _ _ _ | .sampler _ | .texture _ _ => True

/-- All names of structs in fields are single lines. -/
def AllInlineNames : List (String × Ty) → Prop
  | [] => True
  | (_, first) :: rest => first.InlineNames ∧ AllInlineNames rest

end

/-- All fields are asked. -/
theorem allInlineNames_iff {fields : List (String × Ty)} :
    AllInlineNames fields ↔ ∀ field ∈ fields, field.2.InlineNames := by
  induction fields with
  | nil => simp [AllInlineNames]
  | cons first rest ih => simp [AllInlineNames, ih]

/-- The text of a type is a single line if the names in it are. -/
theorem inline_text : (type : Ty) → type.InlineNames → Inline type.text
  | .scalar element, _ => .scalar element
  | .vector _ _, _ | .matrix _ _ _, _ => by simp +decide [text]
  | .array element none, names | .array element (some _), names => by
    simp +decide [text, inline_text element names]
  | .struct _ _, names => names.1
  | .sampler comparison, _ => by cases comparison <;> decide
  | .texture dimension sample, _ => by
    have sampled : Inline (dimension.typeName ++ "<" ++ sample.name ++ ">") := by simp +decide
    cases dimension with
    | depthTwo => exact .dimension .depthTwo
    | _ => exact sampled

end Ty

/-- Typing gives structs no names but those that are declared. -/
theorem Typing.closed_inlineNames :
    Typing.Closed Surface.written (fun _ => True) Ty.InlineNames where
  scalar _ := trivial
  shape _ shape _ _ _ _ := by cases shape <;> trivial
  array _ names := names
  sized _ _ names _ _ := names
  sampler _ := trivial
  texture _ _ _ := trivial
  vector _ _ := trivial
  row _ := trivial
  column _ := trivial
  transposed _ := trivial
  product _ _ := trivial
  field names := Ty.allInlineNames_iff.mp names.2
  shaped {_ shape _ _ _ _} _ _ := by cases shape <;> trivial
  element names := names
  counted names _ := names
  struct word names := ⟨.of_isName word, Ty.allInlineNames_iff.mpr names⟩

/-- A declared type with the words of a text is a single line. -/
theorem Analysis.DeclaredHolds.inline_text {declared : DeclaredType}
    (inherits : DeclaredHolds Surface.written Ty.InlineNames declared) :
    Inline declared.text := by
  unfold DeclaredType.text
  split
  · rename_i type resolved
    exact type.inline_text (inherits.resolved type resolved)
  · obtain ⟨written, has, same⟩ := inherits.written
    rw [same]
    exact written.inline_text has

namespace Typed.Expr

/-- The names that stand in a node itself are single lines. -/
def InlineNode : Expr → Prop
  | .identifier name _ _ | .member _ name _ _ _ => Inline name
  | .call callee _ type _ => Inline (callee.text type)
  | .number .. | .bool .. | .binary .. | .unary .. | .index .. => True

/-- The names in all nodes of an expression are single lines. -/
def InlineNodes (expression : Expr) : Prop := ∀ node ∈ expression.nodes, InlineNode node

/-- A node is asked before its parts. -/
theorem inlineNodes_iff {expression : Expr} :
    expression.InlineNodes ↔ expression.InlineNode ∧ ∀ part ∈ parts expression, part.InlineNodes :=
  forall_nodes

/-- An expression is a single line if its names are. -/
theorem inline_text (expression : Expr) (inline : expression.InlineNodes) : Inline expression.text := by
  induction expression using induction_parts with
  | step expression ih =>
    obtain ⟨here, below⟩ := inlineNodes_iff.mp inline
    have inner : ∀ part ∈ parts expression, Inline part.text := fun part isPart =>
      ih part isPart (below part isPart)
    cases expression with
    | number literal type => exact .number literal type
    | bool value =>
      rw [text]
      cases value <;> decide
    | identifier => exact here
    | binary | index =>
      simp only [parts, forall_mem_cons] at inner
      simp +decide [text, inner.1, inner.2.1]
    | unary operator operand => simp [text, inner operand mem_cons_self]
    | call callee arguments type =>
      have called : Inline (callee.text type) := here
      have listed : ∀ line ∈ arguments.map text, Inline line := forall_mem_map.mpr inner
      simp [text, called, texts_eq, Inline.intercalate listed]
    | member base name =>
      have named : Inline name := here
      simp +decide [text, inner base mem_cons_self, named]

/-- Folding puts no names into an expression. -/
theorem inlineNodes_folded (expression : Expr) (inline : expression.InlineNodes) :
    expression.folded.InlineNodes := by
  refine forall_nodes_folded (fun node here => ?_) (fun _ _ _ => trivial) (fun _ _ _ _ _ _ _ => trivial) inline
  cases node <;> exact here

/-- The names in a node, a callee's as written, are single lines. -/
def NamedInline : Expr → Prop
  | .identifier name _ _ | .member _ name _ _ _ => Inline name
  | .call callee _ _ _ => Inline callee.name
  | .number .. | .bool .. | .binary .. | .unary .. | .index .. => True

/-- A written callee is a single line. -/
theorem inline_callee {callee : Callee} (has : Typing.HasCallee Surface.written callee) :
    Inline callee.name := by
  cases callee with
  | builtin function => cases function <;> decide
  | constructor written =>
    obtain ⟨name, arguments, span, rfl, word, types, _⟩ := has
    exact WrittenType.inline_text (.mk name arguments span) ⟨word, types⟩
  | struct name | user name => exact .of_isName has

/-- Typing adds no names to those that are written. -/
theorem namedInline_kept :
    Typing.Kept Surface.written fun expression => ∀ node ∈ expression.nodes, node.NamedInline where
  coerce target expression named := by
    rcases coerce_or_retyped target expression with same | ⟨_, _, _, _, retyped, _⟩
    · rwa [same]
    · exact retyped.forall_nodes (fun _ _ _ => trivial) fun _ _ _ _ _ _ _ _ _ => trivial
  node node made inner := by
    refine forall_nodes.mpr ⟨?_, inner⟩
    cases node with
    | identifier | member => exact .of_isName made
    | call => exact inline_callee made
    | _ => trivial

/-- The names in a node are single lines if the written ones and those in its type are. -/
theorem NamedInline.inlineNode {node : Expr} (named : node.NamedInline)
    (types : ∀ type ∈ node.type, type.InlineNames) : node.InlineNode := by
  cases node with
  | call callee arguments type span =>
    show Inline (callee.text type)
    unfold Callee.text
    split
    · rename_i type
      exact type.inline_text (types type rfl)
    · exact named
  | identifier | member => exact named
  | number | bool | binary | unary | index => trivial

end Typed.Expr

namespace Attribute

/-- The name in a decorator is a single line. -/
def IsInline : Attribute → Prop
  | .builtin name => Inline name
  | .stage _ | .workgroupSize _ | .group _ | .binding _ | .visibility _ | .location _ => True

/-- Written decorators are single lines. -/
theorem isInline_of_has {attributes : List Attribute} (has : Surface.written.HasAttributes attributes) :
    ∀ decorator ∈ attributes, decorator.IsInline := by
  intro decorator member
  cases decorator with
  | builtin name => exact .of_isName (has _ member)
  | stage | workgroupSize | group | binding | visibility | location => trivial

/-- A decorator of single lines is one. -/
theorem inline_text {decorator : Attribute} (inline : decorator.IsInline) : Inline decorator.text := by
  have listed (opening : String) (plain : Inline opening) {texts : List String}
      (each : ∀ text ∈ texts, Inline text) : Inline (opening ++ ", ".intercalate texts ++ ")") := by
    simp +decide [plain, Inline.intercalate each]
  cases decorator with
  | workgroupSize dimensions =>
    exact listed _ (by decide) (forall_mem_map.mpr fun size _ => .repr size)
  | visibility stages =>
    exact listed _ (by decide) (forall_mem_map.mpr fun stage _ => .stage stage)
  | builtin name =>
    unfold text
    simp only [Inline.append_iff]
    exact ⟨⟨by decide, inline⟩, by decide⟩
  | stage | group | binding | location =>
    unfold text
    simp +decide

end Attribute

namespace Printed

/-- All lines are single lines. -/
def AllSingle (lines : List PrintedLine) : Prop := ∀ line ∈ lines, Inline line.text

/-- Lines can be put below others. -/
theorem allSingle_append {front back : List PrintedLine} (frontSingle : AllSingle front)
    (backSingle : AllSingle back) : AllSingle (front ++ back) :=
  forall_mem_append.mpr ⟨frontSingle, backSingle⟩

/-- A line can be put above others. -/
theorem allSingle_cons {first : PrintedLine} {rest : List PrintedLine} (here : Inline first.text)
    (later : AllSingle rest) : AllSingle (first :: rest) :=
  forall_mem_cons.mpr ⟨here, later⟩

/-- One line is single. -/
theorem allSingle_single {line : PrintedLine} (here : Inline line.text) : AllSingle [line] :=
  forall_mem_singleton.mpr here

/-- The lines of all items are single. -/
theorem allSingle_flatMap {β : Type} {items : List β} {print : β → List PrintedLine}
    (each : ∀ item ∈ items, AllSingle (print item)) : AllSingle (items.flatMap print) := by
  intro line member
  obtain ⟨item, inside, printed⟩ := mem_flatMap.mp member
  exact each item inside line printed

/-- Decorators are a single line. -/
theorem inline_decorators {attributes : List Attribute}
    (inline : ∀ decorator ∈ attributes, decorator.IsInline) : Inline (decorators attributes) := by
  induction attributes with
  | nil => decide
  | cons first rest ih =>
    obtain ⟨here, later⟩ := forall_mem_cons.mp inline
    rw [decorators, map_cons, String.join_cons, Inline.append_iff, Inline.append_iff]
    exact ⟨⟨first.inline_text here, by decide⟩, ih later⟩

/-- A parameter or field is a single line. -/
theorem inline_slot {declared : Slot DeclaredType}
    (inherits : Analysis.SlotInherits Surface.written Ty.InlineNames declared) :
    Inline (slot declared) := by
  simp +decide [slot, inline_decorators (Attribute.isInline_of_has inherits.attributes),
    Inline.of_isName inherits.name, inherits.ascription.inline_text]

/-- A struct is printed in single lines. -/
theorem allSingle_struct {declared : Struct DeclaredType}
    (inherits : Analysis.StructInherits Surface.written Ty.InlineNames declared) :
    AllSingle (struct declared) := by
  have opening : Inline ("struct " ++ declared.name ++ " \x7b") := by
    simp +decide [Inline.of_isName inherits.name]
  refine allSingle_append (allSingle_cons opening ?_) ?_
  · intro line member
    obtain ⟨field, inside, rfl⟩ := mem_map.mp member
    exact (Inline.append_iff ..).mpr ⟨inline_slot (inherits.fields field inside), by decide⟩
  · exact allSingle_cons (show Inline "\x7d" by decide) (allSingle_single (show Inline "" by decide))

/-- A uniform is printed in single lines. -/
theorem allSingle_uniform {declared : Uniform DeclaredType}
    (word : Lexer.IsName declared.name)
    (inherits : Analysis.DeclaredHolds Surface.written Ty.InlineNames declared.ascription) :
    AllSingle (uniform declared) := by
  have stored : Inline (storage declared.ascription) := by
    unfold storage
    split <;> decide
  refine allSingle_cons ?_ (allSingle_single ?_)
  · refine (Inline.append_iff ..).mpr ⟨by decide, .intercalate ?_⟩
    exact forall_mem_map.mpr fun stage _ => .stage stage
  · have group := @Attribute.inline_text (.group declared.group) trivial
    have binding := @Attribute.inline_text (.binding declared.binding) trivial
    simp +decide [group, binding, stored, Inline.of_isName word, inherits.inline_text]

/-- An ascription is a single line. -/
theorem inline_ascription {declared : Option DeclaredType}
    (inline : ∀ one ∈ declared.toList, Inline one.text) : Inline (ascription declared) := by
  cases declared with
  | none => decide
  | some declared => exact (Inline.append_iff ..).mpr ⟨by decide, inline declared mem_cons_self⟩

/-- An initial value is a single line. -/
theorem inline_initializer {view : Typed.Expr → Typed.Expr} {value : Option Typed.Expr}
    (inline : ∀ one ∈ value.toList, Inline (view one).text) : Inline (initializer (value.map view)) := by
  cases value with
  | none => exact (by decide : Inline "")
  | some value => exact (Inline.append_iff ..).mpr ⟨by decide, inline value mem_cons_self⟩

mutual

/-- Dropping statements drops lines. -/
theorem statement_pruned (indent : Nat) : (printed : Statement Typed.Expr DeclaredType) →
    (statement indent printed.pruned).Sublist (statement indent printed)
  | .letBinding .. | .varBinding .. | .assignment .. | .returning .. | .evaluation .. => .refl _
  | .block inner _ _ _ => ((statements_prunedAll (indent + 1) inner).cons_cons _).append (.refl _)

/-- Dropping statements drops lines. -/
theorem statements_prunedAll (indent : Nat) : (printed : List (Statement Typed.Expr DeclaredType)) →
    (statements indent (Statement.prunedAll printed)).Sublist (statements indent printed)
  | [] => .refl _
  | first :: rest => by
    rw [Statement.prunedAll]
    split
    · exact (statement_pruned indent first).append (nil_sublist _)
    · exact (statement_pruned indent first).append (statements_prunedAll indent rest)

end

mutual

/-- A statement is printed in single lines if its names, types and values are, also if replaced. -/
theorem allSingle_statement (indent : Nat) {view : Typed.Expr → Typed.Expr} :
    (printed : Statement Typed.Expr DeclaredType) → (∀ name ∈ printed.boundNames, Inline name) →
    (∀ declared ∈ printed.ascriptions, Inline declared.text) →
    (∀ expression ∈ printed.expressions, Inline (view expression).text) →
    AllSingle (statement indent (printed.map view))
  | .letBinding name declared value _, names, ascribed, values => by
    refine allSingle_single ?_
    simp +decide [names name mem_cons_self, inline_ascription ascribed,
      values value mem_cons_self]
  | .varBinding name declared value _, names, ascribed, values => by
    refine allSingle_single ?_
    simp +decide [names name mem_cons_self, inline_ascription ascribed, inline_initializer values]
  | .assignment target value _, _, _, values => by
    refine allSingle_single ?_
    simp +decide [values target mem_cons_self,
      values value (mem_cons_of_mem _ mem_cons_self)]
  | .returning (some value) _, _, _, values => by
    refine allSingle_single ?_
    simp +decide [values value mem_cons_self]
  | .returning none _, _, _, _ => allSingle_single (show Inline "return;" by decide)
  | .evaluation value _, _, _, values =>
    allSingle_single ((Inline.append_iff ..).mpr ⟨values value mem_cons_self, by decide⟩)
  | .block inner _ _ _, names, ascribed, values => by
    refine allSingle_append (allSingle_cons (show Inline "\x7b" by decide) ?_)
      (allSingle_single (show Inline "\x7d" by decide))
    exact allSingle_statements (indent + 1) inner names ascribed values

/-- Statements are printed in single lines. -/
theorem allSingle_statements (indent : Nat) {view : Typed.Expr → Typed.Expr} :
    (printed : List (Statement Typed.Expr DeclaredType)) →
    (∀ name ∈ Statement.allBoundNames printed, Inline name) →
    (∀ declared ∈ Statement.allAscriptions printed, Inline declared.text) →
    (∀ expression ∈ Statement.allExpressions printed, Inline (view expression).text) →
    AllSingle (statements indent (Statement.mapAll view printed))
  | [], _, _, _ => forall_mem_nil _
  | first :: rest, names, ascribed, values => by
    obtain ⟨firstNames, restNames⟩ := forall_mem_append.mp names
    obtain ⟨firstAscribed, restAscribed⟩ := forall_mem_append.mp ascribed
    obtain ⟨firstValues, restValues⟩ := forall_mem_append.mp values
    exact allSingle_append (allSingle_statement indent first firstNames firstAscribed firstValues)
      (allSingle_statements indent rest restNames restAscribed restValues)

end

section Functions

variable {declared : Function Typed.Expr DeclaredType}
  (inherits : Analysis.FunctionInherits Surface.written Ty.InlineNames declared)

/-- Implied decorators are single lines. -/
theorem inline_headAttributes (declared : Function Typed.Expr DeclaredType) :
    ∀ decorator ∈ headAttributes declared, decorator.IsInline := by
  unfold headAttributes
  split
  · refine forall_mem_cons.mpr ⟨trivial, ?_⟩
    split
    · exact forall_mem_singleton.mpr trivial
    · split
      · exact forall_mem_singleton.mpr trivial
      · exact forall_mem_nil _
  · exact forall_mem_nil _

include inherits

/-- Parameters are single lines. -/
theorem inline_parameters : ∀ one ∈ (allParameters declared).map slot, Inline one := by
  refine forall_mem_map.mpr fun parameter member => ?_
  rcases mem_append.mp member with given | implied
  · exact inline_slot (inherits.parameters parameter given)
  · rcases impliedSlot?_cases (Option.mem_toList.mp implied) with rfl | rfl <;> decide

/-- A result is a single line. -/
theorem inline_result : Inline (resultText (resultAttributes declared) declared.returnType) := by
  have attributes : ∀ decorator ∈ resultAttributes declared, decorator.IsInline := by
    unfold resultAttributes
    split
    · split
      · unfold impliedResult
        split
        · exact forall_mem_singleton.mpr trivial
        · exact forall_mem_singleton.mpr (show Inline "position" by decide)
        · exact forall_mem_nil _
      · exact Attribute.isInline_of_has inherits.returnAttributes
    · exact forall_mem_nil _
  cases given : declared.returnType with
  | none => exact (by decide : Inline "")
  | some result =>
    simp +decide [resultText, inline_decorators attributes,
      (inherits.returnType result given).inline_text]

/-- The first line of a function is a single line. -/
theorem inline_header : Inline (header declared) := by
  simp +decide [header_eq, inline_decorators (inline_headAttributes declared),
    Inline.of_isName inherits.name, Inline.intercalate (inline_parameters inherits),
    inline_result inherits]

end Functions

/-- An optimized body is printed in single lines. -/
theorem allSingle_optimizedBody {declared : Function Typed.Expr DeclaredType}
    (inherits : Analysis.FunctionInherits Surface.written Ty.InlineNames declared)
    (nodes : ∀ expression ∈ Statement.allExpressions declared.body.statements, expression.InlineNodes)
    (options : OptimizationOptions) :
    AllSingle (statements 1 (Typed.Program.optimizedBody options declared.body.statements)) := by
  have names (name : String) (bound : name ∈ Statement.allBoundNames declared.body.statements) :
      Inline name := .of_isName (inherits.names name bound)
  have ascribed (type : DeclaredType) (inside : type ∈ Statement.allAscriptions declared.body.statements) :
      Inline type.text := (inherits.ascriptions type inside).inline_text
  have folded : AllSingle (statements 1 (if options.constantFolding then
      Statement.mapAll Typed.Expr.folded declared.body.statements else declared.body.statements)) := by
    split
    · refine allSingle_statements 1 _ names ascribed fun expression inside => ?_
      exact expression.folded.inline_text (expression.inlineNodes_folded (nodes expression inside))
    · rw [← Statement.mapAll_id declared.body.statements]
      exact allSingle_statements 1 _ names ascribed fun expression inside =>
        expression.inline_text (nodes expression inside)
  unfold Typed.Program.optimizedBody
  dsimp only
  split
  · exact fun line member => folded line ((statements_prunedAll 1 _).subset member)
  · exact folded

/-- Functions are printed in single lines if each is. -/
theorem allSingle_functions {declared : List (Function Typed.Expr DeclaredType)}
    (each : ∀ one ∈ declared, AllSingle (function one)) : AllSingle (functions declared) := by
  fun_induction functions declared with
  | case1 => exact forall_mem_nil _
  | case2 last => exact each last mem_cons_self
  | case3 first second rest ih =>
    obtain ⟨here, later⟩ := forall_mem_cons.mp each
    exact allSingle_append here (allSingle_cons (show Inline "" by decide) (ih later))

end Printed

/-- The optimized form of a program of words is printed in single lines. -/
theorem Printed.allSingle_optimized {typed : Typed.Program}
    (inherits : Analysis.ProgramInherits Surface.written Ty.InlineNames typed)
    (nodes : ∀ function ∈ typed.functions,
      ∀ expression ∈ Statement.allExpressions function.body.statements, expression.InlineNodes)
    (optimizations : OptimizationOptions) : AllSingle (program (typed.optimize optimizations)) := by
  rw [Typed.Program.optimize_eq]
  refine allSingle_append (allSingle_append (allSingle_append ?_ ?_) ?_) ?_
  · exact allSingle_flatMap fun declared member => allSingle_struct (inherits.structs declared member)
  · refine allSingle_flatMap fun declared member => ?_
    obtain ⟨word, type⟩ := inherits.uniforms declared member
    exact allSingle_uniform word type
  · split
    · exact forall_mem_nil _
    · exact allSingle_single (show Inline "" by decide)
  · refine allSingle_functions fun declared member => ?_
    obtain ⟨original, inside, rfl⟩ := mem_map.mp member
    have functionInherits := inherits.functions original inside
    have head : Inline (header original) := inline_header functionInherits
    refine allSingle_append (allSingle_cons head ?_) (allSingle_single (show Inline "\x7d" by decide))
    exact allSingle_optimizedBody functionInherits (nodes original inside) optimizations

/-- What is read, analyzed and optimized is printed in single lines. -/
theorem Printed.allSingle_program (source : SourceText) (options : Options)
    (optimizations : OptimizationOptions) :
    AllSingle (program ((check source options).program.optimize optimizations)) := by
  have inherits := Analysis.typeProgram_inherits Typing.closed_inlineNames
    (Surface.read_hasDeclaration source) fun _ _ _ _ _ _ => trivial
  rw [program_check]
  refine allSingle_optimized inherits ?_ optimizations
  intro function member expression inside node isNode
  have named := Typed.Expr.namedInline_kept.typeProgram source function member expression inside
  exact (named node isNode).inlineNode
    ((inherits.functions function member).nodes expression inside node isNode)

end Shading
