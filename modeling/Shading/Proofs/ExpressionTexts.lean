import Shading.Proofs.LiteralTexts
import Shading.Proofs.Nodes
import Shading.Proofs.WrittenTypes

/-!
# Printed expressions spell their tokens

Each printed expression spells the tokens of its parts with operators, brackets and commas between
them, and parentheses stand where the text has them. No two pieces of the text run into one another.
-/

namespace Shading

open List

open Lexer

/-- The token of an operator. -/
def BinaryOperator.token : BinaryOperator → Token
  | .add => .plus
  | .subtract => .minus
  | .multiply => .star
  | .divide => .slash
  | .remainder => .percent
  | .equal => .eqEq
  | .notEqual => .notEq
  | .less => .less
  | .greater => .greater
  | .lessEqual => .lessEq
  | .greaterEqual => .greaterEq
  | .and => .andAnd
  | .or => .orOr

/-- Binary operators have their tokens. -/
theorem BinaryOperator.ofToken?_token (operator : BinaryOperator) :
    ofToken? operator.token = some operator := by
  cases operator <;> rfl

/-- The token of an operator in front of its operand. -/
def UnaryOperator.token : UnaryOperator → Token
  | .negate => .minus
  | .not => .bang

/-- Unary operators have their tokens. -/
theorem UnaryOperator.ofToken?_token (operator : UnaryOperator) :
    ofToken? operator.token = some operator := by
  cases operator <;> rfl

/-- An operator spells its token in front of a blank. -/
theorem spells_operator (operator : BinaryOperator) :
    Spells (fun rest => rest.head? = some ' ') operator.text.toList [operator.token] := by
  cases operator with
  | add => exact (spells_mark '+' rfl).weaken fun _ _ => trivial
  | subtract => exact spells_minus.weaken fun _ blank => by simp [blank]
  | multiply => exact (spells_mark '*' rfl).weaken fun _ _ => trivial
  | divide => exact spells_slash.weaken fun _ blank => by simp [blank]
  | remainder => exact (spells_mark '%' rfl).weaken fun _ _ => trivial
  | less => exact (spells_angle '<' rfl (.inl rfl)).weaken fun _ blank => by simp [blank]
  | greater => exact (spells_angle '>' rfl (.inr rfl)).weaken fun _ blank => by simp [blank]
  | _ => exact (spells_long fun _ => rfl).weaken fun _ _ => trivial

/-- An operator in front of its operand spells its token. -/
theorem spells_prefixed (operator : UnaryOperator) {text : List Char} {tokens : List Token}
    (spells : Spells Stops text tokens) (leads : Leads text) :
    Spells Stops (operator.text.toList ++ text) (operator.token :: tokens) ∧
      Leads (operator.text.toList ++ text) := by
  cases operator with
  | negate =>
    exact ⟨spells_minus.append spells fun rest _ => (leads.head_ne rest).1,
      '-', rfl, by decide, by decide⟩
  | not =>
    exact ⟨spells_bang.append spells fun rest _ => (leads.head_ne rest).2,
      '!', rfl, by decide, by decide⟩

/-- Tokens in parentheses, where they are needed. -/
def enclosed (needed : Bool) (tokens : List Token) : List Token :=
  if needed then .leftParen :: (tokens ++ [.rightParen]) else tokens

/-- A text in parentheses spells its tokens in parentheses. -/
theorem spells_parenthesized {text : String} {tokens : List Token}
    (spells : Spells Stops text.toList tokens) :
    Spells Stops (Typed.parenthesized text).toList (.leftParen :: (tokens ++ [.rightParen])) := by
  have closing : Spells Stops [')'] [.rightParen] :=
    (spells_mark ')' rfl).weaken fun _ _ => trivial
  have inner := spells.append closing fun _ _ => stops_cons _
  have whole := (spells_mark '(' rfl).followedBy inner
  simpa [Typed.parenthesized] using whole

/-- Parentheses around a text are spelled. -/
theorem spells_enclosed {text : String} {tokens : List Token} (needed : Bool)
    (spells : Spells Stops text.toList tokens) (leads : Leads text.toList) :
    Spells Stops (if needed then Typed.parenthesized text else text).toList
        (enclosed needed tokens) ∧
      Leads (if needed then Typed.parenthesized text else text).toList := by
  cases needed with
  | false => exact ⟨spells, leads⟩
  | true =>
    exact ⟨spells_parenthesized spells, '(', by simp [Typed.parenthesized], by decide, by decide⟩

/-- Texts with commas spell theirs, if a comma may follow each. -/
theorem spells_separated {β : Type} {next : List Char → Prop}
    (comma : ∀ rest, next (',' :: rest)) {text : β → String} {tokens : β → List Token}
    {items : List β} (each : ∀ one ∈ items, Spells next (text one).toList (tokens one)) :
    Spells next (", ".intercalate (items.map text)).toList
      (List.intercalate [.comma] (items.map tokens)) := by
  induction items with
  | nil => exact spells_nil
  | cons first rest ih =>
    cases rest with
    | nil => simpa using each first (by simp)
    | cons second others =>
      have separator : Spells Anything [',', ' '] [.comma] :=
        (spells_mark ',' rfl).followedBy (spells_blank rfl)
      have behind := separator.followedBy (ih fun one member => each one (by simp [member]))
      have whole := (each first (by simp)).append behind fun _ _ => comma _
      simpa [String.intercalate_cons_cons, intercalate_cons_cons] using whole

/-- A written type starts no longer operator. -/
theorem WrittenType.leads {written : WrittenType} (legible : written.Legible) :
    Leads written.text.toList := by
  obtain ⟨name, arguments, span⟩ := written
  rw [text, String.toList_append]
  exact legible.1.leads.append _

namespace Typed

/-- The type whose constructor is called has a constructor. -/
def IsConstructed : Ty → Prop
  | .scalar _ | .vector _ _ | .matrix _ _ _ | .array _ _ => True
  | _ => False

namespace Callee

/-- The callee can be written: an identifier or a constructor. -/
def Legible (callee : Callee) (type : Option Ty) : Prop :=
  match callee with
  | .builtin _ => True
  | .constructor _ => ∃ built ∈ type, IsConstructed built ∧ built.WellFormed
  | .struct name | .user name => IsName name

/-- The name of a callee and its type arguments. -/
def written (callee : Callee) (type : Option Ty) : WrittenType :=
  match callee, type with
  | .constructor _, some type => type.written
  | _, _ => .mk callee.name [] .none

/-- Builtin functions have names. -/
theorem isName_builtin (builtin : Builtin) : IsName builtin.name := by
  cases builtin <;> decide

/-- The written form of a legible callee is legible. -/
theorem legible_written {callee : Callee} {type : Option Ty} (legible : callee.Legible type) :
    (callee.written type).Legible := by
  cases callee with
  | builtin builtin => exact ⟨isName_builtin builtin, trivial⟩
  | constructor written =>
    obtain ⟨built, rfl, _, wellFormed⟩ := legible
    exact Ty.legible_written wellFormed
  | struct | user => exact ⟨legible, trivial⟩

/-- A callee is written as its written form. -/
theorem text_written (callee : Callee) (type : Option Ty) :
    (callee.written type).text = callee.text type := by
  unfold written text
  split
  · exact Ty.text_written _
  · simp [WrittenType.text, TypeArgument.listText]

/-- Written forms have no places. -/
theorem unplaced_written (callee : Callee) (type : Option Ty) :
    TypeArgument.allUnplaced (callee.written type).arguments = (callee.written type).arguments := by
  unfold written
  split
  · rename_i built
    have same := congrArg WrittenType.arguments (Ty.unplaced_written built)
    rwa [WrittenType.arguments_unplaced] at same
  · rfl

end Callee

namespace Expr

/-- Whether the expression is a literal with a sign. -/
def isSigned : Expr → Bool
  | .number literal type _ => literal.printsSign type
  | _ => false

/-- What a node needs in order to be written, apart from its parts: integers, identifiers not named
like constructors, and signs told apart by parentheses. -/
def Legible : Expr → Prop
  | .number literal type _ => literal.kind.isInteger ∧ literal.Legible type
  | .identifier name _ _ => IsName name ∧ Surface.takesTypeArguments name = false
  | .call callee _ type _ => callee.Legible type
  | .member base name _ _ _ => IsName name ∧ (base.isSigned → base.isCompound)
  | .index base _ _ _ => base.isSigned → base.isCompound
  | .bool .. | .binary .. | .unary .. => True

/-- All nodes of an expression can be written. -/
def AllLegible (expression : Expr) : Prop := ∀ node ∈ expression.nodes, node.Legible

mutual

/-- The tokens that an expression is written with. -/
def tokens : Expr → List Token
  | .number literal type _ => literal.tokens type
  | .bool value _ _ => [if value then .trueKeyword else .falseKeyword]
  | .identifier name _ _ => [.identifier name]
  | .binary operator left right _ _ =>
    enclosed (!left.standsBare operator false) left.tokens ++
      operator.token :: enclosed (!right.standsBare operator true) right.tokens
  | .unary operator operand _ _ => operator.token :: enclosed operand.isCompound operand.tokens
  | .call callee arguments type _ =>
    (callee.written type).tokens ++
      .leftParen :: (List.intercalate [.comma] (allTokens arguments) ++ [.rightParen])
  | .member base name _ _ _ => enclosed base.isCompound base.tokens ++ [.dot, .identifier name]
  | .index base position _ _ =>
    enclosed base.isCompound base.tokens ++ .leftBracket :: (position.tokens ++ [.rightBracket])

/-- The tokens that expressions are written with. -/
def allTokens : List Expr → List (List Token)
  | [] => []
  | first :: rest => first.tokens :: allTokens rest

end

/-- The tokens of arguments are those of each. -/
theorem allTokens_eq (expressions : List Expr) :
    allTokens expressions = expressions.map tokens := by
  induction expressions with
  | nil => rfl
  | cons first rest ih => rw [allTokens, ih, map_cons]

/-- The texts of arguments are those of each. -/
theorem texts_eq (expressions : List Expr) : texts expressions = expressions.map text := by
  induction expressions with
  | nil => rfl
  | cons first rest ih => rw [texts, ih, map_cons]

/-- Parentheses keep tokens plain. -/
theorem enclosed_plain (needed : Bool) {tokens : List Token} (plain : tokens.all Surface.isPlain) :
    (enclosed needed tokens).all Surface.isPlain := by
  cases needed <;> simp [enclosed, plain, Surface.isPlain]

mutual

/-- The tokens of an expression stand inside items. -/
theorem tokens_plain : (expression : Expr) → expression.tokens.all Surface.isPlain
  | .number literal type _ => by
    simp only [tokens, Number.tokens]
    cases literal.printsSign type <;> rfl
  | .bool value _ _ => by cases value <;> rfl
  | .identifier _ _ _ => rfl
  | .binary operator left right _ _ => by
    have leftPlain := enclosed_plain (!left.standsBare operator false) (tokens_plain left)
    have rightPlain := enclosed_plain (!right.standsBare operator true) (tokens_plain right)
    have operatorPlain : Surface.isPlain operator.token := by cases operator <;> rfl
    simp only [tokens, all_append, all_cons, leftPlain, rightPlain, operatorPlain]
    rfl
  | .unary operator operand _ _ => by
    have inner := enclosed_plain operand.isCompound (tokens_plain operand)
    have operatorPlain : Surface.isPlain operator.token := by cases operator <;> rfl
    simp only [tokens, all_cons, inner, operatorPlain]
    rfl
  | .call callee arguments type _ => by
    have named := (callee.written type).tokens_plain
    have inner := Surface.all_isPlain_intercalate (allTokens_plain arguments)
    simp only [tokens, all_append, all_cons, named, inner]
    rfl
  | .member base _ _ _ _ => by
    have inner := enclosed_plain base.isCompound (tokens_plain base)
    simp only [tokens, all_append, inner]
    rfl
  | .index base position _ _ => by
    have inner := enclosed_plain base.isCompound (tokens_plain base)
    have within := tokens_plain position
    simp only [tokens, all_append, all_cons, inner, within]
    rfl

/-- Arguments have plain tokens. -/
theorem allTokens_plain : (expressions : List Expr) →
    ∀ tokens ∈ allTokens expressions, tokens.all Surface.isPlain
  | [] => by simp [allTokens]
  | first :: rest => forall_mem_cons.mpr ⟨tokens_plain first, allTokens_plain rest⟩

end

/-- An operation spells its operands and its operator. -/
theorem spells_binary (operator : BinaryOperator) {left right : String}
    {leftTokens rightTokens : List Token}
    (leftSpells : Spells Stops left.toList leftTokens)
    (rightSpells : Spells Stops right.toList rightTokens) :
    Spells Stops (left ++ " " ++ operator.text ++ " " ++ right).toList
      (leftTokens ++ operator.token :: rightTokens) := by
  have spaced : Spells Anything (' ' :: (operator.text.toList ++ [' '])) [operator.token] :=
    (spells_blank rfl).followedBy ((spells_operator operator).append (spells_blank rfl)
      fun _ _ => rfl)
  have whole := leftSpells.append (spaced.followedBy rightSpells) fun _ _ => stops_cons _
  simpa using whole

/-- Operands stand in parentheses where they cannot stand bare. -/
theorem text_binary (operator : BinaryOperator) (left right : Expr) (type : Option Ty)
    (span : Span) : (binary operator left right type span).text =
      (if !left.standsBare operator false then parenthesized left.text else left.text) ++ " " ++
        operator.text ++ " " ++
        (if !right.standsBare operator true then parenthesized right.text else right.text) := by
  rw [text]
  cases left.standsBare operator false <;> cases right.standsBare operator true <;> rfl

/-- The text of an expression spells its tokens. -/
theorem spells (expression : Expr) (legible : expression.AllLegible) :
    Spells Stops expression.text.toList expression.tokens ∧ Leads expression.text.toList := by
  induction expression using induction_parts with
  | step expression ih =>
    obtain ⟨here, below⟩ := forall_nodes.mp legible
    have part {part : Expr} (isPart : part ∈ parts expression) :=
      ih part isPart (below part isPart)
    cases expression with
    | number literal type span => exact Number.spells here.2 here.1
    | bool value type span =>
      cases value
      · exact ⟨spells_fixed "false" rfl, 'f', by simp [text], by decide⟩
      · exact ⟨spells_fixed "true" rfl, 't', by simp [text], by decide⟩
    | identifier name type span => exact ⟨spells_name here.1, here.1.leads⟩
    | binary operator left right type span =>
      obtain ⟨leftSpells, leftLeads⟩ := @part left (by simp [parts])
      obtain ⟨rightSpells, rightLeads⟩ := @part right (by simp [parts])
      have leftEnclosed := spells_enclosed (!left.standsBare operator false) leftSpells leftLeads
      have rightEnclosed := spells_enclosed (!right.standsBare operator true) rightSpells rightLeads
      rw [text_binary, tokens]
      refine ⟨spells_binary operator leftEnclosed.1 rightEnclosed.1, ?_⟩
      simp only [String.toList_append, append_assoc]
      exact leftEnclosed.2.append _
    | unary operator operand type span =>
      obtain ⟨inner, leads⟩ := @part operand (by simp [parts])
      have enclosed := spells_enclosed operand.isCompound inner leads
      have whole := spells_prefixed operator enclosed.1 enclosed.2
      rwa [← String.toList_append] at whole
    | call callee arguments type span =>
      have written := Callee.legible_written here
      have named := (callee.written type).spells written
      have inner := spells_separated (fun _ => stops_cons _) fun argument member => (@part argument member).1
      rw [← texts_eq, ← allTokens_eq] at inner
      have whole := named.append (spells_parenthesized inner) fun rest _ => by
        rw [parenthesized, String.toList_append, String.toList_append]
        exact @stops_cons '(' _ (by decide) (by decide)
      rw [text, tokens, String.toList_append, ← Callee.text_written]
      exact ⟨whole, (WrittenType.leads written).append _⟩
    | member base name kind type span =>
      obtain ⟨inner, leads⟩ := @part base (by simp [parts])
      have enclosed := spells_enclosed base.isCompound inner leads
      have dotted := (spells_mark '.' rfl).followedBy (spells_name here.1)
      have whole := enclosed.1.append dotted fun _ _ => stops_cons _
      rw [text, tokens]
      simp only [String.toList_append, append_assoc]
      exact ⟨whole, enclosed.2.append _⟩
    | index base position type span =>
      obtain ⟨inner, leads⟩ := @part base (by simp [parts])
      obtain ⟨within, _⟩ := @part position (by simp [parts])
      have enclosed := spells_enclosed base.isCompound inner leads
      have closing : Spells Stops [']'] [.rightBracket] :=
        (spells_mark ']' rfl).weaken fun _ _ => trivial
      have bracketed := (spells_mark '[' rfl).followedBy
        (within.append closing fun _ _ => stops_cons _)
      have whole := enclosed.1.append bracketed fun _ _ => stops_cons _
      rw [text, tokens]
      simp only [String.toList_append, append_assoc]
      exact ⟨whole, enclosed.2.append _⟩

end Expr

end Typed

end Shading
