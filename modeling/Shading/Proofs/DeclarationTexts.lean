import Shading.Printed
import Shading.Proofs.ExpressionTexts

/-!
# Printed declarations spell their tokens

Every line of a printed struct or uniform spells the tokens of its declaration, and lines can be put one
below the other. The comment in front of a uniform is a token as well. The heading of an entry point is
printed with the decorators and the parameter that its stage implies, and is described as printed.
-/

namespace Shading

open List Printed

variable {stages : List Stage} {β : Type} {items : List β}

namespace Lexer

section Pieces

variable {text : List Char} {tokens : List Token}

/-- Neither a word nor a number goes on in what follows. -/
def EndsNumeral (rest : List Char) : Prop := Stops rest ∧ rest.head? ≠ some '.'

/-- Other characters end a number. -/
theorem endsNumeral_cons {next : Char} (outside : continuesWord next = false) (notEqual : next ≠ '=')
    (notPoint : next ≠ '.') (rest : List Char) : EndsNumeral (next :: rest) :=
  ⟨stops_cons rest outside notEqual, by simpa using notPoint⟩

/-- A keyword in front of a blank spells its token. -/
theorem spells_keyword (word : String) (token : Token) (known : Token.ofWord word = token)
    (fixed : isWord word) : Spells Anything (word.toList ++ [' ']) [token] := by
  rw [← known]
  exact (spells_fixed word fixed).append (spells_blank rfl) fun _ _ => stops_cons _

/-- A colon and a blank in front of a text spell a colon. -/
theorem spells_ascribed (spells : Spells Stops text tokens) :
    Spells Stops (':' :: ' ' :: text) (.colon :: tokens) :=
  (spells_mark ':' rfl).followedBy ((spells_blank rfl).followedBy spells)

/-- A mark behind a text spells its token. -/
theorem Spells.marked {next : List Char → Prop} (spells : Spells next text tokens) (mark : Char)
    {token : Token} (known : symbol? mark = some token) (admits : ∀ rest, next (mark :: rest))
    (noSlash : mark ≠ '/' := by decide)
    (short : ∀ rest, longOperator? (mark :: rest) = none := by exact fun _ => rfl) :
    Spells Anything (text ++ [mark]) (tokens ++ [token]) :=
  spells.append (spells_mark mark known noSlash short) fun rest _ => admits rest

/-- A semicolon behind a text spells a semicolon. -/
theorem Spells.ended (spells : Spells Stops text tokens) :
    Spells Anything (text ++ [';']) (tokens ++ [.semicolon]) :=
  spells.marked ';' rfl fun _ => stops_cons _

/-- Before a blank, a text spells its tokens. -/
theorem Spells.spaced (spells : Spells Stops text tokens) : Spells Anything (text ++ [' ']) tokens := by
  simpa using spells.append (spells_blank rfl) fun _ _ => stops_cons _

end Pieces

end Lexer

open Lexer
open Typed (DeclaredType)

namespace Attribute

/-- The name of a decorator behind its at sign. -/
def word : Attribute → String
  | .stage which => which.name
  | .workgroupSize _ => "workgroup_size"
  | .group _ => "group"
  | .binding _ => "binding"
  | .visibility _ => "visibility"
  | .builtin _ => "builtin"
  | .location _ => "location"

/-- The arguments of a decorator. -/
def arguments : Attribute → List Surface.DecoratorArgument
  | .stage _ => []
  | .workgroupSize dimensions => dimensions.map fun size => .number (.natural size .abstract)
  | .group index | .binding index | .location index => [.number (.natural index .abstract)]
  | .visibility stages => stages.map fun stage => .name stage.name
  | .builtin name => [.name name]

/-- The tokens of a decorator; no arguments have no parentheses. -/
def tokens (decorator : Attribute) : List Token :=
  .atSign :: .identifier decorator.word ::
    if decorator.arguments.isEmpty then []
    else .leftParen ::
      (List.intercalate [.comma] (decorator.arguments.map fun argument => [argument.token]) ++
        [.rightParen])

/-- Names are identifiers, numbers are counts, and what is needed is there. -/
def Legible : Attribute → Prop
  | .stage _ => True
  | .workgroupSize dimensions =>
    1 ≤ dimensions.length ∧ dimensions.length ≤ 3 ∧
      ∀ size ∈ dimensions, 0 < size ∧ (size : Int) ≤ Number.greatestU32
  | .group index | .binding index | .location index => (index : Int) ≤ Number.greatestU32
  | .visibility stages => stages ≠ []
  | .builtin name => IsName name

/-- Stages have names. -/
theorem isName_stage (stage : Stage) : IsName stage.name := by cases stage <;> decide

/-- A count spells its literal. -/
theorem spells_count {value : Nat} (counts : (value : Int) ≤ Number.greatestU32) :
    Spells EndsNumeral value.repr.toList [.number (.natural value .abstract)] := by
  have small := Number.lt_twoTo_of_le counts
  have spelled : Spells _ (value.repr.toList ++ []) [.number (.natural value .abstract)] :=
    spells_natural small rfl rfl
  rw [append_nil] at spelled
  exact spelled.weaken fun rest ends => ends

/-- Arguments are spelled between parentheses. -/
theorem spells_listed {β : Type} {word : String} (isName : IsName word) {items : List β}
    {text : β → String} {token : β → Token}
    (each : ∀ one ∈ items, Spells EndsNumeral (text one).toList [token one]) :
    Spells Anything ("@" ++ word ++ "(" ++ ", ".intercalate (items.map text) ++ ")").toList
      (.atSign :: .identifier word :: .leftParen ::
        (List.intercalate [.comma] (items.map fun one => [token one]) ++ [.rightParen])) := by
  have separated := spells_separated
    (fun _ => endsNumeral_cons (by decide) (by decide) (by decide) _) each
  have inner := separated.marked ')' rfl fun _ =>
    endsNumeral_cons (by decide) (by decide) (by decide) _
  have opened := (spells_mark '(' rfl).followedBy inner
  have named := (spells_name isName).append opened fun _ _ => stops_cons _
  simpa using (spells_mark '@' rfl).followedBy named

/-- A single number is spelled between parentheses. -/
theorem spells_counted {word : String} (isName : IsName word) {index : Nat}
    (counts : (index : Int) ≤ Number.greatestU32) :
    Spells Stops ("@" ++ word ++ "(" ++ index.repr ++ ")").toList
      [.atSign, .identifier word, .leftParen, .number (.natural index .abstract), .rightParen] := by
  have listed := @spells_listed _ _ isName [index] Nat.repr
    (fun size => .number (.natural size .abstract)) (by simpa using spells_count counts)
  rw [map_singleton, map_singleton, String.intercalate_singleton,
    intercalate_singleton] at listed
  exact listed.weaken fun _ _ => trivial

/-- The tokens of a decorator with arguments. -/
theorem tokens_listed {decorator : Attribute} (nonempty : items ≠ [])
    {argument : β → Surface.DecoratorArgument} (same : decorator.arguments = items.map argument) :
    decorator.tokens =
      .atSign :: .identifier decorator.word :: .leftParen ::
        (List.intercalate [.comma] (items.map fun one => [(argument one).token]) ++ [.rightParen]) := by
  have notEmpty : ¬ (items.map argument).isEmpty := by simpa using nonempty
  rw [tokens, same, if_neg notEmpty, map_map]
  rfl

/-- A decorator spells its tokens. -/
theorem spells {decorator : Attribute} (legible : decorator.Legible) :
    Spells Stops decorator.text.toList decorator.tokens := by
  cases decorator with
  | stage which =>
    have sign : "@".toList = ['@'] := by decide
    change Spells Stops ("@" ++ which.name).toList _
    rw [String.toList_append, sign]
    exact (spells_mark '@' rfl).followedBy
      (spells_name (isName_stage which))
  | workgroupSize dimensions =>
    obtain ⟨least, _, sizes⟩ := legible
    have some : dimensions ≠ [] := by
      rintro rfl
      simp at least
    have listed := @spells_listed _ "workgroup_size" (by decide) dimensions Nat.repr
      (fun size => .number (.natural size .abstract)) fun size member =>
        spells_count (sizes size member).2
    rw [tokens_listed some rfl]
    exact listed.weaken fun _ _ => trivial
  | group index => exact @spells_counted "group" (by decide) index legible
  | binding index => exact @spells_counted "binding" (by decide) index legible
  | visibility stages =>
    have some : stages ≠ [] := legible
    have listed := @spells_listed _ "visibility" (by decide) stages Stage.name
      (fun stage => .identifier stage.name) fun stage _ =>
        (spells_name (isName_stage stage)).weaken fun _ ends => ends.1
    rw [tokens_listed some rfl]
    exact listed.weaken fun _ _ => trivial
  | builtin name =>
    have named : Spells EndsNumeral name.toList [.identifier name] :=
      (spells_name legible).weaken fun _ ends => ends.1
    have listed := @spells_listed _ "builtin" (by decide) [name] id Token.identifier
      (by simpa using named)
    rw [map_singleton, map_singleton, String.intercalate_singleton,
      intercalate_singleton] at listed
    exact listed.weaken fun _ _ => trivial
  | location index => exact @spells_counted "location" (by decide) index legible

/-- The tokens of decorators. -/
def allTokens (attributes : List Attribute) : List Token := attributes.flatMap tokens

/-- Decorators spell their tokens before the rest. -/
theorem spells_all {attributes : List Attribute}
    (legible : ∀ decorator ∈ attributes, decorator.Legible) :
    Spells Anything (Printed.decorators attributes).toList (allTokens attributes) := by
  induction attributes with
  | nil => exact spells_nil
  | cons first rest ih =>
    have here := (spells (legible first (by simp))).spaced
    have later := ih fun decorator member => legible decorator (by simp [member])
    simpa [Printed.decorators, allTokens, String.join_cons] using here.followedBy later

end Attribute

namespace Typed.DeclaredType

/-- The written form of a type or of the text of an ascription. -/
def spelling (declared : DeclaredType) : WrittenType :=
  match declared.resolved with
  | some type => type.written
  | none => (WrittenType.ofText? declared.written).getD (.mk declared.written [] .none)

/-- The written form has no places. -/
theorem unplaced_spelling (declared : DeclaredType) :
    declared.spelling.unplaced = declared.spelling := by
  unfold spelling
  split
  · exact Ty.unplaced_written _
  · unfold WrittenType.ofText?
    split
    · rename_i written _ _
      exact written.unplaced_spec.2.2
    · rfl

/-- The ascription can be written and has its text. -/
structure Legible (declared : DeclaredType) : Prop where
  spelling : declared.spelling.Legible
  text : declared.spelling.text = declared.text

/-- An ascription of a well-formed type can be written. -/
theorem legible_resolved {declared : DeclaredType} {type : Ty} (resolved : declared.resolved = some type)
    (wellFormed : type.WellFormed) : declared.Legible := by
  have same : declared.spelling = type.written := by rw [DeclaredType.spelling, resolved]
  constructor
  · rw [same]
    exact Ty.legible_written wellFormed
  · rw [same, Ty.text_written, DeclaredType.text, resolved]

/-- A text written like a type can be written. -/
theorem legible_unresolved {declared : DeclaredType} {written : WrittenType}
    (unresolved : declared.resolved = none) (same : declared.written = written.text)
    (legible : written.Legible) (shallow : written.depth ≤ Surface.nestingLimit) :
    declared.Legible ∧ declared.spelling.depth ≤ Surface.nestingLimit := by
  have spelled : declared.spelling = written.unplaced := by
    rw [DeclaredType.spelling, unresolved, same, WrittenType.ofText?_text legible shallow]
    rfl
  obtain ⟨kept, depth, _⟩ := written.unplaced_spec
  refine ⟨⟨?_, ?_⟩, ?_⟩
  · rw [spelled]
    exact kept legible
  · rw [spelled, written.text_unplaced, DeclaredType.text, unresolved, same]
  · rw [spelled, depth]
    exact shallow

/-- Such an ascription spells its written form. -/
theorem spells {declared : DeclaredType} (legible : declared.Legible) :
    Spells Stops declared.text.toList declared.spelling.tokens := by
  rw [← legible.text]
  exact declared.spelling.spells legible.spelling

end Typed.DeclaredType

namespace Slot

/-- The tokens that a parameter or field is written with. -/
def tokens (slot : Slot DeclaredType) : List Token :=
  Attribute.allTokens slot.attributes ++
    .identifier slot.name :: .colon :: slot.ascription.spelling.tokens

/-- The parameter or field can be written. -/
structure Legible (slot : Slot DeclaredType) : Prop where
  attributes : ∀ decorator ∈ slot.attributes, decorator.Legible
  name : IsName slot.name
  ascription : slot.ascription.Legible

/-- A parameter or field spells its tokens. -/
theorem spells {slot : Slot DeclaredType} (legible : slot.Legible) :
    Spells Stops (Printed.slot slot).toList slot.tokens := by
  have ascribed := spells_ascribed (DeclaredType.spells legible.ascription)
  have named := (spells_name legible.name).append ascribed fun _ _ => stops_cons _
  simpa [Printed.slot, tokens] using (Attribute.spells_all legible.attributes).followedBy named

end Slot

namespace PrintedLine

/-- A line spells what its text spells. -/
theorem spells {next : List Char → Prop} {line : PrintedLine} {tokens : List Token}
    (spells : Spells next line.text.toList tokens) (admits : ∀ rest, next ('\n' :: rest)) :
    Spells Anything line.code.toList tokens := by
  have indented := (spells_blanks fun blank member => by
    rw [eq_of_mem_replicate member]
    rfl : Spells Anything (List.replicate (line.indent * indentWidth) ' ') []).followedBy spells
  have newline : Spells Anything ['\n'] [] := spells_blank rfl
  have whole := indented.append newline fun rest _ => admits rest
  simpa [code] using whole

/-- A line spells a text that needs no end. -/
theorem spells_complete {line : PrintedLine} {tokens : List Token}
    (spells : Spells Anything line.text.toList tokens) : Spells Anything line.code.toList tokens :=
  PrintedLine.spells spells fun _ => trivial

end PrintedLine

namespace Printed

section Lines

variable {line : PrintedLine} {lines more : List PrintedLine} {tokens others : List Token}

/-- The code of lines is that of each. -/
theorem code_cons (line : PrintedLine) (lines : List PrintedLine) :
    code (line :: lines) = line.code ++ code lines := by
  simp [code, String.join_cons]

/-- The code of joined lines is joined. -/
theorem code_append (lines more : List PrintedLine) :
    code (lines ++ more) = code lines ++ code more := by
  simp [code, String.join_append]

/-- A line spells its tokens before the others. -/
theorem spells_cons (spells : Spells Anything line.code.toList tokens)
    (behind : Spells Anything (code lines).toList others) :
    Spells Anything (code (line :: lines)).toList (tokens ++ others) := by
  rw [code_cons, String.toList_append]
  exact spells.followedBy behind

/-- Lines spell their tokens before the others. -/
theorem spells_append (spells : Spells Anything (code lines).toList tokens)
    (behind : Spells Anything (code more).toList others) :
    Spells Anything (code (lines ++ more)).toList (tokens ++ others) := by
  rw [code_append, String.toList_append]
  exact spells.followedBy behind

/-- One line alone. -/
theorem spells_line (spells : Spells Anything line.code.toList tokens) :
    Spells Anything (code [line]).toList tokens := by
  have nothing : Spells Anything (code []).toList [] := spells_nil
  simpa using spells_cons spells nothing

/-- An empty line spells nothing. -/
theorem spells_blankLine : Spells Anything PrintedLine.blank.code.toList [] :=
  PrintedLine.spells_complete spells_nil

/-- A line with a closing brace. -/
theorem spells_closing (indent : Nat) :
    Spells Anything (PrintedLine.code ⟨indent, "\x7d", none⟩).toList [.rightBrace] := by
  have brace : Spells Anything ['\x7d'] [.rightBrace] := spells_mark '\x7d' rfl
  exact PrintedLine.spells_complete (by simpa using brace)

/-- The lines of several items spell the tokens of each. -/
theorem spells_flatMap {print : β → List PrintedLine} {tokensOf : β → List Token}
    (each : ∀ one ∈ items, Spells Anything (code (print one)).toList (tokensOf one)) :
    Spells Anything (code (items.flatMap print)).toList (items.flatMap tokensOf) := by
  induction items with
  | nil => exact spells_nil
  | cons first rest ih =>
    exact spells_append (each first (by simp)) (ih fun one member => each one (by simp [member]))

end Lines

end Printed

namespace Struct

/-- The tokens of a struct; a comma follows each field. -/
def tokens (struct : Struct DeclaredType) : List Token :=
  .structKeyword :: .identifier struct.name :: .leftBrace ::
    (struct.fields.flatMap (fun field => field.tokens ++ [.comma]) ++ [.rightBrace])

/-- The struct can be written. -/
structure Legible (struct : Struct DeclaredType) : Prop where
  name : IsName struct.name
  fields : ∀ field ∈ struct.fields, field.Legible

/-- The lines of a struct spell its tokens. -/
theorem spells {struct : Struct DeclaredType} (legible : struct.Legible) :
    Spells Anything (Printed.code (Printed.struct struct)).toList struct.tokens := by
  have named := (spells_name legible.name).spaced.followedBy
    (spells_mark '\x7b' rfl)
  have head := (spells_keyword "struct" .structKeyword rfl rfl).followedBy named
  have opening : Spells Anything ("struct " ++ struct.name ++ " \x7b").toList
      [.structKeyword, .identifier struct.name, .leftBrace] := by simpa using head
  have field (one : Slot DeclaredType) (member : one ∈ struct.fields) :
      Spells Anything (Printed.code [⟨1, Printed.slot one ++ ",", none⟩]).toList
        (one.tokens ++ [.comma]) := by
    have marked := (Slot.spells (legible.fields one member)).marked ',' rfl fun _ => stops_cons _
    exact spells_line (PrintedLine.spells_complete (by simpa using marked))
  have closing : Spells Anything (Printed.code [⟨0, "\x7d", none⟩, .blank]).toList [.rightBrace] :=
    spells_cons (spells_closing 0) (spells_line spells_blankLine)
  have fields := spells_flatMap field
  rw [← map_eq_flatMap] at fields
  have whole := spells_cons
    (@PrintedLine.spells_complete ⟨0, _, some (struct.span, some struct.name)⟩ _ opening)
    (spells_append fields closing)
  exact whole

end Struct

namespace Lexer

/-- Names are divided at commas. -/
theorem splitCommas_names {names : List (List Char)} (nonempty : names ≠ [])
    (plain : ∀ name ∈ names, ',' ∉ name) :
    splitCommas (List.intercalate [','] names) = names := by
  have single (name : List Char) (noComma : ',' ∉ name) (rest : List (List Char)) (more : List Char)
      (tail : splitCommas more = [] :: rest) : splitCommas (name ++ more) = name :: rest := by
    induction name with
    | nil => exact tail
    | cons first others ih =>
      have outside : first ≠ ',' := by
        rintro rfl
        simp at noComma
      have later := ih fun member => noComma (by simp [member])
      rw [cons_append, splitCommas, if_neg outside, later]
  induction names with
  | nil => exact absurd rfl nonempty
  | cons first rest ih =>
    cases rest with
    | nil =>
      have alone := single first (plain first (by simp)) [] [] rfl
      simpa using alone
    | cons second others =>
      have later := ih (by simp) fun name member => plain name (by simp [member])
      rw [intercalate_cons_cons, append_assoc]
      exact single first (plain first (by simp)) _ _ (by simp [splitCommas, later])

/-- The stages that a visibility comment lists are read back. -/
theorem stageList?_names (nonempty : stages ≠ []) :
    stageList? (' ' :: (", ".intercalate (stages.map Stage.name)).toList) = some stages := by
  have text : ' ' :: (", ".intercalate (stages.map Stage.name)).toList =
      List.intercalate [','] (stages.map fun stage => ' ' :: stage.name.toList) := by
    induction stages with
    | nil => exact absurd rfl nonempty
    | cons first rest ih =>
      cases rest with
      | nil => simp
      | cons second others =>
        have later := ih (by simp)
        simp only [map_cons] at later ⊢
        rw [intercalate_cons_cons, ← later, String.intercalate_cons_cons]
        simp
  have plain : ∀ name ∈ stages.map fun stage => ' ' :: stage.name.toList, ',' ∉ name := by
    intro name member
    obtain ⟨stage, _, rfl⟩ := mem_map.mp member
    cases stage <;> decide
  have known (stage : Stage) :
      Stage.ofName? (String.ofList (trim (' ' :: stage.name.toList))) = some stage := by
    cases stage <;> decide
  rw [text, stageList?, splitCommas_names (by simpa using nonempty) plain, mapM_map]
  simp only [Function.comp_def, known]
  exact mapM_pure.trans (by simp)

/-- The names of stages stand on one line. -/
theorem newline_notMem_names (stages : List Stage) :
    '\n' ∉ (", ".intercalate (stages.map Stage.name)).toList := by
  induction stages with
  | nil => simp
  | cons first rest ih =>
    have single : '\n' ∉ first.name.toList := by cases first <;> decide
    cases rest with
    | nil => simpa using single
    | cons second others =>
      simp only [map_cons] at ih ⊢
      rw [String.intercalate_cons_cons]
      simpa [single] using ih

/-- A comment that lists stages spells them. -/
theorem spells_lineComment {comment : List Char} (oneLine : '\n' ∉ comment)
    (found : lineComment comment = .token (.visibilityComment stages)) :
    Spells (fun rest => rest.head? = some '\n') ('/' :: '/' :: comment)
      [.visibilityComment stages] := by
  refine spells_lexeme (fun rest _ => by simp [isUnterminated, startsWith]) fun rest newline => ?_
  have taken : (comment ++ rest).takeWhile (· ≠ '\n') = comment := by
    rw [takeWhile_append_of_pos]
    · obtain ⟨others, rfl⟩ := head?_eq_some_iff.mp newline
      simp
    · intro character member
      rw [decide_eq_true_eq]
      rintro rfl
      exact oneLine member
  have divided : comment? ('/' :: '/' :: (comment ++ rest)) =
      some (.token (.visibilityComment stages), comment.length + 2) := by
    simp only [comment?, taken, found]
  have noBlank : isBlank '/' = false := by decide
  rw [cons_append, lexeme, if_neg (by simp [noBlank])]
  simp only [divided, length_cons]

/-- The comment before a uniform spells its stages. -/
theorem spells_visibility (nonempty : stages ≠ []) :
    Spells (fun rest => rest.head? = some '\n')
      ("// visibility: " ++ ", ".intercalate (stages.map Stage.name)).toList
      [.visibilityComment stages] := by
  have listed := stageList?_names nonempty
  have oneLine := newline_notMem_names stages
  rw [String.toList_append]
  generalize (", ".intercalate (stages.map Stage.name)).toList = names at listed oneLine
  have keyword : "visibility:".toList = ['v', 'i', 's', 'i', 'b', 'i', 'l', 'i', 't', 'y', ':'] := by
    decide
  have head : "// visibility: ".toList = '/' :: '/' :: ' ' :: ("visibility:".toList ++ [' ']) := by
    decide
  have shape : "// visibility: ".toList ++ names =
      '/' :: '/' :: ' ' :: ("visibility:".toList ++ ' ' :: names) := by
    rw [head]
    simp
  rw [shape]
  apply spells_lineComment
  · simpa [keyword] using oneLine
  · simp [lineComment, visibilityText?, keyword, startsWith, listed]

end Lexer

namespace Uniform

/-- The tokens of the storage of a uniform. -/
def storageTokens (declared : DeclaredType) : List Token :=
  if declared.resolved.any Ty.isHandle then [.varKeyword]
  else [.varKeyword, .less, .uniformKeyword, .greater]

/-- The tokens that a uniform is written with. -/
def tokens (uniform : Uniform DeclaredType) : List Token :=
  .visibilityComment uniform.visibility ::
    (Attribute.allTokens [.group uniform.group, .binding uniform.binding] ++
      (storageTokens uniform.ascription ++ .identifier uniform.name :: .colon ::
        (uniform.ascription.spelling.tokens ++ [.semicolon])))

/-- The uniform can be written. -/
structure Legible (uniform : Uniform DeclaredType) : Prop where
  name : IsName uniform.name
  ascription : uniform.ascription.Legible
  group : (uniform.group : Int) ≤ Number.greatestU32
  binding : (uniform.binding : Int) ≤ Number.greatestU32
  visibility : uniform.visibility ≠ []

/-- The storage of a uniform spells its tokens. -/
theorem spells_storage (declared : DeclaredType) :
    Spells Stops (Printed.storage declared).toList (storageTokens declared) := by
  have keyword : Spells Stops "var".toList [.varKeyword] := spells_fixed "var" rfl
  have space : Spells Stops "uniform".toList [.uniformKeyword] :=
    spells_fixed "uniform" rfl
  unfold Printed.storage storageTokens
  split
  · exact keyword
  · have closing := (spells_angle '>' rfl (.inr rfl)).weaken fun _ => Stops.head_ne_equal
    have inner := space.append closing fun _ _ => stops_cons _
    have bracketed := (spells_angle '<' rfl (.inl rfl)).append inner fun _ _ => by simp
    have whole := keyword.append bracketed fun _ _ => stops_cons _
    simpa using whole

/-- The lines of a uniform spell its tokens. -/
theorem spells {uniform : Uniform DeclaredType} (legible : uniform.Legible) :
    Spells Anything (Printed.code (Printed.uniform uniform)).toList uniform.tokens := by
  have comment := @PrintedLine.spells _ ⟨0, _, none⟩ _ (spells_visibility legible.visibility)
    fun _ => rfl
  have ascribed := spells_ascribed (DeclaredType.spells legible.ascription)
  have named := (spells_name legible.name).append ascribed fun _ _ => stops_cons _
  have stored := (spells_storage uniform.ascription).spaced.followedBy named.ended
  have decorated := (@Attribute.spells_all [.group uniform.group, .binding uniform.binding]
    (by simpa using ⟨legible.group, legible.binding⟩)).followedBy stored
  have line : Spells Anything (Attribute.text (.group uniform.group) ++ " " ++
      Attribute.text (.binding uniform.binding) ++ " " ++ Printed.storage uniform.ascription ++ " " ++
      uniform.name ++ ": " ++ uniform.ascription.text ++ ";").toList
      (Attribute.allTokens [.group uniform.group, .binding uniform.binding] ++
        (storageTokens uniform.ascription ++ .identifier uniform.name :: .colon ::
          (uniform.ascription.spelling.tokens ++ [.semicolon]))) := by
    simpa [Printed.decorators, String.join_cons] using decorated
  exact spells_cons comment (spells_line (PrintedLine.spells_complete line))

end Uniform

namespace Printed

/-- The parameter that a vertex stage needs. -/
def vertexIndex : Slot DeclaredType :=
  ⟨[.builtin "vertex_index"], "vertex_index", ⟨some (.scalar .u32), "u32"⟩, .none⟩

/-- The parameter that a compute stage needs. -/
def globalId : Slot DeclaredType :=
  ⟨[.builtin "global_invocation_id"], "global_id", ⟨some (.vector 3 .u32), "vec3<u32>"⟩, .none⟩

/-- The parameter that a stage needs and the source omits. -/
def impliedSlot? (stage : Option Stage) (parameters : List (Slot DeclaredType)) :
    Option (Slot DeclaredType) :=
  match stage with
  | some .vertex => if takesBuiltin parameters "vertex_index" then none else some vertexIndex
  | some .compute => if takesBuiltin parameters "global_invocation_id" then none else some globalId
  | _ => none

/-- The implied parameter is written like any other. -/
theorem impliedParameter?_eq (stage : Option Stage) (parameters : List (Slot DeclaredType)) :
    impliedParameter? stage parameters = (impliedSlot? stage parameters).map slot := by
  have vertex : slot vertexIndex = "@builtin(vertex_index) vertex_index: u32" := by decide
  have compute : slot globalId = "@builtin(global_invocation_id) global_id: vec3<u32>" := by decide
  rcases stage with _ | _ | _ | _
  · rfl
  · simp only [impliedParameter?, impliedSlot?]
    split <;> simp [vertex]
  · rfl
  · simp only [impliedParameter?, impliedSlot?]
    split <;> simp [compute]

/-- The implied parameter is one of two. -/
theorem impliedSlot?_cases {stage : Option Stage} {parameters : List (Slot DeclaredType)}
    {implied : Slot DeclaredType} (found : impliedSlot? stage parameters = some implied) :
    implied = vertexIndex ∨ implied = globalId := by
  rcases stage with _ | _ | _ | _
  · cases found
  · simp only [impliedSlot?] at found
    split at found
    · cases found
    · exact .inl (Option.some.inj found).symm
  · cases found
  · simp only [impliedSlot?] at found
    split at found
    · cases found
    · exact .inr (Option.some.inj found).symm

/-- The decorators in front of a printed function. -/
def headAttributes (function : Function Typed.Expr DeclaredType) : List Attribute :=
  match function.stage? with
  | some stage => stageDecorators stage function.attributes
  | none => []

/-- The parameters of a printed function. -/
def allParameters (function : Function Typed.Expr DeclaredType) : List (Slot DeclaredType) :=
  function.parameters ++ (impliedSlot? function.stage? function.parameters).toList

/-- The decorators before a printed return type. -/
def resultAttributes (function : Function Typed.Expr DeclaredType) : List Attribute :=
  match function.returnType with
  | some declared =>
    if function.returnAttributes.isEmpty then impliedResult function.stage? declared.resolved
    else function.returnAttributes
  | none => []

/-- A return type behind the parameters of a function. -/
def resultText (attributes : List Attribute) : Option DeclaredType → String
  | some declared => " -> " ++ decorators attributes ++ declared.text
  | none => ""

/-- A result has its decorators. -/
theorem result_eq (function : Function Typed.Expr DeclaredType) :
    result function = resultText (resultAttributes function) function.returnType := by
  unfold result resultText resultAttributes
  cases function.returnType <;> rfl

/-- The header of a function is its parts in order. -/
theorem header_eq (function : Function Typed.Expr DeclaredType) :
    header function = decorators (headAttributes function) ++ ("fn " ++ (function.name ++ ("(" ++
      (", ".intercalate ((allParameters function).map slot) ++ (")" ++
        (resultText (resultAttributes function) function.returnType ++ " \x7b")))))) := by
  have parameters : function.parameters.map slot ++
      (impliedParameter? function.stage? function.parameters).toList =
        (allParameters function).map slot := by
    rw [impliedParameter?_eq, allParameters, map_append, Option.toList_map]
  unfold header headAttributes
  rw [parameters, result_eq]
  cases function.stage? with
  | some stage => simp only [String.append_assoc]
  | none =>
    have nothing : decorators [] = "" := rfl
    simp only [String.append_assoc, nothing]

end Printed

namespace Typed.Program

/-- The structs and uniforms of a program can be written. -/
structure Legible (program : Program) : Prop where
  structs : ∀ struct ∈ program.structs, struct.Legible
  uniforms : ∀ uniform ∈ program.uniforms, uniform.Legible

/-- The tokens of structs and uniforms. -/
def tokens (program : Program) : List Token :=
  program.structs.flatMap Struct.tokens ++ program.uniforms.flatMap Uniform.tokens

/-- The code without functions spells its tokens. -/
theorem spells {program : Program} (legible : program.Legible)
    (noFunctions : program.functions = []) :
    Spells Anything (Printed.code (Printed.program program)).toList program.tokens := by
  have structs := spells_flatMap fun struct member =>
    Struct.spells (legible.structs struct member)
  have uniforms := spells_flatMap fun uniform member =>
    Uniform.spells (legible.uniforms uniform member)
  have gap : Spells Anything
      (Printed.code (if program.uniforms.isEmpty then [] else [.blank])).toList [] := by
    split
    · exact spells_nil
    · exact spells_line spells_blankLine
  have whole := spells_append structs (spells_append uniforms gap)
  simpa [Printed.program, Printed.functions, noFunctions, tokens] using whole

end Typed.Program

end Shading
