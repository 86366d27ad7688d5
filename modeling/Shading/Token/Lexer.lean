import Shading.Diagnostic
import Shading.SourceText
import Shading.Token

/-!
# Dividing a text into tokens

At each place the text starts with a lexeme: blanks, a comment, a word, a number, an operator or a
bracket, tried in that order. What starts with none of them is reported and passed over by one
character, and so is the text of a number that is no literal. A block comment without an end is
reported and ends the division. The last token is always the end of the input.
-/

namespace Shading

/-- What a text cannot be divided at. -/
inductive LexicalError where
  /-- A block comment without an end. -/
  | unterminatedComment
  /-- A character that starts nothing. -/
  | invalidCharacter (character : Char)
  /-- The text of a number that is no literal. -/
  | invalidNumber (reason : Number.ReadError)
deriving DecidableEq, Repr

namespace LexicalError

/-- The code of a lexical error. -/
def code : LexicalError → Code
  | .unterminatedComment => .unexpectedToken
  | .invalidCharacter _ => .invalidCharacter
  | .invalidNumber _ => .invalidNumber

/-- The wording of a lexical error. -/
def message : LexicalError → String
  | .unterminatedComment => "unterminated block comment"
  | .invalidCharacter character => s!"invalid character `{character}`"
  | .invalidNumber reason => reason.message

/-- The report of a lexical error. -/
def diagnostic (error : LexicalError) (span : Span) : Diagnostic :=
  .located error.code error.message span

end LexicalError

namespace Lexer

/-- What a text can start with. -/
inductive Lexeme where
  /-- Blanks and comments. -/
  | trivia
  | token (found : Token)
  | invalid (error : LexicalError)
deriving DecidableEq, Repr

/-- A lexeme and how many characters it has. -/
abbrev Match := Lexeme × Nat

/-- Blanks between tokens. -/
def isBlank (character : Char) : Bool :=
  character = ' ' || character = '\t' || character = '\r' || character = '\n'

/-- White space, which surrounds names in a visibility comment. -/
def isWhiteSpace (character : Char) : Bool :=
  let value := character.toNat
  (0x9 ≤ value && value ≤ 0xd) || value = 0x20 || value = 0x85 || value = 0xa0 ||
    value = 0x1680 || (0x2000 ≤ value && value ≤ 0x200a) || value = 0x2028 || value = 0x2029 ||
    value = 0x202f || value = 0x205f || value = 0x3000

/-- Characters that start a word. -/
def startsWord (character : Char) : Bool := character.isAlpha || character = '_'

/-- Characters that continue a word or the end of a number. -/
def continuesWord (character : Char) : Bool := character.isAlphanum || character = '_'

/-- Whether `pattern` stands at the start of a text. -/
def startsWith (pattern text : List Char) : Bool := pattern.isPrefixOf text

/-- Number of characters before the first `*/`, if there is one. -/
def closingOffset? : List Char → Option Nat
  | '*' :: '/' :: _ => some 0
  | _ :: rest => (closingOffset? rest).map (· + 1)
  | [] => none

/-- Drops the white space around a text. -/
def trim (characters : List Char) : List Char :=
  ((characters.dropWhile isWhiteSpace).reverse.dropWhile isWhiteSpace).reverse

/-- Divides characters at commas, which belong to no piece. -/
def splitCommas : List Char → List (List Char)
  | [] => [[]]
  | character :: rest =>
    if character = ',' then [] :: splitCommas rest
    else match splitCommas rest with
      | [] => [[character]]
      | first :: others => (character :: first) :: others

/-- The stages that the text behind `visibility:` lists. -/
def stageList? (characters : List Char) : Option (List Stage) :=
  (splitCommas characters).mapM fun piece => Stage.ofName? (String.ofList (trim piece))

/-- The text behind `visibility:` in the rest of a line comment. -/
def visibilityText? (comment : List Char) : Option (List Char) :=
  let text := comment.dropWhile fun character => character = ' ' || character = '\t'
  let keyword := "visibility:".toList
  if startsWith keyword text then some (text.drop keyword.length) else none

/-- A line comment, told by its characters behind the two slashes. -/
def lineComment (comment : List Char) : Lexeme :=
  match (visibilityText? comment).bind stageList? with
  | some stages => .token (.visibilityComment stages)
  | none => .trivia

/-- The operator of two characters that a text starts with. -/
def longOperator? : List Char → Option Token
  | '-' :: '>' :: _ => some .arrow
  | '=' :: '=' :: _ => some .eqEq
  | '!' :: '=' :: _ => some .notEq
  | '<' :: '=' :: _ => some .lessEq
  | '>' :: '=' :: _ => some .greaterEq
  | '&' :: '&' :: _ => some .andAnd
  | '|' :: '|' :: _ => some .orOr
  | _ => none

/-- The operator or bracket of one character. -/
def symbol? : Char → Option Token
  | '+' => some .plus
  | '-' => some .minus
  | '*' => some .star
  | '/' => some .slash
  | '%' => some .percent
  | '!' => some .bang
  | '=' => some .assign
  | '<' => some .less
  | '>' => some .greater
  | '.' => some .dot
  | '@' => some .atSign
  | '(' => some .leftParen
  | ')' => some .rightParen
  | '\x7b' => some .leftBrace
  | '\x7d' => some .rightBrace
  | '[' => some .leftBracket
  | ']' => some .rightBracket
  | ',' => some .comma
  | ';' => some .semicolon
  | ':' => some .colon
  | _ => none

/-- The length of a fraction: a point and digits. -/
def fractionLength : List Char → Nat
  | '.' :: rest =>
    let digits := (rest.takeWhile Char.isDigit).length
    if digits = 0 then 0 else digits + 1
  | _ => 0

/-- The length of an exponent: a mark, an optional sign and digits. -/
def exponentLength : List Char → Nat
  | mark :: rest =>
    if mark = 'e' ∨ mark = 'E' then
      let sign := match rest with
        | '+' :: _ | '-' :: _ => 1
        | _ => 0
      let digits := ((rest.drop sign).takeWhile Char.isDigit).length
      if digits = 0 then 0 else 1 + sign + digits
    else 0
  | [] => 0

/-- The length of a number: digits, an optional fraction and exponent, and all word characters
behind, so that `12abc` is one bad literal. -/
def numberLength (text : List Char) : Nat :=
  let whole := (text.takeWhile Char.isDigit).length
  let fraction := fractionLength (text.drop whole)
  let exponent := exponentLength (text.drop (whole + fraction))
  let body := whole + fraction + exponent
  body + ((text.drop body).takeWhile continuesWord).length

/-- The lexeme of the text of a number. -/
def numberLexeme (text : List Char) : Lexeme :=
  match Number.read (String.ofList text) with
  | .ok literal => .token (.number literal)
  | .error reason => .invalid (.invalidNumber reason)

/-- The comment that a text starts with. -/
def comment? : List Char → Option Match
  | '/' :: '/' :: rest =>
    let comment := rest.takeWhile (· ≠ '\n')
    some (lineComment comment, comment.length + 2)
  | '/' :: '*' :: rest => (closingOffset? rest).map fun inner => (.trivia, inner + 4)
  | _ => none

/-- The operator or bracket that a text starts with, or the report of its first character. -/
def symbol (first : Char) (rest : List Char) : Match :=
  match longOperator? (first :: rest) with
  | some token => (.token token, 2)
  | none =>
    match symbol? first with
    | some token => (.token token, 1)
    | none => (.invalid (.invalidCharacter first), 1)

/-- The lexeme that a text of `first` and `rest` starts with. -/
def lexeme (first : Char) (rest : List Char) : Match :=
  let text := first :: rest
  if isBlank first then (.trivia, (text.takeWhile isBlank).length)
  else match comment? text with
    | some found => found
    | none =>
      if startsWord first then
        let word := text.takeWhile continuesWord
        (.token (Token.ofWord (String.ofList word)), word.length)
      else if first.isDigit then
        let length := numberLength text
        (numberLexeme (text.take length), length)
      else symbol first rest

/-- Whether a text starts with a block comment that has no end. -/
def isUnterminated (text : List Char) : Bool :=
  startsWith "/*".toList text && (closingOffset? text).isNone

end Lexer

/-- The tokens of a text and the reports about it, each in the order of the text. -/
structure Lexed where
  tokens : List LocatedToken
  diagnostics : List Diagnostic
deriving Repr, Inhabited

namespace Lexer

/-- Puts a lexeme in front of what the rest of the text holds. -/
def Lexeme.prepend (lexeme : Lexeme) (span : Span) (rest : Lexed) : Lexed :=
  match lexeme with
  | .trivia => rest
  | .token found => { rest with tokens := ⟨found, span⟩ :: rest.tokens }
  | .invalid error => { rest with diagnostics := error.diagnostic span :: rest.diagnostics }

/-- The end of the input as the only token. -/
def finish (stop : Position) (diagnostics : List Diagnostic) : Lexed :=
  ⟨[⟨.eof, .startingAt stop 0⟩], diagnostics⟩

/-- Divides a text from `here` on; its first `pending` characters belong to a lexeme told already. -/
def scan (pending : Nat) (here : Position) : List Char → Lexed
  | [] => finish here []
  | first :: rest =>
    match pending with
    | pending + 1 => scan pending (here.advance first) rest
    | 0 =>
      if isUnterminated (first :: rest) then
        finish (here.advanceAll (first :: rest))
          [LexicalError.unterminatedComment.diagnostic (.startingAt here 2)]
      else
        let (lexeme, length) := lexeme first rest
        let span := Span.startingAt here (byteLength ((first :: rest).take length))
        lexeme.prepend span (scan (length - 1) (here.advance first) rest)

end Lexer

/-- Divides a source text into tokens. -/
def tokenize (source : SourceText) : Lexed := Lexer.scan 0 .start source.characters

end Shading
