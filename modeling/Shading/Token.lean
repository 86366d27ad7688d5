import Shading.Decimal.Shortest
import Shading.Number
import Shading.Span
import Shading.Stage

/-!
# Tokens

The words, literals, operators and brackets that a source text is made of. A line comment that lists
the stages which see a uniform is a token too, for generated code carries that list in a comment.
-/

namespace Shading

/-- A token without its place. -/
inductive Token where
  | fnKeyword
  | structKeyword
  | uniformKeyword
  | varKeyword
  | letKeyword
  | returnKeyword
  | trueKeyword
  | falseKeyword
  | identifier (name : String)
  | number (literal : Number)
  | visibilityComment (stages : List Stage)
  | plus
  | minus
  | star
  | slash
  | percent
  | bang
  | assign
  | eqEq
  | notEq
  | less
  | greater
  | lessEq
  | greaterEq
  | andAnd
  | orOr
  | arrow
  | dot
  | atSign
  | leftParen
  | rightParen
  | leftBrace
  | rightBrace
  | leftBracket
  | rightBracket
  | comma
  | semicolon
  | colon
  | eof
deriving DecidableEq, Repr, Inhabited

namespace Token

/-- The characters of a keyword, an operator or a bracket. -/
def spelling : Token → String
  | .fnKeyword => "fn"
  | .structKeyword => "struct"
  | .uniformKeyword => "uniform"
  | .varKeyword => "var"
  | .letKeyword => "let"
  | .returnKeyword => "return"
  | .trueKeyword => "true"
  | .falseKeyword => "false"
  | .identifier name => name
  | .number literal => Decimal.text .double literal.value
  | .plus => "+"
  | .minus => "-"
  | .star => "*"
  | .slash => "/"
  | .percent => "%"
  | .bang => "!"
  | .assign => "="
  | .eqEq => "=="
  | .notEq => "!="
  | .less => "<"
  | .greater => ">"
  | .lessEq => "<="
  | .greaterEq => ">="
  | .andAnd => "&&"
  | .orOr => "||"
  | .arrow => "->"
  | .dot => "."
  | .atSign => "@"
  | .leftParen => "("
  | .rightParen => ")"
  | .leftBrace => "\x7b"
  | .rightBrace => "\x7d"
  | .leftBracket => "["
  | .rightBracket => "]"
  | .comma => ","
  | .semicolon => ";"
  | .colon => ":"
  | .visibilityComment _ => "visibility comment"
  | .eof => "end of input"

/-- How messages name a token. -/
def text : Token → String
  | .visibilityComment _ => "visibility comment"
  | .eof => "end of input"
  | token => "`" ++ token.spelling ++ "`"

/-- The keyword that a word is, or the identifier. -/
def ofWord : String → Token
  | "fn" => .fnKeyword
  | "struct" => .structKeyword
  | "uniform" => .uniformKeyword
  | "var" => .varKeyword
  | "let" => .letKeyword
  | "return" => .returnKeyword
  | "true" => .trueKeyword
  | "false" => .falseKeyword
  | word => .identifier word

/-- Whether the token opens a bracket that delimits an item: a parenthesis or a brace. -/
def opens : Token → Bool
  | .leftBrace | .leftParen => true
  | _ => false

/-- Whether the token closes a bracket that delimits an item. -/
def closes : Token → Bool
  | .rightBrace | .rightParen => true
  | _ => false

/-- The open brackets behind the token, `depth` before it. A bracket that closes nothing is passed
over. -/
def depthAfter (depth : Nat) (token : Token) : Nat :=
  if token.opens then depth + 1 else if token.closes then depth - 1 else depth

end Token

/-- A token and where it stands. -/
structure LocatedToken where
  token : Token
  span : Span
deriving DecidableEq, Repr, Inhabited

/-- Tokens in the order of a text. -/
abbrev Tokens : Type := List LocatedToken

end Shading
