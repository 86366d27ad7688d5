/-!
# JSON

JSON values, and how they are written over several lines. The members of an object keep their order.
-/

namespace Shading

/-- A JSON value. -/
inductive Json where
  | null
  | bool (value : Bool)
  /-- A number, as it is written. -/
  | number (text : String)
  | string (value : String)
  | array (elements : List Json)
  | object (members : List (String × Json))
deriving Repr, Inhabited

namespace Json

/-- A natural number. -/
def nat (value : Nat) : Json := .number value.repr

/-- A list of texts. -/
def strings (values : List String) : Json := .array (values.map .string)

/-- A text, or nothing. -/
def optional (value : Option Json) : Json := value.getD .null

/-- The hexadecimal digit of a number below sixteen. -/
def hexDigit (value : Nat) : Char := Nat.digitChar value

/-- How a character is written in a text. -/
def escapeCharacter (character : Char) : List Char :=
  match character with
  | '"' => ['\\', '"']
  | '\\' => ['\\', '\\']
  | '\n' => ['\\', 'n']
  | '\r' => ['\\', 'r']
  | '\t' => ['\\', 't']
  | '\x08' => ['\\', 'b']
  | '\x0c' => ['\\', 'f']
  | _ =>
    if character.toNat < 32 then
      ['\\', 'u', '0', '0', hexDigit (character.toNat / 16), hexDigit (character.toNat % 16)]
    else [character]

/-- A text in quotes. -/
def quoted (text : String) : String :=
  String.ofList ('"' :: text.toList.flatMap escapeCharacter ++ ['"'])

/-- The start of a line at a depth of nesting. -/
def lineStart (depth : Nat) : String := "\n" ++ String.ofList (List.replicate (2 * depth) ' ')

mutual

/-- How a value is written at a depth: each element or member on a line, indented by two spaces a
level. -/
def pretty (depth : Nat) : Json → String
  | .null => "null"
  | .bool value => if value then "true" else "false"
  | .number text => text
  | .string value => quoted value
  | .array [] => "[]"
  | .array (first :: rest) =>
    "[" ++ lineStart (depth + 1) ++ first.pretty (depth + 1) ++ prettyElements (depth + 1) rest ++
      lineStart depth ++ "]"
  | .object [] => "\x7b\x7d"
  | .object ((name, value) :: rest) =>
    "\x7b" ++ lineStart (depth + 1) ++ quoted name ++ ": " ++ value.pretty (depth + 1) ++
      prettyMembers (depth + 1) rest ++ lineStart depth ++ "\x7d"

/-- The elements of an array behind the first. -/
def prettyElements (depth : Nat) : List Json → String
  | [] => ""
  | first :: rest => "," ++ lineStart depth ++ first.pretty depth ++ prettyElements depth rest

/-- The members of an object behind the first. -/
def prettyMembers (depth : Nat) : List (String × Json) → String
  | [] => ""
  | (name, value) :: rest =>
    "," ++ lineStart depth ++ quoted name ++ ": " ++ value.pretty depth ++ prettyMembers depth rest

end

/-- How a value is written over several lines. -/
def text (value : Json) : String := value.pretty 0

end Json

end Shading
