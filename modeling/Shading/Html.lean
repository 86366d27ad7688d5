/-!
# HTML

A fragment of HTML as a tree of elements and texts. Texts and attribute values are escaped when the
tree is written, and only there, so nothing in them can be taken for a tag.
-/

namespace Shading

/-- A piece of HTML. -/
inductive Html where
  | text (content : String)
  | element (tag : String) (attributes : List (String × String)) (children : List Html)
deriving Repr, Inhabited

namespace Html

/-- How a character is written in a text. -/
def escapeCharacter : Char → List Char
  | '&' => "&amp;".toList
  | '<' => "&lt;".toList
  | '>' => "&gt;".toList
  | '"' => "&quot;".toList
  | '\'' => "&#39;".toList
  | character => [character]

/-- Characters as they are written in a text. -/
def escapeCharacters (characters : List Char) : List Char := characters.flatMap escapeCharacter

/-- A text with everything escaped that could be taken for markup. -/
def escape (text : String) : String := String.ofList (escapeCharacters text.toList)

/-- The attributes of a tag. -/
def attributesText (attributes : List (String × String)) : String :=
  String.join (attributes.map fun (name, value) => " " ++ name ++ "=\"" ++ escape value ++ "\"")

mutual

/-- How a piece of HTML is written. -/
def render : Html → String
  | .text content => escape content
  | .element tag attributes children =>
    "<" ++ tag ++ attributesText attributes ++ ">" ++ renderAll children ++ "</" ++ tag ++ ">"

/-- How pieces of HTML are written one after the other. -/
def renderAll : List Html → String
  | [] => ""
  | first :: rest => first.render ++ renderAll rest

end

end Html

end Shading
