import Shading.Report.Excerpt

/-!
# Terminal reports

A report for a terminal: the lines around the place it is about in a frame, perhaps in colors.
-/

namespace Shading.Report

/-- A color of a terminal. -/
inductive Color where
  | red
  | yellow
  | blue
  | cyan
deriving DecidableEq, Repr

/-- The number that selects a color. -/
def Color.number : Color → String
  | .red => "31"
  | .yellow => "33"
  | .blue => "34"
  | .cyan => "36"

/-- The sequence that starts bold text, perhaps in a color. -/
def styleSequence : Option Color → List Char
  | some color => ("\x1b[1;" ++ color.number ++ "m").toList
  | none => "\x1b[1m".toList

/-- The sequence that ends a style. -/
def resetSequence : List Char := "\x1b[0m".toList

/-- Starts a style again behind each sequence in a text that ends it. -/
def restyled (style : List Char) : List Char → List Char
  | '\x1b' :: '[' :: '0' :: 'm' :: rest => resetSequence ++ style ++ restyled style rest
  | character :: rest => character :: restyled style rest
  | [] => []

/-- Whether and how text is painted. -/
structure Painter where
  isColored : Bool

/-- Bold text, perhaps in a color. -/
def Painter.paint (painter : Painter) (color : Option Color) (text : String) : String :=
  if painter.isColored then
    let style := styleSequence color
    String.ofList (style ++ restyled style text.toList ++ resetSequence)
  else text

/-- The color of a severity's name. -/
def labelColor : Severity → Color
  | .error => .red
  | .warning => .yellow
  | .info => .blue
  | .hint => .cyan

/-- The color of the marks of a severity. -/
def caretColor : Severity → Color
  | .error => .red
  | .warning => .yellow
  | _ => .cyan

/-- A text moved to the right by spaces, to a width. -/
def alignRight (width : Nat) (text : String) : String := spaces (width - text.length) ++ text

/-- A numbered line in the frame, with marks if it is reported. -/
def framedLine (painter : Painter) (source : SourceText) (severity : Severity) (span : Span)
    (width number : Nat) : List String :=
  let bar := painter.paint (some .blue) "|"
  let text := lineText source number
  let numbered :=
    painter.paint (some .blue) (alignRight width number.repr) ++ " " ++ bar ++ " " ++ text
  if number = span.line then
    let (padding, carets) := underline text span.column span.length
    [numbered, spaces width ++ " " ++ bar ++ " " ++ padding ++
      painter.paint (some (caretColor severity)) carets]
  else [numbered]

/-- The last line of a frame; numbers are 64-bit words, so a context beyond the largest starts again
at zero. -/
def lastLine (line context : Nat) : Nat := (line + context) % twoTo 64

/-- The frame with the lines around a place. -/
def frame (painter : Painter) (context : Nat) (source : SourceText) (severity : Severity)
    (span : Span) : List String :=
  let first := max (span.line - context) 1
  let last := min (lastLine span.line context) source.lineCount
  let width := digitCount last
  let edge := spaces width ++ " " ++ painter.paint (some .blue) "|"
  let numbers := (List.range (last + 1 - first)).map (first + ·)
  [spaces width ++ painter.paint (some .blue) "-->" ++ " " ++ place source span, edge] ++
    numbers.flatMap (framedLine painter source severity span width) ++ [edge]

/-- The lines of a terminal report. -/
def terminalLines (painter : Painter) (context : Nat) (source : SourceText)
    (diagnostic : Diagnostic) : List String :=
  let label := painter.paint (some (labelColor diagnostic.severity)) diagnostic.severity.name
  let code := painter.paint none ("[" ++ diagnostic.code.text ++ "]")
  let message := painter.paint none diagnostic.message
  let equals := painter.paint (some .blue) "="
  (label ++ code ++ ": " ++ message) ::
    (match diagnostic.location with
      | some span => frame painter context source diagnostic.severity span
      | none => []) ++
    (notes diagnostic).map fun note => "  " ++ equals ++ " " ++ note

/-- A terminal report. -/
def terminal (painter : Painter) (context : Nat) (source : SourceText) (diagnostic : Diagnostic) :
    String :=
  String.join ((terminalLines painter context source diagnostic).map (· ++ "\n"))

end Shading.Report
