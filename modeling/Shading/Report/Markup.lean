import Shading.Html
import Shading.Report.Excerpt

/-!
# HTML reports

A report as an HTML element. Its tags depend on the severity and the code of the report, on whether
it has a location and on the number of its notes, and on nothing else.
-/

namespace Shading.Report

/-- An element with a class. -/
def classed (tag className : String) (children : List Html) : Html :=
  .element tag [("class", className)] children

/-- The line that says what a report is about. -/
def markupHeader (diagnostic : Diagnostic) : Html :=
  classed "div" "diagnostic-header"
    [classed "span" "severity" [.text diagnostic.severity.name],
      .text " ",
      classed "span" "code" [.text ("[" ++ diagnostic.code.text ++ "]")],
      .text ": ",
      classed "span" "message" [.text diagnostic.message]]

/-- The reported line with its place and marks. -/
def markupExcerpt (source : SourceText) (span : Span) : List Html :=
  let text := lineText source span.line
  let (padding, carets) := underline text span.column span.length
  let marks := spaces (digitCount span.line) ++ " | " ++ padding ++ carets
  [.text "  ", classed "div" "diagnostic-location" [.text (place source span)], .text "\n",
    .text "  ", classed "pre" "diagnostic-context"
      [.text (span.line.repr ++ " | " ++ text ++ "\n" ++ marks)], .text "\n"]

/-- The list of notes, if there are any. -/
def markupNotes (notes : List String) : List Html :=
  if notes.isEmpty then []
  else
    let items := notes.flatMap fun note =>
      [.text "    ", .element "li" [] [.text note], .text "\n"]
    [.text "  ", classed "ul" "diagnostic-notes" (.text "\n" :: items ++ [.text "  "]), .text "\n"]

/-- A report as an element. -/
def markup (source : SourceText) (diagnostic : Diagnostic) : Html :=
  .element "div"
    [("class", "diagnostic " ++ diagnostic.severity.name), ("data-code", diagnostic.code.text)]
    ([.text "\n  ", markupHeader diagnostic, .text "\n"] ++
      (match diagnostic.location with
        | some span => markupExcerpt source span
        | none => []) ++
      markupNotes (notes diagnostic))

/-- Reports in an element around them. -/
def markupAll (source : SourceText) (diagnostics : List Diagnostic) : List Html :=
  [classed "div" "diagnostics"
      (.text "\n" :: diagnostics.flatMap fun diagnostic => [markup source diagnostic, .text "\n"]),
    .text "\n"]

end Shading.Report
