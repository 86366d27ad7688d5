import Shading.Report.Excerpt

/-!
# Plain reports

A report without colors that shows the one line it is about.
-/

namespace Shading.Report

/-- The line that a report is about, with marks. -/
def plainExcerpt (source : SourceText) (span : Span) : List String :=
  let margin := spaces (digitCount span.line)
  let text := lineText source span.line
  let (padding, carets) := underline text span.column span.length
  [margin ++ "--> " ++ place source span,
    span.line.repr ++ " | " ++ text,
    margin ++ " | " ++ padding ++ carets]

/-- The lines of a plain report. -/
def plainLines (source : SourceText) (diagnostic : Diagnostic) : List String :=
  (diagnostic.severity.name ++ "[" ++ diagnostic.code.text ++ "]: " ++ diagnostic.message) ::
    (match diagnostic.location with
      | some span => plainExcerpt source span
      | none => []) ++
    (notes diagnostic).map fun note => "  = " ++ note

/-- A plain report. -/
def plain (source : SourceText) (diagnostic : Diagnostic) : String :=
  String.join ((plainLines source diagnostic).map (· ++ "\n"))

end Shading.Report
