import Shading.Diagnostic.Code
import Shading.Span

/-!
# Diagnostics

A diagnostic is one report about a source text: its code and severity, a message, where it applies,
and what may help. Diagnostics are collected in lists in the order in which they are found; a
strict reading turns warnings into errors and changes nothing else.
-/

namespace Shading

/-- A second place that helps to explain a report. -/
structure Related where
  message : String
  location : Option Span
deriving DecidableEq, Repr, Inhabited

/-- An edit that settles a report. -/
structure Fix where
  description : String
  location : Span
  replacement : String
deriving DecidableEq, Repr, Inhabited

/-- One report. -/
structure Diagnostic where
  severity : Severity
  code : Code
  message : String
  location : Option Span := none
  suggestions : List String := []
  related : List Related := []
  fixes : List Fix := []
  /-- Where the report is explained. -/
  documentation : Option String := some code.documentation
deriving DecidableEq, Repr, Inhabited

namespace Diagnostic

/-- A report with its code's own severity and no place. -/
def of (code : Code) (message : String) : Diagnostic :=
  { severity := code.severity, code, message }

/-- A report with its code's own severity at a place. -/
def located (code : Code) (message : String) (span : Span) : Diagnostic :=
  { severity := code.severity, code, message, location := some span }

/-- Whether the report is an error. -/
def isError (diagnostic : Diagnostic) : Bool := diagnostic.severity = .error

/-- The report on one line. -/
def text (diagnostic : Diagnostic) : String :=
  diagnostic.severity.name ++ "[" ++ diagnostic.code.text ++ "]: " ++ diagnostic.message ++
    match diagnostic.location with
    | some span => " at " ++ span.line.repr ++ ":" ++ span.column.repr
    | none => ""

/-- The report with a warning raised to an error. -/
def promote (diagnostic : Diagnostic) : Diagnostic :=
  if diagnostic.severity = .warning then { diagnostic with severity := .error } else diagnostic

end Diagnostic

/-- Whether a list of reports holds an error. -/
def hasErrors (diagnostics : List Diagnostic) : Bool := diagnostics.any Diagnostic.isError

/-- Number of errors in a list of reports. -/
def errorCount (diagnostics : List Diagnostic) : Nat := diagnostics.countP Diagnostic.isError

end Shading
