import Shading.Report.Markup
import Shading.Report.Plain
import Shading.Report.Terminal

/-!
# Reports

Diagnostics as a reader sees them, next to the source text they are about.
-/

namespace Shading.Report

/-- The form of a report. -/
inductive Format where
  | terminal
  | plain
  | html
deriving DecidableEq, Repr, Inhabited

namespace Format

/-- The format of a name. -/
def ofName? : String → Option Format
  | "terminal" => some .terminal
  | "plain" => some .plain
  | "html" => some .html
  | _ => none

/-- What is said about a name that is not a format's. -/
def unknownMessage (name : String) : String :=
  s!"unknown diagnostic format `{name}` (expected terminal, plain or html)"

end Format

/-- How reports are written. -/
structure Settings where
  format : Format := .terminal
  /-- Number of lines shown above and below the reported one in a terminal. -/
  context : Nat := 2
  /-- Whether terminal reports are colored. -/
  isColored : Bool := true
deriving DecidableEq, Repr, Inhabited

/-- Writes reports about a source text. -/
def render (settings : Settings) (source : SourceText) (diagnostics : List Diagnostic) : String :=
  match settings.format with
  | .terminal =>
    "\n".intercalate (diagnostics.map (terminal ⟨settings.isColored⟩ settings.context source))
  | .plain => "\n".intercalate (diagnostics.map (plain source))
  | .html => Html.renderAll (markupAll source diagnostics)

end Shading.Report
