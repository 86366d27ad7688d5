import Shading.Command.Files
import Shading.Command.Help
import Shading.Json.Reading
import Shading.Json.Records
import Shading.Text.Quoted

/-!
# Commands

A command compiles or checks one file. It runs against a host, which reads and writes files and shows
text, so that it does the same in memory as on a real system.
-/

namespace Shading.Command

/-- What a command may ask of its surroundings. -/
structure Host (m : Type → Type) where
  read : String → m (Except FileError String)
  write : String → String → m (Except FileError Unit)
  /-- Shows a result. -/
  print : String → m Unit
  /-- Shows what is to be said about the run. -/
  report : String → m Unit
  /-- Whether reports may be colored. -/
  takesColors : Bool

/-- Why a command fails. -/
inductive Failure where
  | file (error : FileError)
  /-- The file with options cannot be read as options. -/
  | options (path : String)
  | generation (error : GenerationError)
  | sourceErrors (count : Nat) (name : String)
deriving DecidableEq, Repr

/-- The failure as it is shown. -/
def Failure.text : Failure → String
  | .file error => "IoError(" ++ error.text ++ ")"
  | .options path => "OptionsError \x7b path: " ++ Text.quoted path ++ " \x7d"
  | .generation (.missingFunction name) =>
    "CompilationError(Internal(" ++ Text.quoted s!"entry point `{name}` has no function" ++ "))"
  | .sourceErrors count name => "SourceErrors(" ++ count.repr ++ ", " ++ Text.quoted name ++ ")"

variable {m : Type → Type} [Monad m]

/-- Reads a file. -/
def readFile (host : Host m) (path : String) : ExceptT Failure m String := do
  match ← host.read path with
  | .ok content => return content
  | .error error => throw (.file error)

/-- Writes a file. -/
def writeFile (host : Host m) (path content : String) : ExceptT Failure m Unit := do
  match ← host.write path content with
  | .ok () => return ()
  | .error error => throw (.file error)

/-- Writes a file, if a path for it is given. -/
def writeOptional (host : Host m) (path : Option String) (content : Option String) :
    ExceptT Failure m Unit :=
  match path, content with
  | some path, some content => writeFile host path content
  | _, _ => return ()

/-- The options in a text. -/
def readOptions (path text : String) : Except Failure Options :=
  match (Json.read? text).bind Options.ofJson? with
  | some options => .ok options
  | none => .error (.options path)

/-- The options in the file that a request names. -/
def fileOptions (host : Host m) (request : Request) : ExceptT Failure m Options :=
  match request.value? .options with
  | some path => do
    let text ← readFile host path
    ExceptT.mk (pure (readOptions path text))
  | none => return {}

/-- The options with what the command line adds to them. -/
def adjusted (request : Request) (options : Options) : Options where
  sourceMaps := options.sourceMaps || (request.value? .sourceMap).isSome
  strictMode := options.strictMode || request.has .strict
  optimizations :=
    { options.optimizations with
      constantFolding := options.optimizations.constantFolding && !request.has .noFold
      deadCodeElimination := options.optimizations.deadCodeElimination && !request.has .noDce }

/-- Shows reports, if there is anything to show. -/
def showReports (host : Host m) (request : Request) (source : SourceText)
    (diagnostics : List Diagnostic) : ExceptT Failure m Unit := do
  let text := Report.render (request.settings host.takesColors) source diagnostics
  if text ≠ "" then host.report text

/-- Fails if there are errors. -/
def failOnErrors (source : SourceText) (diagnostics : List Diagnostic) : ExceptT Failure m Unit :=
  if hasErrors diagnostics then throw (.sourceErrors (errorCount diagnostics) source.name)
  else return ()

/-- The path of the generated code. -/
def outputPath (request : Request) : String :=
  (request.value? .output).getD (withExtension request.input "wgsl")

/-- Compiles the input and writes what is asked for. -/
def compileFile (host : Host m) (request : Request) (options : Options) :
    ExceptT Failure m Unit := do
  let text ← readFile host request.input
  let source : SourceText := ⟨request.input, text⟩
  match compile source options with
  | .error error => throw (.generation error)
  | .ok compilation => do
    showReports host request source compilation.diagnostics
    failOnErrors source compilation.diagnostics
    writeFile host (outputPath request) compilation.code
    writeOptional host (request.value? .metadata) (some compilation.metadata.json.text)
    writeOptional host (request.value? .sourceMap)
      (compilation.sourceMap.map fun map => map.json.text)

/-- Checks the input. -/
def checkFile (host : Host m) (request : Request) (options : Options) :
    ExceptT Failure m Unit := do
  let text ← readFile host request.input
  let source : SourceText := ⟨request.input, text⟩
  let checked := check source options
  showReports host request source (checked.diagnostics ++ checked.hints)
  if request.has .json then host.print (checked.summary.json.text ++ "\n")
  failOnErrors source checked.diagnostics

/-- Does what a request asks for. -/
def execute (host : Host m) (request : Request) : ExceptT Failure m Unit := do
  let options ← fileOptions host request
  match request.action with
  | .compile => compileFile host request (adjusted request options)
  | .check => checkFile host request (adjusted request options)

/-- How a run ended. -/
inductive Outcome where
  | success
  | failed (cause : Failure)
  | help
  | refused (cause : UsageError)
deriving DecidableEq, Repr

/-- The exit code of a run. -/
def Outcome.exitCode : Outcome → Nat
  | .success | .help => 0
  | .failed _ => 1
  | .refused _ => 2

/-- Runs the command that arguments ask for. -/
def run (host : Host m) (arguments : List String) : m Outcome :=
  match invocation arguments with
  | .error cause => return .refused cause
  | .ok (.help topic) => do
    host.print (helpText topic)
    return .help
  | .ok (.run request) => do
    match ← (execute host request).run with
    | .ok () => return .success
    | .error cause => return .failed cause

end Shading.Command
