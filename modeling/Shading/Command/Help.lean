import Shading.Command.Arguments

/-!
# Help

The texts that answer questions for help. A text says what its topic is for and how to use it, and
lists what may be given, one thing a line.
-/

namespace Shading.Command

namespace Setting

/-- What stands for the value of a setting. -/
def valueName? : Setting → Option String
  | .output | .metadata | .sourceMap | .options => some "FILE"
  | .format => some "FORMAT"
  | .context => some "CONTEXT"
  | _ => none

/-- What a setting does. -/
def description : Setting → String
  | .output => "Output WGSL file (defaults to input name with .wgsl extension)"
  | .metadata => "Write entry point, uniform and struct metadata as JSON"
  | .sourceMap => "Write a source map as JSON"
  | .options => "JSON file with compile options"
  | .format => "Diagnostic output format: terminal, plain or html [default: terminal]"
  | .context => "Lines of source context around each diagnostic [default: 2]"
  | .json => "Print analysis metadata as JSON on stdout"
  | .strict => "Treat warnings as errors"
  | .noColor => "Disable colored output"
  | .verbose => "Print verbose output"
  | .noFold => "Disable constant folding"
  | .noDce => "Disable dead-code elimination"

/-- How a setting is given, aligned without a letter. -/
def pattern (setting : Setting) : String :=
  let letter := match setting.letter? with
    | some letter => String.ofList ['-', letter, ',', ' ']
    | none => Report.spaces 4
  let value := match setting.valueName? with
    | some name => " <" ++ name ++ ">"
    | none => ""
  letter ++ "--" ++ setting.name ++ value

end Setting

namespace Action

/-- The name of an action on the command line. -/
def name : Action → String
  | .compile => "compile"
  | .check => "check"

/-- What an action does. -/
def description : Action → String
  | .compile => "Compile a source file to WGSL"
  | .check => "Validate a source file without generating output"

end Action

/-- A list under a title: entries, and what is said about them in one column, two spaces behind the
longest. -/
def helpList (title : String) (rows : List (String × String)) : String :=
  let width := rows.foldl (fun width row => max width row.1.length) 0
  let lines := rows.map fun (entry, description) =>
    "  " ++ entry ++ Report.spaces (width + 2 - entry.length) ++ description ++ "\n"
  title ++ ":\n" ++ String.join lines

/-- What is said about the command for help. -/
def helpDescription : String := "Print this message or the help of the given subcommand(s)"

/-- The row of the question for help. -/
def helpRow : String × String := ("-h, --help", "Print help")

/-- A text with what its topic is for, how to use it, and lists. -/
def helpPage (description usage : String) (lists : List String) : String :=
  "\n".intercalate ([description ++ "\n", "Usage: glint " ++ usage ++ "\n"] ++ lists)

/-- The text that answers a question for help. -/
def helpText : HelpTopic → String
  | .program =>
    helpPage "Compiler for the glint shading language, targeting WGSL" "<COMMAND>"
      [helpList "Commands"
        ([Action.compile, .check].map (fun action => (action.name, action.description)) ++
          [("help", helpDescription)]),
        helpList "Options" [helpRow]]
  | .action action =>
    helpPage action.description (action.name ++ " [OPTIONS] <FILE>")
      [helpList "Arguments" [("<FILE>", "Input source file")],
        helpList "Options"
          ((Setting.ofAction action).map (fun setting => (setting.pattern, setting.description)) ++
            [helpRow])]
  | .help =>
    helpPage helpDescription "help [COMMAND]..."
      [helpList "Arguments" [("[COMMAND]...", "Print help for the subcommand(s)")]]

end Shading.Command
