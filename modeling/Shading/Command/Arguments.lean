import Shading.Report

/-!
# Command lines

A command line names a command, an input file and settings. Settings with a value take it from the
same argument, behind an equals sign or directly behind a letter, or from the next argument, which
then may not look like a setting. Everything may be given once. Behind `--` all arguments are files.
-/

namespace Shading.Command

/-- A setting that may be given on the command line. -/
inductive Setting where
  | output
  | metadata
  | sourceMap
  | options
  | format
  | context
  | json
  | strict
  | noColor
  | verbose
  | noFold
  | noDce
deriving DecidableEq, Repr

/-- What is to be done. -/
inductive Action where
  | compile
  | check
deriving DecidableEq, Repr

/-- Why a command line is refused. -/
inductive UsageError where
  | missingCommand
  | unknownCommand (name : String)
  | missingInput
  | unexpectedArgument (argument : String)
  | repeated (setting : Setting)
  | missingValue (setting : Setting)
  | unexpectedValue (setting : Setting)
  | invalidValue (setting : Setting) (value : String)
deriving DecidableEq, Repr

namespace Setting

/-- The name of a setting behind two dashes. -/
def name : Setting → String
  | .output => "output"
  | .metadata => "metadata"
  | .sourceMap => "source-map"
  | .options => "options"
  | .format => "format"
  | .context => "context"
  | .json => "json"
  | .strict => "strict"
  | .noColor => "no-color"
  | .verbose => "verbose"
  | .noFold => "no-fold"
  | .noDce => "no-dce"

/-- The letter of a setting behind one dash. -/
def letter? : Setting → Option Char
  | .output => some 'o'
  | .verbose => some 'v'
  | _ => none

/-- Whether a setting takes a value. -/
def takesValue : Setting → Bool
  | .output | .metadata | .sourceMap | .options | .format | .context => true
  | _ => false

/-- The settings of an action. -/
def ofAction : Action → List Setting
  | .compile => [.output, .metadata, .sourceMap, .options, .strict, .format, .context, .noColor,
      .verbose, .noFold, .noDce]
  | .check => [.json, .options, .strict, .format, .context, .noColor, .verbose]

end Setting

/-- Reads a number below `2 ^ 64`, perhaps behind a plus sign. -/
def wordValue? (text : String) : Option Nat :=
  let digits := match text.toList with
    | '+' :: rest => rest
    | characters => characters
  if !digits.isEmpty && digits.all Char.isDigit then
    let value := digits.foldl (fun value digit => value * 10 + (digit.toNat - '0'.toNat)) 0
    if value < twoTo 64 then some value else none
  else none

/-- Whether a value is admitted for a setting; file names are not empty. -/
def Setting.admits (setting : Setting) (value : String) : Bool :=
  match setting with
  | .format => (Report.Format.ofName? value).isSome
  | .context => (wordValue? value).isSome
  | _ => value ≠ ""

/-- What the arguments behind the command are, in order. -/
inductive Item where
  | file (path : String)
  | flag (setting : Setting)
  | valued (setting : Setting) (value : String)
  /-- A question for help, behind which nothing is read. -/
  | help
deriving DecidableEq, Repr

/-- Whether an argument looks like a setting. -/
def looksLikeSetting (argument : String) : Bool :=
  match argument.toList with
  | '-' :: _ :: _ => true
  | _ => false

/-- The item of a setting with a value. -/
def valuedItem (setting : Setting) (value : String) : Except UsageError Item :=
  if setting.admits value then .ok (.valued setting value)
  else .error (.invalidValue setting value)

/-- The item of a setting with the next argument as value; gives the rest. -/
def awaitValue (setting : Setting) : List String → Except UsageError (Item × List String)
  | [] => .error (.missingValue setting)
  | value :: rest =>
    if looksLikeSetting value then .error (.missingValue setting)
    else do
      let item ← valuedItem setting value
      return (item, rest)

/-- Divides a text at its first equals sign. -/
def splitAtEquals (characters : List Char) : List Char × Option (List Char) :=
  match characters.span (· ≠ '=') with
  | (name, _ :: value) => (name, some value)
  | (name, []) => (name, none)

/-- The item of an argument behind two dashes; gives the arguments behind. -/
def longItem (settings : List Setting) (characters : List Char) (rest : List String) :
    Except UsageError (Item × List String) :=
  let (name, value) := splitAtEquals characters
  let name := String.ofList name
  match settings.find? (·.name = name) with
  | some setting =>
    match setting.takesValue, value with
    | true, some value => do
      let item ← valuedItem setting (String.ofList value)
      return (item, rest)
    | true, none => awaitValue setting rest
    | false, some _ => .error (.unexpectedValue setting)
    | false, none => .ok (.flag setting, rest)
  | none =>
    if name = "help" && value.isNone then .ok (.help, rest)
    else .error (.unexpectedArgument name)

/-- The items of the letters behind one dash; gives the arguments behind. -/
def letterItems (settings : List Setting) :
    List Char → List String → Except UsageError (List Item × List String)
  | [], rest => .ok ([], rest)
  | letter :: others, rest =>
    match settings.find? (·.letter? = some letter) with
    | some setting =>
      if setting.takesValue then
        match others with
        | [] => do
          let (item, rest) ← awaitValue setting rest
          return ([item], rest)
        | '=' :: value => do
          let item ← valuedItem setting (String.ofList value)
          return ([item], rest)
        | value => do
          let item ← valuedItem setting (String.ofList value)
          return ([item], rest)
      else do
        let (items, rest) ← letterItems settings others rest
        return (.flag setting :: items, rest)
    | none =>
      if letter = 'h' then .ok ([.help], rest)
      else .error (.unexpectedArgument (String.singleton letter))

/-- The items of at most `bound` arguments up to a question for help. -/
def items (settings : List Setting) : (bound : Nat) → List String → Except UsageError (List Item)
  | 0, _ => .ok []
  | _ + 1, [] => .ok []
  | bound + 1, argument :: rest =>
    match argument.toList with
    | ['-', '-'] => .ok (rest.map .file)
    | '-' :: '-' :: name => do
      let (item, rest) ← longItem settings name rest
      if item = .help then return [.help]
      let others ← items settings bound rest
      return item :: others
    | '-' :: letter :: letters => do
      let (found, rest) ← letterItems settings (letter :: letters) rest
      if found.contains .help then return found
      let others ← items settings bound rest
      return found ++ others
    | _ => do
      let others ← items settings bound rest
      return .file argument :: others

/-- The setting of an item. -/
def Item.setting? : Item → Option Setting
  | .flag setting => some setting
  | .valued setting _ => some setting
  | .file _ | .help => none

/-- The first setting that is given again. -/
def repeatedSetting? : List Setting → Option Setting
  | [] => none
  | first :: rest => if rest.contains first then some first else repeatedSetting? rest

/-- What is to be done, with what. -/
structure Request where
  action : Action
  input : String
  items : List Item

namespace Request

/-- Whether a flag is given. -/
def has (request : Request) (setting : Setting) : Bool := request.items.contains (.flag setting)

/-- The value of a setting, if it is given. -/
def value? (request : Request) (setting : Setting) : Option String :=
  request.items.findSome? fun
    | .valued given value => if given = setting then some value else none
    | _ => none

/-- How reports are written; colors are used only where the terminal takes them. -/
def settings (request : Request) (takesColors : Bool) : Report.Settings :=
  let fallback : Report.Settings := {}
  { format := ((request.value? .format).bind Report.Format.ofName?).getD fallback.format
    context := ((request.value? .context).bind wordValue?).getD fallback.context
    isColored := takesColors && !request.has .noColor }

end Request

/-- What help is about. -/
inductive HelpTopic where
  | program
  | action (action : Action)
  | help
deriving DecidableEq, Repr

/-- What a command line asks for. -/
inductive Invocation where
  | help (topic : HelpTopic)
  | run (request : Request)

/-- The files among items. -/
def inputFiles (found : List Item) : List String :=
  found.filterMap fun
    | .file path => some path
    | _ => none

/-- Refuses a setting given again, a second file or a file without a name. -/
def admitItems (found : List Item) : Except UsageError Unit := do
  if let some setting := repeatedSetting? (found.filterMap Item.setting?) then
    throw (.repeated setting)
  match inputFiles found with
  | _ :: extra :: _ => throw (.unexpectedArgument extra)
  | [""] => throw .missingInput
  | _ => return ()

/-- The request for an action. Help is given if nothing before it is refused. -/
def request (action : Action) (arguments : List String) : Except UsageError Invocation := do
  let found ← items (Setting.ofAction action) arguments.length arguments
  admitItems found
  if found.contains .help then return .help (.action action)
  match inputFiles found with
  | input :: _ => return .run ⟨action, input, found⟩
  | [] => throw .missingInput

/-- The topic that the arguments of a question for help name. -/
def helpTopic : List String → Except UsageError HelpTopic
  | [] => .ok .program
  | ["compile"] => .ok (.action .compile)
  | ["check"] => .ok (.action .check)
  | ["help"] => .ok .help
  | "compile" :: name :: _ | "check" :: name :: _ | "help" :: name :: _ | name :: _ =>
    .error (.unknownCommand name)

/-- Whether an argument before the command asks for help. -/
def asksForHelp (argument : String) : Bool :=
  argument = "--help" || ['-', 'h'].isPrefixOf argument.toList

/-- What the arguments of the program ask for. -/
def invocation : List String → Except UsageError Invocation
  | [] => .error .missingCommand
  | "compile" :: arguments => request .compile arguments
  | "check" :: arguments => request .check arguments
  | "help" :: arguments => do
    let topic ← helpTopic arguments
    return .help topic
  | name :: _ => if asksForHelp name then .ok (.help .program) else .error (.unknownCommand name)

/-- The wording of a refusal. -/
def UsageError.message : UsageError → String
  | .missingCommand => "a command is missing"
  | .unknownCommand name => s!"unknown command `{name}`"
  | .missingInput => "an input file is missing"
  | .unexpectedArgument argument => s!"unexpected argument `{argument}`"
  | .repeated setting => "`--" ++ setting.name ++ "` is given more than once"
  | .missingValue setting => "a value for `--" ++ setting.name ++ "` is missing"
  | .unexpectedValue setting => "`--" ++ setting.name ++ "` takes no value"
  | .invalidValue setting value =>
    match setting with
    | .format => Report.Format.unknownMessage value
    | _ => "invalid value `" ++ value ++ "` for `--" ++ setting.name ++ "`"

end Shading.Command
