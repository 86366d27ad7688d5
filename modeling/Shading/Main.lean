import Shading.Command

/-!
# The program

The command on the files and streams of the system.
-/

namespace Shading.Command

/-- What the system says about a file, in the terms of a command. -/
def systemError : IO.Error → FileError
  | .noFileOrDirectory .. => .notFound
  | .inappropriateType _ code detail => ⟨code.toNat, "IsADirectory", detail⟩
  | .permissionDenied _ code detail => ⟨code.toNat, "PermissionDenied", detail⟩
  | other => ⟨0, "Other", other.toString⟩

/-- Runs an action on a file. -/
def attempt {α : Type} (action : IO α) : IO (Except FileError α) := do
  match ← action.toBaseIO with
  | .ok value => return .ok value
  | .error cause => return .error (systemError cause)

/-- The files and streams of the system. -/
def systemHost (takesColors : Bool) : Host IO where
  read path := attempt (IO.FS.readFile path)
  write path content := attempt (IO.FS.writeFile path content)
  print text := do (← IO.getStdout).putStr text
  report text := do (← IO.getStderr).putStr text
  takesColors := takesColors

/-- Whether a variable asks for something: it is set, and not to `0`. -/
def isAskedFor : Option String → Bool
  | some value => value ≠ "0"
  | none => false

/-- Whether colors are forced, or not forbidden and the output is a terminal. -/
def systemTakesColors : IO Bool := do
  if isAskedFor (← IO.getEnv "CLICOLOR_FORCE") then return true
  if (← IO.getEnv "NO_COLOR").isSome then return false
  if (← IO.getEnv "CLICOLOR") = some "0" then return false
  (← IO.getStdout).isTty

/-- What is said at the end of a run. -/
def farewell (host : Host IO) : Outcome → IO Unit
  | .success | .help => return ()
  | .failed cause => host.report ("Error: " ++ cause.text ++ "\n")
  | .refused cause =>
    host.report ("error: " ++ cause.message ++ "\n\nFor more information, try '--help'.\n")

end Shading.Command

/-- Runs the command and gives its exit code. -/
def main (arguments : List String) : IO UInt32 := do
  let host := Shading.Command.systemHost (← Shading.Command.systemTakesColors)
  let outcome ← Shading.Command.run host arguments
  Shading.Command.farewell host outcome
  return outcome.exitCode.toUInt32
