/-!
# Files

The files that a command reads and writes. Files in memory stand for real ones where a command is to
run without effects. They are in and below a working directory, beside which there are the usual
directories of a system and the device that is always empty.
-/

namespace Shading.Command

/-- Why a file cannot be read or written, as the system tells it. -/
structure FileError where
  code : Nat
  kind : String
  message : String
deriving DecidableEq, Repr, Inhabited

namespace FileError

/-- There is no such file. -/
def notFound : FileError := ⟨2, "NotFound", "No such file or directory"⟩

/-- A file stands where a directory is needed. -/
def notADirectory : FileError := ⟨20, "NotADirectory", "Not a directory"⟩

/-- A directory stands where a file is needed. -/
def isADirectory : FileError := ⟨21, "IsADirectory", "Is a directory"⟩

/-- A path or a part of it is longer than the system takes. -/
def nameTooLong : FileError := ⟨36, "InvalidFilename", "File name too long"⟩

/-- The error as it is shown. -/
def text (error : FileError) : String :=
  "Os \x7b code: " ++ error.code.repr ++ ", kind: " ++ error.kind ++ ", message: \"" ++
    error.message ++ "\" \x7d"

end FileError

/-- Divides characters at every `divider`. -/
def pieces (divider : Char) : List Char → List (List Char)
  | [] => [[]]
  | character :: rest =>
    if character = divider then [] :: pieces divider rest
    else match pieces divider rest with
      | [] => [[character]]
      | first :: others => (character :: first) :: others

/-- The parts of a path between slashes. -/
def pathParts (path : String) : List String := (pieces '/' path.toList).map String.ofList

/-- A file name before its last dot, unless that is at the start. -/
def stem (name : List Char) : List Char :=
  match name.reverse.span (· ≠ '.') with
  | (_, _ :: before) => if before.isEmpty then name else before.reverse
  | (_, []) => name

/-- The path with another extension of the file name. -/
def withExtension (path extension : String) : String :=
  match (pathParts path).reverse with
  | name :: directories =>
    let renamed := String.ofList (stem name.toList) ++ "." ++ extension
    "/".intercalate (directories.reverse ++ [renamed])
  | [] => path

/-- Files in memory, each with the parts of its path. -/
structure FileTree where
  files : List (List String × String)
deriving Repr, Inhabited

namespace FileTree

/-- The place of the working directory. -/
def workingPlace : List String := ["tmp", "work"]

/-- The places of directories that need no files to be there. -/
def standingPlaces : List (List String) :=
  [workingPlace, ["dev"], ["etc"], ["home"], ["usr"], ["var"]]

/-- The place of the device that is always empty. -/
def emptyDevice : List String := ["dev", "null"]

/-- Where a path starts: the root behind a slash, or the working directory. -/
def startPlace (path : String) : List String :=
  if path.toList.head? = some '/' then [] else workingPlace

/-- Where a part of a path leads: `.` stays and `..` goes up, at most to the root. -/
def nextPlace (place : List String) (part : String) : List String :=
  if part = "" || part = "." then place
  else if part = ".." then place.dropLast
  else place ++ [part]

/-- Files with the given paths. -/
def ofPaths (files : List (String × String)) : FileTree :=
  ⟨files.map fun (path, content) => ((pathParts path).foldl nextPlace (startPlace path), content)⟩

/-- The content of the file at a place. -/
def file? (tree : FileTree) (place : List String) : Option String :=
  if place = emptyDevice then some "" else tree.files.lookup place

/-- Whether there is a directory at a place. -/
def isDirectory (tree : FileTree) (place : List String) : Bool :=
  standingPlaces.any (place.isPrefixOf ·) ||
    tree.files.any fun (path, _) => place.isPrefixOf path && place ≠ path

/-- The most bytes that a part of a path may have. -/
def partLimit : Nat := 255

/-- The most bytes that a path may have. -/
def pathLimit : Nat := 4095

/-- Follows a path from a place; all but the last part are directories. -/
def follow (tree : FileTree) (place : List String) : List String → Except FileError (List String)
  | [] => .ok place
  | part :: rest =>
    if !tree.isDirectory place then
      .error (if (tree.file? place).isSome then .notADirectory else .notFound)
    else if partLimit < part.utf8ByteSize then .error .nameTooLong
    else tree.follow (nextPlace place part) rest

/-- The place that the given parts of a path lead to. -/
def locate (tree : FileTree) (path : String) (parts : List String) :
    Except FileError (List String) :=
  if pathLimit < path.utf8ByteSize then .error .nameTooLong
  else tree.follow (startPlace path) parts

/-- Reads a file. -/
def read (tree : FileTree) (path : String) : Except FileError String := do
  let place ← tree.locate path (pathParts path)
  match tree.file? place with
  | some content => return content
  | none => throw (if tree.isDirectory place then .isADirectory else .notFound)

/-- The parts of a path without the slashes at its end. -/
def trimmedParts (path : String) : List String :=
  ((pathParts path).reverse.dropWhile (· = "")).reverse

/-- Whether a path ends with a slash. -/
def endsWithSlash (path : String) : Bool := path.toList.getLast? = some '/'

/-- Writes a file; what is written to the empty device is lost. -/
def write (tree : FileTree) (path content : String) : Except FileError FileTree := do
  let place ← tree.locate path (trimmedParts path)
  if endsWithSlash path || tree.isDirectory place then throw .isADirectory
  if place = emptyDevice then return tree
  return ⟨tree.files.filter (·.1 ≠ place) ++ [(place, content)]⟩

/-- The files in and below the working directory that are new or changed, with their paths. -/
def changes (earlier later : FileTree) : List (String × String) :=
  later.files.filterMap fun (place, content) =>
    if earlier.file? place ≠ some content && workingPlace.isPrefixOf place then
      some ("/".intercalate (place.drop workingPlace.length), content)
    else none

end FileTree

end Shading.Command
