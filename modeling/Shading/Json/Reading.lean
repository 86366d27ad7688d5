import Shading.Json

/-!
# Reading JSON

A text is read as exactly one JSON value with blanks around it, or refused. Escaped characters of
the higher planes are written as two surrogates; half of such a pair is refused in the name of a
member and stands for the replacement character in a text.
-/

namespace Shading.Json

/-- Whether a character may stand between the parts of a value. -/
def isBlank (character : Char) : Bool :=
  character = ' ' || character = '\t' || character = '\n' || character = '\r'

/-- The characters behind blanks. -/
def skipBlanks (characters : List Char) : List Char := characters.dropWhile isBlank

/-- What a text in quotes consists of. -/
inductive TextUnit where
  | character (value : Char)
  /-- A surrogate, written as an escape. -/
  | surrogate (value : Nat)

/-- The value of a hexadecimal digit. -/
def hexValue? (character : Char) : Option Nat :=
  if character.isDigit then some (character.toNat - '0'.toNat)
  else if 'a' ≤ character ∧ character ≤ 'f' then some (character.toNat - 'a'.toNat + 10)
  else if 'A' ≤ character ∧ character ≤ 'F' then some (character.toNat - 'A'.toNat + 10)
  else none

/-- The value of four hexadecimal digits. -/
def hexQuad? (first second third fourth : Char) : Option Nat := do
  let first ← hexValue? first
  let second ← hexValue? second
  let third ← hexValue? third
  let fourth ← hexValue? fourth
  return ((first * 16 + second) * 16 + third) * 16 + fourth

/-- The unit with a number of four hexadecimal digits. -/
def unitOf (number : Nat) : TextUnit :=
  if 0xD800 ≤ number ∧ number ≤ 0xDFFF then .surrogate number else .character (Char.ofNat number)

/-- The character that a letter behind a backslash stands for. -/
def escaped? : Char → Option Char
  | '"' => some '"'
  | '\\' => some '\\'
  | '/' => some '/'
  | 'b' => some '\x08'
  | 'f' => some '\x0c'
  | 'n' => some '\n'
  | 'r' => some '\r'
  | 't' => some '\t'
  | _ => none

/-- Reads the units of a text up to the closing quote. -/
def units? : List Char → Option (List TextUnit × List Char)
  | [] => none
  | '"' :: rest => some ([], rest)
  | '\\' :: 'u' :: first :: second :: third :: fourth :: rest => do
    let number ← hexQuad? first second third fourth
    let (units, rest) ← units? rest
    return (unitOf number :: units, rest)
  | '\\' :: letter :: rest => do
    let character ← escaped? letter
    let (units, rest) ← units? rest
    return (.character character :: units, rest)
  | character :: rest =>
    if character.toNat < 32 || character = '\\' then none
    else do
      let (units, rest) ← units? rest
      return (.character character :: units, rest)

/-- The character that two surrogates stand for. -/
def paired? (high low : Nat) : Option Char :=
  if high < 0xDC00 ∧ 0xDC00 ≤ low then
    some (Char.ofNat (0x10000 + (high - 0xD800) * 0x400 + (low - 0xDC00)))
  else none

/-- Joins units to characters; `lone` gives that of half a pair, if admitted. -/
def joined? (lone : Option Char) : List TextUnit → Option (List Char)
  | [] => some []
  | .character value :: rest => (joined? lone rest).map (value :: ·)
  | .surrogate high :: .surrogate low :: rest =>
    match paired? high low with
    | some character => (joined? lone rest).map (character :: ·)
    | none => do
      let character ← lone
      let characters ← joined? lone (.surrogate low :: rest)
      return character :: characters
  | .surrogate _ :: rest => do
    let character ← lone
    let characters ← joined? lone rest
    return character :: characters

/-- Reads a text behind its opening quote. -/
def quotedText? (lone : Option Char) (characters : List Char) : Option (String × List Char) := do
  let (units, rest) ← units? characters
  let decoded ← joined? lone units
  return (String.ofList decoded, rest)

/-- The character that stands for what cannot be shown. -/
def replacement : Char := '\ufffd'

/-- Divides off the digits at the start, at least one. -/
def digits? (characters : List Char) : Option (List Char × List Char) :=
  match characters.span Char.isDigit with
  | ([], _) => none
  | found => some found

/-- Divides off the whole part of a number, which has no needless zeros. -/
def wholePart? (characters : List Char) : Option (List Char × List Char) :=
  match characters with
  | '0' :: rest =>
    match rest with
    | next :: _ => if next.isDigit then none else some (['0'], rest)
    | [] => some (['0'], [])
  | _ => digits? characters

/-- Divides off a fraction, if there is one. -/
def fraction? (characters : List Char) : Option (List Char × List Char) :=
  match characters with
  | '.' :: rest => (digits? rest).map fun (found, rest) => ('.' :: found, rest)
  | _ => some ([], characters)

/-- Divides off the sign of an exponent, if there is one. -/
def exponentSign (characters : List Char) : List Char × List Char :=
  match characters with
  | '+' :: rest => (['+'], rest)
  | '-' :: rest => (['-'], rest)
  | _ => ([], characters)

/-- Divides off an exponent, if there is one. -/
def exponent? (characters : List Char) : Option (List Char × List Char) :=
  match characters with
  | letter :: rest =>
    if letter = 'e' || letter = 'E' then
      let (sign, rest) := exponentSign rest
      (digits? rest).map fun (found, rest) => (letter :: sign ++ found, rest)
    else some ([], characters)
  | [] => some ([], [])

/-- Reads a number without a sign. -/
def unsigned? (characters : List Char) : Option (List Char × List Char) := do
  let (whole, rest) ← wholePart? characters
  let (fraction, rest) ← fraction? rest
  let (exponent, rest) ← exponent? rest
  return (whole ++ fraction ++ exponent, rest)

/-- Reads a number. -/
def number? (characters : List Char) : Option (Json × List Char) :=
  match characters with
  | '-' :: rest => (unsigned? rest).map fun (found, rest) =>
    (.number (String.ofList ('-' :: found)), rest)
  | _ => (unsigned? characters).map fun (found, rest) => (.number (String.ofList found), rest)

/-- Divides off a word. -/
def word? (word : String) (characters : List Char) : Option (List Char) :=
  if word.toList.isPrefixOf characters then some (characters.drop word.length) else none

/-- Reads at most `bound` more `item`s up to the closing character. -/
def more? {α : Type} (item : List Char → Option (α × List Char)) (closing : Char) :
    (bound : Nat) → List Char → Option (List α × List Char)
  | 0, _ => none
  | bound + 1, characters =>
    match skipBlanks characters with
    | next :: rest =>
      if next = closing then some ([], rest)
      else if next = ',' then do
        let (first, rest) ← item rest
        let (others, rest) ← more? item closing bound rest
        return (first :: others, rest)
      else none
    | [] => none

/-- Reads `item`s that commas divide, up to the closing character. -/
def listed? {α : Type} (item : List Char → Option (α × List Char)) (closing : Char)
    (characters : List Char) : Option (List α × List Char) :=
  match skipBlanks characters with
  | next :: rest =>
    if next = closing then some ([], rest)
    else do
      let (first, rest) ← item characters
      let (others, rest) ← more? item closing (rest.length + 1) rest
      return (first :: others, rest)
  | [] => none

/-- Reads a member of an object, whose value is read by `value`. -/
def member? (value : List Char → Option (Json × List Char)) (characters : List Char) :
    Option ((String × Json) × List Char) :=
  match skipBlanks characters with
  | '"' :: rest => do
    let (name, rest) ← quotedText? none rest
    match skipBlanks rest with
    | ':' :: rest =>
      let (found, rest) ← value rest
      return ((name, found), rest)
    | _ => none
  | _ => none

/-- Reads a value whose parts are nested to at most `bound` levels. -/
def value? : (bound : Nat) → List Char → Option (Json × List Char)
  | 0, _ => none
  | bound + 1, characters =>
    match skipBlanks characters with
    | '"' :: rest => (quotedText? (some replacement) rest).map fun (found, rest) =>
      (.string found, rest)
    | '[' :: rest => (listed? (value? bound) ']' rest).map fun (found, rest) => (.array found, rest)
    | '\x7b' :: rest => (listed? (member? (value? bound)) '\x7d' rest).map fun (found, rest) =>
      (.object found, rest)
    | 'n' :: rest => (word? "ull" rest).map fun rest => (.null, rest)
    | 't' :: rest => (word? "rue" rest).map fun rest => (.bool true, rest)
    | 'f' :: rest => (word? "alse" rest).map fun rest => (.bool false, rest)
    | rest => number? rest

/-- Reads a whole text as one value. -/
def read? (text : String) : Option Json :=
  let characters := text.toList
  match value? (characters.length + 1) characters with
  | some (value, rest) => if (skipBlanks rest).isEmpty then some value else none
  | none => none

end Shading.Json
