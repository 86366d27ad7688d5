import Shading.Text.Extending
import Shading.Text.Unprintable

/-!
# Quoted texts

A text in quotes, written so that every character of it can be seen. A quote, a backslash and the
usual controls are written with a backslash and a letter; any other character that cannot be shown, or
that would be drawn upon the one before it, is written as its code point in braces.
-/

namespace Shading.Text

/-- The character behind the backslash where a character is written with one. -/
def escapeLetter? : Char → Option Char
  | '"' => some '"'
  | '\\' => some '\\'
  | '\n' => some 'n'
  | '\r' => some 'r'
  | '\t' => some 't'
  | '\x00' => some '0'
  | _ => none

/-- A character as its code point in braces, with the fewest digits. -/
def codeEscape (character : Char) : List Char :=
  "\\u\x7b".toList ++ Nat.toDigits 16 character.toNat ++ ['\x7d']

/-- How a character is written in a quoted text. -/
def quotedCharacter (character : Char) : List Char :=
  match escapeLetter? character with
  | some letter => ['\\', letter]
  | none =>
    if isExtending character || isUnprintable character then codeEscape character else [character]

/-- A text in quotes. -/
def quoted (text : String) : String :=
  String.ofList ('"' :: text.toList.flatMap quotedCharacter ++ ['"'])

end Shading.Text
