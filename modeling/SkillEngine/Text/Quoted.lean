import SkillEngine.Text.Visible

/-!
# Quoted text

A text in a diagnostic stands between double quotes. A quote or backslash in it follows a backslash,
four controls have a letter, and every other character that is not visible is shown by its number.
-/

namespace SkillEngine.Text

/-- A character by its number, in hexadecimal digits between braces. -/
def numbered (character : Char) : List Char :=
  ['\\', 'u', '\x7b'] ++ Nat.toDigits 16 character.toNat ++ ['\x7d']

/-- A character inside a quoted text. -/
def quotedChar (character : Char) : List Char :=
  if character = '"' then ['\\', '"']
  else if character = '\\' then ['\\', '\\']
  else if character = '\n' then ['\\', 'n']
  else if character = '\r' then ['\\', 'r']
  else if character = '\t' then ['\\', 't']
  else if character = '\x00' then ['\\', '0']
  else if isVisible character then [character]
  else numbered character

/-- A quoted text. -/
def quoted (text : String) : String :=
  String.ofList ('"' :: text.toList.flatMap quotedChar ++ ['"'])

end SkillEngine.Text
