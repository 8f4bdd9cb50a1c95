import SkillEngine.Json.Value

/-!
# Writing JSON

`chars` writes a document without blanks, `prettyChars` with two blanks of indentation a level and
empty containers closed at once. Quotes, backslashes and control characters are escaped, all other
characters stand for themselves. An exponent always has a sign.
-/

namespace SkillEngine.Json

/-- One hexadecimal digit. -/
def hexDigit (digit : Nat) : Char :=
  if digit < 10 then Char.ofNat ('0'.toNat + digit) else Char.ofNat ('a'.toNat + digit - 10)

/-- A character inside a string literal. -/
def escape (character : Char) : List Char :=
  if character = '"' then ['\\', '"']
  else if character = '\\' then ['\\', '\\']
  else if character = '\n' then ['\\', 'n']
  else if character = '\r' then ['\\', 'r']
  else if character = '\t' then ['\\', 't']
  else if character = '\x08' then ['\\', 'b']
  else if character = '\x0c' then ['\\', 'f']
  else if character.toNat < 32 then
    ['\\', 'u', '0', '0', hexDigit (character.toNat / 16), hexDigit (character.toNat % 16)]
  else [character]

/-- A string literal. -/
def quoted (text : String) : List Char := '"' :: text.toList.flatMap escape ++ ['"']

/-- The literal of a string; one without a text is written empty. -/
def literal (text : Option String) : List Char := quoted (text.getD "")

mutual

/-- A document without blanks. -/
def chars : Json → List Char
  | .null => ['n', 'u', 'l', 'l']
  | .bool true => ['t', 'r', 'u', 'e']
  | .bool false => ['f', 'a', 'l', 's', 'e']
  | .number numeral => numeral.chars true
  | .string text => literal text
  | .array [] => ['[', ']']
  | .array (first :: rest) => '[' :: chars first ++ itemChars rest
  | .object [] => ['\x7b', '\x7d']
  | .object ((key, value) :: rest) =>
    '\x7b' :: literal key ++ ':' :: chars value ++ fieldChars rest

/-- Further items and the end of an array. -/
def itemChars : List Json → List Char
  | [] => [']']
  | first :: rest => ',' :: chars first ++ itemChars rest

/-- Further fields and the end of an object. -/
def fieldChars : List (Option String × Json) → List Char
  | [] => ['\x7d']
  | (key, value) :: rest => ',' :: literal key ++ ':' :: chars value ++ fieldChars rest

end

/-- A line break with the indentation of a level. -/
def newline (level : Nat) : List Char := '\n' :: List.replicate (2 * level) ' '

mutual

/-- A document in lines, its first line at a level of indentation. -/
def prettyChars (level : Nat) : Json → List Char
  | .array (first :: rest) =>
    '[' :: newline (level + 1) ++ prettyChars (level + 1) first ++ prettyItems level rest
  | .object ((key, value) :: rest) =>
    '\x7b' :: newline (level + 1) ++ literal key ++ ':' :: ' ' :: prettyChars (level + 1) value
      ++ prettyFields level rest
  | json => chars json

/-- Further items and the end of an array, in lines. -/
def prettyItems (level : Nat) : List Json → List Char
  | [] => newline level ++ [']']
  | first :: rest =>
    ',' :: newline (level + 1) ++ prettyChars (level + 1) first ++ prettyItems level rest

/-- Further fields and the end of an object, in lines. -/
def prettyFields (level : Nat) : List (Option String × Json) → List Char
  | [] => newline level ++ ['\x7d']
  | (key, value) :: rest =>
    ',' :: newline (level + 1) ++ literal key ++ ':' :: ' ' :: prettyChars (level + 1) value
      ++ prettyFields level rest

end

/-- A document in one line. -/
def compact (json : Json) : String := String.ofList json.chars

/-- A document in lines. -/
def pretty (json : Json) : String := String.ofList (prettyChars 0 json)

end SkillEngine.Json
