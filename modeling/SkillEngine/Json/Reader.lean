import SkillEngine.Json.Value

/-!
# Reading JSON

A reader takes a document off the front of some characters. Four characters are blank; a number has
no leading zeros and digits on both sides of its point; a string has no raw control characters.
Surrogate escapes must pair up for a literal to have a text. `parse` takes a whole text, blanks
around it allowed. The readers of nested values count down a bound that the text's length sets.
-/

namespace SkillEngine.Json

/-- The four blank characters. -/
def isBlank (character : Char) : Bool :=
  character == ' ' || character == '\t' || character == '\n' || character == '\r'

/-- The characters from the first that is not blank. -/
def skipBlanks (text : List Char) : List Char := text.dropWhile isBlank

/-- The value of a hexadecimal digit. -/
def hexValue? (character : Char) : Option Nat :=
  if character.isDigit then some (character.toNat - '0'.toNat)
  else if 'a' ≤ character ∧ character ≤ 'f' then some (character.toNat - 'a'.toNat + 10)
  else if 'A' ≤ character ∧ character ≤ 'F' then some (character.toNat - 'A'.toNat + 10)
  else none

/-- The value of four hexadecimal digits. -/
def hexWord? : List Char → Option (Nat × List Char)
  | a :: b :: c :: d :: rest => do
    let a ← hexValue? a
    let b ← hexValue? b
    let c ← hexValue? c
    let d ← hexValue? d
    some (((a * 16 + b) * 16 + c) * 16 + d, rest)
  | _ => none

/-- One unit of a string literal. -/
inductive Unit16 where
  /-- A character. -/
  | character (value : Char)
  /-- The first half of a pair. -/
  | high (value : Nat)
  /-- The second half of a pair. -/
  | low (value : Nat)

/-- The unit of an escaped 16-bit word. -/
def Unit16.ofWord (word : Nat) : Unit16 :=
  if 0xd800 ≤ word ∧ word < 0xdc00 then .high word
  else if 0xdc00 ≤ word ∧ word < 0xe000 then .low word
  else .character (Char.ofNat word)

/-- The unit that an escape stands for, after its backslash. -/
def escaped? : List Char → Option (Unit16 × List Char)
  | '"' :: rest => some (.character '"', rest)
  | '\\' :: rest => some (.character '\\', rest)
  | '/' :: rest => some (.character '/', rest)
  | 'b' :: rest => some (.character '\x08', rest)
  | 'f' :: rest => some (.character '\x0c', rest)
  | 'n' :: rest => some (.character '\n', rest)
  | 'r' :: rest => some (.character '\r', rest)
  | 't' :: rest => some (.character '\t', rest)
  | 'u' :: rest => (hexWord? rest).map fun (word, rest) => (.ofWord word, rest)
  | _ => none

/-- The units of a string literal, after its opening quote; at most `bound` of them. -/
def stringUnits : Nat → List Unit16 → List Char → Option (List Unit16 × List Char)
  | 0, _, _ => none
  | _ + 1, _, [] => none
  | bound + 1, units, character :: rest =>
    if character = '"' then some (units.reverse, rest)
    else if character = '\\' then
      match escaped? rest with
      | none => none
      | some (unit, rest) => stringUnits bound (unit :: units) rest
    else if character.toNat < 32 then none
    else stringUnits bound (.character character :: units) rest

/-- The text of some units; none when a half of a pair stands alone. -/
def textOf : List Unit16 → Option (List Char)
  | [] => some []
  | .character value :: rest => (textOf rest).map (value :: ·)
  | .high high :: .low low :: rest =>
    (textOf rest).map (Char.ofNat (0x10000 + (high - 0xd800) * 0x400 + (low - 0xdc00)) :: ·)
  | _ => none

/-- A string literal, after its opening quote. -/
def stringLiteral (text : List Char) : Option (Option String × List Char) :=
  (stringUnits (text.length + 1) [] text).map fun (units, rest) =>
    ((textOf units).map String.ofList, rest)

/-- The value of a run of digits. -/
def numberOf (digits : List Char) : Nat :=
  digits.foldl (fun number digit => number * 10 + (digit.toNat - '0'.toNat)) 0

/-- A run of digits and what follows it. -/
def digitRun (text : List Char) : List Char × List Char :=
  (text.takeWhile Char.isDigit, text.dropWhile Char.isDigit)

/-- The whole part of a number: a zero alone, or digits that start otherwise. -/
def wholePart? : List Char → Option (Nat × List Char)
  | '0' :: rest =>
    match rest with
    | digit :: _ => if digit.isDigit then none else some (0, rest)
    | [] => some (0, [])
  | text =>
    let (digits, rest) := digitRun text
    if digits.isEmpty then none else some (numberOf digits, rest)

/-- The fraction of a number: without a point there is none. -/
def fractionPart? : List Char → Option (List Nat × List Char)
  | '.' :: rest =>
    let (digits, rest) := digitRun rest
    if digits.isEmpty then none
    else some (digits.map fun digit => digit.toNat - '0'.toNat, rest)
  | text => some ([], text)

/-- An exponent with its sign taken off. -/
def exponentDigits? (negative : Bool) (text : List Char) : Option (Option Int × List Char) :=
  let (digits, rest) := digitRun text
  if digits.isEmpty then none
  else
    let size := (numberOf digits : Int)
    some (some (if negative then -size else size), rest)

/-- The exponent of a number: without its letter there is none. -/
def exponentPart? : List Char → Option (Option Int × List Char)
  | letter :: rest =>
    if letter = 'e' ∨ letter = 'E' then
      match rest with
      | '-' :: digits => exponentDigits? true digits
      | '+' :: digits => exponentDigits? false digits
      | digits => exponentDigits? false digits
    else some (none, letter :: rest)
  | [] => some (none, [])

/-- A number with its sign taken off. -/
def unsigned? (negative : Bool) (text : List Char) : Option (Number.Numeral × List Char) := do
  let (whole, rest) ← wholePart? text
  let (fraction, rest) ← fractionPart? rest
  let (exponent, rest) ← exponentPart? rest
  some (⟨negative, whole, fraction, exponent⟩, rest)

/-- A number. -/
def numeral? : List Char → Option (Number.Numeral × List Char)
  | '-' :: rest => unsigned? true rest
  | text => unsigned? false text

mutual

/-- A document, blanks before it allowed. -/
def value? : Nat → List Char → Option (Json × List Char)
  | 0, _ => none
  | bound + 1, text =>
    match skipBlanks text with
    | 'n' :: 'u' :: 'l' :: 'l' :: rest => some (.null, rest)
    | 't' :: 'r' :: 'u' :: 'e' :: rest => some (.bool true, rest)
    | 'f' :: 'a' :: 'l' :: 's' :: 'e' :: rest => some (.bool false, rest)
    | '"' :: rest => (stringLiteral rest).map fun (text, rest) => (.string text, rest)
    | '[' :: rest =>
      match skipBlanks rest with
      | ']' :: rest => some (.array [], rest)
      | rest => (items? bound [] rest).map fun (items, rest) => (.array items, rest)
    | '\x7b' :: rest =>
      match skipBlanks rest with
      | '\x7d' :: rest => some (.object [], rest)
      | rest => (fields? bound [] rest).map fun (fields, rest) => (.object fields, rest)
    | rest => (numeral? rest).map fun (numeral, rest) => (.number numeral, rest)

/-- The items of an array behind those already read, up to its end. -/
def items? : Nat → List Json → List Char → Option (List Json × List Char)
  | 0, _, _ => none
  | bound + 1, items, text =>
    match value? bound text with
    | none => none
    | some (item, rest) =>
      match skipBlanks rest with
      | ',' :: rest => items? bound (item :: items) rest
      | ']' :: rest => some ((item :: items).reverse, rest)
      | _ => none

/-- The fields of an object behind those already read, up to its end. -/
def fields? : Nat → List (Option String × Json) → List Char →
    Option (List (Option String × Json) × List Char)
  | 0, _, _ => none
  | bound + 1, fields, text =>
    match skipBlanks text with
    | '"' :: rest =>
      match stringLiteral rest with
      | none => none
      | some (key, rest) =>
        match skipBlanks rest with
        | ':' :: rest =>
          match value? bound rest with
          | none => none
          | some (value, rest) =>
            match skipBlanks rest with
            | ',' :: rest => fields? bound ((key, value) :: fields) rest
            | '\x7d' :: rest => some (((key, value) :: fields).reverse, rest)
            | _ => none
        | _ => none
    | _ => none

end

/-- The document that some characters are, blanks around it allowed. -/
def parseChars (text : List Char) : Option Json :=
  match value? (2 * text.length + 2) text with
  | some (json, rest) => if (skipBlanks rest).isEmpty then some json else none
  | none => none

/-- The document that a text is. -/
def parse (text : String) : Option Json := parseChars text.toList

end SkillEngine.Json
