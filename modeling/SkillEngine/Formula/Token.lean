import SkillEngine.Number.Numeral

/-!
# Tokens of a formula

A formula is read as numbers, names and seven marks; blanks separate. A run of digits and dots is
one number, a letter or underscore starts a name that runs on over letters, digits, underscores and
dots. `tokenize` takes each run as long as it goes and refuses everything else at its position.
-/

namespace SkillEngine.Formula

/-- The smallest meaningful piece of a formula. -/
inductive Token where
  /-- A number, read to the nearest single-precision float. -/
  | number (value : Float32)
  /-- A variable or function name. -/
  | name (text : String)
  /-- Addition. -/
  | plus
  /-- Subtraction or negation. -/
  | minus
  /-- Multiplication. -/
  | star
  /-- Division. -/
  | slash
  /-- An opening parenthesis. -/
  | opening
  /-- A closing parenthesis. -/
  | closing
  /-- A comma between arguments. -/
  | comma

/-- Why a text is not a formula. -/
inductive Error where
  /-- A character that starts no token, with its position. -/
  | unexpectedChar (character : Char) (position : Nat)
  /-- The text stops where more must follow. -/
  | unexpectedEnd
  /-- A token where the grammar has none. -/
  | unexpectedToken (token : Token)
  /-- A call of a function that does not exist. -/
  | unknownFunction (name : String)
  /-- A run of digits and dots that is no number. -/
  | badNumber (text : String)
  /-- Parentheses, arguments and minus signs are nested too deeply. -/
  | tooDeep
  /-- There are too many tokens. -/
  | tooLong

/-- The deepest allowed nesting. -/
def maxNesting : Nat := 64

/-- The largest allowed number of tokens. -/
def maxTokens : Nat := 1024

/-- The text of a float in a diagnostic; a positive exponent has no sign. -/
def quoteNumber (value : Float32) : String :=
  match Number.Layout.diagnostic.ofSingle? (.ofValue value) with
  | some numeral => String.ofList (numeral.chars false)
  | none => if value.isNaN then "NaN" else if value < 0 then "-inf" else "inf"

/-- The text of a token in a diagnostic. -/
def Token.quote : Token → String
  | .number value => "Number(" ++ quoteNumber value ++ ")"
  | .name text => "Ident(\"" ++ text ++ "\")"
  | .plus => "Plus"
  | .minus => "Minus"
  | .star => "Star"
  | .slash => "Slash"
  | .opening => "LParen"
  | .closing => "RParen"
  | .comma => "Comma"

/-- The message of an error. -/
def Error.message : Error → String
  | .unexpectedChar character position =>
    "unexpected character '" ++ character.toString ++ "' at " ++ toString position
  | .unexpectedEnd => "unexpected end of input"
  | .unexpectedToken token => "unexpected token " ++ token.quote
  | .unknownFunction name => "unknown function " ++ name
  | .badNumber text => "bad number literal " ++ text
  | .tooDeep => "nesting deeper than " ++ toString maxNesting ++ " levels"
  | .tooLong => "more than " ++ toString maxTokens ++ " tokens"

/-- The four blanks. -/
def isBlank (character : Char) : Bool :=
  character == ' ' || character == '\t' || character == '\n' || character == '\r'

/-- The mark that a character is. -/
def mark? : Char → Option Token
  | '+' => some .plus
  | '-' => some .minus
  | '*' => some .star
  | '/' => some .slash
  | '(' => some .opening
  | ')' => some .closing
  | ',' => some .comma
  | _ => none

/-- A number is made of digits and dots. -/
def inNumber (character : Char) : Bool := character.isDigit || character == '.'

/-- A name starts with a letter or an underscore. -/
def startsName (character : Char) : Bool := character.isAlpha || character == '_'

/-- A name goes on over letters, digits, underscores and dots. -/
def inName (character : Char) : Bool := character.isAlphanum || character == '_' || character == '.'

/-- The value of a run of digits and dots: it has a digit and at most one dot. -/
def readNumber? (run : List Char) : Option Float32 :=
  let digits := run.filter Char.isDigit
  if digits.isEmpty || run.count '.' > 1 then none
  else
    let whole := digits.foldl (fun number digit => number * 10 + (digit.toNat - '0'.toNat)) 0
    let places := ((run.dropWhile (· != '.')).drop 1).length
    some (Float32.ofScientific whole true places)

/-- Dropping a run leaves no more than there was. -/
theorem length_dropWhile_le (inRun : Char → Bool) (text : List Char) :
    (text.dropWhile inRun).length ≤ text.length :=
  (List.dropWhile_sublist inRun).length_le

/-- The tokens of a text whose first character has the given position. -/
def tokenizeFrom (position : Nat) : List Char → Except Error (List Token)
  | [] => .ok []
  | first :: rest =>
    if isBlank first then tokenizeFrom (position + 1) rest
    else if let some token := mark? first then
      (tokenizeFrom (position + 1) rest).map (token :: ·)
    else if inNumber first then
      let run := first :: rest.takeWhile inNumber
      match readNumber? run with
      | none => .error (.badNumber (String.ofList run))
      | some value =>
        have := length_dropWhile_le inNumber rest
        (tokenizeFrom (position + run.length) (rest.dropWhile inNumber)).map (.number value :: ·)
    else if startsName first then
      let run := first :: rest.takeWhile inName
      have := length_dropWhile_le inName rest
      (tokenizeFrom (position + run.length) (rest.dropWhile inName)).map
        (.name (String.ofList run) :: ·)
    else .error (.unexpectedChar first position)
  termination_by text => text.length
  decreasing_by all_goals simp only [List.length_cons]; omega

/-- The tokens of a formula. -/
def tokenize (source : String) : Except Error (List Token) := tokenizeFrom 0 source.toList

end SkillEngine.Formula
