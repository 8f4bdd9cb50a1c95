import SkillEngine.Number.Numeral

/-!
# JSON values

A JSON document as it is written: numbers keep their spelling, objects keep their fields in order
with repetitions, and a string literal whose escapes leave a surrogate unpaired has no text. What a
reader makes of these is up to the decoder that asks.
-/

namespace SkillEngine

/-- A JSON document. -/
inductive Json where
  /-- The null value. -/
  | null
  /-- A truth value. -/
  | bool (value : Bool)
  /-- A number. -/
  | number (numeral : Number.Numeral)
  /-- A string, if its literal has a text. -/
  | string (text : Option String)
  /-- An array. -/
  | array (items : List Json)
  /-- An object; a key is a string literal too. -/
  | object (fields : List (Option String × Json))
  deriving Inhabited

namespace Json

/-- The string of a text. -/
def text (value : String) : Json := .string (some value)

/-- The number of a natural number. -/
def nat (value : Nat) : Json := .number (.ofNat value)

/-- The object of some named fields. -/
def record (fields : List (String × Json)) : Json :=
  .object (fields.map fun field => (some field.1, field.2))

/-- The last field of an object with a name. -/
def field? (json : Json) (name : String) : Option Json :=
  match json with
  | .object fields => fields.reverse.lookup (some name)
  | _ => none

end Json

end SkillEngine
