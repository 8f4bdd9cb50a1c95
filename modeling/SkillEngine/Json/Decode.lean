import SkillEngine.Json.Reader

/-!
# Reading typed data from JSON

A decoder reads a value off a document, given how many more arrays and objects may be opened. A
record may be an object, whose unknown fields are passed over and whose known fields may not repeat,
or an array of its fields in order; a variant is its name alone or an object of its name and its
payload.
-/

namespace SkillEngine.Json

/-- Reads a value, opening no more arrays and objects than there is room for. -/
abbrev Decoder (α : Type) := Nat → Json → Option α

namespace Decoder

variable {α β : Type}

/-- The value made into another. -/
def map (decoder : Decoder α) (make : α → β) : Decoder β := fun room json =>
  (decoder room json).map make

/-- A string. -/
def string : Decoder String
  | _, .string text => text
  | _, _ => none

/-- A truth value. -/
def bool : Decoder Bool
  | _, .bool value => some value
  | _, _ => none

/-- A whole number below a bound. -/
def natBelow (bound : Nat) : Decoder Nat
  | _, .number numeral => numeral.toNat? bound
  | _, _ => none

/-- A 16-bit number. -/
def uint16 : Decoder UInt16 := (natBelow UInt16.size).map UInt16.ofNat

/-- A 32-bit number. -/
def uint32 : Decoder UInt32 := (natBelow UInt32.size).map UInt32.ofNat

/-- A 64-bit number. -/
def uint64 : Decoder UInt64 := (natBelow UInt64.size).map UInt64.ofNat

/-- A single-precision number. -/
def single : Decoder Number.Single
  | _, .number numeral => numeral.toSingle?.map .ofValue
  | _, _ => none

/-- A double-precision number. -/
def double : Decoder Number.Double
  | _, .number numeral => numeral.toDouble?.map .ofValue
  | _, _ => none

/-- A value that may be null. -/
def nullable (decoder : Decoder α) : Decoder (Option α)
  | _, .null => some none
  | room, json => (decoder room json).map some

/-- The values of some items, all or none. -/
def each (decoder : Decoder α) (room : Nat) : List Json → Option (List α)
  | [] => some []
  | first :: rest => do
    let value ← decoder room first
    let values ← each decoder room rest
    some (value :: values)

/-- An array. -/
def list (decoder : Decoder α) : Decoder (List α)
  | room + 1, .array items => each decoder room items
  | _, _ => none

/-- The entries of some fields, all or none. -/
def eachField (decoder : Decoder α) (room : Nat) :
    List (Option String × Json) → Option (List (String × α))
  | [] => some []
  | (key, json) :: rest => do
    let key ← key
    let value ← decoder room json
    let entries ← eachField decoder room rest
    some ((key, value) :: entries)

/-- An object as a list of entries. -/
def entries (decoder : Decoder α) : Decoder (List (String × α))
  | room + 1, .object fields => eachField decoder room fields
  | _, _ => none

end Decoder

/-- What a record gives for its fields: for each known name the document, if it is there. -/
abbrev Slots := List (Option Json)

/-- The slot of one name filled; none when it is filled already. -/
def fillSlot (name : String) (json : Json) : List String → Slots → Option Slots
  | known :: names, slot :: slots =>
    if known = name then
      match slot with
      | some _ => none
      | none => some (some json :: slots)
    else (fillSlot name json names slots).map (slot :: ·)
  | _, slots => some slots

/-- The slots filled from fields in turn. -/
def fillSlots (names : List String) : List (Option String × Json) → Slots → Option Slots
  | [], slots => some slots
  | (none, _) :: _, _ => none
  | (some name, json) :: rest, slots => (fillSlot name json names slots).bind (fillSlots names rest)

/-- The slots of a record with the given field names, and the room that is left inside it. -/
def recordSlots (names : List String) : Nat → Json → Option (Nat × Slots)
  | room + 1, .object fields =>
    (fillSlots names fields (names.map fun _ => none)).map fun slots => (room, slots)
  | room + 1, .array items =>
    if items.length ≤ names.length then
      some (room, items.map some ++ List.replicate (names.length - items.length) none)
    else none
  | _, _ => none

/-- A field that must be there. -/
def required {α : Type} (decoder : Decoder α) (room : Nat) : Option Json → Option α
  | some json => decoder room json
  | none => none

/-- A field with a default. -/
def withDefault {α : Type} (decoder : Decoder α) (fallback : α) (room : Nat) :
    Option Json → Option α
  | some json => decoder room json
  | none => some fallback

/-- A variant: its name, its payload if it has one, and the room that is left for that. -/
def variant : Nat → Json → Option (String × Option Json × Nat)
  | room, .string (some name) => some (name, none, room)
  | room + 1, .object [(some name, payload)] => some (name, some payload, room)
  | _, _ => none

/-- A variant without a payload, which may be spelled out as null. -/
def noPayload {α : Type} (value : α) : Option Json → Option α
  | none | some .null => some value
  | _ => none

/-- A variant out of a table of those without payload. -/
def unitVariant {α : Type} (table : List (String × α)) : Decoder α := fun room json =>
  match variant room json with
  | none => none
  | some (name, payload, _) => (table.lookup name).bind fun value => noPayload value payload

/-- The room of a whole document. -/
def documentRoom : Nat := 127

/-- The value of a text. -/
def decodeText {α : Type} (decoder : Decoder α) (text : String) : Option α :=
  (parse text).bind (decoder documentRoom)

end SkillEngine.Json
