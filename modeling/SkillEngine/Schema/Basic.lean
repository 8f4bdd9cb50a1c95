import SkillEngine.Binary.Format
import SkillEngine.Formula.Source
import SkillEngine.Ident
import SkillEngine.Json.Decode
import SkillEngine.Tag.Set

/-!
# Encodings of identifiers, tags and formulas

Every stored type has a JSON form, a decoder of it and a binary format. A wrapped number, a tag and
a formula are written as what they wrap; a set of tags is a list, and reading one drops repetitions.
-/

namespace SkillEngine

open Binary (Format)
open Json (Decoder)

namespace Number

/-- A finite float is a number, any other is null. -/
def Single.toJson (stored : Single) : Json :=
  match Layout.single.ofSingle? stored with
  | some numeral => .number numeral
  | none => .null

/-- A finite float is a number, any other is null. -/
def Double.toJson (stored : Double) : Json :=
  match Layout.double.ofDouble? stored with
  | some numeral => .number numeral
  | none => .null

/-- The bit pattern. -/
def Single.format : Format Single := Format.uint32.map Single.mk Single.bits

/-- The bit pattern. -/
def Double.format : Format Double := Format.uint64.map Double.mk Double.bits

end Number

namespace EntityId

/-- The number. -/
def toJson (id : EntityId) : Json := .nat id.raw.toNat

/-- The number. -/
def decoder : Decoder EntityId := Decoder.uint32.map EntityId.mk

/-- The number. -/
def format : Format EntityId := Format.uint32.map EntityId.mk EntityId.raw

end EntityId

namespace AttributeId

/-- The number. -/
def toJson (id : AttributeId) : Json := .nat id.raw.toNat

/-- The number. -/
def decoder : Decoder AttributeId := Decoder.uint16.map AttributeId.mk

/-- The number. -/
def format : Format AttributeId := Format.uint16.map AttributeId.mk AttributeId.raw

end AttributeId

namespace SkillId

/-- The number. -/
def toJson (id : SkillId) : Json := .nat id.raw.toNat

/-- The number. -/
def decoder : Decoder SkillId := Decoder.uint32.map SkillId.mk

/-- The number. -/
def format : Format SkillId := Format.uint32.map SkillId.mk SkillId.raw

end SkillId

namespace NodeId

/-- The number. -/
def toJson (id : NodeId) : Json := .nat id.raw.toNat

/-- The number. -/
def decoder : Decoder NodeId := Decoder.uint32.map NodeId.mk

/-- The number. -/
def format : Format NodeId := Format.uint32.map NodeId.mk NodeId.raw

end NodeId

namespace CueId

/-- The number. -/
def toJson (id : CueId) : Json := .nat id.raw

/-- The number. -/
def decoder : Decoder CueId := (Decoder.natBelow UInt32.size).map CueId.mk

/-- The number. -/
def format : Format CueId := (Format.word 4).map CueId.mk CueId.raw

end CueId

namespace EffectId

/-- The number. -/
def toJson (id : EffectId) : Json := .nat id.raw

/-- The number. -/
def decoder : Decoder EffectId := (Decoder.natBelow UInt64.size).map EffectId.mk

/-- The number. -/
def format : Format EffectId := (Format.word 8).map EffectId.mk EffectId.raw

end EffectId

namespace SourceId

/-- The number. -/
def toJson (id : SourceId) : Json := .nat id.raw

/-- The number. -/
def decoder : Decoder SourceId := (Decoder.natBelow UInt64.size).map SourceId.mk

/-- The number. -/
def format : Format SourceId := (Format.word 8).map SourceId.mk SourceId.raw

end SourceId

namespace SubscriptionId

/-- The number. -/
def toJson (id : SubscriptionId) : Json := .nat id.raw

/-- The number. -/
def decoder : Decoder SubscriptionId := (Decoder.natBelow UInt32.size).map SubscriptionId.mk

/-- The number. -/
def format : Format SubscriptionId := (Format.word 4).map SubscriptionId.mk SubscriptionId.raw

end SubscriptionId

namespace EffectHandle

/-- A record of target and number. -/
def toJson (handle : EffectHandle) : Json :=
  .record [("target", handle.target.toJson), ("id", handle.id.toJson)]

/-- A record of target and number. -/
def decoder : Decoder EffectHandle := fun room json =>
  match Json.recordSlots ["target", "id"] room json with
  | some (room, [target, id]) => do
    some ⟨← Json.required EntityId.decoder room target, ← Json.required EffectId.decoder room id⟩
  | _ => none

/-- Target, then number. -/
def format : Format EffectHandle :=
  (EntityId.format.pair EffectId.format).map (fun parts => ⟨parts.1, parts.2⟩)
    (fun handle => (handle.target, handle.id))

end EffectHandle

namespace Tag

/-- The path. -/
def toJson (tag : Tag) : Json := .text tag.path

/-- The path. -/
def decoder : Decoder Tag := Decoder.string.map ofPath

/-- The path. -/
def format : Format Tag := Format.string.map ofPath path

end Tag

namespace TagSet

/-- The list of the members. -/
def toJson (set : TagSet) : Json := .array (set.tags.map Tag.toJson)

/-- A list of tags; of equal tags the first stays. -/
def decoder : Decoder TagSet := (Decoder.list Tag.decoder).map ofList

/-- A list of tags; of equal tags the first stays. -/
def format : Format TagSet := (Format.list Tag.format).map ofList tags

end TagSet

namespace Formula.Source

/-- The text. -/
def toJson (source : Source) : Json := .text source.text

/-- The text. -/
def decoder : Decoder Source := Decoder.string.map ofText

/-- The text. -/
def format : Format Source := Format.string.map ofText text

end Formula.Source

/-- A type whose values are names: each value's name, in order of their numbers. -/
structure Names (α : Type) where
  /-- The values with their names. -/
  table : List (α × String)

namespace Names

variable {α : Type} [BEq α]

/-- The name of a value. -/
def toJson (names : Names α) (value : α) : Json := .text ((names.table.lookup value).getD "")

/-- The value of a name. -/
def decoder (names : Names α) : Decoder α :=
  Json.unitVariant (names.table.map fun entry => (entry.2, entry.1))

/-- The position of a value. -/
def format (names : Names α) : Format α := Format.oneOf (names.table.map (·.1))

end Names

end SkillEngine
