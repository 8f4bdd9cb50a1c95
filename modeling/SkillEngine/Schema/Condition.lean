import SkillEngine.Condition.Basic
import SkillEngine.Schema.Basic

/-!
# Encodings of conditions

A condition nests, so its writer is recursive on the condition, its JSON decoder on the room for
nested values, and its binary reader on a bound that the number of bytes sets: every nested
condition takes at least the bytes of its variant number.
-/

namespace SkillEngine

open Binary (Format Reader)
open Json (Decoder required recordSlots)

/-- The names of the comparisons. -/
def Comparison.names : Names Comparison :=
  ⟨[(.less, "Less"), (.lessOrEqual, "LessOrEqual"), (.equal, "Equal"), (.notEqual, "NotEqual"),
    (.greaterOrEqual, "GreaterOrEqual"), (.greater, "Greater")]⟩

namespace ConditionDef

mutual

/-- A variant. -/
def toJson : ConditionDef → Json
  | .hasAllTags tags => .record [("HasAllTags", tags.toJson)]
  | .hasAnyTags tags => .record [("HasAnyTags", tags.toJson)]
  | .attributeCompare attr op value =>
    .record [("AttributeCompare", .record [("attribute", attr.toJson),
      ("op", Comparison.names.toJson op), ("value", value.toJson)])]
  | .chance probability => .record [("Chance", probability.toJson)]
  | .contextFlag key => .record [("ContextFlag", .text key)]
  | .all conditions => .record [("All", .array (eachToJson conditions))]
  | .any conditions => .record [("Any", .array (eachToJson conditions))]
  | .not condition => .record [("Not", toJson condition)]
  | .always => .text "Always"
  | .never => .text "Never"

/-- The variants of some conditions. -/
def eachToJson : List ConditionDef → List Json
  | [] => []
  | first :: rest => toJson first :: eachToJson rest

end

/-- The comparison of an attribute, from its record. -/
def compareDecoder : Decoder ConditionDef := fun room json =>
  match recordSlots ["attribute", "op", "value"] room json with
  | some (room, [attr, op, value]) => do
    some (.attributeCompare (← required AttributeId.decoder room attr)
      (← required Comparison.names.decoder room op) (← required Decoder.single room value))
  | _ => none

/-- A condition that holds no others, from its name and payload. -/
def leafDecoder (name : String) (payload : Option Json) (room : Nat) : Option ConditionDef :=
  match name, payload with
  | "HasAllTags", some payload => (TagSet.decoder room payload).map .hasAllTags
  | "HasAnyTags", some payload => (TagSet.decoder room payload).map .hasAnyTags
  | "AttributeCompare", some payload => compareDecoder room payload
  | "Chance", some payload => (Decoder.single room payload).map .chance
  | "ContextFlag", some payload => (Decoder.string room payload).map .contextFlag
  | "Always", payload => Json.noPayload .always payload
  | "Never", payload => Json.noPayload .never payload
  | _, _ => none

/-- A variant. -/
def decoder : Decoder ConditionDef
  | room, .string (some name) => leafDecoder name none room
  | room + 2, .object [(some "All", .array items)] =>
    (items.mapM fun item => decoder room item).map .all
  | room + 2, .object [(some "Any", .array items)] =>
    (items.mapM fun item => decoder room item).map .any
  | room + 1, .object [(some "Not", payload)] => (decoder room payload).map .not
  | room + 1, .object [(some name, payload)] => leafDecoder name (some payload) room
  | _, _ => none

mutual

/-- The number of the variant, then its payload. -/
def bytes : ConditionDef → List UInt8
  | .hasAllTags tags => Format.wordBytes 4 0 ++ TagSet.format.write tags
  | .hasAnyTags tags => Format.wordBytes 4 1 ++ TagSet.format.write tags
  | .attributeCompare attr op value =>
    Format.wordBytes 4 2 ++ AttributeId.format.write attr ++ Comparison.names.format.write op
      ++ Number.Single.format.write value
  | .chance probability => Format.wordBytes 4 3 ++ Number.Single.format.write probability
  | .contextFlag key => Format.wordBytes 4 4 ++ Format.string.write key
  | .all conditions =>
    Format.wordBytes 4 5 ++ Format.wordBytes 8 conditions.length ++ eachBytes conditions
  | .any conditions =>
    Format.wordBytes 4 6 ++ Format.wordBytes 8 conditions.length ++ eachBytes conditions
  | .not condition => Format.wordBytes 4 7 ++ bytes condition
  | .always => Format.wordBytes 4 8
  | .never => Format.wordBytes 4 9

/-- The bytes of some conditions in order. -/
def eachBytes : List ConditionDef → List UInt8
  | [] => []
  | first :: rest => bytes first ++ eachBytes rest

end

/-- The payload of a comparison. -/
def compareFormat : Format (AttributeId × Comparison × Number.Single) :=
  AttributeId.format.pair (Comparison.names.format.pair Number.Single.format)

/-- Reads a condition that nests no deeper than a bound. -/
def readNested : Nat → Reader ConditionDef
  | 0, _ => .error .truncated
  | bound + 1, bytes =>
    let nested : Format ConditionDef := ⟨ConditionDef.bytes, fun bytes => readNested bound bytes⟩
    match Format.readWord 4 bytes with
    | .error error => .error error
    | .ok (number, bytes) =>
      match number with
      | 0 => (TagSet.format.map .hasAllTags fun _ => .empty).read bytes
      | 1 => (TagSet.format.map .hasAnyTags fun _ => .empty).read bytes
      | 2 => (compareFormat.map (fun (attr, op, value) => .attributeCompare attr op value)
          fun _ => default).read bytes
      | 3 => (Number.Single.format.map .chance fun _ => .zero).read bytes
      | 4 => (Format.string.map .contextFlag fun _ => "").read bytes
      | 5 => ((Format.list nested).map .all fun _ => []).read bytes
      | 6 => ((Format.list nested).map .any fun _ => []).read bytes
      | 7 => (nested.map .not fun _ => .always).read bytes
      | 8 => .ok (.always, bytes)
      | 9 => .ok (.never, bytes)
      | _ => .error .unknownVariant

/-- The number of the variant, then its payload. -/
def format : Format ConditionDef where
  write := bytes
  read bytes := readNested bytes.length bytes

end ConditionDef

end SkillEngine
