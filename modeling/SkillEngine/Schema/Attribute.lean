import SkillEngine.Attribute.Table
import SkillEngine.Schema.Basic

/-!
# Encodings of attribute data

Modifiers, magnitudes, table rows and tables, and the records that describe live modifiers and
changes.
-/

namespace SkillEngine

open Binary (Format)
open Json (Decoder required withDefault recordSlots variant)

/-- The names of the operations. -/
def ModifierOp.names : Names ModifierOp :=
  ⟨[(.add, "Add"), (.multiply, "Multiply"), (.divide, "Divide"), (.override, "Override")]⟩

/-- The names of the capture modes. -/
def CaptureMode.names : Names CaptureMode := ⟨[(.snapshot, "Snapshot"), (.track, "Track")]⟩

/-- The names of the aggregator modes. -/
def AggregatorMode.names : Names AggregatorMode :=
  ⟨[(.default, "Default"), (.mostNegative, "MostNegativeModifier"),
    (.mostPositive, "MostPositiveModifier"),
    (.mostNegativeWithAllPositive, "MostNegativeWithAllPositive")]⟩

/-- The names of the two values of an attribute. -/
def ValueKind.names : Names ValueKind := ⟨[(.base, "Base"), (.current, "Current")]⟩

namespace MagnitudeSource

/-- A variant with one payload. -/
def toJson : MagnitudeSource → Json
  | .fixed value => .record [("Fixed", value.toJson)]
  | .formula source => .record [("Formula", source.toJson)]
  | .computed name => .record [("Computed", .text name)]
  | .setByCaller key => .record [("SetByCaller", .text key)]

/-- A variant with one payload. -/
def decoder : Decoder MagnitudeSource := fun room json =>
  match variant room json with
  | some ("Fixed", some payload, room) => (Decoder.single room payload).map .fixed
  | some ("Formula", some payload, room) => (Formula.Source.decoder room payload).map .formula
  | some ("Computed", some payload, room) => (Decoder.string room payload).map .computed
  | some ("SetByCaller", some payload, room) => (Decoder.string room payload).map .setByCaller
  | _ => none

/-- The number of the variant, then its payload. -/
def format : Format MagnitudeSource :=
  Format.variant
    (fun source => match source with
      | .fixed _ => 0
      | .formula _ => 1
      | .computed _ => 2
      | .setByCaller _ => 3)
    (fun source => match source with
      | .fixed value => Number.Single.format.write value
      | .formula source => Formula.Source.format.write source
      | .computed name => Format.string.write name
      | .setByCaller key => Format.string.write key)
    (fun number => match number with
      | 0 => some (Number.Single.format.map .fixed fun _ => .zero).read
      | 1 => some (Formula.Source.format.map .formula fun _ => .ofText "").read
      | 2 => some (Format.string.map .computed fun _ => "").read
      | 3 => some (Format.string.map .setByCaller fun _ => "").read
      | _ => none)

end MagnitudeSource

namespace Modifier

/-- A record. -/
def toJson (modifier : Modifier) : Json :=
  .record [("attribute", modifier.attr.toJson), ("op", ModifierOp.names.toJson modifier.op),
    ("magnitude", modifier.magnitude.toJson),
    ("capture", CaptureMode.names.toJson modifier.capture)]

/-- A record. -/
def decoder : Decoder Modifier := fun room json =>
  match recordSlots ["attribute", "op", "magnitude", "capture"] room json with
  | some (room, [attr, op, magnitude, capture]) => do
    some {
      attr := ← required AttributeId.decoder room attr
      op := ← required ModifierOp.names.decoder room op
      magnitude := ← required MagnitudeSource.decoder room magnitude
      capture := ← withDefault CaptureMode.names.decoder .snapshot room capture }
  | _ => none

/-- The fields in order. -/
def format : Format Modifier :=
  (AttributeId.format.pair (ModifierOp.names.format.pair
    (MagnitudeSource.format.pair CaptureMode.names.format))).map
    (fun (attr, op, magnitude, capture) => ⟨attr, op, magnitude, capture⟩)
    (fun modifier => (modifier.attr, modifier.op, modifier.magnitude, modifier.capture))

end Modifier

/-- An optional float, null if it is missing. -/
def Number.Single.optionToJson : Option Number.Single → Json
  | none => .null
  | some value => value.toJson

namespace AttributeRow

/-- A record. -/
def toJson (row : AttributeRow) : Json :=
  .record [("id", row.id.toJson), ("name", .text row.name),
    ("default_value", row.defaultValue.toJson),
    ("min", Number.Single.optionToJson row.min), ("max", Number.Single.optionToJson row.max),
    ("is_meta", .bool row.isMeta), ("aggregator", AggregatorMode.names.toJson row.aggregator)]

/-- A record. -/
def decoder : Decoder AttributeRow := fun room json =>
  match recordSlots ["id", "name", "default_value", "min", "max", "is_meta", "aggregator"]
      room json with
  | some (room, [id, name, value, min, max, isMeta, aggregator]) => do
    some {
      id := ← required AttributeId.decoder room id
      name := ← required Decoder.string room name
      defaultValue := ← required Decoder.single room value
      min := ← withDefault Decoder.single.nullable none room min
      max := ← withDefault Decoder.single.nullable none room max
      isMeta := ← withDefault Decoder.bool false room isMeta
      aggregator := ← withDefault AggregatorMode.names.decoder .default room aggregator }
  | _ => none

/-- The fields in order. -/
def format : Format AttributeRow :=
  (AttributeId.format.pair (Format.string.pair (Number.Single.format.pair
    ((Format.option Number.Single.format).pair ((Format.option Number.Single.format).pair
      (Format.bool.pair AggregatorMode.names.format)))))).map
    (fun (id, name, value, min, max, isMeta, aggregator) =>
      ⟨id, name, value, min, max, isMeta, aggregator⟩)
    (fun row =>
      (row.id, row.name, row.defaultValue, row.min, row.max, row.isMeta, row.aggregator))

end AttributeRow

namespace AttributeTable

/-- A record of the rows. -/
def toJson (table : AttributeTable) : Json :=
  .record [("rows", .array (table.rows.map AttributeRow.toJson))]

/-- A record of the rows. -/
def decoder : Decoder AttributeTable := fun room json =>
  match recordSlots ["rows"] room json with
  | some (room, [rows]) => do
    some ⟨← required (Decoder.list AttributeRow.decoder) room rows⟩
  | _ => none

/-- The rows. -/
def format : Format AttributeTable :=
  (Format.list AttributeRow.format).map AttributeTable.mk AttributeTable.rows

/-- The table that a text describes. -/
def ofJsonText? (text : String) : Option AttributeTable := Json.decodeText decoder text

/-- The binary form. -/
def toBytes (table : AttributeTable) : List UInt8 := format.write table

/-- The table of a binary form. -/
def ofBytes (bytes : List UInt8) : Except Binary.Error AttributeTable := Binary.decode format bytes

end AttributeTable

namespace ActiveModifier

/-- A record. -/
def toJson (active : ActiveModifier Number.Single) : Json :=
  .record [("op", ModifierOp.names.toJson active.op), ("magnitude", active.magnitude.toJson),
    ("source", active.source.toJson), ("slot", .nat active.slot),
    ("stack_count", .nat active.stackCount), ("applied_at", active.appliedAt.toJson)]

/-- A record. -/
def decoder : Decoder (ActiveModifier Number.Single) := fun room json =>
  match recordSlots ["op", "magnitude", "source", "slot", "stack_count", "applied_at"]
      room json with
  | some (room, [op, magnitude, source, slot, stackCount, appliedAt]) => do
    some {
      op := ← required ModifierOp.names.decoder room op
      magnitude := ← required Decoder.single room magnitude
      source := ← required SourceId.decoder room source
      slot := ← required (Decoder.natBelow UInt64.size) room slot
      stackCount := ← required (Decoder.natBelow UInt32.size) room stackCount
      appliedAt := ← required Decoder.double room appliedAt }
  | _ => none

/-- The fields in order. -/
def format : Format (ActiveModifier Number.Single) :=
  (ModifierOp.names.format.pair (Number.Single.format.pair (SourceId.format.pair
    ((Format.word 8).pair ((Format.word 4).pair Number.Double.format))))).map
    (fun (op, magnitude, source, slot, stackCount, appliedAt) =>
      ⟨op, magnitude, source, slot, stackCount, appliedAt⟩)
    (fun active => (active.op, active.magnitude, active.source, active.slot, active.stackCount,
      active.appliedAt))

end ActiveModifier

namespace AttributeChange

/-- A record. -/
def toJson (change : AttributeChange Number.Single) : Json :=
  .record [("attribute", change.attr.toJson), ("kind", ValueKind.names.toJson change.kind),
    ("old", change.old.toJson), ("new", change.new.toJson)]

/-- A record. -/
def decoder : Decoder (AttributeChange Number.Single) := fun room json =>
  match recordSlots ["attribute", "kind", "old", "new"] room json with
  | some (room, [attr, kind, old, new]) => do
    some {
      attr := ← required AttributeId.decoder room attr
      kind := ← required ValueKind.names.decoder room kind
      old := ← required Decoder.single room old
      new := ← required Decoder.single room new }
  | _ => none

/-- The fields in order. -/
def format : Format (AttributeChange Number.Single) :=
  (AttributeId.format.pair (ValueKind.names.format.pair
    (Number.Single.format.pair Number.Single.format))).map
    (fun (attr, kind, old, new) => ⟨attr, kind, old, new⟩)
    (fun change => (change.attr, change.kind, change.old, change.new))

end AttributeChange

end SkillEngine
