import SkillEngine.Schema.Node

/-!
# Encoded types

A type is encoded when its values have a JSON form that a decoder reads, and a binary format. These
are the types that authored data and saved state are made of.
-/

namespace SkillEngine

/-- A type with a JSON form and a binary format. -/
class Encoded (α : Type) where
  /-- The JSON form of a value. -/
  toJson : α → Json
  /-- Reads a value off a JSON document. -/
  decoder : Json.Decoder α
  /-- The binary format. -/
  format : Binary.Format α

namespace Encoded

variable {α : Type}

/-- A type whose values are names. -/
@[reducible]
def ofNames [BEq α] (names : Names α) : Encoded α := ⟨names.toJson, names.decoder, names.format⟩

variable [Encoded α]

/-- The JSON text of a value, in one line. -/
def text (value : α) : String := (toJson value).compact

/-- The value of a JSON text. -/
def ofText? (text : String) : Option α := Json.decodeText decoder text

/-- The bytes of a value. -/
def bytes (value : α) : List UInt8 := format.write value

/-- The value that some bytes start with. -/
def ofBytes (bytes : List UInt8) : Except Binary.Error α := Binary.decode format bytes

end Encoded

instance : Encoded EntityId := ⟨EntityId.toJson, EntityId.decoder, EntityId.format⟩

instance : Encoded AttributeId := ⟨AttributeId.toJson, AttributeId.decoder, AttributeId.format⟩

instance : Encoded SkillId := ⟨SkillId.toJson, SkillId.decoder, SkillId.format⟩

instance : Encoded NodeId := ⟨NodeId.toJson, NodeId.decoder, NodeId.format⟩

instance : Encoded CueId := ⟨CueId.toJson, CueId.decoder, CueId.format⟩

instance : Encoded EffectId := ⟨EffectId.toJson, EffectId.decoder, EffectId.format⟩

instance : Encoded SourceId := ⟨SourceId.toJson, SourceId.decoder, SourceId.format⟩

instance : Encoded SubscriptionId :=
  ⟨SubscriptionId.toJson, SubscriptionId.decoder, SubscriptionId.format⟩

instance : Encoded EffectHandle := ⟨EffectHandle.toJson, EffectHandle.decoder, EffectHandle.format⟩

instance : Encoded Tag := ⟨Tag.toJson, Tag.decoder, Tag.format⟩

instance : Encoded TagSet := ⟨TagSet.toJson, TagSet.decoder, TagSet.format⟩

instance : Encoded Formula.Source :=
  ⟨Formula.Source.toJson, Formula.Source.decoder, Formula.Source.format⟩

instance : Encoded MagnitudeSource :=
  ⟨MagnitudeSource.toJson, MagnitudeSource.decoder, MagnitudeSource.format⟩

instance : Encoded Modifier := ⟨Modifier.toJson, Modifier.decoder, Modifier.format⟩

instance : Encoded AttributeRow := ⟨AttributeRow.toJson, AttributeRow.decoder, AttributeRow.format⟩

instance : Encoded AttributeTable :=
  ⟨AttributeTable.toJson, AttributeTable.decoder, AttributeTable.format⟩

instance : Encoded StackingPolicy :=
  ⟨StackingPolicy.toJson, StackingPolicy.decoder, StackingPolicy.format⟩

instance : Encoded EffectTags := ⟨EffectTags.toJson, EffectTags.decoder, EffectTags.format⟩

instance : Encoded EffectDef := ⟨EffectDef.toJson, EffectDef.decoder, EffectDef.format⟩

instance : Encoded ConditionDef := ⟨ConditionDef.toJson, ConditionDef.decoder, ConditionDef.format⟩

instance : Encoded CueDef := ⟨CueDef.toJson, CueDef.decoder, CueDef.format⟩

instance : Encoded SearchShape := ⟨SearchShape.toJson, SearchShape.decoder, SearchShape.format⟩

instance : Encoded TaskDef := ⟨TaskDef.toJson, TaskDef.decoder, TaskDef.format⟩

instance : Encoded NodeKind := ⟨NodeKind.toJson, NodeKind.decoder, NodeKind.format⟩

instance : Encoded Node := ⟨Node.toJson, Node.decoder, Node.format⟩

instance : Encoded Connection := ⟨Connection.toJson, Connection.decoder, Connection.format⟩

instance : Encoded SkillGraph := ⟨SkillGraph.toJson, SkillGraph.decoder, SkillGraph.format⟩

instance : Encoded EngineConfig := ⟨EngineConfig.toJson, EngineConfig.decoder, EngineConfig.format⟩

instance : Encoded (ActiveModifier Number.Single) :=
  ⟨ActiveModifier.toJson, ActiveModifier.decoder, ActiveModifier.format⟩

instance : Encoded (AttributeChange Number.Single) :=
  ⟨AttributeChange.toJson, AttributeChange.decoder, AttributeChange.format⟩

instance : Encoded (ContextValue Number.Single) :=
  ⟨ContextValue.toJson, ContextValue.decoder, ContextValue.format⟩

instance : Encoded ModifierOp := .ofNames ModifierOp.names

instance : Encoded CaptureMode := .ofNames CaptureMode.names

instance : Encoded AggregatorMode := .ofNames AggregatorMode.names

instance : Encoded ValueKind := .ofNames ValueKind.names

instance : Encoded DurationType := .ofNames DurationType.names

instance : Encoded StackingKind := .ofNames StackingKind.names

instance : Encoded OverflowPolicy := .ofNames OverflowPolicy.names

instance : Encoded ExpirationPolicy := .ofNames ExpirationPolicy.names

instance : Encoded EffectState := .ofNames EffectState.names

instance : Encoded Comparison := .ofNames Comparison.names

instance : Encoded TargetSelector := .ofNames TargetSelector.names

instance : Encoded NodeCategory := .ofNames NodeCategory.names

end SkillEngine
