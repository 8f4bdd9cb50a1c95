import SkillEngine.Context
import SkillEngine.Effect.Instance
import SkillEngine.Json.Printer
import SkillEngine.Schema.Attribute
import SkillEngine.World.Config

/-!
# Encodings of effect data

Effect definitions with their policies and tag lists, and the small records of running effects.
-/

namespace SkillEngine

open Binary (Format)
open Json (Decoder required withDefault recordSlots variant)

/-- The names of the duration types. -/
def DurationType.names : Names DurationType :=
  ⟨[(.instant, "Instant"), (.duration, "Duration"), (.infinite, "Infinite")]⟩

/-- The names of the stacking kinds. -/
def StackingKind.names : Names StackingKind :=
  ⟨[(.aggregateByTarget, "AggregateByTarget"), (.aggregateBySource, "AggregateBySource")]⟩

/-- The names of the overflow policies. -/
def OverflowPolicy.names : Names OverflowPolicy :=
  ⟨[(.denyApplication, "DenyApplication"), (.allowOverflowEffect, "AllowOverflowEffect")]⟩

/-- The names of the expiration policies. -/
def ExpirationPolicy.names : Names ExpirationPolicy :=
  ⟨[(.clearEntireStack, "ClearEntireStack"),
    (.removeSingleStackAndRefreshDuration, "RemoveSingleStackAndRefreshDuration"),
    (.refreshDuration, "RefreshDuration")]⟩

/-- The names of the effect states. -/
def EffectState.names : Names EffectState :=
  ⟨[(.pending, "Pending"), (.applied, "Applied"), (.refreshing, "Refreshing"),
    (.ticking, "Ticking"), (.expired, "Expired"), (.removed, "Removed"),
    (.cancelled, "Cancelled")]⟩

namespace StackingPolicy

/-- A record. -/
def toJson (policy : StackingPolicy) : Json :=
  .record [("kind", StackingKind.names.toJson policy.kind), ("limit", .nat policy.limit.toNat),
    ("refresh_duration_on_stack", .bool policy.refreshDurationOnStack),
    ("reset_period_on_stack", .bool policy.resetPeriodOnStack),
    ("overflow", OverflowPolicy.names.toJson policy.overflow),
    ("expiration", ExpirationPolicy.names.toJson policy.expiration)]

/-- A record. -/
def decoder : Decoder StackingPolicy := fun room json =>
  match recordSlots ["kind", "limit", "refresh_duration_on_stack", "reset_period_on_stack",
      "overflow", "expiration"] room json with
  | some (room, [kind, limit, refresh, reset, overflow, expiration]) => do
    some {
      kind := ← withDefault StackingKind.names.decoder .aggregateByTarget room kind
      limit := ← required Decoder.uint32 room limit
      refreshDurationOnStack := ← withDefault Decoder.bool true room refresh
      resetPeriodOnStack := ← withDefault Decoder.bool false room reset
      overflow := ← withDefault OverflowPolicy.names.decoder .denyApplication room overflow
      expiration := ← withDefault ExpirationPolicy.names.decoder .clearEntireStack room
        expiration }
  | _ => none

/-- The fields in order. -/
def format : Format StackingPolicy :=
  (StackingKind.names.format.pair (Format.uint32.pair (Format.bool.pair (Format.bool.pair
    (OverflowPolicy.names.format.pair ExpirationPolicy.names.format))))).map
    (fun (kind, limit, refresh, reset, overflow, expiration) =>
      ⟨kind, limit, refresh, reset, overflow, expiration⟩)
    (fun policy => (policy.kind, policy.limit, policy.refreshDurationOnStack,
      policy.resetPeriodOnStack, policy.overflow, policy.expiration))

end StackingPolicy

namespace EffectTags

/-- A record. -/
def toJson (tags : EffectTags) : Json :=
  .record [("asset", tags.asset.toJson), ("granted", tags.granted.toJson),
    ("required_to_apply", tags.requiredToApply.toJson), ("immunity", tags.immunity.toJson),
    ("required_ongoing", tags.requiredOngoing.toJson),
    ("remove_effects_with_tags", tags.removeEffectsWithTags.toJson)]

/-- A record. -/
def decoder : Decoder EffectTags := fun room json =>
  match recordSlots ["asset", "granted", "required_to_apply", "immunity", "required_ongoing",
      "remove_effects_with_tags"] room json with
  | some (room, [asset, granted, toApply, immunity, ongoing, removing]) => do
    some {
      asset := ← withDefault TagSet.decoder .empty room asset
      granted := ← withDefault TagSet.decoder .empty room granted
      requiredToApply := ← withDefault TagSet.decoder .empty room toApply
      immunity := ← withDefault TagSet.decoder .empty room immunity
      requiredOngoing := ← withDefault TagSet.decoder .empty room ongoing
      removeEffectsWithTags := ← withDefault TagSet.decoder .empty room removing }
  | _ => none

/-- The fields in order. -/
def format : Format EffectTags :=
  (TagSet.format.pair (TagSet.format.pair (TagSet.format.pair (TagSet.format.pair
    (TagSet.format.pair TagSet.format))))).map
    (fun (asset, granted, toApply, immunity, ongoing, removing) =>
      ⟨asset, granted, toApply, immunity, ongoing, removing⟩)
    (fun tags => (tags.asset, tags.granted, tags.requiredToApply, tags.immunity,
      tags.requiredOngoing, tags.removeEffectsWithTags))

end EffectTags

namespace EffectDef

/-- A record. -/
def toJson (definition : EffectDef) : Json :=
  .record [("name", .text definition.name),
    ("duration_type", DurationType.names.toJson definition.durationType),
    ("duration", definition.duration.toJson), ("period", definition.period.toJson),
    ("execute_periodic_on_application", .bool definition.executePeriodicOnApplication),
    ("modifiers", .array (definition.modifiers.map Modifier.toJson)),
    ("tags", definition.tags.toJson),
    ("stacking", match definition.stacking with
      | none => .null
      | some policy => policy.toJson)]

/-- A record. -/
def decoder : Decoder EffectDef := fun room json =>
  match recordSlots ["name", "duration_type", "duration", "period",
      "execute_periodic_on_application", "modifiers", "tags", "stacking"] room json with
  | some (room, [name, durationType, duration, period, execute, modifiers, tags, stacking]) => do
    some {
      name := ← withDefault Decoder.string "" room name
      durationType := ← withDefault DurationType.names.decoder .instant room durationType
      duration := ← withDefault MagnitudeSource.decoder (.fixed .zero) room duration
      period := ← withDefault Decoder.single .zero room period
      executePeriodicOnApplication := ← withDefault Decoder.bool false room execute
      modifiers := ← withDefault (Decoder.list Modifier.decoder) [] room modifiers
      tags := ← withDefault EffectTags.decoder {} room tags
      stacking := ← withDefault StackingPolicy.decoder.nullable none room stacking }
  | _ => none

/-- The fields in order. -/
def format : Format EffectDef :=
  (Format.string.pair (DurationType.names.format.pair (MagnitudeSource.format.pair
    (Number.Single.format.pair (Format.bool.pair ((Format.list Modifier.format).pair
      (EffectTags.format.pair (Format.option StackingPolicy.format)))))))).map
    (fun (name, durationType, duration, period, execute, modifiers, tags, stacking) =>
      ⟨name, durationType, duration, period, execute, modifiers, tags, stacking⟩)
    (fun definition => (definition.name, definition.durationType, definition.duration,
      definition.period, definition.executePeriodicOnApplication, definition.modifiers,
      definition.tags, definition.stacking))

/-- The JSON form of a definition decodes to an equal definition. -/
def survivesJson (definition : EffectDef) : Bool :=
  match Json.decodeText decoder definition.toJson.compact with
  | some read => read == definition
  | none => false

end EffectDef

namespace ContextValue

/-- A variant with one payload. -/
def toJson : ContextValue Number.Single → Json
  | .number value => .record [("Number", value.toJson)]
  | .entity id => .record [("Entity", id.toJson)]
  | .flag value => .record [("Flag", .bool value)]
  | .text value => .record [("Text", .text value)]

/-- A variant with one payload. -/
def decoder : Decoder (ContextValue Number.Single) := fun room json =>
  match variant room json with
  | some ("Number", some payload, room) => (Decoder.single room payload).map .number
  | some ("Entity", some payload, room) => (EntityId.decoder room payload).map .entity
  | some ("Flag", some payload, room) => (Decoder.bool room payload).map .flag
  | some ("Text", some payload, room) => (Decoder.string room payload).map .text
  | _ => none

/-- The number of the variant, then its payload. -/
def format : Format (ContextValue Number.Single) :=
  Format.variant
    (fun value => match value with
      | .number _ => 0
      | .entity _ => 1
      | .flag _ => 2
      | .text _ => 3)
    (fun value => match value with
      | .number value => Number.Single.format.write value
      | .entity id => EntityId.format.write id
      | .flag value => Format.bool.write value
      | .text value => Format.string.write value)
    (fun number => match number with
      | 0 => some (Number.Single.format.map .number fun _ => .zero).read
      | 1 => some (EntityId.format.map .entity fun _ => ⟨0⟩).read
      | 2 => some (Format.bool.map .flag fun _ => false).read
      | 3 => some (Format.string.map .text fun _ => "").read
      | _ => none)

end ContextValue

namespace EngineConfig

/-- A record. -/
def toJson (config : EngineConfig) : Json :=
  .record [("max_cascade_depth", .nat config.maxCascadeDepth.toNat),
    ("time_scale", config.timeScale.toJson), ("rng_seed", .nat config.seed.toNat)]

/-- A record. -/
def decoder : Decoder EngineConfig := fun room json =>
  match recordSlots ["max_cascade_depth", "time_scale", "rng_seed"] room json with
  | some (room, [depth, scale, seed]) => do
    some {
      maxCascadeDepth := ← required Decoder.uint32 room depth
      timeScale := ← required Decoder.single room scale
      seed := ← required Decoder.uint64 room seed }
  | _ => none

/-- The fields in order. -/
def format : Format EngineConfig :=
  (Format.uint32.pair (Number.Single.format.pair Format.uint64)).map
    (fun (depth, scale, seed) => ⟨depth, scale, seed⟩)
    (fun config => (config.maxCascadeDepth, config.timeScale, config.seed))

end EngineConfig

end SkillEngine
