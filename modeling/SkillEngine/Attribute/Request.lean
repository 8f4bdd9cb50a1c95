import SkillEngine.Attribute.Hook
import SkillEngine.Attribute.Sheet
import SkillEngine.Reply

/-!
# Requests to attributes

What can be asked of one attribute, and of the sheet that holds an entity's attributes. An observer
that is added on request reports for the entity that the request is made on.
-/

namespace SkillEngine

/-- What can be asked of an attribute. -/
inductive AttributeRequest where
  /-- Writes the base value; tells whether no hook vetoed. -/
  | setBase (value : Float32)
  /-- Writes the current value; tells whether no hook vetoed. -/
  | setCurrent (value : Float32)
  /-- Commits the computed value. -/
  | recalculate
  /-- Attaches a modifier. -/
  | attach (active : ActiveModifier Float32)
  /-- Detaches the modifiers of a source; counts them. -/
  | detach (source : SourceId)
  /-- Tells the modifiers of a source its stack count. -/
  | setStacks (source : SourceId) (stackCount : Nat)
  /-- Replaces the magnitude of a source's modifier in one slot. -/
  | setMagnitude (source : SourceId) (slot : Nat) (magnitude : Float32)
  /-- Adds a hook; tells the subscription. -/
  | addHook (hook : Hook)
  /-- Drops a hook; tells whether it was there. -/
  | removeHook (id : SubscriptionId)
  /-- Adds an observer; tells the subscription. -/
  | observe
  /-- Drops an observer; tells whether it was there. -/
  | unobserve (id : SubscriptionId)
  /-- Drops every hook and observer. -/
  | clearCallbacks
  /-- A value within the bounds. -/
  | clamp (value : Float32)
  /-- The bounds, whether the attribute is a channel, and its mode. -/
  | info

/-- The bounds, whether the attribute is a channel, and its mode. -/
def Attribute.describe (attr : Attribute) : Reply :=
  .several [.optional .number attr.min, .optional .number attr.max, .flag attr.isMeta,
    .mode attr.mode]

/-- Performs a request on an attribute of an entity. -/
def AttributeRequest.perform (observer : EntityId) (attr : Attribute) :
    AttributeRequest → Outcome Attribute AttributeSignal
  | .setBase value =>
    let (written, after, signals) := attr.setBase value
    ⟨.flag written, after, signals⟩
  | .setCurrent value =>
    let (written, after, signals) := attr.setCurrent value
    ⟨.flag written, after, signals⟩
  | .recalculate =>
    let (after, signals) := attr.recalculate
    ⟨.nothing, after, signals⟩
  | .attach active => ⟨.nothing, attr.attach active, []⟩
  | .detach source =>
    let (removed, after) := attr.detach source
    ⟨.count removed, after, []⟩
  | .setStacks source stackCount => ⟨.nothing, attr.setStacks source stackCount, []⟩
  | .setMagnitude source slot magnitude =>
    ⟨.nothing, attr.setMagnitude source slot magnitude, []⟩
  | .addHook hook =>
    let (id, after) := attr.addHook hook
    ⟨.count id.raw, after, []⟩
  | .removeHook id =>
    let (removed, after) := attr.removeHook id
    ⟨.flag removed, after, []⟩
  | .observe =>
    let (id, after) := attr.observe observer
    ⟨.count id.raw, after, []⟩
  | .unobserve id =>
    let (removed, after) := attr.unobserve id
    ⟨.flag removed, after, []⟩
  | .clearCallbacks => ⟨.nothing, attr.clearCallbacks, []⟩
  | .clamp value => ⟨.number (attr.clamp value), attr, []⟩
  | .info => ⟨attr.describe, attr, []⟩

/-- What can be asked of a sheet. -/
inductive SheetRequest where
  /-- Adds or replaces an attribute. -/
  | put (row : AttributeRow)
  /-- Takes an attribute out, and tells it. -/
  | take (id : AttributeId)
  /-- Drops every attribute. -/
  | clear
  /-- Whether the sheet has an attribute. -/
  | contains (id : AttributeId)
  /-- A base value. -/
  | baseValue (id : AttributeId)
  /-- A current value. -/
  | currentValue (id : AttributeId)
  /-- Writes a base value; tells whether that was done. -/
  | setBase (id : AttributeId) (value : Float32)
  /-- Writes a current value; tells whether that was done. -/
  | setCurrent (id : AttributeId) (value : Float32)
  /-- Attaches a modifier; tells whether the attribute is there. -/
  | attach (id : AttributeId) (active : ActiveModifier Float32)
  /-- Detaches the modifiers of a source from every attribute; counts them. -/
  | detach (source : SourceId)
  /-- Tells the modifiers of a source its stack count. -/
  | setStacks (source : SourceId) (stackCount : Nat)
  /-- Replaces the magnitude of a source's modifier in one slot of an attribute. -/
  | setMagnitude (id : AttributeId) (source : SourceId) (slot : Nat) (magnitude : Float32)
  /-- Commits every stale attribute. -/
  | recalculate
  /-- The current values. -/
  | snapshot
  /-- The number of attributes, whether there are none, and whether the first kind is there. -/
  | size
  /-- Asks one attribute; a missing one has no answer. -/
  | one (id : AttributeId) (request : Except Refusal AttributeRequest)

/-- Performs a request on the attributes of an entity. -/
def SheetRequest.perform (observer : EntityId) (sheet : AttributeSheet) :
    SheetRequest → Outcome AttributeSheet AttributeSignal
  | .put row => ⟨.nothing, sheet.put row.build, []⟩
  | .take id =>
    let (taken, after) := sheet.take id
    ⟨.optional .attr taken, after, []⟩
  | .clear => ⟨.nothing, .empty, []⟩
  | .contains id => ⟨.flag (sheet.contains id), sheet, []⟩
  | .baseValue id => ⟨.number (sheet.baseValue id), sheet, []⟩
  | .currentValue id => ⟨.number (sheet.currentValue id), sheet, []⟩
  | .setBase id value =>
    let (written, after, signals) := sheet.setBase id value
    ⟨.flag written, after, signals⟩
  | .setCurrent id value =>
    let (written, after, signals) := sheet.setCurrent id value
    ⟨.flag written, after, signals⟩
  | .attach id active => ⟨.flag (sheet.contains id), sheet.attach id active, []⟩
  | .detach source =>
    let (removed, after) := sheet.detach source
    ⟨.count removed, after, []⟩
  | .setStacks source stackCount => ⟨.nothing, sheet.setStacks source stackCount, []⟩
  | .setMagnitude id source slot magnitude =>
    ⟨.nothing, sheet.setMagnitude id source slot magnitude, []⟩
  | .recalculate =>
    let (after, signals) := sheet.recalculateDirty
    ⟨.nothing, after, signals⟩
  | .snapshot =>
    ⟨.list (fun (id, value) => .several [.count id.raw.toNat, .number value])
      sheet.snapshot.entries, sheet, []⟩
  | .size =>
    ⟨.several [.count sheet.size, .flag sheet.isEmpty, .flag (sheet.contains ⟨0⟩)], sheet, []⟩
  | .one id request =>
    match sheet.get? id with
    | none => ⟨.nothing, sheet, []⟩
    | some attr =>
      let done := Outcome.unlessRefused request attr (AttributeRequest.perform observer attr)
      ⟨done.reply, sheet.replace id done.state, done.events⟩

end SkillEngine
