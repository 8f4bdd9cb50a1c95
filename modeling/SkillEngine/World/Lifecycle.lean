import SkillEngine.World.State

/-!
# Effect transitions

The changes that the life of an effect makes to the world, apart from the ports that it fires: an
instant effect writes values, a lasting one takes hold, is stacked, tracks its magnitudes, loses a
stack, and is released. What an effect took hold of is given back when it is released.
-/

namespace SkillEngine

/-- An effect node on its way to a target. -/
structure Application where
  /-- The skill that it comes from. -/
  skill : SkillId
  /-- The node that it comes from. -/
  node : NodeId
  /-- What it does. -/
  definition : EffectDef
  /-- The context of the walk. -/
  context : Context

namespace World

/-- The target lets the effect in: it matches every required tag and is not immune. -/
def admits (target : Entity) (definition : EffectDef) : Bool :=
  target.tags.hasAll definition.tags.requiredToApply
    && !target.tags.hasAny definition.tags.immunity

/-- The magnitudes of an application, by slot, for one stack. -/
def magnitudesOf (world : World) (definition : EffectDef) (context : Context) (target : EntityId) :
    List Float32 :=
  definition.modifiers.map fun modifier =>
    world.resolve modifier.magnitude (.of context target 1)

/-- Writes one modifier of an instant effect: a channel's current value, which also goes into the
context under the attribute's name, or any other attribute's base value. A missing attribute is
passed over. -/
def writeOne (world : World) (context : Context) (target : EntityId) (modifier : Modifier)
    (magnitude : Float32) : Context × World × List Event :=
  match (world.entity? target).bind fun entity => entity.attributes.get? modifier.attr with
  | none => (context, world, [])
  | some attr =>
    if attr.isMeta then
      let value := modifier.op.applyTo attr.currentValue magnitude
      (context.set (world.scene.attributeName modifier.attr) (.number magnitude),
        world.changeSheet target fun sheet => (sheet.setCurrent modifier.attr value).2)
    else
      let value := modifier.op.applyTo attr.base magnitude
      (context, world.changeSheet target fun sheet => (sheet.setBase modifier.attr value).2)

/-- Writes some modifiers with their magnitudes in turn. -/
def writeEach (world : World) (context : Context) (target : EntityId) :
    List (Modifier × Float32) → Context × World × List Event
  | [] => (context, world, [])
  | (modifier, magnitude) :: rest =>
    let (context, world, events) := world.writeOne context target modifier magnitude
    let (context, world, others) := world.writeEach context target rest
    (context, world, events ++ others)

/-- Writes an instant effect; all magnitudes are resolved before the first write. -/
def writeInstant (world : World) (application : Application) (target : EntityId) :
    Context × World × List Event :=
  world.writeEach application.context target
    (application.definition.modifiers.zip
      (world.magnitudesOf application.definition application.context target))

/-- The modifiers that an effect attaches, each with its attribute. -/
def modifiersOf (effect : Effect) (appliedAt : Float) :
    List (AttributeId × ActiveModifier Float32) :=
  (effect.definition.modifiers.zip effect.magnitudes).zipIdx.map
    fun ((modifier, magnitude), slot) =>
      (modifier.attr,
        { op := modifier.op, magnitude, source := effect.id.source, slot
          stackCount := effect.stackCount, appliedAt := .ofValue appliedAt })

/-- A lasting effect takes hold of its target: modifiers attached, values committed, tags given,
and the effect stored. -/
def takeHold (world : World) (effect : Effect) : World × List Event :=
  let (world, told) := world.changeSheet effect.target fun sheet =>
    ((modifiersOf effect world.time).foldl
      (fun sheet (attr, active) => sheet.attach attr active) sheet).recalculateDirty
  match world.entity? effect.target with
  | none => (world, told)
  | some entity =>
    let (_, world, others) := world.giveTags entity effect.definition.tags.granted.tags
    (world.modify effect.target fun entity =>
      { entity with effects := entity.effects.insert effect }, told ++ others)

/-- The effect of an application on a target, its magnitudes resolved. It owns what its ports
start. -/
def newEffect (world : World) (application : Application) (target : EntityId) (duration : Float32) :
    Effect :=
  let id : EffectId := ⟨world.nextEffect⟩
  let context := { application.context with owner := some ⟨target, id⟩ }
  { Effect.pending id application.skill application.node application.definition context.caster
      target duration context with
    state := .applied
    magnitudes := world.magnitudesOf application.definition context target }

/-- The tracked magnitudes of an effect as they are now: slot, attribute and value. -/
def trackedMagnitudes (world : World) (effect : Effect) : List (Nat × AttributeId × Float32) :=
  (effect.definition.modifiers.zipIdx.filter fun entry => entry.1.capture == .track).map
    fun (modifier, slot) =>
      (slot, modifier.attr,
        world.resolve modifier.magnitude (.of effect.context effect.target effect.stackCount))

/-- Resolves the tracked magnitudes of an effect anew, for the effect and for what it attached. -/
def refreshTracked (world : World) (handle : EffectHandle) : World :=
  match world.effect? handle with
  | none => world
  | some effect =>
    (world.trackedMagnitudes effect).foldl (fun world (slot, attr, magnitude) =>
      (world.modifyEffect handle (·.setMagnitude slot magnitude)).modify handle.target
        fun entity => { entity with
          attributes := entity.attributes.setMagnitude attr effect.id.source slot magnitude })
      world

/-- Tells the modifiers of an effect its stack count and commits the values. -/
def spreadStacks (world : World) (handle : EffectHandle) (effect : Effect) : World × List Event :=
  world.changeSheet handle.target fun sheet =>
    (sheet.setStacks effect.id.source effect.stackCount).recalculateDirty

/-- Commits the stale values of an entity. -/
def commit (world : World) (id : EntityId) : World × List Event :=
  world.changeSheet id AttributeSheet.recalculateDirty

/-- Releases an effect that is over, and leaves it in its last state: its cues stop, its modifiers
are detached, the values committed, its tags taken back, and it is dropped. -/
def release (world : World) (handle : EffectHandle) (effect : Effect) (state : EffectState) :
    World × List Event :=
  let (world, stopped) :=
    (world.modifyEffect handle fun effect => { effect with state, cues := [] }).cancelCues
      effect.cues
  let (world, told) := world.changeSheet handle.target fun sheet =>
    (sheet.detach effect.id.source).2.recalculateDirty
  match world.entity? handle.target with
  | none => (world, stopped ++ told)
  | some entity =>
    let (_, world, others) := world.takeTags entity effect.definition.tags.granted.tags
    (world.modify handle.target fun entity =>
      { entity with effects := (entity.effects.remove handle.id).2 },
      stopped ++ told ++ others)

end World

end SkillEngine
