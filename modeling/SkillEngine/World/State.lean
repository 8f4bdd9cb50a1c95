import SkillEngine.Condition.Eval
import SkillEngine.World.Config
import SkillEngine.World.Event
import SkillEngine.World.Magnitude
import SkillEngine.World.Request

/-!
# The world

The world is the whole state of a simulation: the registered entities with the configured
attributes, the loaded skills, what nodes do, the cues, the host's answers to target searches and
computed magnitudes, the dice and the clock. Tag changes on a registered entity wait in a queue
until its ongoing requirements are re-checked.
-/

namespace SkillEngine

/-- What a node does when a walk reaches it. -/
inductive Behaviour where
  /-- What nodes of a category do; a node of another category does nothing. -/
  | standard (category : NodeCategory)
  /-- Nothing. -/
  | idle
  /-- What its script says, or what tasks do if it has none. -/
  | scripted

/-- The host's answer to a target search: the entities in a shape around an origin. -/
abbrev TargetQuery := EntityId → SearchShape → List EntityId

/-- The state of a simulation. -/
structure World where
  /-- The registered entities and the configured attributes. -/
  scene : Scene
  /-- The settings that it was made with. -/
  config : EngineConfig
  /-- The loaded skills. -/
  library : SkillLibrary := .empty
  /-- What the nodes of each category do. -/
  behaviours : NodeCategory → Option Behaviour := fun category => some (.standard category)
  /-- The scripts of nodes. -/
  scripts : SkillId → NodeId → Option (List Request) := fun _ _ => none
  /-- The cues. -/
  cues : CueStage := .initial
  /-- The host's answer to target searches; without it there are no hits. -/
  query : Option TargetQuery := none
  /-- The computed magnitudes by name. -/
  calculations : Dict String Calculation := .empty
  /-- The dice. -/
  dice : Dice
  /-- The seconds simulated so far. -/
  time : Float := Float.ofBits 0
  /-- The factor on every tick. -/
  timeScale : Float32
  /-- Ticks do nothing. -/
  paused : Bool := false
  /-- The number of the next effect. -/
  nextEffect : Nat := 1
  /-- The entities whose tags changed since their ongoing requirements were checked. -/
  tagChanges : List EntityId := []

namespace World

/-- A world without entities and skills. -/
def create (config : EngineConfig) (table : AttributeTable) : World where
  scene := ⟨.empty, table, table.nameIndex⟩
  config := config
  dice := .ofSeed config.seed
  timeScale := config.timeScale.value

/-- The registered entities. -/
def registry (world : World) : Registry := world.scene.registry

/-- The world with another registry. -/
def withRegistry (world : World) (registry : Registry) : World :=
  { world with scene := { world.scene with registry } }

/-- The registered entity of a number. -/
def entity? (world : World) (id : EntityId) : Option Entity := world.scene.entity? id

/-- The world with a registered entity changed. -/
def modify (world : World) (id : EntityId) (change : Entity → Entity) : World :=
  world.withRegistry (world.registry.modify id change)

/-- The effect at a place, live or just over. -/
def effect? (world : World) (handle : EffectHandle) : Option Effect :=
  (world.entity? handle.target).bind fun entity => entity.effects.get? handle.id

/-- The world with an effect changed. -/
def modifyEffect (world : World) (handle : EffectHandle) (change : Effect → Effect) : World :=
  world.modify handle.target fun entity =>
    { entity with effects := entity.effects.modify handle.id change }

/-- The effect is live. -/
def isLive (world : World) (handle : EffectHandle) : Bool :=
  (world.effect? handle).any (·.isLive)

/-- The value of a magnitude for a request. -/
def resolve (world : World) (source : MagnitudeSource) (request : MagnitudeRequest) : Float32 :=
  world.scene.resolve world.calculations source request

/-- The context of an opening. -/
def openContext (world : World) (opening : Opening) : Context :=
  let captured := if opening.bare then Dict.empty
    else match world.entity? opening.caster with
      | some entity => entity.attributes.snapshot
      | none => .empty
  { Context.ofCaster opening.caster with snapshot := captured }.editAll opening.edits

/-- The notices of an entity's tag listeners delivered: the engine's own queue the entity, and the
others report. -/
def hear (world : World) (entity : EntityId) (notices : List (TagListener × TagEvent)) :
    World × List Event :=
  let own := notices.filter fun notice => match notice.1 with
    | .requirements => true
    | .named _ => false
  ({ world with tagChanges := world.tagChanges ++ own.map fun _ => entity },
    notices.filterMap Event.ofNotice?)

/-- The world with the held tags of an entity replaced, after some tag events. -/
def changeTags (world : World) (entity : Entity) (tags : TagCounts) (events : List TagEvent) :
    World × List Event :=
  (world.modify entity.id fun entity => { entity with tags }).hear entity.id
    (entity.tags.notices events)

/-- Gives an entity some tags, and lists those that appeared. -/
def giveTags (world : World) (entity : Entity) (tags : List Tag) :
    List Tag × World × List Event :=
  let (appeared, after) := entity.tags.addEach tags
  (appeared, world.changeTags entity after (appeared.map .added))

/-- Takes some tags from an entity, and lists those that disappeared. -/
def takeTags (world : World) (entity : Entity) (tags : List Tag) :
    List Tag × World × List Event :=
  let (vanished, after) := entity.tags.removeEach tags
  (vanished, world.changeTags entity after (vanished.map .removed))

/-- The world with an entity's attributes replaced, and their signals as events. -/
def changeSheet (world : World) (id : EntityId)
    (change : AttributeSheet → AttributeSheet × List AttributeSignal) : World × List Event :=
  match world.entity? id with
  | none => (world, [])
  | some entity =>
    let (attributes, signals) := change entity.attributes
    (world.modify id fun entity => { entity with attributes }, signals.map .ofSignal)

/-- The world with some cues stopped. -/
def cancelCues (world : World) (cues : List CueId) : World × List Event :=
  let (cues, events) := world.cues.cancelEach cues
  ({ world with cues }, events.map .cue)

/-- The queued entities, each once, in ascending order. -/
def changedEntities (world : World) : List EntityId :=
  (Dict.ofList (world.tagChanges.map fun id => (id, ()))).keys

end World

end SkillEngine
