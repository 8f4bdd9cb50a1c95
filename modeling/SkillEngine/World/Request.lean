import SkillEngine.Attribute.Request
import SkillEngine.Cue.Request
import SkillEngine.Effect.Request
import SkillEngine.Graph.Request
import SkillEngine.Tag.Request

/-!
# Requests to the world

All that a host can ask of a running simulation, as data: a request can be made by the host between
ticks, or stand in the script of a node that runs in the middle of one.
-/

namespace SkillEngine

/-- How the context of a walk is opened: for a caster, with its attributes captured unless it is
bare, and then edited. -/
structure Opening where
  /-- Who starts the walk. -/
  caster : EntityId
  /-- Nothing is captured. -/
  bare : Bool := false
  /-- What is written into it. -/
  edits : List Context.Edit := []

/-- What can be asked of the world. -/
inductive Request where
  /-- Registers a fresh entity with the configured attributes. -/
  | spawn (id : EntityId)
  /-- Registers an entity with the attributes of some rows and some tags. -/
  | register (id : EntityId) (rows : List AttributeRow) (tags : TagSet)
  /-- Unregisters an entity; tells whether it was known. -/
  | unregister (id : EntityId)
  /-- Whether an entity is registered, how many are, and whether none is. -/
  | contains (id : EntityId)
  /-- Lets time pass, some times over. -/
  | tick (seconds : Float32) (times : Nat)
  /-- Sets the factor on every tick; tells the one that holds. -/
  | setTimeScale (scale : Float32)
  /-- Stops or resumes time; tells which holds. -/
  | setPaused (paused : Bool)
  /-- Runs a skill from a node. -/
  | activate (skill : SkillId) (node : NodeId) (opening : Opening)
  /-- Fires a port as if its node had just run. -/
  | firePort (skill : SkillId) (node : NodeId) (port : String) (opening : Opening)
  /-- Gives an entity a tag; tells whether it appeared. -/
  | addTag (entity : EntityId) (tag : Tag)
  /-- Takes a tag from an entity; tells whether it disappeared. -/
  | removeTag (entity : EntityId) (tag : Tag)
  /-- Gives an entity some tags; lists those that appeared. -/
  | addTags (entity : EntityId) (tags : TagSet)
  /-- Takes some tags from an entity; lists those that disappeared. -/
  | removeTags (entity : EntityId) (tags : TagSet)
  /-- Re-checks the ongoing requirements wherever tags changed. -/
  | processTagChanges
  /-- Removes an effect; tells whether it was live. -/
  | removeEffect (handle : EffectHandle)
  /-- Cancels an effect, which fires no ports; tells whether it was live. -/
  | cancelEffect (handle : EffectHandle)
  /-- Removes the effects with matching asset tags; counts them. -/
  | removeEffectsWithTags (target : EntityId) (tags : TagSet)
  /-- Treats an effect as run out. -/
  | expire (handle : EffectHandle)
  /-- Lets time pass for the effects on one entity. -/
  | tickEntity (entity : EntityId) (seconds : Float32)
  /-- Re-checks the ongoing requirements on one entity. -/
  | enforce (target : EntityId)
  /-- Applies an effect to one target; tells where it is found if it lasts. -/
  | apply (skill : SkillId) (node : NodeId) (definition : EffectDef) (target : EntityId)
      (opening : Opening)
  /-- Applies an effect node to all its targets; lists where the lasting ones are found. -/
  | applyNode (skill : SkillId) (node : NodeId) (opening : Opening)
  /-- An effect's place and definition. -/
  | effect (handle : EffectHandle)
  /-- The value of a magnitude. -/
  | magnitude (source : MagnitudeSource) (target : EntityId) (stackCount : Nat) (opening : Opening)
  /-- Whether a condition holds. -/
  | condition (definition : ConditionDef) (subject : Option EntityId) (opening : Opening)
  /-- Rolls the dice. -/
  | roll (chance : Float32)
  /-- Starts the dice over from a seed. -/
  | reseed (seed : UInt64)
  /-- The attribute of a name. -/
  | attributeId (name : String)
  /-- The name of an attribute. -/
  | attributeName (id : AttributeId)
  /-- The context of an opening. -/
  | context (opening : Opening)
  /-- The settings, the size of the attribute table, whether a tick runs and whether no cue does. -/
  | info
  /-- Whether nodes of each category are supported. -/
  | supports
  /-- Asks the skill library. -/
  | library (request : Except Refusal LibraryRequest)
  /-- Asks the cue stage. -/
  | cues (request : Except Refusal CueRequest)
  /-- Asks an entity's tags; without the entity there is no answer. -/
  | tags (entity : EntityId) (request : Except Refusal TagRequest)
  /-- Asks an entity's attributes; without the entity there is no answer. -/
  | attributes (entity : EntityId) (request : Except Refusal SheetRequest)
  /-- Asks an entity's effects; without the entity there is no answer. -/
  | effects (entity : EntityId) (request : Except Refusal RosterRequest)
  /-- A request that was refused before it was made. -/
  | refused (refusal : Refusal)

end SkillEngine
