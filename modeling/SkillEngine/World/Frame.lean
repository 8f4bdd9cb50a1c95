import SkillEngine.World.Lifecycle

/-!
# Frames

What remains to be done while a cascade runs is a list of frames, the next one first. Taking a frame
brings `Progress`: the world after it, the frames that take its place, what was told, and possibly a
new reply. A firing that is in progress stays on the list as a `branch` until its last node has run.
-/

namespace SkillEngine

/-- One firing of an output port. -/
structure Firing where
  /-- The skill of the node. -/
  skill : SkillId
  /-- The node whose port fires. -/
  node : NodeId
  /-- The port. -/
  port : String
  /-- The context that it fires with. -/
  context : Context
  /-- The effect whose life fires it. -/
  cause : Option EffectHandle := none

/-- The firing of a port of an effect, with a context. -/
def Effect.fires (effect : Effect) (handle : EffectHandle) (port : EffectPort)
    (context : Context) : Firing :=
  ⟨effect.skill, effect.node, port.name, context, some handle⟩

/-- Something that remains to be done. -/
inductive Frame where
  /-- Fire a port. -/
  | fire (firing : Firing)
  /-- Run the remaining nodes of a firing, each on its own copy of a context. -/
  | branch (skill : SkillId) (context : Context) (nodes : List Node)
  /-- Run a node. -/
  | visit (skill : SkillId) (node : Node) (context : Context)
  /-- Run the node of a number, if the skill has it. -/
  | enter (skill : SkillId) (node : NodeId) (context : Context)
  /-- Make the remaining requests of a node's script. -/
  | script (skill : SkillId) (node : NodeId) (requests : List Request)
  /-- Tell the answer to a script's request, and go on with the script. -/
  | scripted (skill : SkillId) (node : NodeId) (requests : List Request)
  /-- Perform a request. -/
  | perform (request : Request)
  /-- Answer with a reply. -/
  | answer (reply : Reply)
  /-- Apply an effect to the remaining targets, after those that gave some lasting effects. -/
  | applyEach (application : Application) (targets : List EntityId) (handles : List EffectHandle)
  /-- Take down what an application gave, and go on with the remaining targets. -/
  | applied (application : Application) (targets : List EntityId) (handles : List EffectHandle)
  /-- Apply an effect to a target. -/
  | apply (application : Application) (target : EntityId)
  /-- Write an instant effect and fire its ports. -/
  | write (application : Application) (target : EntityId)
  /-- Let a lasting effect take hold and fire its first port. -/
  | attach (application : Application) (target : EntityId) (duration : Float32)
  /-- Fire some pulses of an effect, as long as it is live. -/
  | pulses (handle : EffectHandle) (count : Nat)
  /-- Expire an effect, if it is live and its duration still has run out. -/
  | expireDue (handle : EffectHandle)
  /-- Treat an effect as run out. -/
  | expire (handle : EffectHandle)
  /-- End a live effect in a state, firing its last ports or not. -/
  | finish (handle : EffectHandle) (state : EffectState) (fires : Bool)
  /-- Remove the effects on a target with matching asset tags. -/
  | cleanse (target : EntityId) (tags : TagSet)
  /-- Remove the remaining ones of some effects, after as many were removed. -/
  | removeEach (target : EntityId) (ids : List EffectId) (count : Nat)
  /-- Remove the effects on a target whose ongoing requirement does not hold. -/
  | enforce (target : EntityId)
  /-- Re-check ongoing requirements until no tag change waits. -/
  | drain
  /-- Let time pass for the effects on an entity. -/
  | tickEntity (entity : EntityId) (seconds : Float32)
  /-- Let time pass for an effect. -/
  | tickEffect (handle : EffectHandle) (seconds : Float32)
  /-- End the tick of an entity. -/
  | endEntityTick (entity : EntityId)
  /-- Let time pass, some times over. -/
  | ticks (seconds : Float32) (count : Nat)
  /-- Let time pass once, when no tag change waits. -/
  | beginTick (seconds : Float32)
  /-- End a tick: cues go on, and what was queued joins or leaves. -/
  | endTick (seconds : Float32)

/-- What taking a frame brings. -/
structure Progress where
  /-- The world after it. -/
  world : World
  /-- What takes the place of the frame. -/
  frames : List Frame := []
  /-- The reply, if there is a new one. -/
  reply : Option Reply := none
  /-- What was told, in order. -/
  events : List Event := []
  /-- A roll had no answer: everything that remains is dropped. -/
  lost : Bool := false

namespace Progress

/-- The frame is done with a reply. -/
def answered (world : World) (reply : Reply) : Progress := { world, reply := some reply }

/-- The frame is done with a change of the world and what was told. -/
def told (step : World × List Event) (frames : List Frame := []) : Progress :=
  { world := step.1, events := step.2, frames }

/-- A roll has no answer. -/
def noAnswer (world : World) : Progress := { world, lost := true }

end Progress

end SkillEngine
