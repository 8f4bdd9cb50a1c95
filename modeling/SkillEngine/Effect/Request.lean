import SkillEngine.Effect.Roster
import SkillEngine.Reply

/-!
# Requests to effect rosters
-/

namespace SkillEngine

/-- What can be asked of the effects on an entity. -/
inductive RosterRequest where
  /-- Stores an effect. -/
  | insert (effect : Effect)
  /-- Drops an effect; tells whether it was stored. -/
  | remove (id : EffectId)
  /-- A stored effect. -/
  | get (id : EffectId)
  /-- Begins a tick; lists the live effects. -/
  | beginTick
  /-- Ends a tick. -/
  | endTick
  /-- The live effects. -/
  | live
  /-- The live effect that an application stacks onto. -/
  | findStackable (skill : SkillId) (node : NodeId) (definition : EffectDef) (source : EntityId)
  /-- Whether an application stacks onto an effect. -/
  | stacksWith (id : EffectId) (skill : SkillId) (node : NodeId) (definition : EffectDef)
      (source : EntityId)
  /-- The live effects with matching asset tags. -/
  | matching (tags : TagSet)
  /-- The stacks of the live effects with matching asset tags. -/
  | stackCount (tags : TagSet)
  /-- The live effects whose ongoing requirement some tags do not match. -/
  | violating (held : TagSet)
  /-- Advances an effect; tells its pulses and whether it has expired. -/
  | advance (id : EffectId) (seconds : Float32)
  /-- Drops every effect. -/
  | clear

/-- Performs a request on a roster. -/
def RosterRequest.perform (roster : EffectRoster) : RosterRequest → Reply × EffectRoster
  | .insert effect => (.nothing, roster.insert effect)
  | .remove id =>
    let (stored, after) := roster.remove id
    (.flag stored, after)
  | .get id => (.optional .effect (roster.get? id), roster)
  | .beginTick =>
    let (ids, after) := roster.beginTick
    (.effectIds ids, after)
  | .endTick => (.nothing, roster.endTick)
  | .live => (.effectIds roster.liveIds, roster)
  | .findStackable skill node definition source =>
    (.optional (fun id => .count id.raw) (roster.findStackable? skill node definition source),
      roster)
  | .stacksWith id skill node definition source =>
    (.optional (fun effect => .flag (effect.stacksWith skill node definition source))
      (roster.get? id), roster)
  | .matching tags => (.effectIds (roster.matching tags), roster)
  | .stackCount tags => (.count (roster.stackCountWith tags), roster)
  | .violating held => (.effectIds (roster.violating held.hasAll), roster)
  | .advance id seconds =>
    match roster.get? id with
    | none => (.nothing, roster)
    | some effect =>
      let (elapse, after) := effect.advance seconds
      (.several [.count elapse.pulses, .flag elapse.expired], roster.modify id fun _ => after)
  | .clear => (.nothing, roster.clear)

end SkillEngine
