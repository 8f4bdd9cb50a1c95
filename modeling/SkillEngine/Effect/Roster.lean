import SkillEngine.Effect.Instance

/-!
# Effect rosters

The effects on one entity, in order of application. While the roster is ticked, a removal is only
queued: the instance is already in a terminal state, so every look-up of live effects passes it
over, and it is dropped when the tick ends.
-/

namespace SkillEngine

/-- The effects on one entity. -/
structure EffectRoster where
  /-- The stored instances, in order of application. -/
  effects : List Effect
  /-- A tick is going on. -/
  ticking : Bool
  /-- The removals that wait for its end. -/
  queued : List EffectId
  deriving Inhabited

namespace EffectRoster

/-- No effects. -/
def empty : EffectRoster := ⟨[], false, []⟩

/-- The roster with one more effect. -/
def insert (roster : EffectRoster) (effect : Effect) : EffectRoster :=
  { roster with effects := roster.effects ++ [effect] }

/-- The stored instance with a number, live or not. -/
def get? (roster : EffectRoster) (id : EffectId) : Option Effect :=
  roster.effects.find? (·.id == id)

/-- Some effects with the first one of a number changed. -/
def changeFirst (id : EffectId) (change : Effect → Effect) : List Effect → List Effect
  | [] => []
  | effect :: rest =>
    if effect.id == id then change effect :: rest else effect :: changeFirst id change rest

/-- The roster with the instance of a number changed. -/
def modify (roster : EffectRoster) (id : EffectId) (change : Effect → Effect) : EffectRoster :=
  { roster with effects := changeFirst id change roster.effects }

/-- Drops an instance, or queues that during a tick; tells whether it was stored. -/
def remove (roster : EffectRoster) (id : EffectId) : Bool × EffectRoster :=
  if !roster.effects.any (·.id == id) then (false, roster)
  else if roster.ticking then
    (true, { roster with
      queued := if roster.queued.contains id then roster.queued else roster.queued ++ [id] })
  else (true, { roster with effects := roster.effects.filter (·.id != id) })

/-- The live effects. -/
def live (roster : EffectRoster) : List Effect := roster.effects.filter (·.isLive)

/-- The numbers of the live effects. -/
def liveIds (roster : EffectRoster) : List EffectId := roster.live.map (·.id)

/-- The live instance that an application stacks onto. -/
def findStackable? (roster : EffectRoster) (skill : SkillId) (node : NodeId)
    (definition : EffectDef) (source : EntityId) : Option EffectId :=
  (roster.live.find? (·.stacksWith skill node definition source)).map (·.id)

/-- The live effects whose asset tags match any of some tags. -/
def matching (roster : EffectRoster) (tags : TagSet) : List EffectId :=
  if tags.isEmpty then []
  else (roster.live.filter (·.definition.tags.asset.hasAny tags)).map (·.id)

/-- The live effects whose ongoing requirement does not hold. -/
def violating (roster : EffectRoster) (holds : TagSet → Bool) : List EffectId :=
  (roster.live.filter fun effect =>
    let required := effect.definition.tags.requiredOngoing
    !required.isEmpty && !holds required).map (·.id)

/-- The stacks of the live effects whose asset tags match any of some tags. -/
def stackCountWith (roster : EffectRoster) (tags : TagSet) : Nat :=
  ((roster.live.filter (·.definition.tags.asset.hasAny tags)).map (·.stackCount)).foldr (· + ·) 0

/-- Begins a tick, and lists the live effects. -/
def beginTick (roster : EffectRoster) : List EffectId × EffectRoster :=
  (roster.liveIds, { roster with ticking := true })

/-- Ends a tick and drops what was queued. -/
def endTick (roster : EffectRoster) : EffectRoster where
  effects := roster.effects.filter fun effect => !roster.queued.contains effect.id
  ticking := false
  queued := []

/-- Drops every effect without running its lifecycle. -/
def clear (roster : EffectRoster) : EffectRoster := ⟨[], roster.ticking, []⟩

/-- The number of live effects. -/
def size (roster : EffectRoster) : Nat := roster.live.length

/-- No effect is live. -/
def isEmpty (roster : EffectRoster) : Bool := roster.live.isEmpty

end EffectRoster

end SkillEngine
