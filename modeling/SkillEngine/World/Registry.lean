import SkillEngine.Graph.Skill
import SkillEngine.World.Entity

/-!
# The registry

The registry holds the registered entities and the order in which ticks visit them. While a tick
runs, registering and unregistering only queue: at its end the queued entities leave, then the new
ones join. Outside a tick both act at once.
-/

namespace SkillEngine

/-- The registered entities and what is queued for the end of the tick. -/
structure Registry where
  /-- The registered entities. -/
  entities : Dict EntityId Entity
  /-- Their numbers, in order of registration, which is the order of ticking. -/
  order : List EntityId
  /-- The entities that join at the end of the tick. -/
  pendingAdd : List Entity
  /-- The entities that leave at the end of the tick. -/
  pendingRemove : List EntityId
  /-- A tick is running. -/
  ticking : Bool
  deriving Inhabited

namespace Registry

/-- No entities, no tick. -/
def empty : Registry := ⟨.empty, [], [], [], false⟩

/-- The entity is registered. -/
def contains (registry : Registry) (id : EntityId) : Bool := registry.entities.contains id

/-- The registered entity of a number. -/
def entity? (registry : Registry) (id : EntityId) : Option Entity := registry.entities.get? id

/-- The registry with an entity changed. -/
def modify (registry : Registry) (id : EntityId) (change : Entity → Entity) : Registry :=
  { registry with entities := registry.entities.modify id change }

/-- The registry with an entity joined; from now on the engine listens to its tags. -/
def join (registry : Registry) (entity : Entity) : Registry :=
  let (_, listeners) := entity.tags.listeners.subscribe .requirements
  let heard := { entity with tags := { entity.tags with listeners } }
  { registry with
    entities := registry.entities.insert entity.id heard
    order := registry.order ++ [entity.id] }

/-- The registry without an entity. -/
def leave (registry : Registry) (id : EntityId) : Registry :=
  { registry with
    entities := registry.entities.erase id
    order := registry.order.filter (· != id) }

/-- Registers an entity, at once or at the end of the tick. A number that is taken is refused,
unless its entity is about to leave. -/
def register (registry : Registry) (entity : Entity) : Except EngineError Registry :=
  if registry.pendingAdd.any (·.id == entity.id)
      || (registry.contains entity.id && !registry.pendingRemove.contains entity.id) then
    .error (.duplicateEntity entity.id)
  else if registry.ticking then
    .ok { registry with pendingAdd := registry.pendingAdd ++ [entity] }
  else .ok (registry.join entity)

/-- Unregisters an entity, at once or at the end of the tick; tells whether it was known. An entity
that has not joined yet never does. -/
def unregister (registry : Registry) (id : EntityId) : Bool × Registry :=
  if !registry.contains id then
    let kept := registry.pendingAdd.filter (·.id != id)
    (kept.length != registry.pendingAdd.length, { registry with pendingAdd := kept })
  else if registry.ticking then
    (true, { registry with
      pendingRemove := if registry.pendingRemove.contains id then registry.pendingRemove
        else registry.pendingRemove ++ [id] })
  else (true, registry.leave id)

/-- Begins a tick. -/
def beginTick (registry : Registry) : Registry := { registry with ticking := true }

/-- Ends a tick: the queued entities leave, then the new ones join. -/
def endTick (registry : Registry) : Registry :=
  let left := registry.pendingRemove.foldl leave registry
  registry.pendingAdd.foldl join
    { left with pendingAdd := [], pendingRemove := [], ticking := false }

/-- The cues that go with the entities that leave at the end of the tick. -/
def departingCues (registry : Registry) : List CueId :=
  registry.pendingRemove.flatMap fun id =>
    match registry.entity? id with
    | some entity => entity.ownedCues
    | none => []

end Registry

end SkillEngine
