import SkillEngine.Proofs.Tags
import SkillEngine.World.Registry

/-!
# Joining and leaving

Who is registered after entities have joined and left was registered before, or is one of those that
joined, with the engine listening to its tags from then on.
-/

namespace SkillEngine

/-- The form in which an entity is registered: the engine listens to its tags. -/
structure Entity.JoinsAs (before after : Entity) : Prop where
  /-- The number stays. -/
  id : after.id = before.id
  /-- The attributes stay. -/
  attributes : after.attributes = before.attributes
  /-- The effects stay. -/
  effects : after.effects = before.effects
  /-- The engine listens. -/
  watched : after.tags.Watched

/-- The form in which an entity joins: the engine listens to its tags. -/
def Entity.joined (entity : Entity) : Entity :=
  { entity with tags := { entity.tags with
    listeners := (entity.tags.listeners.subscribe .requirements).2 } }

/-- The form in which an entity joins is one in which it is registered. -/
theorem Entity.joinsAs_joined (entity : Entity) : entity.JoinsAs entity.joined where
  id := rfl
  attributes := rfl
  effects := rfl
  watched := by simp [joined, TagCounts.Watched, Subscribers.listeners, Subscribers.subscribe]

namespace Registry

variable {registry : Registry} {id : EntityId} {entity : Entity}

/-- Who is registered after an entity joined. -/
theorem entity?_join_eq (registry : Registry) (newcomer : Entity) (id : EntityId) :
    (registry.join newcomer).entity? id =
      if newcomer.id = id then some newcomer.joined else registry.entity? id := by
  unfold join entity?
  rw [Dict.get?_insert]
  by_cases same : id = newcomer.id
  · rw [if_pos same, if_pos same.symm]
    rfl
  · rw [if_neg same, if_neg fun equal => same equal.symm]

/-- Who is registered after some entities joined in turn: of one number, the last of them. -/
theorem entity?_joinEach_eq (newcomers : List Entity) (registry : Registry) (id : EntityId) :
    (newcomers.foldl join registry).entity? id =
      ((newcomers.reverse.find? (·.id == id)).map Entity.joined).or (registry.entity? id) := by
  induction newcomers generalizing registry with
  | nil => rfl
  | cons newcomer rest ih =>
    rw [List.foldl_cons, ih, entity?_join_eq, List.reverse_cons, List.find?_append]
    cases later : rest.reverse.find? (·.id == id) with
    | some last => rfl
    | none =>
      by_cases same : newcomer.id = id
      · simp [same]
      · simp [same]

/-- Who is registered after an entity joined was before, or is the one that joined. -/
theorem entity?_join (newcomer : Entity)
    (found : (registry.join newcomer).entity? id = some entity) :
    registry.entity? id = some entity ∨ newcomer.id = id ∧ newcomer.JoinsAs entity := by
  rw [entity?_join_eq] at found
  split at found
  · next same =>
    cases found
    exact .inr ⟨same, newcomer.joinsAs_joined⟩
  · exact .inl found

/-- Who is registered after some entities joined in turn was before, or is one of those. -/
theorem entity?_joinEach (newcomers : List Entity)
    (found : (newcomers.foldl join registry).entity? id = some entity) :
    registry.entity? id = some entity ∨
      ∃ newcomer ∈ newcomers, newcomer.id = id ∧ newcomer.JoinsAs entity := by
  rw [entity?_joinEach_eq] at found
  cases last : newcomers.reverse.find? (·.id == id) with
  | none =>
    rw [last] at found
    exact .inl found
  | some newcomer =>
    rw [last] at found
    cases found
    have member := List.mem_reverse.1 (List.mem_of_find?_eq_some last)
    have number : newcomer.id = id := by simpa using List.find?_some last
    exact .inr ⟨newcomer, member, number, newcomer.joinsAs_joined⟩

/-- Joining makes nobody wait. -/
theorem pendingAdd_joinEach (newcomers : List Entity) :
    (newcomers.foldl join registry).pendingAdd = registry.pendingAdd := by
  induction newcomers generalizing registry with
  | nil => rfl
  | cons newcomer rest ih => exact ih

/-- Who is registered after an entity left was before. -/
theorem entity?_leave (leaver : EntityId)
    (found : (registry.leave leaver).entity? id = some entity) :
    registry.entity? id = some entity := by
  unfold leave entity? at found
  rw [Dict.get?_erase] at found
  split at found
  · cases found
  · exact found

/-- Who is registered after some entities left in turn was before. -/
theorem entity?_leaveEach (leavers : List EntityId)
    (found : (leavers.foldl leave registry).entity? id = some entity) :
    registry.entity? id = some entity := by
  induction leavers generalizing registry with
  | nil => exact found
  | cons leaver rest ih => exact entity?_leave leaver (ih found)

/-- Who does not leave stays as it is. -/
theorem entity?_leaveEach_of_not_mem {leavers : List EntityId} (stays : id ∉ leavers) :
    (leavers.foldl leave registry).entity? id = registry.entity? id := by
  induction leavers generalizing registry with
  | nil => rfl
  | cons leaver rest ih =>
    have others : id ∉ rest := fun member => stays (List.mem_cons_of_mem _ member)
    have apart : id ≠ leaver := fun same => stays (same ▸ List.mem_cons_self)
    rw [List.foldl_cons, ih others]
    exact (Dict.get?_erase _ _ _).trans (if_neg apart)

/-- Who is registered at the end of a tick was before, or has waited to join. -/
theorem entity?_endTick (found : registry.endTick.entity? id = some entity) :
    registry.entity? id = some entity ∨
      ∃ newcomer ∈ registry.pendingAdd, newcomer.id = id ∧ newcomer.JoinsAs entity := by
  rcases entity?_joinEach registry.pendingAdd found with before | joined
  · exact .inl (entity?_leaveEach registry.pendingRemove before)
  · exact .inr joined

/-- Nobody waits to join at the end of a tick. -/
theorem pendingAdd_endTick (registry : Registry) : registry.endTick.pendingAdd = [] :=
  pendingAdd_joinEach registry.pendingAdd

/-- Registering an entity that may join: who is registered and who waits. -/
theorem register_ok {newcomer : Entity} {after : Registry}
    (accepted : registry.register newcomer = .ok after) :
    (∀ id entity, after.entity? id = some entity →
      registry.entity? id = some entity ∨ newcomer.id = id ∧ newcomer.JoinsAs entity) ∧
    ∀ entity ∈ after.pendingAdd, entity ∈ registry.pendingAdd ∨ entity = newcomer := by
  unfold register at accepted
  split at accepted
  · cases accepted
  · split at accepted
    · cases accepted
      exact ⟨fun _ _ found => .inl found, fun entity waits => by simpa using waits⟩
    · cases accepted
      exact ⟨fun _ _ found => entity?_join newcomer found, fun _ waits => .inl waits⟩

/-- Unregistering: who is registered and who waits was and did before. -/
theorem unregister_subset (registry : Registry) (leaver : EntityId) :
    (∀ id entity, (registry.unregister leaver).2.entity? id = some entity →
      registry.entity? id = some entity) ∧
    ∀ entity ∈ (registry.unregister leaver).2.pendingAdd, entity ∈ registry.pendingAdd := by
  unfold unregister
  split
  · exact ⟨fun _ _ found => found, fun entity waits => (List.mem_filter.1 waits).1⟩
  · split
    · exact ⟨fun _ _ found => found, fun _ waits => waits⟩
    · exact ⟨fun _ _ found => entity?_leave leaver found, fun _ waits => waits⟩

end Registry

end SkillEngine
