import SkillEngine.Proofs.Seclusion
import SkillEngine.Proofs.Visits
import Mathlib.Algebra.GroupWithZero.Nat
import Mathlib.Algebra.Order.BigOperators.Group.List
import Mathlib.Algebra.Order.Group.Nat

/-!
# The order of a tick

A tick visits entities one after the other. When the live effects are secluded, each visit changes
its entity alone, stops cues and queues tag changes, so two worlds that differ in the order of the
visits are the same for every entity afterwards, and the same cues run. `tick_order_is_immaterial`
says so of any number of ticks, the re-checks in front of each included.
-/

namespace SkillEngine

/-- Entities are ordered by their numbers. -/
instance : LinearOrder EntityId where
  le first second := first.raw ≤ second.raw
  lt first second := first < second
  le_refl first := UInt32.le_refl first.raw
  le_trans _ _ _ := UInt32.le_trans
  le_antisymm _ _ less more := congrArg EntityId.mk (UInt32.le_antisymm less more)
  le_total first second := UInt32.le_total first.raw second.raw
  lt_iff_le_not_ge first second := by
    show first.raw < second.raw ↔ first.raw ≤ second.raw ∧ ¬ second.raw ≤ first.raw
    rw [UInt32.lt_iff_toNat_lt, UInt32.le_iff_toNat_le, UInt32.le_iff_toNat_le]
    omega
  toDecidableLE first second := inferInstanceAs (Decidable (first.raw ≤ second.raw))
  toDecidableEq := inferInstance
  toDecidableLT := inferInstance

namespace World

/-- The world with another order of visits. -/
def reorder (world : World) (order : List EntityId) : World :=
  world.withRegistry { world.registry with order }

/-- What an entity meets in a world. -/
def around (world : World) (id : EntityId) (entity : Entity) : Surroundings where
  id := id
  library := world.library
  names := world.scene.names
  keys := entity.effects.liveIds

/-- The entities are numbered and listed as they are in every session, and live effects act on the
entity that they are on and are secluded. -/
structure Secluded (world : World) : Prop where
  /-- Every entity is registered under its own number. -/
  numbered : world.Numbered
  /-- The registry is orderly. -/
  orderly : world.registry.Orderly
  /-- What is stored under the number of a live effect acts on its entity. -/
  placed : ∀ id entity, world.entity? id = some entity → ∀ key ∈ entity.effects.liveIds,
    ∀ effect, entity.effects.get? key = some effect → effect.target = id
  /-- It is secluded. -/
  effects : ∀ id entity, world.entity? id = some entity → ∀ key ∈ entity.effects.liveIds,
    ∀ effect, entity.effects.get? key = some effect → effect.Secluded world.library

/-- The number of live effects. -/
def liveCount (world : World) : Nat :=
  (world.registry.order.map fun id =>
    (world.entity? id).elim 0 fun entity => entity.effects.live.length).sum

variable {world first second one other : World} {id : EntityId} {entity after : Entity}
  {stopped : List CueId} {waiting : Nat} {around : Surroundings}

namespace Secluded

/-- An entity is registered in what it meets. -/
theorem hosts (secluded : world.Secluded) (found : world.entity? id = some entity) :
    world.Hosts (world.around id entity) entity :=
  ⟨secluded.numbered, found, rfl, rfl⟩

/-- What is on an entity is sheltered. -/
theorem shelters (secluded : world.Secluded) (found : world.entity? id = some entity) :
    (world.around id entity).Shelters entity where
  placed := secluded.placed id entity found
  secluded := secluded.effects id entity found
  known _ live := live

/-- A world in which every entity is a later form of one that was registered is secluded as well. -/
theorem later (secluded : first.Secluded) (roll : one.registry.roll = first.registry.roll)
    (library : one.library = first.library)
    (forms : ∀ id after, one.entity? id = some after → after.id = id ∧ ∃ entity waiting,
      first.entity? id = some entity ∧ entity.LeadsTo after waiting) :
    one.Secluded := by
  have sheltered (id : EntityId) (after : Entity) (registered : one.entity? id = some after) :
      ∃ entity, (first.around id entity).Shelters after ∧
        ∀ key ∈ after.effects.liveIds, key ∈ entity.effects.liveIds := by
    obtain ⟨_, entity, waiting, found, leads⟩ := forms id after registered
    exact ⟨entity, (secluded.shelters found).leads leads, fun _ live =>
      leads.thins.liveIds.subset live⟩
  refine ⟨fun id after registered => (forms id after registered).1, secluded.orderly.congr roll,
    fun id after registered key live effect found => ?_,
    fun id after registered key live effect found => ?_⟩
  · obtain ⟨entity, shelters, known⟩ := sheltered id after registered
    exact shelters.placed key (known key live) effect found
  · obtain ⟨entity, shelters, known⟩ := sheltered id after registered
    exact library ▸ shelters.secluded key (known key live) effect found

/-- So is one with a single entity in a later form. -/
theorem moves (secluded : first.Secluded) (found : first.entity? id = some entity)
    (moves : first.Moves one id after stopped waiting)
    (leads : entity.LeadsTo after waiting) : one.Secluded := by
  have library : one.library = first.library := by
    obtain ⟨_, _, _, shape⟩ := moves.alters.shape
    rw [shape]
    rfl
  refine secluded.later moves.alters.stays.roll library fun other stored registered => ?_
  obtain ⟨earlier, was, rfl⟩ := moves.alters.origin registered
  split
  · next same =>
    subst same
    exact ⟨moves.number, entity, waiting, found, leads⟩
  · exact ⟨secluded.numbered other earlier was, earlier, 0, was, .refl earlier⟩

end Secluded

/-- No more effects are live than before, tag changes wait only if fewer are, and nobody has joined,
left or begun a tick. -/
structure Wanes (before after : World) : Prop where
  /-- No more effects are live. -/
  le : after.liveCount ≤ before.liveCount
  /-- Nothing new waits, or fewer effects are live. -/
  waits : after.tagChanges = before.tagChanges ∨ after.liveCount < before.liveCount
  /-- The roll stays. -/
  roll : after.registry.roll = before.registry.roll

namespace Wanes

/-- Nothing has happened. -/
theorem refl (world : World) : world.Wanes world := ⟨Nat.le_refl _, .inl rfl, rfl⟩

/-- One thing after another. -/
theorem trans {third : World} (earlier : first.Wanes second) (later : second.Wanes third) :
    first.Wanes third := by
  refine ⟨Nat.le_trans later.le earlier.le, ?_, later.roll.trans earlier.roll⟩
  rcases earlier.waits with same | fewer
  · exact later.waits.imp (fun still => still.trans same) fun fewer =>
      Nat.lt_of_lt_of_le fewer earlier.le
  · exact .inr (Nat.lt_of_le_of_lt later.le fewer)

/-- A later form of one entity. -/
theorem of_moves (secluded : first.Secluded) (found : first.entity? id = some entity)
    (moves : first.Moves one id after stopped waiting)
    (leads : entity.LeadsTo after waiting) : first.Wanes one := by
  have roll := moves.alters.stays.roll
  have order : one.registry.order = first.registry.order := congrArg Registry.Roll.order roll
  have less := leads.thins.length_le
  have reached := moves.alters.self found
  have each (key : EntityId) :
      ((one.entity? key).elim 0 fun entity => entity.effects.live.length) ≤
        (first.entity? key).elim 0 fun entity => entity.effects.live.length := by
    by_cases same : key = id
    · rw [same, reached, found]
      exact less
    · rw [moves.alters.entity?, if_neg same]
  refine ⟨?_, ?_, roll⟩
  · rw [liveCount, order]
    exact List.sum_le_sum fun key _ => each key
  · rcases leads.wanes with none | fewer
    · refine .inl (moves.tagChanges.trans ?_)
      rw [none]
      exact List.append_nil _
    · refine .inr ?_
      rw [liveCount, order]
      refine List.sum_lt_sum _ _ (fun key _ => each key) ⟨id, ?_, ?_⟩
      · exact (secluded.orderly.listed id).2 (Option.isSome_iff_exists.2 ⟨entity, found⟩)
      · rw [reached, found]
        exact fewer

end Wanes

/-- Two worlds that are the same for every entity, but for the order of the visits. -/
structure Matches (first second : World) : Prop where
  /-- The same entities are registered. -/
  entity? : ∀ id, second.entity? id = first.entity? id
  /-- They are visited in some order. -/
  order : second.registry.order.Perm first.registry.order
  /-- The same entities wait to join. -/
  joining : second.registry.pendingAdd = first.registry.pendingAdd
  /-- The same entities wait to leave. -/
  leaving : second.registry.pendingRemove = first.registry.pendingRemove
  /-- Both tick or neither does. -/
  ticking : second.registry.ticking = first.registry.ticking
  /-- The same cues run. -/
  cues : second.cues = first.cues
  /-- The tags of the same entities have changed. -/
  tagChanges : ∀ id, id ∈ second.tagChanges ↔ id ∈ first.tagChanges
  /-- The same skills are loaded. -/
  library : second.library = first.library
  /-- The same names are configured. -/
  names : second.scene.names = first.scene.names
  /-- The next effect has the same number. -/
  nextEffect : second.nextEffect = first.nextEffect
  /-- The factor on ticks is the same. -/
  timeScale : second.timeScale = first.timeScale
  /-- Both are paused or neither is. -/
  paused : second.paused = first.paused

/-- A world matches itself in every other order of visits. -/
theorem matches_reorder {order : List EntityId} (rearranged : order.Perm world.registry.order) :
    world.Matches (world.reorder order) where
  entity? _ := rfl
  order := rearranged
  joining := rfl
  leaving := rfl
  ticking := rfl
  cues := rfl
  tagChanges _ := .rfl
  library := rfl
  names := rfl
  nextEffect := rfl
  timeScale := rfl
  paused := rfl

namespace Matches

/-- An entity is registered in both, in the same surroundings. -/
theorem hosts (same : first.Matches second) (hosts : first.Hosts around entity) :
    second.Hosts around entity where
  numbered id entity found := hosts.numbered id entity ((same.entity? id).symm.trans found)
  registered := (same.entity? _).trans hosts.registered
  library := same.library.trans hosts.library
  names := same.names.trans hosts.names

/-- The same happens to an entity in both. -/
theorem moves (same : first.Matches second) (here : first.Moves one id after stopped waiting)
    (there : second.Moves other id after stopped waiting) : one.Matches other := by
  have entities (key : EntityId) : other.entity? key = one.entity? key := by
    rw [there.alters.entity?, here.alters.entity?, same.entity?]
  have cues : other.cues = one.cues := by rw [there.cues, here.cues, same.cues]
  have tagChanges (key : EntityId) : key ∈ other.tagChanges ↔ key ∈ one.tagChanges := by
    rw [there.tagChanges, here.tagChanges, List.mem_append, List.mem_append, same.tagChanges]
  obtain ⟨_, _, _, rfl⟩ := here.alters.shape
  obtain ⟨_, _, _, rfl⟩ := there.alters.shape
  exact { same with entity? := entities, cues, tagChanges }

/-- The tags of the same entities are re-checked in both, in the same order. -/
theorem changedEntities (same : first.Matches second) :
    second.changedEntities = first.changedEntities := by
  refine Dict.keys_ofList_congr fun id => ?_
  rw [List.map_map, List.map_map]
  simpa using same.tagChanges id

/-- Requirements on an entity are re-checked in both. -/
theorem enforce (same : first.Matches second) (secluded : first.Secluded) (id : EntityId) :
    ∃ one other, first.Settles [.enforce id] one ∧ second.Settles [.enforce id] other ∧
      one.Matches other ∧ one.Secluded ∧ first.Wanes one := by
  cases found : first.entity? id with
  | none =>
    have idle {world : World} (missing : world.entity? id = none) :
        world.Settles [.enforce id] world := by
      have nothing : world.enforce id = { world } := by
        rw [World.enforce, missing]
      exact .step (fun _ => nothing) rfl .done
    exact ⟨first, second, idle found, idle ((same.entity? id).trans found), same, secluded,
      .refl first⟩
  | some entity =>
    have hosts := secluded.hosts found
    obtain ⟨after, stopped, waiting, settles, leads⟩ :=
      Surroundings.ends_enforce (secluded.shelters found)
    obtain ⟨one, here, moves⟩ := settles first hosts
    obtain ⟨other, there, others⟩ := settles second (same.hosts hosts)
    exact ⟨one, other, here, there, same.moves moves others, secluded.moves found moves leads,
      .of_moves secluded found moves leads⟩

/-- Requirements on some entities are re-checked in both. -/
theorem enforceEach (same : first.Matches second) (secluded : first.Secluded)
    (ids : List EntityId) : ∃ one other, first.Settles (ids.map .enforce) one ∧
      second.Settles (ids.map .enforce) other ∧ one.Matches other ∧ one.Secluded ∧
        first.Wanes one := by
  induction ids generalizing first second with
  | nil => exact ⟨first, second, .done, .done, same, secluded, .refl first⟩
  | cons id rest ih =>
    obtain ⟨middle, between, here, there, still, kept, wanes⟩ := same.enforce secluded id
    obtain ⟨one, other, onward, others, last, safe, further⟩ := ih still kept
    exact ⟨one, other, here.append onward, there.append others, last, safe, wanes.trans further⟩

/-- Requirements are re-checked in both until no tag change waits, which an effect that ends brings
nearer. -/
theorem drain (same : first.Matches second) (secluded : first.Secluded) :
    ∃ one other, first.Settles [.drain] one ∧ second.Settles [.drain] other ∧ one.Matches other ∧
      one.Secluded ∧ one.registry.roll = first.registry.roll := by
  induction size : first.liveCount using Nat.strong_induction_on generalizing first second with
  | _ size ih =>
    have idle {world : World} (none : world.changedEntities = []) :
        world.Settles [.drain] world := by
      have nothing : world.drain = { world } := by rw [World.drain, none]
      exact .step (fun _ => nothing) rfl .done
    cases changed : first.changedEntities with
    | nil =>
      exact ⟨first, second, idle changed, idle (same.changedEntities.trans changed), same, secluded,
        rfl⟩
    | cons id rest =>
      have taken {world after : World} (waits : world.changedEntities = id :: rest)
          (settles : World.Settles { world with tagChanges := [] }
            ((id :: rest).map .enforce ++ [.drain]) after) : world.Settles [.drain] after := by
        have seen : world.drain = { world := { world with tagChanges := [] }
                                    frames := (id :: rest).map .enforce ++ [.drain] } := by
          rw [World.drain, waits]
        exact .step (fun _ => seen) rfl (by rwa [List.append_nil])
      have emptied :
          World.Matches { first with tagChanges := [] } { second with tagChanges := [] } :=
        { same with tagChanges := fun _ => .rfl }
      have safe : World.Secluded { first with tagChanges := [] } :=
        ⟨secluded.numbered, secluded.orderly, secluded.placed, secluded.effects⟩
      obtain ⟨middle, between, here, there, still, kept, wanes⟩ :=
        emptied.enforceEach safe (id :: rest)
      have again : ∃ one other, middle.Settles [.drain] one ∧ between.Settles [.drain] other ∧
          one.Matches other ∧ one.Secluded ∧ one.registry.roll = middle.registry.roll := by
        rcases wanes.waits with none | fewer
        · have quiet : middle.changedEntities = [] := by
            rw [World.changedEntities, none]
            rfl
          exact ⟨middle, between, idle quiet, idle (still.changedEntities.trans quiet), still,
            kept, rfl⟩
        · exact ih _ (size ▸ fewer) still kept rfl
      obtain ⟨one, other, onward, others, last, guarded, roll⟩ := again
      exact ⟨one, other, taken changed (here.append onward),
        taken (same.changedEntities.trans changed) (there.append others), last, guarded,
        roll.trans wanes.roll⟩

end Matches

/-- What a visit makes of an entity. -/
structure Aftermath where
  /-- Its later form. -/
  entity : Entity
  /-- The cues that stop. -/
  stopped : List CueId
  /-- How many of its tag changes wait. -/
  waiting : Nat

/-- In a secluded world every entity has an aftermath of its own. -/
theorem Secluded.exists_aftermaths (secluded : world.Secluded) (seconds : Float32) :
    ∃ aftermath : EntityId → Aftermath, ∀ id entity, world.entity? id = some entity →
      (aftermath id).entity.id = id ∧
      (world.around id entity).Settles entity [.tickEntity id seconds] (aftermath id).entity
        (aftermath id).stopped (aftermath id).waiting ∧
      entity.LeadsTo (aftermath id).entity (aftermath id).waiting := by
  have each (id : EntityId) : ∃ aftermath : Aftermath, ∀ entity, world.entity? id = some entity →
      aftermath.entity.id = id ∧
      (world.around id entity).Settles entity [.tickEntity id seconds] aftermath.entity
        aftermath.stopped aftermath.waiting ∧
      entity.LeadsTo aftermath.entity aftermath.waiting := by
    cases found : world.entity? id with
    | none => exact ⟨⟨.bare id, [], 0⟩, fun _ registered => by cases registered⟩
    | some entity =>
      obtain ⟨after, stopped, waiting, settles, leads⟩ :=
        Surroundings.ends_tickEntity (secluded.shelters found) seconds
      obtain ⟨_, _, moves⟩ := settles world (secluded.hosts found)
      refine ⟨⟨after, stopped, waiting⟩, fun _ registered => ?_⟩
      cases registered
      exact ⟨moves.number, settles, leads⟩
  choose aftermath holds using each
  exact ⟨aftermath, holds⟩

/-- Some entities have been visited, each with its aftermath, and nothing else has happened. -/
structure Visited (before after : World) (ids : List EntityId) (aftermath : EntityId → Aftermath) :
    Prop where
  /-- Nothing but entities, cues and waiting tag changes differs. -/
  shape : ∃ entities cues tagChanges, after =
    { before.withRegistry { before.registry with entities } with cues, tagChanges }
  /-- The roll stays. -/
  roll : after.registry.roll = before.registry.roll
  /-- Those that were visited are what has become of them. -/
  entity? : ∀ id, after.entity? id =
    if id ∈ ids then some (aftermath id).entity else before.entity? id
  /-- The cues of all of them are stopped. -/
  cues : after.cues = (before.cues.cancelEach (ids.flatMap fun id => (aftermath id).stopped)).1
  /-- The tag changes of all of them wait. -/
  tagChanges : ∀ id, id ∈ after.tagChanges ↔
    id ∈ before.tagChanges ∨ id ∈ ids ∧ (aftermath id).waiting ≠ 0

/-- Each visit has the aftermath that it would have had alone. -/
theorem settles_visits {aftermath : EntityId → Aftermath} {seconds : Float32} (ids : List EntityId)
    (distinct : ids.Nodup) (alone : ∀ id ∈ ids, ∃ around entity, around.id = id ∧
      world.Hosts around entity ∧ around.Settles entity [.tickEntity id seconds]
        (aftermath id).entity (aftermath id).stopped (aftermath id).waiting) :
    ∃ after, world.Settles (ids.map (.tickEntity · seconds)) after ∧
      world.Visited after ids aftermath := by
  induction ids generalizing world with
  | nil => exact ⟨world, .done, ⟨_, _, _, rfl⟩, rfl, by simp, rfl, by simp⟩
  | cons id rest ih =>
    obtain ⟨apart, onward⟩ := List.nodup_cons.1 distinct
    obtain ⟨around, entity, number, hosts, settles⟩ := alone id List.mem_cons_self
    subst number
    obtain ⟨middle, first, moves⟩ := settles world hosts
    obtain ⟨entities, cues, tagChanges, shape⟩ := moves.alters.shape
    have moved := hosts.alters moves.alters moves.number
    obtain ⟨after, others, visited⟩ := ih onward fun other member => by
      obtain ⟨elsewhere, entity, number, present, settles⟩ :=
        alone other (List.mem_cons_of_mem _ member)
      subst number
      have differs : elsewhere.id ≠ around.id := fun same => apart (same ▸ member)
      refine ⟨elsewhere, entity, rfl, ⟨moved.numbered, ?_, ?_, ?_⟩, settles⟩
      · rw [moves.alters.entity?, if_neg differs]
        exact present.registered
      · rw [shape]
        exact present.library
      · rw [shape]
        exact present.names
    refine ⟨after, first.append others, ?_, visited.roll.trans moves.alters.stays.roll,
      fun other => ?_, ?_, fun other => ?_⟩
    · obtain ⟨_, _, _, rfl⟩ := visited.shape
      rw [shape]
      exact ⟨_, _, _, rfl⟩
    · rw [visited.entity?, moves.alters.entity?]
      by_cases here : other = around.id
      · subst here
        simp [apart, hosts.registered]
      · simp [here]
    · rw [visited.cues, moves.cues, ← CueStage.cancelEach_append]
      rfl
    · rw [visited.tagChanges, moves.tagChanges, List.mem_append, List.mem_replicate]
      by_cases here : other = around.id
      · subst here
        simp [apart]
      · simp [here]

namespace Visited

variable {ids others : List EntityId} {aftermath : EntityId → Aftermath}

/-- The order of the visits does not matter. -/
theorem agrees (here : first.Visited one ids aftermath)
    (there : second.Visited other others aftermath)
    (same : first.Matches second) (rearranged : others.Perm ids) : one.Matches other := by
  have entities (id : EntityId) : other.entity? id = one.entity? id := by
    rw [there.entity?, here.entity?, same.entity?]
    simp only [rearranged.mem_iff]
  have cues : other.cues = one.cues := by
    rw [there.cues, here.cues, same.cues]
    refine CueStage.cancelEach_congr _ fun id => ?_
    simp only [List.mem_flatMap, rearranged.mem_iff]
  have tagChanges (id : EntityId) : id ∈ other.tagChanges ↔ id ∈ one.tagChanges := by
    rw [there.tagChanges, here.tagChanges, same.tagChanges, rearranged.mem_iff]
  obtain ⟨_, _, _, rfl⟩ := here.shape
  obtain ⟨_, _, _, rfl⟩ := there.shape
  exact { same with entity? := entities, cues, tagChanges }

/-- After the visits a world is as secluded as before. -/
theorem secluded (visited : first.Visited one ids aftermath) (secluded : first.Secluded)
    (alone : ∀ id entity, first.entity? id = some entity → (aftermath id).entity.id = id ∧
      entity.LeadsTo (aftermath id).entity (aftermath id).waiting)
    (listed : ∀ id ∈ ids, (first.entity? id).isSome = true) : one.Secluded := by
  have library : one.library = first.library := by
    obtain ⟨_, _, _, shape⟩ := visited.shape
    rw [shape]
    rfl
  refine secluded.later visited.roll library fun id after registered => ?_
  rw [visited.entity?] at registered
  split at registered
  · next member =>
    cases registered
    obtain ⟨entity, found⟩ := Option.isSome_iff_exists.1 (listed id member)
    obtain ⟨number, leads⟩ := alone id entity found
    exact ⟨number, entity, _, found, leads⟩
  · exact ⟨secluded.numbered id after registered, after, 0, registered,
      .refl after⟩

/-- Nobody asks to join or leave in a visit. -/
theorem nobody (visited : first.Visited one ids aftermath)
    (nobody : first.registry.pendingAdd = [] ∧ first.registry.pendingRemove = []) :
    one.registry.pendingAdd = [] ∧ one.registry.pendingRemove = [] := by
  obtain ⟨_, _, _, shape⟩ := visited.shape
  rw [shape]
  exact nobody

end Visited

/-- The world in which a tick has begun. -/
def begun (world : World) (seconds : Float32) : World :=
  { world.withRegistry world.registry.beginTick with
    time := world.time + Number.widen (seconds * world.timeScale) }

/-- The world in which a tick has ended, when nobody asked to join or leave. -/
def ended (world : World) (seconds : Float32) : World :=
  { world.withRegistry { world.registry with ticking := false } with
    cues := (world.cues.tick seconds).1 }

/-- When nobody asked to join or leave, the end of a tick lets time pass for the cues. -/
theorem settles_endTick
    (nobody : world.registry.pendingAdd = [] ∧ world.registry.pendingRemove = [])
    (seconds : Float32) : world.Settles [.endTick seconds] (world.ended seconds) := by
  obtain ⟨joining, leaving⟩ := nobody
  have ends : (world.endTick seconds).world = world.ended seconds := by
    obtain ⟨⟨⟨entities, order, pendingAdd, pendingRemove, ticking⟩, table, names⟩, _⟩ := world
    subst joining leaving
    rfl
  refine @Settles.step world _ _ [] (world.endTick seconds) (fun _ => rfl) rfl ?_
  show Settles (world.endTick seconds).world [] _
  rw [ends]
  exact .done

/-- A tick comes to its end when its visits do. -/
theorem settles_beginTick {aftermath : EntityId → Aftermath} {seconds : Float32}
    (forward : ¬ seconds * world.timeScale ≤ 0)
    (nobody : world.registry.pendingAdd = [] ∧ world.registry.pendingRemove = [])
    (visits : (world.begun seconds).Settles
      (world.registry.order.map (.tickEntity · (seconds * world.timeScale))) one)
    (visited : (world.begun seconds).Visited one world.registry.order aftermath) :
    world.Settles [.beginTick seconds] (one.ended (seconds * world.timeScale)) := by
  have begins : world.beginTick seconds = { world := world.begun seconds
                                            frames := world.registry.order.map
                                              (.tickEntity · (seconds * world.timeScale)) ++
                                                [.endTick (seconds * world.timeScale)] } := by
    rw [World.beginTick]
    exact if_neg forward
  refine .step (fun _ => begins) rfl ?_
  rw [List.append_nil]
  exact visits.append (settles_endTick (visited.nobody nobody) _)

namespace Matches

/-- A tick that begins in both is the same for every entity. -/
theorem beginTick (same : first.Matches second) (secluded : first.Secluded)
    (idle : first.registry.ticking = false) (seconds : Float32) :
    ∃ one other, first.Settles [.beginTick seconds] one ∧
      second.Settles [.beginTick seconds] other ∧ one.Matches other ∧ one.Secluded := by
  by_cases still : seconds * first.timeScale ≤ 0
  · have nothing {world : World} (still : seconds * world.timeScale ≤ 0) :
        world.Settles [.beginTick seconds] world := by
      have stays : world.beginTick seconds = { world } := by
        rw [World.beginTick]
        exact if_pos still
      exact .step (fun _ => stays) rfl .done
    exact ⟨first, second, nothing still, nothing (same.timeScale ▸ still), same, secluded⟩
  · have begun : (first.begun seconds).Secluded :=
      ⟨secluded.numbered, secluded.orderly.beginTick, secluded.placed, secluded.effects⟩
    have both : (first.begun seconds).Matches (second.begun seconds) :=
      { same with ticking := rfl }
    obtain ⟨aftermath, alone⟩ := begun.exists_aftermaths (seconds * first.timeScale)
    have listed (id : EntityId) (member : id ∈ first.registry.order) :
        (first.entity? id).isSome = true := (secluded.orderly.listed id).1 member
    have registered (id : EntityId) (member : id ∈ first.registry.order) :
        ∃ around entity, around.id = id ∧ (first.begun seconds).Hosts around entity ∧
          around.Settles entity [.tickEntity id (seconds * first.timeScale)] (aftermath id).entity
            (aftermath id).stopped (aftermath id).waiting := by
      obtain ⟨entity, found⟩ := Option.isSome_iff_exists.1 (listed id member)
      exact ⟨_, entity, rfl, begun.hosts found, (alone id entity found).2.1⟩
    have elsewhere (id : EntityId) (member : id ∈ second.registry.order) :
        ∃ around entity, around.id = id ∧ (second.begun seconds).Hosts around entity ∧
          around.Settles entity [.tickEntity id (seconds * first.timeScale)] (aftermath id).entity
            (aftermath id).stopped (aftermath id).waiting := by
      obtain ⟨around, entity, number, hosts, settles⟩ :=
        registered id (same.order.mem_iff.1 member)
      exact ⟨around, entity, number, both.hosts hosts, settles⟩
    obtain ⟨one, here, visited⟩ :=
      settles_visits first.registry.order secluded.orderly.distinct registered
    obtain ⟨other, there, others⟩ := settles_visits second.registry.order
      (same.order.nodup_iff.2 secluded.orderly.distinct) elsewhere
    have nobody := secluded.orderly.idle idle
    have ends := settles_beginTick still nobody here visited
    have likewise :
        second.Settles [.beginTick seconds] (other.ended (seconds * first.timeScale)) := by
      rw [← same.timeScale] at still there ⊢
      exact settles_beginTick still ⟨same.joining.trans nobody.1, same.leaving.trans nobody.2⟩
        there others
    have agrees := visited.agrees others both same.order
    have safe := visited.secluded begun (fun id entity found =>
      ⟨(alone id entity found).1, (alone id entity found).2.2⟩) listed
    refine ⟨_, _, ends, likewise, { agrees with ticking := rfl, cues := ?_ }, ?_⟩
    · exact congrArg (fun stage : CueStage => (stage.tick _).1) agrees.cues
    · exact ⟨safe.numbered, { safe.orderly with idle := fun _ => visited.nobody nobody },
        safe.placed, safe.effects⟩

/-- So are any number of ticks, each with its re-checks. -/
theorem ticks (same : first.Matches second) (secluded : first.Secluded) (seconds : Float32)
    (count : Nat) : ∃ one other, first.Settles [.ticks seconds count] one ∧
      second.Settles [.ticks seconds count] other ∧ one.Matches other := by
  induction count generalizing first second with
  | zero =>
    exact ⟨first, second, .step (fun _ => rfl) rfl .done, .step (fun _ => rfl) rfl .done, same⟩
  | succ count ih =>
    by_cases rests : (first.paused || first.registry.ticking) = true
    · have skips {world after : World} (rests : (world.paused || world.registry.ticking) = true)
          (onward : world.Settles [.ticks seconds count] after) :
          world.Settles [.ticks seconds (count + 1)] after := by
        have skipped : world.ticks seconds (count + 1) =
            { world, frames := [.ticks seconds count] } := by
          rw [World.ticks, if_pos rests]
        exact .step (fun _ => skipped) rfl onward
      obtain ⟨one, other, here, there, agrees⟩ := ih same secluded
      refine ⟨one, other, skips rests here, skips ?_ there, agrees⟩
      rw [same.paused, same.ticking]
      exact rests
    · have goes {world drained ticked after : World}
          (rests : ¬ (world.paused || world.registry.ticking) = true)
          (drains : world.Settles [.drain] drained)
          (ticks : drained.Settles [.beginTick seconds] ticked)
          (onward : ticked.Settles [.ticks seconds count] after) :
          world.Settles [.ticks seconds (count + 1)] after := by
        have goes : world.ticks seconds (count + 1) =
            { world, frames := [.drain, .beginTick seconds, .ticks seconds count] } := by
          rw [World.ticks, if_neg rests]
        exact .step (fun _ => goes) rfl (drains.append (ticks.append onward))
      have idle : first.registry.ticking = false := by
        rw [Bool.or_eq_true, not_or] at rests
        exact Bool.eq_false_iff.2 rests.2
      obtain ⟨drained, elsewhere, drains, likewise, still, safe, roll⟩ := same.drain secluded
      obtain ⟨ticked, others, ticks, too, agrees, kept⟩ := still.beginTick safe
        ((congrArg Registry.Roll.ticking roll).trans idle) seconds
      obtain ⟨one, other, here, there, last⟩ := ih agrees kept
      refine ⟨one, other, goes rests drains ticks here, goes ?_ likewise too there, last⟩
      rw [same.paused, same.ticking]
      exact rests

end Matches

/-- A request is performed to its end, and the world is then another. -/
def Performs (world : World) (request : Request) (after : World) : Prop :=
  ∃ bound, (Cascade.run bound (.ofRequest world request)).isDone = true ∧
    (Cascade.run bound (.ofRequest world request)).world = after

/-- A request is performed to its end when the frames that it leaves come to theirs. -/
theorem Settles.performs {request : Request} {frames : List Frame} {after : World}
    (settles : world.Settles frames after)
    (leaves : world.perform request = { world, frames }) : world.Performs request after := by
  have whole : world.Settles [.perform request] after :=
    .step (fun _ => leaves) rfl (by rwa [List.append_nil])
  obtain ⟨bound, reached, remains⟩ := whole.run (.ofRequest world request) [] rfl rfl
  exact ⟨bound, List.isEmpty_iff.2 remains, reached⟩

end World

/-- In a session in which the host leaves effects to the engine, a world is secluded if its live
effects are. -/
theorem Session.secluded {admits : Request → Prop} {start : World} {past : List Cascade}
    {now : Cascade} (session : Session admits start past now) (calm : start.Calm)
    (lawful : ∀ request, admits request → request.isLawful = true)
    (orderly : start.registry.Orderly)
    (effects : ∀ id entity, now.world.entity? id = some entity → ∀ effect ∈ entity.effects.live,
      effect.Secluded now.world.library) : now.world.Secluded := by
  have sound := session.sound calm lawful
  refine ⟨sound.numbered, session.orderly orderly,
    fun id entity registered key _ effect found => ?_,
    fun id entity registered key live effect found => ?_⟩
  · exact (sound.rosters id entity registered).placed effect (EffectRoster.mem_of_get? found).1
  · obtain ⟨stored, member, rfl⟩ := List.mem_map.1 live
    have same := (sound.rosters id entity registered).get?_eq (List.mem_filter.1 member).1
    cases same.symm.trans found
    exact effects id entity registered effect member

/-- Two worlds that differ in the order in which ticks visit are the same after any ticks: the same
entities are registered with the same attributes, tags and effects, and the same cues run. This is
so when no port of a live effect is connected and what live effects track is no computed magnitude
and reads no caster. The rest of what makes a world secluded holds in every session, as
`Session.secluded` shows. -/
theorem tick_order_is_immaterial {world : World} (secluded : world.Secluded)
    {order : List EntityId} (rearranged : order.Perm world.registry.order) (seconds : Float32)
    (count : Nat) : ∃ one other, world.Performs (.tick seconds count) one ∧
      (world.reorder order).Performs (.tick seconds count) other ∧
      (∀ id, other.entity? id = one.entity? id) ∧ other.cues = one.cues := by
  obtain ⟨one, other, here, there, agrees⟩ :=
    (World.matches_reorder rearranged).ticks secluded seconds count
  have answers (world : World) : world.Settles [.answer .nothing] world :=
    .step (fun _ => rfl) rfl .done
  exact ⟨one, other, (here.append (answers one)).performs rfl,
    (there.append (answers other)).performs rfl, agrees.entity?, agrees.cues⟩

/-- A second of being charmed, which gives as much again as there is. -/
def charm : EffectDef where
  durationType := .duration
  duration := .fixed .one
  tags := { granted := .ofPaths ["charmed"] }
  modifiers := [{ attr := ⟨0⟩, op := .add, magnitude := .formula (.ofText "target.Grace"),
                  capture := .track }]

/-- A trance that lasts as long as one is charmed. -/
def trance : EffectDef where
  durationType := .infinite
  tags := { requiredOngoing := .ofPaths ["charmed"] }

/-- Two entities are charmed and fall into a trance. -/
def charmRequests : List Request :=
  [.spawn ⟨1⟩, .spawn ⟨2⟩, .apply ⟨1⟩ ⟨1⟩ charm ⟨1⟩ { caster := ⟨2⟩ },
    .apply ⟨1⟩ ⟨2⟩ trance ⟨1⟩ { caster := ⟨2⟩ }, .apply ⟨1⟩ ⟨1⟩ charm ⟨2⟩ { caster := ⟨1⟩ },
    .apply ⟨1⟩ ⟨2⟩ trance ⟨2⟩ { caster := ⟨1⟩ }]

/-- A world in which grace is configured. -/
def court : World := World.create {} ⟨[{ id := ⟨0⟩, name := "Grace", defaultValue := .one }]⟩

/-- The state in which both are in a trance. -/
def charmed : Cascade := Cascade.afterEach 40 { world := court, agenda := [] } charmRequests

/-- The charms wear off and the trances end with them, whoever comes first. -/
theorem charms_wear_off : charmed.world.Secluded ∧ charmed.world.liveCount = 4 ∧
    charmed.world.registry.order = [⟨1⟩, ⟨2⟩] ∧ [⟨2⟩, ⟨1⟩].Perm charmed.world.registry.order ∧
    ∃ one other, charmed.world.Performs (.tick 1 1) one ∧
      (charmed.world.reorder [⟨2⟩, ⟨1⟩]).Performs (.tick 1 1) other ∧
      (∀ id, other.entity? id = one.entity? id) ∧ other.cues = one.cues := by
  have session : Session (fun request => request.isLawful = true) court _ charmed :=
    .ofRequests 40 charmRequests (by decide) (by decide +kernel)
  have order : charmed.world.registry.order = [⟨1⟩, ⟨2⟩] := by decide +kernel
  have orderly : court.registry.Orderly := Registry.orderly_empty
  have listed : ∀ id ∈ charmed.world.registry.order, ∀ entity ∈ charmed.world.entity? id,
      ∀ effect ∈ entity.effects.live, effect.Secluded charmed.world.library := by decide +kernel
  have secluded : charmed.world.Secluded :=
    session.secluded (World.calm_create {} _) (fun _ same => same) orderly
      fun id entity found => listed id (((session.orderly orderly).listed id).2
        (Option.isSome_iff_exists.2 ⟨entity, found⟩)) entity found
  have swapped : [⟨2⟩, ⟨1⟩].Perm charmed.world.registry.order := order ▸ .swap _ _ _
  exact ⟨secluded, by decide +kernel, order, swapped, tick_order_is_immaterial secluded swapped 1 1⟩

end SkillEngine
