import SkillEngine.Proofs.Roster
import SkillEngine.Proofs.Sheet
import SkillEngine.World.Lifecycle

/-!
# Changes of one entity

Whatever happens in the life of an effect happens to one entity: the one that carries it. A world
*alters* into another when a change of one registered entity, the running cues and waiting tag
changes of that entity tell them apart. Each operation on worlds is given here as such a change, so
that what it does is read off the entity alone.
-/

namespace SkillEngine

namespace Entity

/-- The entity with its attributes changed. -/
def onSheet (entity : Entity)
    (change : AttributeSheet → AttributeSheet × List AttributeSignal) : Entity :=
  { entity with attributes := (change entity.attributes).1 }

/-- The entity with its effects changed. -/
def onEffects (entity : Entity) (change : EffectRoster → EffectRoster) : Entity :=
  { entity with effects := change entity.effects }

/-- The entity after some tags were given. -/
def given (entity : Entity) (tags : List Tag) : Entity :=
  { entity with tags := (entity.tags.addEach tags).2 }

/-- The entity after some tags were taken. -/
def deprived (entity : Entity) (tags : List Tag) : Entity :=
  { entity with tags := (entity.tags.removeEach tags).2 }

/-- A sheet with some modifiers attached in turn, the values committed. -/
def attachAll (modifiers : List (AttributeId × ActiveModifier Float32)) (sheet : AttributeSheet) :
    AttributeSheet × List AttributeSignal :=
  (modifiers.foldl (fun sheet entry => sheet.attach entry.1 entry.2) sheet).recalculateDirty

/-- The entity after an effect took hold. -/
def holding (entity : Entity) (effect : Effect) (appliedAt : Float) : Entity :=
  ((entity.onSheet (attachAll (World.modifiersOf effect appliedAt))).given
    effect.definition.tags.granted.tags).onEffects (·.insert effect)

/-- A sheet with the modifiers of a source detached, the values committed. -/
def detachAll (source : SourceId) (sheet : AttributeSheet) :
    AttributeSheet × List AttributeSignal :=
  (sheet.detach source).2.recalculateDirty

/-- The entity after an effect was released. -/
def releasing (entity : Entity) (key : EffectId) (granted : List Tag) (state : EffectState) :
    Entity :=
  ((entity.onSheet (detachAll key.source)).deprived granted).onEffects (·.release key state)

/-- The entity with one tracked magnitude renewed, in the effect and in what it attached. -/
def renew (key : EffectId) (entity : Entity) : Nat × AttributeId × Float32 → Entity
  | (slot, attr, magnitude) => { entity with
      effects := entity.effects.modify key (·.setMagnitude slot magnitude)
      attributes := entity.attributes.setMagnitude attr key.source slot magnitude }

/-- The entity with some tracked magnitudes renewed in turn. -/
def tracking (entity : Entity) (key : EffectId) (updates : List (Nat × AttributeId × Float32)) :
    Entity :=
  updates.foldl (renew key) entity

/-- A sheet whose modifiers of a source are told the stack count, the values committed. -/
def spreadAll (source : SourceId) (stackCount : Nat) (sheet : AttributeSheet) :
    AttributeSheet × List AttributeSignal :=
  (sheet.setStacks source stackCount).recalculateDirty

/-- The entity with the effect of a number replaced by a touched form of it, some of its tracked
magnitudes renewed. -/
def touching (entity : Entity) (key : EffectId) (touched : Effect)
    (updates : List (Nat × AttributeId × Float32)) : Entity :=
  (entity.onEffects (·.modify key fun _ => touched)).tracking key updates

/-- The entity with an effect touched, and what the effect attached told its stack count. -/
def restacking (entity : Entity) (key : EffectId) (touched : Effect)
    (updates : List (Nat × AttributeId × Float32)) : Entity :=
  (entity.touching key touched updates).onSheet (spreadAll key.source touched.stackCount)

variable {entity : Entity} {key : EffectId} {touched : Effect}
  {updates : List (Nat × AttributeId × Float32)}

/-- Renewing magnitudes keeps the number. -/
@[simp] theorem id_tracking (entity : Entity) (key : EffectId)
    (updates : List (Nat × AttributeId × Float32)) :
    (entity.tracking key updates).id = entity.id := by
  induction updates generalizing entity with
  | nil => rfl
  | cons update rest ih => exact ih (renew key entity update)

/-- Renewing magnitudes keeps the tags. -/
@[simp] theorem tags_tracking (entity : Entity) (key : EffectId)
    (updates : List (Nat × AttributeId × Float32)) :
    (entity.tracking key updates).tags = entity.tags := by
  induction updates generalizing entity with
  | nil => rfl
  | cons update rest ih => exact ih (renew key entity update)

/-- Renewing magnitudes changes the effect of the number only, and only its magnitudes. -/
theorem effects_tracking (entity : Entity) (key : EffectId)
    (updates : List (Nat × AttributeId × Float32)) :
    (entity.tracking key updates).effects =
      entity.effects.modify key fun effect => effect.renewed updates := by
  induction updates generalizing entity with
  | nil => exact (EffectRoster.modify_same entity.effects key).symm
  | cons update rest ih =>
    obtain ⟨slot, attr, magnitude⟩ := update
    have onward := ih (renew key entity (slot, attr, magnitude))
    have first : (renew key entity (slot, attr, magnitude)).effects =
        entity.effects.modify key (·.setMagnitude slot magnitude) := rfl
    have keeps (effect : Effect) : (effect.setMagnitude slot magnitude).id = effect.id := rfl
    rw [first, EffectRoster.modify_modify keeps] at onward
    exact onward

/-- The effects of a touched entity. -/
theorem effects_touching (same : touched.id = key) :
    (entity.touching key touched updates).effects =
      entity.effects.modify key fun _ => touched.renewed updates := by
  rw [touching, effects_tracking]
  exact EffectRoster.replace_modify same _

/-- Only the attributes of an entity were written to. -/
structure Revalues (before after : Entity) : Prop where
  /-- The number stays. -/
  id : after.id = before.id
  /-- The tags stay. -/
  tags : after.tags = before.tags
  /-- The effects stay. -/
  effects : after.effects = before.effects
  /-- The attributes are revalued. -/
  attributes : before.attributes.Revalues after.attributes

namespace Revalues

/-- Nothing has happened. -/
theorem refl (entity : Entity) : entity.Revalues entity := ⟨rfl, rfl, rfl, .refl _⟩

/-- One write after another. -/
theorem trans {first second third : Entity} (earlier : first.Revalues second)
    (later : second.Revalues third) : first.Revalues third :=
  ⟨later.id.trans earlier.id, later.tags.trans earlier.tags, later.effects.trans earlier.effects,
    earlier.attributes.trans later.attributes⟩

/-- Changing the sheet by writes. -/
theorem onSheet {change : AttributeSheet → AttributeSheet × List AttributeSignal}
    (revalues : entity.attributes.Revalues (change entity.attributes).1) :
    entity.Revalues (entity.onSheet change) :=
  ⟨rfl, rfl, rfl, revalues⟩

end Revalues

end Entity

namespace World

/-- Every entity is registered under its own number. -/
def Numbered (world : World) : Prop := ∀ id entity, world.entity? id = some entity → entity.id = id

/-- One world is another with one registered entity changed; running cues apart, and tag changes of
that entity that now wait. -/
structure Alters (before after : World) (id : EntityId) (change : Entity → Entity) : Prop where
  /-- Nothing but entities, cues and waiting tag changes differs. -/
  shape : ∃ entities cues tagChanges, after =
    { before.withRegistry { before.registry with entities } with cues, tagChanges }
  /-- The same entities are registered. -/
  keys : after.registry.entities.keys = before.registry.entities.keys
  /-- The one entity is changed and every other one is as before. -/
  entity? : ∀ other, after.entity? other =
    if other = id then (before.entity? other).map change else before.entity? other
  /-- Only tag changes of the entity were added to those that wait. -/
  queued : ∃ count, after.tagChanges = before.tagChanges ++ List.replicate count id

namespace Alters

variable {first second third before after : World} {id : EntityId} {change later : Entity → Entity}

/-- Changes of one entity in turn. -/
theorem trans (earlier : first.Alters second id change) (onward : second.Alters third id later) :
    first.Alters third id (later ∘ change) where
  shape := by
    obtain ⟨_, _, _, rfl⟩ := earlier.shape
    obtain ⟨entities, cues, tagChanges, rfl⟩ := onward.shape
    exact ⟨entities, cues, tagChanges, rfl⟩
  keys := onward.keys.trans earlier.keys
  entity? other := by
    rw [onward.entity?, earlier.entity?]
    split
    · rw [Option.map_map]
    · rfl
  queued := by
    obtain ⟨few, same⟩ := earlier.queued
    obtain ⟨more, rest⟩ := onward.queued
    exact ⟨few + more, by rw [rest, same, List.append_assoc, List.replicate_append_replicate]⟩

/-- Only what a change does to the registered entity matters. -/
theorem congr (alters : before.Alters after id change)
    (agree : ∀ entity, before.entity? id = some entity → change entity = later entity) :
    before.Alters after id later where
  shape := alters.shape
  keys := alters.keys
  entity? other := by
    rw [alters.entity?]
    by_cases same : other = id
    · subst same
      rw [if_pos rfl, if_pos rfl]
      cases found : before.entity? other with
      | none => rfl
      | some entity => simp [agree entity found]
    · rw [if_neg same, if_neg same]
  queued := alters.queued

/-- A world alters into itself. -/
theorem refl (world : World) (id : EntityId) : world.Alters world id fun entity => entity where
  shape := ⟨_, _, _, rfl⟩
  keys := rfl
  entity? other := by
    split
    · rw [Option.map_id']
    · rfl
  queued := ⟨0, by simp⟩

/-- Running cues may change meanwhile. -/
theorem withCues (alters : before.Alters after id change) (cues : CueStage) :
    before.Alters { after with cues } id change where
  shape := by
    obtain ⟨entities, _, tagChanges, rfl⟩ := alters.shape
    exact ⟨entities, cues, tagChanges, rfl⟩
  keys := alters.keys
  entity? := alters.entity?
  queued := alters.queued

/-- A change of an entity that is not registered is none. -/
theorem absent {world : World} (missing : world.entity? id = none) :
    world.Alters world id change :=
  (refl world id).congr fun entity found => by rw [missing] at found; cases found

/-- The changed entity, if it is registered. -/
theorem self (alters : before.Alters after id change) {entity : Entity}
    (found : before.entity? id = some entity) : after.entity? id = some (change entity) := by
  rw [alters.entity?, if_pos rfl, found]
  rfl

/-- Every registered entity comes from one. -/
theorem origin (alters : before.Alters after id change) {other : EntityId} {entity : Entity}
    (found : after.entity? other = some entity) :
    ∃ earlier, before.entity? other = some earlier ∧
      entity = if other = id then change earlier else earlier := by
  rw [alters.entity?] at found
  by_cases same : other = id
  · rw [if_pos same] at found
    obtain ⟨earlier, stored, rfl⟩ := Option.map_eq_some_iff.1 found
    exact ⟨earlier, stored, (if_pos same).symm⟩
  · rw [if_neg same] at found
    exact ⟨entity, found, (if_neg same).symm⟩

/-- An entity keeps its place in the registry. -/
theorem numbered (alters : before.Alters after id change) (numbered : before.Numbered)
    (keeps : ∀ entity, (change entity).id = entity.id) : after.Numbered := by
  intro other entity found
  obtain ⟨earlier, stored, rfl⟩ := alters.origin found
  split
  · rw [keeps, numbered other earlier stored]
  · exact numbered other earlier stored

end Alters

variable {world : World} {id : EntityId} {handle : EffectHandle}

/-- Changing an entity. -/
theorem alters_modify (world : World) (id : EntityId) (change : Entity → Entity) :
    world.Alters (world.modify id change) id change where
  shape := ⟨_, _, _, rfl⟩
  keys := Dict.keys_modify _ _ _
  entity? other := Dict.get?_modify _ _ _ _
  queued := ⟨0, by simp [modify, withRegistry]⟩

/-- Delivering tag notices changes no entity. -/
theorem alters_hear (world : World) (id : EntityId) (notices : List (TagListener × TagEvent)) :
    world.Alters (world.hear id notices).1 id fun entity => entity where
  shape := ⟨_, _, _, rfl⟩
  keys := rfl
  entity? other := by
    split
    · rw [Option.map_id']
      rfl
    · rfl
  queued := ⟨_, by rw [hear, List.map_const']⟩

/-- Stopping cues changes no entity. -/
theorem alters_cancelCues (world : World) (id : EntityId) (cues : List CueId) :
    world.Alters (world.cancelCues cues).1 id fun entity => entity :=
  (Alters.refl world id).withCues _

/-- Changing attributes. -/
theorem alters_changeSheet (world : World) (id : EntityId)
    (change : AttributeSheet → AttributeSheet × List AttributeSignal) :
    world.Alters (world.changeSheet id change).1 id (·.onSheet change) := by
  unfold changeSheet
  split
  · next missing => exact .absent missing
  · next entity found =>
    refine (alters_modify world id _).congr fun other stored => ?_
    rw [found] at stored
    cases stored
    rfl

/-- The world in which the modifiers of an effect are attached. -/
def attached (world : World) (effect : Effect) : World :=
  (world.changeSheet effect.target (Entity.attachAll (modifiersOf effect world.time))).1

/-- An effect takes hold in steps: its modifiers are attached, its tags given, and it is stored. -/
theorem world_takeHold (world : World) (effect : Effect) : (world.takeHold effect).1 =
    match (world.attached effect).entity? effect.target with
    | none => world.attached effect
    | some entity =>
      ((world.attached effect).giveTags entity effect.definition.tags.granted.tags).2.1.modify
        effect.target fun entity => { entity with effects := entity.effects.insert effect } := by
  cases found : (world.attached effect).entity? effect.target with
  | none | some =>
    show Prod.fst (match (world.attached effect).entity? effect.target with
      | none => _
      | some entity => _) = _
    rw [found]
    rfl

/-- Attaching modifiers. -/
theorem alters_attached (world : World) (effect : Effect) :
    world.Alters (world.attached effect) effect.target
      (·.onSheet (Entity.attachAll (modifiersOf effect world.time))) :=
  alters_changeSheet world effect.target _

/-- Giving tags. -/
theorem alters_giveTags {entity : Entity} (found : world.entity? entity.id = some entity)
    (tags : List Tag) : world.Alters (world.giveTags entity tags).2.1 entity.id (·.given tags) := by
  refine ((alters_modify world entity.id fun other =>
    { other with tags := (entity.tags.addEach tags).2 }).trans
      (alters_hear _ entity.id _)).congr fun other stored => ?_
  rw [found] at stored
  cases stored
  rfl

/-- Taking tags. -/
theorem alters_takeTags {entity : Entity} (found : world.entity? entity.id = some entity)
    (tags : List Tag) :
    world.Alters (world.takeTags entity tags).2.1 entity.id (·.deprived tags) := by
  refine ((alters_modify world entity.id fun other =>
    { other with tags := (entity.tags.removeEach tags).2 }).trans
      (alters_hear _ entity.id _)).congr fun other stored => ?_
  rw [found] at stored
  cases stored
  rfl

/-- Changing an effect. -/
theorem alters_modifyEffect (world : World) (handle : EffectHandle) (change : Effect → Effect) :
    world.Alters (world.modifyEffect handle change) handle.target
      (·.onEffects (·.modify handle.id change)) :=
  alters_modify world handle.target _

/-- The world in which an effect is marked as ended, its cues are stopped and its modifiers are
detached. -/
def detached (world : World) (handle : EffectHandle) (effect : Effect) (state : EffectState) :
    World :=
  (((world.modifyEffect handle (·.ended state)).cancelCues effect.cues).1.changeSheet handle.target
    (Entity.detachAll effect.id.source)).1

/-- An effect is released in steps: its modifiers are detached, its tags taken, and it is
dropped. -/
theorem world_release (world : World) (handle : EffectHandle) (effect : Effect)
    (state : EffectState) : (world.release handle effect state).1 =
      match (world.detached handle effect state).entity? handle.target with
      | none => world.detached handle effect state
      | some entity =>
        ((world.detached handle effect state).takeTags entity
          effect.definition.tags.granted.tags).2.1.modify handle.target fun entity =>
            { entity with effects := (entity.effects.remove handle.id).2 } := by
  cases found : (world.detached handle effect state).entity? handle.target with
  | none | some =>
    show Prod.fst (match (world.detached handle effect state).entity? handle.target with
      | none => _
      | some entity => _) = _
    rw [found]
    rfl

/-- Marking an effect as ended and detaching its modifiers. -/
theorem alters_detached (world : World) (handle : EffectHandle) (effect : Effect)
    (state : EffectState) : world.Alters (world.detached handle effect state) handle.target
      fun entity => (entity.onEffects (·.modify handle.id (·.ended state))).onSheet
        (Entity.detachAll effect.id.source) :=
  ((alters_modifyEffect world handle (·.ended state)).trans
    (alters_cancelCues _ handle.target effect.cues)).trans (alters_changeSheet _ handle.target _)

/-- The effect at a place is what the roster there stores. -/
theorem effect?_eq {entity : Entity} (found : world.entity? handle.target = some entity) :
    world.effect? handle = entity.effects.get? handle.id := by
  rw [effect?, found]
  rfl

/-- An effect is found on a registered entity, under its number. -/
theorem of_effect? {effect : Effect} (found : world.effect? handle = some effect) :
    ∃ entity, world.entity? handle.target = some entity ∧
      entity.effects.get? handle.id = some effect ∧ effect.id = handle.id := by
  obtain ⟨entity, registered, stored⟩ := Option.bind_eq_some_iff.1 found
  exact ⟨entity, registered, stored, (EffectRoster.mem_of_get? stored).2⟩

/-- An effect that is found is live when its state is. -/
theorem isLive_eq {effect : Effect} (found : world.effect? handle = some effect) :
    world.isLive handle = effect.isLive := by
  rw [isLive, found, Option.any_some]

/-- An effect that is not found is not live. -/
theorem isLive_of_missing (missing : world.effect? handle = none) :
    world.isLive handle = false := by
  rw [isLive, missing, Option.any_none]

/-- An effect that is live is found in a live state. -/
theorem exists_of_isLive (live : world.isLive handle = true) :
    ∃ effect, world.effect? handle = some effect ∧ effect.isLive = true :=
  (Option.any_eq_true _ _).1 live

/-- Committing values. -/
theorem alters_commit (world : World) (id : EntityId) :
    world.Alters (world.commit id).1 id (·.onSheet AttributeSheet.recalculateDirty) :=
  alters_changeSheet world id _

/-- Telling modifiers their stack count. -/
theorem alters_spreadStacks (world : World) {effect : Effect} (same : effect.id = handle.id) :
    world.Alters (world.spreadStacks handle effect).1 handle.target
      (·.onSheet (Entity.spreadAll handle.id.source effect.stackCount)) := by
  rw [← same]
  exact alters_changeSheet world handle.target _

/-- The tracked magnitudes that a refresh writes. -/
def renewals (world : World) (handle : EffectHandle) : List (Nat × AttributeId × Float32) :=
  match world.effect? handle with
  | none => []
  | some effect => world.trackedMagnitudes effect

/-- The tracked magnitudes of an effect belong to tracked slots. -/
theorem tracks_trackedMagnitudes (world : World) (effect : Effect) :
    effect.Tracks (world.trackedMagnitudes effect) := by
  intro slot attr magnitude member
  obtain ⟨⟨modifier, other⟩, kept, same⟩ := List.mem_map.1 member
  obtain ⟨listed, tracked⟩ := List.mem_filter.1 kept
  cases same
  exact ⟨modifier, by simpa using List.mem_zipIdx_iff_getElem?.1 listed, rfl,
    by simpa using tracked⟩

/-- Renewing tracked magnitudes changes nothing but entities. -/
theorem refreshTracked_withRegistry (world : World) (handle : EffectHandle) :
    ∃ entities, world.refreshTracked handle =
      world.withRegistry { world.registry with entities } := by
  unfold refreshTracked
  cases world.effect? handle with
  | none => exact ⟨_, rfl⟩
  | some effect =>
    dsimp only
    generalize world.trackedMagnitudes effect = updates
    induction updates generalizing world with
    | nil => exact ⟨_, rfl⟩
    | cons update rest ih => exact ih _

/-- Renewing tracked magnitudes. -/
theorem alters_refreshTracked (world : World) (handle : EffectHandle) :
    world.Alters (world.refreshTracked handle) handle.target
      (·.tracking handle.id (world.renewals handle)) := by
  have renewEach : ∀ (updates : List (Nat × AttributeId × Float32)) (world : World),
      world.Alters (updates.foldl (fun world (slot, attr, magnitude) =>
        (world.modifyEffect handle (·.setMagnitude slot magnitude)).modify handle.target
          fun entity => { entity with
            attributes := entity.attributes.setMagnitude attr handle.id.source slot magnitude })
        world) handle.target (·.tracking handle.id updates) := by
    intro updates
    induction updates with
    | nil => exact fun world => .refl world handle.target
    | cons update rest ih =>
      intro world
      exact ((alters_modifyEffect world handle _).trans (alters_modify _ handle.target _)).trans
        (ih _)
  unfold refreshTracked renewals
  cases found : world.effect? handle with
  | none => exact .refl world handle.target
  | some effect =>
    obtain ⟨_, _, _, same⟩ := of_effect? found
    have renewed := renewEach (world.trackedMagnitudes effect) world
    rw [← same] at renewed ⊢
    exact renewed

/-- The effect that was touched is found in its touched form. -/
theorem effect?_modifyEffect {effect : Effect} (found : world.effect? handle = some effect)
    {touched : Effect} (same : touched.id = handle.id) :
    (world.modifyEffect handle fun _ => touched).effect? handle = some touched := by
  obtain ⟨entity, registered, stored, _⟩ := of_effect? found
  have placed := (alters_modifyEffect world handle fun _ => touched).self registered
  rw [effect?_eq placed]
  exact EffectRoster.get?_replace stored same

/-- What was touched and renewed is found so. -/
theorem effect?_touching {after : World} {change : Entity → Entity} {effect touched : Effect}
    {updates : List (Nat × AttributeId × Float32)}
    (alters : world.Alters after handle.target change)
    (touches : ∀ entity, (change entity).effects =
      (entity.touching handle.id touched updates).effects)
    (found : world.effect? handle = some effect) (same : touched.id = handle.id) :
    after.effect? handle = some (touched.renewed updates) := by
  obtain ⟨entity, registered, stored, _⟩ := of_effect? found
  have renewed : (touched.renewed updates).id = handle.id := by
    rw [Effect.renewed_eq]
    exact same
  rw [effect?_eq (alters.self registered), touches, Entity.effects_touching same]
  exact EffectRoster.get?_replace stored renewed

/-- Touching an effect. -/
theorem alters_touch (world : World) (handle : EffectHandle) (touched : Effect) :
    world.Alters (world.modifyEffect handle fun _ => touched) handle.target
      (·.touching handle.id touched []) :=
  alters_modifyEffect world handle fun _ => touched

/-- Touching an effect and renewing its tracked magnitudes. -/
theorem alters_track {effect : Effect} (found : world.effect? handle = some effect)
    {touched : Effect} (same : touched.id = handle.id) :
    ∃ updates, touched.Tracks updates ∧
      world.Alters ((world.modifyEffect handle fun _ => touched).refreshTracked handle)
        handle.target (·.touching handle.id touched updates) := by
  refine ⟨_, ?_, (alters_touch world handle touched).trans (alters_refreshTracked _ handle)⟩
  unfold renewals
  rw [effect?_modifyEffect found same]
  exact tracks_trackedMagnitudes _ touched

/-- Touching an effect and telling its modifiers their stack count. -/
theorem alters_restack {middle : World} {touched counted : Effect}
    {updates : List (Nat × AttributeId × Float32)}
    (alters : world.Alters middle handle.target (·.touching handle.id touched updates))
    (same : counted.id = handle.id) (count : counted.stackCount = touched.stackCount) :
    world.Alters (middle.spreadStacks handle counted).1 handle.target
      (·.restacking handle.id touched updates) := by
  have spread := alters.trans (alters_spreadStacks middle same)
  rw [count] at spread
  exact spread

/-- Letting an effect take hold. -/
theorem alters_takeHold (numbered : world.Numbered) (effect : Effect) :
    world.Alters (world.takeHold effect).1 effect.target (·.holding effect world.time) := by
  have attached := alters_attached world effect
  have still := attached.numbered numbered fun _ => rfl
  rw [world_takeHold]
  split
  · next missing =>
    refine attached.congr fun entity found => ?_
    cases (attached.self found).symm.trans missing
  · next entity found =>
    have placed := still _ _ found
    have gave := alters_giveTags (placed ▸ found) effect.definition.tags.granted.tags
    rw [placed] at gave
    exact (attached.trans gave).trans (alters_modify _ effect.target _)

/-- Writing modifiers of an instant effect. -/
theorem alters_writeEach (context : Context) (target : EntityId)
    (writes : List (Modifier × Float32)) (world : World) :
    ∃ change, world.Alters (world.writeEach context target writes).2.1 target change ∧
      ∀ entity : Entity, entity.Revalues (change entity) := by
  induction writes generalizing context world with
  | nil => exact ⟨_, .refl world target, .refl⟩
  | cons entry rest ih =>
    obtain ⟨modifier, magnitude⟩ := entry
    have first : ∃ change,
        world.Alters (world.writeOne context target modifier magnitude).2.1 target change ∧
          ∀ entity : Entity, entity.Revalues (change entity) := by
      unfold writeOne
      split
      · exact ⟨_, .refl world target, .refl⟩
      · split
        · exact ⟨_, alters_changeSheet world target _, fun entity =>
            .onSheet (AttributeSheet.revalues_setCurrent _ _ _)⟩
        · exact ⟨_, alters_changeSheet world target _, fun entity =>
            .onSheet (AttributeSheet.revalues_setBase _ _ _)⟩
    obtain ⟨change, alters, revalues⟩ := first
    obtain ⟨later, onward, others⟩ := ih (world.writeOne context target modifier magnitude).1
      (world.writeOne context target modifier magnitude).2.1
    exact ⟨_, alters.trans onward, fun entity => (revalues entity).trans (others _)⟩

/-- Writing an instant effect. -/
theorem alters_writeInstant (world : World) (application : Application) (target : EntityId) :
    ∃ change, world.Alters (world.writeInstant application target).2.1 target change ∧
      ∀ entity : Entity, entity.Revalues (change entity) :=
  alters_writeEach _ target _ world

/-- Releasing an effect. -/
theorem alters_release (numbered : world.Numbered) {effect : Effect}
    (found : world.effect? handle = some effect) (state : EffectState) :
    world.Alters (world.release handle effect state).1 handle.target
      (·.releasing handle.id effect.definition.tags.granted.tags state) := by
  obtain ⟨_, _, _, same⟩ := of_effect? found
  have detached := alters_detached world handle effect state
  have still := detached.numbered numbered fun _ => rfl
  rw [world_release]
  rw [same] at detached
  split
  · next missing =>
    refine detached.congr fun entity registered => ?_
    cases (detached.self registered).symm.trans missing
  · next entity registered =>
    have placed := still _ _ registered
    have took := alters_takeTags (placed ▸ registered) effect.definition.tags.granted.tags
    rw [placed] at took
    exact (detached.trans took).trans (alters_modify _ handle.target _)

end World

end SkillEngine
