import SkillEngine.Proofs.Counts
import SkillEngine.Proofs.Lifetime

/-!
# Granted tags

A live effect grants its target the tags that its definition lists. What a frame does to the count
of a tag on an entity is one of three things: a new entity of the number joins, a request edits its
held tags, or the count *moves* with the effects that grant the tag, up when one takes hold and down
when one ends.
-/

namespace SkillEngine

namespace World

/-- The entity that a request registers, if it does. -/
def candidate? (world : World) : Request → Option Entity
  | .spawn id => some (.ofTable id world.scene.table)
  | .register id rows tags => some (newEntity id rows tags)
  | _ => none

/-- The entity of a number that joins when a frame is taken, if one does. -/
def newcomer? (world : World) (id : EntityId) : Frame → Option Entity
  | .perform request => (world.candidate? request).filter fun entity =>
    entity.id == id && !world.registry.ticking && (world.registry.register entity).isOk
  | .endTick _ => world.registry.pendingAdd.reverse.find? (·.id == id)
  | _ => none

variable {world : World} {frame : Frame} {id : EntityId} {entity : Entity}

/-- Who is registered after an entity was registered on request. -/
theorem entity?_register {request : Request} {candidate : Entity}
    (asked : world.candidate? request = some candidate)
    (found : (world.join candidate).world.entity? id = some entity) :
    (∃ newcomer, world.newcomer? id (.perform request) = some newcomer ∧
      entity = newcomer.joined) ∨
    world.newcomer? id (.perform request) = none ∧ world.entity? id = some entity := by
  simp only [newcomer?, asked, Option.filter_some]
  unfold join Registry.register at found
  unfold Registry.register
  split at found
  · next registry accepted =>
    split at accepted
    · cases accepted
    · next free =>
      rw [if_neg free]
      split at accepted
      · next ticking =>
        cases accepted
        exact .inr ⟨by simp [ticking], found⟩
      · next idle =>
        cases accepted
        have joined : (if candidate.id = id then some candidate.joined
            else world.registry.entity? id) = some entity :=
          (Registry.entity?_join_eq world.registry candidate id).symm.trans found
        by_cases same : candidate.id = id
        · rw [if_pos same] at joined
          exact .inl ⟨candidate, by simp [same, idle, Except.isOk, Except.toBool],
            (Option.some.inj joined).symm⟩
        · rw [if_neg same] at joined
          exact .inr ⟨by simp [same], joined⟩
  · next error refused =>
    split at refused
    · next taken =>
      rw [if_pos taken]
      exact .inr ⟨by simp [Except.isOk, Except.toBool], found⟩
    · split at refused <;> cases refused

/-- Who is registered after a frame that registers and unregisters. -/
theorem entity?_enrol (reply : Reply) (enrols : frame.enrols = true)
    (found : (frame.expand world reply).world.entity? id = some entity) :
    (∃ newcomer, world.newcomer? id frame = some newcomer ∧ entity = newcomer.joined) ∨
      world.newcomer? id frame = none ∧ world.entity? id = some entity := by
  cases frame with
  | perform request =>
    cases request with
    | spawn => exact entity?_register rfl found
    | register => exact entity?_register rfl found
    | unregister leaver =>
      exact .inr ⟨rfl, (Registry.unregister_subset world.registry leaver).1 id entity found⟩
    | _ => cases enrols
  | beginTick seconds =>
    refine .inr ⟨rfl, ?_⟩
    simp only [Frame.expand, beginTick] at found
    split at found <;> exact found
  | endTick seconds =>
    have reached : (world.registry.endTick).entity? id = some entity := found
    unfold Registry.endTick at reached
    rw [Registry.entity?_joinEach_eq] at reached
    cases last : world.registry.pendingAdd.reverse.find? (·.id == id) with
    | some newcomer =>
      rw [last] at reached
      exact .inl ⟨newcomer, last, (Option.some.inj reached).symm⟩
    | none =>
      rw [last] at reached
      exact .inr ⟨last, Registry.entity?_leaveEach world.registry.pendingRemove reached⟩
  | _ => cases enrols

/-- What a request that edits held tags does. -/
theorem alters_edit (numbered : world.Numbered) {request : Request} {edit : TagRequest}
    (asked : request.tagEdit? = some (id, edit)) :
    world.Alters (world.perform request).world id fun entity =>
      { entity with tags := (edit.perform entity.tags).state } := by
  have retagged {absent : Reply} {change : Entity → Reply × World × List Event}
      (changes : ∀ entity, world.entity? id = some entity → world.Alters (change entity).2.1 id
        fun entity => { entity with tags := (edit.perform entity.tags).state }) :
      world.Alters (world.retag id absent change).world id
        fun entity => { entity with tags := (edit.perform entity.tags).state } := by
    unfold retag
    split
    · next missing => exact .absent missing
    · next entity found => exact changes entity found
  have gave {entity : Entity} (found : world.entity? id = some entity) (tags : List Tag) :
      world.Alters (world.giveTags entity tags).2.1 id (·.given tags) := by
    obtain rfl := numbered id entity found
    exact alters_giveTags found tags
  have took {entity : Entity} (found : world.entity? id = some entity) (tags : List Tag) :
      world.Alters (world.takeTags entity tags).2.1 id (·.deprived tags) := by
    obtain rfl := numbered id entity found
    exact alters_takeTags found tags
  cases request with
  | addTag _ tag =>
    cases asked
    exact retagged fun entity found => gave found [tag]
  | addTags _ tags =>
    cases asked
    exact retagged fun entity found => gave found tags.tags
  | removeTag _ tag =>
    cases asked
    exact retagged fun entity found => took found [tag]
  | removeTags _ tags =>
    cases asked
    exact retagged fun entity found => took found tags.tags
  | tags other request =>
    cases request with
    | error => cases asked
    | ok request =>
      cases asked
      unfold perform
      dsimp only
      split
      · next missing => exact .absent missing
      · next entity found =>
        refine ((alters_modify world id _).trans (alters_hear _ id _)).congr fun other stored => ?_
        rw [found] at stored
        cases stored
        rfl
  | _ => cases asked

end World

/-- How many live effects on an entity grant a tag. -/
def Entity.grants (entity : Entity) (tag : Tag) : Nat :=
  entity.effects.live.countP (·.definition.tags.granted.contains tag)

/-- The count of a tag on an entity and the number of effects that grant it go up together, or down
together as far as the count can. -/
def Entity.Moves (tag : Tag) (before after : Entity) : Prop :=
  ∃ gained lost, after.tags.count tag = before.tags.count tag + gained - lost ∧
    after.grants tag + lost = before.grants tag + gained

namespace Entity

variable {tag : Tag} {before after entity : Entity}

/-- Nothing has moved. -/
theorem Moves.of_eq (tags : after.tags = before.tags)
    (grants : after.grants tag = before.grants tag) : before.Moves tag after :=
  ⟨0, 0, by rw [tags]; rfl, grants⟩

/-- An entity is as it was. -/
theorem Moves.refl (entity : Entity) : entity.Moves tag entity := .of_eq rfl rfl

/-- Effects that are live under the same definitions grant the same tags. -/
theorem grants_congr (live : after.effects.live = before.effects.live) :
    after.grants tag = before.grants tag := by
  rw [grants, grants, live]

/-- Some effects without one of them. -/
theorem countP_without {effects : List Effect} (distinct : effects.Pairwise (·.id ≠ ·.id))
    {effect : Effect} (member : effect ∈ effects) (grants : Effect → Bool) :
    (effects.filter fun other => decide (other.id ≠ effect.id)).countP grants +
      (if grants effect then 1 else 0) = effects.countP grants := by
  induction effects with
  | nil => cases member
  | cons first rest ih =>
    obtain ⟨apart, others⟩ := List.pairwise_cons.1 distinct
    rcases List.mem_cons.1 member with rfl | later
    · have kept : rest.filter (fun other => decide (other.id ≠ effect.id)) = rest :=
        List.filter_eq_self.2 fun other stored => by simpa using (apart other stored).symm
      rw [List.filter_cons_of_neg (by simp), kept, List.countP_cons]
    · have differs : first.id ≠ effect.id := apart effect later
      rw [List.filter_cons_of_pos (by simpa using differs), List.countP_cons, List.countP_cons,
        ← ih others later]
      omega

/-- When an effect takes hold, what it grants is held once more. -/
theorem moves_holding (entity : Entity) {effect : Effect} (live : effect.isLive = true)
    (appliedAt : Float) : entity.Moves tag (entity.holding effect appliedAt) := by
  refine ⟨if effect.definition.tags.granted.contains tag then 1 else 0, 0, ?_, ?_⟩
  · have given := TagCounts.count_addEach entity.tags effect.definition.tags.granted.tags tag
    rw [TagSet.countP_tags] at given
    exact given
  · have stored : (entity.holding effect appliedAt).effects.live =
        entity.effects.live ++ [effect] := by
      show (entity.effects.effects ++ [effect]).filter _ = _
      rw [List.filter_append, List.filter_cons_of_pos (by exact live)]
      rfl
    rw [grants, stored, List.countP_append, List.countP_singleton]
    rfl

/-- When an effect ends, what it grants is held once less. -/
theorem moves_releasing {next : Nat} {owner : EntityId} (sound : entity.effects.Sound next owner)
    {key : EffectId} {effect : Effect} (found : entity.effects.get? key = some effect)
    (live : effect.isLive = true) {state : EffectState} (final : state.isTerminal = true) :
    entity.Moves tag (entity.releasing key effect.definition.tags.granted.tags state) := by
  obtain ⟨stored, rfl⟩ := EffectRoster.mem_of_get? found
  refine ⟨0, if effect.definition.tags.granted.contains tag then 1 else 0, ?_, ?_⟩
  · have taken := TagCounts.count_removeEach entity.tags effect.definition.tags.granted.tags tag
    rw [TagSet.countP_tags] at taken
    exact taken
  · have others : (entity.releasing effect.id effect.definition.tags.granted.tags
        state).effects.live =
        entity.effects.live.filter fun other => decide (other.id ≠ effect.id) :=
      EffectRoster.live_release sound final
    rw [grants, others]
    exact countP_without (sound.distinct.filter _) (List.mem_filter.2 ⟨stored, live⟩) _

/-- Touching an effect moves nothing. -/
theorem grants_touching {next : Nat} {owner : EntityId} (sound : entity.effects.Sound next owner)
    {key : EffectId} {effect touched : Effect} (found : entity.effects.get? key = some effect)
    (retouches : effect.Retouches touched) (updates : List (Nat × AttributeId × Float32)) :
    (entity.touching key touched updates).grants tag = entity.grants tag := by
  obtain ⟨_, same⟩ := EffectRoster.mem_of_get? found
  have live : (touched.renewed updates).isLive = effect.isLive := by
    rw [Effect.renewed_eq]
    exact retouches.live
  have definition : (touched.renewed updates).definition = effect.definition := by
    rw [Effect.renewed_eq]
    exact retouches.becomes.definition
  rw [grants, effects_touching (retouches.becomes.id.trans same), EffectRoster.live_modify sound,
    List.countP_map, grants]
  · refine List.countP_congr fun other member => ?_
    simp only [Function.comp]
    split
    · next equal =>
      have stored := sound.get?_eq (List.mem_of_mem_filter member)
      rw [equal, found] at stored
      cases stored
      rw [definition]
    · rfl
  · intro other stored
    rw [found] at stored
    cases stored
    exact live

end Entity

namespace World

variable {world after : World} {frame : Frame} {id : EntityId} {change : Entity → Entity}
  {tag : Tag} {admits : Request → Prop}

/-- A deed moves the tags that the effect that it ends grants. -/
theorem Deed.moves (deed : world.Deed frame id change) (sound : world.Sound)
    (admitted : frame.Admitted admits) {entity : Entity}
    (registered : world.entity? id = some entity) : entity.Moves tag (change entity) := by
  have roster := sound.rosters _ _ registered
  cases deed with
  | still | begin | sheet => exact .refl _
  | touch found retouches =>
    rw [effect?_eq registered] at found
    exact .of_eq (Entity.tags_tracking _ _ _) (Entity.grants_touching roster found retouches _)
  | restack found retouches =>
    rw [effect?_eq registered] at found
    exact .of_eq (Entity.tags_tracking _ _ _) (Entity.grants_touching roster found retouches _)
  | release found live =>
    rw [effect?_eq registered] at found
    exact Entity.moves_releasing roster found live admitted.isTerminal
  | finish => exact .of_eq rfl (Entity.grants_congr (EffectRoster.live_endTick roster))
  | write revalues =>
    have written := revalues entity
    exact .of_eq written.tags (Entity.grants_congr (congrArg EffectRoster.live written.effects))

/-- A frame that registers and unregisters nobody and edits no held tags moves tags at most. -/
theorem Turn.moves (turn : world.Turn frame after) (sound : world.Sound)
    (admitted : frame.Admitted admits) (plain : frame.enrols = false)
    (unasked : ∀ request, frame = .perform request → request.tagEdit? = none) {entity : Entity}
    (found : after.entity? id = some entity) :
    ∃ earlier, world.entity? id = some earlier ∧ earlier.Moves tag entity := by
  cases turn with
  | quiet quiet =>
    have same : after.entity? id = world.entity? id :=
      congrArg (Registry.entity? · id) quiet.registry
    exact ⟨entity, same.symm.trans found, .refl entity⟩
  | drain => exact ⟨entity, found, .refl entity⟩
  | alter alters deed =>
    obtain ⟨earlier, stored, rfl⟩ := alters.origin found
    refine ⟨earlier, stored, ?_⟩
    split
    · next same => exact deed.moves sound admitted (same ▸ stored)
    · exact .refl earlier
  | retag _ _ _ asked =>
    rw [unasked _ rfl] at asked
    cases asked
  | hold alters =>
    obtain ⟨earlier, stored, rfl⟩ := alters.origin found
    refine ⟨earlier, stored, ?_⟩
    split
    · exact earlier.moves_holding rfl _
    · exact .refl earlier
  | regroup _ enrols => cases plain.symm.trans enrols

end World

end SkillEngine
