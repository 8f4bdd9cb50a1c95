import SkillEngine.Proofs.Edits
import SkillEngine.Proofs.Prompt

/-!
# What frames make of rosters

`World.Remakes` lists what a frame can make of the roster of an entity when the built-in nodes are
run: an instance is stored or ends, the tick of the entity begins or ends, or instances change in
their places and stay as live as they were. `Frame.edit` says which of these a frame does, and does
it to any roster: to the one that is there, and just as well to its prompt form, where what ends is
dropped at once. The two stay in step.
-/

namespace SkillEngine

namespace Frame

/-- The frame stores and ends no instance, and neither begins nor ends the tick of an entity. -/
def isInPlace : Frame → Bool
  | .attach .. | .finish .. | .tickEntity .. | .endEntityTick _ => false
  | _ => true

/-- What a frame does to the roster of an entity: an instance is stored or ends, the tick begins or
ends, or else the instances become in their places what they are in the world after the frame. -/
def edit (frame : Frame) (world after : World) (id : EntityId) (roster : EffectRoster) :
    EffectRoster :=
  match frame with
  | .attach application target duration =>
    if target = id then roster.insert (world.newEffect application target duration) else roster
  | .finish handle state _ =>
    if handle.target = id ∧ (roster.get? handle.id).any (·.isLive) = true then
      roster.release handle.id state
    else roster
  | .tickEntity target _ => if target = id then roster.beginTick.2 else roster
  | .endEntityTick target => if target = id then roster.endTick else roster
  | _ => roster.update fun effect => (after.effect? ⟨id, effect.id⟩).getD effect

end Frame

namespace World

/-- What a frame can make of the roster of an entity. -/
inductive Remakes (world : World) (frame : Frame) (id : EntityId) (roster : EffectRoster) :
    EffectRoster → Prop where
  /-- Instances are changed in their places. -/
  | update {change : Effect → Effect} (kept : ∀ effect ∈ roster.effects,
      (change effect).id = effect.id ∧ (change effect).isLive = effect.isLive) :
      world.Remakes frame id roster (roster.update change)
  /-- A new instance is stored. -/
  | insert {application : Application} {duration : Float32}
      (attaches : frame = .attach application id duration) :
      world.Remakes frame id roster (roster.insert (world.newEffect application id duration))
  /-- A live instance ends. -/
  | release {key : EffectId} {state : EffectState} {fires : Bool} {effect : Effect}
      (ends : frame = .finish ⟨id, key⟩ state fires) (found : roster.get? key = some effect)
      (live : effect.isLive = true) : world.Remakes frame id roster (roster.release key state)
  /-- Its tick begins. -/
  | begin {seconds : Float32} (ticks : frame = .tickEntity id seconds) :
      world.Remakes frame id roster roster.beginTick.2
  /-- Its tick ends. -/
  | finish (ends : frame = .endEntityTick id) : world.Remakes frame id roster roster.endTick

variable {world after : World} {frame : Frame} {id : EntityId} {roster later : EffectRoster}

/-- Nothing is made of a roster. -/
theorem Remakes.refl (roster : EffectRoster) : world.Remakes frame id roster roster := by
  have same : roster.update (fun effect => effect) = roster := by
    unfold EffectRoster.update
    rw [List.map_id']
  have remakes : world.Remakes frame id roster (roster.update fun effect => effect) :=
    .update fun _ _ => ⟨rfl, rfl⟩
  rwa [same] at remakes

/-- An instance is replaced by one of its number that is as live. -/
theorem Remakes.modify {next : Nat} {owner : EntityId} (sound : roster.Sound next owner)
    {key : EffectId} {before touched : Effect} (found : roster.get? key = some before)
    (number : touched.id = before.id) (live : touched.isLive = before.isLive) :
    world.Remakes frame id roster (roster.modify key fun _ => touched) := by
  have replaced : roster.modify key (fun _ => touched) =
      roster.update fun effect => if effect.id = key then touched else effect := by
    unfold EffectRoster.modify EffectRoster.update
    rw [EffectRoster.changeFirst_eq_map sound.distinct]
  rw [replaced]
  refine .update fun effect stored => ?_
  by_cases same : effect.id = key
  · have placed := sound.get?_eq stored
    rw [same, found] at placed
    cases placed
    rw [if_pos same]
    exact ⟨number, live⟩
  · rw [if_neg same]
    exact ⟨rfl, rfl⟩

/-- What a deed makes of the roster of its entity. -/
theorem Deed.remakes {change : Entity → Entity} (deed : world.Deed frame id change)
    (sound : world.Sound) {entity : Entity} (registered : world.entity? id = some entity) :
    world.Remakes frame id entity.effects (change entity).effects := by
  have sorted := sound.rosters _ _ registered
  have touching {handle : EffectHandle} {effect touched : Effect}
      {updates : List (Nat × AttributeId × Float32)}
      (registered : world.entity? handle.target = some entity)
      (found : world.effect? handle = some effect) (retouches : effect.Retouches touched) :
      world.Remakes frame handle.target entity.effects
        (entity.touching handle.id touched updates).effects := by
    rw [effect?_eq registered] at found
    have same := retouches.becomes.id.trans (EffectRoster.mem_of_get? found).2
    rw [Entity.effects_touching same]
    refine .modify (sound.rosters _ _ registered) found ?_ ?_
    · rw [Effect.renewed_eq]
      exact retouches.becomes.id
    · rw [Effect.renewed_eq]
      exact retouches.live
  cases deed with
  | still => exact .refl _
  | touch found retouches => exact touching registered found retouches
  | restack found retouches => exact touching registered found retouches
  | release found live =>
    rw [effect?_eq registered] at found
    exact .release rfl found live
  | begin => exact .begin rfl
  | finish => exact .finish rfl
  | write revalues =>
    rw [(revalues entity).effects]
    exact .refl _
  | sheet => exact .refl _

/-- A change of one entity that remakes its roster. -/
theorem Alters.remakes {before : World} {target : EntityId} {change : Entity → Entity}
    (alters : before.Alters after target change) (same : before.entity? = world.entity?)
    (remakes : ∀ entity, world.entity? target = some entity →
      world.Remakes frame target entity.effects (change entity).effects)
    (found : world.roster? id = some roster) :
    ∃ later, after.roster? id = some later ∧ world.Remakes frame id roster later := by
  obtain ⟨entity, registered, rfl⟩ := Option.map_eq_some_iff.1 found
  unfold roster?
  rw [alters.entity?, same, registered]
  by_cases here : id = target
  · subst here
    rw [if_pos rfl]
    exact ⟨_, rfl, remakes entity registered⟩
  · rw [if_neg here]
    exact ⟨_, rfl, .refl _⟩

/-- What a turn that registers and unregisters nobody makes of a roster. -/
theorem Turn.remakes (turn : world.Turn frame after) (sound : world.Sound)
    (plain : frame.enrols = false) (found : world.roster? id = some roster) :
    ∃ later, after.roster? id = some later ∧ world.Remakes frame id roster later := by
  cases turn with
  | quiet quiet =>
    refine ⟨roster, ?_, .refl roster⟩
    have same : after.registry = world.registry := quiet.registry
    change (after.registry.entity? id).map _ = _
    rw [same]
    exact found
  | drain => exact ⟨roster, found, .refl roster⟩
  | alter alters deed =>
    exact alters.remakes rfl (fun _ registered => deed.remakes sound registered) found
  | retag _ alters => exact alters.remakes rfl (fun _ _ => .refl _) found
  | hold alters => exact alters.remakes rfl (fun _ _ => .insert rfl) found
  | regroup _ enrols => cases plain.symm.trans enrols

/-- Every roster after a frame was made of one that was there, or its entity has just come. -/
theorem remade_expand (sound : world.Sound) (reply : Reply)
    (admitted : frame.Admitted fun request => request.isLawful = true)
    (found : (frame.expand world reply).world.roster? id = some later) :
    frame.enrols = true ∧ later = .empty ∨
      ∃ earlier, world.roster? id = some earlier ∧ world.Remakes frame id earlier later := by
  cases enrols : frame.enrols with
  | true =>
    rcases (musters_expand world reply enrols).rosters id later found with before | new
    · exact .inr ⟨later, before, .refl later⟩
    · obtain ⟨newcomer, origin, rfl⟩ := new
      exact .inl ⟨rfl, origin.elim (sound.waiting newcomer) fun blank => blank⟩
  | false =>
    -- That the roster was there is known of any frame, that what is live stays so only of a turn.
    obtain ⟨target, edit, _, edits⟩ := editsOnce_expand world reply enrols
    obtain ⟨earlier, there, _⟩ := edits.origin found
    obtain ⟨other, same, remakes⟩ := (turn_expand sound reply admitted).remakes sound enrols there
    cases found.symm.trans same
    exact .inr ⟨earlier, there, remakes⟩

/-- What a frame makes of an exact roster is exact. -/
theorem Remakes.exact (remakes : world.Remakes frame id roster later)
    (sound : roster.Sound world.nextEffect id)
    (admitted : frame.Admitted fun request => request.isLawful = true) (exact : roster.Exact) :
    later.Exact := by
  cases remakes with
  | update kept => exact exact.update kept
  | insert => exact exact.insert sound rfl rfl
  | release ends found live =>
    subst ends
    exact exact.release sound found live admitted.isTerminal
  | begin => exact ⟨exact.ended, exact.stored, exact.once, fun idle => by cases idle⟩
  | finish =>
    rw [exact.endTick]
    exact roster.exact_prompt

/-- A roster that is in a tick was so before, or the frame has begun its tick. -/
theorem Remakes.ticking (remakes : world.Remakes frame id roster later)
    (ticks : later.ticking = true) :
    roster.ticking = true ∨ ∃ seconds, frame = .tickEntity id seconds := by
  cases remakes with
  | update | insert => exact .inl ticks
  | release => exact .inl ((EffectRoster.ticking_release _ _ _).symm.trans ticks)
  | begin begins => exact .inr ⟨_, begins⟩
  | finish => cases ticks

/-- Every roster is exact. -/
def Exact (world : World) : Prop := ∀ id roster, world.roster? id = some roster → roster.Exact

/-- A frame keeps rosters exact. -/
theorem Exact.expand (exact : world.Exact) (sound : world.Sound) (reply : Reply)
    (admitted : frame.Admitted fun request => request.isLawful = true) :
    (frame.expand world reply).world.Exact := by
  intro id later found
  rcases remade_expand sound reply admitted found with ⟨_, rfl⟩ | ⟨earlier, there, remakes⟩
  · exact EffectRoster.exact_empty
  · obtain ⟨entity, registered, rfl⟩ := Option.map_eq_some_iff.1 there
    exact remakes.exact (sound.rosters id entity registered) admitted (exact id _ there)

/-- Where a frame changes instances in their places, they become what the world has for them after
it, and what is live stays so. -/
theorem Remakes.update_eq (remakes : world.Remakes frame id roster later)
    (inPlace : frame.isInPlace = true) (sound : roster.Sound world.nextEffect id)
    (found : after.roster? id = some later) :
    later = (roster.update fun effect => (after.effect? ⟨id, effect.id⟩).getD effect) ∧
      ∀ effect ∈ roster.effects,
        ((after.effect? ⟨id, effect.id⟩).getD effect).isLive = effect.isLive := by
  cases remakes with
  | @update change kept =>
    have become : ∀ effect ∈ roster.effects,
        (after.effect? ⟨id, effect.id⟩).getD effect = change effect := fun effect stored => by
      rw [effect?_eq_roster, found, Option.bind_some,
        EffectRoster.get?_update (fun other member => (kept other member).1),
        sound.get?_eq stored]
      rfl
    refine ⟨?_, fun effect stored => ?_⟩
    · exact congrArg (fun effects => { roster with effects })
        (List.map_congr_left fun effect stored => (become effect stored).symm)
    · rw [become effect stored]
      exact (kept effect stored).2
  | insert attaches =>
    subst attaches
    cases inPlace
  | release ends =>
    subst ends
    cases inPlace
  | begin begins =>
    subst begins
    cases inPlace
  | finish ends =>
    subst ends
    cases inPlace

/-- Ending an effect releases it, if it is found live on the roster. -/
theorem roster?_finish (found : world.roster? id = some roster) (handle : EffectHandle)
    (state : EffectState) (fires : Bool) : (world.finish handle state fires).world.roster? id =
      some (if handle.target = id ∧ (roster.get? handle.id).any (·.isLive) = true then
        roster.release handle.id state else roster) := by
  have lives (here : handle.target = id) :
      (roster.get? handle.id).any (·.isLive) = world.isLive handle := by
    rw [isLive, effect?_eq_roster, here, found]
    rfl
  cases live : world.isLive handle with
  | true =>
    obtain ⟨effect, there, alive⟩ := (Option.any_eq_true _ _).1 live
    rw [(edits_finish there alive state fires).onto found]
    by_cases here : handle.target = id
    · rw [if_pos here, if_pos ⟨here, (lives here).trans live⟩]
    · rw [if_neg here, if_neg fun both => here both.1]
  | false =>
    rw [finish_of_not_isLive live]
    refine found.trans (congrArg some (if_neg fun both => ?_).symm)
    exact absurd (both.2.symm.trans ((lives both.1).trans live)) (by decide)

section Edit

variable (sound : world.Sound) (reply : Reply)
  (admitted : frame.Admitted fun request => request.isLawful = true)
  (plain : frame.enrols = false) (found : world.roster? id = some roster)

include sound admitted plain found

/-- A frame that changes instances in their places. -/
theorem edit_of_isInPlace (inPlace : frame.isInPlace = true) :
    (frame.expand world reply).world.roster? id = some (roster.update fun effect =>
        ((frame.expand world reply).world.effect? ⟨id, effect.id⟩).getD effect) ∧
      ∀ effect ∈ roster.effects,
        (((frame.expand world reply).world.effect? ⟨id, effect.id⟩).getD effect).isLive =
          effect.isLive := by
  obtain ⟨later, there, remakes⟩ := (turn_expand sound reply admitted).remakes sound plain found
  obtain ⟨entity, registered, rfl⟩ := Option.map_eq_some_iff.1 found
  obtain ⟨same, lives⟩ := remakes.update_eq inPlace (sound.rosters id entity registered) there
  exact ⟨there.trans (congrArg some same), lives⟩

/-- A frame does to the roster that is there what it is said to do. -/
theorem roster?_expand : (frame.expand world reply).world.roster? id =
    some (frame.edit world (frame.expand world reply).world id roster) := by
  cases frame with
  | attach application target duration =>
    exact (edits_attach world application target duration).onto found
  | finish handle state fires => exact roster?_finish found handle state fires
  | tickEntity target seconds => exact (edits_tickEntity world target seconds).onto found
  | endEntityTick target => exact (edits_endEntityTick world target).onto found
  | _ => exact (edit_of_isInPlace sound reply admitted plain found rfl).1

/-- What a frame does to an exact roster and to its prompt form, kept out of its tick, agrees. -/
theorem prompt_edit (exact : roster.Exact) :
    (frame.edit world (frame.expand world reply).world id roster).prompt =
      (frame.edit world (frame.expand world reply).world id roster.prompt).idled := by
  obtain ⟨entity, registered, rfl⟩ := Option.map_eq_some_iff.1 found
  cases frame with
  | attach application target duration =>
    dsimp only [Frame.edit]
    split
    · exact EffectRoster.prompt_insert rfl
    · rfl
  | finish handle state fires =>
    have sorted := sound.rosters id entity registered
    dsimp only [Frame.edit]
    rw [EffectRoster.any_isLive_prompt sorted]
    split
    · rw [EffectRoster.prompt_release sorted admitted.isTerminal,
        EffectRoster.idled_of_idle (EffectRoster.ticking_release _ _ _)]
    · rfl
  | tickEntity target seconds =>
    dsimp only [Frame.edit]
    split <;> rfl
  | endEntityTick target =>
    dsimp only [Frame.edit]
    split
    · rw [exact.endTick, (EffectRoster.exact_prompt _).endTick]
      rfl
    · rfl
  | _ =>
    have lives := (edit_of_isInPlace sound reply admitted plain found rfl).2
    exact EffectRoster.prompt_update lives

end Edit

end World

end SkillEngine
