import SkillEngine.Proofs.CueStages
import SkillEngine.Proofs.Edits
import SkillEngine.Proofs.Protocol
import SkillEngine.Proofs.Visits

/-!
# Who owns a cue

A live effect *holds* a cue that it owns, and goes on holding it until the step in which it is no
longer live, and in that step the cue is stopped: when the effect ends, when its entity leaves at
once, and when its entity leaves at the end of a tick. So a cue that a live effect has taken along
never outlives it. One that is started when its owner is over already is taken along by nobody.
-/

namespace SkillEngine

namespace World

/-- An effect is live and owns a cue. -/
def Holds (world : World) (owner : EffectHandle) (cue : CueId) : Prop :=
  ∃ roster, world.roster? owner.target = some roster ∧ ∃ effect ∈ roster.effects,
    effect.id = owner.id ∧ effect.isLive = true ∧ cue ∈ effect.cues

variable {world after : World} {frame : Frame} {id : EntityId} {owner : EffectHandle} {cue : CueId}
  {edit : EffectRoster → EffectRoster}

/-- In a sound world the effect is found. -/
theorem Holds.found (holds : world.Holds owner cue) (sound : world.Sound) :
    ∃ effect, world.effect? owner = some effect ∧ effect.isLive = true ∧ cue ∈ effect.cues := by
  obtain ⟨roster, there, effect, stored, number, live, owns⟩ := holds
  obtain ⟨entity, registered, rfl⟩ := Option.map_eq_some_iff.1 there
  refine ⟨effect, ?_, live, owns⟩
  rw [effect?_eq registered, ← number]
  exact (sound.rosters _ _ registered).get?_eq stored

/-- An effect that is found live with a cue holds it. -/
theorem holds_of_found {effect : Effect} (found : world.effect? owner = some effect)
    (live : effect.isLive = true) (owns : cue ∈ effect.cues) : world.Holds owner cue := by
  obtain ⟨entity, registered, stored, number⟩ := of_effect? found
  refine ⟨entity.effects, ?_, effect, (EffectRoster.mem_of_get? stored).1, number, live, owns⟩
  rw [roster?, registered]
  rfl

/-- A live effect that is touched stays live and keeps its cues. -/
theorem Touches.keeps {handle : EffectHandle} {before touched : Effect}
    (touches : world.Touches frame handle before touched) (live : before.isLive = true) :
    touched.isLive = true ∧ ∀ cue ∈ before.cues, cue ∈ touched.cues := by
  cases touches with
  | owning => exact ⟨live, fun cue owns => List.mem_append_left _ owns⟩
  | stacked =>
    rw [Effect.renewed_eq]
    unfold Effect.restack Effect.restartDuration Effect.refresh
    dsimp only
    split <;> exact ⟨rfl, fun _ owns => owns⟩
  | spent | lessened | restarted => exact ⟨live, fun _ owns => owns⟩
  | ticked =>
    rw [Effect.renewed_eq]
    unfold Effect.advance
    split
    · exact ⟨live, fun _ owns => owns⟩
    · exact ⟨rfl, fun _ owns => owns⟩

/-- Where a live effect is stored, an edit leaves it live and with its cues, or ends it. -/
theorem Edit.keeps (done : world.Edit frame id edit) (sound : world.Sound)
    (admitted : frame.Admitted fun request => request.isLawful = true) {roster : EffectRoster}
    (there : world.roster? id = some roster) {effect : Effect} (stored : effect ∈ roster.effects)
    (live : effect.isLive = true) :
    (∃ after ∈ (edit roster).effects, after.id = effect.id ∧ after.isLive = true ∧
      ∀ cue ∈ effect.cues, cue ∈ after.cues) ∨
      ∃ state fires, frame = .finish ⟨id, effect.id⟩ state fires := by
  obtain ⟨entity, registered, rfl⟩ := Option.map_eq_some_iff.1 there
  have sorted := sound.rosters _ _ registered
  have kept {roster : EffectRoster} (member : effect ∈ roster.effects) :
      ∃ after ∈ roster.effects, after.id = effect.id ∧ after.isLive = true ∧
        ∀ cue ∈ effect.cues, cue ∈ after.cues :=
    ⟨effect, member, rfl, live, fun _ owns => owns⟩
  cases done with
  | still | begin => exact .inl (kept stored)
  | @touch _ handle before touched found touches =>
    left
    rw [effect?_eq registered] at found
    have moved : (if effect.id = handle.id then touched else effect) ∈
        (entity.effects.modify handle.id fun _ => touched).effects := by
      rw [EffectRoster.modify, EffectRoster.changeFirst_eq_map sorted.distinct]
      exact List.mem_map.2 ⟨effect, stored, rfl⟩
    by_cases same : effect.id = handle.id
    · rw [if_pos same] at moved
      rw [← same, sorted.get?_eq stored] at found
      cases found
      exact ⟨touched, moved, touches.number, touches.keeps live⟩
    · rw [if_neg same] at moved
      exact kept moved
  | @release handle state fires before found lives =>
    by_cases same : effect.id = handle.id
    · exact .inr ⟨state, fires, by rw [same]⟩
    · left
      refine kept ?_
      have moved : effect ∈ (entity.effects.modify handle.id (·.ended state)).effects := by
        rw [EffectRoster.modify, EffectRoster.changeFirst_eq_map sorted.distinct]
        exact List.mem_map.2 ⟨effect, stored, if_neg same⟩
      exact EffectRoster.mem_remove_of_ne moved same
  | insert => exact .inl (kept (List.mem_append_left _ stored))
  | finish =>
    refine .inl (kept (List.mem_filter.2 ⟨stored, ?_⟩))
    cases queued : entity.effects.queued.contains effect.id with
    | false => rfl
    | true =>
      have ended := sorted.queuedOver effect stored (List.contains_iff_mem.1 queued)
      exact absurd (live.symm.trans ended) (by decide)
  | @asked _ request =>
    rcases admitted with reading | nested
    · left
      cases request <;> first | exact kept stored | cases reading
    · cases nested

/-- What ends an effect stops its cues. -/
theorem Holds.stopped (holds : world.Holds owner cue) (sound : world.Sound) (state : EffectState)
    (fires : Bool) : (world.finish owner state fires).world.cues.isRunning cue = false := by
  obtain ⟨effect, found, live, owns⟩ := holds.found sound
  simp only [finish_of_live found live, Progress.told, cues_release]
  exact CueStage.not_isRunning_cancelEach _ owns

/-- When nobody is registered or unregistered, a cue that is held is held on or stopped. -/
theorem Holds.expand (holds : world.Holds owner cue) (sound : world.Sound) (reply : Reply)
    (admitted : frame.Admitted fun request => request.isLawful = true)
    (plain : frame.enrols = false) :
    (frame.expand world reply).world.Holds owner cue ∨
      (frame.expand world reply).world.cues.isRunning cue = false := by
  obtain ⟨roster, there, effect, stored, number, live, owns⟩ := id holds
  obtain ⟨id, edit, done, edits⟩ := editsOnce_expand world reply plain
  by_cases here : owner.target = id
  · subst here
    rcases done.keeps sound admitted there stored live with
      ⟨after, member, same, lives, takes⟩ | ⟨state, fires, ends⟩
    · exact .inl ⟨edit roster, edits.self there, after, member, same.trans number, lives,
        takes cue owns⟩
    · rw [number] at ends
      subst ends
      exact .inr (holds.stopped sound state fires)
  · exact .inl ⟨roster, (edits _).trans ((if_neg here).trans there), effect, stored, number, live,
      owns⟩

/-- Whoever is registered stays as it is when others join and leave, or it leaves and the cues of
its live effects are stopped. -/
theorem stays_or_stopped (orderly : world.registry.Orderly) (reply : Reply)
    (enrols : frame.enrols = true) {entity : Entity} (found : world.entity? id = some entity) :
    (frame.expand world reply).world.entity? id = some entity ∨
      ∀ cue ∈ entity.ownedCues,
        (frame.expand world reply).world.cues.isRunning cue = false := by
  have present : world.registry.contains id = true := Option.isSome_iff_exists.2 ⟨entity, found⟩
  have joins (newcomer : Entity) :
      (world.join newcomer).world.entity? id = some entity := by
    show (world.join newcomer).world.registry.entity? id = some entity
    rw [registry_join]
    cases taken : world.registry.willContain newcomer.id with
    | true => rwa [Registry.registering_of_taken taken]
    | false =>
      rw [Registry.registering_of_free taken]
      cases running : world.registry.ticking with
      | true => exact found
      | false =>
        have apart : newcomer.id ≠ id := by
          rintro rfl
          have nobody := (orderly.idle running).2
          simp [Registry.willContain, nobody, present] at taken
        rw [if_neg (by decide), Registry.entity?_join_eq, if_neg apart]
        exact found
  cases frame with
  | perform request =>
    cases request with
    | spawn | register => exact .inl (joins _)
    | unregister leaver =>
      cases running : world.registry.ticking with
      | true =>
        have same := (Registry.unregister_of_ticking running leaver).2.1
        exact .inl ((congrArg (Dict.get? · id) same).trans found)
      | false =>
        by_cases same : leaver = id
        · subst same
          refine .inr fun cue owned => ?_
          have stopped : (Frame.expand world reply (.perform (.unregister leaver))).world.cues =
              (world.cues.cancelEach entity.ownedCues).1 := by
            simp only [Frame.expand, perform, depart, found, running, Bool.false_eq_true, if_false]
            rfl
          rw [stopped]
          exact CueStage.not_isRunning_cancelEach _ owned
        · left
          show (world.registry.unregister leaver).2.entity? id = some entity
          unfold Registry.unregister
          split
          · exact found
          · rw [running, if_neg (by decide)]
            exact (Dict.get?_erase _ _ _).trans ((if_neg fun equal => same equal.symm).trans found)
    | _ => cases enrols
  | beginTick seconds =>
    left
    simp only [Frame.expand, World.beginTick]
    split <;> exact found
  | endTick seconds =>
    by_cases leaves : id ∈ world.registry.pendingRemove
    · refine .inr fun cue owned => CueStage.not_isRunning_cancelEach _ ?_
      refine List.mem_flatMap.2 ⟨id, leaves, ?_⟩
      have registered : world.registry.entity? id = some entity := found
      rw [registered]
      exact owned
    · left
      show world.registry.endTick.entity? id = some entity
      unfold Registry.endTick
      rw [Registry.entity?_joinEach_eq]
      have nobody : world.registry.pendingAdd.reverse.find? (·.id == id) = none := by
        refine List.find?_eq_none.2 fun newcomer waits same => ?_
        have same : newcomer.id = id := beq_iff_eq.1 same
        rcases orderly.joinApart newcomer (List.mem_reverse.1 waits) with free | left
        · rw [same, present] at free
          cases free
        · exact leaves (same ▸ left)
      rw [nobody]
      exact (Registry.entity?_leaveEach_of_not_mem leaves).trans found
  | _ => cases enrols

/-- When others join and leave, a cue that is held is held on or stopped. -/
theorem Holds.enrolled (holds : world.Holds owner cue) (orderly : world.registry.Orderly)
    (reply : Reply) (enrols : frame.enrols = true) :
    (frame.expand world reply).world.Holds owner cue ∨
      (frame.expand world reply).world.cues.isRunning cue = false := by
  obtain ⟨roster, there, effect, stored, number, live, owns⟩ := holds
  obtain ⟨entity, registered, rfl⟩ := Option.map_eq_some_iff.1 there
  refine (stays_or_stopped orderly reply enrols registered).imp (fun stays => ?_) fun stopped => ?_
  · exact ⟨entity.effects, by rw [roster?, stays]; rfl, effect, stored, number, live, owns⟩
  · exact stopped cue (List.mem_flatMap.2 ⟨effect, List.mem_filter.2 ⟨stored, live⟩, owns⟩)

/-- Some stored effect owns a cue. -/
def Owned (world : World) (cue : CueId) : Prop :=
  ∃ id roster, world.roster? id = some roster ∧ ∃ effect ∈ roster.effects, cue ∈ effect.cues

/-- What an instance owns after it was touched it owned before, or it is the cue that is started. -/
theorem Touches.owned {handle : EffectHandle} {before touched : Effect}
    (touches : world.Touches frame handle before touched) (owns : cue ∈ touched.cues) :
    cue ∈ before.cues ∨ before.isLive = true ∧ frame.startsCue? world = some (handle, cue) := by
  cases touches with
  | owning starts live =>
    rcases List.mem_append.1 owns with old | new
    · exact .inl old
    · exact .inr ⟨live, List.mem_singleton.1 new ▸ starts⟩
  | stacked =>
    rw [Effect.renewed_eq] at owns
    unfold Effect.restack Effect.restartDuration Effect.refresh at owns
    dsimp only at owns
    split at owns <;> exact .inl owns
  | spent | lessened | restarted => exact .inl owns
  | ticked =>
    rw [Effect.renewed_eq] at owns
    unfold Effect.advance at owns
    split at owns <;> exact .inl owns

/-- What is owned on an edited roster was owned there, or it is the cue that is started for a live
effect. -/
theorem Edit.owned (done : world.Edit frame id edit) (sound : world.Sound)
    (admitted : frame.Admitted fun request => request.isLawful = true) {roster : EffectRoster}
    (there : world.roster? id = some roster) {effect : Effect}
    (stored : effect ∈ (edit roster).effects) (owns : cue ∈ effect.cues) :
    (∃ earlier ∈ roster.effects, cue ∈ earlier.cues) ∨
      ∃ handle, world.isLive handle = true ∧ frame.startsCue? world = some (handle, cue) := by
  obtain ⟨entity, registered, rfl⟩ := Option.map_eq_some_iff.1 there
  have sorted := sound.rosters _ _ registered
  cases done with
  | still | begin => exact .inl ⟨effect, stored, owns⟩
  | touch found touches =>
    rcases EffectRoster.mem_replace stored with old | rfl
    · exact .inl ⟨effect, old, owns⟩
    · have live := isLive_eq found
      rw [effect?_eq registered] at found
      exact (touches.owned owns).imp (fun old => ⟨_, (EffectRoster.mem_of_get? found).1, old⟩)
        fun ⟨lives, starts⟩ => ⟨_, live.trans lives, starts⟩
  | release =>
    obtain ⟨earlier, old, rfl⟩ := EffectRoster.mem_release sorted stored
    split at owns
    · cases owns
    · exact .inl ⟨earlier, old, owns⟩
  | insert =>
    rcases List.mem_append.1 stored with old | new
    · exact .inl ⟨effect, old, owns⟩
    · rw [List.mem_singleton.1 new] at owns
      cases owns
  | finish => exact .inl ⟨effect, List.mem_of_mem_filter stored, owns⟩
  | @asked _ request =>
    rcases admitted with reading | nested
    · cases request <;> first | exact .inl ⟨effect, stored, owns⟩ | cases reading
    · cases nested

/-- A cue that is owned after a frame was owned before it, or it is started for a live effect. -/
theorem Owned.origin (sound : world.Sound) (reply : Reply)
    (admitted : frame.Admitted fun request => request.isLawful = true)
    (owned : (frame.expand world reply).world.Owned cue) :
    world.Owned cue ∨
      ∃ handle, world.isLive handle = true ∧ frame.startsCue? world = some (handle, cue) := by
  obtain ⟨other, roster, there, effect, stored, owns⟩ := owned
  cases enrols : frame.enrols with
  | true =>
    rcases (musters_expand world reply enrols).rosters other roster there with
      old | ⟨newcomer, origin, rfl⟩
    · exact .inl ⟨other, roster, old, effect, stored, owns⟩
    · rw [origin.elim (sound.waiting newcomer) id] at stored
      cases stored
  | false =>
    obtain ⟨id, edit, done, edits⟩ := editsOnce_expand world reply enrols
    obtain ⟨earlier, was, rfl⟩ := edits.origin there
    split at stored
    · next same =>
      subst same
      refine (done.owned sound admitted was stored owns).imp_left ?_
      rintro ⟨effect, old, owned⟩
      exact ⟨other, earlier, was, effect, old, owned⟩
    · exact .inl ⟨other, earlier, was, effect, stored, owns⟩

/-- A cue that is started gets the next number, and its owner takes it along if that is live. -/
theorem world_of_startsCue? (standard : world.Standard) (reply : Reply)
    (starts : frame.startsCue? world = some (owner, cue)) : cue = ⟨world.cues.next⟩ ∧
      ∃ stage : CueStage, stage.next = world.cues.next + 1 ∧ (frame.expand world reply).world =
        modifyEffect { world with cues := stage } owner fun effect =>
          if effect.isLive then { effect with cues := effect.cues ++ [cue] } else effect := by
  cases frame with
  | visit skill node context =>
    simp only [Frame.startsCue?] at starts
    split at starts
    · next definition other plays owned =>
      obtain ⟨id, started, same⟩ := Option.map_eq_some_iff.1 starts
      cases same
      obtain ⟨fresh, grown⟩ := CueStage.eq_next_of_spawn started
      refine ⟨fresh, _, grown, ?_⟩
      simp only [Frame.expand, visit, standard node.category]
      simp only [runStandard, Node.category, NodeKind.category, plays, runCue, started, owned]
    · cases starts
  | _ => cases starts

/-- A cue that is started has a number given before from then on. -/
theorem below_of_startsCue? (standard : world.Standard) (reply : Reply)
    (starts : frame.startsCue? world = some (owner, cue)) :
    cue.raw < (frame.expand world reply).world.cues.next := by
  obtain ⟨rfl, stage, grown, after⟩ := world_of_startsCue? standard reply starts
  rw [after]
  show world.cues.next < stage.next
  omega

/-- A cue that is started for a live effect is held by it. -/
theorem holds_of_startsCue? (sound : world.Sound) (reply : Reply)
    (starts : frame.startsCue? world = some (owner, cue)) (live : world.isLive owner = true) :
    (frame.expand world reply).world.Holds owner cue := by
  obtain ⟨effect, found, lives⟩ := exists_of_isLive live
  obtain ⟨entity, registered, stored, number⟩ := of_effect? found
  obtain ⟨_, stage, _, after⟩ := world_of_startsCue? sound.standard reply starts
  let taking (effect : Effect) : Effect :=
    if effect.isLive then { effect with cues := effect.cues ++ [cue] } else effect
  have takes : taking effect = { effect with cues := effect.cues ++ [cue] } := if_pos lives
  have keeps (effect : Effect) : (taking effect).id = effect.id := by
    unfold taking
    split <;> rfl
  have moved : (frame.expand world reply).world.effect? owner = some (taking effect) := by
    have placed := (alters_modifyEffect { world with cues := stage } owner taking).self registered
    rw [after, effect?_eq placed]
    show (entity.effects.modify owner.id taking).get? owner.id = _
    rw [EffectRoster.get?_modify keeps, if_pos rfl, stored]
    rfl
  refine holds_of_found moved ?_ ?_
  · rw [takes]
    exact lives
  · rw [takes]
    exact List.mem_append_right _ List.mem_cons_self

end World

/-- The cue that a cue node starts with the next step, and the effect that owns its walk. -/
def Cascade.startsCue? (cascade : Cascade) : Option (EffectHandle × CueId) :=
  cascade.agenda.head?.bind (Frame.startsCue? cascade.world)

namespace Session

variable {admits : Request → Prop} {start : World} {past : List Cascade} {now : Cascade}
  {owner : EffectHandle} {cue : CueId}

variable (calm : start.Calm) (lawful : ∀ request, admits request → request.isLawful = true)

include calm lawful

/-- Cues that are owned have numbers given before. -/
theorem owned_below (session : Session admits start past now) (owned : now.world.Owned cue) :
    cue.raw < now.world.cues.next := by
  induction session with
  | opened =>
    obtain ⟨id, roster, there, effect, stored, _⟩ := owned
    obtain ⟨entity, registered, rfl⟩ := Option.map_eq_some_iff.1 there
    rw [(calm.idle id entity registered).1] at stored
    cases stored
  | asked _ _ _ ih => exact ih owned
  | @stepped past now frame rest session next kept ih =>
    have sound := session.sound calm lawful
    have admitted := (session.first calm lawful next).mono lawful
    have onward := World.onward_expand now.world now.reply frame
    rw [Cascade.world_step next] at owned ⊢
    rcases owned.origin sound now.reply admitted with before | ⟨handle, _, starts⟩
    · exact Nat.lt_of_lt_of_le (ih before) onward.numbering
    · exact World.below_of_startsCue? sound.standard now.reply starts

/-- A cue that a node has started is held by its owner or runs no longer, if the owner was live; and
if it was not, nobody owns the cue. -/
theorem started_cue (session : Session admits start past now)
    (orderly : start.registry.Orderly) {state : Cascade} (member : state ∈ past)
    (starts : state.startsCue? = some (owner, cue)) : cue.raw < now.world.cues.next ∧
      if state.world.isLive owner then
        now.world.Holds owner cue ∨ now.world.cues.isRunning cue = false
      else ¬now.world.Owned cue := by
  induction session with
  | opened => cases member
  | @asked past now request session done admitted ih =>
    rcases List.mem_append.1 member with before | last
    · exact ih before
    · rw [List.mem_singleton.1 last, Cascade.startsCue?, done] at starts
      cases starts
  | @stepped past now frame rest session next kept ih =>
    have sound := session.sound calm lawful
    have admitted := (session.first calm lawful next).mono lawful
    rw [Cascade.world_step next]
    rcases List.mem_append.1 member with before | last
    · obtain ⟨below, fate⟩ := ih before
      have onward := World.onward_expand now.world now.reply frame
      refine ⟨Nat.lt_of_lt_of_le below onward.numbering, ?_⟩
      split at fate
      · next live =>
        rw [if_pos live]
        rcases fate with holds | stopped
        · cases enrols : frame.enrols with
          | true => exact holds.enrolled (session.orderly orderly) now.reply enrols
          | false => exact holds.expand sound now.reply admitted enrols
        · refine .inr (Bool.eq_false_iff.2 fun runs => ?_)
          exact absurd ((onward.origin cue below runs).symm.trans stopped) (by decide)
      · next ended =>
        rw [if_neg ended]
        intro owned
        rcases owned.origin sound now.reply admitted with old | ⟨handle, _, again⟩
        · exact fate old
        · obtain ⟨fresh, _⟩ := World.world_of_startsCue? sound.standard now.reply again
          rw [fresh] at below
          exact Nat.lt_irrefl _ below
    · cases List.mem_singleton.1 last
      rw [Cascade.startsCue?, next] at starts
      have starts : frame.startsCue? state.world = some (owner, cue) := starts
      refine ⟨World.below_of_startsCue? sound.standard state.reply starts, ?_⟩
      split
      · next live => exact .inl (World.holds_of_startsCue? sound state.reply starts live)
      · next ended =>
        intro owned
        rcases owned.origin sound state.reply admitted with old | ⟨handle, live, again⟩
        · have below := session.owned_below calm lawful old
          rw [(World.world_of_startsCue? sound.standard state.reply starts).1] at below
          exact Nat.lt_irrefl _ below
        · cases again.symm.trans starts
          exact ended live

end Session

/-- A cue that a cue node starts for a live effect does not outlive it: once the effect is no longer
live, because it has ended or its entity has left, the cue does not run. A cue that is started when
its owner is over already, in a walk that has ended it on the way, is owned by no effect, so no
effect that ends and no entity that leaves will stop it. -/
theorem cues_stop_with_owner {admits : Request → Prop} {start : World} {past : List Cascade}
    {now : Cascade} (session : Session admits start past now) (calm : start.Calm)
    (orderly : start.registry.Orderly)
    (lawful : ∀ request, admits request → request.isLawful = true) :
    ∀ state ∈ past, ∀ owner cue, state.startsCue? = some (owner, cue) →
      (state.world.isLive owner = true → now.world.isLive owner = false →
        now.world.cues.isRunning cue = false) ∧
      (state.world.isLive owner = false → ∀ id entity, now.world.entity? id = some entity →
        ∀ effect ∈ entity.effects.effects, cue ∉ effect.cues) := by
  intro state member owner cue starts
  have fate := (session.started_cue calm lawful orderly member starts).2
  refine ⟨fun live ended => ?_, fun ended id entity registered effect stored owns => ?_⟩
  · rw [if_pos live] at fate
    rcases fate with holds | stopped
    · obtain ⟨effect, found, lives, _⟩ := holds.found (session.sound calm lawful)
      exact absurd ((World.isLive_eq found).trans lives) (by rw [ended]; decide)
    · exact stopped
  · rw [ended] at fate
    refine fate ⟨id, entity.effects, ?_, effect, stored, owns⟩
    rw [World.roster?, registered]
    rfl

/-- A lasting effect. -/
def firework : EffectDef where
  durationType := .infinite
  tags := { asset := .ofPaths ["Firework"] }

/-- A cue that runs for ten seconds. -/
def display : CueDef where
  cue := "timed"
  duration := .ofValue (Float32.ofBits 0x41200000)

/-- The effect starts a cue, has itself removed, and starts another one, all when it takes hold. -/
def rocket : SkillGraph where
  id := ⟨1⟩
  nodes := [{ id := ⟨1⟩, kind := .effect firework }, { id := ⟨2⟩, kind := .cue display },
    { id := ⟨3⟩, kind := .task (.removeEffectsWithTags (.ofPaths ["Firework"])) },
    { id := ⟨4⟩, kind := .cue display }]
  connections := [⟨⟨1⟩, "initial", ⟨2⟩, "input"⟩, ⟨⟨1⟩, "initial", ⟨3⟩, "input"⟩,
    ⟨⟨1⟩, "initial", ⟨4⟩, "input"⟩]

/-- An entity receives the effect. -/
def ignition : List Request :=
  [.library (.ok (.insert rocket)), .spawn ⟨1⟩,
    .activate ⟨1⟩ ⟨1⟩ { caster := ⟨1⟩, edits := [.target ⟨1⟩] }]

/-- The states gone through meanwhile. -/
def igniting : List Cascade :=
  Cascade.duringEach 60 { world := World.create {} .empty, agenda := [] } ignition

/-- The state that is reached. -/
def ignited : Cascade :=
  Cascade.afterEach 60 { world := World.create {} .empty, agenda := [] } ignition

/-- The requests make a session. -/
theorem session_ignited : Session (fun request => request.isLawful = true)
    (World.create {} .empty) igniting ignited :=
  .ofRequests 60 ignition (by decide +kernel) (by decide +kernel)

/-- Of the two cues the first is started for a live effect and the second for one that is over. -/
theorem cues_ignited : igniting.filterMap (fun state => state.startsCue?.map fun (owner, cue) =>
      (owner, cue, state.world.isLive owner)) =
    [(⟨⟨1⟩, ⟨1⟩⟩, ⟨0⟩, true), (⟨⟨1⟩, ⟨1⟩⟩, ⟨1⟩, false)] := by decide +kernel

/-- A state starts each of the two cues. -/
theorem exists_started {cue : CueId} {live : Bool}
    (listed : (⟨⟨1⟩, ⟨1⟩⟩, cue, live) ∈
      [((⟨⟨1⟩, ⟨1⟩⟩ : EffectHandle), (⟨0⟩ : CueId), true), (⟨⟨1⟩, ⟨1⟩⟩, ⟨1⟩, false)]) :
    ∃ state ∈ igniting, state.startsCue? = some (⟨⟨1⟩, ⟨1⟩⟩, cue) ∧
      state.world.isLive ⟨⟨1⟩, ⟨1⟩⟩ = live := by
  rw [← cues_ignited] at listed
  obtain ⟨state, member, started⟩ := List.mem_filterMap.1 listed
  obtain ⟨⟨owner, other⟩, starts, same⟩ := Option.map_eq_some_iff.1 started
  cases same
  exact ⟨state, member, starts, rfl⟩

/-- The first cue does not run when the effect is over, and the second is owned by nobody. -/
theorem display_stops : Session (fun request => request.isLawful = true)
      (World.create {} .empty) igniting ignited ∧
    (World.create {} .empty).Calm ∧ (World.create {} .empty).registry.Orderly ∧
    (∃ state ∈ igniting, state.startsCue? = some (⟨⟨1⟩, ⟨1⟩⟩, ⟨0⟩) ∧
      state.world.isLive ⟨⟨1⟩, ⟨1⟩⟩ = true ∧ ignited.world.isLive ⟨⟨1⟩, ⟨1⟩⟩ = false ∧
      ignited.world.cues.isRunning ⟨0⟩ = false) ∧
    ∃ state ∈ igniting, state.startsCue? = some (⟨⟨1⟩, ⟨1⟩⟩, ⟨1⟩) ∧
      state.world.isLive ⟨⟨1⟩, ⟨1⟩⟩ = false ∧
      ∀ id entity, ignited.world.entity? id = some entity →
        ∀ effect ∈ entity.effects.effects, ⟨1⟩ ∉ effect.cues := by
  have calm := World.calm_create {} .empty
  have orderly : (World.create {} .empty).registry.Orderly := Registry.orderly_empty
  have stops := cues_stop_with_owner session_ignited calm orderly fun _ lawful => lawful
  have ended : ignited.world.isLive ⟨⟨1⟩, ⟨1⟩⟩ = false := by decide +kernel
  obtain ⟨early, before, starts, live⟩ := exists_started List.mem_cons_self
  obtain ⟨late, after, begins, gone⟩ := exists_started (List.mem_cons_of_mem _ List.mem_cons_self)
  exact ⟨session_ignited, calm, orderly,
    ⟨early, before, starts, live, ended, (stops early before _ _ starts).1 live ended⟩,
    late, after, begins, gone, (stops late after _ _ begins).2 gone⟩

/-- A cue can outlive the effect that owns its walk though it is started when the effect takes hold,
and not when it ends: the walk has ended the effect on the way. -/
theorem display_outlives : Session (fun request => request.isLawful = true)
      (World.create {} .empty) igniting ignited ∧ ignited.agenda = [] ∧
    igniting.filterMap (·.port? ⟨⟨1⟩, ⟨1⟩⟩) = ["initial", "removed", "complete"] ∧
    ignited.world.library.connected ⟨1⟩ ⟨1⟩ "removed" = [] ∧
    ignited.world.library.connected ⟨1⟩ ⟨1⟩ "complete" = [] ∧
    (∃ state ∈ igniting, state.startsCue? = some (⟨⟨1⟩, ⟨1⟩⟩, ⟨1⟩)) ∧
    ignited.world.isLive ⟨⟨1⟩, ⟨1⟩⟩ = false ∧ ignited.world.cues.isRunning ⟨1⟩ = true := by
  obtain ⟨late, after, begins, _⟩ := exists_started (List.mem_cons_of_mem _ List.mem_cons_self)
  exact ⟨session_ignited, List.isEmpty_iff.1 (by decide +kernel), by decide +kernel,
    List.isEmpty_iff.1 (by decide +kernel), List.isEmpty_iff.1 (by decide +kernel),
    ⟨late, after, begins⟩, by decide +kernel, by decide +kernel⟩

end SkillEngine
