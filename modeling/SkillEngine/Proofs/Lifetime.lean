import SkillEngine.Proofs.Turn

/-!
# The life of an instance through a run

A world *evolves* into another when the effects stored there under numbers given before are later
forms of effects stored in the first at the same place. Every turn keeps a world sound and makes it
evolve, so an instance keeps its captured magnitudes and its last state whatever happens, and its
number is never given away again.
-/

namespace SkillEngine

/-- What a frame makes of a stored instance. -/
inductive Frame.Makes (frame : Frame) (handle : EffectHandle) (before : Effect) :
    Effect → Prop where
  /-- It stays as it is. -/
  | same : Makes frame handle before before
  /-- It is touched and its tracked magnitudes are renewed, and its context stays unless time passes
  for it. -/
  | touched {touched : Effect} {updates : List (Nat × AttributeId × Float32)}
      (retouches : before.Retouches touched) (tracks : touched.Tracks updates)
      (context : touched.context = before.context ∨ ∃ seconds, frame = .tickEffect handle seconds)
      (winds : frame.Winds handle before touched.clock) :
      Makes frame handle before (touched.renewed updates)
  /-- It was live and ends. -/
  | ended {state : EffectState} {fires : Bool} (ends : frame = .finish handle state fires)
      (live : before.isLive = true) : Makes frame handle before (before.ended state)

namespace Frame.Makes

variable {frame : Frame} {handle : EffectHandle} {before after : Effect}

/-- It becomes a later form. -/
theorem becomes (makes : frame.Makes handle before after) {admits : Request → Prop}
    (admitted : frame.Admitted admits) : before.Becomes after := by
  cases makes with
  | same => exact .refl before
  | touched retouches tracks => exact retouches.becomes.trans (.renewed tracks)
  | ended ends live =>
    subst ends
    exact .ended live admitted.isTerminal

/-- It keeps its context unless time passes for it. -/
theorem context (makes : frame.Makes handle before after)
    (untimed : ∀ handle seconds, frame ≠ .tickEffect handle seconds) :
    after.context = before.context := by
  cases makes with
  | same | ended => rfl
  | touched _ _ context =>
    rw [Effect.renewed_eq]
    exact context.elim id fun ⟨seconds, ticked⟩ => absurd ticked (untimed handle seconds)

/-- It stays live or not, or it was live and is ended in its last state. -/
theorem live (makes : frame.Makes handle before after) : after.isLive = before.isLive ∨
    before.isLive = true ∧ ∃ fires, frame = .finish handle after.state fires := by
  cases makes with
  | same => exact .inl rfl
  | touched retouches =>
    rw [Effect.renewed_eq]
    exact .inl retouches.live
  | ended ends live => exact .inr ⟨live, _, ends⟩

/-- What becomes of its timers. -/
theorem winds (makes : frame.Makes handle before after) :
    frame.Winds handle before after.clock := by
  cases makes with
  | same | ended => exact .kept
  | touched _ _ _ winds =>
    rw [Effect.renewed_eq]
    exact winds

end Frame.Makes

namespace World

/-- Effects under numbers given before are later forms of those stored before. -/
structure Evolves (before after : World) : Prop where
  /-- Numbers go up. -/
  numbering : before.nextEffect ≤ after.nextEffect
  /-- A stored effect with an earlier number was stored in an earlier form. -/
  origin : ∀ (handle : EffectHandle) (effect : Effect), handle.id.raw < before.nextEffect →
    after.effect? handle = some effect →
      ∃ earlier, before.effect? handle = some earlier ∧ earlier.Becomes effect

/-- A world evolves into itself. -/
theorem Evolves.refl (world : World) : world.Evolves world :=
  ⟨Nat.le_refl _, fun _ effect _ found => ⟨effect, found, .refl effect⟩⟩

/-- Evolutions follow one another. -/
theorem Evolves.trans {first second third : World} (earlier : first.Evolves second)
    (later : second.Evolves third) : first.Evolves third where
  numbering := Nat.le_trans earlier.numbering later.numbering
  origin handle effect old found := by
    obtain ⟨middle, stored, onward⟩ :=
      later.origin handle effect (Nat.lt_of_lt_of_le old earlier.numbering) found
    obtain ⟨start, kept, before⟩ := earlier.origin handle middle old stored
    exact ⟨start, kept, before.trans onward⟩

variable {world before after : World} {id : EntityId} {change : Entity → Entity} {frame : Frame}

/-- An effect that is found in a sound world has a number given before. -/
theorem Sound.numbered_below (sound : world.Sound) {handle : EffectHandle} {effect : Effect}
    (found : world.effect? handle = some effect) : handle.id.raw < world.nextEffect := by
  obtain ⟨entity, registered, stored, same⟩ := of_effect? found
  rw [← same]
  exact (sound.rosters _ _ registered).below effect (EffectRoster.mem_of_get? stored).1

/-- An effect that is found in a sound world is attached. -/
theorem Sound.attached (sound : world.Sound) {handle : EffectHandle} {effect : Effect}
    (found : world.effect? handle = some effect) : effect.state ≠ .pending := by
  obtain ⟨entity, registered, stored, _⟩ := of_effect? found
  exact (sound.rosters _ _ registered).attached effect (EffectRoster.mem_of_get? stored).1

/-- A change of one entity that keeps its number and its roster sound keeps a world sound. -/
theorem Alters.sound (alters : before.Alters after id change) (sound : before.Sound)
    (keeps : ∀ entity, before.entity? id = some entity → (change entity).id = entity.id ∧
      (change entity).effects.Sound before.nextEffect id) : after.Sound where
  standard := by
    obtain ⟨_, _, _, rfl⟩ := alters.shape
    exact sound.standard
  numbered other entity found := by
    obtain ⟨earlier, stored, rfl⟩ := alters.origin found
    split
    · next same => rw [(keeps earlier (same ▸ stored)).1, sound.numbered other earlier stored]
    · exact sound.numbered other earlier stored
  rosters other entity found := by
    have next : after.nextEffect = before.nextEffect := by
      obtain ⟨_, _, _, rfl⟩ := alters.shape
      rfl
    obtain ⟨earlier, stored, rfl⟩ := alters.origin found
    rw [next]
    split
    · next same => exact same ▸ (keeps earlier (same ▸ stored)).2
    · exact sound.rosters other earlier stored
  waiting := by
    obtain ⟨_, _, _, rfl⟩ := alters.shape
    exact sound.waiting

/-- Touching an effect and renewing its tracked magnitudes gives a later form. -/
theorem becomes_renewed {effect touched : Effect} (retouches : effect.Retouches touched)
    {updates : List (Nat × AttributeId × Float32)} (tracks : touched.Tracks updates) :
    effect.Becomes (touched.renewed updates) :=
  retouches.becomes.trans (.renewed tracks)

/-- The roster of a touched entity follows and is sound. -/
theorem touching_keeps {entity : Entity} {handle : EffectHandle}
    (registered : world.entity? handle.target = some entity)
    (roster : entity.effects.Sound world.nextEffect handle.target) {effect touched : Effect}
    (found : world.effect? handle = some effect) (retouches : effect.Retouches touched)
    {updates : List (Nat × AttributeId × Float32)} (tracks : touched.Tracks updates) :
    entity.effects.Follows (entity.touching handle.id touched updates).effects ∧
      (entity.touching handle.id touched updates).effects.Sound world.nextEffect
        handle.target := by
  rw [effect?_eq registered] at found
  have same := retouches.becomes.id.trans (EffectRoster.mem_of_get? found).2
  rw [Entity.effects_touching same]
  have follows : entity.effects.Follows
      (entity.effects.modify handle.id fun _ => touched.renewed updates) :=
    EffectRoster.follows_modify roster fun other stored => by
      rw [found] at stored
      cases stored
      exact becomes_renewed retouches tracks
  exact ⟨follows, follows.sound_of_queued roster rfl⟩

/-- What a deed does to the entity that it is done to: the number stays, and the roster follows and
is sound. -/
theorem Deed.keeps (deed : world.Deed frame id change) (sound : world.Sound)
    {admits : Request → Prop} (admitted : frame.Admitted admits) {entity : Entity}
    (registered : world.entity? id = some entity) : (change entity).id = entity.id ∧
      entity.effects.Follows (change entity).effects ∧
      (change entity).effects.Sound world.nextEffect id := by
  have roster := sound.rosters _ _ registered
  cases deed with
  | still => exact ⟨rfl, .refl _, roster⟩
  | touch found retouches tracks | restack found retouches tracks =>
    have touched := touching_keeps registered roster found retouches tracks
    exact ⟨Entity.id_tracking _ _ _, touched⟩
  | release found live =>
    rw [effect?_eq registered] at found
    refine ⟨rfl, EffectRoster.follows_release roster (fun other stored => ?_) admitted.isTerminal,
      roster.release admitted.isTerminal found live⟩
    rw [found] at stored
    cases stored
    exact live
  | begin =>
    have follows : entity.effects.Follows entity.effects.beginTick.2 := .of_eq rfl
    exact ⟨rfl, follows, follows.sound_of_queued roster rfl⟩
  | finish => exact ⟨rfl, EffectRoster.follows_endTick _, roster.endTick⟩
  | write revalues =>
    obtain ⟨number, _, effects, _⟩ := revalues entity
    rw [effects]
    exact ⟨number, .refl _, roster⟩
  | sheet => exact ⟨rfl, .refl _, roster⟩

/-- What a deed makes of an instance that is stored on its entity. -/
theorem Deed.makes (deed : world.Deed frame id change) (sound : world.Sound) {entity : Entity}
    (registered : world.entity? id = some entity) {key : EffectId} {after : Effect}
    (stored : (change entity).effects.get? key = some after) :
    ∃ before, entity.effects.get? key = some before ∧ frame.Makes ⟨id, key⟩ before after := by
  have roster := sound.rosters _ _ registered
  have kept (same : (change entity).effects.get? key = entity.effects.get? key) :
      ∃ before, entity.effects.get? key = some before ∧ frame.Makes ⟨id, key⟩ before after :=
    ⟨after, same.symm.trans stored, .same⟩
  obtain ⟨member, number⟩ := EffectRoster.mem_of_get? stored
  have apart {earlier : Effect} (old : earlier ∈ entity.effects.effects)
      (same : earlier.id = key) (still : after = earlier) :
      ∃ before, entity.effects.get? key = some before ∧ frame.Makes ⟨id, key⟩ before after :=
    ⟨earlier, same ▸ roster.get?_eq old, still ▸ .same⟩
  have touching {handle : EffectHandle} {effect touched : Effect}
      {updates : List (Nat × AttributeId × Float32)} (here : id = handle.target)
      (found : world.effect? handle = some effect) (retouches : effect.Retouches touched)
      (tracks : touched.Tracks updates)
      (context : touched.context = effect.context ∨ ∃ seconds, frame = .tickEffect handle seconds)
      (winds : frame.Winds handle effect touched.clock)
      (touches : after ∈ (entity.touching handle.id touched updates).effects.effects) :
      ∃ before, entity.effects.get? key = some before ∧ frame.Makes ⟨id, key⟩ before after := by
    subst here
    rw [effect?_eq registered] at found
    have same := retouches.becomes.id.trans (EffectRoster.mem_of_get? found).2
    rw [Entity.effects_touching same] at touches
    obtain ⟨earlier, old, rfl⟩ := EffectRoster.mem_modify roster touches
    split at number
    · next equal =>
      rw [Effect.renewed_eq] at number
      have here : handle.id = key := same.symm.trans number
      subst here
      rw [if_pos equal]
      exact ⟨effect, found, .touched retouches tracks context winds⟩
    · next differs => exact apart old number (if_neg differs)
  cases deed with
  | still | begin | sheet => exact kept rfl
  | touch found retouches tracks ticked _ winds =>
    exact touching rfl found retouches tracks (ticked.imp_left (·.2)) winds member
  | restack found retouches tracks unmoved winds =>
    exact touching rfl found retouches tracks (.inl unmoved) winds member
  | @release handle state fires effect found live =>
    rw [effect?_eq registered] at found
    obtain ⟨earlier, old, rfl⟩ := EffectRoster.mem_release roster member
    split at number
    · next same =>
      have here : handle.id = key := same.symm.trans number
      subst here
      have one : earlier = effect := by
        have first := roster.get?_eq old
        rw [same, found] at first
        exact (Option.some.inj first).symm
      rw [if_pos same, one]
      exact ⟨effect, found, .ended rfl live⟩
    · next differs => exact apart old number (if_neg differs)
  | finish => exact apart (List.mem_of_mem_filter member) number rfl
  | write revalues => exact kept (congrArg (EffectRoster.get? · key) (revalues entity).effects)

/-- A new effect with the next number joins a sound roster. -/
theorem sound_holding {entity : Entity} {application : Application} {target : EntityId}
    {duration : Float32} {appliedAt : Float}
    (roster : entity.effects.Sound world.nextEffect target) :
    (entity.holding (world.newEffect application target duration) appliedAt).effects.Sound
      (world.nextEffect + 1) target :=
  roster.insert rfl rfl (fun pending => by cases pending) (List.length_map _)

/-- A world with one more number given is sound. -/
theorem Sound.numberNext (sound : world.Sound) :
    World.Sound { world with nextEffect := world.nextEffect + 1 } where
  standard := sound.standard
  numbered := sound.numbered
  rosters id entity found := (sound.rosters id entity found).mono (Nat.le_succ _)
  waiting := sound.waiting

/-- An effect that takes hold is given the next number. -/
theorem Sound.nextEffect_attach (sound : world.Sound) (application : Application)
    (target : EntityId) (duration : Float32) :
    (world.attach application target duration).world.nextEffect = world.nextEffect + 1 := by
  obtain ⟨_, _, _, same⟩ := (alters_takeHold sound.numberNext.numbered
    (world.newEffect application target duration)).shape
  exact congrArg World.nextEffect same

/-- What is found after a new effect took hold was found before or is the new one. -/
theorem effect?_hold (sound : world.Sound) {application : Application} {target : EntityId}
    {duration : Float32}
    (alters : World.Alters { world with nextEffect := world.nextEffect + 1 } after target
      (·.holding (world.newEffect application target duration) world.time))
    {handle : EffectHandle} {effect : Effect} (found : after.effect? handle = some effect) :
    world.effect? handle = some effect ∨
      handle.target = target ∧ effect = world.newEffect application target duration := by
  obtain ⟨entity, registered, stored, _⟩ := of_effect? found
  obtain ⟨earlier, was, rfl⟩ := alters.origin registered
  have before : world.effect? handle = earlier.effects.get? handle.id := effect?_eq was
  rw [before]
  split at stored
  · next same =>
    have roster := sound.rosters _ _ was
    have inserted := roster.get?_insert
      (show (world.newEffect application target duration).id.raw = world.nextEffect from rfl)
      handle.id
    have placed := inserted.symm.trans stored
    split at placed
    · cases placed
      exact .inr ⟨same, rfl⟩
    · exact .inl placed
  · exact .inl stored

/-- Every turn keeps a world sound. -/
theorem Turn.sound (turn : world.Turn frame after) (sound : world.Sound)
    {admits : Request → Prop} (admitted : frame.Admitted admits) : after.Sound := by
  cases turn with
  | quiet quiet =>
    have registered (id : EntityId) : after.entity? id = world.entity? id :=
      congrArg (Registry.entity? · id) quiet.registry
    refine ⟨fun category => ?_, fun id entity found => ?_, fun id entity found => ?_, ?_⟩
    · rw [quiet.behaviours]
      exact sound.standard category
    · exact sound.numbered id entity ((registered id).symm.trans found)
    · rw [quiet.nextEffect]
      exact sound.rosters id entity ((registered id).symm.trans found)
    · rw [quiet.registry]
      exact sound.waiting
  | drain => exact ⟨sound.standard, sound.numbered, sound.rosters, sound.waiting⟩
  | alter alters deed =>
    refine alters.sound sound fun entity registered => ?_
    obtain ⟨number, _, roster⟩ := deed.keeps sound admitted registered
    exact ⟨number, roster⟩
  | retag found alters heard =>
    refine alters.sound sound fun entity registered => ⟨rfl, ?_⟩
    exact sound.rosters _ entity registered
  | hold alters =>
    refine alters.sound sound.numberNext fun entity registered => ⟨rfl, ?_⟩
    exact sound_holding (sound.rosters _ _ registered)
  | regroup regroups =>
    refine ⟨fun category => ?_, fun id entity found => ?_, fun id entity found => ?_, ?_⟩
    · rw [regroups.behaviours]
      exact sound.standard category
    · rcases regroups.entity? id entity found with before | ⟨newcomer, _, number, joined⟩
      · exact sound.numbered id entity before
      · exact joined.id.trans number
    · rw [regroups.nextEffect]
      rcases regroups.entity? id entity found with before | ⟨newcomer, origin, _, joined⟩
      · exact sound.rosters id entity before
      · have blank : newcomer.effects = .empty := origin.elim (sound.waiting newcomer) (·.effects)
        rw [joined.effects, blank]
        exact .empty
    · intro entity waits
      exact (regroups.waiting entity waits).elim (sound.waiting entity) (·.effects)

/-- What is found after a turn was found before and is what the frame made of it, or it is a new
effect. -/
theorem Turn.origin (turn : world.Turn frame after) (sound : world.Sound) {handle : EffectHandle}
    {effect : Effect} (found : after.effect? handle = some effect) :
    (∃ earlier, world.effect? handle = some earlier ∧ frame.Makes handle earlier effect) ∨
      ∃ application duration, frame = .attach application handle.target duration ∧
        effect = world.newEffect application handle.target duration := by
  have kept (same : world.effect? handle = some effect) :
      ∃ earlier, world.effect? handle = some earlier ∧ frame.Makes handle earlier effect :=
    ⟨effect, same, .same⟩
  obtain ⟨entity, registered, stored, _⟩ := of_effect? found
  cases turn with
  | quiet quiet =>
    have same : after.effect? handle = world.effect? handle :=
      congrArg (fun registry => (Registry.entity? registry handle.target).bind
        fun entity => entity.effects.get? handle.id) quiet.registry
    exact .inl (kept (same.symm.trans found))
  | drain => exact .inl (kept found)
  | alter alters deed =>
    obtain ⟨earlier, was, rfl⟩ := alters.origin registered
    rw [effect?_eq was] at kept ⊢
    split at stored
    · next same =>
      subst same
      exact .inl (deed.makes sound was stored)
    · exact .inl (kept stored)
  | retag _ alters heard =>
    obtain ⟨earlier, was, rfl⟩ := alters.origin registered
    rw [effect?_eq was] at kept ⊢
    split at stored <;> exact .inl (kept stored)
  | hold alters =>
    rcases effect?_hold sound alters found with before | ⟨rfl, new⟩
    · exact .inl (kept before)
    · exact .inr ⟨_, _, rfl, new⟩
  | regroup regroups =>
    rcases regroups.entity? _ entity registered with before | ⟨newcomer, origin, _, joined⟩
    · exact .inl (kept ((effect?_eq before).trans stored))
    · have blank : newcomer.effects = .empty := origin.elim (sound.waiting newcomer) (·.effects)
      rw [joined.effects, blank] at stored
      cases stored

/-- Numbers go up in a turn. -/
theorem Turn.numbering (turn : world.Turn frame after) : world.nextEffect ≤ after.nextEffect := by
  cases turn with
  | quiet quiet => exact Nat.le_of_eq quiet.nextEffect.symm
  | drain => exact Nat.le_refl _
  | alter alters | retag _ alters =>
    obtain ⟨_, _, _, rfl⟩ := alters.shape
    exact Nat.le_refl _
  | hold alters =>
    obtain ⟨_, _, _, rfl⟩ := alters.shape
    exact Nat.le_succ _
  | regroup regroups => exact Nat.le_of_eq regroups.nextEffect.symm

/-- Every turn makes a world evolve. -/
theorem Turn.evolves (turn : world.Turn frame after) (sound : world.Sound)
    {admits : Request → Prop} (admitted : frame.Admitted admits) : world.Evolves after where
  numbering := turn.numbering
  origin handle effect old found := by
    rcases turn.origin sound found with ⟨earlier, was, makes⟩ | ⟨_, _, _, rfl⟩
    · exact ⟨earlier, was, makes.becomes admitted⟩
    · obtain ⟨_, _, _, number⟩ := of_effect? found
      rw [← number] at old
      exact absurd old (Nat.lt_irrefl _)

/-- An effect that was ended is not live. -/
theorem Sound.isLive_finish (sound : world.Sound) (handle : EffectHandle) {state : EffectState}
    (final : state.isTerminal = true) (fires : Bool) :
    (world.finish handle state fires).world.isLive handle = false := by
  cases live : world.isLive handle with
  | false =>
    rw [finish_of_not_isLive live]
    exact live
  | true =>
    obtain ⟨earlier, found, lives⟩ := exists_of_isLive live
    have alters := alters_release sound.numbered found state
    rw [finish_of_live found lives, isLive, Progress.told]
    cases placed : (world.release handle earlier state).1.effect? handle with
    | none => rfl
    | some effect =>
      obtain ⟨entity, registered, stored, _⟩ := of_effect? placed
      obtain ⟨before, old, rfl⟩ := alters.origin registered
      rw [if_pos rfl] at stored
      obtain ⟨member, same⟩ := EffectRoster.mem_of_get? stored
      have last := EffectRoster.state_release (sound.rosters _ _ old) member same
      rw [Option.any_some, Effect.isLive, last]
      exact EffectState.not_isLive_of_isTerminal final

end World

end SkillEngine
