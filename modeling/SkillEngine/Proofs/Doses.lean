import SkillEngine.Proofs.Bearing
import SkillEngine.Proofs.Courses
import SkillEngine.Proofs.Floats
import SkillEngine.Proofs.Requirements

/-!
# Applications without consequences

An effect whose gates are open, which cleanses nothing and whose ports lead to cues alone is applied
to the end in one of two ways: a new instance takes hold, or the instance that there is gets
restacked. Either way nothing else on the target changes, provided that the re-check which follows a
new instance finds every ongoing requirement met.
-/

namespace SkillEngine

/-- What is applied: the definition of an effect, and the node that it comes from. -/
structure Dose where
  /-- The skill. -/
  skill : SkillId
  /-- The node. -/
  node : NodeId
  /-- What it does. -/
  definition : EffectDef

namespace Dose

/-- The request that applies it to a target. -/
def request (dose : Dose) (target : EntityId) (opening : Opening) : Request :=
  .apply dose.skill dose.node dose.definition target opening

/-- The application with a context. -/
def within (dose : Dose) (context : Context) : Application :=
  ⟨dose.skill, dose.node, dose.definition, context⟩

/-- How many pulses the application itself fires. -/
def atOnce (dose : Dose) : Nat :=
  if dose.definition.isPeriodic && dose.definition.executePeriodicOnApplication then 1 else 0

/-- The dose stacks by a policy, lasts without limit or for a fixed time, is kept out by no tag,
gives, needs and cleanses none, and its ports lead to cues alone. -/
structure Plain (dose : Dose) (library : SkillLibrary) (policy : StackingPolicy) : Prop where
  /-- It stacks by the policy. -/
  stacking : dose.definition.stacking = some policy
  /-- It lasts without limit, or for a fixed and positive time. -/
  lasts : dose.definition.durationType = .infinite ∨ dose.definition.durationType = .duration ∧
    ∃ seconds, dose.definition.duration = .fixed seconds ∧ 0 < seconds.value
  /-- It grants no tags. -/
  granted : dose.definition.tags.granted.tags = []
  /-- It requires no tags of its target. -/
  requiredToApply : dose.definition.tags.requiredToApply.tags = []
  /-- No tags make its target immune. -/
  immunity : dose.definition.tags.immunity.tags = []
  /-- It has no ongoing requirement. -/
  requiredOngoing : dose.definition.tags.requiredOngoing.tags = []
  /-- It cleanses nothing. -/
  removeEffectsWithTags : dose.definition.tags.removeEffectsWithTags.tags = []
  /-- Its ports lead to cues alone. -/
  cues : ∀ port : EffectPort, ∀ next ∈ library.connected dose.skill dose.node port.name,
    next.category = .cue

/-- What a plain dose gives lasts. -/
theorem Plain.not_instant {dose : Dose} {library : SkillLibrary} {policy : StackingPolicy}
    (plain : dose.Plain library policy) : dose.definition.durationType ≠ .instant := by
  rcases plain.lasts with lasts | ⟨lasts, _⟩ <;> simp [lasts]

end Dose

/-- No edit changes who started a walk. -/
theorem Context.caster_editAll (context : Context) (edits : List Context.Edit) :
    (context.editAll edits).caster = context.caster := by
  induction edits generalizing context with
  | nil => rfl
  | cons edit rest ih =>
    refine (ih (context.edit edit)).trans ?_
    cases edit <;> rfl

/-- Whoever opens a context is its caster. -/
theorem World.caster_openContext (world : World) (opening : Opening) :
    (world.openContext opening).caster = opening.caster :=
  Context.caster_editAll _ opening.edits

namespace EffectRoster

variable {roster : EffectRoster} {next : Nat} {owner : EntityId} {effect touched : Effect}

/-- The live effects after one took hold and took cues along. -/
theorem live_begun (sound : roster.Sound next owner) (numbered : effect.id.raw = next)
    (placed : effect.target = owner) (live : effect.isLive = true)
    (full : effect.magnitudes.length = effect.definition.modifiers.length) (cues : List CueId) :
    ((roster.insert effect).modify effect.id (·.cued cues)).live =
      roster.live ++ [effect.cued cues] := by
  have attached : effect.state ≠ .pending := by
    intro pending
    rw [Effect.isLive, pending] at live
    cases live
  have begun : (roster.insert effect).live = roster.live ++ [effect] := by
    rw [EffectRoster.live, insert, List.filter_append, List.filter_cons_of_pos live]
    rfl
  rw [live_modify (sound.insert numbered placed attached full) fun other _ =>
    other.isLive_cued cues, begun, List.map_append, List.map_singleton, if_pos rfl]
  refine congrArg (· ++ _) ((List.map_congr_left fun other member => ?_).trans (List.map_id _))
  have below := sound.below other (List.mem_filter.1 member).1
  exact if_neg fun same => by
    rw [same, numbered] at below
    exact Nat.lt_irrefl _ below

/-- The live effects after one was replaced and took cues along. -/
theorem live_raised (sound : roster.Sound next owner) (found : roster.get? effect.id = some effect)
    (same : touched.id = effect.id) (live : touched.isLive = effect.isLive) (cues : List CueId) :
    ((roster.modify effect.id fun _ => touched).modify effect.id (·.cued cues)).live =
      roster.live.map fun other => if other.id = effect.id then touched.cued cues else other := by
  rw [replace_modify same]
  refine live_modify sound fun other stored => ?_
  cases found.symm.trans stored
  rw [Effect.isLive_cued, live]

end EffectRoster

/-- An effect that grants no tags takes hold without any. -/
theorem Entity.tags_holding (entity : Entity) {effect : Effect}
    (none : effect.definition.tags.granted.tags = []) (appliedAt : Float) :
    (entity.holding effect appliedAt).tags = entity.tags :=
  congrArg (entity.tags.addEach · |>.2) none

namespace World

variable {world after : World} {dose : Dose} {policy : StackingPolicy} {context : Context}
  {target : EntityId} {entity : Entity} {handle : EffectHandle} {effect : Effect}

/-- An effect that owns some cues is found with them. -/
theorem Plays.effect? (plays : world.Plays after handle)
    (found : world.effect? handle = some effect) :
    ∃ cues, after.effect? handle = some (effect.cued cues) := by
  obtain ⟨cues, alters⟩ := plays
  obtain ⟨entity, registered, stored, _⟩ := of_effect? found
  refine ⟨cues, ?_⟩
  rw [effect?_eq (alters.self registered), Entity.onEffects,
    EffectRoster.get?_modify (Effect.id_cued cues), if_pos rfl, stored]
  rfl

/-- The pulses of a live effect whose pulses lead to cues alone. -/
theorem takes_pulses (standard : world.Standard) (found : world.effect? handle = some effect)
    (live : effect.isLive = true) (owned : effect.context.owner = some handle)
    (cues : ∀ node ∈ world.library.connected effect.skill effect.node EffectPort.periodic.name,
      node.category = .cue) (count : Nat) :
    ∃ taken after, world.Takes [.pulses handle count] taken after ∧ world.Plays after handle ∧
      ∀ other, Frame.ports other taken =
        if other = handle then List.replicate count EffectPort.periodic.name else [] := by
  induction count generalizing world effect with
  | zero =>
    refine ⟨_, world, .single (fun _ => rfl) rfl .done, .refl world handle, fun other => ?_⟩
    exact (ite_self _).symm
  | succ count ih =>
    have pulses (reply : Reply) : (Frame.pulses handle (count + 1)).expand world reply =
        { world, frames := [.fire (effect.fires handle .periodic effect.context),
          .pulses handle count] } := by
      simp only [Frame.expand, World.pulses, found, if_pos live]
    obtain ⟨taken, middle, fires, plays, silent⟩ :=
      takes_fire standard (effect.fires handle .periodic effect.context) owned cues
    obtain ⟨started, stored⟩ := plays.effect? found
    have same := effect.cued_eq started
    have library : middle.library = world.library := plays.choose_spec.surroundings.1
    obtain ⟨others, after, onward, more, tells⟩ := ih (plays.standard standard) stored
      ((effect.isLive_cued started).trans live) (by rw [same]; exact owned)
      (by rw [same, library]; exact cues)
    refine ⟨_, after, .single pulses rfl (fires.append onward), plays.trans more, fun other => ?_⟩
    have fired := Frame.ports_fires effect handle .periodic effect.context (taken ++ others) other
    rw [Frame.ports_append, silent, tells] at fired
    refine fired.trans ?_
    split <;> rfl

/-- A cleansing that removes nothing. -/
theorem takes_cleanse (world : World) (target : EntityId) {tags : TagSet} (none : tags.tags = []) :
    ∃ taken, world.Takes [.cleanse target tags] taken world ∧
      ∀ handle, Frame.ports handle taken = [] := by
  cases found : world.entity? target with
  | none =>
    have cleanses (reply : Reply) : (Frame.cleanse target tags).expand world reply =
        .answered world (.count 0) := by
      simp only [Frame.expand, World.cleanse, found]
    exact ⟨_, .single cleanses rfl .done, fun handle => rfl⟩
  | some entity =>
    have cleanses (reply : Reply) : (Frame.cleanse target tags).expand world reply =
        { world, frames := [.removeEach target [] 0] } := by
      have empty : tags.isEmpty = true := List.isEmpty_iff.2 none
      simp only [Frame.expand, World.cleanse, found, EffectRoster.matching, if_pos empty]
    exact ⟨_, .single cleanses rfl (.single (fun _ => rfl) rfl .done), fun handle => rfl⟩

/-- What is live on a target after a new effect took hold there and took cues along. -/
theorem live_newEffect (sound : world.Sound) (registered : world.entity? target = some entity)
    (application : Application) (duration : Float32) (cues : List CueId) :
    ((entity.holding (world.newEffect application target duration) world.time).onEffects
      (·.modify ⟨world.nextEffect⟩ (·.cued cues))).effects.live =
      entity.effects.live ++ [(world.newEffect application target duration).cued cues] :=
  EffectRoster.live_begun (sound.rosters target entity registered) rfl rfl rfl
    (List.length_map _) cues

/-- Where every ongoing requirement is met, a re-check finds nothing. -/
theorem enforce_of_enforced (registered : world.entity? target = some entity)
    (met : entity.Enforced) : world.enforce target = { world } := by
  have none : entity.effects.violating entity.tags.hasAll = [] := by
    refine List.map_eq_nil_iff.2 (List.filter_eq_nil_iff.2 fun effect live => ?_)
    simp [met effect live]
  simp only [enforce, registered, none, List.map_nil]

/-- A new effect without requirements of its own leaves all ongoing requirements met. -/
theorem enforced_newEffect (sound : world.Sound) (plain : dose.Plain world.library policy)
    (registered : world.entity? target = some entity) (met : entity.Enforced) (context : Context)
    (duration : Float32) (cues : List CueId) :
    ((entity.holding (world.newEffect (dose.within context) target duration) world.time).onEffects
      (·.modify ⟨world.nextEffect⟩ (·.cued cues))).Enforced := by
  intro other member
  rw [live_newEffect sound registered] at member
  have kept := @Entity.tags_holding entity (world.newEffect (dose.within context) target duration)
    plain.granted world.time
  refine (congrArg (TagCounts.hasAll · _) kept).trans ?_
  rcases List.mem_append.1 member with before | last
  · exact met other before
  · have none : other.definition.tags.requiredOngoing.tags = [] := by
      rw [List.mem_singleton.1 last, Effect.cued_eq]
      exact plain.requiredOngoing
    rw [TagCounts.hasAll, none]
    rfl

/-- The first port of an effect whose ports lead to cues alone, and some pulses after it. -/
theorem takes_opening (standard : world.Standard) (found : world.effect? handle = some effect)
    (live : effect.isLive = true) (owned : effect.context.owner = some handle)
    (cues : ∀ port : EffectPort,
      ∀ node ∈ world.library.connected effect.skill effect.node port.name, node.category = .cue)
    (count : Nat) :
    ∃ taken after, world.Takes [.fire (effect.fires handle .initial effect.context),
        .pulses handle count] taken after ∧ world.Plays after handle ∧
      ∀ other, Frame.ports other taken = if other = handle then
        EffectPort.initial.name :: List.replicate count EffectPort.periodic.name else [] := by
  obtain ⟨taken, middle, fires, plays, silent⟩ :=
    takes_fire standard (effect.fires handle .initial effect.context) owned (cues .initial)
  obtain ⟨started, stored⟩ := plays.effect? found
  have same := effect.cued_eq started
  have library : middle.library = world.library := plays.choose_spec.surroundings.1
  obtain ⟨others, after, pulses, more, tells⟩ := takes_pulses (plays.standard standard) stored
    ((effect.isLive_cued started).trans live) (by rw [same]; exact owned)
    (by rw [same, library]; exact cues .periodic) count
  refine ⟨_, after, fires.append pulses, plays.trans more, fun other => ?_⟩
  have fired := Frame.ports_fires effect handle .initial effect.context (taken ++ others) other
  rw [Frame.ports_append, silent, tells] at fired
  refine fired.trans ?_
  split <;> rfl

/-- An effect without tags of its own takes hold, and fires its first port and perhaps a pulse. -/
theorem takes_attach (sound : world.Sound) (plain : dose.Plain world.library policy)
    (registered : world.entity? target = some entity) (met : entity.Enforced) (context : Context)
    (duration : Float32) : ∃ taken after cues,
      world.Takes [.attach (dose.within context) target duration] taken after ∧
      World.Alters { world with nextEffect := world.nextEffect + 1 } after target (fun entity =>
        (entity.holding (world.newEffect (dose.within context) target duration)
          world.time).onEffects (·.modify ⟨world.nextEffect⟩ (·.cued cues))) ∧
      ∀ handle, Frame.ports handle taken = if handle = ⟨target, ⟨world.nextEffect⟩⟩ then
        EffectPort.initial.name :: List.replicate dose.atOnce EffectPort.periodic.name else [] := by
  have numbered : World.Numbered { world with nextEffect := world.nextEffect + 1 } := sound.numbered
  have holds := alters_takeHold numbered (world.newEffect (dose.within context) target duration)
  obtain ⟨library, behaviours, _⟩ := holds.surroundings
  have standard : (world.attach (dose.within context) target duration).world.Standard :=
    fun category => (congrFun behaviours category).trans (sound.standard category)
  have stored := sound.effect?_attach (dose.within context) registered duration
  have same : (world.attach (dose.within context) target duration).world.library = world.library :=
    library
  have still :
      dose.Plain (world.attach (dose.within context) target duration).world.library policy :=
    same.symm ▸ plain
  obtain ⟨taken, after, opening, ⟨cues, alters⟩, fired⟩ :=
    takes_opening standard stored rfl rfl still.cues dose.atOnce
  have changed := holds.trans alters
  have rechecks : after.enforce target = { world := after } :=
    enforce_of_enforced (changed.self registered)
      (enforced_newEffect sound plain registered met context duration cues)
  have closing : after.Takes [.enforce target, .answer (.handle ⟨target, ⟨world.nextEffect⟩⟩)]
      [.enforce target, .answer (.handle ⟨target, ⟨world.nextEffect⟩⟩)] after :=
    .step (fun _ => rechecks) rfl (.single (fun _ => rfl) rfl .done)
  refine ⟨_, after, cues, .single (fun _ => rfl) rfl (opening.append closing), changed,
    fun handle => ?_⟩
  have framed := Frame.ports_append handle taken
    [.enforce target, .answer (.handle ⟨target, ⟨world.nextEffect⟩⟩)]
  rw [fired] at framed
  exact framed.trans (List.append_nil _)

/-- What stacking leaves: at the limit the overflow port, if the policy says so, and the answer. -/
theorem frames_overflow (found : world.effect? handle = some effect)
    (stacking : effect.definition.stacking = some policy) (context : Context) :
    (world.stackOnto handle context).frames =
      if policy.maxStacks ≤ effect.stackCount ∧ policy.overflow = .allowOverflowEffect
        then [.fire (effect.fires handle .overflow { context with owner := some handle }),
          .answer (.handle handle)]
        else [.answer (.handle handle)] := by
  simp only [stackOnto_of_policy found stacking, overflowing, Progress.told, Effect.atLimit,
    Bool.and_eq_true, decide_eq_true_eq, beq_iff_eq]
  split <;> rfl

/-- An application stacks onto an instance of the same dose, and the overflow port fires if the
instance is at its limit and the policy says so. -/
theorem takes_stackOnto (standard : world.Standard) (plain : dose.Plain world.library policy)
    (found : world.effect? handle = some effect) (skill : effect.skill = dose.skill)
    (node : effect.node = dose.node) (definition : effect.definition = dose.definition)
    (context : Context) : ∃ taken after cues updates,
      (world.stackOnto handle context).world.Takes (world.stackOnto handle context).frames taken
        after ∧ (effect.restack policy).Tracks updates ∧
      world.Alters after handle.target (fun entity =>
        (entity.restacking handle.id (effect.restack policy) updates).onEffects
          (·.modify handle.id (·.cued cues))) ∧
      ∀ other, Frame.ports other taken =
        if other = handle ∧ policy.maxStacks ≤ effect.stackCount ∧
          policy.overflow = .allowOverflowEffect then [EffectPort.overflow.name] else [] := by
  have stacking : effect.definition.stacking = some policy := definition ▸ plain.stacking
  have frames := frames_overflow found stacking context
  obtain ⟨updates, tracks, alters⟩ := alters_stackOnto found stacking context
  obtain ⟨library, behaviours, _⟩ := alters.surroundings
  generalize (world.stackOnto handle context).world = stacked at alters library behaviours ⊢
  have answers {world : World} : world.Takes [.answer (.handle handle)] [.answer (.handle handle)]
      world := .single (fun _ => rfl) rfl .done
  by_cases overflows : policy.maxStacks ≤ effect.stackCount ∧ policy.overflow = .allowOverflowEffect
  · rw [frames, if_pos overflows]
    have standard : stacked.Standard := fun category =>
      (congrFun behaviours category).trans (standard category)
    have leads := (library.symm ▸ plain : dose.Plain stacked.library policy).cues .overflow
    rw [← skill, ← node] at leads
    obtain ⟨taken, after, fires, ⟨cues, plays⟩, silent⟩ := takes_fire standard
      (effect.fires handle .overflow { context with owner := some handle }) rfl leads
    refine ⟨_, after, cues, updates, fires.append answers, tracks, alters.trans plays,
      fun other => ?_⟩
    rw [Frame.ports_append, Frame.ports_fires, silent, List.append_nil]
    refine (List.append_nil _).trans ?_
    by_cases same : other = handle
    · rw [if_pos same, if_pos ⟨same, overflows⟩]
    · rw [if_neg same, if_neg fun both => same both.1]
  · rw [frames, if_neg overflows]
    have nothing : (Effect.cued [] : Effect → Effect) = fun effect => effect :=
      funext Effect.cued_nil
    refine ⟨_, stacked, [], updates, answers, tracks, alters.congr fun entity _ => ?_,
      fun other => (if_neg fun both => overflows both.2).symm⟩
    rw [nothing, Entity.onEffects, EffectRoster.modify_same]

/-- Every entity lets a dose in that is kept out by no tag. -/
theorem admits_plain {library : SkillLibrary} (plain : dose.Plain library policy)
    (entity : Entity) : admits entity dose.definition = true := by
  simp [admits, TagCounts.hasAll, TagCounts.hasAny, plain.requiredToApply, plain.immunity]

/-- An application that finds an instance to stack onto stacks onto it. -/
theorem applyTo_plain {library : SkillLibrary} (plain : dose.Plain library policy)
    (registered : world.entity? target = some entity) {key : EffectId}
    (found : entity.effects.findStackable? dose.skill dose.node dose.definition context.caster =
      some key) :
    world.applyTo (dose.within context) target = world.stackOnto ⟨target, key⟩ context := by
  have ways := world.applying (dose.within context) target
  generalize world.applyTo (dose.within context) target = progress at ways ⊢
  cases ways with
  | refused shut => cases (shut entity registered).symm.trans (admits_plain plain entity)
  | written stored _ atOnce =>
    cases registered.symm.trans stored
    rcases atOnce with instant | ⟨_, unmatched, _⟩
    · exact absurd instant plain.not_instant
    · cases found.symm.trans unmatched
  | stacked stored _ _ matched =>
    cases registered.symm.trans stored
    cases found.symm.trans matched
    rfl
  | held stored _ _ unmatched =>
    cases registered.symm.trans stored
    cases found.symm.trans unmatched

/-- An application that finds none is to take hold. -/
theorem applyTo_plain_of_none {library : SkillLibrary} (plain : dose.Plain library policy)
    (registered : world.entity? target = some entity)
    (none : entity.effects.findStackable? dose.skill dose.node dose.definition context.caster =
      none) :
    ∃ duration, world.applyTo (dose.within context) target =
      { world, frames := lastingly (dose.within context) target duration } := by
  have ways := world.applying (dose.within context) target
  generalize world.applyTo (dose.within context) target = progress at ways ⊢
  cases ways with
  | refused shut => cases (shut entity registered).symm.trans (admits_plain plain entity)
  | written stored _ atOnce =>
    rcases atOnce with instant | ⟨timed, _, timeless⟩
    · exact absurd instant plain.not_instant
    · rcases plain.lasts with lasts | ⟨_, seconds, fixed, positive⟩
      · cases lasts.symm.trans timed
      · have resolved : world.resolve dose.definition.duration
            (.of context target 1) = seconds.value := by
          simp [fixed, resolve, Scene.resolve]
        exact absurd (resolved ▸ timeless) (Single.not_le_of_lt positive)
  | stacked stored _ _ matched =>
    cases registered.symm.trans stored
    cases none.symm.trans matched
  | held => exact ⟨_, rfl⟩

/-- A request that finds no instance to stack onto lets a new one take hold. -/
theorem takes_begin (sound : world.Sound) (plain : dose.Plain world.library policy)
    (registered : world.entity? target = some entity) (met : entity.Enforced) (opening : Opening)
    (none : entity.effects.findStackable? dose.skill dose.node dose.definition opening.caster =
      none) : ∃ taken after duration cues,
      world.Takes [.perform (dose.request target opening)] taken after ∧
      World.Alters { world with nextEffect := world.nextEffect + 1 } after target (fun entity =>
        (entity.holding (world.newEffect (dose.within (world.openContext opening)) target duration)
          world.time).onEffects (·.modify ⟨world.nextEffect⟩ (·.cued cues))) ∧
      ∀ handle, Frame.ports handle taken = if handle = ⟨target, ⟨world.nextEffect⟩⟩ then
        EffectPort.initial.name :: List.replicate dose.atOnce EffectPort.periodic.name else [] := by
  rw [← world.caster_openContext opening] at none
  obtain ⟨duration, applies⟩ := applyTo_plain_of_none plain registered none
  obtain ⟨cleansed, cleanses, silent⟩ := world.takes_cleanse target
    plain.removeEffectsWithTags
  obtain ⟨held, after, cues, attaches, alters, fired⟩ :=
    takes_attach sound plain registered met (world.openContext opening) duration
  have goes : world.Takes [.apply (dose.within (world.openContext opening)) target]
      (.apply (dose.within (world.openContext opening)) target :: (cleansed ++ held)) after :=
    .single (fun _ => applies) rfl (cleanses.append attaches)
  refine ⟨_, after, duration, cues, .single (fun _ => rfl) rfl goes, alters, fun handle => ?_⟩
  have framed := Frame.ports_append handle cleansed held
  rw [silent, fired] at framed
  exact framed

/-- A request that finds an instance of the same dose stacks onto it. -/
theorem takes_raise (standard : world.Standard) (plain : dose.Plain world.library policy)
    (registered : world.entity? target = some entity) (opening : Opening)
    (found : entity.effects.findStackable? dose.skill dose.node dose.definition opening.caster =
      some effect.id) (stored : entity.effects.get? effect.id = some effect)
    (skill : effect.skill = dose.skill) (node : effect.node = dose.node)
    (definition : effect.definition = dose.definition) : ∃ taken after cues updates,
      world.Takes [.perform (dose.request target opening)] taken after ∧
      (effect.restack policy).Tracks updates ∧
      world.Alters after target (fun entity =>
        (entity.restacking effect.id (effect.restack policy) updates).onEffects
          (·.modify effect.id (·.cued cues))) ∧
      ∀ handle, Frame.ports handle taken =
        if handle = ⟨target, effect.id⟩ ∧ policy.maxStacks ≤ effect.stackCount ∧
          policy.overflow = .allowOverflowEffect then [EffectPort.overflow.name] else [] := by
  rw [← world.caster_openContext opening] at found
  have applies := applyTo_plain plain registered found
  have place : world.effect? ⟨target, effect.id⟩ = some effect :=
    (effect?_eq registered).trans stored
  obtain ⟨taken, after, cues, updates, onto, tracks, alters, fired⟩ :=
    takes_stackOnto standard plain place skill node definition (world.openContext opening)
  have kept : (world.stackOnto ⟨target, effect.id⟩ (world.openContext opening)).lost = false := by
    rw [stackOnto_of_policy place (definition ▸ plain.stacking), Progress.told]
  have goes : world.Takes [.apply (dose.within (world.openContext opening)) target]
      (.apply (dose.within (world.openContext opening)) target :: taken) after :=
    .single (fun _ => applies) kept onto
  exact ⟨_, after, cues, updates, .single (fun _ => rfl) rfl goes, tracks, alters, fired⟩

end World

end SkillEngine
