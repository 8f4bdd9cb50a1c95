import SkillEngine.Proofs.Applications
import SkillEngine.Proofs.Consistency
import SkillEngine.Proofs.Limits
import SkillEngine.Proofs.Magnitudes

/-!
# Tracked magnitudes and stack counts

A tracked magnitude that depends on the stack count and the context of its effect alone is *tuned*
to a stack count when it has the value for that count. A tick of the effect and an application
stacked onto it tune it to the count that it then has; the loss of a stack leaves it tuned to the
count before. So it lags behind from the loss of a stack until the effect is next refreshed, and at
no other time; and what the effect has attached has the same magnitudes.
-/

namespace SkillEngine

namespace Effect

/-- Renewing a slot with one value leaves it with that value. -/
theorem getElem?_renewed {effect : Effect} {updates : List (Nat × AttributeId × Float32)}
    {slot : Nat} {magnitude : Float32} (room : slot < effect.magnitudes.length)
    (agree : ∀ attr other, (slot, attr, other) ∈ updates → other = magnitude)
    (renews : (∃ attr, (slot, attr, magnitude) ∈ updates) ∨
      effect.magnitudes[slot]? = some magnitude) :
    (effect.renewed updates).magnitudes[slot]? = some magnitude := by
  induction updates generalizing effect with
  | nil =>
    rcases renews with ⟨_, member⟩ | stored
    · cases member
    · exact stored
  | cons update rest ih =>
    obtain ⟨place, attr, value⟩ := update
    have wide : slot < (effect.setMagnitude place value).magnitudes.length := by
      simpa [setMagnitude] using room
    refine ih wide (fun attr other member => agree attr other (List.mem_cons_of_mem _ member)) ?_
    by_cases same : place = slot
    · subst same
      have equal := agree attr value List.mem_cons_self
      exact .inr (by simp [setMagnitude, room, equal])
    · rcases renews with ⟨other, member⟩ | stored
      · rcases List.mem_cons.1 member with equal | later
        · cases equal
          exact absurd rfl same
        · exact .inl ⟨other, later⟩
      · exact .inr (by simpa [setMagnitude, List.getElem?_set_ne same] using stored)

/-- Stacking leaves a magnitude in every slot. -/
theorem full_restack {effect : Effect}
    (full : effect.magnitudes.length = effect.definition.modifiers.length)
    (policy : StackingPolicy) : (effect.restack policy).magnitudes.length =
      (effect.restack policy).definition.modifiers.length := by
  unfold restack
  dsimp only
  split
  · exact full
  · exact full

/-- What decides about the magnitudes of an instance stays, its stack count apart. -/
structure KeepsTune (before after : Effect) : Prop where
  /-- The definition stays. -/
  definition : after.definition = before.definition
  /-- The target stays. -/
  target : after.target = before.target
  /-- The magnitudes stay. -/
  magnitudes : after.magnitudes = before.magnitudes
  /-- The context gives the same. -/
  context : before.context.Agrees after.context

/-- An instance keeps its tune. -/
theorem KeepsTune.refl (effect : Effect) : effect.KeepsTune effect := ⟨rfl, rfl, rfl, .refl _⟩

end Effect

/-- The frame may resolve tracked magnitudes or change stack counts. -/
def Frame.isTuning : Frame → Bool
  | .apply .. | .expire _ | .tickEffect .. => true
  | _ => false

namespace World

variable {world after : World} {frame : Frame} {handle : EffectHandle}

/-- The own tracked magnitudes of an effect are those for a stack count. -/
def Tuned (world : World) (effect : Effect) (count : Nat) : Prop :=
  ∀ (slot : Nat) (modifier : Modifier), effect.definition.modifiers[slot]? = some modifier →
    modifier.capture = .track → modifier.magnitude.isOwn = true →
      effect.magnitudes[slot]? =
        some (world.resolve modifier.magnitude (.of effect.context effect.target count))

/-- An effect that keeps its tune is tuned to what it was, wherever the names are the same. -/
theorem Tuned.keeps {before effect : Effect} {count : Nat} (tuned : world.Tuned before count)
    (keeps : before.KeepsTune effect) (names : after.scene.names = world.scene.names) :
    after.Tuned effect count := by
  intro slot modifier stored tracked own
  rw [keeps.definition] at stored
  rw [keeps.magnitudes, tuned slot modifier stored tracked own, keeps.target,
    resolve_own names own keeps.context]

/-- An effect whose tracked magnitudes have just been resolved is tuned to its stack count. -/
theorem tuned_renewed (world : World) {effect : Effect}
    (full : effect.magnitudes.length = effect.definition.modifiers.length) :
    world.Tuned (effect.renewed (world.trackedMagnitudes effect))
      (effect.renewed (world.trackedMagnitudes effect)).stackCount := by
  intro slot modifier stored tracked own
  rw [Effect.renewed_eq] at stored ⊢
  have listed : (slot, modifier.attr, world.resolve modifier.magnitude
      (.of effect.context effect.target effect.stackCount)) ∈ world.trackedMagnitudes effect := by
    refine List.mem_map.2 ⟨(modifier, slot), List.mem_filter.2 ⟨?_, by simp [tracked]⟩, rfl⟩
    exact List.mem_zipIdx_iff_getElem?.2 stored
  refine Effect.getElem?_renewed ?_ (fun attr other member => ?_) (.inl ⟨_, listed⟩)
  · rw [full]
    exact (List.getElem?_eq_some_iff.1 stored).1
  · obtain ⟨⟨also, place⟩, kept, same⟩ := List.mem_map.1 member
    have placed := List.mem_zipIdx_iff_getElem?.1 (List.mem_filter.1 kept).1
    cases same
    cases stored.symm.trans placed
    rfl

/-- A new effect is tuned to one stack. -/
theorem tuned_newEffect (world : World) (application : Application) (target : EntityId)
    (duration : Float32) : world.Tuned (world.newEffect application target duration) 1 := by
  intro slot modifier stored _ _
  have placed : application.definition.modifiers[slot]? = some modifier := stored
  simp only [newEffect, magnitudesOf, List.getElem?_map]
  rw [placed]
  rfl

/-- The application of something that lasts stacks onto an instance that has a policy. -/
def StacksOnto (world : World) (application : Application) (handle : EffectHandle) : Prop :=
  ∃ effect policy, world.effect? handle = some effect ∧
    effect.definition.stacking = some policy ∧
    world.applyTo application handle.target = world.stackOnto handle application.context

/-- An effect that runs out loses a stack. -/
def Lapses (world : World) (handle : EffectHandle) (count : Nat) : Prop :=
  ∃ effect policy, world.effect? handle = some effect ∧ effect.stackCount = count ∧
    effect.definition.stacking = some policy ∧
    policy.expiration = .removeSingleStackAndRefreshDuration

/-- The frame resolves the tracked magnitudes of an effect anew: time passes for it, or an
application stacks onto it. -/
def Refreshes (world : World) (handle : EffectHandle) (frame : Frame) : Prop :=
  (∃ seconds, frame = .tickEffect handle seconds) ∨
    ∃ application, frame = .apply application handle.target ∧ world.StacksOnto application handle

/-- What becomes of the tune of an effect in a frame, which leaves a world. -/
inductive Retunes (world : World) (frame : Frame) (handle : EffectHandle) (after : World)
    (before effect : Effect) : Prop where
  /-- It is kept. -/
  | kept (keeps : before.KeepsTune effect) (count : effect.stackCount = before.stackCount)
      (idle : ¬ world.Refreshes handle frame)
  /-- A stack is lost. -/
  | lapsed (keeps : before.KeepsTune effect) (expires : frame = .expire handle)
      (lapses : world.Lapses handle before.stackCount)
  /-- It is made anew. -/
  | tuned (refreshes : world.Refreshes handle frame) (tuned : after.Tuned effect effect.stackCount)

/-- An effect stays as it is in a frame that does not refresh it. -/
theorem retunes_idle {effect : Effect} (found : world.effect? handle = some effect)
    (idle : ¬ world.Refreshes handle frame) : ∃ before, world.effect? handle = some before ∧
      world.Retunes frame handle after before effect :=
  ⟨effect, found, .kept (.refl effect) rfl idle⟩

/-- An effect that is refreshed in a world that it was put into is tuned to its stack count. -/
theorem tuned_replaced {before touched : Effect} (found : world.effect? handle = some before)
    (same : touched.id = handle.id)
    (full : touched.magnitudes.length = touched.definition.modifiers.length)
    (names : after.scene.names = world.scene.names) :
    after.Tuned (touched.renewed ((world.modifyEffect handle fun _ => touched).renewals handle))
      (touched.renewed
        ((world.modifyEffect handle fun _ => touched).renewals handle)).stackCount := by
  unfold renewals
  rw [effect?_modifyEffect found same]
  have tuned := tuned_renewed (world.modifyEffect handle fun _ => touched) full
  exact tuned.keeps (.refl _) names

/-- An application stacks onto an instance, which it answers with, or leaves the world alone. -/
theorem applyTo_stacks_or_stays (world : World) (application : Application) (target : EntityId) :
    (∃ key, world.applyTo application target =
      world.stackOnto ⟨target, key⟩ application.context) ∨
    (world.applyTo application target).world = world ∧
      ∀ handle,
        (world.applyTo application target).frames.getLast? ≠ some (.answer (.handle handle)) := by
  have ways := world.applying application target
  generalize world.applyTo application target = progress at ways ⊢
  cases ways with
  | refused | written | held => exact .inr ⟨rfl, fun handle same => by cases same⟩
  | stacked => exact .inl ⟨_, rfl⟩

/-- Stacking onto an instance without a policy leaves the world alone. -/
theorem world_stackOnto (context : Context)
    (unstacked : ∀ effect policy, world.effect? handle = some effect →
      effect.definition.stacking ≠ some policy) :
    (world.stackOnto handle context).world = world := by
  rcases world.stackOnto_stacks_or_answers handle context with
    ⟨effect, policy, found, stacking⟩ | answers
  · exact absurd stacking (unstacked effect policy found)
  · rw [answers]

/-- The instance that an application stacks onto is the one that it answers with. -/
theorem StacksOnto.eq {application : Application} {other : EffectHandle}
    (onto : world.StacksOnto application handle)
    (applies : world.applyTo application handle.target =
      world.stackOnto other application.context) : handle = other := by
  obtain ⟨_, _, _, _, answers⟩ := onto
  obtain ⟨inner, left, _⟩ := world.frames_stackOnto handle application.context
  obtain ⟨others, frames, _⟩ := world.frames_stackOnto other application.context
  have last : (inner ++ [Frame.answer (.handle handle)]).getLast? =
      (others ++ [Frame.answer (.handle other)]).getLast? := by
    rw [← left, ← frames, ← applies, answers]
  simpa using last

/-- What an application makes of the tune of an effect. -/
theorem retunes_applyTo (sound : world.Sound) {application : Application} {target : EntityId}
    {effect : Effect}
    (found : (world.applyTo application target).world.effect? handle = some effect) :
    ∃ before, world.effect? handle = some before ∧
      world.Retunes (.apply application target) handle
        (world.applyTo application target).world before effect := by
  have idle (alone : handle.target = target → ¬ world.StacksOnto application handle) :
      ¬ world.Refreshes handle (.apply application target) := by
    rintro (⟨_, ticks⟩ | ⟨other, applies, onto⟩)
    · cases ticks
    · cases applies
      exact alone rfl onto
  rcases world.applyTo_stacks_or_stays application target with ⟨key, applies⟩ | ⟨stays, answers⟩
  · by_cases stacking : ∃ before policy, world.effect? ⟨target, key⟩ = some before ∧
        before.definition.stacking = some policy
    · obtain ⟨before, policy, was, stacking⟩ := stacking
      have replaced := effect?_stackOnto was stacking application.context handle
      rw [← applies, found] at replaced
      split at replaced
      · next same =>
        subst same
        cases replaced
        obtain ⟨number, _⟩ := edits_stackOnto was stacking application.context
        obtain ⟨entity, registered, stored, _⟩ := of_effect? was
        have full := (sound.rosters _ _ registered).full before (EffectRoster.mem_of_get? stored).1
        exact ⟨before, was, .tuned (.inr ⟨application, rfl, before, policy, was, stacking, applies⟩)
          (tuned_replaced was number (Effect.full_restack full policy)
            (stays_applyTo world application target).names)⟩
      · next apart =>
        refine retunes_idle replaced.symm (idle ?_)
        rintro rfl onto
        exact apart (onto.eq applies)
    · have unstacked : ∀ effect policy, world.effect? ⟨target, key⟩ = some effect →
          effect.definition.stacking ≠ some policy :=
        fun effect policy was policed => stacking ⟨effect, policy, was, policed⟩
      have stays := world_stackOnto application.context unstacked
      rw [applies, stays] at found
      refine retunes_idle found (idle ?_)
      rintro rfl onto
      have same := onto.eq applies
      obtain ⟨effect, policy, was, policed, _⟩ := onto
      exact unstacked effect policy (same ▸ was) policed
  · refine retunes_idle (stays ▸ found) (idle ?_)
    rintro rfl ⟨_, _, _, _, onto⟩
    obtain ⟨inner, frames, _⟩ := world.frames_stackOnto handle application.context
    refine answers handle ?_
    rw [onto, frames]
    simp

/-- What time passing for an effect makes of the tune of an effect. -/
theorem retunes_tickEffect (sound : world.Sound) {other : EffectHandle} {seconds : Float32}
    {effect : Effect}
    (found : (world.tickEffect other seconds).world.effect? handle = some effect) :
    ∃ before, world.effect? handle = some before ∧
      world.Retunes (.tickEffect other seconds) handle
        (world.tickEffect other seconds).world before effect := by
  have idle (apart : handle ≠ other) : ¬ world.Refreshes handle (.tickEffect other seconds) := by
    rintro (⟨_, ticks⟩ | ⟨_, applies, _⟩)
    · cases ticks
      exact apart rfl
    · cases applies
  cases was : world.effect? other with
  | none =>
    have stays : (world.tickEffect other seconds).world = world := by
      simp only [tickEffect, was]
    rw [stays] at found
    refine retunes_idle found (idle ?_)
    rintro rfl
    cases was.symm.trans found
  | some before =>
    obtain ⟨entity, registered, stored, number⟩ := of_effect? was
    have full := (sound.rosters _ _ registered).full before (EffectRoster.mem_of_get? stored).1
    obtain ⟨advanced, shape⟩ : ∃ advanced, advanced =
        (Effect.advance { before with context := { before.context with depth := 0 } } seconds).2 :=
      ⟨_, rfl⟩
    have same : advanced.id = other.id ∧ advanced.definition = before.definition ∧
        advanced.magnitudes = before.magnitudes := by
      rw [shape, ← number]
      unfold Effect.advance
      split <;> exact ⟨rfl, rfl, rfl⟩
    have ticked : (world.tickEffect other seconds).world =
        if before.definition.tracks
          then (world.modifyEffect other fun _ => advanced).refreshTracked other
          else world.modifyEffect other fun _ => advanced := by
      rw [shape]
      simp only [tickEffect, was]
    have names := (stays_tickEffect world other seconds).names
    by_cases here : handle = other
    · subst here
      refine ⟨before, was, .tuned (.inl ⟨seconds, rfl⟩) ?_⟩
      by_cases tracks : before.definition.tracks = true
      · rw [if_pos tracks] at ticked
        rw [ticked] at found names ⊢
        rw [(edits_track world same.1).effect?_replace was ?_, if_pos rfl] at found
        · cases found
          exact tuned_replaced was same.1 (by rw [same.2.1, same.2.2]; exact full) names
        · rw [Effect.renewed_eq]
          exact same.1
      · -- Nothing is tracked.
        rw [if_neg tracks] at ticked
        rw [ticked] at found
        rw [effect?_modifyEffect was same.1] at found
        cases found
        intro slot modifier placed tracked
        rw [same.2.1] at placed
        refine absurd (List.any_eq_true.2 ⟨modifier, List.mem_of_getElem? placed, ?_⟩) tracks
        rw [tracked]
        rfl
    · refine retunes_idle ?_ (idle here)
      rw [← found, ticked]
      split
      · rw [(edits_track world same.1).effect?_replace was
          (by rw [Effect.renewed_eq]; exact same.1), if_neg here]
      · rw [(edits_modifyEffect world other _).effect?_replace was same.1, if_neg here]

/-- What treating an effect as run out makes of the tune of an effect. -/
theorem retunes_expire {other : EffectHandle} {effect : Effect}
    (found : (world.expire other).world.effect? handle = some effect) :
    ∃ before, world.effect? handle = some before ∧
      world.Retunes (.expire other) handle (world.expire other).world before effect := by
  have idle : ¬ world.Refreshes handle (.expire other) := by
    rintro (⟨_, ticks⟩ | ⟨_, applies, _⟩)
    · cases ticks
    · cases applies
  -- Whatever the policy does, it replaces the instance, or leaves the world alone.
  have replaced {after : World} {before touched : Effect} (was : world.effect? other = some before)
      (reached : after.effect? handle = some effect)
      (edits : world.Edits after other.target (·.modify other.id fun _ => touched))
      (same : touched.id = before.id) (keeps : before.KeepsTune touched)
      (count : touched.stackCount = before.stackCount ∨ world.Lapses other before.stackCount) :
      ∃ before, world.effect? handle = some before ∧
        world.Retunes (.expire other) handle after before effect := by
    obtain ⟨_, _, _, number⟩ := of_effect? was
    rw [edits.effect?_replace was (same.trans number)] at reached
    split at reached
    · next here =>
      subst here
      cases reached
      rcases count with count | lapses
      · exact ⟨before, was, .kept keeps count idle⟩
      · exact ⟨before, was, .lapsed keeps rfl lapses⟩
    · exact retunes_idle reached idle
  have ways := world.lapsing other
  generalize world.expire other = progress at ways found ⊢
  cases ways with
  | missing | ending => exact retunes_idle found idle
  | @spent before policy was stacking removes =>
    exact replaced was found (edits_modifyEffect world other _) rfl ⟨rfl, rfl, rfl, .refl _⟩
      (.inr ⟨before, policy, was, rfl, stacking, removes⟩)
  | @lessened before policy was stacking removes =>
    have edits := (edits_modifyEffect world other fun _ =>
      { before with stackCount := before.stackCount - 1 }.restartDuration).trans
        (edits_changeSheet _ other.target
          (Entity.spreadAll before.id.source (before.stackCount - 1)))
    exact replaced was found edits rfl ⟨rfl, rfl, rfl, .refl _⟩
      (.inr ⟨before, policy, was, rfl, stacking, removes⟩)
  | restarted was =>
    have edits := (edits_modifyEffect world other (·.restartDuration)).congr fun roster stored =>
      EffectRoster.modify_of_get? (by rwa [effect?_eq_roster, stored] at was) (·.restartDuration)
    exact replaced was found edits rfl ⟨rfl, rfl, rfl, .refl _⟩ (.inl rfl)

/-- A stored effect is found under its number. -/
theorem Sound.effect?_of_mem (sound : world.Sound) {id : EntityId} {entity : Entity}
    (registered : world.entity? id = some entity) {effect : Effect}
    (stored : effect ∈ entity.effects.effects) : world.effect? ⟨id, effect.id⟩ = some effect := by
  unfold effect?
  rw [registered]
  exact (sound.rosters id entity registered).get?_eq stored

/-- What an edited roster stores was stored before in the same tune, or takes hold, unless the frame
stacks, expires or ticks. -/
theorem Edit.keepsTune {id : EntityId} {edit : EffectRoster → EffectRoster} {effect : Effect}
    {roster : EffectRoster} (done : world.Edit frame id edit) (sound : world.Sound)
    (admitted : frame.Admitted fun request => request.isLawful = true)
    (plain : frame.isTuning = false) (there : world.roster? id = some roster)
    (stored : effect ∈ (edit roster).effects) :
    (∃ before, world.effect? ⟨id, effect.id⟩ = some before ∧ before.KeepsTune effect ∧
      effect.stackCount = before.stackCount) ∨
    ∃ application duration, frame = .attach application id duration ∧
      effect = world.newEffect application id duration := by
  obtain ⟨entity, registered, rfl⟩ := Option.map_eq_some_iff.1 there
  have same (old : effect ∈ entity.effects.effects) :
      (∃ before, world.effect? ⟨id, effect.id⟩ = some before ∧ before.KeepsTune effect ∧
        effect.stackCount = before.stackCount) ∨
      ∃ application duration, frame = .attach application id duration ∧
        effect = world.newEffect application id duration :=
    .inl ⟨effect, sound.effect?_of_mem registered old, .refl effect, rfl⟩
  cases done with
  | still | begin => exact same stored
  | @touch _ handle before _ found touches =>
    rcases EffectRoster.mem_replace stored with old | rfl
    · exact same old
    · obtain ⟨_, _, _, number⟩ := of_effect? found
      cases touches with
      | owning =>
        have present : world.effect? ⟨handle.target, before.id⟩ = some before := by
          rw [number]
          exact found
        exact .inl ⟨before, present, ⟨rfl, rfl, rfl, .refl _⟩, rfl⟩
      | stacked applies =>
        subst applies
        cases plain
      | spent expires | lessened expires | restarted expires =>
        subst expires
        cases plain
      | ticked ticks =>
        subst ticks
        cases plain
  | release =>
    obtain ⟨earlier, old, rfl⟩ :=
      EffectRoster.mem_release (sound.rosters _ _ registered) stored
    have found := sound.effect?_of_mem registered old
    split
    · exact .inl ⟨earlier, found, ⟨rfl, rfl, rfl, .refl _⟩, rfl⟩
    · exact .inl ⟨earlier, found, .refl _, rfl⟩
  | insert =>
    rcases List.mem_append.1 stored with old | new
    · exact same old
    · exact .inr ⟨_, _, rfl, List.mem_singleton.1 new⟩
  | finish => exact same (List.mem_of_mem_filter stored)
  | @asked _ request =>
    rcases admitted with reading | nested
    · cases request <;> first | exact same stored | cases reading
    · cases nested

/-- What a frame makes of the tune of an effect, unless the effect is a new one. -/
theorem retunes_expand (sound : world.Sound) (reply : Reply)
    (admitted : frame.Admitted fun request => request.isLawful = true) {effect : Effect}
    (found : (frame.expand world reply).world.effect? handle = some effect) :
    (∃ before, world.effect? handle = some before ∧
      world.Retunes frame handle (frame.expand world reply).world before effect) ∨
    ∃ application duration, frame = .attach application handle.target duration ∧
      effect = world.newEffect application handle.target duration := by
  cases plain : frame.isTuning with
  | true =>
    cases frame with
    | apply => exact .inl (retunes_applyTo sound found)
    | expire => exact .inl (retunes_expire found)
    | tickEffect => exact .inl (retunes_tickEffect sound found)
    | _ => cases plain
  | false =>
    have idle : ¬ world.Refreshes handle frame := by
      rintro (⟨_, rfl⟩ | ⟨_, rfl, _⟩) <;> cases plain
    rw [effect?_eq_roster] at found
    obtain ⟨roster, there, placed⟩ := Option.bind_eq_some_iff.1 found
    obtain ⟨stored, number⟩ := EffectRoster.mem_of_get? placed
    have same (old : world.roster? handle.target = some roster) :
        ∃ before, world.effect? handle = some before ∧
          world.Retunes frame handle (frame.expand world reply).world before effect := by
      refine retunes_idle ?_ idle
      rw [effect?_eq_roster, old]
      exact placed
    cases enrols : frame.enrols with
    | true =>
      rcases (musters_expand world reply enrols).rosters _ roster there with
        old | ⟨newcomer, origin, rfl⟩
      · exact .inl (same old)
      · rw [origin.elim (sound.waiting newcomer) id] at stored
        cases stored
    | false =>
      obtain ⟨id, edit, done, edits⟩ := editsOnce_expand world reply enrols
      obtain ⟨earlier, was, shape⟩ := edits.origin there
      split at shape
      · next here =>
        subst here shape
        refine (done.keepsTune sound admitted plain was stored).imp_left ?_
        rintro ⟨before, present, keeps, count⟩
        rw [number] at present
        exact ⟨before, present, .kept keeps count idle⟩
      · exact .inl (same (was.trans (congrArg some shape.symm)))

end World

namespace Entity

/-- The modifiers that an effect has attached in a slot carry a magnitude, and there is one. -/
def Carries (entity : Entity) (key : EffectId) (id : AttributeId) (slot : Nat)
    (magnitude : Float32) : Prop :=
  ∀ attr, entity.attributes.get? id = some attr →
    (∃ active ∈ attr.modifiers, active.source = key.source ∧ active.slot = slot) ∧
    ∀ active ∈ attr.modifiers, active.source = key.source → active.slot = slot →
      active.magnitude = magnitude

variable {entity : Entity} {next : Nat} {owner : EntityId}

/-- What a live effect has attached is shown under a view that lets some attachments through, those
of the effect among them: then the modifiers carry its magnitudes. -/
theorem Shows.carries {view : Attachment → Option Attachment} (shows : entity.Shows view)
    (passes : ∀ attachment other, view attachment = some other → other = attachment)
    (sound : entity.effects.Sound next owner) {effect : Effect}
    (live : effect ∈ entity.effects.live)
    (seen : ∀ attachment : Attachment, attachment.source = effect.id.source →
      view attachment = some attachment) {slot : Nat} {modifier : Modifier} {magnitude : Float32}
    (stored : effect.definition.modifiers[slot]? = some modifier)
    (resolved : effect.magnitudes[slot]? = some magnitude) :
    entity.Carries effect.id modifier.attr slot magnitude := by
  intro attr found
  have same := shows _ attr found
  have attached (attachment : Attachment) (own : attachment.source = effect.id.source) :
      attachment ∈ attr.attachments ↔
        attachment ∈ entity.effects.live.flatMap (·.attachments modifier.attr) := by
    have visible (list : List Attachment) :
        attachment ∈ list.filterMap view ↔ attachment ∈ list := by
      rw [List.mem_filterMap]
      constructor
      · rintro ⟨other, member, shown⟩
        rw [passes other attachment shown]
        exact member
      · exact fun member => ⟨attachment, member, seen attachment own⟩
    rw [← visible, same, visible]
  refine ⟨?_, fun active member own place => ?_⟩
  · -- The slot of the effect is among what it attaches.
    have zipped : (effect.definition.modifiers.zip effect.magnitudes)[slot]? =
        some (modifier, magnitude) := List.getElem?_zip_eq_some.2 ⟨stored, resolved⟩
    have listed :
        (⟨modifier.op, magnitude, effect.id.source, slot, effect.stackCount⟩ : Attachment) ∈
        entity.effects.live.flatMap (·.attachments modifier.attr) := by
      refine List.mem_flatMap.2
        ⟨effect, live, List.mem_map.2 ⟨((modifier, magnitude), slot), ?_, rfl⟩⟩
      exact List.mem_filter.2 ⟨List.mem_zipIdx_iff_getElem?.2 zipped, decide_eq_true rfl⟩
    obtain ⟨active, member, shape⟩ := List.mem_map.1 ((attached _ rfl).2 listed)
    exact ⟨active, member, congrArg Attachment.source shape, congrArg Attachment.slot shape⟩
  · have listed := (attached active.attachment own).1 (List.mem_map.2 ⟨active, member, rfl⟩)
    obtain ⟨other, alive, among⟩ := List.mem_flatMap.1 listed
    have number : other.id = effect.id := by
      refine EffectId.source_inj ?_
      rw [← (Effect.of_mem_attachments among).1]
      exact own
    have equal : other = effect := by
      have first := sound.get?_eq (List.mem_filter.1 alive).1
      rw [number, sound.get?_eq (List.mem_filter.1 live).1] at first
      exact (Option.some.inj first).symm
    obtain ⟨⟨⟨also, value⟩, index⟩, entry, shape⟩ := List.mem_map.1 among
    have zipped := List.mem_zipIdx_iff_getElem?.1 (List.mem_filter.1 entry).1
    have position : index = slot := (congrArg Attachment.slot shape).trans place
    rw [equal, position] at zipped
    have placed := (List.getElem?_zip_eq_some.1 zipped).2
    cases resolved.symm.trans placed
    exact (congrArg Attachment.magnitude shape).symm

end Entity

namespace Cascade

/-- With the next frame an effect that runs out loses a stack. -/
def LosesStack (cascade : Cascade) (handle : EffectHandle) (count : Nat) : Prop :=
  ∃ rest, cascade.agenda = .expire handle :: rest ∧ cascade.world.Lapses handle count

/-- The next frame resolves the tracked magnitudes of an effect anew. -/
def Refreshes (cascade : Cascade) (handle : EffectHandle) : Prop :=
  ∃ frame rest, cascade.agenda = frame :: rest ∧ cascade.world.Refreshes handle frame

end Cascade

namespace Session

variable {admits : Request → Prop} {start : World} {past : List Cascade} {now : Cascade}

/-- Since an effect had a stack count its own tracked magnitudes were not resolved anew: they are
for that count still, although a stack was lost then. -/
def Lags (past : List Cascade) (now : Cascade) (handle : EffectHandle) (effect : Effect) : Prop :=
  ∃ before lapse during count, past = before ++ lapse :: during ∧ lapse.LosesStack handle count ∧
    (∀ state ∈ during, ¬ state.Refreshes handle) ∧ now.world.Tuned effect count

/-- What lags goes on lagging as long as it keeps its tune and is not refreshed. -/
theorem Lags.step {handle : EffectHandle} {before effect : Effect} {next : Cascade}
    (lags : Lags past now handle before) (keeps : before.KeepsTune effect)
    (names : next.world.scene.names = now.world.scene.names) (idle : ¬ now.Refreshes handle) :
    Lags (past ++ [now]) next handle effect := by
  obtain ⟨earlier, lapse, during, count, rfl, loses, unrefreshed, tuned⟩ := lags
  refine ⟨earlier, lapse, during ++ [now], count, by simp, loses, fun state member => ?_,
    tuned.keeps keeps names⟩
  rcases List.mem_append.1 member with early | last
  · exact unrefreshed state early
  · exact List.mem_singleton.1 last ▸ idle

/-- Throughout a session the own tracked magnitudes of an effect are those for its stack count, or
they lag behind the loss of a stack. -/
theorem tuned_or_lags (calm : start.Calm)
    (lawful : ∀ request, admits request → request.isLawful = true)
    (session : Session admits start past now) {handle : EffectHandle} {effect : Effect}
    (found : now.world.effect? handle = some effect) :
    now.world.Tuned effect effect.stackCount ∨ Lags past now handle effect := by
  induction session generalizing effect with
  | opened => cases (calm.missing handle).symm.trans found
  | @asked past now request session done admitted ih =>
    have idle : ¬ now.Refreshes handle := by
      rintro ⟨frame, rest, next, _⟩
      cases done.symm.trans next
    exact (ih found).imp_right fun lags => lags.step (.refl effect) rfl idle
  | @stepped past now frame rest session next kept ih =>
    have sound := session.sound calm lawful
    have admitted := (session.first calm lawful next).mono lawful
    have names : now.step.world.scene.names = now.world.scene.names := by
      rw [Cascade.world_step next]
      exact World.names_expand now.world now.reply frame
    have unrefreshed (idle : ¬ now.world.Refreshes handle frame) : ¬ now.Refreshes handle := by
      rintro ⟨other, others, also, refreshes⟩
      cases next.symm.trans also
      exact idle refreshes
    have stored := found
    rw [Cascade.world_step next] at stored
    rcases World.retunes_expand sound now.reply admitted stored with
      ⟨before, was, retunes⟩ | ⟨application, duration, rfl, rfl⟩
    · cases retunes with
      | kept keeps count idle =>
        rw [count]
        exact (ih was).imp (fun tuned => tuned.keeps keeps names)
          fun lags => lags.step keeps names (unrefreshed idle)
      | lapsed keeps expires lapses =>
        subst expires
        refine .inr ?_
        rcases ih was with tuned | lags
        · exact ⟨past, now, [], before.stackCount, rfl, ⟨rest, next, lapses⟩,
            fun _ member => absurd member List.not_mem_nil, tuned.keeps keeps names⟩
        · refine lags.step keeps names (unrefreshed ?_)
          rintro (⟨_, ticks⟩ | ⟨_, applies, _⟩)
          · cases ticks
          · cases applies
      | tuned refreshes tuned =>
        rw [← Cascade.world_step next] at tuned
        exact .inl tuned
    · have tuned := now.world.tuned_newEffect application handle.target duration
      exact .inl (tuned.keeps (.refl _) names)

/-- Throughout a session what a live effect has attached has its magnitudes, unless the effect ends
next, its last stack gone. -/
theorem carries (blank : start.Blank)
    (session : Session (fun request => request.keepsModifiers = true) start past now)
    {handle : EffectHandle} {effect : Effect} (found : now.world.effect? handle = some effect)
    (live : effect.isLive = true) {entity : Entity}
    (registered : now.world.entity? handle.target = some entity) {slot : Nat} {modifier : Modifier}
    {magnitude : Float32} (stored : effect.definition.modifiers[slot]? = some modifier)
    (resolved : effect.magnitudes[slot]? = some magnitude) :
    now.spends? = some handle ∨ entity.Carries handle.id modifier.attr slot magnitude := by
  have sound := session.sound blank.calm fun _ keeps => Request.isLawful_of_keepsModifiers keeps
  have roster := sound.rosters _ _ registered
  obtain ⟨holder, present, placed, number⟩ := World.of_effect? found
  cases registered.symm.trans present
  have alive : effect ∈ entity.effects.live :=
    List.mem_filter.2 ⟨(EffectRoster.mem_of_get? placed).1, live⟩
  have mirrored (mirrored : entity.Mirrored) :
      entity.Carries handle.id modifier.attr slot magnitude := by
    rw [← number]
    exact (mirrored.shows some).carries (fun _ _ same => (Option.some.inj same).symm) roster alive
      (fun _ _ => rfl) stored resolved
  rcases (session.mirrored blank).2 with every | ⟨other, rest, next, but⟩
  · exact .inr (mirrored (every _ _ registered))
  · by_cases same : other = handle
    · refine .inl ?_
      rw [Cascade.spends?, next, same]
    · refine .inr ?_
      by_cases here : handle.target = other.target
      · have apart : effect.id.source ≠ other.id.source := by
          intro equal
          have numbers := (number.symm.trans (EffectId.source_inj equal)).symm
          cases other
          cases handle
          cases here
          cases numbers
          exact same rfl
        have shows := but.shows entity (here ▸ registered)
        rw [← number]
        refine shows.carries (fun attachment shown passes => ?_) roster alive
          (fun attachment own => ?_) stored resolved
        · unfold Attachment.skipping at passes
          split at passes
          · cases passes
          · exact (Option.some.inj passes).symm
        · exact if_neg fun equal => apart (own.symm.trans equal)
      · exact mirrored (but.others _ _ registered here)

end Session

/-- In every state of a session a tracked magnitude that depends on the stack count and the context
of its effect alone is what it is for the stack count, and the modifier that is attached for it has
that magnitude too; unless a stack was lost, in which case both are what they were for the stack
count before, until time next passes for the effect or an application is stacked onto it. The
modifier of an effect that ends with the very next frame, its last stack gone, is left aside. -/
theorem tracked_magnitudes_follow_stacks {start : World} (blank : start.Blank) {past : List Cascade}
    {now : Cascade}
    (session : Session (fun request => request.keepsModifiers = true) start past now)
    {handle : EffectHandle} {effect : Effect} (found : now.world.effect? handle = some effect)
    (live : effect.isLive = true) {slot : Nat} {modifier : Modifier}
    (stored : effect.definition.modifiers[slot]? = some modifier)
    (tracked : modifier.capture = .track) (own : modifier.magnitude.isOwn = true) :
    ∃ count, (count = effect.stackCount ∨
        ∃ before lapse during, past = before ++ lapse :: during ∧ lapse.LosesStack handle count ∧
          ∀ state ∈ during, ¬ state.Refreshes handle) ∧
      effect.magnitudes[slot]? = some
        (now.world.resolve modifier.magnitude (.of effect.context effect.target count)) ∧
      (now.spends? = some handle ∨ ∃ entity, now.world.entity? handle.target = some entity ∧
        entity.Carries handle.id modifier.attr slot
          (now.world.resolve modifier.magnitude (.of effect.context effect.target count))) := by
  have lawful : ∀ request : Request, request.keepsModifiers = true → request.isLawful = true :=
    fun _ keeps => Request.isLawful_of_keepsModifiers keeps
  obtain ⟨entity, registered, _⟩ := World.of_effect? found
  have both {count : Nat} (tuned : now.world.Tuned effect count) :
      effect.magnitudes[slot]? = some
        (now.world.resolve modifier.magnitude (.of effect.context effect.target count)) ∧
      (now.spends? = some handle ∨ ∃ entity, now.world.entity? handle.target = some entity ∧
        entity.Carries handle.id modifier.attr slot
          (now.world.resolve modifier.magnitude (.of effect.context effect.target count))) := by
    have resolved := tuned slot modifier stored tracked own
    exact ⟨resolved, (session.carries blank found live registered stored resolved).imp_right
      fun carries => ⟨entity, registered, carries⟩⟩
  rcases session.tuned_or_lags blank.calm lawful found with
    tuned | ⟨before, lapse, during, count, split, loses, unrefreshed, tuned⟩
  · exact ⟨effect.stackCount, .inl rfl, both tuned⟩
  · exact ⟨count, .inr ⟨before, lapse, during, split, loses, unrefreshed⟩, both tuned⟩

/-- A modifier that adds as much as there are stacks. -/
def stackBonus : Modifier :=
  { attr := ⟨0⟩, op := .add, magnitude := .formula (.ofText "stack"), capture := .track }

/-- A timed effect with it, which runs out stack by stack. -/
def rage : EffectDef where
  durationType := .duration
  duration := .fixed .one
  modifiers := [stackBonus]
  stacking := some { limit := 3, expiration := .removeSingleStackAndRefreshDuration }

/-- An entity with one attribute receives it twice. -/
def rageRequests : List Request :=
  [.register ⟨1⟩ [⟨⟨0⟩, "Armor", .zero, none, none, false, .default⟩] .empty,
    .apply ⟨1⟩ ⟨1⟩ rage ⟨1⟩ { caster := ⟨1⟩ }, .apply ⟨1⟩ ⟨1⟩ rage ⟨1⟩ { caster := ⟨1⟩ }]

/-- The state in which it has two stacks. -/
def infuriated : Cascade :=
  Cascade.afterEach 20 { world := World.create {} .empty, agenda := [] } rageRequests

/-- That state is reached in a session. -/
theorem session_infuriated : ∃ past, Session (fun request => request.keepsModifiers = true)
    (World.create {} .empty) past infuriated := by
  refine ⟨_, .ofRequests 20 rageRequests (fun request member => ?_) (by decide +kernel)⟩
  simp only [rageRequests, List.mem_cons, List.not_mem_nil, or_false] at member
  rcases member with rfl | rfl | rfl <;> rfl

/-- With two stacks the magnitude is that for two. -/
theorem rage_follows : (World.create {} .empty).Blank ∧ ∃ past effect modifier,
    Session (fun request => request.keepsModifiers = true) (World.create {} .empty) past
      infuriated ∧
    infuriated.world.effect? ⟨⟨1⟩, ⟨1⟩⟩ = some effect ∧ effect.isLive = true ∧
    effect.definition.modifiers[0]? = some modifier ∧ modifier.capture = .track ∧
    modifier.magnitude.isOwn = true ∧
    ∃ count, (count = effect.stackCount ∨
        ∃ before lapse during, past = before ++ lapse :: during ∧
          lapse.LosesStack ⟨⟨1⟩, ⟨1⟩⟩ count ∧ ∀ state ∈ during, ¬ state.Refreshes ⟨⟨1⟩, ⟨1⟩⟩) ∧
      effect.magnitudes[0]? = some
        (infuriated.world.resolve modifier.magnitude (.of effect.context effect.target count)) ∧
      (infuriated.spends? = some ⟨⟨1⟩, ⟨1⟩⟩ ∨ ∃ entity, infuriated.world.entity? ⟨1⟩ = some entity ∧
        entity.Carries ⟨1⟩ modifier.attr 0
          (infuriated.world.resolve modifier.magnitude
            (.of effect.context effect.target count))) := by
  have blank := World.blank_create {} .empty
  have runs : (infuriated.world.effect? ⟨⟨1⟩, ⟨1⟩⟩).any (fun effect => effect.isLive &&
      effect.definition.modifiers[0]?.any fun modifier =>
        modifier.capture == .track && modifier.magnitude.isOwn) = true := by decide +kernel
  obtain ⟨past, session⟩ := session_infuriated
  obtain ⟨effect, found, holds⟩ := (Option.any_eq_true _ _).1 runs
  obtain ⟨live, follows⟩ := Bool.and_eq_true_iff.1 holds
  obtain ⟨modifier, stored, holds⟩ := (Option.any_eq_true _ _).1 follows
  obtain ⟨tracked, own⟩ := Bool.and_eq_true_iff.1 holds
  exact ⟨blank, past, effect, modifier, session, found, live, stored, beq_iff_eq.1 tracked, own,
    tracked_magnitudes_follow_stacks blank session found live stored (beq_iff_eq.1 tracked) own⟩

/-- The state when one of them has run out. -/
def calmed : Cascade := (Cascade.ofRequest infuriated.world (.tick 1 1)).run 30

/-- With one stack left, and nothing under way, the magnitude is not that for one, neither the one
that the effect stores nor the one that is attached. -/
theorem rage_lags : (World.create {} .empty).Blank ∧ ∃ past effect modifier entity,
    Session (fun request => request.keepsModifiers = true) (World.create {} .empty) past calmed ∧
    calmed.agenda = [] ∧ calmed.world.effect? ⟨⟨1⟩, ⟨1⟩⟩ = some effect ∧ effect.isLive = true ∧
    effect.definition.modifiers[0]? = some modifier ∧ modifier.capture = .track ∧
    modifier.magnitude.isOwn = true ∧ effect.stackCount = 1 ∧
    effect.magnitudes[0]? ≠
      some (calmed.world.resolve modifier.magnitude (.of effect.context effect.target 1)) ∧
    calmed.world.entity? ⟨1⟩ = some entity ∧
    ¬ entity.Carries ⟨1⟩ modifier.attr 0
      (calmed.world.resolve modifier.magnitude (.of effect.context effect.target 1)) := by
  obtain ⟨past, session⟩ := session_infuriated
  have runs : (calmed.world.effect? ⟨⟨1⟩, ⟨1⟩⟩).any (fun effect => effect.isLive &&
      effect.stackCount == 1 && effect.definition.modifiers[0]?.any fun modifier =>
        modifier.capture == .track && modifier.magnitude.isOwn &&
        (calmed.world.resolve modifier.magnitude
          (.of effect.context effect.target 1)).toBits == 0x3f800000 &&
        (effect.magnitudes[0]?.map Float32.toBits == some 0x40000000) &&
        (calmed.world.entity? ⟨1⟩).any fun entity =>
          (entity.attributes.get? modifier.attr).any fun attr =>
            attr.modifiers.any fun active => active.source == ⟨1⟩ && active.slot == 0 &&
              active.magnitude.toBits == 0x40000000) = true := by decide +kernel
  have asked : Session (fun request => request.keepsModifiers = true) (World.create {} .empty)
      (_ ++ [infuriated]) (.ofRequest infuriated.world (.tick 1 1)) :=
    session.asked (List.isEmpty_iff.1 (by decide +kernel)) rfl
  obtain ⟨effect, found, holds⟩ := (Option.any_eq_true _ _).1 runs
  simp only [Bool.and_eq_true, beq_iff_eq, Option.any_eq_true] at holds
  obtain ⟨⟨live, single⟩, modifier, stored, ⟨⟨⟨tracked, own⟩, resolved⟩, stale⟩, entity, registered,
    attr, present, attached⟩ := holds
  obtain ⟨active, member, holds⟩ := List.any_eq_true.1 attached
  simp only [Bool.and_eq_true, beq_iff_eq] at holds
  obtain ⟨⟨source, slot⟩, carried⟩ := holds
  refine ⟨World.blank_create {} .empty, _, effect, modifier, entity,
    asked.run 30 (by decide +kernel), List.isEmpty_iff.1 (by decide +kernel), found, live, stored,
    tracked, own, single, ?_, registered, ?_⟩
  · intro same
    rw [same, Option.map_some, resolved] at stale
    exact absurd stale (by decide)
  · intro carries
    have same := (carries attr present).2 active member source slot
    rw [same, resolved] at carried
    exact absurd carried (by decide)

end SkillEngine
