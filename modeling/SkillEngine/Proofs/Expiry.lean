import SkillEngine.Proofs.Clocks
import SkillEngine.Proofs.Session
import Mathlib.Logic.Basic

/-!
# No effect outstays its duration

An effect whose duration has run out while it is live waits to be expired, treated as run out or
ended: the tick that let it run out left that behind its pulses. Whatever the pulses set off, the
effect then ends or its elapsed time starts again, so when nothing remains to be done no live effect
has run out. Time starts again only where a duration restarts, and a duration that restarts is not
over, since an effect without time never takes hold.
-/

namespace SkillEngine

/-- A finite effect has time: its duration is not over as it starts. -/
def Effect.HasTime (effect : Effect) : Prop :=
  effect.clock.finite = true → ¬ effect.clock.duration ≤ 0

/-- An effect that has time has not run out when no time has elapsed. -/
theorem Effect.HasTime.not_isOver {effect : Effect} (timed : effect.HasTime) {clock : Clock Float32}
    (finite : clock.finite = effect.clock.finite)
    (duration : clock.duration = effect.clock.duration)
    (restarted : clock.elapsed = 0) : clock.isOver = false := by
  rw [Clock.isOver, finite, duration, restarted]
  cases lasts : effect.clock.finite with
  | false => rfl
  | true =>
    rw [Bool.true_and, decide_eq_false_iff_not]
    exact timed lasts

namespace Effect

/-- What time brings an effect is what it brings its clock, if it is live. -/
theorem fst_advance (effect : Effect) (seconds : Float32) : (effect.advance seconds).1 =
    if !effect.isLive || seconds ≤ 0 then ⟨0, false⟩ else (effect.clock.advance seconds).1 := by
  unfold advance
  split <;> rfl

/-- Stacking keeps how long an effect lasts and its period, and restarts each timer or leaves it. -/
theorem clock_restack (effect : Effect) (policy : StackingPolicy) :
    (effect.restack policy).clock.finite = effect.clock.finite ∧
      (effect.restack policy).clock.duration = effect.clock.duration ∧
      (effect.restack policy).clock.period = effect.clock.period ∧
      ((effect.restack policy).clock.elapsed = 0 ∨
        (effect.restack policy).clock.elapsed = effect.clock.elapsed) ∧
      ((effect.restack policy).clock.periodTimer = 0 ∨
        (effect.restack policy).clock.periodTimer = effect.clock.periodTimer) := by
  unfold restack refresh
  dsimp only
  split
  · exact ⟨rfl, rfl, rfl, .inl rfl, .inr rfl⟩
  · exact ⟨rfl, rfl, rfl, ite_eq_or_eq _ _ _, ite_eq_or_eq _ _ _⟩

end Effect

namespace Frame.Winds

variable {frame : Frame} {handle : EffectHandle} {before : Effect} {clock : Clock Float32}

/-- No frame changes how long an effect lasts. -/
theorem lasts (winds : frame.Winds handle before clock) :
    clock.finite = before.clock.finite ∧ clock.duration = before.clock.duration := by
  cases winds with
  | kept | restarted => exact ⟨rfl, rfl⟩
  | @advanced seconds =>
    obtain ⟨timer, advanced⟩ := before.clock.exists_advance seconds
    rw [advanced]
    exact ⟨rfl, rfl⟩
  | @stacked application policy =>
    obtain ⟨finite, duration, _⟩ := before.clock_restack policy
    exact ⟨finite, duration⟩

/-- An effect that has time runs out only while time passes for it. -/
theorem ran_or_advanced (winds : frame.Winds handle before clock) (timed : before.HasTime)
    (spent : clock.isOver = true) : before.durationElapsed = true ∨
      ∃ seconds, frame = .tickEffect handle seconds ∧ before.isLive = true ∧ ¬ seconds ≤ 0 ∧
        clock = (before.clock.advance seconds).2 := by
  have running (restarted : clock.elapsed = 0) : before.durationElapsed = true := by
    have fresh := timed.not_isOver winds.lasts.1 winds.lasts.2 restarted
    rw [spent] at fresh
    cases fresh
  cases winds with
  | kept => exact .inl spent
  | advanced ticks live forward => exact .inr ⟨_, ticks, live, forward, rfl⟩
  | @stacked application policy =>
    obtain ⟨finite, duration, _, elapsed, _⟩ := before.clock_restack policy
    rcases elapsed with restarted | same
    · exact .inl (running restarted)
    · rw [Clock.isOver, finite, duration, same] at spent
      exact .inl spent
  | restarted => exact .inl (running rfl)

end Frame.Winds

namespace World

variable {world : World} {handle : EffectHandle}

/-- An effect that is treated as run out is to end, or its elapsed time starts again. -/
theorem expire_ends_or_restarts {effect : Effect} (found : world.effect? handle = some effect) :
    (world.expire handle).frames = [.finish handle .expired true] ∨
      ∃ after, (world.expire handle).world.effect? handle = some after ∧
        after.clock.elapsed = 0 := by
  have ways := world.lapsing handle
  generalize world.expire handle = progress at ways ⊢
  cases ways with
  | missing absent => cases absent.symm.trans found
  | ending | spent => exact .inl rfl
  | lessened stored =>
    obtain ⟨_, _, _, same⟩ := of_effect? stored
    refine .inr ⟨_, effect?_touching (alters_restack (alters_touch world handle _) same rfl)
      (fun _ => rfl) stored same, ?_⟩
    rw [Effect.renewed_eq]
    rfl
  | @restarted before _ stored =>
    obtain ⟨entity, registered, placed, _⟩ := of_effect? stored
    have alters := (alters_modifyEffect world handle (·.restartDuration)).self registered
    have kept : ∀ other : Effect, other.restartDuration.id = other.id := fun _ => rfl
    refine .inr ⟨before.restartDuration, ?_, rfl⟩
    rw [effect?_eq alters]
    refine (EffectRoster.get?_modify kept handle.id).trans ?_
    rw [if_pos rfl, placed]
    rfl

/-- A live effect that has run out is treated so when that is due. -/
theorem expireDue_of_over {effect : Effect} (found : world.effect? handle = some effect)
    (live : effect.isLive = true) (spent : effect.durationElapsed = true) :
    world.expireDue handle = { world, frames := [.expire handle] } := by
  simp only [expireDue, found, Option.any_some, live, spent, Bool.and_self, if_true]

/-- Time passing for an effect leaves its pulses, and then its expiry if it has run out. -/
theorem frames_tickEffect {effect : Effect} (found : world.effect? handle = some effect)
    (seconds : Float32) : (world.tickEffect handle seconds).frames =
      .pulses handle (effect.advance seconds).1.pulses ::
        if (effect.advance seconds).1.expired then [.expireDue handle] else [] := by
  simp only [tickEffect, found, Effect.fst_advance]
  rfl

/-- What time passing for a live effect makes of it. -/
theorem effect?_tickEffect {effect : Effect} (found : world.effect? handle = some effect)
    (live : effect.isLive = true) {seconds : Float32} (forward : ¬ seconds ≤ 0) :
    ∃ after, (world.tickEffect handle seconds).world.effect? handle = some after ∧
      after.isLive = true ∧ after.clock = (effect.clock.advance seconds).2 := by
  obtain ⟨_, _, _, same⟩ := of_effect? found
  have lives : ({ effect with
      context := { effect.context with depth := 0 } } : Effect).isLive = true := live
  obtain ⟨advanced, advances⟩ : ∃ advanced, (({ effect with
      context := { effect.context with depth := 0 } } : Effect).advance seconds).2 = advanced :=
    ⟨_, rfl⟩
  have shape := advances
  rw [Effect.advance_of_live lives forward] at shape
  have number : advanced.id = handle.id := shape ▸ same
  have alive : advanced.isLive = true := shape ▸ rfl
  have clock : advanced.clock = (effect.clock.advance seconds).2 := shape ▸ rfl
  simp only [tickEffect, found, advances]
  split
  · obtain ⟨updates, _, alters⟩ := alters_track found number
    refine ⟨_, effect?_touching alters (fun _ => rfl) found number, ?_, ?_⟩
    · rw [Effect.renewed_eq]
      exact alive
    · rw [Effect.renewed_eq]
      exact clock
  · exact ⟨_, effect?_modifyEffect found number, alive, clock⟩

/-- A timed effect without time does not take hold. -/
theorem not_le_zero_of_attach {application other : Application} {target place : EntityId}
    {duration : Float32}
    (left : .attach other place duration ∈ (world.applyTo application target).frames)
    (timed : other.definition.durationType = .duration) : ¬ duration ≤ 0 := by
  have ways := world.applying application target
  generalize world.applyTo application target = progress at ways left
  cases ways with
  | refused => cases left
  | written => simp [instantly] at left
  | stacked => exact absurd left world.attach_not_mem_stackOnto
  | held _ _ _ _ lasts =>
    obtain ⟨rfl, rfl, rfl⟩ : other = application ∧ place = target ∧ duration = _ := by
      simpa [lastingly] using left
    exact (lasts timed).1

/-- A new effect has time if its application asks that of the duration. -/
theorem hasTime_newEffect {application : Application} {target : EntityId} {duration : Float32}
    (lasts : application.definition.durationType = .duration → ¬ duration ≤ 0) :
    (world.newEffect application target duration).HasTime :=
  fun finite => lasts (eq_of_beq finite)

end World

namespace Cascade

/-- The effect waits to be expired, treated as run out or ended. -/
def Expiring (cascade : Cascade) (handle : EffectHandle) : Prop :=
  .expireDue handle ∈ cascade.agenda ∨ .expire handle ∈ cascade.agenda ∨
    .finish handle .expired true ∈ cascade.agenda

/-- Effects have time, and every live one that has run out waits for its expiry. -/
structure Punctual (cascade : Cascade) : Prop where
  /-- Every stored effect has time. -/
  timed : ∀ handle effect, cascade.world.effect? handle = some effect → effect.HasTime
  /-- So has every one that is about to take hold. -/
  attaching : ∀ application target duration, .attach application target duration ∈ cascade.agenda →
    application.definition.durationType = .duration → ¬ duration ≤ 0
  /-- What has run out waits for its expiry. -/
  awaited : ∀ handle effect, cascade.world.effect? handle = some effect → effect.isLive = true →
    effect.durationElapsed = true → cascade.Expiring handle

variable {cascade : Cascade} {frame : Frame} {rest : List Frame} {handle : EffectHandle}

/-- What waits for its expiry still does after a step, unless the step takes the frame that it waits
for. -/
theorem Expiring.step (expiring : cascade.Expiring handle) (next : cascade.agenda = frame :: rest)
    (kept : (frame.expand cascade.world cascade.reply).lost = false)
    (due : frame = .expireDue handle → cascade.step.Expiring handle)
    (expires : frame = .expire handle → cascade.step.Expiring handle)
    (ends : frame = .finish handle .expired true → cascade.step.Expiring handle) :
    cascade.step.Expiring handle := by
  have later {waiting : Frame} (waits : waiting ∈ cascade.agenda) :
      waiting = frame ∨ waiting ∈ cascade.step.agenda := by
    rw [next] at waits
    rw [agenda_step next kept]
    exact (List.mem_cons.1 waits).imp id (List.mem_append_right _)
  rcases expiring with waits | waits | waits
  · rcases later waits with same | after
    · exact due same.symm
    · exact .inl after
  · rcases later waits with same | after
    · exact expires same.symm
    · exact .inr (.inl after)
  · rcases later waits with same | after
    · exact ends same.symm
    · exact .inr (.inr after)

/-- A live effect that has run out after a step waits for its expiry, if those waited that had run
out before. -/
theorem Punctual.expiring (punctual : cascade.Punctual) (sound : cascade.world.Sound)
    {admits : Request → Prop} (admitted : frame.Admitted admits)
    (next : cascade.agenda = frame :: rest)
    (kept : (frame.expand cascade.world cascade.reply).lost = false) {before after : Effect}
    (was : cascade.world.effect? handle = some before)
    (makes : frame.Makes handle before after)
    (found : cascade.step.world.effect? handle = some after) (live : after.isLive = true)
    (spent : after.durationElapsed = true) : cascade.step.Expiring handle := by
  have timed := punctual.timed handle before was
  have lived : before.isLive = true := by
    rcases makes.live with same | ⟨lived, _⟩
    · exact same.symm.trans live
    · exact lived
  rw [world_step next] at found
  rcases makes.winds.ran_or_advanced timed spent with ran | ⟨seconds, rfl, _, forward, advanced⟩
  · -- It had run out before, so it waits, and the frame that it waits for sees to it.
    refine (punctual.awaited handle before was lived ran).step next kept ?_ ?_ ?_
    · rintro rfl
      refine .inr (.inl ?_)
      rw [agenda_step next kept]
      change .expire handle ∈ (cascade.world.expireDue handle).frames ++ rest
      rw [World.expireDue_of_over was lived ran]
      exact List.mem_cons_self
    · rintro rfl
      rcases World.expire_ends_or_restarts was with ends | ⟨restarted, stored, none⟩
      · refine .inr (.inr ?_)
        rw [agenda_step next kept]
        change .finish handle .expired true ∈ (cascade.world.expire handle).frames ++ rest
        rw [ends]
        exact List.mem_cons_self
      · cases stored.symm.trans found
        have fresh := timed.not_isOver makes.winds.lasts.1 makes.winds.lasts.2 none
        cases fresh.symm.trans spent
    · rintro rfl
      have final : EffectState.expired.isTerminal = true := rfl
      have ended := sound.isLive_finish handle final true
      cases ended.symm.trans ((World.isLive_eq found).trans live)
  · -- It has run out by now, so the tick leaves its expiry behind the pulses.
    have elapsed : (before.advance seconds).1.expired = true := by
      rw [Effect.advance_of_live lived forward]
      change (before.clock.advance seconds).2.isOver = true
      rw [← advanced]
      exact spent
    refine .inl ?_
    rw [agenda_step next kept]
    change .expireDue handle ∈ (cascade.world.tickEffect handle seconds).frames ++ rest
    rw [World.frames_tickEffect was, elapsed]
    exact List.mem_append_left _ (List.mem_cons_of_mem _ List.mem_cons_self)

/-- Every step keeps a cascade punctual. -/
theorem Punctual.step (punctual : cascade.Punctual) (sound : cascade.world.Sound)
    {admits : Request → Prop} (admitted : frame.Admitted admits)
    (turn : cascade.world.Turn frame (frame.expand cascade.world cascade.reply).world)
    (next : cascade.agenda = frame :: rest)
    (kept : (frame.expand cascade.world cascade.reply).lost = false) :
    cascade.step.Punctual where
  timed handle effect found := by
    rw [world_step next] at found
    rcases turn.origin sound found with ⟨before, was, makes⟩ | ⟨application, duration, rfl, rfl⟩
    · have timed := punctual.timed handle before was
      obtain ⟨finite, duration⟩ := makes.winds.lasts
      rw [Effect.HasTime, finite, duration]
      exact timed
    · exact World.hasTime_newEffect
        (punctual.attaching application handle.target duration (next ▸ List.mem_cons_self))
  attaching application target duration waits := by
    rw [agenda_step next kept] at waits
    rcases List.mem_append.1 waits with left | later
    · have leaves := Frame.leaves_expand sound cascade.reply admitted left
      cases leaves with
      | host _ opening => cases opening
      | attach => exact World.not_le_zero_of_attach left
    · exact punctual.attaching application target duration
        (next ▸ List.mem_cons_of_mem _ later)
  awaited handle effect found live spent := by
    have stored := found
    rw [world_step next] at stored
    rcases turn.origin sound stored with ⟨before, was, makes⟩ | ⟨application, duration, rfl, rfl⟩
    · exact punctual.expiring sound admitted next kept was makes found live spent
    · have timed : (cascade.world.newEffect application handle.target duration).HasTime :=
        World.hasTime_newEffect
          (punctual.attaching application handle.target duration (next ▸ List.mem_cons_self))
      have fresh := timed.not_isOver rfl rfl rfl
      cases fresh.symm.trans spent

end Cascade

/-- Every state gone through in a session is punctual. -/
theorem Session.punctual {admits : Request → Prop} {start : World} (calm : start.Calm)
    (lawful : ∀ request, admits request → request.isLawful = true) {past : List Cascade}
    {now : Cascade} (session : Session admits start past now) : now.Punctual := by
  induction session with
  | opened =>
    refine ⟨fun handle effect found => ?_, fun _ _ _ waits => absurd waits List.not_mem_nil,
      fun handle effect found => ?_⟩
    · cases (calm.missing handle).symm.trans found
    · cases (calm.missing handle).symm.trans found
  | @asked past now request session done admitted ih =>
    refine ⟨ih.timed, fun application target duration waits => ?_,
      fun handle effect found live spent => ?_⟩
    · cases List.mem_singleton.1 waits
    · have waits := ih.awaited handle effect found live spent
      rw [Cascade.Expiring, done] at waits
      rcases waits with waits | waits | waits <;> cases waits
  | stepped session next kept ih =>
    exact ih.step (session.sound calm lawful) (session.first calm lawful next)
      (session.turn calm lawful next) next kept

/-- The frame is one that pulses can set off: no time passes in it, and nothing runs out by it. -/
def Frame.isInner : Frame → Bool
  | .perform request => request.isNested
  | .script .. | .scripted .. | .expireDue _ | .expire _ | .tickEntity .. | .tickEffect ..
  | .endEntityTick _ | .ticks .. | .beginTick _ | .endTick _ => false
  | _ => true

/-- What pulses set off sets off no more than pulses do. -/
theorem Frame.Leaves.isInner {world : World} {frame next : Frame} (leaves : frame.Leaves world next)
    (inner : frame.isInner = true) : next.isInner = true := by
  cases leaves with
  | host host _ => cases host.symm.trans inner
  | task nested => exact nested
  | _ => first | rfl | cases inner

/-- Of what pulses set off, only stacking restarts the elapsed time of an effect. -/
theorem Frame.Winds.restacked {frame : Frame} {handle : EffectHandle} {before : Effect}
    {clock : Clock Float32} (winds : frame.Winds handle before clock) (inner : frame.isInner = true)
    (ran : before.durationElapsed = true) (runs : clock.isOver = false) :
    ∃ application, frame = .apply application handle.target ∧ clock.elapsed = 0 := by
  cases winds with
  | kept => cases runs.symm.trans ran
  | advanced ticks =>
    subst ticks
    cases inner
  | @stacked application policy applies =>
    obtain ⟨finite, duration, _, elapsed, _⟩ := before.clock_restack policy
    refine ⟨application, applies, elapsed.resolve_right fun same => ?_⟩
    rw [Clock.isOver, finite, duration, same] at runs
    cases runs.symm.trans ran
  | restarted expires =>
    subst expires
    cases inner

namespace Cascade

variable {cascade : Cascade} {frame : Frame} {rest : List Frame} {handle : EffectHandle}

/-- The effect is live although its duration has run out. -/
def Overdue (cascade : Cascade) (handle : EffectHandle) : Prop :=
  ∃ effect, cascade.world.effect? handle = some effect ∧ effect.isLive = true ∧
    effect.durationElapsed = true

/-- The effect is live with its elapsed time restarted. -/
def Restarted (cascade : Cascade) (handle : EffectHandle) : Prop :=
  ∃ effect, cascade.world.effect? handle = some effect ∧ effect.isLive = true ∧
    effect.clock.elapsed = 0

/-- Time is about to pass for an effect, and its duration to run out with it; the rest comes
after. -/
def TicksOut (cascade : Cascade) (handle : EffectHandle) (rest : List Frame) : Prop :=
  ∃ seconds effect, cascade.agenda = .tickEffect handle seconds :: rest ∧
    cascade.world.effect? handle = some effect ∧ (effect.advance seconds).1.expired = true

/-- Whether time is about to pass for an effect whose duration runs out with it. -/
def ticksOutNext (cascade : Cascade) (handle : EffectHandle) : Bool :=
  match cascade.agenda with
  | .tickEffect other seconds :: _ =>
    decide (other = handle) &&
      (cascade.world.effect? handle).any fun effect => (effect.advance seconds).1.expired
  | _ => false

/-- An effect that is found to run out next runs out before what is left to do. -/
theorem exists_ticksOut {cascade : Cascade} {handle : EffectHandle}
    (next : cascade.ticksOutNext handle = true) : ∃ rest, cascade.TicksOut handle rest := by
  unfold ticksOutNext at next
  split at next
  · next other seconds rest agenda =>
    simp only [Bool.and_eq_true, decide_eq_true_eq, Option.any_eq_true] at next
    obtain ⟨rfl, effect, found, expired⟩ := next
    exact ⟨rest, seconds, effect, agenda, found, expired⟩
  · cases next

/-- An effect that ran out in its tick is on its way to end or to start again, before the rest. -/
inductive RunsOut (handle : EffectHandle) (rest : List Frame) (cascade : Cascade) : Prop where
  /-- Its pulses, or what they set off, come first. -/
  | pulsing {inner : List Frame} (agenda : cascade.agenda = inner ++ .expireDue handle :: rest)
      (set : ∀ frame ∈ inner, frame.isInner = true) (overdue : cascade.Overdue handle) :
      RunsOut handle rest cascade
  /-- It is treated as run out next. -/
  | due (agenda : cascade.agenda = .expire handle :: rest) (overdue : cascade.Overdue handle) :
      RunsOut handle rest cascade
  /-- It ends next. -/
  | ending (agenda : cascade.agenda = .finish handle .expired true :: rest)
      (live : cascade.world.isLive handle = true) : RunsOut handle rest cascade

/-- The step settles what becomes of an effect that ran out in its tick. -/
inductive Settles (handle : EffectHandle) (rest : List Frame) (cascade : Cascade) : Prop where
  /-- The effect ends. -/
  | ended (live : cascade.world.isLive handle = true)
      (ends : cascade.step.world.isLive handle = false) : Settles handle rest cascade
  /-- Its expiration policy restarts its elapsed time. -/
  | renewed (agenda : cascade.agenda = .expire handle :: rest)
      (restarted : cascade.step.Restarted handle) : Settles handle rest cascade
  /-- An application that its pulses set off is stacked onto it and restarts its elapsed time. -/
  | restacked {application : Application} {inner : List Frame}
      (agenda : cascade.agenda =
        .apply application handle.target :: (inner ++ .expireDue handle :: rest))
      (restarted : cascade.step.Restarted handle) : Settles handle rest cascade

/-- Something remains to be done before the rest while an effect runs out. -/
theorem RunsOut.length_lt (runs : RunsOut handle rest cascade) :
    rest.length < cascade.agenda.length := by
  cases runs with
  | pulsing agenda => simp only [agenda, List.length_append, List.length_cons]; omega
  | due agenda | ending agenda => simp only [agenda, List.length_cons]; omega

/-- What its pulses set off lets an effect that stays live run out still, or stacks onto it and
restarts its elapsed time. -/
theorem RunsOut.pulse {admits : Request → Prop} (sound : cascade.world.Sound)
    (admitted : frame.Admitted admits)
    (turn : cascade.world.Turn frame (frame.expand cascade.world cascade.reply).world)
    {inner : List Frame} (next : cascade.agenda = frame :: (inner ++ .expireDue handle :: rest))
    (kept : (frame.expand cascade.world cascade.reply).lost = false)
    (set : ∀ other ∈ frame :: inner, other.isInner = true) (overdue : cascade.Overdue handle)
    {after : Effect} (found : cascade.step.world.effect? handle = some after)
    (alive : after.isLive = true) :
    Settles handle rest cascade ∨ RunsOut handle rest cascade.step := by
  obtain ⟨effect, was, _, spent⟩ := overdue
  have within := set frame List.mem_cons_self
  cases still : after.durationElapsed with
  | true =>
    have agenda : cascade.step.agenda =
        ((frame.expand cascade.world cascade.reply).frames ++ inner) ++ .expireDue handle :: rest :=
      (agenda_step next kept).trans (List.append_assoc _ _ _).symm
    refine .inr (.pulsing agenda (fun later member => ?_) ⟨after, found, alive, still⟩)
    rcases List.mem_append.1 member with left | stays
    · exact (Frame.leaves_expand sound cascade.reply admitted left).isInner within
    · exact set later (List.mem_cons_of_mem _ stays)
  | false =>
    have stored := found
    rw [world_step next] at stored
    rcases turn.origin sound stored with ⟨before, old, makes⟩ | ⟨_, _, _, rfl⟩
    · cases old.symm.trans was
      obtain ⟨application, applies, restarted⟩ := makes.winds.restacked within spent still
      exact .inl (.restacked (applies ▸ next) ⟨after, found, alive, restarted⟩)
    · have below := sound.numbered_below was
      obtain ⟨_, _, _, number⟩ := World.of_effect? stored
      rw [← number] at below
      exact absurd below (Nat.lt_irrefl _)

/-- A step that leaves an effect live either lets it run out still or settles it. -/
theorem RunsOut.step {admits : Request → Prop} (runs : RunsOut handle rest cascade)
    (sound : cascade.world.Sound) {others : List Frame} (admitted : frame.Admitted admits)
    (turn : cascade.world.Turn frame (frame.expand cascade.world cascade.reply).world)
    (next : cascade.agenda = frame :: others)
    (kept : (frame.expand cascade.world cascade.reply).lost = false) :
    Settles handle rest cascade ∨ RunsOut handle rest cascade.step := by
  have reached := world_step next
  have remains := agenda_step next kept
  have live : cascade.world.isLive handle = true := by
    cases runs with
    | pulsing _ _ overdue | due _ overdue =>
      obtain ⟨effect, found, live, _⟩ := overdue
      exact (World.isLive_eq found).trans live
    | ending _ live => exact live
  cases lives : cascade.step.world.isLive handle with
  | false => exact .inl (.ended live lives)
  | true =>
    obtain ⟨after, found, alive⟩ := World.exists_of_isLive lives
    cases runs with
    | @pulsing inner agenda set overdue =>
      obtain ⟨effect, was, lived, spent⟩ := overdue
      cases inner with
      | nil =>
        obtain ⟨rfl, rfl⟩ := List.cons.inj (next.symm.trans agenda)
        have due := World.expireDue_of_over was lived spent
        refine .inr (.due ?_ ⟨effect, ?_, lived, spent⟩)
        · rw [remains]
          change (cascade.world.expireDue handle).frames ++ _ = _
          rw [due]
          rfl
        · rw [reached]
          change (cascade.world.expireDue handle).world.effect? handle = some effect
          rw [due]
          exact was
      | cons first inner =>
        obtain ⟨rfl, rfl⟩ := List.cons.inj (next.symm.trans agenda)
        exact pulse sound admitted turn agenda kept set ⟨effect, was, lived, spent⟩ found
          alive
    | due agenda overdue =>
      obtain ⟨effect, was, _, _⟩ := overdue
      obtain ⟨rfl, rfl⟩ := List.cons.inj (next.symm.trans agenda)
      rcases World.expire_ends_or_restarts was with ends | ⟨restarted, stored, none⟩
      · refine .inr (.ending ?_ lives)
        rw [remains]
        change (cascade.world.expire handle).frames ++ _ = _
        rw [ends]
        rfl
      · rw [reached] at found
        cases stored.symm.trans found
        exact .inl (.renewed agenda ⟨after, by rw [reached]; exact stored, alive, none⟩)
    | ending agenda =>
      obtain ⟨rfl, rfl⟩ := List.cons.inj (next.symm.trans agenda)
      have final : EffectState.expired.isTerminal = true := rfl
      have ended := sound.isLive_finish handle final true
      rw [reached] at lives
      cases ended.symm.trans lives

/-- An effect whose duration runs out in its tick is left to run out. -/
theorem TicksOut.step (ticks : cascade.TicksOut handle rest)
    (kept : ∀ frame others, cascade.agenda = frame :: others →
      (frame.expand cascade.world cascade.reply).lost = false) :
    RunsOut handle rest cascade.step := by
  obtain ⟨seconds, effect, next, found, expired⟩ := ticks
  have agenda : cascade.step.agenda = [.pulses handle (effect.advance seconds).1.pulses] ++
      .expireDue handle :: rest := by
    rw [agenda_step next (kept _ _ next)]
    change (cascade.world.tickEffect handle seconds).frames ++ rest = _
    rw [World.frames_tickEffect found, expired]
    rfl
  have elapsed := expired
  rw [Effect.fst_advance] at elapsed
  split at elapsed
  · cases elapsed
  · next proceeds =>
    simp only [Bool.or_eq_true, Bool.not_eq_true', decide_eq_true_eq, not_or,
      Bool.not_eq_false] at proceeds
    obtain ⟨after, placed, alive, advanced⟩ :=
      World.effect?_tickEffect found proceeds.1 proceeds.2
    refine .pulsing agenda (fun frame member => ?_) ⟨after, ?_, alive, ?_⟩
    · rw [List.mem_singleton.1 member]
      rfl
    · rw [world_step next]
      exact placed
    · rw [Effect.durationElapsed, advanced]
      exact elapsed

end Cascade

/-- An effect that ran out in its tick is settled, or something remains to be done before what came
after its tick. -/
theorem Session.settles_or_runsOut {admits : Request → Prop} {start : World} (calm : start.Calm)
    (lawful : ∀ request, admits request → request.isLawful = true) {past : List Cascade}
    {now : Cascade} (session : Session admits start past now) {before during : List Cascade}
    {ticked : Cascade} {handle : EffectHandle} {rest : List Frame}
    (cut : past = before ++ ticked :: during) (ticks : ticked.TicksOut handle rest) :
    (∃ state ∈ during, state.Settles handle rest) ∨ now.RunsOut handle rest := by
  induction session generalizing during with
  | opened => cases before <;> cases cut
  | @asked past now request session done admitted ih =>
    rcases Cascade.last_or_earlier cut with ⟨_, rfl⟩ | ⟨earlier, rfl, split⟩
    · obtain ⟨_, _, next, _⟩ := ticks
      cases next.symm.trans done
    · rcases ih split with ⟨state, member, settles⟩ | runs
      · exact .inl ⟨state, List.mem_append_left _ member, settles⟩
      · have some := runs.length_lt
        rw [done] at some
        exact absurd some (Nat.not_lt_zero _)
  | @stepped past now frame others session next kept ih =>
    rcases Cascade.last_or_earlier cut with ⟨_, rfl⟩ | ⟨earlier, rfl, split⟩
    · refine .inr (ticks.step fun head tail first => ?_)
      obtain ⟨rfl, rfl⟩ := List.cons.inj (next.symm.trans first)
      exact kept
    · rcases ih split with ⟨state, member, settles⟩ | runs
      · exact .inl ⟨state, List.mem_append_left _ member, settles⟩
      · have step := runs.step (session.sound calm lawful) (session.first calm lawful next)
          (session.turn calm lawful next) next kept
        exact step.imp_left fun settles =>
          ⟨now, List.mem_append_right _ List.mem_cons_self, settles⟩

/-- No live effect has run out when a host's request is done. Whenever the duration of an effect
runs out in a tick, then before what comes after the tick of that effect the effect ends, or its
elapsed time is restarted, by its expiration policy or by an application that its own pulses stacked
onto it. -/
theorem no_overdue_effects {start : World} (calm : start.Calm) {past : List Cascade} {now : Cascade}
    (session : Session (fun request => request.isLawful = true) start past now) :
    (now.agenda = [] → ∀ id entity, now.world.entity? id = some entity →
      ∀ effect ∈ entity.effects.effects, effect.isLive = true → effect.durationElapsed = false) ∧
    ∀ before ticked during handle rest, past = before ++ ticked :: during →
      ticked.TicksOut handle rest → now.agenda.length ≤ rest.length →
        ∃ state ∈ during, state.Settles handle rest := by
  have lawful : ∀ request : Request, request.isLawful = true → request.isLawful = true :=
    fun _ lawful => lawful
  refine ⟨fun done id entity registered effect stored live => ?_,
    fun before ticked during handle rest cut ticks short => ?_⟩
  · have sound := session.sound calm lawful
    have found : now.world.effect? ⟨id, effect.id⟩ = some effect := by
      rw [World.effect?_eq registered]
      exact (sound.rosters id entity registered).get?_eq stored
    refine Bool.eq_false_iff.2 fun spent => ?_
    have waits := (session.punctual calm lawful).awaited _ effect found live spent
    rw [Cascade.Expiring, done] at waits
    rcases waits with waits | waits | waits <;> cases waits
  · rcases session.settles_or_runsOut calm lawful cut ticks with settled | runs
    · exact settled
    · exact absurd runs.length_lt (Nat.not_lt.2 short)

/-- A timed effect that pulses and starts again when its duration has run out. -/
def regrowth : EffectDef where
  durationType := .duration
  duration := .fixed ⟨0x40000000⟩
  period := .one
  stacking := some { limit := 1, expiration := .refreshDuration }

/-- An entity receives the effect. -/
def regrowthRequests : List Request :=
  [.spawn ⟨1⟩, .apply ⟨1⟩ ⟨1⟩ regrowth ⟨1⟩ { caster := ⟨1⟩ }]

/-- The state that is reached, in which time passes next: more of it than the effect lasts. -/
def planted : Cascade :=
  Cascade.afterEach 20 { world := World.create {} .empty, agenda := [] } regrowthRequests

/-- The state in which that time passes for the effect next. -/
def sprouting : Cascade :=
  (Cascade.ofRequest planted.world (.tick (Float32.ofBits 0x40400000) 1)).run 5

/-- The state when the time has passed. -/
def regrown : Cascade := sprouting.run 20

/-- The states gone through before that time passes for the effect. -/
def growing : List Cascade :=
  Cascade.duringEach 20 { world := World.create {} .empty, agenda := [] } regrowthRequests ++
    [planted] ++ (Cascade.ofRequest planted.world (.tick (Float32.ofBits 0x40400000) 1)).during 5

/-- That time passes in a session. -/
theorem session_regrown : Session (fun request => request.isLawful = true) (World.create {} .empty)
    (growing ++ sprouting :: sprouting.step.during 19) regrown := by
  have begun : Session (fun request => request.isLawful = true) (World.create {} .empty)
      (Cascade.duringEach 20 { world := World.create {} .empty, agenda := [] } regrowthRequests)
      planted := .ofRequests 20 regrowthRequests (by decide +kernel) (by decide +kernel)
  have done : planted.agenda = [] := List.isEmpty_iff.1 (by decide +kernel)
  have asked : Session (fun request => request.isLawful = true) (World.create {} .empty)
      (Cascade.duringEach 20 { world := World.create {} .empty, agenda := [] } regrowthRequests ++
        [planted]) (.ofRequest planted.world (.tick (Float32.ofBits 0x40400000) 1)) :=
    begun.asked done rfl
  have session : Session (fun request => request.isLawful = true) (World.create {} .empty)
      (growing ++ sprouting.during 20) regrown :=
    (asked.run 5 (by decide +kernel)).run 20 (by decide +kernel)
  have busy : sprouting.isDone = false := by decide +kernel
  have onward : sprouting.during 20 = sprouting :: sprouting.step.during 19 := by
    rw [Cascade.during, busy, if_neg Bool.false_ne_true]
  rw [onward] at session
  exact session

/-- The effect outlasts its duration in one tick, and its policy lets it start again. -/
theorem regrowth_starts_again : (World.create {} .empty).Calm ∧
    Session (fun request => request.isLawful = true) (World.create {} .empty)
      (growing ++ sprouting :: sprouting.step.during 19) regrown ∧
    regrown.agenda = [] ∧ regrown.world.isLive ⟨⟨1⟩, ⟨1⟩⟩ = true ∧
    (∀ id entity, regrown.world.entity? id = some entity →
      ∀ effect ∈ entity.effects.effects, effect.isLive = true → effect.durationElapsed = false) ∧
    ∃ rest, sprouting.TicksOut ⟨⟨1⟩, ⟨1⟩⟩ rest ∧
      ∃ state ∈ sprouting.step.during 19, state.Settles ⟨⟨1⟩, ⟨1⟩⟩ rest := by
  have calm := World.calm_create {} .empty
  have finished : regrown.agenda = [] := List.isEmpty_iff.1 (by decide +kernel)
  have next : sprouting.ticksOutNext ⟨⟨1⟩, ⟨1⟩⟩ = true := by decide +kernel
  obtain ⟨rest, ticks⟩ := Cascade.exists_ticksOut next
  obtain ⟨punctual, settled⟩ := no_overdue_effects calm session_regrown
  have short : regrown.agenda.length ≤ rest.length := by
    rw [finished]
    exact Nat.zero_le _
  have settles := settled growing sprouting _ _ rest rfl ticks short
  exact ⟨calm, session_regrown, finished, by decide +kernel, punctual finished, rest, ticks,
    settles⟩

end SkillEngine
