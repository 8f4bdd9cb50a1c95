import SkillEngine.Proofs.Differences
import SkillEngine.Proofs.Expiry

/-!
# Owed pulses

When time passes for an effect, the pulses that come due are taken off its period timer until no
full period is left, or until the next one would land after the end of a finite duration. In the
second case the timer keeps what was not fired. An effect that then ends takes it along, but one
that lives on, since its duration starts again, still owes those pulses.
-/

namespace SkillEngine

namespace Clock

section Terms

variable {S : Type} [Number.Scalar S]

/-- A pulse is owed: a full period has passed since the last one. -/
def Owes (clock : Clock S) : Prop := 0 < clock.period ∧ clock.period ≤ clock.periodTimer

/-- The period timer is so large that taking a period off it leaves it no smaller. -/
def Stalls (clock : Clock S) : Prop := clock.periodTimer ≤ clock.periodTimer - clock.period

/-- The next pulse would land after the end of the duration. -/
def Overruns (clock : Clock S) : Prop := clock.finite = true ∧
  clock.duration + Number.Scalar.nearZero <
    clock.elapsed - (clock.periodTimer - clock.period)

instance (clock : Clock S) : Decidable clock.Owes :=
  inferInstanceAs (Decidable (0 < clock.period ∧ clock.period ≤ clock.periodTimer))

instance (clock : Clock S) : Decidable clock.Stalls :=
  inferInstanceAs (Decidable (clock.periodTimer ≤ clock.periodTimer - clock.period))

/-- An owed pulse that is not settled would land after the end. -/
theorem Owes.overruns {clock : Clock S} (owes : clock.Owes) (unsettled : clock.settle? = none) :
    clock.Overruns := by
  simp only [settle?, if_pos owes.2] at unsettled
  split at unsettled
  · next spent => simpa [Overruns] using spent
  · cases unsettled

end Terms

/-- Caught up as often as the bits of its timer say, a clock owes a pulse only if taking it off
would leave the timer no smaller, or if the pulse would land after the end. -/
theorem owes_catchUp {bound : Nat} {clock : Clock Float32}
    (enough : clock.Owes → clock.periodTimer.toBits.toNat ≤ bound) (pulses : Nat)
    (owes : (clock.catchUp bound pulses).2.Owes) :
    (clock.catchUp bound pulses).2.Stalls ∨ (clock.catchUp bound pulses).2.Overruns := by
  induction bound generalizing clock pulses with
  | zero =>
    have some := Single.toBits_pos (Single.lt_of_lt_of_le owes.1 owes.2)
    exact absurd some (Nat.not_lt.2 (enough owes))
  | succ bound ih =>
    rw [catchUp] at owes ⊢
    cases settles : clock.settle? with
    | none =>
      rw [settles] at owes
      exact .inr (owes.overruns settles)
    | some next =>
      have same := eq_of_settle? settles
      simp only [settles] at owes ⊢
      split at owes
      · next stalls =>
        rw [if_pos stalls]
        rw [same] at stalls
        exact .inl stalls
      · next falls =>
        rw [if_neg falls]
        refine ih (fun owing => ?_) (pulses + 1) owes
        -- The timer falls and stays positive, so its bits fall.
        have due := period_le_of_settle? settles
        have fewer : next.periodTimer.toBits.toNat < clock.periodTimer.toBits.toNat :=
          Single.toBits_lt_toBits (Single.lt_of_lt_of_le owing.1 owing.2)
            (Single.lt_of_not_le (Single.isSome_of_le owing.2) (Single.isSome_of_le due) falls)
        have most := enough ⟨by rw [same] at owing; exact owing.1, due⟩
        omega

/-- A clock that owes a pulse after an advance stalls, or the pulse would land after the end. -/
theorem owes_advance {clock : Clock Float32} {seconds : Float32}
    (owes : (clock.advance seconds).2.Owes) :
    (clock.advance seconds).2.Stalls ∨ (clock.advance seconds).2.Overruns := by
  have positive : 0 < clock.period := by
    obtain ⟨timer, advanced⟩ := clock.exists_advance seconds
    rw [advanced] at owes
    exact owes.1
  rw [advance_of_period positive seconds rfl] at owes ⊢
  exact owes_catchUp (fun _ => Nat.le_refl _) 0 owes

/-- When the next pulse would land after the end, the duration has run out. -/
theorem Owes.isOver {clock : Clock Float32} (owes : clock.Owes) (overruns : clock.Overruns) :
    clock.isOver = true := by
  obtain ⟨finite, late⟩ := overruns
  have margin : (0 : Float32) ≤ Number.Scalar.nearZero := by decide +kernel
  have after : clock.duration < clock.elapsed := by
    refine Single.lt_of_lt_sub (fun number => ?_) (Single.lt_of_add_lt margin late)
    exact Single.sub_nonneg owes.1 owes.2 number
  rw [Clock.isOver, finite, Bool.true_and, decide_eq_true_eq]
  exact Single.le_of_lt after

end Clock

/-- Owed pulses come to an effect only while time passes for it: nothing else adds to its period
timer, or changes its period. -/
theorem Frame.Winds.owes_or_advanced {frame : Frame} {handle : EffectHandle} {before : Effect}
    {clock : Clock Float32} (winds : frame.Winds handle before clock) (owes : clock.Owes) :
    clock.periodTimer = before.clock.periodTimer ∧ clock.period = before.clock.period ∨
      ∃ seconds, frame = .tickEffect handle seconds ∧ before.isLive = true ∧ ¬ seconds ≤ 0 ∧
        clock = (before.clock.advance seconds).2 := by
  cases winds with
  | kept | restarted => exact .inl ⟨rfl, rfl⟩
  | advanced ticks live forward => exact .inr ⟨_, ticks, live, forward, rfl⟩
  | @stacked application policy =>
    obtain ⟨_, _, period, _, timer⟩ := before.clock_restack policy
    rcases timer with restarted | same
    · have none := owes.2
      rw [restarted] at none
      exact absurd none (Single.not_le_of_lt owes.1)
    · exact .inl ⟨same, period⟩

namespace Cascade

/-- Time is about to pass for an effect beyond the end of its duration, with pulses owed after that
end, which its period timer keeps. The rest comes after. -/
def Overshoots (cascade : Cascade) (handle : EffectHandle) (timer : Float32) (rest : List Frame) :
    Prop :=
  ∃ seconds effect, cascade.agenda = .tickEffect handle seconds :: rest ∧
    cascade.world.effect? handle = some effect ∧ (effect.advance seconds).1.expired = true ∧
    (effect.advance seconds).2.clock.Owes ∧ (effect.advance seconds).2.clock.Overruns ∧
    (effect.advance seconds).2.clock.periodTimer = timer

/-- The step settles what becomes of an effect that ran out in its tick, and it lives on. -/
def Revives (cascade : Cascade) (handle : EffectHandle) (rest : List Frame) : Prop :=
  cascade.Settles handle rest ∧ cascade.step.Restarted handle

variable {cascade : Cascade} {handle : EffectHandle} {timer : Float32} {rest : List Frame}

/-- A tick that overshoots lets the duration run out. -/
theorem Overshoots.ticksOut (overshoots : cascade.Overshoots handle timer rest) :
    cascade.TicksOut handle rest := by
  obtain ⟨seconds, effect, next, found, expired, _⟩ := overshoots
  exact ⟨seconds, effect, next, found, expired⟩

/-- What is settled without an end revives the effect. -/
theorem Settles.revives (settles : cascade.Settles handle rest)
    (live : cascade.step.world.isLive handle = true) : cascade.Revives handle rest := by
  refine ⟨settles, ?_⟩
  cases settles with
  | ended _ ends => cases ends.symm.trans live
  | renewed _ restarted | restacked _ restarted => exact restarted

/-- In a tick before, an effect overshot the end of its duration and its period timer was left as it
is said to be, and since then it was revived or it is still running out. -/
def Overshot (past : List Cascade) (now : Cascade) (handle : EffectHandle) (timer : Float32) :
    Prop :=
  ∃ before ticked during rest, past = before ++ ticked :: during ∧
    ticked.Overshoots handle timer rest ∧
    ((∃ state ∈ during, state.Revives handle rest) ∨ now.RunsOut handle rest)

variable {past : List Cascade}

/-- An effect that overshot stays so when the host asks a request. -/
theorem Overshot.asked (overshot : Overshot past cascade handle timer)
    (done : cascade.agenda = []) (next : Cascade) :
    Overshot (past ++ [cascade]) next handle timer := by
  obtain ⟨before, ticked, during, rest, rfl, overshoots, revives | runs⟩ := overshot
  · obtain ⟨state, member, revives⟩ := revives
    exact ⟨before, ticked, during ++ [cascade], rest, by simp, overshoots,
      .inl ⟨state, List.mem_append_left _ member, revives⟩⟩
  · have some := runs.length_lt
    rw [done] at some
    exact absurd some (Nat.not_lt_zero _)

/-- An effect that overshot stays so in a step that leaves it live. -/
theorem Overshot.stepped {admits : Request → Prop} (overshot : Overshot past cascade handle timer)
    (sound : cascade.world.Sound) {frame : Frame} {others : List Frame}
    (admitted : frame.Admitted admits)
    (turn : cascade.world.Turn frame (frame.expand cascade.world cascade.reply).world)
    (next : cascade.agenda = frame :: others)
    (kept : (frame.expand cascade.world cascade.reply).lost = false)
    (live : cascade.step.world.isLive handle = true) :
    Overshot (past ++ [cascade]) cascade.step handle timer := by
  obtain ⟨before, ticked, during, rest, rfl, overshoots, lives⟩ := overshot
  refine ⟨before, ticked, during ++ [cascade], rest, by simp, overshoots, ?_⟩
  rcases lives with ⟨state, member, revives⟩ | runs
  · exact .inl ⟨state, List.mem_append_left _ member, revives⟩
  · rcases runs.step sound admitted turn next kept with settles | runs
    · exact .inl ⟨cascade, List.mem_append_right _ List.mem_cons_self, settles.revives live⟩
    · exact .inr runs

/-- An effect has overshot after the step of a tick in which it does. -/
theorem Overshoots.overshot (overshoots : cascade.Overshoots handle timer rest)
    (kept : ∀ frame others, cascade.agenda = frame :: others →
      (frame.expand cascade.world cascade.reply).lost = false) (past : List Cascade) :
    Overshot (past ++ [cascade]) cascade.step handle timer :=
  ⟨past, cascade, [], rest, rfl, overshoots, .inr (overshoots.ticksOut.step kept)⟩

end Cascade

/-- A live effect that owes a pulse stalls or overshot the end of its duration. -/
theorem Session.overshot {admits : Request → Prop} {start : World} (calm : start.Calm)
    (lawful : ∀ request, admits request → request.isLawful = true) {past : List Cascade}
    {now : Cascade} (session : Session admits start past now) {handle : EffectHandle}
    {effect : Effect} (found : now.world.effect? handle = some effect)
    (live : effect.isLive = true) (owes : effect.clock.Owes) : effect.clock.Stalls ∨
      Cascade.Overshot past now handle effect.clock.periodTimer := by
  induction session generalizing effect with
  | opened => cases (calm.missing handle).symm.trans found
  | asked session done admitted ih =>
    exact (ih found live owes).imp_right fun overshot => overshot.asked done _
  | @stepped past now frame others session next kept ih =>
    have sound := session.sound calm lawful
    have turn := session.turn calm lawful next
    have placed := found
    rw [Cascade.world_step next] at placed
    rcases turn.origin sound placed with ⟨before, was, makes⟩ | ⟨_, _, _, rfl⟩
    · have lived : before.isLive = true := by
        rcases makes.live with same | ⟨lived, _⟩
        · exact same.symm.trans live
        · exact lived
      rcases makes.winds.owes_or_advanced owes with
        ⟨timer, period⟩ | ⟨seconds, rfl, _, forward, advanced⟩
      · rw [Clock.Owes, timer, period] at owes
        rw [Clock.Stalls, timer, period]
        refine (ih was lived owes).imp_right fun overshot => ?_
        exact overshot.stepped sound (session.first calm lawful next) turn next kept
          ((World.isLive_eq found).trans live)
      · -- The pulse is owed since this very tick.
        rw [advanced] at owes ⊢
        refine (Clock.owes_advance owes).imp_right fun overruns => ?_
        have overshoots :
            now.Overshoots handle (before.clock.advance seconds).2.periodTimer others := by
          refine ⟨seconds, before, next, was, ?_⟩
          rw [Effect.advance_of_live lived forward]
          exact ⟨owes.isOver overruns, owes, overruns, rfl⟩
        refine overshoots.overshot (fun head tail first => ?_) past
        obtain ⟨rfl, rfl⟩ := List.cons.inj (next.symm.trans first)
        exact kept
    · -- A new effect has a period timer at zero.
      exact absurd owes.2 (Single.not_le_of_lt owes.1)

/-- When a host's request is done, a live effect owes no pulse, except so: its period timer is so
large that taking a period off leaves it no smaller, or in an earlier tick of the effect its time
ran beyond the end of its duration, its period timer kept the pulses that would have landed after
that end and has not changed since, and the effect lives because its duration started again, by its
expiration policy or by an application that its own pulses stacked onto it. -/
theorem owed_pulses_overshot {start : World} (calm : start.Calm) {past : List Cascade}
    {now : Cascade}
    (session : Session (fun request => request.isLawful = true) start past now)
    (done : now.agenda = []) {id : EntityId} {entity : Entity}
    (registered : now.world.entity? id = some entity) {effect : Effect}
    (stored : effect ∈ entity.effects.effects) (live : effect.isLive = true)
    (owes : effect.clock.Owes) : effect.clock.Stalls ∨
      ∃ before ticked during rest, past = before ++ ticked :: during ∧
        ticked.Overshoots ⟨id, effect.id⟩ effect.clock.periodTimer rest ∧
        ∃ state ∈ during, state.Revives ⟨id, effect.id⟩ rest := by
  have lawful : ∀ request : Request, request.isLawful = true → request.isLawful = true :=
    fun _ lawful => lawful
  have found : now.world.effect? ⟨id, effect.id⟩ = some effect := by
    rw [World.effect?_eq registered]
    exact ((session.sound calm lawful).rosters id entity registered).get?_eq stored
  refine (session.overshot calm lawful found live owes).imp_right fun overshot => ?_
  obtain ⟨before, ticked, during, rest, cut, overshoots, revives | runs⟩ := overshot
  · exact ⟨before, ticked, during, rest, cut, overshoots, revives⟩
  · have some := runs.length_lt
    rw [done] at some
    exact absurd some (Nat.not_lt_zero _)

/-- An effect whose duration starts again in a tick that outlasts it still owes the pulse that was
dropped: time that earns none makes it fire. -/
theorem regrowth_still_owes : (World.create {} .empty).Calm ∧
    Session (fun request => request.isLawful = true) (World.create {} .empty)
      (growing ++ sprouting :: sprouting.step.during 19) regrown ∧
    regrown.agenda = [] ∧ ∃ effect, regrown.world.effect? ⟨⟨1⟩, ⟨1⟩⟩ = some effect ∧
      effect.isLive = true ∧ effect.clock.elapsed = 0 ∧ effect.clock.Owes ∧
      (Float32.ofBits 0x3f000000 < effect.clock.period) ∧
      (effect.advance (Float32.ofBits 0x3f000000)).1.pulses = 1 := by
  refine ⟨World.calm_create {} .empty, session_regrown, List.isEmpty_iff.1 (by decide +kernel), ?_⟩
  have owed : (regrown.world.effect? ⟨⟨1⟩, ⟨1⟩⟩).any (fun effect => effect.isLive &&
      decide (effect.clock.elapsed = 0) && decide effect.clock.Owes &&
      decide (Float32.ofBits 0x3f000000 < effect.clock.period) &&
      decide ((effect.advance (Float32.ofBits 0x3f000000)).1.pulses = 1)) = true := by
    decide +kernel
  obtain ⟨effect, found, facts⟩ := (Option.any_eq_true _ _).1 owed
  simp only [Bool.and_eq_true, decide_eq_true_eq] at facts
  obtain ⟨⟨⟨⟨live, elapsed⟩, owes⟩, short⟩, pulses⟩ := facts
  exact ⟨effect, found, live, elapsed, owes, short, pulses⟩

/-- The pulse that the effect owes was dropped in a tick that overshot its end, before its policy
let it start again. -/
theorem regrowth_overshot : (World.create {} .empty).Calm ∧
    Session (fun request => request.isLawful = true) (World.create {} .empty)
      (growing ++ sprouting :: sprouting.step.during 19) regrown ∧
    regrown.agenda = [] ∧ ∃ entity, regrown.world.entity? ⟨1⟩ = some entity ∧
      ∃ effect ∈ entity.effects.effects, effect.isLive = true ∧ effect.clock.Owes ∧
        ¬ effect.clock.Stalls ∧ ∃ before ticked during rest,
          growing ++ sprouting :: sprouting.step.during 19 = before ++ ticked :: during ∧
          ticked.Overshoots ⟨⟨1⟩, effect.id⟩ effect.clock.periodTimer rest ∧
          ∃ state ∈ during, state.Revives ⟨⟨1⟩, effect.id⟩ rest := by
  have calm := World.calm_create {} .empty
  have finished : regrown.agenda = [] := List.isEmpty_iff.1 (by decide +kernel)
  have owed : (regrown.world.entity? ⟨1⟩).any (fun entity =>
      entity.effects.effects.any fun effect => effect.isLive && decide effect.clock.Owes &&
        decide (¬ effect.clock.Stalls)) = true := by decide +kernel
  obtain ⟨entity, registered, some⟩ := (Option.any_eq_true _ _).1 owed
  obtain ⟨effect, stored, facts⟩ := List.any_eq_true.1 some
  simp only [Bool.and_eq_true, decide_eq_true_eq] at facts
  obtain ⟨⟨live, owes⟩, falls⟩ := facts
  have overshot := owed_pulses_overshot calm session_regrown finished registered stored live owes
  exact ⟨calm, session_regrown, finished, entity, registered, effect, stored, live, owes, falls,
    overshot.resolve_left falls⟩

end SkillEngine
