import Mathlib.Algebra.BigOperators.Group.List.Basic
import Mathlib.Tactic.Linarith
import Mathlib.Tactic.Ring
import SkillEngine.Number.Exact
import SkillEngine.Proofs.Clocks
import SkillEngine.World.Lifecycle

/-!
# Pulses and frames

Over exact numbers the pulses of an effect that is left alone depend on how much time has passed and
not on how it was cut into frames. The clock keeps one equation: what the timers differ by is one
period for every pulse so far. So the next pulse lands a whole number of periods after the start,
and the clock has fired exactly those that land before now and, if it is finite, not after its end.
An effect that takes hold keeps a clock that has not run yet and goes through its frames as that
clock does, over the floats as well.
-/

namespace SkillEngine

namespace Clock

variable {S : Type} [Number.Scalar S]

/-- A clock that has not run yet. -/
def fresh (finite : Bool) (duration period : S) : Clock S := ⟨finite, duration, period, 0, 0⟩

/-- The clock after some advances in a row. -/
def afterEach (clock : Clock S) (frames : List S) : Clock S :=
  frames.foldl (fun clock seconds => (clock.advance seconds).2) clock

/-- The pulses of some advances in a row. -/
def pulsesOf (clock : Clock S) : List S → Nat
  | [] => 0
  | seconds :: rest => (clock.advance seconds).1.pulses + (clock.advance seconds).2.pulsesOf rest

/-- The time until which the clock fires pulses: now, or the end of a finite effect with a
tolerance. -/
def horizon (clock : Clock ℚ) : ℚ :=
  if clock.finite then min clock.elapsed (clock.duration + Number.Scalar.nearZero)
  else clock.elapsed

/-- The pulses that land before the horizon. -/
def due (clock : Clock ℚ) : ℕ := ⌊clock.horizon / clock.period⌋₊

/-- The clock some seconds later, without regard to pulses. -/
def later (clock : Clock ℚ) (seconds : ℚ) : Clock ℚ :=
  { clock with elapsed := clock.elapsed + seconds }

/-- The clock with so many pulses since its start settled. -/
def settled (clock : Clock ℚ) (pulses : ℕ) : Clock ℚ :=
  { clock with periodTimer := clock.elapsed - clock.period * pulses }

variable (clock : Clock ℚ)

/-- A pulse is due if it lands before the horizon. -/
theorem lt_due_iff (positive : 0 < clock.period) (pulses : ℕ) :
    pulses < clock.due ↔ clock.period * (pulses + 1) ≤ clock.horizon := by
  have whole : pulses < clock.due ↔ ((pulses + 1 : ℕ) : ℚ) ≤ clock.horizon / clock.period :=
    Nat.le_floor_iff' (Nat.succ_ne_zero pulses)
  rw [whole, le_div_iff₀ positive, mul_comm, Nat.cast_add_one]

/-- A time is before the horizon if it has come and is not after the end of a finite effect. -/
theorem le_horizon_iff (time : ℚ) :
    time ≤ clock.horizon ↔ time ≤ clock.elapsed ∧
      (clock.finite && decide (clock.duration + Number.Scalar.nearZero < time)) = false := by
  rw [horizon]
  cases finite : clock.finite with
  | false => simp
  | true => simp [not_lt]

/-- Settling takes the next pulse if it is due. -/
theorem settle?_settled (positive : 0 < clock.period) (pulses : ℕ) :
    (clock.settled pulses).settle? =
      if pulses < clock.due then some (clock.settled (pulses + 1)) else none := by
  have landing : clock.elapsed - (clock.elapsed - clock.period * pulses - clock.period) =
      clock.period * (pulses + 1) := by ring
  have rest : clock.elapsed - clock.period * pulses - clock.period =
      clock.elapsed - clock.period * (pulses + 1 : ℕ) := by
    push_cast
    ring
  have owed : clock.period ≤ clock.elapsed - clock.period * pulses ↔
      clock.period * (pulses + 1) ≤ clock.elapsed := by
    constructor <;> intro bound <;> linarith
  have due := (clock.lt_due_iff positive pulses).trans (clock.le_horizon_iff _)
  change (if clock.period ≤ clock.elapsed - clock.period * pulses then
    if (clock.finite && decide (clock.duration + Number.Scalar.nearZero <
      clock.elapsed - (clock.elapsed - clock.period * pulses - clock.period))) = true then none
    else some { clock with periodTimer := clock.elapsed - clock.period * pulses - clock.period }
    else none) = _
  rw [landing, rest]
  by_cases came : clock.period * (pulses + 1) ≤ clock.elapsed
  · rw [if_pos (owed.2 came)]
    cases gone : clock.finite &&
        decide (clock.duration + Number.Scalar.nearZero < clock.period * (pulses + 1)) with
    | false => rw [if_neg Bool.false_ne_true, if_pos (due.2 ⟨came, gone⟩), settled]
    | true => rw [if_pos rfl, if_neg fun lands => Bool.false_ne_true ((due.1 lands).2 ▸ gone)]
  · rw [if_neg fun full => came (owed.1 full), if_neg fun lands => came (due.1 lands).1]

/-- Catching up after some settled pulses settles all that are due. -/
theorem catchUp_settled (positive : 0 < clock.period) (before bound pulses : ℕ)
    (early : before + pulses ≤ clock.due) (room : clock.due ≤ before + pulses + bound) :
    (clock.settled (before + pulses)).catchUp bound pulses =
      (clock.due - before, clock.settled clock.due) := by
  induction bound generalizing pulses with
  | zero =>
    have all : before + pulses = clock.due := by omega
    rw [catchUp, all, show clock.due - before = pulses by omega]
  | succ bound ih =>
    rw [catchUp, clock.settle?_settled positive]
    by_cases more : before + pulses < clock.due
    · have smaller : ¬ (clock.settled (before + pulses)).periodTimer ≤
          (clock.settled (before + pulses + 1)).periodTimer := by
        simp only [settled]
        push_cast
        linarith
      rw [if_pos more]
      simp only [if_neg smaller]
      exact ih (pulses + 1) (by omega) (by omega)
    · have all : before + pulses = clock.due := by omega
      rw [if_neg more, all, show clock.due - before = pulses by omega]

/-- The horizon does not move back. -/
theorem horizon_later (seconds : ℚ) (forward : 0 ≤ seconds) :
    clock.horizon ≤ (clock.later seconds).horizon := by
  have sooner : clock.elapsed ≤ clock.elapsed + seconds := by linarith
  rw [horizon, horizon]
  change _ ≤ if clock.finite then min (clock.elapsed + seconds) _ else clock.elapsed + seconds
  split
  · exact min_le_min_right _ sooner
  · exact sooner

/-- What is due stays due. -/
theorem due_later (positive : 0 < clock.period) (seconds : ℚ) (forward : 0 ≤ seconds) :
    clock.due ≤ (clock.later seconds).due :=
  Nat.floor_le_floor (div_le_div_of_nonneg_right (clock.horizon_later seconds forward) positive.le)

/-- The bound of the arithmetic lets every due pulse be caught up. -/
theorem due_le_descents (positive : 0 < clock.period) (before : ℕ) :
    clock.due ≤ before +
      Number.Scalar.descents (clock.settled before).periodTimer clock.period := by
  change clock.due ≤ before + ⌊(clock.elapsed - clock.period * before) / clock.period⌋₊
  by_contra more
  have last : clock.due - 1 < clock.due := by omega
  have lands := ((clock.lt_due_iff positive _).1 last).trans
    ((clock.le_horizon_iff clock.horizon).1 le_rfl).1
  have whole : ((clock.due - before : ℕ) : ℚ) ≤
      (clock.elapsed - clock.period * before) / clock.period := by
    rw [le_div_iff₀ positive]
    have parts : ((clock.due - 1 : ℕ) : ℚ) + 1 = (clock.due - before : ℕ) + before := by
      norm_cast
      omega
    rw [parts] at lands
    linarith
  have counted := Nat.le_floor whole
  omega

/-- An advance of a clock whose due pulses are settled settles those that come due. -/
theorem advance_settled (positive : 0 < clock.period) (seconds : ℚ) (forward : 0 ≤ seconds) :
    (clock.settled clock.due).advance seconds =
      (⟨(clock.later seconds).due - clock.due, (clock.later seconds).isOver⟩,
        (clock.later seconds).settled (clock.later seconds).due) := by
  have owed : (clock.settled clock.due).owing seconds =
      (clock.later seconds).settled clock.due := by
    have timer : clock.elapsed - clock.period * clock.due + seconds =
        clock.elapsed + seconds - clock.period * clock.due := by ring
    simp only [owing, settled, later]
    rw [timer]
  have room := (clock.later seconds).due_le_descents positive clock.due
  have caught := (clock.later seconds).catchUp_settled positive clock.due
    (Number.Scalar.descents ((clock.later seconds).settled clock.due).periodTimer clock.period) 0
    (clock.due_later positive seconds forward) room
  have start : 0 < (clock.settled clock.due).period := positive
  have advanced := advance_of_period start seconds (owed ▸ caught)
  exact advanced

/-- Advances of a clock whose due pulses are settled settle those that come due during all of them,
however many there are. -/
theorem run_settled (positive : 0 < clock.period) (frames : List ℚ)
    (forward : ∀ seconds ∈ frames, 0 ≤ seconds) :
    (clock.settled clock.due).pulsesOf frames + clock.due = (clock.later frames.sum).due ∧
      (clock.settled clock.due).afterEach frames =
        (clock.later frames.sum).settled (clock.later frames.sum).due := by
  induction frames generalizing clock with
  | nil =>
    have still : clock.later 0 = clock := by rw [later, add_zero]
    rw [List.sum_nil, still]
    exact ⟨Nat.zero_add _, rfl⟩
  | cons seconds rest ih =>
    have first := forward seconds List.mem_cons_self
    have both : (clock.later seconds).later rest.sum = clock.later (seconds + rest.sum) := by
      simp only [later, add_assoc]
    have kept := clock.due_later positive seconds first
    have step := clock.advance_settled positive seconds first
    obtain ⟨pulses, onward⟩ := ih (clock.later seconds) positive
      fun second member => forward second (List.mem_cons_of_mem _ member)
    rw [both] at pulses onward
    constructor
    · simp only [List.sum_cons, pulsesOf, step]
      omega
    · rw [List.sum_cons, afterEach, List.foldl_cons, step]
      exact onward

/-- Nothing is due at the start. -/
theorem due_fresh (finite : Bool) (duration period : ℚ) (positive : 0 < period) :
    (fresh finite duration period).due = 0 := by
  have none : ¬ 0 < (fresh finite duration period).due := by
    intro some
    have lands := ((fresh finite duration period).lt_due_iff positive 0).1 some
    have came := (((fresh finite duration period).le_horizon_iff _).1 lands).1
    change period * ((0 : ℕ) + 1) ≤ 0 at came
    push_cast at came
    linarith
  omega

/-- From the start, a clock fires all pulses that come due. -/
theorem run_fresh (finite : Bool) (duration period : ℚ) (positive : 0 < period) (frames : List ℚ)
    (forward : ∀ seconds ∈ frames, 0 ≤ seconds) :
    (fresh finite duration period).pulsesOf frames =
        ((fresh finite duration period).later frames.sum).due ∧
      (fresh finite duration period).afterEach frames =
        ((fresh finite duration period).later frames.sum).settled
          ((fresh finite duration period).later frames.sum).due := by
  have start : (fresh finite duration period).settled (fresh finite duration period).due =
      fresh finite duration period := by
    rw [due_fresh finite duration period positive, settled, Nat.cast_zero, mul_zero, sub_zero]
    rfl
  have run := (fresh finite duration period).run_settled positive frames forward
  rw [start, due_fresh finite duration period positive, Nat.add_zero] at run
  exact run

/-- An infinite clock has fired every pulse up to now. -/
theorem due_infinite (duration period total : ℚ) :
    ((fresh false duration period).later total).due = ⌊total / period⌋₊ := by
  have now : (0 : ℚ) + total = total := zero_add total
  change ⌊(0 + total) / period⌋₊ = _
  rw [now]

/-- A finite clock that has run out has fired every pulse up to its end, unless one lands within the
tolerance after the end. -/
theorem due_of_isOver (duration period total : ℚ) (positive : 0 < period)
    (spent : ((fresh true duration period).later total).isOver = true)
    (clear : ∀ pulse : ℕ, ¬ (duration < period * pulse ∧
      period * pulse ≤ duration + Number.Scalar.nearZero)) :
    ((fresh true duration period).later total).due = ⌊duration / period⌋₊ := by
  have now : (0 : ℚ) + total = total := zero_add total
  have ended : duration ≤ total := by
    rw [isOver, later, fresh, Bool.true_and, decide_eq_true_eq] at spent
    exact now ▸ spent
  have tolerance := Number.nearZero_pos
  refine eq_of_forall_lt_iff fun pulses => ?_
  have lands := (((fresh true duration period).later total).lt_due_iff positive pulses).trans
    (le_horizon_iff _ _)
  have whole : pulses < ⌊duration / period⌋₊ ↔ ((pulses + 1 : ℕ) : ℚ) ≤ duration / period :=
    Nat.le_floor_iff' (Nat.succ_ne_zero pulses)
  rw [le_div_iff₀ positive, mul_comm, Nat.cast_add_one] at whole
  have apart := clear (pulses + 1)
  rw [Nat.cast_add_one] at apart
  change _ ↔ period * (pulses + 1) ≤ 0 + total ∧
    decide (duration + Number.Scalar.nearZero < period * (pulses + 1)) = false at lands
  rw [now, decide_eq_false_iff_not, not_lt] at lands
  rw [lands, whole]
  constructor
  · rintro ⟨_, tolerated⟩
    by_contra after
    exact apart ⟨not_le.1 after, tolerated⟩
  · intro before
    exact ⟨before.trans ended, before.trans (by linarith)⟩

end Clock

namespace Effect

/-- The effect after some frames in a row. -/
def afterEach (effect : Effect) (frames : List Float32) : Effect :=
  frames.foldl (fun effect seconds => (effect.advance seconds).2) effect

/-- The pulses of some frames in a row. -/
def pulsesOf (effect : Effect) : List Float32 → Nat
  | [] => 0
  | seconds :: rest => (effect.advance seconds).1.pulses + (effect.advance seconds).2.pulsesOf rest

/-- A live effect goes through some frames as its clock does. -/
theorem run_eq (effect : Effect) (live : effect.isLive = true) {frames : List Float32}
    (forward : ∀ seconds ∈ frames, ¬ seconds ≤ 0) :
    effect.pulsesOf frames = effect.clock.pulsesOf frames ∧
      (effect.afterEach frames).clock = effect.clock.afterEach frames := by
  induction frames generalizing effect with
  | nil => exact ⟨rfl, rfl⟩
  | cons seconds rest ih =>
    obtain ⟨now, later⟩ := List.forall_mem_cons.1 forward
    have step := advance_of_live live now
    -- The effect is ticking then, which is live as well.
    obtain ⟨pulses, timers⟩ := ih (effect.advance seconds).2 (by rw [step]; rfl) later
    rw [step] at pulses timers
    constructor
    · rw [pulsesOf, Clock.pulsesOf, step, pulses]
    · rw [afterEach, List.foldl_cons, step]
      exact timers

/-- The clock of an effect that takes hold has not run yet. -/
theorem clock_newEffect (world : World) (application : Application) (target : EntityId)
    (lasting : Float32) : (world.newEffect application target lasting).clock =
      .fresh (application.definition.durationType == .duration) lasting
        (Number.larger application.definition.period.value 0) := rfl

end Effect

/-- Pulses do not depend on the frame rate. Over exact numbers, and however the time since the
effect was applied is cut into frames: an infinite effect has fired as many pulses as whole periods
have passed, with what is left of them on its period timer; a finite one has fired as many as fit
into its duration when it reports that it has run out, unless a pulse would land within the
tolerance after its end; and two ways to cut the same time leave the same pulses and the same
timers. This is the clock that an effect keeps, there over the floats: what takes hold fires the
pulses of a fresh clock, and its timers are those of that clock. -/
theorem pulses_independent_of_frames (duration period : ℚ) (positive : 0 < period)
    (frames : List ℚ) (forward : ∀ seconds ∈ frames, 0 < seconds) :
    ((Clock.fresh false duration period).pulsesOf frames = ⌊frames.sum / period⌋₊ ∧
      ((Clock.fresh false duration period).afterEach frames).periodTimer =
        frames.sum - period * ⌊frames.sum / period⌋₊) ∧
    ((∀ pulse : ℕ, ¬ (duration < period * pulse ∧
        period * pulse ≤ duration + Number.Scalar.nearZero)) →
      ∀ earlier last, frames = earlier ++ [last] →
        (((Clock.fresh true duration period).afterEach earlier).advance last).1.expired = true →
        (Clock.fresh true duration period).pulsesOf frames = ⌊duration / period⌋₊) ∧
    (∀ (finite : Bool) (others : List ℚ), (∀ seconds ∈ others, 0 < seconds) →
      others.sum = frames.sum →
      (Clock.fresh finite duration period).pulsesOf others =
          (Clock.fresh finite duration period).pulsesOf frames ∧
        (Clock.fresh finite duration period).afterEach others =
          (Clock.fresh finite duration period).afterEach frames) ∧
    ∀ (world : World) (application : Application) (target : EntityId) (lasting : Float32)
      (ticks : List Float32), (∀ seconds ∈ ticks, ¬ seconds ≤ 0) →
      let effect := world.newEffect application target lasting
      let clock := Clock.fresh (application.definition.durationType == .duration) lasting
        (Number.larger application.definition.period.value 0)
      effect.pulsesOf ticks = clock.pulsesOf ticks ∧
        (effect.afterEach ticks).clock = clock.afterEach ticks := by
  have run (finite : Bool) (frames : List ℚ) (forward : ∀ seconds ∈ frames, 0 < seconds) :=
    Clock.run_fresh finite duration period positive frames fun seconds member =>
      (forward seconds member).le
  refine ⟨?_, ?_, ?_, ?_⟩
  · obtain ⟨pulses, timers⟩ := run false frames forward
    rw [pulses, timers, Clock.due_infinite]
    refine ⟨rfl, ?_⟩
    change 0 + frames.sum - _ = _
    rw [zero_add]
    rfl
  · intro clear earlier last cut reports
    obtain ⟨pulses, timers⟩ := run true frames forward
    rw [pulses]
    refine Clock.due_of_isOver duration period frames.sum positive ?_ clear
    have same : (Clock.fresh true duration period).afterEach frames =
        (((Clock.fresh true duration period).afterEach earlier).advance last).2 := by
      rw [cut, Clock.afterEach, Clock.afterEach, List.foldl_concat]
    have spent : ((Clock.fresh true duration period).afterEach frames).isOver = true := by
      rw [same]
      exact reports
    rw [timers] at spent
    exact spent
  · intro finite others ahead total
    obtain ⟨pulses, timers⟩ := run finite frames forward
    obtain ⟨others, ticks⟩ := run finite others ahead
    rw [pulses, timers, others, ticks, total]
    exact ⟨rfl, rfl⟩
  · intro world application target lasting ticks ahead
    have run := (world.newEffect application target lasting).run_eq rfl ahead
    rw [Effect.clock_newEffect] at run
    exact run

/-- Five pulses come of five and a half seconds in three frames, whether the effect is infinite or
ends after five seconds. -/
theorem three_frames_pulse :
    (0 : ℚ) < 1 ∧ (∀ seconds ∈ [(3 / 4 : ℚ), 7 / 4, 3], 0 < seconds) ∧
      (Clock.fresh false 0 (1 : ℚ)).pulsesOf [3 / 4, 7 / 4, 3] = 5 ∧
      (((Clock.fresh true 5 (1 : ℚ)).afterEach [3 / 4, 7 / 4]).advance 3).1.expired = true ∧
      (Clock.fresh true 5 (1 : ℚ)).pulsesOf [3 / 4, 7 / 4, 3] = 5 := by
  have forward : ∀ seconds ∈ [(3 / 4 : ℚ), 7 / 4, 3], 0 < seconds := by decide +kernel
  have reports : (((Clock.fresh true 5 (1 : ℚ)).afterEach [3 / 4, 7 / 4]).advance 3).1.expired =
      true := by decide +kernel
  have clear (pulse : ℕ) : ¬ ((5 : ℚ) < 1 * pulse ∧
      1 * (pulse : ℚ) ≤ 5 + Number.Scalar.nearZero) := by
    rintro ⟨after, tolerated⟩
    have close : (Number.Scalar.nearZero : ℚ) < 1 := by decide +kernel
    have least : 5 < pulse := by exact_mod_cast (one_mul (pulse : ℚ)) ▸ after
    have most : pulse < 6 := by
      have bound : (pulse : ℚ) < 6 := by linarith
      exact_mod_cast bound
    omega
  obtain ⟨⟨infinite, _⟩, _, _⟩ := pulses_independent_of_frames 0 1 one_pos _ forward
  obtain ⟨_, finite, _⟩ := pulses_independent_of_frames 5 1 one_pos _ forward
  refine ⟨one_pos, forward, ?_, reports, ?_⟩
  · rw [infinite]
    decide +kernel
  · rw [finite clear [3 / 4, 7 / 4] 3 rfl reports]
    decide +kernel

end SkillEngine
