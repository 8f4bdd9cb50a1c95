import SkillEngine.Proofs.Absorption
import SkillEngine.Proofs.Clocks
import SkillEngine.Proofs.Expiry
import SkillEngine.Proofs.Session

/-!
# The loop that settles owed pulses

After time has passed, pulses are settled one after another until none is owed. Each takes a period
off the timer, which then should be smaller, so that the loop ends. In single precision a period
that is too small beside the timer is absorbed: the timer stays what it is, and the loop never ends.
`Clock.CatchesUp` is the loop itself, without the bound by which `Clock.catchUp` is computed.
-/

namespace SkillEngine

namespace Clock

section Loop

variable {S : Type} [Number.Scalar S] {clock next state last : Clock S} {pulses : Nat}

/-- The loop settles some pulses of a clock, one after another, and is done when none is owed. -/
inductive CatchesUp : Clock S → Nat → Clock S → Prop where
  /-- No pulse is owed. -/
  | done {clock : Clock S} (settled : clock.settle? = none) : CatchesUp clock 0 clock
  /-- A pulse is settled, and the loop goes on. -/
  | pulse {clock next last : Clock S} {pulses : Nat} (settles : clock.settle? = some next)
      (rest : CatchesUp next pulses last) : CatchesUp clock (pulses + 1) last

/-- The loop comes to a state of the clock. -/
inductive Reaches : Clock S → Clock S → Prop where
  /-- It starts there. -/
  | refl (clock : Clock S) : Reaches clock clock
  /-- It comes there after a pulse. -/
  | pulse {clock next state : Clock S} (settles : clock.settle? = some next)
      (rest : Reaches next state) : Reaches clock state

/-- The loop ends. -/
def Ends (clock : Clock S) : Prop := ∃ pulses last, clock.CatchesUp pulses last

/-- A pulse is settled, and the clock is what it was. -/
def IsStuck (clock : Clock S) : Prop := clock.settle? = some clock

/-- A loop that ends comes through all that it reaches. -/
theorem Ends.of_reaches (reaches : clock.Reaches state) (ends : clock.Ends) : state.Ends := by
  induction reaches with
  | refl => exact ends
  | pulse settles _ ih =>
    obtain ⟨_, _, catches⟩ := ends
    cases catches with
    | done settled => cases settled.symm.trans settles
    | pulse settles' rest =>
      cases settles.symm.trans settles'
      exact ih ⟨_, _, rest⟩

/-- A stuck loop does not end. -/
theorem IsStuck.not_ends (stuck : clock.IsStuck) : ¬ clock.Ends := by
  rintro ⟨pulses, last, catches⟩
  induction catches with
  | done settled => cases settled.symm.trans stuck
  | pulse settles _ ih =>
    cases settles.symm.trans stuck
    exact ih stuck

end Loop

section Singles

variable {clock next state last : Clock Float32} {pulses : Nat}

/-- Nothing is owed after an infinite period was taken off an infinite timer. -/
theorem settle?_of_infinite (timer : clock.periodTimer = Number.infinity)
    (period : clock.period = Number.infinity) (settles : clock.settle? = some next) :
    next.settle? = none := by
  cases again : next.settle? with
  | none => rfl
  | some after =>
    have due := period_le_of_settle? again
    rw [eq_of_settle? settles, timer, period] at due
    exact absurd due Single.not_infinity_le_sub

/-- A pulse makes the timer smaller, or leaves the clock as it was, or it is the last. -/
theorem pulse_cases (periodic : 0 < clock.period) (settles : clock.settle? = some next) :
    next.periodTimer < clock.periodTimer ∨ next = clock ∨
      clock.periodTimer = Number.infinity ∧ clock.period = Number.infinity ∧
      next.settle? = none := by
  have taken := eq_of_settle? settles
  rcases Single.sub_cases periodic (period_le_of_settle? settles) with less | same | infinite
  · rw [taken]
    exact .inl less
  · rw [same] at taken
    exact .inr (.inl taken)
  · exact .inr (.inr ⟨infinite.1, infinite.2, settle?_of_infinite infinite.1 infinite.2 settles⟩)

/-- A pulse leaves the period as it was. -/
theorem period_of_settle? (settles : clock.settle? = some next) : next.period = clock.period := by
  rw [eq_of_settle? settles]

/-- The loop leaves the period as it was. -/
theorem Reaches.period_eq (reaches : clock.Reaches state) : state.period = clock.period := by
  induction reaches with
  | refl => rfl
  | pulse settles _ ih => exact ih.trans (period_of_settle? settles)

/-- The bits of the timer fall with a pulse that makes it smaller and is not the last. -/
theorem bits_lt (periodic : 0 < clock.period) (settles : clock.settle? = some next)
    (less : next.periodTimer < clock.periodTimer) {after : Clock Float32}
    (again : next.settle? = some after) :
    next.periodTimer.toBits.toNat < clock.periodTimer.toBits.toNat := by
  have due := period_le_of_settle? again
  rw [period_of_settle? settles] at due
  exact Single.toBits_lt_toBits (Single.lt_of_lt_of_le periodic due) less

/-- A loop that is never stuck ends. -/
theorem ends_of_not_stuck (periodic : 0 < clock.period)
    (falls : ∀ state, clock.Reaches state → ¬ state.IsStuck) : clock.Ends := by
  generalize bits : clock.periodTimer.toBits.toNat = size
  induction size using Nat.strong_induction_on generalizing clock with
  | _ size ih =>
    cases settles : clock.settle? with
    | none => exact ⟨0, clock, .done settles⟩
    | some next =>
      obtain ⟨pulses, last, rest⟩ : next.Ends := by
        cases again : next.settle? with
        | none => exact ⟨0, next, .done again⟩
        | some after =>
          rcases pulse_cases periodic settles with less | rfl | ⟨_, _, none⟩
          · refine ih _ (bits ▸ bits_lt periodic settles less again) ?_
              (fun state reaches => ?_) rfl
            · rwa [period_of_settle? settles]
            · exact falls state (.pulse settles reaches)
          · exact absurd settles (falls _ (.refl _))
          · cases none.symm.trans again
      exact ⟨pulses + 1, last, .pulse settles rest⟩

/-- The loop ends if and only if it is never stuck. -/
theorem ends_iff (periodic : 0 < clock.period) :
    clock.Ends ↔ ∀ state, clock.Reaches state → ¬ state.IsStuck :=
  ⟨fun ends _ reaches stuck => stuck.not_ends (ends.of_reaches reaches),
    ends_of_not_stuck periodic⟩

/-- What the loop comes to is what is computed, if the loop ends. -/
theorem CatchesUp.catchUp_eq (catches : clock.CatchesUp pulses last) (periodic : 0 < clock.period)
    {bound : Nat} (enough : clock.settle? ≠ none → clock.periodTimer.toBits.toNat ≤ bound)
    (earlier : Nat) : clock.catchUp bound earlier = (earlier + pulses, last) := by
  induction catches generalizing bound earlier with
  | done settled =>
    cases bound with
    | zero => rfl
    | succ bound =>
      rw [catchUp, settled]
      rfl
  | @pulse clock next last pulses settles rest ih =>
    have due := period_le_of_settle? settles
    have some : 0 < clock.periodTimer.toBits.toNat :=
      Single.toBits_pos (Single.lt_of_lt_of_le periodic due)
    have room := enough (settles ▸ Option.some_ne_none next)
    obtain ⟨bound, rfl⟩ : ∃ less, bound = less + 1 := ⟨bound - 1, by omega⟩
    have falls : ¬ clock.periodTimer ≤ next.periodTimer := by
      rcases pulse_cases periodic settles with less | rfl | ⟨timer, period, _⟩
      · exact Single.not_le_of_lt less
      · exact absurd ⟨_, _, rest⟩ (IsStuck.not_ends settles)
      · rw [eq_of_settle? settles, timer, period]
        exact Single.not_infinity_le_sub
    rw [catchUp, settles]
    dsimp only
    rw [if_neg falls, ih (period_of_settle? settles ▸ periodic), Nat.add_assoc, Nat.add_comm 1]
    intro more
    cases again : next.settle? with
    | none => exact absurd again more
    | some after =>
      rcases pulse_cases periodic settles with less | rfl | ⟨_, _, none⟩
      · have fewer := bits_lt periodic settles less again
        omega
      · exact absurd ⟨_, _, rest⟩ (IsStuck.not_ends settles)
      · cases none.symm.trans again

section Sizes

variable {timer period : Nat}

/-- A loop whose timer is no more than `2 ^ 24` periods ends. -/
theorem ends_of_near (timerUnits : Single.units? clock.periodTimer = some (timer : Int))
    (periodUnits : Single.units? clock.period = some (period : Int)) (periodic : 0 < clock.period)
    (finite : timer < Single.infinityUnits) (near : timer ≤ 2 ^ 24 * period) : clock.Ends := by
  have some : (0 : Int) < period := (Single.lt_iff_units Single.units?_zero periodUnits).1 periodic
  induction timer using Nat.strong_induction_on generalizing clock with
  | _ timer ih =>
    cases settles : clock.settle? with
    | none => exact ⟨0, clock, .done settles⟩
    | some next =>
      have due := (Single.le_iff_units periodUnits timerUnits).1 (period_le_of_settle? settles)
      obtain ⟨rounded, left, less⟩ :=
        Single.exists_sub_lt timerUnits periodUnits (by omega) (by omega) finite near
      have same := period_of_settle? settles
      have after : next.periodTimer = clock.periodTimer - clock.period := by
        rw [eq_of_settle? settles]
      obtain ⟨pulses, last, rest⟩ := ih rounded less (after ▸ left) (same ▸ periodUnits)
        (same ▸ periodic) (by omega) (by omega)
      exact ⟨pulses + 1, last, .pulse settles rest⟩

/-- A loop that settles a pulse never ends if the timer is more than `2 ^ 25` periods, or infinite
while the period is not. -/
theorem not_ends_of_far (timerUnits : Single.units? clock.periodTimer = some (timer : Int))
    (periodUnits : Single.units? clock.period = some (period : Int)) (periodic : 0 < clock.period)
    (owed : clock.settle? ≠ none)
    (far : 2 ^ 25 * period < timer ∨ timer = Single.infinityUnits ∧ period < timer) :
    ¬ clock.Ends := by
  have some : (0 : Int) < period := (Single.lt_iff_units Single.units?_zero periodUnits).1 periodic
  have most : timer ≤ Single.infinityUnits :=
    (Single.representable_units timerUnits).le_infinityUnits
  have absorbed : clock.periodTimer - clock.period = clock.periodTimer := by
    rcases Nat.lt_or_eq_of_le most with finite | rfl
    · exact Single.sub_of_far timerUnits periodUnits (by omega) finite (by omega)
    · exact Single.sub_of_infinite timerUnits periodUnits (by omega) (by omega)
  obtain ⟨next, settles⟩ := Option.ne_none_iff_exists'.1 owed
  have same := eq_of_settle? settles
  rw [absorbed] at same
  exact IsStuck.not_ends (settles.trans (congrArg Option.some same))

end Sizes

end Singles

end Clock

/-- The loop that settles the pulses of a live effect with a period, after time has passed, ends
unless the timer absorbs the period. Every pulse makes the timer strictly smaller, except that it
may leave the clock just as it was, and that an infinite period leaves no number of an infinite
timer, after which no pulse is owed. The loop ends if and only if it never comes to a clock that a
pulse leaves as it was, and then the effect advances by just the pulses and to the clock that it
ends with. It ends if the timer is finite and no more than `2 ^ 24` periods; and if there is a pulse
to settle it never ends where the timer is more than `2 ^ 25` periods, or infinite while the period
is not. -/
theorem Effect.catching_up_ends_unless_absorbed {effect : Effect} (live : effect.isLive = true)
    (periodic : 0 < effect.clock.period) {seconds : Float32} (forward : ¬ seconds ≤ 0) :
    (∀ state next, (effect.clock.owing seconds).Reaches state → state.settle? = some next →
      next.periodTimer < state.periodTimer ∨ next = state ∨
        state.periodTimer = Number.infinity ∧ state.period = Number.infinity ∧
          next.settle? = none) ∧
    ((effect.clock.owing seconds).Ends ↔
      ∀ state, (effect.clock.owing seconds).Reaches state → ¬ state.IsStuck) ∧
    (∀ pulses last, (effect.clock.owing seconds).CatchesUp pulses last →
      effect.advance seconds =
        (⟨pulses, last.isOver⟩, { effect with clock := last, state := .ticking })) ∧
    ∀ timer period : Nat,
      Single.units? (effect.clock.owing seconds).periodTimer = some (timer : Int) →
      Single.units? effect.clock.period = some (period : Int) →
      (timer < Single.infinityUnits → timer ≤ 2 ^ 24 * period →
        (effect.clock.owing seconds).Ends) ∧
      ((effect.clock.owing seconds).settle? ≠ none →
        2 ^ 25 * period < timer ∨ timer = Single.infinityUnits ∧ period < timer →
        ¬ (effect.clock.owing seconds).Ends) := by
  have owing : 0 < (effect.clock.owing seconds).period := periodic
  refine ⟨fun state next reaches settles => ?_, Clock.ends_iff owing, fun pulses last catches => ?_,
    fun timer period timerUnits periodUnits => ⟨?_, ?_⟩⟩
  · exact Clock.pulse_cases (reaches.period_eq ▸ owing) settles
  · have caught := catches.catchUp_eq owing (fun _ => Nat.le_refl _) 0
    rw [Nat.zero_add] at caught
    rw [Effect.advance_of_live live forward, Clock.advance_of_period periodic seconds caught]
  · exact Clock.ends_of_near timerUnits periodUnits owing
  · exact Clock.not_ends_of_far timerUnits periodUnits owing

/-- A lasting effect that pulses. -/
def drumbeat (period : Number.Single) : EffectDef where
  durationType := .infinite
  period := period

/-- An entity receives the effect, and some time passes. -/
def drumRequests (period : Number.Single) (waits : List Float32) : List Request :=
  [.spawn ⟨1⟩, .apply ⟨1⟩ ⟨1⟩ (drumbeat period) ⟨1⟩ { caster := ⟨1⟩ }] ++ waits.map (.tick · 1)

/-- The state after that. -/
def drumming (period : Number.Single) (waits : List Float32) : Cascade :=
  Cascade.afterEach 20 { world := World.create {} .empty, agenda := [] }
    (drumRequests period waits)

/-- That state is reached in a session, if nothing was lost. -/
theorem session_drumming (period : Number.Single) (waits : List Float32)
    (kept : Cascade.keepsEach 20 { world := World.create {} .empty, agenda := [] }
      (drumRequests period waits) = true) :
    ∃ past, Session (fun request => request.isLawful = true) (World.create {} .empty) past
      (drumming period waits) := by
  refine ⟨_, .ofRequests 20 _ (fun request member => ?_) kept⟩
  rcases List.mem_append.1 member with first | later
  · rcases List.mem_pair.1 first with rfl | rfl <;> rfl
  · obtain ⟨_, _, rfl⟩ := List.mem_map.1 later
    rfl

/-- A thousand million seconds. -/
def longWait : Float32 := Float32.ofBits 0x4e6e6b28

/-- Nearly as many seconds as a float can count. -/
def longestWait : Float32 := Float32.ofBits 0x7f61b1e6

/-- Three seconds later the pulses of a drum that beats every second are settled. -/
theorem drumbeat_catches_up :
    ∃ effect, (drumming .one []).world.effect? ⟨⟨1⟩, ⟨1⟩⟩ = some effect ∧ effect.isLive = true ∧
      0 < effect.clock.period ∧ ¬ Float32.ofBits 0x40400000 ≤ 0 ∧
      (effect.clock.owing (Float32.ofBits 0x40400000)).Ends := by
  have started : ((drumming .one []).world.effect? ⟨⟨1⟩, ⟨1⟩⟩).any (fun effect => effect.isLive &&
      decide (0 < effect.clock.period) &&
      decide (Single.units? (effect.clock.owing (Float32.ofBits 0x40400000)).periodTimer =
        some ((3 * 2 ^ 149 : Nat) : Int)) &&
      decide (Single.units? effect.clock.period = some ((2 ^ 149 : Nat) : Int))) = true := by
    decide +kernel
  obtain ⟨effect, found, facts⟩ := (Option.any_eq_true _ _).1 started
  simp only [Bool.and_eq_true, decide_eq_true_eq] at facts
  obtain ⟨⟨⟨live, periodic⟩, timer⟩, period⟩ := facts
  have forward : ¬ Float32.ofBits 0x40400000 ≤ 0 := by decide +kernel
  obtain ⟨_, _, _, sizes⟩ := Effect.catching_up_ends_unless_absorbed live periodic forward
  exact ⟨effect, found, live, periodic, forward,
    (sizes _ _ timer period).1 (by decide +kernel) (by decide +kernel)⟩

/-- After a long wait the drum never catches up, and where a period is infinite and so is the timer,
a pulse does not make the timer smaller. -/
theorem drumbeat_never_catches_up :
    (∃ past effect, Session (fun request => request.isLawful = true) (World.create {} .empty) past
        (drumming .one []) ∧
      (drumming .one []).world.effect? ⟨⟨1⟩, ⟨1⟩⟩ = some effect ∧ effect.isLive = true ∧
      0 < effect.clock.period ∧ 0 < longWait ∧ longWait < Number.infinity ∧
      ¬ (effect.clock.owing longWait).Ends) ∧
    ∃ past effect next, Session (fun request => request.isLawful = true) (World.create {} .empty)
        past (drumming ⟨0x7f800000⟩ [longestWait]) ∧
      (drumming ⟨0x7f800000⟩ [longestWait]).world.effect? ⟨⟨1⟩, ⟨1⟩⟩ = some effect ∧
      effect.isLive = true ∧ 0 < effect.clock.period ∧ 0 < longestWait ∧
      longestWait < Number.infinity ∧
      (effect.clock.owing longestWait).settle? = some next ∧
      ¬ next.periodTimer < (effect.clock.owing longestWait).periodTimer := by
  constructor
  · have started : ((drumming .one []).world.effect? ⟨⟨1⟩, ⟨1⟩⟩).any (fun effect =>
        effect.isLive && decide (0 < effect.clock.period) &&
        (effect.clock.owing longWait).settle?.isSome &&
        decide (Single.units? (effect.clock.owing longWait).periodTimer =
          some ((1000000000 * 2 ^ 149 : Nat) : Int)) &&
        decide (Single.units? effect.clock.period = some ((2 ^ 149 : Nat) : Int))) = true := by
      decide +kernel
    obtain ⟨past, session⟩ := session_drumming .one [] (by decide +kernel)
    obtain ⟨effect, found, facts⟩ := (Option.any_eq_true _ _).1 started
    simp only [Bool.and_eq_true, decide_eq_true_eq] at facts
    obtain ⟨⟨⟨⟨live, periodic⟩, owed⟩, timer⟩, period⟩ := facts
    exact ⟨past, effect, session, found, live, periodic, by decide +kernel, by decide +kernel,
      Clock.not_ends_of_far timer period periodic (Option.isSome_iff_ne_none.1 owed)
        (.inl (by decide +kernel))⟩
  · have started : ((drumming ⟨0x7f800000⟩ [longestWait]).world.effect? ⟨⟨1⟩, ⟨1⟩⟩).any
        (fun effect => effect.isLive && decide (0 < effect.clock.period) &&
        (effect.clock.owing longestWait).settle?.any fun next =>
          !decide (next.periodTimer < (effect.clock.owing longestWait).periodTimer)) = true := by
      decide +kernel
    obtain ⟨past, session⟩ := session_drumming ⟨0x7f800000⟩ [longestWait] (by decide +kernel)
    obtain ⟨effect, found, facts⟩ := (Option.any_eq_true _ _).1 started
    simp only [Bool.and_eq_true, decide_eq_true_eq] at facts
    obtain ⟨⟨live, periodic⟩, pulsed⟩ := facts
    obtain ⟨next, settles, falls⟩ := (Option.any_eq_true _ _).1 pulsed
    exact ⟨past, effect, next, session, found, live, periodic, by decide +kernel, by decide +kernel,
      settles, by simpa using falls⟩

end SkillEngine
