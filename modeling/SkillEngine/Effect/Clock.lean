import SkillEngine.Number.Scalar

/-!
# Effect clocks

A clock times one effect: how long it has run, and how much of the current period has passed.
Advancing it by some seconds counts the pulses that come due and tells whether a finite duration
has run out; pulses that would land after the end are dropped. Owed pulses are caught up one at a
time by `settle?`, and `catchUp` repeats that unless a step would leave the timer no smaller.
-/

namespace SkillEngine

/-- The timers of an effect. -/
structure Clock (S : Type) where
  /-- The effect ends after `duration` seconds. -/
  finite : Bool
  /-- The seconds that a finite effect lasts. -/
  duration : S
  /-- The seconds between pulses; without pulses it is not positive. -/
  period : S
  /-- The seconds since the effect began or was refreshed. -/
  elapsed : S
  /-- The seconds since the last pulse. -/
  periodTimer : S
  deriving Inhabited

/-- What advancing a clock brings. -/
structure Elapse where
  /-- The pulses that came due. -/
  pulses : Nat
  /-- The duration has run out. -/
  expired : Bool
  deriving DecidableEq, Inhabited, Repr

namespace Clock

variable {S : Type} [Number.Scalar S]

/-- A finite duration has run out. -/
def isOver (clock : Clock S) : Bool := clock.finite && decide (clock.duration ≤ clock.elapsed)

/-- Takes one owed pulse off the period timer: none is owed before a full period, and none after
the end of a finite effect. -/
def settle? (clock : Clock S) : Option (Clock S) :=
  if clock.period ≤ clock.periodTimer then
    let firedAt := clock.elapsed - (clock.periodTimer - clock.period)
    if clock.finite && decide (clock.duration + Number.Scalar.nearZero < firedAt) then none
    else some { clock with periodTimer := clock.periodTimer - clock.period }
  else none

/-- Settles owed pulses, at most `bound` of them, after `pulses` earlier ones. It stops where
settling one would leave the timer no smaller, since it would then never end. An infinite timer
loses its value to an infinite period: that pulse counts, and no other is owed. -/
def catchUp : Nat → Nat → Clock S → Nat × Clock S
  | 0, pulses, clock => (pulses, clock)
  | bound + 1, pulses, clock =>
    match clock.settle? with
    | none => (pulses, clock)
    | some next =>
      if clock.periodTimer ≤ next.periodTimer then (pulses, clock)
      else catchUp bound (pulses + 1) next

/-- Advances the clock of a live effect by some seconds. -/
def advance (clock : Clock S) (seconds : S) : Elapse × Clock S :=
  let run := { clock with elapsed := clock.elapsed + seconds }
  let (pulses, settled) :=
    if 0 < run.period then
      let owed := { run with periodTimer := run.periodTimer + seconds }
      owed.catchUp (Number.Scalar.descents owed.periodTimer owed.period) 0
    else (0, run)
  (⟨pulses, settled.isOver⟩, settled)

end Clock

end SkillEngine
