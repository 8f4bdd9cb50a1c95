import SkillEngine.Effect.Instance

/-!
# What advancing a clock changes

An advance adds the seconds to both timers and then takes whole periods off the period timer; what
the clock was made with never changes. Time passes for a live effect as it does for its clock.
-/

namespace SkillEngine

namespace Clock

variable {S : Type} [Number.Scalar S]

/-- The clock some seconds later, its owed pulses not settled yet. -/
def owing (clock : Clock S) (seconds : S) : Clock S :=
  { clock with
    elapsed := clock.elapsed + seconds
    periodTimer := clock.periodTimer + seconds }

/-- A clock with a period advances by catching up with what it owes. -/
theorem advance_of_period {clock : Clock S} (positive : 0 < clock.period) (seconds : S)
    {pulses : Nat} {caught : Clock S}
    (catches : (clock.owing seconds).catchUp
      (Number.Scalar.descents (clock.owing seconds).periodTimer clock.period) 0 =
      (pulses, caught)) :
    clock.advance seconds = (⟨pulses, caught.isOver⟩, caught) := by
  simp only [advance, if_pos positive]
  simp only [owing] at catches
  rw [catches]

/-- A settled pulse changes the period timer alone. -/
theorem eq_of_settle? {clock next : Clock S} (settles : clock.settle? = some next) :
    next = { clock with periodTimer := clock.periodTimer - clock.period } := by
  unfold settle? at settles
  dsimp only at settles
  split at settles
  · split at settles
    · cases settles
    · exact (Option.some.inj settles).symm
  · cases settles

/-- A pulse is settled only where a full period has passed. -/
theorem period_le_of_settle? {clock next : Clock S} (settles : clock.settle? = some next) :
    clock.period ≤ clock.periodTimer := by
  unfold settle? at settles
  split at settles
  · next due => exact due
  · cases settles

/-- Catching up changes the period timer alone. -/
theorem exists_catchUp (bound pulses : Nat) (clock : Clock S) :
    ∃ timer, (clock.catchUp bound pulses).2 = { clock with periodTimer := timer } := by
  induction bound generalizing pulses clock with
  | zero => exact ⟨_, rfl⟩
  | succ bound ih =>
    rw [catchUp]
    cases settles : clock.settle? with
    | none => exact ⟨_, rfl⟩
    | some next =>
      dsimp only
      split
      · exact ⟨_, rfl⟩
      · obtain ⟨timer, caught⟩ := ih (pulses + 1) next
        exact ⟨timer, by rw [caught, eq_of_settle? settles]⟩

/-- An advance adds its seconds to the elapsed time, and changes the period timer besides. -/
theorem exists_advance (clock : Clock S) (seconds : S) : ∃ timer, (clock.advance seconds).2 =
    { clock with elapsed := clock.elapsed + seconds, periodTimer := timer } := by
  unfold advance
  dsimp only
  split
  · exact exists_catchUp _ _ _
  · exact ⟨_, rfl⟩

end Clock

/-- Time passes for a live effect as for its clock. -/
theorem Effect.advance_of_live {effect : Effect} (live : effect.isLive = true) {seconds : Float32}
    (forward : ¬ seconds ≤ 0) : effect.advance seconds = ((effect.clock.advance seconds).1,
      { effect with clock := (effect.clock.advance seconds).2, state := .ticking }) := by
  simp only [advance, live, Bool.not_true, Bool.false_or, decide_eq_true_eq, if_neg forward]

end SkillEngine
