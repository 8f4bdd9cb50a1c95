import SkillEngine.Number.Decimal
import SkillEngine.Proofs.Halfway

/-!
# What the shortest decimal of a float is

The decimals that a float may be written as are those among the reals that round to it. The shortest
one stands on the first grid of decimals that has any of them, and there it is the nearer one of the
float's two neighbours.
-/

namespace SkillEngine.Number.Significand

open Precision (zpow_mul_pow cast_distance)

variable (float : Significand)

/-- The number that a float is. -/
def value : ℚ := float.units * 2 ^ float.exponent

/-- The least number that rounds to a float, in quarters of its unit. -/
def lowQuarters : Nat := 4 * float.units - (if float.narrowBelow then 1 else 2)

/-- The least number that rounds to a float, if it rounds to it. -/
def lowEnd : ℚ := float.lowQuarters * 2 ^ (float.exponent - 2)

/-- The largest number that rounds to a float, if it rounds to it. -/
def highEnd : ℚ := (4 * float.units + 2 : Nat) * 2 ^ (float.exponent - 2)

/-- A number rounds to a float. -/
structure Within (exact : ℚ) : Prop where
  /-- It is not below the least that does. -/
  low : float.lowEnd ≤ exact
  /-- It is not above the largest that does. -/
  high : exact ≤ float.highEnd
  /-- These do if the float is even. -/
  ends : exact = float.lowEnd ∨ exact = float.highEnd → float.units % 2 = 0

/-- What the numbers of a grid are multiplied by to make them whole. -/
def gridScale (place : Int) : ℚ := float.quarter.2 * 10 ^ (-place).toNat

/-- A quarter of the unit as a fraction. -/
theorem quarter_eq : (float.quarter.1 : ℚ) = 2 ^ (float.exponent - 2) * float.quarter.2 ∧
    0 < float.quarter.2 := by
  have two : (2 : ℚ) ≠ 0 := by norm_num
  unfold quarter
  split
  · next whole =>
    refine ⟨?_, Nat.one_pos⟩
    have power : (2 : ℚ) ^ (float.exponent - 2) = 2 ^ (float.exponent - 2).toNat := by
      rw [← zpow_natCast, Int.toNat_of_nonneg whole]
    show ((Nat.pow 2 _ : Nat) : ℚ) = _ * ((1 : Nat) : ℚ)
    rw [power, Nat.cast_one, mul_one]
    exact Nat.cast_pow 2 _
  · refine ⟨?_, Nat.two_pow_pos _⟩
    have whole := zpow_mul_pow two (float.exponent - 2)
    rw [neg_sub, Int.toNat_of_nonpos (show float.exponent - 2 ≤ 0 by omega), pow_zero] at whole
    show ((1 : Nat) : ℚ) = _ * ((Nat.pow 2 _ : Nat) : ℚ)
    rw [Nat.cast_one, ← whole]
    exact congrArg _ (Nat.cast_pow 2 _).symm

/-- The scale is positive. -/
theorem gridScale_pos (place : Int) : 0 < float.gridScale place := by
  have bottom : (0 : ℚ) < float.quarter.2 := by exact_mod_cast float.quarter_eq.2
  unfold gridScale
  positivity

/-- Quarters of the unit on a grid. -/
theorem quarter_scaled (place : Int) : (float.quarter.1 : ℚ) * 10 ^ (-place).toNat =
    2 ^ (float.exponent - 2) * float.gridScale place := by
  rw [float.quarter_eq.1, gridScale, mul_assoc]

/-- Steps of the grid on it. -/
theorem step_scaled (place : Int) : (10 : ℚ) ^ place.toNat * float.quarter.2 =
    10 ^ place * float.gridScale place := by
  rw [← zpow_mul_pow (by norm_num : (10 : ℚ) ≠ 0) place, gridScale]
  ring

/-- The unit in its quarters. -/
theorem unit_eq : (2 : ℚ) ^ float.exponent = 4 * 2 ^ (float.exponent - 2) := by
  rw [show (4 : ℚ) = 2 ^ (2 : Int) by norm_num, ← zpow_add₀ (by norm_num : (2 : ℚ) ≠ 0)]
  congr 1
  omega

/-- The value in quarters of the unit. -/
theorem value_eq : float.value = (4 * float.units : Nat) * 2 ^ (float.exponent - 2) := by
  rw [value, unit_eq]
  push_cast
  ring

/-- The value in units of a grid. -/
theorem value_scaled (place : Int) :
    ((4 * float.units * float.quarter.1 * 10 ^ (-place).toNat : Nat) : ℚ) =
      float.value * float.gridScale place := by
  have quarters := float.quarter_scaled place
  rw [value_eq, mul_assoc (_ : ℚ), ← quarters]
  push_cast
  ring

section Grid

variable (count : Nat) (place : Int)

/-- A point of a grid in units of that grid. -/
theorem point_scaled : ((count * 10 ^ place.toNat * float.quarter.2 : Nat) : ℚ) =
    count * 10 ^ place * float.gridScale place := by
  have step := float.step_scaled place
  rw [mul_assoc (_ : ℚ), ← step]
  push_cast
  ring

/-- A bound in units of a grid. -/
theorem bound_scaled (quarters : Nat) :
    ((quarters * (float.quarter.1 * 10 ^ (-place).toNat) : Nat) : ℚ) =
      quarters * 2 ^ (float.exponent - 2) * float.gridScale place := by
  have quarter := float.quarter_scaled place
  rw [mul_assoc, ← quarter]
  push_cast
  ring

/-- A bound is not above a point if it is not above it in units of the grid. -/
theorem bound_le_iff (quarters : Nat) :
    quarters * (float.quarter.1 * 10 ^ (-place).toNat) ≤
        count * 10 ^ place.toNat * float.quarter.2 ↔
      (quarters : ℚ) * 2 ^ (float.exponent - 2) ≤ count * 10 ^ place := by
  rw [← Nat.cast_le (α := ℚ), bound_scaled, point_scaled,
    mul_le_mul_iff_of_pos_right (float.gridScale_pos place)]

/-- A point is not above a bound if it is not above it in units of the grid. -/
theorem le_bound_iff (quarters : Nat) :
    count * 10 ^ place.toNat * float.quarter.2 ≤
        quarters * (float.quarter.1 * 10 ^ (-place).toNat) ↔
      (count : ℚ) * 10 ^ place ≤ quarters * 2 ^ (float.exponent - 2) := by
  rw [← Nat.cast_le (α := ℚ), bound_scaled, point_scaled,
    mul_le_mul_iff_of_pos_right (float.gridScale_pos place)]

variable {count place}

/-- The decimals that are admitted are those that round to the float. -/
theorem admits_iff : float.admits count place = true ↔ float.Within (count * 10 ^ place) := by
  have lows := float.bound_le_iff count place float.lowQuarters
  have highs := float.le_bound_iff count place (4 * float.units + 2)
  have above := float.le_bound_iff count place float.lowQuarters
  have below := float.bound_le_iff count place (4 * float.units + 2)
  change (if float.units % 2 = 0 then
      decide (float.lowQuarters * (float.quarter.1 * 10 ^ (-place).toNat) ≤
        count * 10 ^ place.toNat * float.quarter.2) &&
      decide (count * 10 ^ place.toNat * float.quarter.2 ≤
        (4 * float.units + 2) * (float.quarter.1 * 10 ^ (-place).toNat))
    else
      decide (float.lowQuarters * (float.quarter.1 * 10 ^ (-place).toNat) <
        count * 10 ^ place.toNat * float.quarter.2) &&
      decide (count * 10 ^ place.toNat * float.quarter.2 <
        (4 * float.units + 2) * (float.quarter.1 * 10 ^ (-place).toNat))) = true ↔ _
  by_cases even : float.units % 2 = 0
  · rw [if_pos even, Bool.and_eq_true, decide_eq_true_eq, decide_eq_true_eq, lows, highs]
    exact ⟨fun ⟨low, high⟩ => ⟨low, high, fun _ => even⟩, fun within => ⟨within.low, within.high⟩⟩
  · rw [if_neg even, Bool.and_eq_true, decide_eq_true_eq, decide_eq_true_eq, ← Nat.not_le,
      ← Nat.not_le, above, below]
    constructor
    · rintro ⟨low, high⟩
      refine ⟨le_of_not_ge low, le_of_not_ge high, ?_⟩
      rintro (least | most)
      · exact absurd (le_of_eq least) low
      · exact absurd (le_of_eq most.symm) high
    · intro within
      exact ⟨fun least => even (within.ends (.inl (le_antisymm least within.low))),
        fun most => even (within.ends (.inr (le_antisymm within.high most)))⟩

variable (place)

/-- The steps of a grid that do not exceed a float. -/
theorem stepsBelow_bounds : (float.stepsBelow place : ℚ) * 10 ^ place ≤ float.value ∧
    float.value < (float.stepsBelow place + 1 : Nat) * 10 ^ place := by
  have scale := float.gridScale_pos place
  have positive : 0 < float.quarter.2 * 10 ^ place.toNat :=
    Nat.mul_pos float.quarter_eq.2 (Nat.pow_pos (by decide))
  have below : float.stepsBelow place * (float.quarter.2 * 10 ^ place.toNat) ≤
      4 * float.units * float.quarter.1 * 10 ^ (-place).toNat := Nat.div_mul_le_self _ _
  have above : 4 * float.units * float.quarter.1 * 10 ^ (-place).toNat <
      (float.stepsBelow place + 1) * (float.quarter.2 * 10 ^ place.toNat) := by
    rw [Nat.mul_comm (float.stepsBelow place + 1)]
    exact Nat.lt_mul_div_succ _ positive
  rw [Nat.mul_comm float.quarter.2, ← Nat.mul_assoc, ← Nat.cast_le (α := ℚ), point_scaled,
    value_scaled, mul_le_mul_iff_of_pos_right scale] at below
  rw [Nat.mul_comm float.quarter.2, ← Nat.mul_assoc, ← Nat.cast_lt (α := ℚ), point_scaled,
    value_scaled, mul_lt_mul_iff_of_pos_right scale] at above
  exact ⟨below, above⟩

/-- The distance of a point from a float in units of the grid. -/
theorem distance_eq : (float.distance count place : ℚ) =
    |(count : ℚ) * 10 ^ place - float.value| * float.gridScale place := by
  have scale := float.gridScale_pos place
  have whole : float.distance count place =
      (count * 10 ^ place.toNat * float.quarter.2 -
          4 * float.units * float.quarter.1 * 10 ^ (-place).toNat) +
        (4 * float.units * float.quarter.1 * 10 ^ (-place).toNat -
          count * 10 ^ place.toNat * float.quarter.2) := rfl
  rw [whole, cast_distance, point_scaled, value_scaled, ← sub_mul, abs_mul, abs_of_pos scale]

/-- The distances of a float's neighbours compare as in units of the grid. -/
theorem distance_le_iff :
    (float.distance (float.stepsBelow place) place ≤
        float.distance (float.stepsBelow place + 1) place ↔
      float.value - float.stepsBelow place * 10 ^ place ≤
        (float.stepsBelow place + 1 : Nat) * 10 ^ place - float.value) ∧
    (float.distance (float.stepsBelow place + 1) place ≤
        float.distance (float.stepsBelow place) place ↔
      (float.stepsBelow place + 1 : Nat) * 10 ^ place - float.value ≤
        float.value - float.stepsBelow place * 10 ^ place) := by
  obtain ⟨below, above⟩ := float.stepsBelow_bounds place
  have scale := float.gridScale_pos place
  have down : |(float.stepsBelow place : ℚ) * 10 ^ place - float.value| =
      float.value - float.stepsBelow place * 10 ^ place := by
    rw [abs_sub_comm, abs_of_nonneg (sub_nonneg.2 below)]
  have up : |((float.stepsBelow place + 1 : Nat) : ℚ) * 10 ^ place - float.value| =
      (float.stepsBelow place + 1 : Nat) * 10 ^ place - float.value :=
    abs_of_nonneg (sub_nonneg.2 (le_of_lt above))
  rw [← Nat.cast_le (α := ℚ), ← Nat.cast_le (α := ℚ), distance_eq, distance_eq, down, up,
    mul_le_mul_iff_of_pos_right scale, mul_le_mul_iff_of_pos_right scale]
  exact ⟨Iff.rfl, Iff.rfl⟩

end Grid

/-- A point of a grid that is taken for a float. -/
structure Taken (digits : Nat) (place : Int) : Prop where
  /-- It is not zero. -/
  positive : 0 < digits
  /-- It rounds to the float. -/
  within : float.Within (digits * 10 ^ place)
  /-- Above the float its step reaches back to what is not nearer, or does not round to the float,
  or is zero. -/
  after : float.value < digits * 10 ^ place →
    (digits : ℚ) * 10 ^ place - 10 ^ place ≤ 0 ∨
    (digits : ℚ) * 10 ^ place - 10 ^ place ≤ float.lowEnd ∨
    (digits : ℚ) * 10 ^ place - float.value ≤
      float.value - (digits * 10 ^ place - 10 ^ place)
  /-- Elsewhere its step leads to what is not nearer or does not round to the float. -/
  before : (digits : ℚ) * 10 ^ place ≤ float.value →
    float.highEnd ≤ digits * 10 ^ place + 10 ^ place ∨
    float.value - digits * 10 ^ place ≤ digits * 10 ^ place + 10 ^ place - float.value

/-- What does not round to a float is not between its ends. -/
theorem outside {exact : ℚ} (within : ¬ float.Within exact) :
    exact ≤ float.lowEnd ∨ float.highEnd ≤ exact := by
  by_contra between
  obtain ⟨low, high⟩ := not_or.1 between
  refine within ⟨le_of_not_ge low, le_of_not_ge high, ?_⟩
  rintro (least | most)
  · exact absurd (le_of_eq least) low
  · exact absurd (le_of_eq most.symm) high

/-- A float is between its ends. -/
theorem value_between : float.lowEnd ≤ float.value ∧ float.value < float.highEnd := by
  have unit : (0 : ℚ) < 2 ^ (float.exponent - 2) := by positivity
  have low : float.lowQuarters ≤ 4 * float.units := Nat.sub_le _ _
  rw [value_eq]
  constructor
  · exact mul_le_mul_of_nonneg_right (by exact_mod_cast low) (le_of_lt unit)
  · exact mul_lt_mul_of_pos_right (by exact_mod_cast Nat.lt_add_of_pos_right (by decide)) unit

section Neighbours

variable {float} {place : Int}

/-- The neighbour below is taken if it is admitted and the one above is not nearer. -/
theorem taken_below (some : float.stepsBelow place ≠ 0)
    (within : float.Within (float.stepsBelow place * 10 ^ place))
    (nearer : ¬ float.Within ((float.stepsBelow place + 1 : Nat) * 10 ^ place) ∨
      float.distance (float.stepsBelow place) place ≤
        float.distance (float.stepsBelow place + 1) place) :
    float.Taken (float.stepsBelow place) place := by
  obtain ⟨below, above⟩ := float.stepsBelow_bounds place
  obtain ⟨low, high⟩ := float.value_between
  have next : ((float.stepsBelow place + 1 : Nat) : ℚ) * 10 ^ place =
      float.stepsBelow place * 10 ^ place + 10 ^ place := by
    push_cast
    ring
  refine ⟨Nat.pos_of_ne_zero some, within, fun order => absurd order (not_lt.2 below), fun _ => ?_⟩
  rcases nearer with outside | nearer
  · rcases float.outside outside with least | most
    · linarith
    · exact .inl (next ▸ most)
  · rw [(float.distance_le_iff place).1, next] at nearer
    exact .inr nearer

/-- The neighbour above is taken if it is admitted and the one below is not nearer. -/
theorem taken_above (within : float.Within ((float.stepsBelow place + 1 : Nat) * 10 ^ place))
    (nearer : float.stepsBelow place = 0 ∨
      ¬ float.Within (float.stepsBelow place * 10 ^ place) ∨
      float.distance (float.stepsBelow place + 1) place ≤
        float.distance (float.stepsBelow place) place) :
    float.Taken (float.stepsBelow place + 1) place := by
  obtain ⟨below, above⟩ := float.stepsBelow_bounds place
  obtain ⟨low, high⟩ := float.value_between
  have last : ((float.stepsBelow place + 1 : Nat) : ℚ) * 10 ^ place - 10 ^ place =
      float.stepsBelow place * 10 ^ place := by
    push_cast
    ring
  refine ⟨Nat.succ_pos _, within, fun _ => ?_, fun order => absurd above (not_lt.2 order)⟩
  rw [last]
  rcases nearer with none | outside | nearer
  · rw [none, Nat.cast_zero, zero_mul]
    exact .inl (le_refl _)
  · rcases float.outside outside with least | most
    · exact .inr (.inl least)
    · linarith
  · exact .inr (.inr ((float.distance_le_iff place).2.1 nearer))

/-- What a grid gives is taken. -/
theorem taken_of_onGrid {digits : Nat} (given : float.onGrid .even place = some digits) :
    float.Taken digits place := by
  unfold onGrid at given
  dsimp only at given
  split at given
  · cases given
  · next first second =>
    cases given
    rw [Bool.and_eq_true, bne_iff_ne, admits_iff] at first
    have outside := mt float.admits_iff.2 (Bool.eq_false_iff.1 second)
    exact taken_below first.2 first.1 (.inl outside)
  · next first second =>
    cases given
    refine taken_above (float.admits_iff.1 second) ?_
    rw [Bool.and_eq_false_iff, bne_eq_false_iff_eq] at first
    rcases first with outside | none
    · exact .inr (.inl (mt float.admits_iff.2 (Bool.eq_false_iff.1 outside)))
    · exact .inl none
  · next first second =>
    rw [Bool.and_eq_true, bne_iff_ne, admits_iff] at first
    have above := float.admits_iff.1 second
    split at given
    · next nearer =>
      cases given
      exact taken_below first.2 first.1 (.inr (Nat.le_of_lt nearer))
    · next less =>
      split at given
      · next nearer =>
        cases given
        exact taken_above above (.inr (.inr (Nat.le_of_lt nearer)))
      · next more =>
        split at given
        · cases given
          exact taken_below first.2 first.1 (.inr (Nat.le_of_not_lt more))
        · cases given
          exact taken_above above (.inr (.inr (Nat.le_of_not_lt less)))

end Neighbours

variable {float}

/-- A grid that is fine enough has a point that rounds to the float. -/
theorem exists_onGrid (tie : Tie) {place : Int} (positive : 0 < float.units)
    (fine : (10 : ℚ) ^ place ≤ 2 ^ (float.exponent - 2)) :
    ∃ digits, float.onGrid tie place = some digits := by
  obtain ⟨below, above⟩ := float.stepsBelow_bounds place
  have high := float.value_between.2
  have whole := float.value_eq
  have step : (0 : ℚ) < 10 ^ place := by positivity
  have quarters : (float.lowQuarters : ℚ) + 1 ≤ (4 * float.units : Nat) := by
    have less : float.lowQuarters + 1 ≤ 4 * float.units := by
      unfold lowQuarters
      split <;> omega
    exact_mod_cast less
  have units : (4 : ℚ) ≤ (4 * float.units : Nat) := by
    have least : 4 ≤ 4 * float.units := by omega
    exact_mod_cast least
  have unit : (0 : ℚ) < 2 ^ (float.exponent - 2) := by positivity
  have ends : float.lowEnd + 2 ^ (float.exponent - 2) ≤ float.value := by
    rw [whole, lowEnd]
    have scaled := mul_le_mul_of_nonneg_right quarters (le_of_lt unit)
    linarith
  have large : 4 * 2 ^ (float.exponent - 2) ≤ float.value := by
    rw [whole]
    exact mul_le_mul_of_nonneg_right units (le_of_lt unit)
  push_cast at above
  have within : float.Within (float.stepsBelow place * 10 ^ place) :=
    ⟨by linarith, by linarith, fun tie => by rcases tie with least | most <;> linarith⟩
  have some : float.stepsBelow place ≠ 0 := by
    intro none
    rw [none, Nat.cast_zero] at above
    linarith
  have first : (float.admits (float.stepsBelow place) place && float.stepsBelow place != 0) =
      true := by
    rw [Bool.and_eq_true, bne_iff_ne]
    exact ⟨float.admits_iff.2 within, some⟩
  unfold onGrid
  dsimp only
  rw [first]
  split
  · next none _ => cases none
  · exact ⟨_, rfl⟩
  · exact ⟨_, rfl⟩
  · split
    · exact ⟨_, rfl⟩
    · split
      · exact ⟨_, rfl⟩
      · cases tie <;> exact ⟨_, rfl⟩

/-- The first grid with a point is found if there is one among those that are searched. -/
theorem exists_firstGrid {tie : Tie} {digits : Nat} {place : Int}
    (given : float.onGrid tie place = some digits) {count : Nat} {start : Int}
    (before : place ≤ start) (after : start < place + count) :
    ∃ found last, float.firstGrid tie count start = ⟨found, last⟩ ∧
      float.onGrid tie last = some found ∧ place ≤ last ∧ last ≤ start := by
  induction count generalizing start with
  | zero => omega
  | succ count ih =>
    unfold firstGrid
    split
    · next found hit => exact ⟨found, start, rfl, hit, before, Int.le_refl _⟩
    · next miss =>
      have other : place ≠ start := by
        rintro rfl
        rw [given] at miss
        cases miss
      obtain ⟨found, last, same, hit, low, high⟩ := ih (show place ≤ start - 1 by omega) (by omega)
      exact ⟨found, last, same, hit, low, by omega⟩

/-- The significand of a finite positive single, its place counted from the least. -/
structure IsSingle (float : Significand) (place : Nat) : Prop where
  /-- The unit is that of the place. -/
  exponent : float.exponent = place - 149
  /-- There are so many places. -/
  few : place < 254
  /-- It is not zero. -/
  positive : 0 < float.units
  /-- It has as many units as the place asks for. -/
  placed : Single.Placed float.units place
  /-- The next float below is nearer where a power of two begins. -/
  narrow : float.narrowBelow = true ↔ float.units = 2 ^ 23 ∧ 0 < place

open Halfway (leastTen tens_of_isSettled isSettled_of_unit)

/-- The shortest decimal of a single is taken on a grid whose place is not extreme. -/
theorem IsSingle.exists_shortest {place : Nat} (single : float.IsSingle place) :
    ∃ digits last, float.shortest .even = ⟨digits, last⟩ ∧ float.Taken digits last ∧
      -46 ≤ last ∧ last ≤ 40 ∧ digits < 2 ^ 31 := by
  have settled := tens_of_isSettled (single.exponent ▸ isSettled_of_unit place single.few)
  obtain ⟨least, next⟩ := settled
  have ten : (10 : ℚ) ≠ 0 := by norm_num
  have four := float.unit_eq
  have hundred : (10 : ℚ) ^ leastTen float.exponent = 100 * 10 ^ (leastTen float.exponent - 2) := by
    rw [show (100 : ℚ) = 10 ^ (2 : Int) by norm_num, ← zpow_add₀ ten]
    congr 1
    omega
  have unit : (0 : ℚ) < 2 ^ (float.exponent - 2) := by positivity
  have fine : (10 : ℚ) ^ (leastTen float.exponent - 2) ≤ 2 ^ (float.exponent - 2) := by linarith
  obtain ⟨digits, given⟩ := exists_onGrid .even single.positive fine
  have bits : float.units.log2 < 24 :=
    (Nat.log2_lt (Nat.pos_iff_ne_zero.1 single.positive)).2 single.placed.short
  have exponent := single.exponent
  have few := single.few
  have start : leastTen float.exponent - 2 ≤ float.ceiling ∧
      float.ceiling < leastTen float.exponent - 2 + (20 : Nat) ∧ -44 ≤ leastTen float.exponent ∧
      float.ceiling ≤ 40 := by
    unfold ceiling leastTen
    omega
  obtain ⟨found, last, same, hit, low, high⟩ := exists_firstGrid given start.1 start.2.1
  have taken := taken_of_onGrid hit
  refine ⟨found, last, same, taken, by omega, by omega, ?_⟩
  have most := taken.within.high
  have coarse : (10 : ℚ) ^ (leastTen float.exponent - 2) ≤ 10 ^ last :=
    zpow_le_zpow_right₀ (by norm_num) low
  have short : ((4 * float.units + 2 : Nat) : ℚ) ≤ 2 ^ 26 := by
    have fits := single.placed.short
    have bound : 4 * float.units + 2 ≤ 2 ^ 26 := by omega
    exact_mod_cast bound
  have ends : float.highEnd ≤ 2 ^ 26 * 2 ^ (float.exponent - 2) :=
    mul_le_mul_of_nonneg_right short (le_of_lt unit)
  by_contra many
  have digits : (2 : ℚ) ^ 31 ≤ found := by exact_mod_cast Nat.le_of_not_lt many
  have scaled := mul_le_mul_of_nonneg_right digits (by positivity : (0 : ℚ) ≤ 10 ^ last)
  linarith

end SkillEngine.Number.Significand
