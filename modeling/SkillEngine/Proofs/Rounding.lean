import Mathlib

/-!
# Rounding to single precision

A finite single is a whole number of units, where the unit is the least positive single. Rounding
replaces an exact number of units by one that a single has, to the nearest and to even, and never
moves it past a single: what a single bounds stays bounded by it once rounded. Only that is used of
rounding, so which of two neighbours is nearer does not matter here.
-/

namespace SkillEngine.Single

open Float.Model (Format UnpackedFloat totalExponent)
open Float.Model.UnpackedFloat

/-- The units that infinity begins at: the power of two above the largest finite single. -/
def infinityUnits : Nat := 2 ^ 24 * 2 ^ 253

/-- As many units as a single has, infinity included. -/
def Representable (units : Nat) : Prop :=
  ∃ mantissa exponent, mantissa ≤ 2 ^ 24 ∧ exponent ≤ 253 ∧ units = mantissa * 2 ^ exponent

/-- No single has more units than infinity. -/
theorem Representable.le_infinityUnits {units : Nat} (single : Representable units) :
    units ≤ infinityUnits := by
  obtain ⟨mantissa, exponent, fits, small, rfl⟩ := single
  exact Nat.mul_le_mul fits (Nat.pow_le_pow_right (by decide) small)

/-- A mantissa at a place is what single precision makes of it: it is short enough, and it begins
with the leading bit unless the place is the least. -/
structure Placed (mantissa place : Nat) : Prop where
  /-- It has no more than 24 bits. -/
  short : mantissa < 2 ^ 24
  /-- It has no fewer bits, unless nothing is smaller. -/
  leads : place = 0 ∨ 2 ^ 23 ≤ mantissa

/-- No single stands between an exact number of units and what it is rounded to. -/
structure Rounds (exact rounded : Int) : Prop where
  /-- What is not above the exact number is not above the rounded one. -/
  below : ∀ units : Int, Representable units.natAbs → units ≤ exact → units ≤ rounded
  /-- What is not below the exact number is not below the rounded one. -/
  above : ∀ units : Int, Representable units.natAbs → exact ≤ units → rounded ≤ units

/-- Nothing needs to be rounded. -/
theorem Rounds.refl (exact : Int) : Rounds exact exact :=
  ⟨fun _ _ bound => bound, fun _ _ bound => bound⟩

/-- Rounding is the same on both sides of zero. -/
theorem Rounds.neg {exact rounded : Int} (rounds : Rounds exact rounded) :
    Rounds (-exact) (-rounded) where
  below units single bound := by
    have mirrored : rounded ≤ -units := rounds.above (-units) (by rwa [Int.natAbs_neg]) (by omega)
    omega
  above units single bound := by
    have mirrored : -units ≤ rounded := rounds.below (-units) (by rwa [Int.natAbs_neg]) (by omega)
    omega

/-- A positive number of units is rounded so if no positive single is passed. -/
theorem Rounds.ofNat {exact rounded : Nat}
    (below : ∀ units, Representable units → units ≤ exact → units ≤ rounded)
    (above : ∀ units, Representable units → exact ≤ units → rounded ≤ units) :
    Rounds exact rounded where
  below units single bound := by
    have low : units.toNat ≤ exact → units.toNat ≤ rounded := below units.toNat (by
      rcases Int.natAbs_eq units with positive | negative
      · rwa [show units.toNat = units.natAbs by omega]
      · exact ⟨0, 0, by omega, by omega, by omega⟩)
    omega
  above units single bound := by
    have high := above units.natAbs single (by omega)
    omega

/-- What is rounded beyond infinity is rounded to infinity. -/
theorem Rounds.capped {exact rounded : Nat} (rounds : Rounds exact rounded) :
    Rounds exact (min rounded infinityUnits : Nat) where
  below units single bound := by
    have low := rounds.below units single bound
    have capped := single.le_infinityUnits
    omega
  above units single bound := by
    have high := rounds.above units single bound
    omega

/-- The whole part of a mantissa shifted to the right, with no residual bit set if that is all. -/
structure Truncates (extended : ExtendedMantissa) (mantissa shift : Nat) : Prop where
  /-- The bits that are left. -/
  whole : extended.mantissa = mantissa / 2 ^ shift
  /-- The residual bits are clear if no set bit was shifted out. -/
  exact : 2 ^ shift ∣ mantissa → extended.roundBit = false ∧ extended.stickyBit = false

/-- A shift to the right truncates. -/
theorem truncates_shiftRight (mantissa shift : Nat) :
    Truncates (ExtendedMantissa.ofMantissaAndAccuracy mantissa .exact >>> shift)
      mantissa shift := by
  induction shift with
  | zero => exact ⟨(Nat.div_one mantissa).symm, fun _ => ⟨rfl, rfl⟩⟩
  | succ shift ih =>
    change Truncates (ExtendedMantissa.shiftRightOne
      (ExtendedMantissa.ofMantissaAndAccuracy mantissa .exact >>> shift)) mantissa (shift + 1)
    refine ⟨?_, fun whole => ?_⟩
    · change ExtendedMantissa.mantissa _ / 2 = _
      rw [ih.whole, Nat.div_div_eq_div_mul, Nat.pow_succ]
    · obtain ⟨quotient, rfl⟩ := whole
      obtain ⟨round, sticky⟩ := ih.exact ⟨2 * quotient, by rw [Nat.pow_succ, Nat.mul_assoc]⟩
      have even : ExtendedMantissa.mantissa (ExtendedMantissa.ofMantissaAndAccuracy
          (2 ^ (shift + 1) * quotient) .exact >>> shift) = 2 * quotient := by
        rw [ih.whole, Nat.pow_succ, Nat.mul_assoc,
          Nat.mul_div_cancel_left _ (Nat.two_pow_pos shift)]
      refine ⟨?_, ?_⟩
      · simp [ExtendedMantissa.shiftRightOne, even]
      · simp [ExtendedMantissa.shiftRightOne, round, sticky]

namespace Truncates

variable {extended : ExtendedMantissa} {mantissa shift : Nat}

/-- Rounding leaves the whole part, or adds one to it if something was shifted out. -/
theorem rounded (truncates : Truncates extended mantissa shift) :
    extended.roundedMantissa = mantissa / 2 ^ shift ∨
      extended.roundedMantissa = mantissa / 2 ^ shift + 1 ∧ ¬ 2 ^ shift ∣ mantissa := by
  obtain ⟨whole, exact⟩ := truncates
  obtain ⟨bits, round, sticky⟩ := extended
  simp only at whole exact
  subst whole
  have inexact (set : round = true ∨ sticky = true) : ¬ 2 ^ shift ∣ mantissa := fun divides => by
    obtain ⟨rfl, rfl⟩ := exact divides
    rcases set with set | set <;> cases set
  cases round with
  | false => exact .inl (by cases sticky <;> rfl)
  | true =>
    have left : ¬ 2 ^ shift ∣ mantissa := inexact (.inl rfl)
    cases sticky with
    | false =>
      change mantissa / 2 ^ shift + mantissa / 2 ^ shift % 2 = _ ∨
        mantissa / 2 ^ shift + mantissa / 2 ^ shift % 2 = _ ∧ _
      rcases Nat.mod_two_eq_zero_or_one (mantissa / 2 ^ shift) with even | odd
      · exact .inl (by omega)
      · exact .inr ⟨by omega, left⟩
    | true => exact .inr ⟨rfl, left⟩

/-- What fits below before the shift fits below once rounded. -/
theorem le_rounded (truncates : Truncates extended mantissa shift) {low : Nat}
    (bound : low * 2 ^ shift ≤ mantissa) : low ≤ extended.roundedMantissa := by
  have whole : low ≤ mantissa / 2 ^ shift := (Nat.le_div_iff_mul_le (Nat.two_pow_pos shift)).2 bound
  rcases truncates.rounded with same | ⟨above, _⟩ <;> omega

/-- What covers the mantissa before the shift covers it once rounded. -/
theorem rounded_le (truncates : Truncates extended mantissa shift) {high : Nat}
    (bound : mantissa ≤ high * 2 ^ shift) : extended.roundedMantissa ≤ high := by
  rcases truncates.rounded with same | ⟨above, inexact⟩
  · rw [same]
    exact Nat.div_le_of_le_mul (by rwa [Nat.mul_comm])
  · have strict : mantissa < high * 2 ^ shift :=
      Nat.lt_of_le_of_ne bound fun equal => inexact ⟨high, by rw [equal, Nat.mul_comm]⟩
    have less : mantissa / 2 ^ shift < high :=
      (Nat.div_lt_iff_lt_mul (Nat.two_pow_pos shift)).2 strict
    omega

end Truncates

/-- The exponent that single precision asks for, counted in units. -/
theorem targetExponent_single (mantissa exponent : Nat) :
    Format.binary32.targetExponent (totalExponent mantissa (exponent - 149)) =
      ((mantissa.log2 + exponent - 23 : Nat) : Int) - 149 := by
  simp only [Format.targetExponent, totalExponent, Format.mantissaBits, Format.minExponent]
  omega

/-- The leading bit moves with a shift to the left. -/
theorem log2_mul_two_pow {mantissa : Nat} (positive : 0 < mantissa) (shift : Nat) :
    (mantissa * 2 ^ shift).log2 = mantissa.log2 + shift := by
  have scaled : mantissa * 2 ^ shift ≠ 0 :=
    Nat.pos_iff_ne_zero.1 (Nat.mul_pos positive (Nat.two_pow_pos shift))
  obtain ⟨low, high⟩ := (Nat.log2_eq_iff (Nat.pos_iff_ne_zero.1 positive)).1 rfl
  refine (Nat.log2_eq_iff scaled).2 ⟨?_, ?_⟩
  · rw [Nat.pow_add]
    exact Nat.mul_le_mul_right _ low
  · rw [show mantissa.log2 + shift + 1 = mantissa.log2 + 1 + shift by omega, Nat.pow_add]
    exact Nat.mul_lt_mul_of_pos_right high (Nat.two_pow_pos shift)

/-- What is shifted and rounded passes no single, if the place that it is shifted to is the least or
the leading bit is kept. -/
theorem Truncates.rounds {extended : ExtendedMantissa} {mantissa shift : Nat}
    (truncates : Truncates extended mantissa shift) {exponent : Nat}
    (leading : shift + exponent = 0 ∨ 2 ^ 23 * 2 ^ shift ≤ mantissa) :
    Rounds (mantissa * 2 ^ exponent : Nat)
      (extended.roundedMantissa * 2 ^ (shift + exponent) : Nat) := by
  have scale : 0 < 2 ^ exponent := Nat.two_pow_pos exponent
  have split (count : Nat) :
      count * 2 ^ (shift + exponent) = count * 2 ^ shift * 2 ^ exponent := by
    rw [Nat.pow_add, Nat.mul_assoc]
  have finer {count power : Nat} (short : count ≤ 2 ^ 24) (less : power < shift + exponent) :
      count * 2 ^ power ≤ 2 ^ 23 * 2 ^ (shift + exponent) := by
    refine Nat.le_trans (Nat.mul_le_mul_right _ short) ?_
    rw [← Nat.pow_add, ← Nat.pow_add]
    exact Nat.pow_le_pow_right (by decide) (by omega)
  have regroup {count power : Nat} (more : shift + exponent ≤ power) :
      count * 2 ^ power = count * 2 ^ (power - (shift + exponent)) * 2 ^ (shift + exponent) := by
    rw [← Nat.pow_sub_mul_pow 2 more, Nat.mul_assoc]
  refine .ofNat ?_ ?_
  · rintro units ⟨count, power, short, _, rfl⟩ bound
    rcases Nat.lt_or_ge power (shift + exponent) with less | more
    · have leads : 2 ^ 23 ≤ extended.roundedMantissa :=
        truncates.le_rounded (leading.resolve_left (by omega))
      exact Nat.le_trans (finer short less) (Nat.mul_le_mul_right _ leads)
    · rw [regroup more, split] at bound
      rw [regroup more]
      exact Nat.mul_le_mul_right _ (truncates.le_rounded (Nat.le_of_mul_le_mul_right bound scale))
  · rintro units ⟨count, power, short, _, rfl⟩ bound
    rcases Nat.lt_or_ge power (shift + exponent) with less | more
    · -- The exact number begins a power of two, so the bound is that number itself.
      have most : 2 ^ 23 * 2 ^ (shift + exponent) ≤ mantissa * 2 ^ exponent := by
        rw [split]
        exact Nat.mul_le_mul_right _ (leading.resolve_left (by omega))
      have equal : mantissa * 2 ^ exponent = 2 ^ 23 * 2 ^ (shift + exponent) :=
        Nat.le_antisymm (Nat.le_trans bound (finer short less)) most
      rw [split] at equal
      have whole : mantissa ≤ 2 ^ 23 * 2 ^ shift :=
        Nat.le_of_eq (Nat.eq_of_mul_eq_mul_right scale equal)
      exact Nat.le_trans (Nat.mul_le_mul_right _ (truncates.rounded_le whole))
        (Nat.le_trans most bound)
    · rw [regroup more, split] at bound
      rw [regroup more]
      exact Nat.mul_le_mul_right _ (truncates.rounded_le (Nat.le_of_mul_le_mul_right bound scale))

/-- A mantissa in whole target units is placed once what overflows it is carried. -/
theorem exists_carried {mantissa exponent : Nat} (positive : 0 < mantissa)
    (fits : mantissa ≤ 2 ^ 24) (leads : exponent = 0 ∨ 2 ^ 23 ≤ mantissa) :
    ∃ single place : Nat,
      (shiftToTargetExponent Format.binary32 mantissa (exponent - 149) .exact).1.mantissa = single ∧
      (shiftToTargetExponent Format.binary32 mantissa (exponent - 149) .exact).2 = place - 149 ∧
      0 < single ∧ Placed single place ∧ single * 2 ^ place = mantissa * 2 ^ exponent := by
  obtain ⟨shift, shifts⟩ : ∃ shift, shift =
    (((mantissa.log2 + exponent - 23 : Nat) : Int) - 149 - (exponent - 149)).toNat := ⟨_, rfl⟩
  have truncates := truncates_shiftRight mantissa shift
  simp only [shiftToTargetExponent, shiftToExponent, targetExponent_single, ← shifts]
  rw [truncates.whole]
  rcases Nat.lt_or_eq_of_le fits with less | rfl
  · have short : mantissa.log2 < 24 := (Nat.log2_lt (Nat.pos_iff_ne_zero.1 positive)).2 less
    have still : shift = 0 := by omega
    rw [still]
    exact ⟨mantissa, exponent, Nat.div_one mantissa, by omega, positive, ⟨less, leads⟩, rfl⟩
  · have long : (2 ^ 24).log2 = 24 := Nat.log2_two_pow
    have once : shift = 1 := by
      rw [long] at shifts
      omega
    rw [once]
    refine ⟨2 ^ 23, exponent + 1, rfl, by omega, by decide, ⟨by decide, .inr (Nat.le_refl _)⟩, ?_⟩
    rw [Nat.pow_succ]
    ring

/-- A mantissa that is not finer than its target is rounded to a single. -/
theorem exists_roundWithAccuracy (sign : Sign) {mantissa exponent shift : Nat}
    (positive : 0 < mantissa) (aims : shift + exponent = mantissa.log2 + exponent - 23) :
    ∃ (single place : Nat) (above : 0 < single),
      roundWithAccuracy Format.binary32 sign mantissa (exponent - 149) .exact =
        .finite sign single (place - 149) above ∧ Placed single place ∧
      Rounds (mantissa * 2 ^ exponent : Nat) (single * 2 ^ place : Nat) := by
  obtain ⟨low, high⟩ := (Nat.log2_eq_iff (Nat.pos_iff_ne_zero.1 positive)).1 rfl
  have truncates := truncates_shiftRight mantissa shift
  generalize shifted :
    ExtendedMantissa.ofMantissaAndAccuracy mantissa .exact >>> shift = extended at truncates
  have covered : mantissa ≤ 2 ^ 24 * 2 ^ shift := by
    rw [← Nat.pow_add]
    exact Nat.le_trans (Nat.le_of_lt high) (Nat.pow_le_pow_right (by decide) (by omega))
  have leading : shift + exponent = 0 ∨ 2 ^ 23 * 2 ^ shift ≤ mantissa := by
    rcases Nat.eq_zero_or_pos (shift + exponent) with none | some
    · exact .inl none
    · refine .inr ?_
      rw [← Nat.pow_add, show 23 + shift = mantissa.log2 by omega]
      exact low
  have leads : shift + exponent = 0 ∨ 2 ^ 23 ≤ extended.roundedMantissa :=
    leading.imp_right truncates.le_rounded
  have nonzero : 0 < extended.roundedMantissa := by
    rcases leads with none | most
    · refine truncates.le_rounded ?_
      rw [show shift = 0 by omega, Nat.one_mul]
      exact positive
    · exact Nat.lt_of_lt_of_le (by decide) most
  obtain ⟨single, place, whole, places, above, placed, same⟩ :=
    exists_carried nonzero (truncates.rounded_le covered) leads
  refine ⟨single, place, above, ?_, placed, same ▸ truncates.rounds leading⟩
  have first : shiftToTargetExponent Format.binary32 mantissa (exponent - 149) .exact =
      (extended, ((shift + exponent : Nat) : Int) - 149) := by
    simp only [shiftToTargetExponent, shiftToExponent, targetExponent_single, ← aims]
    rw [show (((shift + exponent : Nat) : Int) - 149 - (exponent - 149)).toNat = shift by omega,
      shifted]
    exact Prod.ext rfl (by dsimp only; omega)
  simp only [roundWithAccuracy, first, whole, places]
  exact dif_neg (Nat.pos_iff_ne_zero.1 above)

/-- A positive mantissa is rounded to a single. -/
theorem exists_round (sign : Sign) {mantissa : Nat} (positive : 0 < mantissa) (exponent : Nat) :
    ∃ (single place : Nat) (above : 0 < single),
      UnpackedFloat.round Format.binary32 sign mantissa (exponent - 149) =
        .finite sign single (place - 149) above ∧ Placed single place ∧
      Rounds (mantissa * 2 ^ exponent : Nat) (single * 2 ^ place : Nat) := by
  obtain ⟨target, aims⟩ : ∃ target, target = mantissa.log2 + exponent - 23 := ⟨_, rfl⟩
  obtain ⟨finer, least⟩ : ∃ finer, finer = exponent - (exponent - target) := ⟨_, rfl⟩
  have scaled : 0 < mantissa * 2 ^ (exponent - target) :=
    Nat.mul_pos positive (Nat.two_pow_pos _)
  have same : target - finer + finer = (mantissa * 2 ^ (exponent - target)).log2 + finer - 23 := by
    rw [log2_mul_two_pow positive]
    omega
  obtain ⟨single, place, above, rounded, placed, rounds⟩ :=
    exists_roundWithAccuracy sign scaled same
  refine ⟨single, place, above, ?_, placed, ?_⟩
  · rw [← rounded]
    simp only [UnpackedFloat.round, targetExponent_single, ← aims, decreaseExponent]
    rw [show ((exponent : Int) - 149 - (target - 149)).toNat = exponent - target by omega,
      Nat.shiftLeft_eq]
    congr 1
    omega
  · have exact : mantissa * 2 ^ (exponent - target) * 2 ^ finer = mantissa * 2 ^ exponent := by
      rw [Nat.mul_assoc, ← Nat.pow_add, show exponent - target + finer = exponent by omega]
    rwa [exact] at rounds

end SkillEngine.Single
