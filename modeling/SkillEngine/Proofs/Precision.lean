import Mathlib.Algebra.Order.Field.Power
import Mathlib.Algebra.Order.Ring.Rat
import Mathlib.Data.Nat.Cast.Order.Field
import Mathlib.Tactic.FieldSimp
import Mathlib.Tactic.Linarith
import Mathlib.Tactic.Positivity
import SkillEngine.Proofs.Rounding

/-!
# Rounding at any precision

What a format rounds a positive number to is the nearest whole number of the unit that the format
has at the number's size, and the even one of two that are equally near. The unit and the whole
number follow from the exact number alone, however it was given: as a product, as a quotient with a
remainder, or as a mantissa that is shifted.
-/

namespace SkillEngine.Precision

open Float.Model (Format UnpackedFloat totalExponent)
open Float.Model.UnpackedFloat

/-- A power with its negative part multiplied out. -/
theorem zpow_mul_pow {base : ℚ} (nonzero : base ≠ 0) (power : Int) :
    base ^ power * base ^ (-power).toNat = base ^ power.toNat := by
  rw [← zpow_natCast, ← zpow_natCast, ← zpow_add₀ nonzero]
  congr 1
  omega

/-- A power of two is twice the one before. -/
theorem two_zpow_eq (power : Int) : (2 : ℚ) ^ power = 2 * 2 ^ (power - 1) := by
  rw [← zpow_one_add₀ (by norm_num : (2 : ℚ) ≠ 0), add_sub_cancel]

/-- The distance of two natural numbers. -/
theorem cast_distance (first second : Nat) :
    ((first - second + (second - first) : Nat) : ℚ) = |(first : ℚ) - second| := by
  rcases Nat.le_total first second with less | more
  · have order : (first : ℚ) ≤ second := by exact_mod_cast less
    rw [Nat.sub_eq_zero_of_le less, Nat.zero_add, Nat.cast_sub less, abs_sub_comm,
      abs_of_nonneg (sub_nonneg.2 order)]
  · have order : (second : ℚ) ≤ first := by exact_mod_cast more
    rw [Nat.sub_eq_zero_of_le more, Nat.add_zero, Nat.cast_sub more,
      abs_of_nonneg (sub_nonneg.2 order)]

/-- A whole number is what an exact one is rounded to: none is nearer, and of two that are equally
near it is the even one. -/
structure Nearest (whole : Nat) (exact : ℚ) : Prop where
  /-- It is not too large by more than a half. -/
  low : (whole : ℚ) - 1 / 2 ≤ exact
  /-- It is not too small by more than a half. -/
  high : exact ≤ whole + 1 / 2
  /-- If it is off by a half it is even. -/
  even : exact = whole - 1 / 2 ∨ exact = whole + 1 / 2 → whole % 2 = 0

namespace Nearest

variable {whole other : Nat} {exact : ℚ}

/-- What an exact number does not exceed, its rounding does not exceed. -/
theorem le_of_le (nearest : Nearest whole exact) (bound : exact ≤ other) : whole ≤ other := by
  by_contra more
  have above : (other : ℚ) + 1 ≤ whole := by exact_mod_cast Nat.lt_of_not_le more
  have low := nearest.low
  linarith

/-- What an exact number is not below, its rounding is not below. -/
theorem ge_of_ge (nearest : Nearest whole exact) (bound : (other : ℚ) ≤ exact) :
    other ≤ whole := by
  by_contra less
  have below : (whole : ℚ) + 1 ≤ other := by exact_mod_cast Nat.lt_of_not_le less
  have high := nearest.high
  linarith

/-- Of two roundings of one number the first is not larger. -/
theorem le (first : Nearest whole exact) (second : Nearest other exact) : whole ≤ other := by
  by_contra more
  have above : (other : ℚ) + 1 ≤ whole := by exact_mod_cast Nat.lt_of_not_le more
  have low := first.low
  have high := second.high
  -- Both are off by a half, so both are even, and one is the other's successor.
  have odd : (whole : ℚ) = other + 1 := by linarith
  have next : whole = other + 1 := by exact_mod_cast odd
  have evens : whole % 2 = 0 := first.even (.inl (by linarith))
  have others : other % 2 = 0 := second.even (.inr (by linarith))
  omega

/-- There is one rounding. -/
theorem unique (first : Nearest whole exact) (second : Nearest other exact) : whole = other :=
  Nat.le_antisymm (first.le second) (second.le first)

/-- A whole number of some scale is the nearest if it is not off by more than half the scale. -/
theorem of_scaled {scale : ℚ} (positive : 0 < scale) (low : (whole - 1 / 2) * scale ≤ exact)
    (high : exact ≤ (whole + 1 / 2) * scale)
    (even : exact = (whole - 1 / 2) * scale ∨ exact = (whole + 1 / 2) * scale → whole % 2 = 0) :
    Nearest whole (exact / scale) := by
  refine ⟨(le_div_iff₀ positive).2 low, (div_le_iff₀ positive).2 high, fun tie => even ?_⟩
  rwa [div_eq_iff (ne_of_gt positive), div_eq_iff (ne_of_gt positive)] at tie

/-- A whole number is its own rounding. -/
theorem refl (whole : Nat) : Nearest whole whole where
  low := by linarith
  high := by linarith
  even tie := by rcases tie with below | above <;> linarith

end Nearest

/-- The exact number that a mantissa with its residual bits is the whole part of. -/
def Represents (extended : ExtendedMantissa) (exact : ℚ) : Prop :=
  match extended.roundBit, extended.stickyBit with
  | false, false => exact = extended.mantissa
  | false, true => (extended.mantissa : ℚ) < exact ∧ exact < extended.mantissa + 1 / 2
  | true, false => exact = extended.mantissa + 1 / 2
  | true, true => (extended.mantissa : ℚ) + 1 / 2 < exact ∧ exact < extended.mantissa + 1

/-- A mantissa without residual bits is exact. -/
theorem represents_exact (mantissa : Nat) :
    Represents (ExtendedMantissa.ofMantissaAndAccuracy mantissa .exact) mantissa := by
  rfl

/-- The quotient of a division is told exactly by its remainder. -/
theorem represents_quotient (dividend : Nat) {divisor : Nat} (positive : 0 < divisor) :
    Represents (ExtendedMantissa.ofMantissaAndAccuracy (dividend / divisor)
      (accuracyOfFraction (dividend % divisor) divisor)) ((dividend : ℚ) / divisor) := by
  have scale : (0 : ℚ) < divisor := by exact_mod_cast positive
  have small : ((dividend % divisor : Nat) : ℚ) < divisor := by
    exact_mod_cast Nat.mod_lt dividend positive
  have parts : (dividend : ℚ) =
      (dividend / divisor : Nat) * (divisor : ℚ) + (dividend % divisor : Nat) := by
    exact_mod_cast (Nat.div_add_mod' dividend divisor).symm
  have split : (dividend : ℚ) / divisor =
      (dividend / divisor : Nat) + (dividend % divisor : Nat) / (divisor : ℚ) := by
    rw [← mul_div_cancel_right₀ ((dividend / divisor : Nat) : ℚ) (ne_of_gt scale), ← add_div,
      ← parts]
  rw [split]
  have below : ((dividend % divisor : Nat) : ℚ) / divisor < 1 := (div_lt_one scale).2 small
  unfold accuracyOfFraction
  by_cases none : dividend % divisor = 0
  · rw [if_pos none, none]
    simp [Represents, ExtendedMantissa.ofMantissaAndAccuracy]
  · rw [if_neg none]
    have some : (0 : ℚ) < (dividend % divisor : Nat) := by
      exact_mod_cast Nat.pos_of_ne_zero none
    have above : 0 < ((dividend % divisor : Nat) : ℚ) / divisor := div_pos some scale
    rcases Nat.lt_trichotomy (2 * (dividend % divisor)) divisor with less | same | more
    · have half : ((dividend % divisor : Nat) : ℚ) / divisor < 1 / 2 := by
        have doubled : 2 * ((dividend % divisor : Nat) : ℚ) < divisor := by exact_mod_cast less
        rw [div_lt_iff₀ scale]
        linarith
      rw [Nat.compare_eq_lt.2 less]
      exact ⟨lt_add_of_pos_right _ above, (add_lt_add_iff_left _).2 half⟩
    · have half : ((dividend % divisor : Nat) : ℚ) / divisor = 1 / 2 := by
        have doubled : 2 * ((dividend % divisor : Nat) : ℚ) = divisor := by exact_mod_cast same
        rw [div_eq_iff (ne_of_gt scale)]
        linarith
      rw [Nat.compare_eq_eq.2 same]
      exact congrArg _ half
    · have half : 1 / 2 < ((dividend % divisor : Nat) : ℚ) / divisor := by
        have doubled : (divisor : ℚ) < 2 * ((dividend % divisor : Nat) : ℚ) := by
          exact_mod_cast more
        rw [lt_div_iff₀ scale]
        linarith
      rw [Nat.compare_eq_gt.2 more]
      exact ⟨(add_lt_add_iff_left _).2 half, (add_lt_add_iff_left _).2 below⟩

namespace Represents

variable {extended : ExtendedMantissa} {exact : ℚ}

/-- The mantissa is the whole part. -/
theorem whole (represents : Represents extended exact) :
    (extended.mantissa : ℚ) ≤ exact ∧ exact < extended.mantissa + 1 := by
  obtain ⟨mantissa, round, sticky⟩ := extended
  cases round <;> cases sticky
  · have same : exact = mantissa := represents
    constructor <;> linarith
  · obtain ⟨low, high⟩ : (mantissa : ℚ) < exact ∧ exact < mantissa + 1 / 2 := represents
    constructor <;> linarith
  · have same : exact = mantissa + 1 / 2 := represents
    constructor <;> linarith
  · obtain ⟨low, high⟩ : (mantissa : ℚ) + 1 / 2 < exact ∧ exact < mantissa + 1 := represents
    constructor <;> linarith

/-- A shift by one place halves the number. -/
theorem shiftRightOne (represents : Represents extended exact) :
    Represents extended.shiftRightOne (exact / 2) := by
  obtain ⟨mantissa, round, sticky⟩ := extended
  have parts : (mantissa : ℚ) = 2 * (mantissa / 2 : Nat) + (mantissa % 2 : Nat) := by
    exact_mod_cast (Nat.div_add_mod mantissa 2).symm
  rcases Nat.mod_two_eq_zero_or_one mantissa with even | odd
  · rw [even] at parts
    cases round <;> cases sticky <;>
      simp only [Represents, ExtendedMantissa.shiftRightOne, even, parts, Bool.or_false,
        Bool.or_true, bne_self_eq_false] at represents ⊢ <;>
      grind
  · rw [odd] at parts
    cases round <;> cases sticky <;>
      simp only [Represents, ExtendedMantissa.shiftRightOne, odd, parts, Bool.or_false,
        Bool.or_true] at represents ⊢ <;>
      grind

/-- A shift divides the number by a power of two. -/
theorem shiftRight (represents : Represents extended exact) (shift : Nat) :
    Represents (extended >>> shift) (exact / 2 ^ shift) := by
  induction shift with
  | zero =>
    rw [pow_zero, div_one]
    exact represents
  | succ shift ih =>
    have halved := ih.shiftRightOne
    rw [div_div, ← pow_succ] at halved
    exact halved

/-- The rounded mantissa is the nearest one. -/
theorem nearest (represents : Represents extended exact) :
    Nearest extended.roundedMantissa exact := by
  obtain ⟨mantissa, round, sticky⟩ := extended
  cases round <;> cases sticky
  · obtain rfl : exact = mantissa := represents
    exact .refl mantissa
  · obtain ⟨low, high⟩ : (mantissa : ℚ) < exact ∧ exact < mantissa + 1 / 2 := represents
    show Nearest mantissa exact
    exact ⟨by linarith, by linarith, fun tie => by rcases tie with tie | tie <;> linarith⟩
  · obtain rfl : exact = mantissa + 1 / 2 := represents
    show Nearest (mantissa + mantissa % 2) _
    rcases Nat.mod_two_eq_zero_or_one mantissa with even | odd
    · rw [even]
      exact ⟨by push_cast; linarith, by push_cast; linarith, fun _ => by omega⟩
    · rw [odd]
      exact ⟨by push_cast; linarith, by push_cast; linarith, fun _ => by omega⟩
  · obtain ⟨low, high⟩ : (mantissa : ℚ) + 1 / 2 < exact ∧ exact < mantissa + 1 := represents
    show Nearest (mantissa + 1) exact
    refine ⟨by push_cast; linarith, by push_cast; linarith, fun tie => ?_⟩
    push_cast at tie
    rcases tie with tie | tie <;> linarith

end Represents

variable {spec : Format}

/-- The unit of a format at the size of a number: its numbers have no more units than fit, and no
fewer than half of these unless the unit is the least one. -/
structure Unit (spec : Format) (exact : ℚ) (place : Int) : Prop where
  /-- No unit is smaller than the least one. -/
  least : spec.minExponent ≤ place
  /-- No more units than fit. -/
  fits : exact < 2 ^ spec.mantissaBits * 2 ^ place
  /-- No fewer than half of these. -/
  leads : place = spec.minExponent ∨ 2 ^ spec.mantissaBitsWithoutImplicit * 2 ^ place ≤ exact

/-- The bits of a mantissa are its leading bit and those behind it. -/
theorem two_pow_mantissaBits (spec : Format) :
    (2 : ℚ) ^ spec.mantissaBits = 2 * 2 ^ spec.mantissaBitsWithoutImplicit := by
  rw [Format.mantissaBits, pow_add, pow_one]

/-- What fits at a unit is no more than what has its leading bit at a larger one. -/
theorem fits_le_leads (spec : Format) {power place : Int} (larger : power < place) :
    (2 : ℚ) ^ spec.mantissaBits * 2 ^ power ≤ 2 ^ spec.mantissaBitsWithoutImplicit * 2 ^ place := by
  have step : (2 : ℚ) * 2 ^ power ≤ 2 ^ place := by
    rw [← zpow_one_add₀ (by norm_num : (2 : ℚ) ≠ 0)]
    exact zpow_le_zpow_right₀ (by norm_num) (by omega)
  calc (2 : ℚ) ^ spec.mantissaBits * 2 ^ power
    _ = 2 ^ spec.mantissaBitsWithoutImplicit * (2 * 2 ^ power) := by
      rw [two_pow_mantissaBits]
      ring
    _ ≤ 2 ^ spec.mantissaBitsWithoutImplicit * 2 ^ place :=
      mul_le_mul_of_nonneg_left step (by positivity)

/-- Of two units of one number the first is not larger. -/
theorem Unit.le {exact : ℚ} {place other : Int} (first : Unit spec exact place)
    (second : Unit spec exact other) : place ≤ other := by
  by_contra more
  have least := second.least
  have leads := first.leads.resolve_left (by omega)
  have fits := lt_of_lt_of_le second.fits (fits_le_leads spec (not_le.1 more))
  exact absurd leads (not_le.2 fits)

/-- There is one unit. -/
theorem Unit.unique {exact : ℚ} {place other : Int} (first : Unit spec exact place)
    (second : Unit spec exact other) : place = other :=
  Int.le_antisymm (first.le second) (second.le first)

/-- The unit of a number is the one that its leading bit asks for. -/
theorem unit_targetExponent {mantissa : Nat} (positive : 0 < mantissa) (exponent : Int) {exact : ℚ}
    (low : (mantissa : ℚ) ≤ exact) (high : exact < mantissa + 1) :
    Unit spec (exact * 2 ^ exponent)
      (spec.targetExponent (totalExponent mantissa exponent)) := by
  obtain ⟨leading, ending⟩ := (Nat.log2_eq_iff (Nat.pos_iff_ne_zero.1 positive)).1 rfl
  have two : (2 : ℚ) ≠ 0 := by norm_num
  have scale : (0 : ℚ) < 2 ^ exponent := by positivity
  have bottom : (2 : ℚ) ^ mantissa.log2 ≤ exact := by
    have whole : (2 : ℚ) ^ mantissa.log2 ≤ mantissa := by exact_mod_cast leading
    linarith
  have top : exact < (2 : ℚ) ^ (mantissa.log2 + 1) := by
    have whole : (mantissa : ℚ) + 1 ≤ 2 ^ (mantissa.log2 + 1) := by exact_mod_cast ending
    linarith
  have aims : spec.targetExponent (totalExponent mantissa exponent) =
      max ((mantissa.log2 : Int) + 1 + exponent - spec.mantissaBits) spec.minExponent := rfl
  generalize spec.targetExponent (totalExponent mantissa exponent) = place at aims
  have bits : spec.mantissaBits = 1 + spec.mantissaBitsWithoutImplicit := rfl
  refine ⟨by omega, ?_, ?_⟩
  · calc exact * 2 ^ exponent
      _ < 2 ^ (mantissa.log2 + 1) * 2 ^ exponent := mul_lt_mul_of_pos_right top scale
      _ = 2 ^ ((mantissa.log2 : Int) + 1 + exponent) := by
        rw [← zpow_natCast, ← zpow_add₀ two]
        push_cast
        rfl
      _ ≤ 2 ^ ((spec.mantissaBits : Int) + place) :=
        zpow_le_zpow_right₀ (by norm_num) (by omega)
      _ = 2 ^ spec.mantissaBits * 2 ^ place := by rw [zpow_add₀ two, zpow_natCast]
  · by_cases least : place = spec.minExponent
    · exact .inl least
    · refine .inr ?_
      calc (2 : ℚ) ^ spec.mantissaBitsWithoutImplicit * 2 ^ place
        _ = 2 ^ ((mantissa.log2 : Int) + exponent) := by
          rw [← zpow_natCast, ← zpow_add₀ two]
          congr 1
          omega
        _ = 2 ^ mantissa.log2 * 2 ^ exponent := by rw [zpow_add₀ two, zpow_natCast]
        _ ≤ exact * 2 ^ exponent := mul_le_mul_of_nonneg_right bottom (le_of_lt scale)

/-- What a format makes of a positive number: the nearest whole number of its units, and one unit
higher up if that is one bit too long. -/
structure IsRounded (spec : Format) (sign : Sign) (exact : ℚ) (result : UnpackedFloat)
    (whole : Nat) (place : Int) : Prop where
  /-- The unit is that of the number. -/
  unit : Unit spec exact place
  /-- The whole number is the nearest. -/
  nearest : Nearest whole (exact / 2 ^ place)
  /-- A whole number that fits is the mantissa. -/
  finite (positive : 0 < whole) (fits : whole < 2 ^ spec.mantissaBits) :
    result = .finite sign whole place positive
  /-- What is one bit too long is carried. -/
  carried (long : whole = 2 ^ spec.mantissaBits) :
    result = .finite sign (2 ^ spec.mantissaBitsWithoutImplicit) (place + 1) (Nat.two_pow_pos _)

/-- A mantissa that fits is not shifted. -/
theorem shiftToTargetExponent_of_fits {whole : Nat} {place : Int}
    (fits : whole < 2 ^ spec.mantissaBits) (least : spec.minExponent ≤ place) :
    shiftToTargetExponent spec whole place .exact =
      (ExtendedMantissa.ofMantissaAndAccuracy whole .exact, place) := by
  have short : whole.log2 + 1 ≤ spec.mantissaBits := by
    rcases Nat.eq_zero_or_pos whole with rfl | positive
    · show 0 + 1 ≤ 1 + _
      omega
    · exact (Nat.log2_lt (Nat.pos_iff_ne_zero.1 positive)).2 fits
  have aims : spec.targetExponent (totalExponent whole place) =
      max ((whole.log2 : Int) + 1 + place - spec.mantissaBits) spec.minExponent := rfl
  have still : (spec.targetExponent (totalExponent whole place) - place).toNat = 0 := by omega
  simp only [shiftToTargetExponent, shiftToExponent, still]
  exact Prod.ext rfl (Int.add_zero place)

/-- A mantissa that is one bit too long is shifted once. -/
theorem shiftToTargetExponent_of_long {place : Int} (least : spec.minExponent ≤ place) :
    shiftToTargetExponent spec (2 ^ spec.mantissaBits) place .exact =
      (⟨2 ^ spec.mantissaBitsWithoutImplicit, false, false⟩, place + 1) := by
  have aims : spec.targetExponent (totalExponent (2 ^ spec.mantissaBits) place) =
      max (((2 ^ spec.mantissaBits).log2 : Int) + 1 + place - spec.mantissaBits)
        spec.minExponent := rfl
  rw [Nat.log2_two_pow] at aims
  have once : (spec.targetExponent (totalExponent (2 ^ spec.mantissaBits) place) - place).toNat =
      1 := by omega
  have double : 2 ^ spec.mantissaBits = 2 * 2 ^ spec.mantissaBitsWithoutImplicit := by
    rw [Format.mantissaBits, Nat.pow_add]
  simp only [shiftToTargetExponent, shiftToExponent, once]
  refine Prod.ext ?_ rfl
  show ExtendedMantissa.shiftRightOne ⟨2 ^ spec.mantissaBits, false, false⟩ = _
  rw [double]
  simp [ExtendedMantissa.shiftRightOne]

/-- A mantissa that is not coarser than its unit is rounded. -/
theorem exists_isRounded (sign : Sign) {mantissa : Nat} (positive : 0 < mantissa) {exponent : Int}
    (accuracy : Accuracy) {exact : ℚ}
    (represents : Represents (ExtendedMantissa.ofMantissaAndAccuracy mantissa accuracy) exact)
    (fine : exponent ≤ spec.targetExponent (totalExponent mantissa exponent)) :
    ∃ whole place, IsRounded spec sign (exact * 2 ^ exponent)
      (roundWithAccuracy spec sign mantissa exponent accuracy) whole place := by
  have own : (ExtendedMantissa.ofMantissaAndAccuracy mantissa accuracy).mantissa = mantissa := by
    cases accuracy with
    | exact => rfl
    | inexact order => cases order <;> rfl
  have bounds := represents.whole
  rw [own] at bounds
  have unit : Unit spec (exact * 2 ^ exponent) _ :=
    unit_targetExponent positive exponent bounds.1 bounds.2
  obtain ⟨shift, shifts⟩ : ∃ shift : Nat, (shift : Int) =
    spec.targetExponent (totalExponent mantissa exponent) - exponent :=
      ⟨_, Int.toNat_of_nonneg (by omega)⟩
  generalize target : spec.targetExponent (totalExponent mantissa exponent) = place at *
  have shifted := represents.shiftRight shift
  generalize moved : ExtendedMantissa.ofMantissaAndAccuracy mantissa accuracy >>> shift = extended
    at shifted
  have nearest := shifted.nearest
  have first : shiftToTargetExponent spec mantissa exponent accuracy = (extended, place) := by
    simp only [shiftToTargetExponent, shiftToExponent, target, ← shifts, Int.toNat_natCast, moved]
    exact Prod.ext rfl (by dsimp only; omega)
  have quotient : exact / 2 ^ shift = exact * 2 ^ exponent / 2 ^ place := by
    have two : (2 : ℚ) ≠ 0 := by norm_num
    rw [show place = shift + exponent by omega, zpow_add₀ two, zpow_natCast]
    field_simp
  rw [quotient] at nearest
  refine ⟨extended.roundedMantissa, place, unit, nearest, fun some fits => ?_, fun long => ?_⟩
  · simp only [roundWithAccuracy, first, shiftToTargetExponent_of_fits fits unit.least]
    exact dif_neg (Nat.pos_iff_ne_zero.1 some)
  · simp only [roundWithAccuracy, first, long, shiftToTargetExponent_of_long unit.least]
    exact dif_neg (Nat.pos_iff_ne_zero.1 (Nat.two_pow_pos _))

/-- A mantissa that is made finer keeps its value. -/
theorem shiftLeft_mul_two_pow (mantissa shift : Nat) (exponent : Int) :
    ((mantissa * 2 ^ shift : Nat) : ℚ) * 2 ^ (exponent - shift) = mantissa * 2 ^ exponent := by
  have two : (2 : ℚ) ≠ 0 := by norm_num
  have whole : (2 : ℚ) ^ shift * 2 ^ (exponent - shift) = 2 ^ exponent := by
    rw [← zpow_natCast, ← zpow_add₀ two]
    congr 1
    omega
  push_cast
  rw [mul_assoc, whole]

/-- Rounding a mantissa at an exponent rounds its value. -/
theorem exists_isRounded_round (spec : Format) (sign : Sign) {mantissa : Nat}
    (positive : 0 < mantissa) (exponent : Int) :
    ∃ whole place, IsRounded spec sign (mantissa * 2 ^ exponent)
      (UnpackedFloat.round spec sign mantissa exponent) whole place := by
  generalize target : spec.targetExponent (totalExponent mantissa exponent) = place
  obtain ⟨shift, shifts⟩ : ∃ shift, shift = (exponent - place).toNat := ⟨_, rfl⟩
  have finer : 0 < mantissa * 2 ^ shift := Nat.mul_pos positive (Nat.two_pow_pos _)
  have same : totalExponent (mantissa * 2 ^ shift) (exponent - shift) =
      totalExponent mantissa exponent := by
    simp only [totalExponent, Single.log2_mul_two_pow positive]
    omega
  have fine : exponent - shift ≤
      spec.targetExponent (totalExponent (mantissa * 2 ^ shift) (exponent - shift)) := by
    rw [same, target]
    omega
  obtain ⟨whole, unit, rounded⟩ :=
    exists_isRounded sign finer .exact (represents_exact _) fine
  rw [shiftLeft_mul_two_pow] at rounded
  refine ⟨whole, unit, ?_⟩
  simp only [UnpackedFloat.round, target, decreaseExponent, ← shifts, Nat.shiftLeft_eq]
  exact rounded

namespace IsRounded

variable {sign : Sign} {exact : ℚ} {result : UnpackedFloat} {whole : Nat} {place : Int}

/-- The unit times the quotient by it. -/
theorem div_mul_place (exact : ℚ) (place : Int) : exact / 2 ^ place * 2 ^ place = exact :=
  div_mul_cancel₀ exact (zpow_ne_zero place (by norm_num))

/-- What is rounded fits, or is one bit too long. -/
theorem fits (rounded : IsRounded spec sign exact result whole place) :
    whole ≤ 2 ^ spec.mantissaBits := by
  have scale : (0 : ℚ) < 2 ^ place := by positivity
  refine rounded.nearest.le_of_le ?_
  rw [div_le_iff₀ scale]
  push_cast
  exact le_of_lt rounded.unit.fits

/-- What is rounded keeps its leading bit, unless the unit is the least one. -/
theorem leads (rounded : IsRounded spec sign exact result whole place) :
    place = spec.minExponent ∨ 2 ^ spec.mantissaBitsWithoutImplicit ≤ whole := by
  have scale : (0 : ℚ) < 2 ^ place := by positivity
  refine rounded.unit.leads.imp_right fun leads => rounded.nearest.ge_of_ge ?_
  rw [le_div_iff₀ scale]
  push_cast
  exact leads

/-- A number that fits at a unit is below what has its leading bit at a larger one. -/
theorem mul_two_zpow_lt {count : Nat} {power : Int} (fits : count < 2 ^ spec.mantissaBits)
    (larger : power < place) :
    (count : ℚ) * 2 ^ power < 2 ^ spec.mantissaBitsWithoutImplicit * 2 ^ place := by
  have short : (count : ℚ) < 2 ^ spec.mantissaBits := by exact_mod_cast fits
  exact lt_of_lt_of_le (mul_lt_mul_of_pos_right short (by positivity)) (fits_le_leads spec larger)

/-- A number of units is a number of any finer ones. -/
theorem exists_finer {power : Int} (finer : place ≤ power) (count : Nat) :
    ∃ shift : Nat, (count : ℚ) * 2 ^ power = (count * 2 ^ shift : Nat) * 2 ^ place := by
  refine ⟨(power - place).toNat, ?_⟩
  rw [← shiftLeft_mul_two_pow count _ power]
  congr 2
  omega

/-- A number that fits at some unit is not passed from below. -/
theorem le_of_le (rounded : IsRounded spec sign exact result whole place) {count : Nat}
    {power : Int} (fits : count < 2 ^ spec.mantissaBits) (least : spec.minExponent ≤ power)
    (bound : exact ≤ count * 2 ^ power) : (whole : ℚ) * 2 ^ place ≤ count * 2 ^ power := by
  have scale : (0 : ℚ) < 2 ^ place := by positivity
  have higher : place ≤ power := by
    by_contra lower
    have leads := rounded.unit.leads.resolve_left (by omega)
    have less := mul_two_zpow_lt fits (not_le.1 lower)
    exact absurd (leads.trans bound) (not_le.2 less)
  obtain ⟨shift, finer⟩ := exists_finer higher count
  rw [finer] at bound ⊢
  have quotient : exact / 2 ^ place ≤ (count * 2 ^ shift : Nat) := by rwa [div_le_iff₀ scale]
  have whole := rounded.nearest.le_of_le quotient
  exact mul_le_mul_of_nonneg_right (by exact_mod_cast whole) (le_of_lt scale)

/-- A number that fits at some unit is not passed from above. -/
theorem ge_of_ge (rounded : IsRounded spec sign exact result whole place) {count : Nat}
    {power : Int} (fits : count < 2 ^ spec.mantissaBits) (least : spec.minExponent ≤ power)
    (bound : (count : ℚ) * 2 ^ power ≤ exact) : (count : ℚ) * 2 ^ power ≤ whole * 2 ^ place := by
  have scale : (0 : ℚ) < 2 ^ place := by positivity
  by_cases higher : place ≤ power
  · obtain ⟨shift, finer⟩ := exists_finer higher count
    rw [finer] at bound ⊢
    have quotient : ((count * 2 ^ shift : Nat) : ℚ) ≤ exact / 2 ^ place := by
      rwa [le_div_iff₀ scale]
    have whole := rounded.nearest.ge_of_ge quotient
    exact mul_le_mul_of_nonneg_right (by exact_mod_cast whole) (le_of_lt scale)
  · have leads : (2 : ℚ) ^ spec.mantissaBitsWithoutImplicit ≤ whole := by
      exact_mod_cast rounded.leads.resolve_left (by omega)
    have less := mul_two_zpow_lt fits (not_le.1 higher)
    exact le_of_lt (lt_of_lt_of_le less (mul_le_mul_of_nonneg_right leads (le_of_lt scale)))

/-- The rounding error is half a unit at most. -/
theorem error_le (rounded : IsRounded spec sign exact result whole place) :
    |(whole : ℚ) * 2 ^ place - exact| ≤ 2 ^ place / 2 := by
  have scale : (0 : ℚ) < 2 ^ place := by positivity
  have low := mul_le_mul_of_nonneg_right rounded.nearest.low (le_of_lt scale)
  have high := mul_le_mul_of_nonneg_right rounded.nearest.high (le_of_lt scale)
  rw [div_mul_place] at low high
  rw [abs_le]
  constructor <;> linarith

/-- Above the least unit the rounding error is small against the number. -/
theorem relative_error_le (rounded : IsRounded spec sign exact result whole place)
    (large : spec.minExponent < place) :
    |(whole : ℚ) * 2 ^ place - exact| * 2 ^ spec.mantissaBits ≤ exact := by
  have leads := rounded.unit.leads.resolve_left (by omega)
  have bits := two_pow_mantissaBits spec
  have scale : (0 : ℚ) < 2 ^ spec.mantissaBits := by positivity
  calc |(whole : ℚ) * 2 ^ place - exact| * 2 ^ spec.mantissaBits
    _ ≤ 2 ^ place / 2 * 2 ^ spec.mantissaBits :=
      mul_le_mul_of_nonneg_right rounded.error_le (le_of_lt scale)
    _ = 2 ^ spec.mantissaBitsWithoutImplicit * 2 ^ place := by rw [bits]; ring
    _ ≤ exact := leads

end IsRounded

end SkillEngine.Precision
