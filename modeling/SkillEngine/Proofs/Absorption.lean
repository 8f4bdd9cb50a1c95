import SkillEngine.Proofs.Differences
import SkillEngine.Proofs.Precision

/-!
# Differences of floats of unlike size

What is taken off a positive float makes it smaller if it is large enough to be seen at the float's
precision. A float of no more than `2 ^ 24` times what is taken off it becomes smaller; one of more
than `2 ^ 25` times that absorbs it and stays what it is, as infinity does with everything finite.
Counted in units, the exact difference is rounded to a whole number of the unit of its place, and
all of this follows from the error being half that unit at most.
-/

namespace SkillEngine.Single

open Float.Model (Format UnpackedFloat)
open Float.Model.UnpackedFloat
open Precision (IsRounded)

/-- A number of units is rounded at a place, which is that of numbers of its size: to a whole number
of the unit there, and by half of that unit at most. -/
structure RoundsAt (exact rounded place : Nat) : Prop where
  /-- What it is rounded to has no finer units. -/
  whole : 2 ^ place ∣ rounded
  /-- It is not rounded down by more than a half. -/
  low : 2 * exact ≤ 2 * rounded + 2 ^ place
  /-- It is not rounded up by more than a half. -/
  high : 2 * rounded ≤ 2 * exact + 2 ^ place
  /-- No more units than fit. -/
  fits : exact < 2 ^ 24 * 2 ^ place
  /-- No fewer than half of these, unless there are no finer ones. -/
  leads : place = 0 ∨ 2 ^ 23 * 2 ^ place ≤ exact

namespace RoundsAt

variable {total part rounded place : Nat}

/-- What is taken off is seen if the total is no more than `2 ^ 24` times as large. -/
theorem lt_total (rounds : RoundsAt (total - part) rounded place) (order : part ≤ total)
    (some : 0 < part) (near : total ≤ 2 ^ 24 * part) : rounded < total := by
  have high := rounds.high
  have half : 2 ^ place < 2 * part := by
    rcases rounds.leads with rfl | leads
    · omega
    · omega
  omega

/-- What is taken off is absorbed if the total is a single more than `2 ^ 25` times as large. -/
theorem eq_total (rounds : RoundsAt (total - part) rounded place) {mantissa power : Nat}
    (short : mantissa < 2 ^ 24) (single : total = mantissa * 2 ^ power)
    (far : 2 ^ 25 * part < total) : rounded = total := by
  have low := rounds.low
  have high := rounds.high
  have fits := rounds.fits
  have unit := Nat.two_pow_pos place
  have finer : place ≤ power := by
    by_contra coarser
    have double : 2 * 2 ^ power ≤ 2 ^ place := by
      rw [← Nat.pow_succ']
      exact Nat.pow_le_pow_right (by decide) (Nat.lt_of_not_le coarser)
    have leads := rounds.leads.resolve_left (by omega)
    have less := Nat.mul_lt_mul_of_pos_right short (Nat.two_pow_pos power)
    omega
  obtain ⟨count, multiple⟩ : 2 ^ place ∣ total :=
    single ▸ Dvd.dvd.mul_left (Nat.pow_dvd_pow 2 finer) mantissa
  obtain ⟨whole, same⟩ := rounds.whole
  -- The total has no more of the units than fit, so half of one is more than what is taken off.
  have few : count ≤ 2 ^ 24 := by
    by_contra many
    have more : 2 ^ place * (2 ^ 24 + 1) ≤ 2 ^ place * count := Nat.mul_le_mul_left _ (by omega)
    omega
  have bound : 2 ^ place * count ≤ 2 ^ place * 2 ^ 24 := Nat.mul_le_mul_left _ few
  rcases Nat.lt_trichotomy whole count with less | rfl | more
  · have next : 2 ^ place * (whole + 1) ≤ 2 ^ place * count := Nat.mul_le_mul_left _ less
    rw [Nat.mul_succ] at next
    omega
  · rw [same, multiple]
  · have next : 2 ^ place * (count + 1) ≤ 2 ^ place * whole := Nat.mul_le_mul_left _ more
    rw [Nat.mul_succ] at next
    omega

end RoundsAt

/-- What a number of units is rounded to in single precision. -/
theorem exists_roundsAt {sign : Sign} {exact whole : Nat} {result : UnpackedFloat} {place : Int}
    (some : 0 < exact)
    (rounded : IsRounded Format.binary32 sign (exact * 2 ^ (-149 : Int)) result whole place) :
    ∃ units place, packedUnits? result = Option.some (sign.apply (min units infinityUnits : Nat)) ∧
      RoundsAt exact units place := by
  have scale : (0 : ℚ) < 2 ^ (-149 : Int) := by positivity
  obtain ⟨power, rfl⟩ : ∃ power : Nat, place = power - 149 :=
    ⟨(place + 149).toNat, by have least : (-149 : Int) ≤ place := rounded.unit.least; omega⟩
  have unit : (2 : ℚ) ^ ((power : Int) - 149) = (2 ^ power : Nat) * 2 ^ (-149 : Int) := by
    rw [Int.sub_eq_add_neg, zpow_add₀ (by norm_num : (2 : ℚ) ≠ 0), zpow_natCast]
    push_cast
    rfl
  have leads : power = 0 ∨ 2 ^ 23 ≤ whole :=
    rounded.leads.imp_left fun least => by change (power : Int) - 149 = -149 at least; omega
  refine ⟨whole * 2 ^ power, power, ?_, ⟨⟨whole, Nat.mul_comm _ _⟩, ?_, ?_, ?_, ?_⟩⟩
  · have positive : 0 < whole := by
      have bound : ((1 : Nat) : ℚ) * 2 ^ (-149 : Int) ≤ exact * 2 ^ (-149 : Int) :=
        mul_le_mul_of_nonneg_right (by exact_mod_cast some) scale.le
      have one := rounded.ge_of_ge (by decide) (Int.le_refl _) bound
      rw [Nat.cast_one, one_mul] at one
      by_contra none
      rw [Nat.eq_zero_of_not_pos none, Nat.cast_zero, zero_mul] at one
      exact absurd scale (not_lt.2 one)
    rcases Nat.lt_or_eq_of_le rounded.fits with short | long
    · rw [rounded.finite positive short]
      exact packedUnits?_finite sign positive ⟨short, leads⟩
    · have carried : Placed (2 ^ 23) (power + 1) := ⟨by decide, .inr (Nat.le_refl _)⟩
      have next : ((power : Int) - 149) + 1 = ((power + 1 : Nat) : Int) - 149 := by omega
      have same : whole * 2 ^ power = 2 ^ 23 * 2 ^ (power + 1) := by
        rw [long, Nat.pow_succ 2 power, Nat.mul_comm (2 ^ power) 2, ← Nat.mul_assoc]
        rfl
      rw [rounded.carried long, next, same]
      exact packedUnits?_finite sign (Nat.two_pow_pos 23) carried
  · have error := (abs_le.1 rounded.error_le).1
    rw [unit] at error
    have moved : (2 * exact : ℚ) * 2 ^ (-149 : Int) ≤
        (2 * (whole * 2 ^ power : Nat) + (2 ^ power : Nat)) * 2 ^ (-149 : Int) := by
      generalize (2 : ℚ) ^ (-149 : Int) = least at error ⊢
      push_cast at error ⊢
      linarith
    exact_mod_cast le_of_mul_le_mul_right moved scale
  · have error := (abs_le.1 rounded.error_le).2
    rw [unit] at error
    have moved : (2 * (whole * 2 ^ power : Nat) : ℚ) * 2 ^ (-149 : Int) ≤
        (2 * exact + (2 ^ power : Nat)) * 2 ^ (-149 : Int) := by
      generalize (2 : ℚ) ^ (-149 : Int) = least at error ⊢
      push_cast at error ⊢
      linarith
    exact_mod_cast le_of_mul_le_mul_right moved scale
  · have fits := rounded.unit.fits
    rw [unit, ← mul_assoc] at fits
    exact_mod_cast lt_of_mul_lt_mul_right fits scale.le
  · refine rounded.unit.leads.imp (fun least => ?_) fun leads => ?_
    · change (power : Int) - 149 = -149 at least
      omega
    · rw [unit, ← mul_assoc] at leads
      exact_mod_cast le_of_mul_le_mul_right leads scale

/-- A positive number of units that is not infinite is that of a finite float. -/
theorem exists_finite {value : UnpackedFloat} {units : Nat}
    (number : unpackedUnits? value = some (units : Int)) (some : 0 < units)
    (finite : units < infinityUnits) : ∃ mantissa exponent positive,
      value = .finite .positive mantissa exponent positive ∧
      units = mantissa * 2 ^ (exponent + 149).toNat := by
  have plain {sign : Sign} {magnitude : Nat} (same : sign.apply magnitude = (units : Int)) :
      sign = .positive ∧ units = magnitude := by
    cases sign with
    | positive => exact ⟨rfl, Int.ofNat_inj.1 same.symm⟩
    | negative =>
      simp only [Sign.apply] at same
      omega
  cases value with
  | notANumber => cases number
  | infinity sign =>
    have top := (plain (Option.some.inj number)).2
    omega
  | zero =>
    have none : (0 : Int) = units := Option.some.inj number
    omega
  | finite sign mantissa exponent positive =>
    obtain ⟨rfl, same⟩ := plain (Option.some.inj number)
    exact ⟨mantissa, exponent, positive, rfl, same⟩

/-- The difference of two finite floats, the first of which is the larger, is rounded at its
place. -/
theorem exists_sub_roundsAt {left right : Float32} {total part : Nat}
    (leftUnits : units? left = some (total : Int)) (rightUnits : units? right = some (part : Int))
    (some : 0 < part) (order : part < total) (finite : total < infinityUnits) :
    ∃ rounded place : Nat, units? (left - right) = Option.some (rounded : Int) ∧
      rounded ≤ total ∧ RoundsAt (total - part) rounded place := by
  have first : IsCanonical left.toModel.unpack := isCanonical_unpack _
  have second : IsCanonical right.toModel.unpack := isCanonical_unpack _
  change ∃ rounded place : Nat, packedUnits? (UnpackedFloat.sub Format.binary32 left.toModel.unpack
    right.toModel.unpack) = Option.some (rounded : Int) ∧ rounded ≤ total ∧
      RoundsAt (total - part) rounded place
  change unpackedUnits? left.toModel.unpack = _ at leftUnits
  change unpackedUnits? right.toModel.unpack = _ at rightUnits
  obtain ⟨mantissa, exponent, positive, same, totals⟩ :=
    exists_finite leftUnits (Nat.lt_trans some order) finite
  obtain ⟨mantissa', exponent', positive', same', parts⟩ :=
    exists_finite rightUnits some (Nat.lt_trans order finite)
  rw [same] at first leftUnits
  rw [same'] at second rightUnits
  rw [same, same']
  have bounded (units : Int) (read : packedUnits? (UnpackedFloat.sub Format.binary32
      (.finite .positive mantissa exponent positive)
      (.finite .positive mantissa' exponent' positive')) = Option.some units) : units ≤ total := by
    cases differs_sub first second leftUnits rightUnits read with
    | rounded rounds =>
      exact rounds.above total (representable_unpackedUnits? first leftUnits) (by omega)
    | infinite top | absorbed _ top => omega
  obtain ⟨place, rfl, _⟩ := first
  obtain ⟨place', rfl, _⟩ := second
  rw [toNat_place] at totals parts
  obtain ⟨least, common⟩ : ∃ least, least = min place place' := ⟨_, rfl⟩
  obtain ⟨count, counts⟩ : ∃ count, count =
    mantissa * 2 ^ (place - least) - mantissa' * 2 ^ (place' - least) := ⟨_, rfl⟩
  have exact : count * 2 ^ least = total - part := by
    rw [counts, Nat.sub_mul, Nat.mul_assoc, Nat.mul_assoc, Nat.pow_sub_mul_pow 2 (by omega),
      Nat.pow_sub_mul_pow 2 (by omega), totals, parts]
  have above : 0 < count := by
    by_contra none
    rw [Nat.eq_zero_of_not_pos none, Nat.zero_mul] at exact
    omega
  have difference : UnpackedFloat.sub Format.binary32
      (.finite .positive mantissa (place - 149) positive)
      (.finite .positive mantissa' (place' - 149) positive') =
      UnpackedFloat.round Format.binary32 .positive count (least - 149) := by
    have signed : ((mantissa <<< (place - least) : Nat) : Int) -
        (mantissa' <<< (place' - least) : Nat) = (count : Int) := by
      rw [Nat.shiftLeft_eq, Nat.shiftLeft_eq]
      omega
    simp only [UnpackedFloat.sub, decreaseExponent]
    rw [show min ((place : Int) - 149) ((place' : Int) - 149) = (least : Int) - 149 by omega,
      show ((place : Int) - 149 - (least - 149)).toNat = place - least by omega,
      show ((place' : Int) - 149 - (least - 149)).toNat = place' - least by omega]
    simp only [Sign.apply]
    rw [signed, UnpackedFloat.normalize, Int.compare_eq_gt.2 (by omega)]
    rfl
  obtain ⟨whole, unit, rounded⟩ :=
    Precision.exists_isRounded_round Format.binary32 .positive above ((least : Int) - 149)
  rw [← Precision.shiftLeft_mul_two_pow count least, exact,
    show (least : Int) - 149 - least = -149 by omega] at rounded
  obtain ⟨units, power, read, rounds⟩ := exists_roundsAt (by omega) rounded
  rw [← difference] at read
  have bound := bounded _ read
  simp only [Sign.apply] at bound
  refine ⟨units, power, ?_, by omega, rounds⟩
  rw [read, Sign.apply, Nat.min_eq_left (by omega)]

section Parts

variable {left right : Float32} {total part : Nat}

/-- What is as large as a positive part has some units, and the part has no more. -/
theorem exists_parts (positive : 0 < right) (order : right ≤ left) : ∃ total part : Nat,
    units? left = some (total : Int) ∧ units? right = some (part : Int) ∧ 0 < part ∧
      part ≤ total ∧ total ≤ infinityUnits := by
  obtain ⟨low, high, lowUnits, highUnits, bound⟩ := le_iff.1 order
  have some : 0 < low := (lt_iff_units units?_zero lowUnits).1 positive
  have most := (representable_units highUnits).le_infinityUnits
  refine ⟨high.toNat, low.toNat, ?_, ?_, by omega, by omega, by omega⟩
  · rw [highUnits, Int.toNat_of_nonneg (by omega)]
  · rw [lowUnits, Int.toNat_of_nonneg (by omega)]

/-- Infinity is the float of so many units. -/
theorem units?_infinity : units? Number.infinity = some (infinityUnits : Int) := by decide +kernel

/-- A finite part taken off infinity leaves infinity. -/
theorem sub_of_infinite (leftUnits : units? left = some (infinityUnits : Int))
    (rightUnits : units? right = some (part : Int)) (some : 0 < part)
    (finite : part < infinityUnits) :
    left - right = left := by
  obtain rfl := eq_of_units leftUnits units?_infinity (by decide +kernel)
  obtain ⟨mantissa, exponent, positive, same, _⟩ := exists_finite rightUnits some finite
  refine eq_of_units ?_ leftUnits (by decide +kernel)
  change packedUnits? (UnpackedFloat.sub Format.binary32 (.infinity .positive)
    right.toModel.unpack) = _
  rw [same]
  exact packedUnits?_canonical trivial

/-- A finite float taken off itself leaves nothing. -/
theorem units?_sub_self (number : units? left = some (total : Int)) (some : 0 < total)
    (finite : total < infinityUnits) : units? (left - left) = Option.some 0 := by
  obtain ⟨mantissa, exponent, positive, same, _⟩ := exists_finite number some finite
  have none : UnpackedFloat.sub Format.binary32 (.finite .positive mantissa exponent positive)
      (.finite .positive mantissa exponent positive) = .zero .positive := by
    simp only [UnpackedFloat.sub, Int.sub_self, UnpackedFloat.normalize]
    rfl
  change packedUnits? (UnpackedFloat.sub Format.binary32 left.toModel.unpack
    left.toModel.unpack) = _
  rw [same, none]
  exact packedUnits?_canonical trivial

/-- What is taken off a finite float leaves a number, and no more than there was. -/
theorem exists_sub_le (leftUnits : units? left = some (total : Int))
    (rightUnits : units? right = some (part : Int)) (some : 0 < part) (order : part ≤ total)
    (finite : total < infinityUnits) :
    ∃ rounded : Nat, units? (left - right) = Option.some (rounded : Int) ∧ rounded ≤ total := by
  rcases Nat.lt_or_eq_of_le order with less | rfl
  · obtain ⟨rounded, _, read, bound, _⟩ :=
      exists_sub_roundsAt leftUnits rightUnits some less finite
    exact ⟨rounded, read, bound⟩
  · obtain rfl := eq_of_units leftUnits rightUnits (by omega)
    exact ⟨0, units?_sub_self leftUnits some finite, Nat.zero_le _⟩

/-- What is taken off a float makes it smaller if the float is no more than `2 ^ 24` times as
large. -/
theorem exists_sub_lt (leftUnits : units? left = some (total : Int))
    (rightUnits : units? right = some (part : Int)) (some : 0 < part) (order : part ≤ total)
    (finite : total < infinityUnits) (near : total ≤ 2 ^ 24 * part) :
    ∃ rounded : Nat, units? (left - right) = Option.some (rounded : Int) ∧ rounded < total := by
  rcases Nat.lt_or_eq_of_le order with less | rfl
  · obtain ⟨rounded, _, read, _, rounds⟩ :=
      exists_sub_roundsAt leftUnits rightUnits some less finite
    exact ⟨rounded, read, rounds.lt_total order some near⟩
  · obtain rfl := eq_of_units leftUnits rightUnits (by omega)
    exact ⟨0, units?_sub_self leftUnits some finite, some⟩

/-- What is taken off a float leaves it as it is if the float is more than `2 ^ 25` times as
large. -/
theorem sub_of_far (leftUnits : units? left = some (total : Int))
    (rightUnits : units? right = some (part : Int)) (some : 0 < part)
    (finite : total < infinityUnits) (far : 2 ^ 25 * part < total) : left - right = left := by
  obtain ⟨rounded, place, read, _, rounds⟩ :=
    exists_sub_roundsAt leftUnits rightUnits some (by omega) finite
  refine eq_of_units (read.trans (congrArg (fun units : Nat => Option.some (units : Int)) ?_))
    leftUnits (by omega)
  cases positive_toBits leftUnits (by omega) with
  | infinity _ all => omega
  | finite _ placed _ exact => exact rounds.eq_total placed.short (Int.ofNat_inj.1 exact) far

end Parts

/-- Taking a positive part off a float that is as large makes it smaller, or leaves it as it is, or
both are infinite. -/
theorem sub_cases {left right : Float32} (positive : 0 < right) (order : right ≤ left) :
    left - right < left ∨ left - right = left ∨
      left = Number.infinity ∧ right = Number.infinity := by
  obtain ⟨total, part, leftUnits, rightUnits, some, less, most⟩ := exists_parts positive order
  rcases Nat.lt_or_eq_of_le most with finite | rfl
  · obtain ⟨rounded, read, bound⟩ := exists_sub_le leftUnits rightUnits some less finite
    rcases Nat.lt_or_eq_of_le bound with smaller | rfl
    · exact .inl ((lt_iff_units read leftUnits).2 (by omega))
    · exact .inr (.inl (eq_of_units read leftUnits (by omega)))
  · rcases Nat.lt_or_eq_of_le less with finite | rfl
    · exact .inr (.inl (sub_of_infinite leftUnits rightUnits some finite))
    · exact .inr (.inr ⟨eq_of_units leftUnits units?_infinity (by omega),
        eq_of_units rightUnits units?_infinity (by omega)⟩)

/-- Infinity taken off infinity leaves no number, which nothing is not above. -/
theorem not_infinity_le_sub : ¬ Number.infinity ≤ Number.infinity - Number.infinity := by
  decide +kernel

end SkillEngine.Single
