import SkillEngine.Dice
import SkillEngine.Proofs.Doubles

/-!
# Chances in double precision

A roll takes its chance to double precision, limits it to the unit interval and tosses a coin with
it. Widening is exact, so the chance stays on its side of zero and of one. Limiting leads into the
unit interval from everywhere but from a NaN, which is on neither side of anything and stays what it
is.
-/

namespace SkillEngine

open Float.Model (Format UnpackedFloat)
open Float.Model.UnpackedFloat

namespace Precision

/-- What a single is read as, and what a double of the same value is read as: a mantissa that begins
with its leading bit. -/
inductive Widens : UnpackedFloat → UnpackedFloat → Prop where
  /-- What is no number stays none. -/
  | notANumber : Widens .notANumber .notANumber
  /-- Infinity keeps its sign. -/
  | infinity (sign : Sign) : Widens (.infinity sign) (.infinity sign)
  /-- Zero keeps its sign. -/
  | zero (sign : Sign) : Widens (.zero sign) (.zero sign)
  /-- All else keeps its sign and its value. -/
  | finite (sign : Sign) {mantissa whole : Nat} {exponent place : Int} {positive : 0 < mantissa}
      {some : 0 < whole} (leads : 2 ^ 52 ≤ whole) (short : whole < 2 ^ 53)
      (same : (whole : ℚ) * 2 ^ place = mantissa * 2 ^ exponent) :
      Widens (.finite sign mantissa exponent positive) (.finite sign whole place some)

/-- A double that is put together is read back if its parts are. -/
theorem unpack_ofBits_pack {value : UnpackedFloat}
    (back : UnpackedFloat.unpack Format.binary64 (UnpackedFloat.pack Format.binary64 value) =
      value) :
    (Float.ofBits ⟨UnpackedFloat.pack Format.binary64 value⟩).toModel.unpack = value := by
  change UnpackedFloat.unpack Format.binary64 (UnpackedFloat.pack Format.binary64
    (UnpackedFloat.unpack Format.binary64 (UnpackedFloat.pack Format.binary64 value))) = value
  rw [back, back]

/-- A finite single is a number of ordinary size. -/
theorem ordinary_single {mantissa : Nat} {exponent : Int} (positive : 0 < mantissa)
    (short : mantissa < 2 ^ 24) (least : -149 ≤ exponent) (most : exponent ≤ 104) :
    Ordinary (mantissa * 2 ^ exponent) := by
  have some : (1 : ℚ) ≤ mantissa := by exact_mod_cast positive
  have few : (mantissa : ℚ) ≤ 2 ^ 24 := by exact_mod_cast Nat.le_of_lt short
  have unit : (0 : ℚ) < 2 ^ exponent := by positivity
  constructor
  · calc (2 : ℚ) ^ (-200 : Int)
      _ ≤ 2 ^ exponent := zpow_le_zpow_right₀ (by norm_num) (by omega)
      _ ≤ mantissa * 2 ^ exponent := le_mul_of_one_le_left (le_of_lt unit) some
  · calc (mantissa : ℚ) * 2 ^ exponent
      _ ≤ 2 ^ 24 * 2 ^ (104 : Int) :=
        mul_le_mul few (zpow_le_zpow_right₀ (by norm_num) most) (le_of_lt unit) (by positivity)
      _ < 2 ^ (250 : Int) := by norm_num

/-- Widening keeps what a float is. -/
theorem widens_widen (value : Float32) :
    Widens value.toModel.unpack (Number.widen value).toModel.unpack := by
  have canonical := Single.isCanonical_unpack value.toBits.toBitVec
  change Widens (UnpackedFloat.unpack Format.binary32 value.toBits.toBitVec) _
  unfold Number.widen
  dsimp only
  generalize UnpackedFloat.unpack Format.binary32 value.toBits.toBitVec = read at canonical
  cases read with
  | notANumber =>
    rw [unpack_ofBits_pack rfl]
    exact .notANumber
  | infinity sign =>
    rw [unpack_ofBits_pack (by cases sign <;> rfl)]
    exact .infinity sign
  | zero sign =>
    rw [unpack_ofBits_pack (by cases sign <;> rfl)]
    exact .zero sign
  | finite sign mantissa exponent positive =>
    obtain ⟨unit, rfl, small, placed⟩ := canonical
    have short : mantissa < 2 ^ 53 := Nat.lt_trans placed.short (by decide)
    have ordinary : Ordinary (mantissa * 2 ^ ((unit : Int) - 149)) :=
      ordinary_single positive placed.short (by omega) (by omega)
    obtain ⟨whole, place, rounded⟩ :=
      exists_isRounded_round Format.binary64 sign positive ((unit : Int) - 149)
    obtain ⟨above, below⟩ := rounded.unit.of_ordinary ordinary
    have leads : 2 ^ 52 ≤ whole := rounded.leads.resolve_left (show place ≠ -1074 by omega)
    have fits : whole ≤ 2 ^ 53 := rounded.fits
    have some : 0 < whole := Nat.lt_of_lt_of_le (by decide) leads
    have least : Format.binary64.minExponent ≤ (unit : Int) - 149 := by
      change (-1074 : Int) ≤ _
      omega
    have same : (whole : ℚ) * 2 ^ place = mantissa * 2 ^ ((unit : Int) - 149) :=
      le_antisymm (rounded.le_of_le short least (le_refl _))
        (rounded.ge_of_ge short least (le_refl _))
    dsimp only
    rcases Nat.lt_or_eq_of_le fits with less | long
    · rw [rounded.finite some less,
        unpack_ofBits_pack (unpack_pack_normal sign some leads less (by omega) (by omega))]
      exact .finite sign leads less same
    · rw [rounded.carried long]
      have back : UnpackedFloat.unpack Format.binary64 (UnpackedFloat.pack Format.binary64
          (.finite sign (2 ^ 52) (place + 1) (Nat.two_pow_pos 52))) = _ :=
        unpack_pack_normal sign (Nat.two_pow_pos 52) (Nat.le_refl _) (by decide) (by omega)
          (by omega)
      change Widens _ (Float.ofBits ⟨UnpackedFloat.pack Format.binary64
        (.finite sign (2 ^ 52) (place + 1) (Nat.two_pow_pos 52))⟩).toModel.unpack
      rw [unpack_ofBits_pack back]
      refine .finite sign (Nat.le_refl _) (by decide) ?_
      rw [← same, long, zpow_add_one₀ (by norm_num : (2 : ℚ) ≠ 0)]
      push_cast
      ring

/-- A double is below another one if they compare so. -/
theorem lt_iff_compare {left right : Float} :
    left < right ↔ left.toModel.unpack.compare right.toModel.unpack = some .lt := by
  change decide (left.toModel < right.toModel) = true ↔ _
  rw [decide_eq_true_eq]
  exact beq_iff_eq

/-- A double is not above another one if they compare so. -/
theorem le_iff_compare {left right : Float} :
    left ≤ right ↔
      (left.toModel.unpack.compare right.toModel.unpack).any (·.isLE) = true := by
  change decide (left.toModel ≤ right.toModel) = true ↔ _
  rw [decide_eq_true_eq]
  rfl

/-- Two floats compare the other way round when they change places. -/
theorem compare_swap (left right : UnpackedFloat) :
    right.compare left = (left.compare right).map Ordering.swap := by
  cases left with
  | notANumber => cases right <;> rfl
  | infinity sign =>
    cases right with
    | notANumber => rfl
    | infinity other => cases sign <;> cases other <;> rfl
    | zero | finite => cases sign <;> rfl
  | zero sign =>
    cases right with
    | notANumber | zero => rfl
    | infinity other | finite other => cases other <;> rfl
  | finite sign mantissa exponent =>
    cases right with
    | notANumber => rfl
    | infinity other => cases other <;> rfl
    | zero => cases sign <;> rfl
    | finite other mantissa' exponent' =>
      have back : (compare exponent' exponent).then (compare mantissa' mantissa) =
          ((compare exponent exponent').then (compare mantissa mantissa')).swap := by
        rw [Ordering.swap_then, Int.compare_swap, Nat.compare_swap]
      cases sign with
      | positive =>
        cases other with
        | positive => exact congrArg some back
        | negative => rfl
      | negative =>
        cases other with
        | positive => rfl
        | negative => exact congrArg (fun order => some order.swap) back

/-- Of two numbers, the one that is not below the other is not below it either way. -/
theorem le_of_not_lt {left right : Float} (first : left.isNaN = false)
    (second : right.isNaN = false) (order : ¬ left < right) : right ≤ left := by
  change left.toModel.unpack.isNaN = false at first
  change right.toModel.unpack.isNaN = false at second
  rw [lt_iff_compare] at order
  rw [le_iff_compare, compare_swap]
  generalize left.toModel.unpack = low at *
  generalize right.toModel.unpack = high at *
  have compares : (low.compare high).isSome := by
    cases low with
    | notANumber => cases first
    | infinity sign =>
      cases high with
      | notANumber => cases second
      | infinity | zero | finite => cases sign <;> rfl
    | zero =>
      cases high with
      | notANumber => cases second
      | zero => rfl
      | infinity other | finite other => cases other <;> rfl
    | finite sign =>
      cases high with
      | notANumber => cases second
      | zero => cases sign <;> rfl
      | infinity other | finite other => cases sign <;> cases other <;> rfl
  obtain ⟨outcome, compared⟩ := Option.isSome_iff_exists.1 compares
  rw [compared] at order ⊢
  cases outcome with
  | lt => exact absurd rfl order
  | eq | gt => rfl

/-- A double that is below another one is not above it. -/
theorem le_of_lt {left right : Float} (order : left < right) : left ≤ right := by
  rw [le_iff_compare, lt_iff_compare.1 order]
  rfl

/-- What is no number is neither below nor above anything, and nothing is below or above it. -/
theorem incomparable_of_isNaN {value : Float} (none : value.isNaN = true) (other : Float) :
    ¬ value < other ∧ ¬ other < value ∧ ¬ other ≤ value := by
  change value.toModel.unpack.isNaN = true at none
  rw [lt_iff_compare, lt_iff_compare, le_iff_compare, compare_swap value.toModel.unpack]
  generalize value.toModel.unpack = read at none
  cases read with
  | notANumber => simp [UnpackedFloat.compare]
  | infinity | zero | finite => cases none

end Precision

namespace Dice

open Precision

/-- The chance of what never happens. -/
def impossible : Float := Float.ofBits 0

/-- The chance of what always happens. -/
def certain : Float := Float.ofBits 0x3ff0000000000000

/-- A chance limited to the unit interval: what is neither below nor above it stays. -/
def limit (chance : Float) : Float :=
  if chance < impossible then impossible else if certain < chance then certain else chance

/-- Tosses a coin that falls with a chance. There is no coin for a chance outside the unit interval,
and a certain one is not tossed. -/
def toss? (dice : Dice) (chance : Float) : Option (Bool × Dice) :=
  if impossible ≤ chance ∧ chance ≤ certain then
    if certain ≤ chance then some (true, dice)
    else some (decide (dice.draw.1.toNat < threshold chance), dice.draw.2)
  else none

/-- One has as many units as bring the least float up to it. -/
theorem units?_one : Single.units? 1 = some (2 ^ 149) := by decide +kernel

variable {chance : Float32}

/-- A chance that is widened is a number if it was one. -/
theorem isNaN_widen (chance : Float32) : (Number.widen chance).isNaN = chance.isNaN := by
  have widens := widens_widen chance
  change (Number.widen chance).toModel.unpack.isNaN = chance.toModel.unpack.isNaN
  generalize chance.toModel.unpack = read at widens
  generalize (Number.widen chance).toModel.unpack = wide at widens
  cases widens <;> rfl

/-- A chance stays on its side of zero. -/
theorem widen_lt_impossible_iff : Number.widen chance < impossible ↔ chance < 0 := by
  have widens := widens_widen chance
  have zero : impossible.toModel.unpack = .zero .positive := rfl
  have single : chance < 0 ↔ chance.toModel.unpack.compare (.zero .positive) = some .lt := by
    change decide (chance.toModel < (0 : Float32).toModel) = true ↔ _
    rw [decide_eq_true_eq]
    exact beq_iff_eq
  rw [lt_iff_compare, zero, single]
  generalize chance.toModel.unpack = read at widens
  generalize (Number.widen chance).toModel.unpack = wide at widens
  cases widens with
  | notANumber | zero => rfl
  | infinity sign | finite sign => cases sign <;> rfl

/-- A mantissa with its leading bit, at a place, is not below one if the place is not below the one
of one. -/
theorem one_le_iff {whole : Nat} (leads : 2 ^ 52 ≤ whole) (short : whole < 2 ^ 53) (place : Int) :
    (1 : ℚ) ≤ whole * 2 ^ place ↔ -52 ≤ place := by
  have two : (2 : ℚ) ≠ 0 := by norm_num
  have scale : (0 : ℚ) < 2 ^ place := by positivity
  have least : (2 : ℚ) ^ 52 ≤ whole := by exact_mod_cast leads
  have most : (whole : ℚ) < 2 ^ 53 := by exact_mod_cast short
  constructor
  · intro large
    by_contra small
    have few : (whole : ℚ) * 2 ^ place < 1 := by
      calc (whole : ℚ) * 2 ^ place
        _ < 2 ^ 53 * 2 ^ place := mul_lt_mul_of_pos_right most scale
        _ ≤ 2 ^ 53 * 2 ^ (-53 : Int) := mul_le_mul_of_nonneg_left
          (zpow_le_zpow_right₀ (by norm_num) (by omega)) (by norm_num)
        _ = 1 := by norm_num
    exact absurd large (not_le.2 few)
  · intro large
    calc (1 : ℚ)
      _ = 2 ^ 52 * 2 ^ (-52 : Int) := by norm_num
      _ ≤ 2 ^ 52 * 2 ^ place := mul_le_mul_of_nonneg_left
        (zpow_le_zpow_right₀ (by norm_num) large) (by norm_num)
      _ ≤ whole * 2 ^ place := mul_le_mul_of_nonneg_right least (le_of_lt scale)

/-- A chance is as certain in the one precision as in the other. -/
theorem certain_le_widen_iff : certain ≤ Number.widen chance ↔ 1 ≤ chance := by
  have widens := widens_widen chance
  have one : certain.toModel.unpack = .finite .positive (2 ^ 52) (-52) (by decide) := rfl
  have canonical := Single.isCanonical_unpack chance.toBits.toBitVec
  have units : Single.units? chance = Single.unpackedUnits? chance.toModel.unpack := rfl
  change Single.IsCanonical chance.toModel.unpack at canonical
  rw [le_iff_compare, one, Single.le_iff, units?_one, units]
  generalize chance.toModel.unpack = read at widens canonical
  generalize (Number.widen chance).toModel.unpack = wide at widens
  cases widens with
  | notANumber => simp [UnpackedFloat.compare, Single.unpackedUnits?]
  | infinity sign =>
    have large : (2 : Int) ^ 149 ≤ Single.infinityUnits := by decide +kernel
    have small : ¬ (2 : Int) ^ 149 ≤ -Single.infinityUnits := by omega
    cases sign
    · simpa [UnpackedFloat.compare, Single.unpackedUnits?, Sign.apply] using small
    · simpa [UnpackedFloat.compare, Single.unpackedUnits?, Sign.apply] using large
  | zero sign => simp [UnpackedFloat.compare, Single.unpackedUnits?]
  | @finite sign mantissa whole exponent place positive some leads short same =>
    obtain ⟨unit, rfl, _, _⟩ := canonical
    simp only [Single.unpackedUnits?, Single.toNat_place]
    cases sign with
    | negative =>
      have small : ¬ (2 : Int) ^ 149 ≤ -(mantissa * 2 ^ unit : Nat) := by
        have above : (0 : Int) < 2 ^ 149 := by decide +kernel
        omega
      simpa [UnpackedFloat.compare, Sign.apply] using small
    | positive =>
      have order : ((compare (-52) place).then (compare (2 ^ 52) whole)).isLE = true ↔
          -52 ≤ place := by
        rcases Int.lt_trichotomy (-52) place with lower | rfl | higher
        · rw [Int.compare_eq_lt.2 lower]
          exact iff_of_true rfl (Int.le_of_lt lower)
        · rw [Int.compare_eq_eq.2 rfl]
          exact iff_of_true (Nat.isLE_compare.2 leads) (Int.le_refl _)
        · rw [Int.compare_eq_gt.2 higher]
          exact iff_of_false Bool.false_ne_true (Int.not_le.2 higher)
      have exact : (1 : ℚ) ≤ whole * 2 ^ place ↔ (2 : Int) ^ 149 ≤ (mantissa * 2 ^ unit : Nat) := by
        have scale : (0 : ℚ) < 2 ^ (149 : Int) := by positivity
        have moved : (2 : ℚ) ^ ((unit : Int) - 149) * 2 ^ (149 : Int) = 2 ^ unit := by
          rw [← zpow_add₀ (by norm_num : (2 : ℚ) ≠ 0), Int.sub_add_cancel, zpow_natCast]
        rw [same, ← mul_le_mul_iff_of_pos_right scale, one_mul, mul_assoc, moved]
        exact_mod_cast Iff.rfl
      have outcome : UnpackedFloat.compare (.finite .positive (2 ^ 52) (-52) (by decide))
          (.finite .positive whole place some) =
            Option.some ((compare (-52) place).then (compare (2 ^ 52) whole)) := rfl
      rw [outcome, Option.any_some, order, ← one_le_iff leads short, exact]
      simp [Sign.apply]

/-- A certain chance is not below zero. -/
theorem not_neg_of_one_le (large : 1 ≤ chance) : ¬ chance < 0 := fun below =>
  Single.not_le_of_lt (Single.lt_of_lt_of_le below (show (0 : Float32) ≤ 1 by decide +kernel)) large

/-- A roll is the toss of a coin that falls with the chance, once that is limited. -/
theorem roll_eq_toss? (dice : Dice) (chance : Float32) :
    dice.roll chance = dice.toss? (limit (Number.widen chance)) := by
  have number := isNaN_widen chance
  have below : Number.widen chance < impossible ↔ chance < 0 := widen_lt_impossible_iff
  have above : certain ≤ Number.widen chance ↔ 1 ≤ chance := certain_le_widen_iff
  have nothing : impossible.isNaN = false := by decide +kernel
  have everything : certain.isNaN = false := by decide +kernel
  have start : impossible ≤ certain := by decide +kernel
  cases isNaN : chance.isNaN with
  | true =>
    rw [isNaN] at number
    obtain ⟨notBelow, notAbove, outside⟩ := incomparable_of_isNaN number impossible
    obtain ⟨_, notOver, _⟩ := incomparable_of_isNaN number certain
    rw [roll, if_pos isNaN, limit, if_neg notBelow, if_neg notOver, toss?,
      if_neg fun inside => outside inside.1]
  | false =>
    rw [isNaN] at number
    have inside (low : ¬ Number.widen chance < impossible)
        (high : ¬ certain < Number.widen chance) :
        impossible ≤ Number.widen chance ∧ Number.widen chance ≤ certain :=
      ⟨le_of_not_lt number nothing low, le_of_not_lt everything number high⟩
    rw [roll, if_neg (isNaN ▸ Bool.false_ne_true)]
    by_cases large : 1 ≤ chance
    · have low : ¬ Number.widen chance < impossible := mt below.1 (not_neg_of_one_le large)
      rw [if_pos large, limit, if_neg low]
      by_cases beyond : certain < Number.widen chance
      · rw [if_pos beyond, toss?, if_pos ⟨start, by decide +kernel⟩, if_pos (by decide +kernel)]
      · rw [if_neg beyond, toss?, if_pos (inside low beyond), if_pos (above.2 large)]
    · rw [if_neg large]
      by_cases negative : chance < 0
      · rw [if_pos negative, limit, if_pos (below.2 negative), toss?,
          if_pos ⟨by decide +kernel, start⟩, if_neg (by decide +kernel)]
        rfl
      · have low := mt below.1 negative
        have high : ¬ certain < Number.widen chance := fun beyond =>
          large (above.1 (Precision.le_of_lt beyond))
        rw [if_neg negative, limit, if_neg low, if_neg high, toss?, if_pos (inside low high),
          if_neg (mt above.1 large)]

/-- A roll has no answer if its chance is no number. -/
theorem roll_eq_none_iff {dice : Dice} : dice.roll chance = none ↔ chance.isNaN = true := by
  rw [roll]
  split
  · next none => exact iff_of_true rfl none
  · next some => split <;> exact iff_of_false nofun some

end Dice

end SkillEngine
