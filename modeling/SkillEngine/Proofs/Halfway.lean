import Mathlib.Tactic.LinearCombination
import SkillEngine.Proofs.Precision

/-!
# Decimals near halfway points

The points halfway between neighbouring singles are whole numbers of halves of the singles' unit. A
decimal whose last place is not below that unit is either such a point exactly, or farther from it
than two roundings to double precision can carry it, with one exception. That is a question about
the ratio of a power of ten to a power of two: how near to it are the fractions with a small
numerator? For each power of two it is decided by the two fractions that enclose the ratio most
narrowly.
-/

namespace SkillEngine.Halfway

/-- Two fractions. -/
structure Bracket where
  /-- The numerator of the smaller one. -/
  lowTop : Nat
  /-- The denominator of the smaller one. -/
  lowBottom : Nat
  /-- The numerator of the larger one. -/
  highTop : Nat
  /-- The denominator of the larger one. -/
  highBottom : Nat

/-- No numerator of a halfway point is larger: that of a power of two is counted in quarters. -/
def largest : Nat := 2 ^ 25 + 2

/-- Fractions with numerators that are not too large, taken towards the ratio `top / bottom` from
both sides: of the two the one that is farther off is moved past mediants for as long as it stays on
its side. -/
def narrowed (top bottom : Nat) : Nat → Bracket → Bracket
  | 0, bracket => bracket
  | count + 1, bracket =>
    if largest < bracket.lowTop + bracket.highTop then bracket
    else
      let below := top * bracket.lowBottom - bottom * bracket.lowTop
      let above := bottom * bracket.highTop - top * bracket.highBottom
      if above ≤ below then
        let most := (largest - bracket.lowTop) / bracket.highTop
        let steps := if above = 0 then most else min (below / above) most
        narrowed top bottom count
          { bracket with
            lowTop := bracket.lowTop + steps * bracket.highTop
            lowBottom := bracket.lowBottom + steps * bracket.highBottom }
      else
        let most := (largest - bracket.highTop) / bracket.lowTop
        let steps := if below = 0 then most else min (above / below) most
        narrowed top bottom count
          { bracket with
            highTop := bracket.highTop + steps * bracket.lowTop
            highBottom := bracket.highBottom + steps * bracket.lowBottom }

/-- The least power of ten that is not below a power of two. -/
def leastTen (power : Int) : Int := -(-power * 30103 / 100000)

/-- The ratio of the least power of ten to half the power of two, as a fraction. -/
def ratio (power : Int) : Nat × Nat :=
  (10 ^ (leastTen power).toNat * 2 ^ (1 - power).toNat,
    2 ^ (power - 1).toNat * 10 ^ (-leastTen power).toNat)

/-- The fractions that enclose the ratio. -/
def enclosing (power : Int) : Bracket :=
  narrowed (ratio power).1 (ratio power).2 40 ⟨0, 1, 1, 0⟩

/-- A decimal and a halfway point that are nearer to each other than two roundings reach. -/
def isException (power : Int) (count whole : Nat) : Bool :=
  power = -107 && count = 7038531 && whole = 22841339

/-- What is found about a power of two: the powers of ten beside it, two neighbouring fractions, and
of each that it is far from the ratio, or is the ratio, or is the exception. -/
def isSettled (power : Int) : Bool :=
  let (top, bottom) := ratio power
  let bracket := enclosing power
  let tens := 10 ^ (leastTen power).toNat * 2 ^ (-power).toNat
  let twos := 2 ^ power.toNat * 10 ^ (-leastTen power).toNat
  twos ≤ tens && 129 * tens < 1280 * twos
    && bracket.highTop * bracket.lowBottom = bracket.lowTop * bracket.highBottom + 1
    && largest < bracket.lowTop + bracket.highTop
    && (bottom * bracket.lowTop * (2 ^ 60 + 2 ^ 8 + 1) < top * bracket.lowBottom * 2 ^ 60
      || bracket.lowBottom ≤ 2 ^ 25 && bottom * bracket.lowTop = top * bracket.lowBottom
        && -22 ≤ leastTen power && leastTen power ≤ 14)
    && (top * bracket.highBottom * (2 ^ 60 + 2 ^ 8 + 1) < bottom * bracket.highTop * 2 ^ 60
      || bracket.highBottom ≤ 2 ^ 25 && (top * bracket.highBottom = bottom * bracket.highTop
          && -22 ≤ leastTen power && leastTen power ≤ 14
        || top * bracket.highBottom ≤ bottom * bracket.highTop
          && isException power bracket.highBottom bracket.highTop
          && largest < 2 * bracket.highTop))

/-- Every unit of a single is settled. -/
theorem isSettled_of_unit : ∀ place : Nat, place < 254 →
    isSettled ((place : Int) - 149) = true := by
  decide +kernel

section Fractions

variable {lowTop lowBottom highTop highBottom count whole top bottom : Nat}

/-- No fraction with a smaller numerator than theirs together stands between two neighbours. -/
theorem beside (neighbours : highTop * lowBottom = lowTop * highBottom + 1)
    (small : whole < lowTop + highTop) :
    whole * lowBottom ≤ lowTop * count ∨ highTop * count ≤ whole * highBottom := by
  by_contra between
  obtain ⟨above, below⟩ := not_or.1 between
  obtain ⟨first, firsts⟩ := Nat.exists_eq_add_of_lt (Nat.lt_of_not_le above)
  obtain ⟨second, seconds⟩ := Nat.exists_eq_add_of_lt (Nat.lt_of_not_le below)
  -- The numerator is made up of theirs, each taken at least once.
  have mediant : lowTop * (second + 1) + highTop * (first + 1) = whole := by
    zify at neighbours firsts seconds ⊢
    linear_combination (-(lowTop : Int)) * seconds - highTop * firsts + whole * neighbours
  have least : lowTop + highTop ≤ lowTop * (second + 1) + highTop * (first + 1) :=
    Nat.add_le_add (Nat.le_mul_of_pos_right _ (Nat.succ_pos _))
      (Nat.le_mul_of_pos_right _ (Nat.succ_pos _))
  omega

/-- What is not on the near side of a fraction that is far from the ratio is far from it. -/
theorem far_of_far (positive : 0 < count) (far : bottom * lowTop * (2 ^ 60 + 2 ^ 8 + 1) <
      top * lowBottom * 2 ^ 60) (below : whole * lowBottom ≤ lowTop * count) :
    whole * bottom * (2 ^ 60 + 2 ^ 8 + 1) < count * top * 2 ^ 60 := by
  have scaled := Nat.mul_lt_mul_of_pos_left far positive
  have order := Nat.mul_le_mul_right (bottom * (2 ^ 60 + 2 ^ 8 + 1)) below
  refine Nat.lt_of_mul_lt_mul_right (a := lowBottom) ?_
  calc whole * bottom * (2 ^ 60 + 2 ^ 8 + 1) * lowBottom
    _ = whole * lowBottom * (bottom * (2 ^ 60 + 2 ^ 8 + 1)) := by ring
    _ ≤ lowTop * count * (bottom * (2 ^ 60 + 2 ^ 8 + 1)) := order
    _ = count * (bottom * lowTop * (2 ^ 60 + 2 ^ 8 + 1)) := by ring
    _ < count * (top * lowBottom * 2 ^ 60) := scaled
    _ = count * top * 2 ^ 60 * lowBottom := by ring

/-- Numbers that are not too large and differ by a unit are far from each other. -/
theorem far_of_step {less more unit : Nat} (positive : 0 < unit) (step : less + unit ≤ more)
    (small : less ≤ 2 ^ 51 * unit) : less * (2 ^ 60 + 2 ^ 8 + 1) < more * 2 ^ 60 := by
  omega

/-- What is below a fraction with a small denominator that is not above the ratio is far below. -/
theorem far_below (positive : 0 < bottom) (order : bottom * lowTop ≤ top * lowBottom)
    (short : lowBottom ≤ 2 ^ 25) (small : whole ≤ largest)
    (below : whole * lowBottom < lowTop * count) :
    whole * bottom * (2 ^ 60 + 2 ^ 8 + 1) < count * top * 2 ^ 60 := by
  have fits : whole * lowBottom ≤ 2 ^ 26 * 2 ^ 25 :=
    Nat.mul_le_mul (Nat.le_trans small (by decide)) short
  have step : whole * lowBottom * bottom + bottom ≤ count * top * lowBottom := by
    calc whole * lowBottom * bottom + bottom
      _ = (whole * lowBottom + 1) * bottom := by ring
      _ ≤ lowTop * count * bottom := Nat.mul_le_mul_right _ below
      _ = count * (bottom * lowTop) := by ring
      _ ≤ count * (top * lowBottom) := Nat.mul_le_mul_left _ order
      _ = count * top * lowBottom := by ring
  have far := far_of_step positive step (Nat.mul_le_mul_right _ fits)
  refine Nat.lt_of_mul_lt_mul_right (a := lowBottom) ?_
  linarith

/-- What is above a fraction with a small denominator that is not below the ratio is far above. -/
theorem far_above (positive : 0 < bottom) (order : top * highBottom ≤ bottom * highTop)
    (short : highBottom ≤ 2 ^ 25) (small : whole ≤ largest)
    (above : count * highTop < highBottom * whole) :
    count * top * (2 ^ 60 + 2 ^ 8 + 1) < whole * bottom * 2 ^ 60 := by
  have fits : highBottom * whole ≤ 2 ^ 25 * 2 ^ 26 :=
    Nat.mul_le_mul short (Nat.le_trans small (by decide))
  have step : count * top * highBottom + bottom ≤ highBottom * whole * bottom := by
    calc count * top * highBottom + bottom
      _ = count * (top * highBottom) + bottom := by ring
      _ ≤ count * (bottom * highTop) + bottom :=
        Nat.add_le_add_right (Nat.mul_le_mul_left _ order) _
      _ = (count * highTop + 1) * bottom := by ring
      _ ≤ highBottom * whole * bottom := Nat.mul_le_mul_right _ above
  have less : count * top * highBottom ≤ 2 ^ 51 * bottom :=
    Nat.le_trans (Nat.le_of_add_right_le step) (Nat.mul_le_mul_right _ fits)
  have far := far_of_step positive step less
  refine Nat.lt_of_mul_lt_mul_right (a := highBottom) ?_
  linarith

/-- Fractions that are equal to the ratio make equal products. -/
theorem eq_of_ratio (positive : 0 < lowBottom) (same : bottom * lowTop = top * lowBottom)
    (equal : whole * lowBottom = lowTop * count) : whole * bottom = count * top := by
  refine Nat.eq_of_mul_eq_mul_right positive ?_
  calc whole * bottom * lowBottom
    _ = whole * lowBottom * bottom := by ring
    _ = lowTop * count * bottom := by rw [equal]
    _ = count * (bottom * lowTop) := by ring
    _ = count * top * lowBottom := by rw [same]; ring

/-- A fraction that is equal to one of two neighbours, and whose numerator is less than twice that
one's, is that one. -/
theorem eq_of_neighbour (neighbours : highTop * lowBottom = lowTop * highBottom + 1)
    (positive : 0 < whole) (small : whole < 2 * highTop)
    (equal : count * highTop = highBottom * whole) : whole = highTop ∧ count = highBottom := by
  obtain ⟨factor, rfl⟩ : highTop ∣ whole := by
    refine Int.natCast_dvd_natCast.1 ⟨whole * lowBottom - lowTop * count, ?_⟩
    zify at neighbours equal
    linear_combination (-(whole : Int)) * neighbours + lowTop * equal
  have one : factor = 1 := by
    have some : factor ≠ 0 := by rintro rfl; omega
    by_contra more
    have two : 2 ≤ factor := by omega
    have twice := Nat.mul_le_mul_left highTop two
    omega
  subst one
  rw [Nat.mul_one] at equal positive ⊢
  exact ⟨rfl, Nat.eq_of_mul_eq_mul_right positive equal⟩

end Fractions

/-- What a ratio of powers is multiplied by to make it a fraction. -/
def scale (power : Int) : ℚ := 2 ^ (1 - power).toNat * 10 ^ (-leastTen power).toNat

/-- The scale is positive. -/
theorem scale_pos (power : Int) : 0 < scale power := by
  unfold scale
  positivity

/-- The ratio has the least power of ten above. -/
theorem ratio_top (power : Int) : ((ratio power).1 : ℚ) = 10 ^ leastTen power * scale power := by
  have ten : (10 : ℚ) ≠ 0 := by norm_num
  have whole := Precision.zpow_mul_pow ten (leastTen power)
  simp only [ratio, scale]
  push_cast
  rw [← whole]
  ring

/-- The ratio has half the power of two below. -/
theorem ratio_bottom (power : Int) : ((ratio power).2 : ℚ) = 2 ^ (power - 1) * scale power := by
  have two : (2 : ℚ) ≠ 0 := by norm_num
  have whole := Precision.zpow_mul_pow two (power - 1)
  rw [neg_sub] at whole
  simp only [ratio, scale]
  push_cast
  rw [← whole]
  ring

/-- The numbers of a decimal and of a halfway point are scaled by the same. -/
theorem lt_of_scaled {power : Int} {less more : ℚ} {low high : Nat}
    (lows : (low : ℚ) = less * scale power) (highs : (high : ℚ) = more * scale power)
    (far : low * (2 ^ 60 + 2 ^ 8 + 1) < high * 2 ^ 60) :
    less * (2 ^ 60 + 2 ^ 8 + 1) < more * 2 ^ 60 := by
  have cast : (low : ℚ) * (2 ^ 60 + 2 ^ 8 + 1) < high * 2 ^ 60 := by exact_mod_cast far
  rw [lows, highs] at cast
  have scaled := scale_pos power
  refine lt_of_mul_lt_mul_right (a := scale power) ?_ (le_of_lt scaled)
  linarith

/-- How a decimal and a halfway point stand to each other. -/
inductive Stands (power place : Int) (count whole : Nat) : Prop where
  /-- They are the same, and the decimal's place is small. -/
  | same (equal : (count : ℚ) * 10 ^ place = whole * 2 ^ (power - 1)) (low : -22 ≤ place)
      (high : place ≤ 22) : Stands power place count whole
  /-- The decimal is far above. -/
  | above (far : (whole : ℚ) * 2 ^ (power - 1) * (2 ^ 60 + 2 ^ 8 + 1) <
      count * 10 ^ place * 2 ^ 60) : Stands power place count whole
  /-- The decimal is far below. -/
  | below (far : (count : ℚ) * 10 ^ place * (2 ^ 60 + 2 ^ 8 + 1) <
      whole * 2 ^ (power - 1) * 2 ^ 60) : Stands power place count whole
  /-- They are the exception. -/
  | exception (unit : power = -107) (last : place = -32) (digits : count = 7038531)
      (point : whole = 22841339) : Stands power place count whole

/-- The powers of ten beside a power of two that is settled. -/
theorem tens_of_isSettled {power : Int} (settled : isSettled power = true) :
    (2 : ℚ) ^ power ≤ 10 ^ leastTen power ∧ 129 * (10 : ℚ) ^ leastTen power < 1280 * 2 ^ power := by
  have two : (2 : ℚ) ≠ 0 := by norm_num
  have ten : (10 : ℚ) ≠ 0 := by norm_num
  have twos := Precision.zpow_mul_pow two power
  have tens := Precision.zpow_mul_pow ten (leastTen power)
  have factor : (0 : ℚ) < 2 ^ (-power).toNat * 10 ^ (-leastTen power).toNat := by positivity
  simp only [isSettled, Bool.and_eq_true, decide_eq_true_eq] at settled
  obtain ⟨⟨⟨⟨⟨least, next⟩, _⟩, _⟩, _⟩, _⟩ := settled
  have leasts : (2 : ℚ) ^ power.toNat * 10 ^ (-leastTen power).toNat ≤
      10 ^ (leastTen power).toNat * 2 ^ (-power).toNat := by exact_mod_cast least
  have nexts : 129 * ((10 : ℚ) ^ (leastTen power).toNat * 2 ^ (-power).toNat) <
      1280 * (2 ^ power.toNat * 10 ^ (-leastTen power).toNat) := by exact_mod_cast next
  rw [← twos, ← tens] at leasts nexts
  constructor
  · refine le_of_mul_le_mul_right ?_ factor
    linarith
  · refine lt_of_mul_lt_mul_right ?_ (le_of_lt factor)
    linarith

/-- A power of ten that is not much below a power of two is the least such or larger. -/
theorem leastTen_le {power place : Int} (settled : isSettled power = true)
    (coarse : (2 : ℚ) ^ power * (1 - 1 / 2 ^ 10) ≤ 10 ^ place) : leastTen power ≤ place := by
  by_contra lower
  have next := (tens_of_isSettled settled).2
  have step : (10 : ℚ) ^ place * 10 ≤ 10 ^ leastTen power := by
    rw [← zpow_add_one₀ (by norm_num : (10 : ℚ) ≠ 0)]
    exact zpow_le_zpow_right₀ (by norm_num) (by omega)
  have positive : (0 : ℚ) < 2 ^ power := by positivity
  linarith

/-- How a decimal, counted in the least power of ten, and a halfway point stand to each other. -/
inductive Compares (power : Int) (count whole : Nat) : Prop where
  /-- They are the same. -/
  | same (equal : whole * (ratio power).2 = count * (ratio power).1) (low : -22 ≤ leastTen power)
      (high : leastTen power ≤ 14) : Compares power count whole
  /-- The decimal is far above. -/
  | above (far : whole * (ratio power).2 * (2 ^ 60 + 2 ^ 8 + 1) <
      count * (ratio power).1 * 2 ^ 60) : Compares power count whole
  /-- The decimal is far below. -/
  | below (far : count * (ratio power).1 * (2 ^ 60 + 2 ^ 8 + 1) <
      whole * (ratio power).2 * 2 ^ 60) : Compares power count whole
  /-- They are the exception. -/
  | exception (found : isException power count whole = true) : Compares power count whole

/-- What was found about a power of two settles every decimal and halfway point. -/
theorem compares_of_isSettled {power : Int} (settled : isSettled power = true) {count whole : Nat}
    (counted : 0 < count) (some : 0 < whole) (fits : whole ≤ largest) :
    Compares power count whole := by
  simp only [isSettled, Bool.and_eq_true, Bool.or_eq_true, decide_eq_true_eq] at settled
  obtain ⟨⟨⟨⟨_, neighbours⟩, exceeds⟩, lower⟩, upper⟩ := settled
  have product : 0 < (enclosing power).highTop * (enclosing power).lowBottom := by omega
  have beneath := Nat.pos_of_mul_pos_left product
  have topped := Nat.pos_of_mul_pos_right product
  have bottomed : 0 < (ratio power).2 := Nat.mul_pos (Nat.two_pow_pos _) (Nat.pow_pos (by decide))
  rcases beside neighbours (Nat.lt_of_le_of_lt fits exceeds) with low | high
  · rcases lower with far | ⟨⟨⟨short, ratios⟩, least⟩, most⟩
    · exact .above (far_of_far counted far low)
    · rcases Nat.lt_or_eq_of_le low with less | equal
      · exact .above (far_below bottomed (Nat.le_of_eq ratios) short fits less)
      · exact .same (eq_of_ratio beneath ratios equal) least most
  · rw [Nat.mul_comm, Nat.mul_comm whole] at high
    rcases upper with far | ⟨short, ⟨⟨ratios, least⟩, most⟩ | ⟨⟨ratios, found⟩, double⟩⟩
    · exact .below (far_of_far some far high)
    · rcases Nat.lt_or_eq_of_le high with less | equal
      · exact .below (far_above bottomed (Nat.le_of_eq ratios) short fits less)
      · exact .same (eq_of_ratio topped ratios equal).symm least most
    · rcases Nat.lt_or_eq_of_le high with less | equal
      · exact .below (far_above bottomed ratios short fits less)
      · obtain ⟨rfl, rfl⟩ := eq_of_neighbour neighbours some (Nat.lt_of_le_of_lt fits double) equal
        exact .exception found

/-- A halfway point is not large, and a decimal that is the same is not smaller than one of its last
place. -/
theorem place_lt_of_same {power : Int} (settled : isSettled power = true) {place : Int}
    {count whole : Nat} (positive : 0 < count) (fits : whole ≤ largest)
    (equal : (count : ℚ) * 10 ^ place = whole * 2 ^ (power - 1)) : place < leastTen power + 8 := by
  have least : (1 : ℚ) ≤ count := by exact_mod_cast positive
  have most : (whole : ℚ) ≤ 2 ^ 26 := by exact_mod_cast Nat.le_trans fits (by decide)
  have half := Precision.two_zpow_eq power
  have twos : (0 : ℚ) < 2 ^ (power - 1) := by positivity
  have tens : (0 : ℚ) < 10 ^ place := by positivity
  have bound : (10 : ℚ) ^ place < 10 ^ (leastTen power + 8) := by
    rw [zpow_add₀ (by norm_num : (10 : ℚ) ≠ 0)]
    have point := mul_le_mul_of_nonneg_right most (le_of_lt twos)
    have one := mul_le_mul_of_nonneg_right least (le_of_lt tens)
    have power := (tens_of_isSettled settled).1
    norm_num
    linarith
  exact (zpow_lt_zpow_iff_right₀ (by norm_num : (1 : ℚ) < 10)).1 bound

/-- A decimal whose last place is not below the unit is a halfway point, or far from it, or the
exception. -/
theorem stands_of_coarse {unit : Nat} (few : unit < 254) {power : Int} (least : power = unit - 149)
    {place : Int} {count whole : Nat} (positive : 0 < count) (some : 0 < whole)
    (fits : whole ≤ largest) (coarse : (2 : ℚ) ^ power * (1 - 1 / 2 ^ 10) ≤ 10 ^ place) :
    Stands power place count whole := by
  have settled : isSettled power = true := least ▸ isSettled_of_unit unit few
  have order := leastTen_le settled coarse
  obtain ⟨steps, finer⟩ : ∃ steps : Nat, (steps : Int) = place - leastTen power :=
    ⟨_, Int.toNat_of_nonneg (by omega)⟩
  have decimal : ((count * 10 ^ steps * (ratio power).1 : Nat) : ℚ) =
      count * 10 ^ place * scale power := by
    have tens : (10 : ℚ) ^ place = 10 ^ steps * 10 ^ leastTen power := by
      rw [← zpow_natCast, ← zpow_add₀ (by norm_num : (10 : ℚ) ≠ 0)]
      congr 1
      omega
    push_cast
    rw [ratio_top, tens]
    ring
  have point : ((whole * (ratio power).2 : Nat) : ℚ) = whole * 2 ^ (power - 1) * scale power := by
    push_cast
    rw [ratio_bottom]
    ring
  have counted : 0 < count * 10 ^ steps := Nat.mul_pos positive (Nat.pow_pos (by decide))
  cases compares_of_isSettled settled counted some fits with
  | same equal low high =>
    have cast : (whole : ℚ) * 2 ^ (power - 1) * scale power = count * 10 ^ place * scale power := by
      rw [← point, ← decimal, equal]
    have equals : (count : ℚ) * 10 ^ place = whole * 2 ^ (power - 1) :=
      (mul_right_cancel₀ (ne_of_gt (scale_pos power)) cast).symm
    have small := place_lt_of_same settled positive fits equals
    exact .same equals (by omega) (by omega)
  | above far => exact .above (lt_of_scaled point decimal far)
  | below far => exact .below (lt_of_scaled decimal point far)
  | exception found =>
    simp only [isException, Bool.and_eq_true, decide_eq_true_eq] at found
    obtain ⟨⟨unit, digits⟩, last⟩ := found
    -- The exception's digits do not end in a zero.
    have none : steps = 0 := by
      by_contra more
      obtain ⟨less, rfl⟩ := Nat.exists_eq_succ_of_ne_zero more
      rw [Nat.pow_succ, ← Nat.mul_assoc] at digits
      omega
    subst none
    have place : leastTen (-107) = -32 := by decide
    rw [unit, place] at finer
    exact .exception unit (by omega) (by omega) last

end SkillEngine.Halfway
