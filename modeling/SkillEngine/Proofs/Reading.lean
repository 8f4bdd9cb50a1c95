import SkillEngine.Proofs.Doubles
import SkillEngine.Proofs.Shortest

/-!
# Reading the shortest decimal of a single

The shortest decimal of a single is read as a double that rounds to that single. Were the decimal
near an end of the interval that rounds to it, its last place could not be below the single's unit,
and then it is an end itself or is farther away than the double is from it.
-/

namespace SkillEngine.Number.Significand

open Halfway (Stands stands_of_coarse)
open Precision (Reads Approximates)

variable {float : Significand}

/-- The ends of the numbers that round to a single are halfway points. -/
structure Ends (float : Significand) (power : Int) (low high : Nat) : Prop where
  /-- The lower end. -/
  lowEnd : float.lowEnd = low * 2 ^ (power - 1)
  /-- The upper end. -/
  highEnd : float.highEnd = high * 2 ^ (power - 1)
  /-- The single is half a unit above the lower one. -/
  below : float.value = float.lowEnd + 2 ^ (power - 1)
  /-- It is no less below the upper one. -/
  above : float.value + 2 ^ (power - 1) ≤ float.highEnd
  /-- It is no less than a unit itself. -/
  large : 2 * 2 ^ (power - 1) ≤ float.value
  /-- The lower end is not zero. -/
  positive : 0 < low
  /-- The upper one is above it. -/
  order : low < high
  /-- It is not too large. -/
  fits : high ≤ Halfway.largest

/-- A single is halfway between its ends, or nearer to the lower one. -/
theorem IsSingle.exists_ends {place : Nat} (single : float.IsSingle place) :
    ∃ (unit : Nat) (power : Int) (low high : Nat), unit < 254 ∧ power = unit - 149 ∧
      float.Ends power low high := by
  have exponent := single.exponent
  have few := single.few
  have some := single.positive
  have short := single.placed.short
  have double : (2 : ℚ) ^ (float.exponent - 1) = 2 * 2 ^ (float.exponent - 2) := by
    rw [Precision.two_zpow_eq, sub_sub, one_add_one_eq_two]
  have unit : (0 : ℚ) < 2 ^ (float.exponent - 2) := by positivity
  have units : (1 : ℚ) ≤ float.units := by exact_mod_cast some
  have large : 4 * 2 ^ (float.exponent - 2) ≤ float.value := by
    rw [value_eq]
    push_cast
    nlinarith
  cases narrow : float.narrowBelow with
  | true =>
    obtain ⟨begins, above⟩ := single.narrow.1 narrow
    have quarters : float.lowQuarters + 1 = 4 * float.units := by
      rw [lowQuarters, narrow, if_pos rfl]
      omega
    have quarter : (float.lowQuarters : ℚ) + 1 = (4 * float.units : Nat) := by
      exact_mod_cast quarters
    refine ⟨place - 1, float.exponent - 1, float.lowQuarters, 4 * float.units + 2, by omega,
      by omega, ?_, ?_, ?_, ?_, ?_, by omega, by omega, by rw [begins]; decide⟩
    all_goals rw [show float.exponent - 1 - 1 = float.exponent - 2 by omega]
    · rfl
    · rfl
    · rw [value_eq, ← quarter, lowEnd]
      ring
    · rw [value_eq, highEnd]
      push_cast
      linarith
    · linarith
  | false =>
    have quarters : float.lowQuarters + 2 = 4 * float.units := by
      rw [lowQuarters, narrow, if_neg Bool.false_ne_true]
      omega
    have quarter : (float.lowQuarters : ℚ) + 2 = (4 * float.units : Nat) := by
      exact_mod_cast quarters
    refine ⟨place, float.exponent, 2 * float.units - 1, 2 * float.units + 1, few, exponent,
      ?_, ?_, ?_, ?_, ?_, by omega, by omega, ?_⟩
    · have halves : ((2 * float.units - 1 : Nat) : ℚ) * 2 = float.lowQuarters := by
        have whole : (2 * float.units - 1) * 2 = float.lowQuarters := by omega
        exact_mod_cast whole
      rw [lowEnd, ← halves, double]
      ring
    · rw [highEnd, double]
      push_cast
      ring
    · rw [value_eq, ← quarter, lowEnd, double]
      ring
    · rw [value_eq, highEnd, double]
      push_cast
      linarith
    · rw [double]
      linarith
    · show 2 * float.units + 1 ≤ 2 ^ 25 + 2
      omega

section Near

variable {power : Int} {low high digits : Nat} {place : Int}

/-- Near an end the step of the grid is not much less than the unit. -/
theorem Ends.coarse (ends : float.Ends power low high) (taken : float.Taken digits place)
    (near : (digits : ℚ) * 10 ^ place ≤ float.lowEnd + 2 ^ (power - 1) / 2 ^ 10 ∨
      float.highEnd - 2 ^ (power - 1) / 2 ^ 10 ≤ digits * 10 ^ place) :
    (2 : ℚ) ^ power * (1 - 1 / 2 ^ 10) ≤ 10 ^ place := by
  have half : (0 : ℚ) < 2 ^ (power - 1) := by positivity
  have unit := Precision.two_zpow_eq power
  obtain ⟨_, _, below, above, large, _, _, _⟩ := ends
  rcases near with low | high
  · rcases taken.before (by linarith) with beyond | nearer <;> linarith
  · rcases taken.after (by linarith) with zero | beyond | nearer <;> linarith

/-- What is neither far above nor far below a point is near to it. -/
theorem near_of_not_far {exact half : ℚ} {whole : Nat} (positive : 0 < half)
    (small : whole ≤ Halfway.largest)
    (above : ¬ (whole : ℚ) * half * (2 ^ 60 + 2 ^ 8 + 1) < exact * 2 ^ 60)
    (below : ¬ exact * (2 ^ 60 + 2 ^ 8 + 1) < whole * half * 2 ^ 60) :
    exact ≤ whole * half + half / 2 ^ 10 ∧ whole * half - half / 2 ^ 10 ≤ exact := by
  have fits : (whole : ℚ) ≤ 2 ^ 26 := by exact_mod_cast Nat.le_trans small (by decide)
  have bound := mul_le_mul_of_nonneg_right fits (le_of_lt positive)
  rw [not_lt] at above below
  constructor <;> linarith

/-- A decimal stands to a point as decimals stand to halfway points, if its place is not small
where the point is near. -/
theorem stands_of_near {unit whole : Nat} (few : unit < 254) (least : power = unit - 149)
    (positive : 0 < digits) (some : 0 < whole) (fits : whole ≤ Halfway.largest)
    (coarse : (digits : ℚ) * 10 ^ place ≤ whole * 2 ^ (power - 1) + 2 ^ (power - 1) / 2 ^ 10 →
      (whole : ℚ) * 2 ^ (power - 1) - 2 ^ (power - 1) / 2 ^ 10 ≤ digits * 10 ^ place →
      (2 : ℚ) ^ power * (1 - 1 / 2 ^ 10) ≤ 10 ^ place) : Stands power place digits whole := by
  by_cases above : (whole : ℚ) * 2 ^ (power - 1) * (2 ^ 60 + 2 ^ 8 + 1) <
      digits * 10 ^ place * 2 ^ 60
  · exact .above above
  by_cases below : (digits : ℚ) * 10 ^ place * (2 ^ 60 + 2 ^ 8 + 1) <
      whole * 2 ^ (power - 1) * 2 ^ 60
  · exact .below below
  obtain ⟨low, high⟩ := near_of_not_far (by positivity) fits above below
  exact stands_of_coarse few least positive some fits (coarse low high)

/-- The decimal that is taken for a single stands to both ends as decimals stand to halfway
points. -/
theorem Ends.stands (ends : float.Ends power low high) {unit : Nat} (few : unit < 254)
    (least : power = unit - 149) (taken : float.Taken digits place) :
    Stands power place digits low ∧ Stands power place digits high := by
  have positive := ends.positive
  have order := ends.order
  have fits := ends.fits
  constructor
  · refine stands_of_near few least taken.positive positive (by omega) fun near _ => ?_
    exact ends.coarse taken (.inl (ends.lowEnd ▸ near))
  · refine stands_of_near few least taken.positive (by omega) fits fun _ near => ?_
    exact ends.coarse taken (.inr (ends.highEnd ▸ near))

end Near

/-- A check that the exception is read as a double below its halfway point. -/
def isBelowException : Bool :=
  match Numeral.scaled 7038531 (-32) with
  | some value =>
    match value.toModel.unpack with
    | .finite .positive mantissa exponent _ =>
      exponent ≤ -108 && mantissa < 22841339 * 2 ^ (-108 - exponent).toNat
    | _ => false
  | none => false

/-- The exception is read as a double below its halfway point, checked. -/
theorem isBelowException_eq : isBelowException = true := by
  decide +kernel

/-- A double that the exception is read as is below the halfway point. -/
theorem reads_exception {value : Float} {near : ℚ}
    (scaled : Numeral.scaled 7038531 (-32) = some value) (reads : Reads value near) :
    near < 22841339 * 2 ^ (-108 : Int) := by
  have checked := isBelowException_eq
  obtain ⟨mantissa, exponent, positive, unpacks, _, _, rfl⟩ := reads.unpacks
  unfold isBelowException at checked
  rw [scaled] at checked
  dsimp only at checked
  rw [unpacks] at checked
  dsimp only at checked
  rw [Bool.and_eq_true, decide_eq_true_eq, decide_eq_true_eq] at checked
  obtain ⟨least, less⟩ := checked
  have unit : (0 : ℚ) < 2 ^ exponent := by positivity
  have split : (2 : ℚ) ^ (-108 : Int) = 2 ^ (-108 - exponent).toNat * 2 ^ exponent := by
    rw [← zpow_natCast, ← zpow_add₀ (by norm_num : (2 : ℚ) ≠ 0)]
    congr 1
    omega
  rw [split, ← mul_assoc]
  refine mul_lt_mul_of_pos_right ?_ unit
  exact_mod_cast less

/-- What an exact number is read as is on the same side of a point. -/
structure SameSide (near exact point : ℚ) : Prop where
  /-- Both are below. -/
  below : exact < point → near < point
  /-- Both are above. -/
  above : point < exact → point < near
  /-- Both are the point. -/
  equal : exact = point → near = point

/-- A double near to a decimal is on the side of a halfway point that the decimal is on. -/
theorem sameSide_of_stands {power place place' : Int} {digits whole : Nat} {near : ℚ}
    (stands : Stands power place digits whole) (least : -149 ≤ power)
    (fits : whole ≤ Halfway.largest)
    (approximates : Approximates near (digits * 10 ^ place) place')
    (exactly : -22 ≤ place → place ≤ 22 → -22 ≤ place' ∧ place' ≤ 22)
    (exception : place = -32 → digits = 7038531 → near < 22841339 * 2 ^ (-108 : Int)) :
    SameSide near (digits * 10 ^ place) (whole * 2 ^ (power - 1)) := by
  have positive : (0 : ℚ) ≤ digits * 10 ^ place := by positivity
  have points : (0 : ℚ) ≤ whole * 2 ^ (power - 1) := by positivity
  have error := approximates.error
  obtain ⟨low, high⟩ := abs_le.1 (le_refl |near - digits * 10 ^ place|)
  cases stands with
  | same equal low high =>
    have follows := approximates.follows (exactly low high).1 (exactly low high).2
    have short : whole < 2 ^ 53 := Nat.lt_of_le_of_lt fits (by decide)
    rw [equal] at follows ⊢
    have same := follows.eq_of_fits short (by omega)
    exact ⟨fun less => absurd less (lt_irrefl _), fun more => absurd more (lt_irrefl _),
      fun _ => same⟩
  | above far =>
    have side : (whole : ℚ) * 2 ^ (power - 1) < near := by linarith
    exact ⟨fun less => by linarith, fun _ => side, fun same => by linarith⟩
  | below far =>
    have side : near < (whole : ℚ) * 2 ^ (power - 1) := by linarith
    exact ⟨fun _ => side, fun more => by linarith, fun same => by linarith⟩
  | exception unit last count point =>
    have side := exception last count
    have less : (7038531 : ℚ) * 10 ^ (-32 : Int) < 22841339 * 2 ^ (-108 : Int) := by norm_num
    subst unit last count point
    push_cast
    exact ⟨fun _ => side, fun more => absurd more (not_lt.2 (le_of_lt less)),
      fun same => absurd same (ne_of_lt less)⟩

/-- What is on the same side of both ends as a number that rounds to a float rounds to it too. -/
theorem Within.of_sameSide {near exact : ℚ} (within : float.Within exact)
    (low : SameSide near exact float.lowEnd) (high : SameSide near exact float.highEnd) :
    float.Within near := by
  refine ⟨?_, ?_, ?_⟩
  · rcases lt_or_eq_of_le within.low with more | same
    · exact le_of_lt (low.above more)
    · exact le_of_eq (low.equal same.symm).symm
  · rcases lt_or_eq_of_le within.high with less | same
    · exact le_of_lt (high.below less)
    · exact le_of_eq (high.equal same)
  · rintro (least | most)
    · refine within.ends (.inl ?_)
      rcases lt_or_eq_of_le within.low with more | same
      · exact absurd least (ne_of_gt (low.above more))
      · exact same.symm
    · refine within.ends (.inr ?_)
      rcases lt_or_eq_of_le within.high with less | same
      · exact absurd most (ne_of_lt (high.below less))
      · exact same

/-- The digits of a decimal at its place, or in full with one more zero behind the point. -/
inductive Spells (digits : Nat) (place : Int) : Nat → Int → Prop where
  /-- They are written at their place. -/
  | placed : Spells digits place digits place
  /-- They are written in full. -/
  | full (count power : Nat) (whole : place = power) (same : count = digits * 10 ^ power * 10) :
      Spells digits place count (-1)

/-- The shortest decimal of a single is read as a double that rounds to it. -/
theorem IsSingle.exists_reads {place : Nat} (single : float.IsSingle place) {digits : Nat}
    {last : Int} (taken : float.Taken digits last) (low : -46 ≤ last) (high : last ≤ 40)
    {count : Nat} {power : Int} (spells : Spells digits last count power)
    (short : count < 2 ^ 53) :
    ∃ value near, Numeral.scaled count power = some value ∧ Reads value near ∧
      float.Within near := by
  have positive := taken.positive
  have same : (count : ℚ) * 10 ^ power = digits * 10 ^ last := by
    cases spells with
    | placed => rfl
    | full _ tens whole equal =>
      rw [whole, equal, zpow_natCast]
      push_cast
      ring
  have counted : 0 < count := by
    cases spells with
    | placed => exact positive
    | full _ tens whole equal =>
      rw [equal]
      exact Nat.mul_pos (Nat.mul_pos positive (Nat.pow_pos (by decide))) (by decide)
  have bounds : -46 ≤ power ∧ power ≤ 46 := by
    cases spells with
    | placed => omega
    | full => omega
  obtain ⟨value, near, scaled, reads, approximates⟩ :=
    Precision.exists_scaled counted short bounds.1 bounds.2
  rw [same] at approximates
  refine ⟨value, near, scaled, reads, ?_⟩
  obtain ⟨unit, half, least, most, few, units, ends⟩ := single.exists_ends
  obtain ⟨lower, upper⟩ := ends.stands few units taken
  have exactly : -22 ≤ last → last ≤ 22 → -22 ≤ power ∧ power ≤ 22 := by
    intro low high
    cases spells with
    | placed => exact ⟨low, high⟩
    | full => omega
  have exception : last = -32 → digits = 7038531 → near < 22841339 * 2 ^ (-108 : Int) := by
    rintro rfl rfl
    cases spells with
    | placed => exact reads_exception scaled reads
    | full _ tens whole => omega
  have order := ends.order
  have fits := ends.fits
  refine taken.within.of_sameSide ?_ ?_
  · rw [ends.lowEnd]
    exact sameSide_of_stands lower (by omega) (by omega) approximates exactly exception
  · rw [ends.highEnd]
    exact sameSide_of_stands upper (by omega) fits approximates exactly exception

end SkillEngine.Number.Significand
