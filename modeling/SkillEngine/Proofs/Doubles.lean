import SkillEngine.Number.Numeral
import SkillEngine.Proofs.Differences
import SkillEngine.Proofs.Precision

/-!
# Doubles of ordinary size

Away from the largest and the smallest doubles a product or a quotient is the exact one rounded to
53 bits: it misses that by little, and it passes no number that 53 bits hold. A decimal with few
digits and a small place is read by one such operation on numbers that are exact, or nearly so.
-/

namespace SkillEngine.Precision

open Float.Model (Format UnpackedFloat totalExponent)
open Float.Model.UnpackedFloat

/-- A positive double that has all its bits stands for a number. -/
structure Reads (value : Float) (exact : ℚ) : Prop where
  /-- It is read as a mantissa at an exponent, and their product is the number. -/
  unpacks : ∃ (mantissa : Nat) (exponent : Int) (positive : 0 < mantissa),
    value.toModel.unpack = .finite .positive mantissa exponent positive ∧
      2 ^ 52 ≤ mantissa ∧ mantissa < 2 ^ 53 ∧ (mantissa : ℚ) * 2 ^ exponent = exact

/-- What an exact number is rounded to with 53 bits is near to it and on the same side of every
number that 53 bits hold. -/
structure Follows (rounded exact : ℚ) : Prop where
  /-- It misses the exact number by little. -/
  error : |rounded - exact| * 2 ^ 53 ≤ exact
  /-- What is not below the exact number is not below it. -/
  le_of_le : ∀ (count : Nat) (power : Int), count < 2 ^ 53 → -1074 ≤ power →
    exact ≤ count * 2 ^ power → rounded ≤ count * 2 ^ power
  /-- What is not above the exact number is not above it. -/
  ge_of_ge : ∀ (count : Nat) (power : Int), count < 2 ^ 53 → -1074 ≤ power →
    (count : ℚ) * 2 ^ power ≤ exact → (count : ℚ) * 2 ^ power ≤ rounded

/-- What 53 bits hold is not rounded. -/
theorem Follows.eq_of_fits {rounded : ℚ} {count : Nat} {power : Int}
    (follows : Follows rounded (count * 2 ^ power)) (fits : count < 2 ^ 53)
    (least : -1074 ≤ power) : rounded = count * 2 ^ power :=
  le_antisymm (follows.le_of_le count power fits least (le_refl _))
    (follows.ge_of_ge count power fits least (le_refl _))

/-- A mantissa behind its leading bit. -/
theorem toNat_leading (mantissa : BitVec 52) :
    (1#1 ++ mantissa).toNat = 2 ^ 52 + mantissa.toNat := by
  rw [BitVec.toNat_append, Nat.shiftLeft_eq, Nat.or_comm]
  change _ ||| 1 * 2 ^ 52 = _
  rw [Nat.one_mul, Nat.or_two_pow_eq_add_of_lt mantissa.isLt, Nat.add_comm]

/-- The sign of a double that is put together is the one it is given. -/
theorem unpackSign_packComponents (sign : Sign) (exponent : BitVec 11) (mantissa : BitVec 52) :
    unpackSign (packComponents Format.binary64 sign exponent mantissa) = sign.toBitVec := by
  change (sign.toBitVec ++ exponent ++ mantissa).extractLsb' 63 1 = sign.toBitVec
  rw [BitVec.extractLsb'_append_eq_of_le (by decide)]
  rw [BitVec.extractLsb'_append_eq_of_le (by decide)]
  cases sign <;> rfl

/-- A mantissa with its leading bit is read back as it was written. -/
theorem unpack_pack_normal (sign : Sign) {mantissa : Nat} {exponent : Int}
    (positive : 0 < mantissa) (leading : 2 ^ 52 ≤ mantissa) (short : mantissa < 2 ^ 53)
    (least : -1074 ≤ exponent) (most : exponent ≤ 971) :
    (Float.Model.pack (.finite sign mantissa exponent positive)).unpack =
      .finite sign mantissa exponent positive := by
  obtain ⟨biased, bias⟩ : ∃ biased : Nat, (biased : Int) = exponent + 1075 :=
    ⟨_, Int.toNat_of_nonneg (by omega)⟩
  have written : (exponent + Format.binary64.exponentBias +
      Format.binary64.mantissaBitsWithoutImplicit).toNat = biased := by
    change (exponent + (1023 : Nat) + (52 : Nat)).toNat = biased
    omega
  have finite : ¬ 2 ^ Format.binary64.exponentBits ≤ biased + 1 := by
    change ¬ 2048 ≤ biased + 1
    omega
  have bits : mantissa.log2 + 1 = Format.binary64.mantissaBits := by
    rw [(Nat.log2_eq_iff (Nat.pos_iff_ne_zero.1 positive)).2 ⟨leading, short⟩]
    rfl
  have read : (BitVec.ofNat 11 biased).toNat = biased := by
    rw [BitVec.toNat_ofNat]
    omega
  have below : BitVec.ofNat 11 biased ≠ -1#11 := fun top => by
    have largest : biased = 2047 := read.symm.trans (congrArg BitVec.toNat top)
    omega
  have some : BitVec.ofNat 11 biased ≠ 0#11 := fun least => by
    have none : biased = 0 := read.symm.trans (congrArg BitVec.toNat least)
    omega
  have whole : (1#1 ++ BitVec.ofNat 52 mantissa).toNat = mantissa := by
    rw [toNat_leading, BitVec.toNat_ofNat]
    omega
  change UnpackedFloat.unpack Format.binary64
    (UnpackedFloat.pack Format.binary64 (.finite sign mantissa exponent positive)) = _
  simp only [UnpackedFloat.pack, written]
  rw [if_neg finite, if_pos bits]
  simp only [UnpackedFloat.unpack, unpackMantissa_packComponents, unpackExponent_packComponents,
    unpackSign_packComponents, Single.ofBitVec_toBitVec]
  rw [if_neg below, if_neg some]
  simp only [whole, read]
  congr 1
  change (biased : Int) - (1023 + 52 : Nat) = _
  omega

/-- The exponent that double precision asks for. -/
theorem targetExponent_double (mantissa : Nat) (exponent : Int) :
    Format.binary64.targetExponent (totalExponent mantissa exponent) =
      max (mantissa.log2 + exponent - 52) (-1074) := by
  have bits : Format.binary64.mantissaBits = 53 := rfl
  have least : Format.binary64.minExponent = -1074 := rfl
  simp only [Format.targetExponent, totalExponent, bits, least]
  omega

/-- A number of ordinary size. -/
structure Ordinary (exact : ℚ) : Prop where
  /-- It is not small. -/
  low : (2 : ℚ) ^ (-200 : Int) ≤ exact
  /-- It is not large. -/
  high : exact < (2 : ℚ) ^ (250 : Int)

/-- The unit of an ordinary number is not the least one, and not near the largest one. -/
theorem Unit.of_ordinary {exact : ℚ} {place : Int} (unit : Unit Format.binary64 exact place)
    (ordinary : Ordinary exact) : -1074 < place ∧ place < 200 := by
  have one : (1 : ℚ) < 2 := by norm_num
  have two : (2 : ℚ) ≠ 0 := by norm_num
  have above : -1074 < place := by
    have fits : exact < 2 ^ (53 + place) := by
      rw [zpow_add₀ two]
      exact unit.fits
    have order : (-200 : Int) < 53 + place :=
      (zpow_lt_zpow_iff_right₀ one).1 (lt_of_le_of_lt ordinary.low fits)
    omega
  refine ⟨above, ?_⟩
  have leads : (2 : ℚ) ^ (52 + place) ≤ exact := by
    rw [zpow_add₀ two]
    exact unit.leads.resolve_left (show place ≠ -1074 by omega)
  have order : (52 : Int) + place < 250 :=
    (zpow_lt_zpow_iff_right₀ one).1 (lt_of_le_of_lt leads ordinary.high)
  omega

/-- An ordinary number that is rounded is read back as it was written. -/
theorem IsRounded.exists_reads {exact : ℚ} {result : UnpackedFloat} {whole : Nat} {place : Int}
    (rounded : IsRounded Format.binary64 .positive exact result whole place)
    (ordinary : Ordinary exact) {value : Float} (packed : value.toModel = .pack result) :
    ∃ near, Reads value near ∧ Follows near exact := by
  obtain ⟨above, below⟩ := rounded.unit.of_ordinary ordinary
  have leads : 2 ^ 52 ≤ whole := rounded.leads.resolve_left (show place ≠ -1074 by omega)
  have fits : whole ≤ 2 ^ 53 := rounded.fits
  have follows : Follows ((whole : ℚ) * 2 ^ place) exact :=
    ⟨rounded.relative_error_le above, fun _ _ => rounded.le_of_le, fun _ _ => rounded.ge_of_ge⟩
  have positive : 0 < whole := Nat.lt_of_lt_of_le (by decide) leads
  refine ⟨(whole : ℚ) * 2 ^ place, ⟨?_⟩, follows⟩
  rw [packed]
  rcases Nat.lt_or_eq_of_le fits with short | long
  · rw [rounded.finite positive short]
    exact ⟨whole, place, positive,
      unpack_pack_normal _ positive leads short (by omega) (by omega), leads, short, rfl⟩
  · rw [rounded.carried long]
    refine ⟨2 ^ 52, place + 1, Nat.two_pow_pos _,
      unpack_pack_normal _ _ (Nat.le_refl _) (by decide) (by omega) (by omega), Nat.le_refl _,
      by decide, ?_⟩
    rw [long, zpow_add_one₀ (by norm_num : (2 : ℚ) ≠ 0)]
    push_cast
    ring

section Operations

/-- A double of ordinary size under a sign has the mantissa and the exponent of the double. -/
theorem Reads.exists_signed {value : Float} {exact : ℚ} (reads : Reads value exact)
    (ordinary : Ordinary exact) : ∃ (mantissa : Nat) (exponent : Int) (positive : 0 < mantissa),
      (mantissa : ℚ) * 2 ^ exponent = exact ∧
      value.toModel.unpack = .finite .positive mantissa exponent positive ∧
      (-value).toModel.unpack = .finite .negative mantissa exponent positive := by
  obtain ⟨mantissa, exponent, positive, unpacks, leading, short, rfl⟩ := reads.unpacks
  have one : (1 : ℚ) < 2 := by norm_num
  have two : (2 : ℚ) ≠ 0 := by norm_num
  have unit : (0 : ℚ) < 2 ^ exponent := by positivity
  have above : -1074 ≤ exponent := by
    have fits : (mantissa : ℚ) < 2 ^ 53 := by exact_mod_cast short
    have less : (mantissa : ℚ) * 2 ^ exponent < 2 ^ (53 + exponent) := by
      rw [zpow_add₀ two]
      exact mul_lt_mul_of_pos_right fits unit
    have order := (zpow_lt_zpow_iff_right₀ one).1 (lt_of_le_of_lt ordinary.low less)
    omega
  have below : exponent ≤ 971 := by
    have least : (2 : ℚ) ^ 52 ≤ mantissa := by exact_mod_cast leading
    have more : (2 : ℚ) ^ (52 + exponent) ≤ mantissa * 2 ^ exponent := by
      rw [zpow_add₀ two]
      exact mul_le_mul_of_nonneg_right least (le_of_lt unit)
    have order := (zpow_lt_zpow_iff_right₀ one).1 (lt_of_le_of_lt more ordinary.high)
    omega
  refine ⟨mantissa, exponent, positive, rfl, unpacks, ?_⟩
  show (Float.Model.pack value.toModel.unpack.neg).unpack = _
  rw [unpacks]
  exact unpack_pack_normal .negative positive leading short above below

variable {first second : Float} {left right : ℚ}

/-- The product of two doubles is the exact one rounded. -/
theorem Reads.exists_mul (reads : Reads first left) (reads' : Reads second right)
    (ordinary : Ordinary (left * right)) :
    ∃ near, Reads (first * second) near ∧ Follows near (left * right) := by
  obtain ⟨mantissa, exponent, positive, unpacks, leading, _, rfl⟩ := reads.unpacks
  obtain ⟨mantissa', exponent', positive', unpacks', leading', _, rfl⟩ := reads'.unpacks
  have some : 0 < mantissa * mantissa' := Nat.mul_pos positive positive'
  have long : 2 ^ 104 ≤ mantissa * mantissa' := by
    rw [show 104 = 52 + 52 from rfl, Nat.pow_add]
    exact Nat.mul_le_mul leading leading'
  have bits : 104 ≤ (mantissa * mantissa').log2 :=
    (Nat.le_log2 (Nat.pos_iff_ne_zero.1 some)).2 long
  have fine : exponent + exponent' ≤ Format.binary64.targetExponent
      (totalExponent (mantissa * mantissa') (exponent + exponent')) := by
    rw [targetExponent_double]
    omega
  obtain ⟨whole, place, rounded⟩ :=
    exists_isRounded .positive some .exact (represents_exact _) fine
  have exact : ((mantissa * mantissa' : Nat) : ℚ) * 2 ^ (exponent + exponent') =
      mantissa * 2 ^ exponent * (mantissa' * 2 ^ exponent') := by
    rw [zpow_add₀ (by norm_num : (2 : ℚ) ≠ 0)]
    push_cast
    ring
  rw [exact] at rounded
  refine rounded.exists_reads ordinary ?_
  change Float.Model.pack (UnpackedFloat.mul Format.binary64 first.toModel.unpack
    second.toModel.unpack) = _
  rw [unpacks, unpacks']
  rfl

/-- The quotient of two doubles is the exact one rounded. -/
theorem Reads.exists_div (reads : Reads first left) (reads' : Reads second right)
    (ordinary : Ordinary (left / right)) :
    ∃ near, Reads (first / second) near ∧ Follows near (left / right) := by
  obtain ⟨mantissa, exponent, positive, unpacks, leading, short, rfl⟩ := reads.unpacks
  obtain ⟨mantissa', exponent', positive', unpacks', leading', short', rfl⟩ := reads'.unpacks
  have two : (2 : ℚ) ≠ 0 := by norm_num
  have scale : (0 : ℚ) < mantissa' := by exact_mod_cast positive'
  have exact : (mantissa : ℚ) * 2 ^ exponent / (mantissa' * 2 ^ exponent') =
      mantissa / mantissa' * 2 ^ (exponent - exponent') := by
    rw [zpow_sub₀ two, mul_div_mul_comm]
  -- The exponents differ by little, since the quotient is of ordinary size.
  have apart : -201 < exponent - exponent' := by
    have most : (mantissa : ℚ) / mantissa' < 2 := by
      rw [div_lt_iff₀ scale]
      have double : mantissa < 2 * mantissa' := by omega
      exact_mod_cast double
    have low : (2 : ℚ) ^ (-200 : Int) < 2 ^ (1 + (exponent - exponent')) := by
      refine lt_of_le_of_lt ordinary.low ?_
      rw [exact, zpow_add₀ two, zpow_one]
      exact mul_lt_mul_of_pos_right most (by positivity)
    have order := (zpow_lt_zpow_iff_right₀ (by norm_num : (1 : ℚ) < 2)).1 low
    omega
  have log : mantissa.log2 = 52 :=
    (Nat.log2_eq_iff (Nat.pos_iff_ne_zero.1 positive)).2 ⟨leading, short⟩
  have log' : mantissa'.log2 = 52 :=
    (Nat.log2_eq_iff (Nat.pos_iff_ne_zero.1 positive')).2 ⟨leading', short'⟩
  have aims : min (exponent - exponent') (Format.binary64.targetExponent
      (totalExponent mantissa exponent - totalExponent mantissa' exponent')) =
      exponent - exponent' - 53 := by
    have bits : Format.binary64.mantissaBits = 53 := rfl
    have least : Format.binary64.minExponent = -1074 := rfl
    simp only [Format.targetExponent, totalExponent, log, log', bits, least]
    omega
  have core : divCore Format.binary64 mantissa exponent mantissa' exponent' =
      (mantissa * 2 ^ 53 / mantissa', exponent - exponent' - 53,
        accuracyOfFraction (mantissa * 2 ^ 53 % mantissa') mantissa') := by
    simp only [divCore, aims]
    rw [show (exponent - exponent' - (exponent - exponent' - 53)).toNat = 53 by omega,
      Nat.shiftLeft_eq]
  have long : 2 ^ 52 ≤ mantissa * 2 ^ 53 / mantissa' := by
    rw [Nat.le_div_iff_mul_le positive']
    calc 2 ^ 52 * mantissa'
      _ ≤ 2 ^ 52 * 2 ^ 53 := Nat.mul_le_mul_left _ (Nat.le_of_lt short')
      _ ≤ mantissa * 2 ^ 53 := Nat.mul_le_mul_right _ leading
  have some : 0 < mantissa * 2 ^ 53 / mantissa' := Nat.lt_of_lt_of_le (by decide) long
  have bits : 52 ≤ (mantissa * 2 ^ 53 / mantissa').log2 :=
    (Nat.le_log2 (Nat.pos_iff_ne_zero.1 some)).2 long
  have fine : exponent - exponent' - 53 ≤ Format.binary64.targetExponent
      (totalExponent (mantissa * 2 ^ 53 / mantissa') (exponent - exponent' - 53)) := by
    rw [targetExponent_double]
    omega
  obtain ⟨whole, place, rounded⟩ :=
    exists_isRounded .positive some _ (represents_quotient _ positive') fine
  have same : ((mantissa * 2 ^ 53 : Nat) : ℚ) / mantissa' * 2 ^ (exponent - exponent' - 53) =
      mantissa * 2 ^ exponent / (mantissa' * 2 ^ exponent') := by
    rw [exact, div_mul_eq_mul_div, div_mul_eq_mul_div]
    exact congrArg (· / _) (shiftLeft_mul_two_pow mantissa 53 (exponent - exponent'))
  rw [same] at rounded
  refine rounded.exists_reads ordinary ?_
  change Float.Model.pack (UnpackedFloat.div Format.binary64 first.toModel.unpack
    second.toModel.unpack) = _
  rw [unpacks, unpacks']
  simp only [UnpackedFloat.div, core]
  rfl

end Operations

section Powers

open Number (Numeral)

/-- A power of ten as a double, checked: it misses the power by little, and the powers that 53 bits
hold not at all. -/
def isTenPower (power : Nat) : Bool :=
  match (Numeral.tenPower power).toModel.unpack with
  | .finite .positive mantissa exponent _ =>
    let near := mantissa * 2 ^ exponent.toNat
    let exact := 10 ^ power * 2 ^ (-exponent).toNat
    decide (2 ^ 52 ≤ mantissa) && decide (mantissa < 2 ^ 53)
      && decide ((near - exact + (exact - near)) * 2 ^ 53 ≤ exact)
      && (22 < power || near == exact)
  | _ => false

/-- Small powers of ten are near to their doubles. -/
theorem isTenPower_of_small : ∀ power < 47, isTenPower power = true := by
  decide +kernel

/-- The double of a small power of ten. -/
theorem exists_tenPower {power : Nat} (small : power < 47) :
    ∃ near, Reads (Numeral.tenPower power) near ∧ |near - 10 ^ power| * 2 ^ 53 ≤ 10 ^ power ∧
      (power ≤ 22 → near = 10 ^ power) := by
  have checked := isTenPower_of_small power small
  unfold isTenPower at checked
  split at checked
  · next mantissa exponent positive unpacks =>
    simp only [Bool.and_eq_true, Bool.or_eq_true, decide_eq_true_eq, beq_iff_eq] at checked
    obtain ⟨⟨⟨leading, short⟩, error⟩, same⟩ := checked
    have two : (2 : ℚ) ≠ 0 := by norm_num
    have scale : (0 : ℚ) < 2 ^ (-exponent).toNat := by positivity
    have near : (mantissa : ℚ) * 2 ^ exponent * 2 ^ (-exponent).toNat =
        mantissa * 2 ^ exponent.toNat := by rw [mul_assoc, zpow_mul_pow two]
    refine ⟨mantissa * 2 ^ exponent, ⟨mantissa, exponent, positive, unpacks, leading, short, rfl⟩,
      ?_, fun least => ?_⟩
    · have cast : |(mantissa : ℚ) * 2 ^ exponent.toNat - 10 ^ power * 2 ^ (-exponent).toNat| *
          2 ^ 53 ≤ 10 ^ power * 2 ^ (-exponent).toNat := by
        have bound := (Nat.cast_le (α := ℚ)).2 error
        rw [Nat.cast_mul, cast_distance] at bound
        exact_mod_cast bound
      rw [← near, ← sub_mul, abs_mul, abs_of_pos scale, mul_right_comm] at cast
      exact le_of_mul_le_mul_right cast scale
    · have equal := same.resolve_left (by omega)
      have cast : (mantissa : ℚ) * 2 ^ exponent.toNat = 10 ^ power * 2 ^ (-exponent).toNat := by
        exact_mod_cast equal
      exact mul_right_cancel₀ (ne_of_gt scale) (near.trans cast)
  · cases checked

/-- The double of a natural number that 53 bits hold. -/
theorem reads_ofNat {number : Nat} (positive : 0 < number) (short : number < 2 ^ 53) :
    Reads (Float.ofNat number) number := by
  have one : Reads (Float.ofBits 0x3ff0000000000000) 1 :=
    ⟨2 ^ 52, -52, Nat.two_pow_pos 52, rfl, Nat.le_refl _, by decide, by norm_num⟩
  have least : (1 : ℚ) ≤ number := by exact_mod_cast positive
  have most : (number : ℚ) < 2 ^ 53 := by exact_mod_cast short
  have ordinary : Ordinary number :=
    ⟨le_trans (by norm_num) least, lt_trans most (by norm_num)⟩
  obtain ⟨whole, place, rounded⟩ :=
    exists_isRounded_round Format.binary64 .positive positive 0
  have word : number.toUInt64.toNat = number := Nat.mod_eq_of_lt (by omega)
  have gt : compare (number : Int) 0 = .gt := Int.compare_eq_gt.2 (by omega)
  have packed : number.toUInt64.toFloat.toModel =
      .pack (UnpackedFloat.round Format.binary64 .positive number 0) := by
    show Float.Model.pack (UnpackedFloat.ofNat _ number.toUInt64.toNat) = _
    rw [word]
    simp only [UnpackedFloat.ofNat, UnpackedFloat.ofInt, UnpackedFloat.normalize, gt,
      Int.toNat_natCast]
  have same : (number : ℚ) * 2 ^ (0 : Int) = number := by rw [zpow_zero, mul_one]
  have exactly {near : ℚ} (follows : Follows near number) : near = number := by
    have whole : Follows near (number * 2 ^ (0 : Int)) := by rwa [same]
    rw [whole.eq_of_fits short (by decide), same]
  rw [same] at rounded
  obtain ⟨near, reads, follows⟩ := rounded.exists_reads ordinary packed
  rw [exactly follows] at reads
  obtain ⟨near, reads, follows⟩ := reads.exists_mul one (by rwa [mul_one])
  rw [mul_one] at follows
  rw [exactly follows] at reads
  have fast : Float.ofNat number = number.toUInt64.toFloat * Float.ofBits 0x3ff0000000000000 := by
    rw [show Float.ofNat number = Float.ofScientific number false 0 from rfl, Float.ofScientific,
      dif_pos ⟨short, by decide⟩]
    rfl
  rwa [fast]

/-- A double that is near to a decimal: two roundings away at most, and one if the power of ten is
exact. -/
structure Approximates (near exact : ℚ) (place : Int) : Prop where
  /-- It misses the decimal by little. -/
  error : |near - exact| * 2 ^ 52 ≤ exact * (1 + 1 / 2 ^ 40)
  /-- It is the decimal rounded once if the power of ten is exact. -/
  follows : -22 ≤ place → place ≤ 22 → Follows near exact

/-- The errors of a power of ten and of the product with it. -/
theorem error_mul {near count ten power : ℚ} (positive : 0 ≤ count)
    (first : |ten - power| * 2 ^ 53 ≤ power)
    (second : |near - count * ten| * 2 ^ 53 ≤ count * ten) :
    |near - count * power| * 2 ^ 52 ≤ count * power * (1 + 1 / 2 ^ 40) := by
  have apart : |count * ten - count * power| * 2 ^ 53 ≤ count * power := by
    rw [← mul_sub, abs_mul, abs_of_nonneg positive, mul_assoc]
    exact mul_le_mul_of_nonneg_left first positive
  have through := abs_sub_le near (count * ten) (count * power)
  have above := (abs_le.1 (le_refl |count * ten - count * power|)).2
  have below := abs_nonneg (count * ten - count * power)
  linarith

/-- The errors of a power of ten and of the quotient by it. -/
theorem error_div {near count ten power : ℚ} (positive : 0 ≤ count) (scale : 0 < power)
    (first : |ten - power| * 2 ^ 53 ≤ power)
    (second : |near - count / ten| * 2 ^ 53 ≤ count / ten) :
    |near - count / power| * 2 ^ 52 ≤ count / power * (1 + 1 / 2 ^ 40) := by
  have below := (abs_le.1 (le_refl |ten - power|)).1
  have above : 0 < ten := by linarith
  have apart : |count / ten - count / power| * (2 ^ 53 - 1) ≤ count / power := by
    have small : |ten - power| * (2 ^ 53 - 1) ≤ ten := by linarith
    have same : count / ten - count / power = count / power * (-(ten - power) / ten) := by
      field_simp
      ring
    have quotient : |ten - power| / ten * (2 ^ 53 - 1) ≤ 1 := by
      rw [div_mul_eq_mul_div, div_le_one above]
      exact small
    have nonneg : 0 ≤ count / power := div_nonneg positive (le_of_lt scale)
    rw [same, abs_mul, abs_of_nonneg nonneg, abs_div (-_), abs_neg, abs_of_pos above, mul_assoc]
    exact mul_le_of_le_one_right nonneg quotient
  have through := abs_sub_le near (count / ten) (count / power)
  have more := (abs_le.1 (le_refl |count / ten - count / power|)).2
  have none := abs_nonneg (count / ten - count / power)
  linarith

/-- A decimal with few digits and a small place is read as a double near to it. -/
theorem exists_scaled {digits : Nat} {place : Int} (positive : 0 < digits) (short : digits < 2 ^ 53)
    (low : -46 ≤ place) (high : place ≤ 46) :
    ∃ value near, Numeral.scaled digits place = some value ∧ Reads value near ∧
      Approximates near (digits * 10 ^ place) place := by
  have least : (1 : ℚ) ≤ digits := by exact_mod_cast positive
  have most : (digits : ℚ) < 2 ^ 53 := by exact_mod_cast short
  have reads := reads_ofNat positive short
  obtain ⟨power, size⟩ : ∃ power, power = place.natAbs := ⟨_, rfl⟩
  obtain ⟨ten, reads', error, exactly⟩ := exists_tenPower (show power < 47 by omega)
  have tens : (1 : ℚ) ≤ 10 ^ power := one_le_pow₀ (by norm_num)
  have tens' : (10 : ℚ) ^ power ≤ 10 ^ 46 := pow_le_pow_right₀ (by norm_num) (by omega)
  have scale : (0 : ℚ) < 10 ^ power := by positivity
  have lower : 1 / 2 ≤ ten := by linarith [(abs_le.1 (le_refl |ten - 10 ^ power|)).1]
  have upper : ten ≤ 10 ^ 46 * 2 := by linarith [(abs_le.1 (le_refl |ten - 10 ^ power|)).2]
  have above : 0 < ten := by linarith
  unfold Numeral.scaled
  rw [if_neg (by omega)]
  by_cases whole : 0 ≤ place
  · have same : place.toNat = power := by omega
    have value : (10 : ℚ) ^ place = 10 ^ power := by
      rw [← zpow_natCast]
      congr 1
      omega
    have ordinary : Ordinary (digits * ten) := by
      refine ⟨le_trans (by norm_num) (mul_le_mul least lower (by norm_num) (by positivity)), ?_⟩
      exact lt_of_lt_of_le (mul_lt_mul most upper above (by positivity)) (by norm_num)
    obtain ⟨near, reads, follows⟩ := reads.exists_mul reads' ordinary
    obtain ⟨mantissa, exponent, _, unpacks, _⟩ := reads.unpacks
    have finite : (Float.ofNat digits * Numeral.tenPower power).isInf = false := by
      show (UnpackedFloat.isInf (Float.toModel _).unpack) = false
      rw [unpacks]
      rfl
    refine ⟨_, near, ?_, reads, ?_, fun _ small => ?_⟩
    · rw [if_pos whole, same]
      simp only [finite, Bool.false_eq_true, if_false]
    · rw [value]
      exact error_mul (Nat.cast_nonneg digits) error follows.error
    · rw [value, ← exactly (by omega)]
      exact follows
  · have same : (-place).toNat = power := by omega
    have value : (10 : ℚ) ^ place = (10 ^ power)⁻¹ := by
      rw [← zpow_natCast, ← zpow_neg]
      congr 1
      omega
    have ordinary : Ordinary (digits / ten) := by
      refine ⟨le_trans (by norm_num) (div_le_div₀ (by positivity) least above upper), ?_⟩
      exact lt_of_le_of_lt (div_le_div₀ (by positivity) (le_of_lt most) (by norm_num) lower)
        (by norm_num)
    obtain ⟨near, reads, follows⟩ := reads.exists_div reads' ordinary
    refine ⟨_, near, ?_, reads, ?_, fun small _ => ?_⟩
    · rw [if_neg whole, if_pos (by omega), same]
    · rw [value, ← div_eq_mul_inv]
      exact error_div (Nat.cast_nonneg digits) scale error follows.error
    · rw [value, ← div_eq_mul_inv, ← exactly (by omega)]
      exact follows

end Powers

end SkillEngine.Precision
