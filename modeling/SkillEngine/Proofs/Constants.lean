import SkillEngine.Proofs.Spelling
import SkillEngine.Schema.Basic

/-!
# Constants are read back

A finite single-precision constant is written as its shortest decimal, and what is written is read
as that constant, bit for bit.
-/

namespace SkillEngine.Number

open Float.Model (Format UnpackedFloat totalExponent)
open Float.Model.UnpackedFloat
open Precision (IsRounded Nearest Ordinary Reads Unit)

namespace Significand

variable {float : Significand} {place : Nat} {exact : ℚ}

/-- The least number that rounds to a single is half a unit below it, or a quarter where a power of
two begins. -/
theorem IsSingle.lowEnd_eq (single : float.IsSingle place) :
    float.narrowBelow = false ∧ float.lowEnd = (float.units - 1 / 2) * 2 ^ float.exponent ∨
      float.narrowBelow = true ∧ float.lowEnd = (float.units - 1 / 4) * 2 ^ float.exponent := by
  have positive := single.positive
  rw [float.unit_eq, lowEnd, lowQuarters]
  cases float.narrowBelow with
  | false =>
    refine .inl ⟨rfl, ?_⟩
    rw [if_neg Bool.false_ne_true, Nat.cast_sub (by omega)]
    push_cast
    ring
  | true =>
    refine .inr ⟨rfl, ?_⟩
    rw [if_pos rfl, Nat.cast_sub (by omega)]
    push_cast
    ring

/-- The largest number that rounds to a single is half a unit above it. -/
theorem highEnd_eq (float : Significand) :
    float.highEnd = (float.units + 1 / 2) * 2 ^ float.exponent := by
  rw [float.unit_eq, highEnd]
  push_cast
  ring

/-- A number that rounds to a single is rounded to its units, in the unit of that single. -/
theorem IsSingle.nearest (single : float.IsSingle place) (within : float.Within exact) :
    Nearest float.units (exact / 2 ^ float.exponent) := by
  have unit : (0 : ℚ) < 2 ^ float.exponent := by positivity
  have low := within.low
  have high := within.high
  have top := float.highEnd_eq
  rcases single.lowEnd_eq with ⟨_, bottom⟩ | ⟨narrow, bottom⟩
  · refine .of_scaled unit (bottom ▸ low) (top ▸ high) fun tie => within.ends ?_
    rwa [bottom, top]
  · refine .of_scaled unit (by linarith) (top ▸ high) fun _ => ?_
    rw [(single.narrow.1 narrow).1]
    rfl

/-- A number that rounds to a single is rounded to it. -/
theorem IsSingle.round_eq (single : float.IsSingle place) {sign : Sign} {result : UnpackedFloat}
    {whole : Nat} {power : Int}
    (rounded : IsRounded Format.binary32 sign exact result whole power)
    (within : float.Within exact) :
    result = .finite sign float.units float.exponent single.positive := by
  have unit : (0 : ℚ) < 2 ^ float.exponent := by positivity
  have exponent := single.exponent
  have few := single.few
  have short : (float.units : ℚ) + 1 ≤ 2 ^ 24 := by exact_mod_cast single.placed.short
  have low := within.low
  have high := within.high
  have fits : exact < 2 ^ 24 * 2 ^ float.exponent := by
    rw [highEnd_eq] at high
    nlinarith
  have nearest := single.nearest within
  by_cases leads : place = 0 ∨ 2 ^ 23 * 2 ^ float.exponent ≤ exact
  · -- The number has the single's own unit.
    have own : Unit Format.binary32 exact float.exponent := by
      refine ⟨show (-149 : Int) ≤ _ by omega, fits, leads.imp_left fun least => ?_⟩
      show float.exponent = (-149 : Int)
      omega
    obtain rfl := rounded.unit.unique own
    obtain rfl := rounded.nearest.unique nearest
    exact rounded.finite single.positive single.placed.short
  · -- It is below the power of two that the single is, and is carried up to it.
    obtain ⟨above, below⟩ := not_or.1 leads
    rw [not_le] at below
    have most := single.placed.leads.resolve_left above
    obtain ⟨begins, bottom⟩ : float.units = 2 ^ 23 ∧
        float.lowEnd = (float.units - 1 / 4) * 2 ^ float.exponent := by
      rcases single.lowEnd_eq with ⟨wide, bottom⟩ | ⟨narrow, bottom⟩
      · have more : 2 ^ 23 ≠ float.units := fun same => by
          rw [single.narrow.2 ⟨same.symm, Nat.pos_of_ne_zero above⟩] at wide
          cases wide
        have next : (2 : ℚ) ^ 23 + 1 ≤ float.units := by
          exact_mod_cast Nat.lt_of_le_of_ne most more
        rw [bottom] at low
        nlinarith
      · exact ⟨(single.narrow.1 narrow).1, bottom⟩
    have half : (0 : ℚ) < 2 ^ (float.exponent - 1) := by positivity
    have halves := Precision.two_zpow_eq float.exponent
    have units : (float.units : ℚ) = 2 ^ 23 := by exact_mod_cast begins
    rw [bottom, units, halves] at low
    rw [halves] at below
    have finer : Unit Format.binary32 exact (float.exponent - 1) := by
      refine ⟨show (-149 : Int) ≤ _ by omega, ?_, .inr ?_⟩
      · show exact < 2 ^ 24 * 2 ^ (float.exponent - 1)
        linarith
      · show 2 ^ 23 * 2 ^ (float.exponent - 1) ≤ exact
        linarith
    have carries : Nearest (2 ^ 24) (exact / 2 ^ (float.exponent - 1)) :=
      .of_scaled half (by push_cast; linarith) (by push_cast; linarith) fun _ => rfl
    obtain rfl := rounded.unit.unique finer
    obtain rfl := rounded.nearest.unique carries
    rw [rounded.carried rfl]
    congr 1
    · exact begins.symm
    · omega

end Significand

section Bits

/-- The bits of a finite single are its sign, its place and its units. -/
theorem toNat_pack_finite (sign : Sign) {units place : Nat} (positive : 0 < units)
    (placed : Single.Placed units place) (small : place < 254) :
    (UnpackedFloat.pack Format.binary32 (.finite sign units (place - 149) positive)).toNat =
      sign.toBitVec.toNat * 2 ^ 31 + (place * 2 ^ 23 + units) := by
  have short := placed.short
  have biased : ((place : Int) - 149 + Format.binary32.exponentBias +
      Format.binary32.mantissaBitsWithoutImplicit).toNat = place + 1 := by
    change ((place : Int) - 149 + 127 + 23).toNat = place + 1
    omega
  have finite : ¬ 2 ^ Format.binary32.exponentBits ≤ place + 1 + 1 := by
    change ¬ 256 ≤ place + 1 + 1
    omega
  rw [Single.toNat_fields]
  simp only [UnpackedFloat.pack, biased]
  rw [if_neg finite]
  by_cases normal : 2 ^ 23 ≤ units
  · have leading : units.log2 + 1 = Format.binary32.mantissaBits := by
      rw [(Nat.log2_eq_iff (Nat.pos_iff_ne_zero.1 positive)).2 ⟨normal, short⟩]
      rfl
    rw [if_pos leading, Single.unpackSign_packComponents, unpackExponent_packComponents,
      unpackMantissa_packComponents]
    change _ + ((place + 1) % 2 ^ 8 * 2 ^ 23 + units % 2 ^ 23) = _
    omega
  · have leading : units.log2 + 1 ≠ Format.binary32.mantissaBits := by
      have less := (Nat.log2_lt (Nat.pos_iff_ne_zero.1 positive)).2 (Nat.lt_of_not_le normal)
      change units.log2 + 1 ≠ 24
      omega
    obtain rfl : place = 0 := placed.leads.resolve_right normal
    rw [if_neg leading, Single.unpackSign_packComponents, unpackExponent_packComponents,
      unpackMantissa_packComponents]
    change _ + (0 * 2 ^ 23 + units % 2 ^ 23) = _
    omega

/-- A stored constant is finite if its exponent is not the largest one. -/
theorem Single.isFinite_iff {stored : Single} :
    stored.isFinite = true ↔ stored.bits.toNat / 2 ^ 23 % 2 ^ 8 ≠ 255 := by
  have field : ((stored.bits >>> 23) &&& 0xff).toNat = stored.bits.toNat / 2 ^ 23 % 2 ^ 8 := by
    rw [UInt32.toNat_and, UInt32.toNat_shiftRight, Nat.shiftRight_eq_div_pow]
    exact Nat.and_two_pow_sub_one_eq_mod _ 8
  rw [Single.isFinite, bne_iff_ne, ← field, ne_eq, ← UInt32.toNat_inj]
  rfl

/-- A stored constant is zero if its bits behind the sign are. -/
theorem Single.isZero_iff {stored : Single} :
    stored.bits &&& 0x7fffffff = 0 ↔ stored.bits.toNat % 2 ^ 31 = 0 := by
  have field : (stored.bits &&& 0x7fffffff).toNat = stored.bits.toNat % 2 ^ 31 := by
    rw [UInt32.toNat_and]
    exact Nat.and_two_pow_sub_one_eq_mod _ 31
  rw [← field, ← UInt32.toNat_inj]
  rfl

/-- The significand of a finite constant that is not zero makes up its bits behind the sign. -/
theorem Significand.exists_isSingle {stored : Single} (finite : stored.isFinite = true)
    (some : ¬ stored.bits &&& 0x7fffffff = 0) :
    ∃ place, (ofSingle stored).IsSingle place ∧
      stored.bits.toNat % 2 ^ 31 = place * 2 ^ 23 + (ofSingle stored).units := by
  rw [Single.isFinite_iff] at finite
  rw [Single.isZero_iff] at some
  obtain ⟨biased, exponent⟩ : ∃ biased, biased = stored.bits.toNat / 2 ^ 23 % 2 ^ 8 := ⟨_, rfl⟩
  obtain ⟨fraction, mantissa⟩ : ∃ fraction, fraction = stored.bits.toNat % 2 ^ 23 := ⟨_, rfl⟩
  have fields : ofSingle stored = if biased = 0 then ⟨fraction, -149, false⟩
      else ⟨2 ^ 23 + fraction, (biased : Int) - 150, fraction = 0 && biased > 1⟩ := by
    rw [exponent, mantissa]
    rfl
  rw [fields]
  by_cases least : biased = 0
  · rw [if_pos least]
    refine ⟨0, ⟨rfl, by decide, ?_, ⟨?_, .inl rfl⟩, ?_⟩, ?_⟩
    · show 0 < fraction
      omega
    · show fraction < 2 ^ 24
      omega
    · show false = true ↔ _ ∧ 0 < 0
      simp
    · show _ = 0 * 2 ^ 23 + fraction
      omega
  · rw [if_neg least]
    refine ⟨biased - 1, ⟨?_, by omega, ?_, ⟨?_, .inr ?_⟩, ?_⟩, ?_⟩
    · show (biased : Int) - 150 = (biased - 1 : Nat) - 149
      omega
    · show 0 < 2 ^ 23 + fraction
      omega
    · show 2 ^ 23 + fraction < 2 ^ 24
      omega
    · show 2 ^ 23 ≤ 2 ^ 23 + fraction
      omega
    · show (decide (fraction = 0) && decide (biased > 1)) = true ↔
        2 ^ 23 + fraction = 2 ^ 23 ∧ 0 < biased - 1
      rw [Bool.and_eq_true, decide_eq_true_eq, decide_eq_true_eq]
      omega
    · show _ = (biased - 1) * 2 ^ 23 + (2 ^ 23 + fraction)
      omega

/-- A constant is under a minus sign if its first bit is set. -/
theorem Single.negative_iff {stored : Single} :
    stored.bits ≥ 0x80000000 ↔ 2 ^ 31 ≤ stored.bits.toNat := UInt32.le_iff_toNat_le

/-- The sign of a constant. -/
def Single.sign (stored : Single) : Sign :=
  if stored.bits ≥ 0x80000000 then .negative else .positive

/-- The sign of a constant is its first bit. -/
theorem Single.toNat_sign (stored : Single) :
    stored.sign.toBitVec.toNat = stored.bits.toNat / 2 ^ 31 := by
  have size : stored.bits.toNat < 2 ^ 32 := stored.bits.toNat_lt
  unfold Single.sign
  by_cases negative : stored.bits ≥ 0x80000000
  · have least := Single.negative_iff.1 negative
    rw [if_pos negative]
    show 1 = _
    omega
  · have less := mt Single.negative_iff.2 negative
    rw [if_neg negative]
    show 0 = _
    omega

/-- A float that is put together of a constant's sign and significand is stored as that constant. -/
theorem Significand.IsSingle.ofValue_pack {stored : Single} {place : Nat}
    (single : (ofSingle stored).IsSingle place)
    (fields : stored.bits.toNat % 2 ^ 31 = place * 2 ^ 23 + (ofSingle stored).units) :
    Single.ofValue (Float32.ofBits ⟨UnpackedFloat.pack Format.binary32
      (.finite stored.sign (ofSingle stored).units (ofSingle stored).exponent single.positive)⟩) =
        stored := by
  have sign := stored.toNat_sign
  have back := Single.unpack_pack_finite stored.sign single.positive single.placed
  have whole := toNat_pack_finite stored.sign single.positive single.placed single.few
  rw [if_pos single.few] at back
  rw [← single.exponent] at back whole
  have same : stored.bits.toBitVec = UnpackedFloat.pack Format.binary32
      (.finite stored.sign (ofSingle stored).units (ofSingle stored).exponent single.positive) := by
    refine BitVec.eq_of_toNat_eq ?_
    rw [whole, sign]
    show stored.bits.toNat = _
    omega
  show (⟨⟨UnpackedFloat.pack Format.binary32
    (UnpackedFloat.unpack Format.binary32 _)⟩⟩ : Single) = _
  rw [back, ← same]

/-- A number that rounds to a single is of ordinary size. -/
theorem Significand.IsSingle.ordinary {float : Significand} {place : Nat}
    (single : float.IsSingle place) {exact : ℚ} (within : float.Within exact) : Ordinary exact := by
  have exponent := single.exponent
  have few := single.few
  have unit : (0 : ℚ) < 2 ^ float.exponent := by positivity
  have units : (1 : ℚ) ≤ float.units := by exact_mod_cast single.positive
  have short : (float.units : ℚ) + 1 ≤ 2 ^ 24 := by exact_mod_cast single.placed.short
  have low := within.low
  have high := within.high
  have least : (2 : ℚ) ^ (-149 : Int) ≤ 2 ^ float.exponent :=
    zpow_le_zpow_right₀ (by norm_num) (by omega)
  have most : (2 : ℚ) ^ float.exponent ≤ 2 ^ (104 : Int) :=
    zpow_le_zpow_right₀ (by norm_num) (by omega)
  constructor
  · have half : 1 / 2 * 2 ^ float.exponent ≤ float.lowEnd := by
      rcases single.lowEnd_eq with ⟨_, bottom⟩ | ⟨_, bottom⟩
      · rw [bottom]
        exact mul_le_mul_of_nonneg_right (by linarith) (le_of_lt unit)
      · rw [bottom]
        exact mul_le_mul_of_nonneg_right (by linarith) (le_of_lt unit)
    calc (2 : ℚ) ^ (-200 : Int)
      _ ≤ 1 / 2 * 2 ^ (-149 : Int) := by norm_num
      _ ≤ 1 / 2 * 2 ^ float.exponent := mul_le_mul_of_nonneg_left least (by norm_num)
      _ ≤ exact := le_trans half low
  · rw [float.highEnd_eq] at high
    calc exact
      _ ≤ (float.units + 1 / 2) * 2 ^ float.exponent := high
      _ ≤ 2 ^ 24 * 2 ^ (104 : Int) :=
        mul_le_mul (by linarith) most (le_of_lt unit) (by positivity)
      _ < 2 ^ (250 : Int) := by norm_num

/-- A double that is read from a number that rounds to a constant, under the constant's sign, is
stored as that constant. -/
theorem Significand.IsSingle.ofValue_narrow {stored : Single} {place : Nat}
    (single : (ofSingle stored).IsSingle place)
    (fields : stored.bits.toNat % 2 ^ 31 = place * 2 ^ 23 + (ofSingle stored).units)
    {value : Float} {near : ℚ} (reads : Reads value near)
    (within : (ofSingle stored).Within near) :
    Single.ofValue (Number.narrow (if stored.bits ≥ 0x80000000 then -value else value)) =
      stored := by
  obtain ⟨mantissa, exponent, positive, rfl, plain, negated⟩ :=
    reads.exists_signed (single.ordinary within)
  have signed : (if stored.bits ≥ 0x80000000 then -value else value).toModel.unpack =
      .finite stored.sign mantissa exponent positive := by
    unfold Single.sign
    split
    · exact negated
    · exact plain
  obtain ⟨whole, power, rounded⟩ :=
    Precision.exists_isRounded_round Format.binary32 stored.sign positive exponent
  have rounds := single.round_eq rounded within
  have packs := single.ofValue_pack fields
  generalize (if stored.bits ≥ 0x80000000 then -value else value) = read at signed
  change UnpackedFloat.unpack Format.binary64 read.toBits.toBitVec = _ at signed
  unfold Number.narrow
  dsimp only
  rw [signed]
  dsimp only
  rw [rounds, packs]

end Bits

/-- Zero is read back under either sign. -/
theorem Single.toSingle?_zero (negative : Bool) :
    (Numeral.mk negative 0 [0] none).toSingle?.map Single.ofValue =
      some ⟨if negative then 0x80000000 else 0⟩ := by
  cases negative <;> decide +kernel

/-- A constant without bits behind the sign is a zero. -/
theorem Single.eq_zero {stored : Single} (zero : stored.bits &&& 0x7fffffff = 0) :
    stored.bits = if stored.bits ≥ 0x80000000 then 0x80000000 else 0 := by
  have size : stored.bits.toNat < 2 ^ 32 := stored.bits.toNat_lt
  rw [Single.isZero_iff] at zero
  refine UInt32.toNat_inj.1 ?_
  by_cases negative : stored.bits ≥ 0x80000000
  · have least := Single.negative_iff.1 negative
    rw [if_pos negative]
    show stored.bits.toNat = 2 ^ 31
    omega
  · have less := mt Single.negative_iff.2 negative
    rw [if_neg negative]
    show stored.bits.toNat = 0
    omega

/-- A finite constant is written as a numeral that can be written, and is read as that constant. -/
theorem Single.exists_numeral {stored : Single} (finite : stored.isFinite = true) :
    ∃ numeral, Layout.single.ofSingle? stored = some numeral ∧ numeral.IsWritten ∧
      numeral.toSingle?.map Single.ofValue = some stored := by
  unfold Layout.ofSingle?
  rw [finite]
  by_cases zero : stored.bits &&& 0x7fffffff = 0
  · rw [if_neg (by decide), if_pos zero]
    refine ⟨_, rfl, fun digit member => by rw [List.mem_singleton.1 member]; decide, ?_⟩
    rw [Single.toSingle?_zero]
    simp only [decide_eq_true_eq]
    exact congrArg (some ∘ Single.mk) (Single.eq_zero zero).symm
  · rw [if_neg (by decide), if_neg zero]
    obtain ⟨place, single, fields⟩ := Significand.exists_isSingle finite zero
    obtain ⟨digits, last, shortest, taken, low, high, few⟩ := single.exists_shortest
    have spelling : IsSpelling (Layout.single.numeral (decide (stored.bits ≥ 0x80000000))
      ⟨digits, last⟩) _ digits last := isSpelling_numeral _ taken.positive few
    obtain ⟨count, power, told, spells, short⟩ := spelling.spells
    obtain ⟨value, near, scaled, reads, within⟩ :=
      single.exists_reads taken low high spells short
    have read := single.ofValue_narrow fields reads within
    refine ⟨_, rfl, ?_, ?_⟩
    · show (Layout.single.numeral _ ((Significand.ofSingle stored).shortest .even)).IsWritten
      rw [shortest]
      exact spelling.written
    · show (Layout.single.numeral _
        ((Significand.ofSingle stored).shortest .even)).toSingle?.map ofValue = _
      rw [shortest, Numeral.toSingle?, spelling.broken, if_neg Bool.false_ne_true,
        Numeral.toDouble?, told]
      dsimp only
      rw [scaled, spelling.sign]
      simpa using read

/-- A constant is read back if it is finite, and is not read at all if not. -/
theorem Single.decoder_toJson (stored : Single) (room : Nat) :
    Json.Decoder.single room stored.toJson = if stored.isFinite then some stored else none := by
  cases finite : stored.isFinite with
  | true =>
    obtain ⟨numeral, written, _, read⟩ := Single.exists_numeral finite
    rw [Single.toJson, written, if_pos rfl]
    exact read
  | false =>
    have none : Layout.single.ofSingle? stored = none := by
      rw [Layout.ofSingle?, finite]
      rfl
    rw [Single.toJson, none, if_neg Bool.false_ne_true]
    rfl

/-- What a constant is written as can be written. -/
theorem Single.isWritten_toJson (stored : Single) : stored.toJson.IsWritten := by
  cases finite : stored.isFinite with
  | true =>
    obtain ⟨numeral, written, fraction, _⟩ := Single.exists_numeral finite
    rw [Single.toJson, written]
    exact fraction
  | false =>
    have none : Layout.single.ofSingle? stored = none := by
      rw [Layout.ofSingle?, finite]
      rfl
    rw [Single.toJson, none]
    trivial

end SkillEngine.Number
