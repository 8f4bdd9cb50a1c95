import SkillEngine.Proofs.Floats

/-!
# Sums and differences of single-precision floats

A sum or a difference is the exact one rounded and written, so it stays on the side of any float
that the exact one is on. Infinity absorbs what is added to it or taken off it.
-/

namespace SkillEngine.Single

open Float.Model (Format UnpackedFloat)
open Float.Model.UnpackedFloat

/-- The sign of a float that is put together is the one it is given. -/
theorem unpackSign_packComponents (sign : Sign) (exponent : BitVec 8) (mantissa : BitVec 23) :
    unpackSign (packComponents Format.binary32 sign exponent mantissa) = sign.toBitVec := by
  change (sign.toBitVec ++ exponent ++ mantissa).extractLsb' 31 1 = sign.toBitVec
  rw [BitVec.extractLsb'_append_eq_of_le (by decide)]
  rw [BitVec.extractLsb'_append_eq_of_le (by decide)]
  cases sign <;> rfl

/-- A sign is read back as it was written. -/
theorem ofBitVec_toBitVec (sign : Sign) : Sign.ofBitVec sign.toBitVec = sign := by
  cases sign <;> rfl

/-- Infinity is read back as it was written. -/
theorem unpack_packedInfinity (sign : Sign) :
    UnpackedFloat.unpack Format.binary32 (packedInfinity Format.binary32 sign) =
      .infinity sign := by
  cases sign <;> rfl

/-- A mantissa with its leading bit is read back as it was written. -/
theorem unpack_normal (sign : Sign) {mantissa place : Nat} (small : place < 254)
    (placed : Placed mantissa place) (leading : 2 ^ 23 ≤ mantissa) (positive : 0 < mantissa) :
    UnpackedFloat.unpack Format.binary32 (packComponents Format.binary32 sign
        (BitVec.ofNat 8 (place + 1)) (BitVec.ofNat 23 mantissa)) =
      .finite sign mantissa (place - 149) positive := by
  have short : mantissa < 2 ^ 24 := placed.short
  have exponent : (BitVec.ofNat 8 (place + 1)).toNat = place + 1 := by
    rw [BitVec.toNat_ofNat]
    omega
  have below : BitVec.ofNat 8 (place + 1) ≠ -1#8 := fun top => by
    have largest : place + 1 = 255 := exponent.symm.trans (congrArg BitVec.toNat top)
    omega
  have some : BitVec.ofNat 8 (place + 1) ≠ 0#8 := fun least => by
    have none : place + 1 = 0 := exponent.symm.trans (congrArg BitVec.toNat least)
    omega
  have whole : (1#1 ++ BitVec.ofNat 23 mantissa).toNat = mantissa := by
    rw [toNat_leading, BitVec.toNat_ofNat]
    omega
  simp only [UnpackedFloat.unpack, unpackMantissa_packComponents, unpackExponent_packComponents,
    unpackSign_packComponents, ofBitVec_toBitVec]
  rw [if_neg below, if_neg some]
  simp only [whole, exponent]
  congr 1
  change ((place + 1 : Nat) : Int) - (127 + 23 : Nat) = _
  omega

/-- A mantissa without its leading bit is read back as it was written. -/
theorem unpack_subnormal (sign : Sign) {mantissa : Nat} (short : mantissa < 2 ^ 23)
    (positive : 0 < mantissa) :
    UnpackedFloat.unpack Format.binary32
        (packComponents Format.binary32 sign 0#8 (BitVec.ofNat 23 mantissa)) =
      .finite sign mantissa ((0 : Nat) - 149) positive := by
  have whole : (BitVec.ofNat 23 mantissa).toNat = mantissa := by
    rw [BitVec.toNat_ofNat]
    exact Nat.mod_eq_of_lt short
  have some : BitVec.ofNat 23 mantissa ≠ 0#23 := fun none => by
    have zero : mantissa = 0 := whole.symm.trans (congrArg BitVec.toNat none)
    omega
  simp only [UnpackedFloat.unpack, unpackMantissa_packComponents, unpackExponent_packComponents,
    unpackSign_packComponents, ofBitVec_toBitVec]
  rw [if_neg (show ¬ (0#8 : BitVec 8) = -1#8 by decide), if_pos trivial, dif_neg some]
  simp only [whole]
  rfl

/-- A rounded float is read back as it was written, unless it is beyond the largest finite single:
then it is infinity. -/
theorem unpack_pack_finite (sign : Sign) {mantissa place : Nat} (positive : 0 < mantissa)
    (placed : Placed mantissa place) :
    UnpackedFloat.unpack Format.binary32
        (UnpackedFloat.pack Format.binary32 (.finite sign mantissa (place - 149) positive)) =
      if place < 254 then .finite sign mantissa (place - 149) positive else .infinity sign := by
  have nonzero : mantissa ≠ 0 := Nat.pos_iff_ne_zero.1 positive
  have biased : ((place : Int) - 149 + Format.binary32.exponentBias +
      Format.binary32.mantissaBitsWithoutImplicit).toNat = place + 1 := by
    change ((place : Int) - 149 + 127 + 23).toNat = place + 1
    omega
  simp only [UnpackedFloat.pack, biased]
  rcases Nat.lt_or_ge place 254 with small | large
  · have finite : ¬ 2 ^ Format.binary32.exponentBits ≤ place + 1 + 1 := by
      change ¬ 256 ≤ place + 1 + 1
      omega
    rw [if_neg finite, if_pos small]
    by_cases normal : 2 ^ 23 ≤ mantissa
    · have leading : mantissa.log2 + 1 = Format.binary32.mantissaBits := by
        rw [(Nat.log2_eq_iff nonzero).2 ⟨normal, placed.short⟩]
        rfl
      rw [if_pos leading]
      exact unpack_normal sign small placed normal positive
    · have leading : mantissa.log2 + 1 ≠ Format.binary32.mantissaBits := by
        have short := (Nat.log2_lt nonzero).2 (Nat.lt_of_not_le normal)
        change mantissa.log2 + 1 ≠ 24
        omega
      obtain rfl : place = 0 := placed.leads.resolve_right normal
      rw [if_neg leading]
      exact unpack_subnormal sign (Nat.lt_of_not_le normal) positive
  · have infinite : 2 ^ Format.binary32.exponentBits ≤ place + 1 + 1 := by
      change 256 ≤ place + 1 + 1
      omega
    rw [if_pos infinite, if_neg (Nat.not_lt.2 large), unpack_packedInfinity]

/-- The units of what is read back when a float was written. -/
def packedUnits? (value : UnpackedFloat) : Option Int :=
  unpackedUnits? (Float32.Model.pack value).unpack

/-- What is rounded keeps its units when it is written, unless they are more than infinity has. -/
theorem packedUnits?_finite (sign : Sign) {mantissa place : Nat} (positive : 0 < mantissa)
    (placed : Placed mantissa place) :
    packedUnits? (.finite sign mantissa (place - 149) positive) =
      some (sign.apply (min (mantissa * 2 ^ place) infinityUnits : Nat)) := by
  have back := unpack_pack_finite sign positive placed
  change unpackedUnits? (UnpackedFloat.unpack Format.binary32
    (UnpackedFloat.pack Format.binary32 (.finite sign mantissa (place - 149) positive))) = _
  rw [back]
  split
  · next small =>
    have canonical : IsCanonical (.finite sign mantissa (place - 149) positive) :=
      ⟨place, rfl, small, placed⟩
    have bound := (magnitude_lt canonical).2
    rw [toNat_place] at bound
    rw [Nat.min_eq_left (Nat.le_of_lt bound), unpackedUnits?, toNat_place]
  · next large =>
    have most : 2 ^ 23 ≤ mantissa := placed.leads.resolve_left (by omega)
    have bound : infinityUnits ≤ mantissa * 2 ^ place := by
      calc infinityUnits
        _ = 2 ^ 23 * 2 ^ 254 := by decide +kernel
        _ ≤ mantissa * 2 ^ place :=
          Nat.mul_le_mul most (Nat.pow_le_pow_right (by decide) (by omega))
    rw [Nat.min_eq_right bound, unpackedUnits?]

/-- A canonical float keeps its units when it is written. -/
theorem packedUnits?_canonical {value : UnpackedFloat} (canonical : IsCanonical value) :
    packedUnits? value = unpackedUnits? value := by
  cases value with
  | notANumber => rfl
  | infinity sign | zero sign => cases sign <;> rfl
  | finite sign mantissa exponent positive =>
    have bound := (magnitude_lt canonical).2
    obtain ⟨place, rfl, _, placed⟩ := canonical
    rw [packedUnits?_finite sign positive placed, unpackedUnits?]
    rw [toNat_place] at bound ⊢
    rw [Nat.min_eq_left (Nat.le_of_lt bound)]

/-- The opposite sign makes the opposite number. -/
theorem apply_neg (sign : Sign) (magnitude : Nat) :
    (-sign).apply magnitude = -sign.apply magnitude := by
  cases sign
  · exact (Int.neg_neg _).symm
  · rfl

/-- An exact number of units is rounded to what is read back when its normal form was written. -/
theorem exists_normalize (mantissa : Int) (exponent : Nat) : ∃ rounded,
    packedUnits? (UnpackedFloat.normalize Format.binary32 mantissa (exponent - 149) .positive) =
      some rounded ∧ Rounds (mantissa * 2 ^ exponent) rounded := by
  have magnitude (sign : Sign) (whole : Nat) (positive : 0 < whole) : ∃ rounded : Nat,
      packedUnits? (UnpackedFloat.round Format.binary32 sign whole (exponent - 149)) =
        some (sign.apply rounded) ∧ Rounds (whole * 2 ^ exponent : Nat) rounded := by
    obtain ⟨single, place, above, same, placed, rounds⟩ := exists_round sign positive exponent
    refine ⟨min (single * 2 ^ place) infinityUnits, ?_, rounds.capped⟩
    rw [same, packedUnits?_finite sign above placed]
  unfold UnpackedFloat.normalize
  rcases Int.lt_trichotomy mantissa 0 with negative | rfl | positive
  · obtain ⟨rounded, read, rounds⟩ := magnitude .negative (-mantissa).toNat (by omega)
    rw [Int.compare_eq_lt.2 negative]
    refine ⟨_, read, ?_⟩
    have exact : mantissa * 2 ^ exponent = -(((-mantissa).toNat * 2 ^ exponent : Nat) : Int) := by
      push_cast
      rw [Int.toNat_of_nonneg (by omega)]
      ring
    rw [exact]
    exact rounds.neg
  · have zero : IsCanonical (.zero .positive) := trivial
    rw [Int.compare_eq_eq.2 rfl, Int.zero_mul]
    exact ⟨0, packedUnits?_canonical zero, .refl 0⟩
  · obtain ⟨rounded, read, rounds⟩ := magnitude .positive mantissa.toNat (by omega)
    rw [Int.compare_eq_gt.2 positive]
    refine ⟨_, read, ?_⟩
    have exact : mantissa * 2 ^ exponent = ((mantissa.toNat * 2 ^ exponent : Nat) : Int) := by
      push_cast
      rw [Int.toNat_of_nonneg (by omega)]
    rw [exact]
    exact rounds

/-- What the difference of two numbers of units is as a float, if it is a number: the exact one
rounded, or what an infinite one of the two makes it. -/
inductive Differs (left right : Int) : Int → Prop where
  /-- The exact difference is rounded. -/
  | rounded {units : Int} (rounds : Rounds (left - right) units) : Differs left right units
  /-- Nothing is taken off infinity. -/
  | infinite (top : left.natAbs = infinityUnits) : Differs left right left
  /-- Infinity leaves nothing of what it is taken off. -/
  | absorbed (below : left.natAbs < infinityUnits) (top : right.natAbs = infinityUnits) :
      Differs left right (-right)

/-- A shift to the left keeps the units of a signed mantissa. -/
theorem apply_shiftLeft (sign : Sign) (mantissa : Nat) {place least : Nat} (order : least ≤ place) :
    sign.apply (mantissa <<< (place - least) : Nat) * 2 ^ least =
      sign.apply (mantissa * 2 ^ place : Nat) := by
  have whole : mantissa <<< (place - least) * 2 ^ least = mantissa * 2 ^ place := by
    rw [Nat.shiftLeft_eq, Nat.mul_assoc, Nat.pow_sub_mul_pow 2 order]
  rw [← whole]
  cases sign
  · simp only [Sign.apply]
    push_cast
    ring
  · simp only [Sign.apply]
    push_cast
    ring

/-- The difference of two finite floats is the exact one rounded. -/
theorem rounds_sub {sign sign' : Sign} {mantissa mantissa' : Nat} {exponent exponent' : Int}
    {positive : 0 < mantissa} {positive' : 0 < mantissa'}
    (first : IsCanonical (.finite sign mantissa exponent positive))
    (second : IsCanonical (.finite sign' mantissa' exponent' positive')) : ∃ rounded,
      packedUnits? (UnpackedFloat.sub Format.binary32 (.finite sign mantissa exponent positive)
        (.finite sign' mantissa' exponent' positive')) = some rounded ∧
      Rounds (sign.apply (mantissa * 2 ^ (exponent + 149).toNat : Nat) -
        sign'.apply (mantissa' * 2 ^ (exponent' + 149).toNat : Nat)) rounded := by
  obtain ⟨place, rfl, _⟩ := first
  obtain ⟨place', rfl, _⟩ := second
  obtain ⟨least, common⟩ : ∃ least, least = min place place' := ⟨_, rfl⟩
  obtain ⟨rounded, read, rounds⟩ := exists_normalize
    (sign.apply (mantissa <<< (place - least) : Nat) -
      sign'.apply (mantissa' <<< (place' - least) : Nat)) least
  refine ⟨rounded, ?_, ?_⟩
  · rw [← read]
    simp only [UnpackedFloat.sub, decreaseExponent]
    rw [show min ((place : Int) - 149) ((place' : Int) - 149) = (least : Int) - 149 by omega,
      show ((place : Int) - 149 - (least - 149)).toNat = place - least by omega,
      show ((place' : Int) - 149 - (least - 149)).toNat = place' - least by omega]
  · rw [Int.sub_mul, apply_shiftLeft sign mantissa (by omega),
      apply_shiftLeft sign' mantissa' (by omega)] at rounds
    rw [toNat_place, toNat_place]
    exact rounds

/-- What the difference of two floats in canonical form is. -/
theorem differs_sub {left right : UnpackedFloat} (first : IsCanonical left)
    (second : IsCanonical right) {low high units : Int} (lowUnits : unpackedUnits? left = some low)
    (highUnits : unpackedUnits? right = some high)
    (difference : packedUnits? (UnpackedFloat.sub Format.binary32 left right) = some units) :
    Differs low high units := by
  have top : 0 < infinityUnits := Nat.mul_pos (Nat.two_pow_pos 24) (Nat.two_pow_pos 253)
  have same {value : UnpackedFloat} (canonical : IsCanonical value) {known : Int}
      (number : unpackedUnits? value = some known) (read : packedUnits? value = some units) :
      units = known :=
    Option.some.inj (read.symm.trans ((packedUnits?_canonical canonical).trans number))
  cases left with
  | notANumber => cases lowUnits
  | infinity sign =>
    have kept : units = sign.apply infinityUnits := by
      have infinite : IsCanonical (.infinity sign) := trivial
      cases right with
      | notANumber => cases highUnits
      | infinity other =>
        cases sign <;> cases other
        · cases difference
        · exact same infinite rfl difference
        · exact same infinite rfl difference
        · cases difference
      | zero | finite => exact same infinite rfl difference
    cases lowUnits
    rw [kept]
    exact .infinite (natAbs_apply sign _)
  | zero sign =>
    cases lowUnits
    cases right with
    | notANumber => cases highUnits
    | infinity other =>
      have infinite : IsCanonical (.infinity (-other)) := trivial
      have opposite := same infinite (congrArg some (apply_neg other _)) difference
      cases highUnits
      rw [opposite]
      exact .absorbed top (natAbs_apply other _)
    | zero other =>
      have zero (sign : Sign) : IsCanonical (.zero sign) := trivial
      have none : units = 0 := by
        cases sign <;> cases other <;> exact same (zero _) rfl difference
      cases highUnits
      rw [none]
      exact .rounded (.refl 0)
    | finite other mantissa exponent positive =>
      have negated : IsCanonical (.finite (-other) mantissa exponent positive) := second
      have opposite := same negated (congrArg some (apply_neg other _)) difference
      cases highUnits
      rw [opposite]
      refine .rounded ?_
      rw [Int.zero_sub]
      exact .refl _
  | finite sign mantissa exponent positive =>
    cases right with
    | notANumber => cases highUnits
    | infinity other =>
      have infinite : IsCanonical (.infinity (-other)) := trivial
      have opposite := same infinite (congrArg some (apply_neg other _)) difference
      cases lowUnits
      cases highUnits
      rw [opposite]
      refine .absorbed ?_ (natAbs_apply other _)
      rw [natAbs_apply]
      exact (magnitude_lt first).2
    | zero =>
      have kept := same first lowUnits difference
      cases highUnits
      rw [kept]
      refine .rounded ?_
      rw [Int.sub_zero]
      exact .refl _
    | finite =>
      obtain ⟨rounded, read, rounds⟩ := rounds_sub first second
      cases lowUnits
      cases highUnits
      cases read.symm.trans difference
      exact .rounded rounds

/-- Adding a float takes its opposite off. -/
theorem add_eq_sub_neg (left right : UnpackedFloat) :
    UnpackedFloat.add Format.binary32 left right =
      UnpackedFloat.sub Format.binary32 left right.neg := by
  have twice (sign : Sign) : - -sign = sign := by cases sign <;> rfl
  cases left <;> cases right <;>
    simp only [UnpackedFloat.add, UnpackedFloat.sub, UnpackedFloat.neg, twice]
  simp only [apply_neg, Int.sub_neg]

/-- The opposite of a float in canonical form is in canonical form. -/
theorem IsCanonical.neg {value : UnpackedFloat} (canonical : IsCanonical value) :
    IsCanonical value.neg := by
  cases value <;> exact canonical

/-- The opposite float has the opposite units. -/
theorem unpackedUnits?_neg (value : UnpackedFloat) :
    unpackedUnits? value.neg = (unpackedUnits? value).map (- ·) := by
  cases value with
  | notANumber | zero => rfl
  | infinity | finite => exact congrArg some (apply_neg _ _)

/-- A difference that is a number is that of two numbers. -/
theorem exists_of_sub {left right : UnpackedFloat} {units : Int}
    (difference : packedUnits? (UnpackedFloat.sub Format.binary32 left right) = some units) :
    ∃ low high, unpackedUnits? left = some low ∧ unpackedUnits? right = some high := by
  have none : packedUnits? .notANumber = none := packedUnits?_canonical trivial
  cases left with
  | notANumber => cases none.symm.trans difference
  | infinity | zero | finite =>
    cases right with
    | notANumber => cases none.symm.trans difference
    | infinity | zero | finite => exact ⟨_, _, rfl, rfl⟩

/-- What a difference that is a number has to do with the two numbers. -/
theorem differs_of_sub {left right : Float32} {units : Int}
    (difference : units? (left - right) = some units) :
    ∃ low high, units? left = some low ∧ units? right = some high ∧ Differs low high units := by
  obtain ⟨low, high, lowUnits, highUnits⟩ := exists_of_sub difference
  exact ⟨low, high, lowUnits, highUnits, differs_sub (isCanonical_unpack _) (isCanonical_unpack _)
    lowUnits highUnits difference⟩

/-- What a sum that is a number has to do with the two numbers. -/
theorem differs_of_add {left right : Float32} {units : Int}
    (sum : units? (left + right) = some units) :
    ∃ low high, units? left = some low ∧ units? right = some high ∧ Differs low (-high) units := by
  have difference : packedUnits? (UnpackedFloat.sub Format.binary32 left.toModel.unpack
      right.toModel.unpack.neg) = some units := by
    rw [← add_eq_sub_neg]
    exact sum
  obtain ⟨low, opposite, lowUnits, oppositeUnits⟩ := exists_of_sub difference
  have differs := differs_sub (isCanonical_unpack _) (isCanonical_unpack _).neg lowUnits
    oppositeUnits difference
  rw [unpackedUnits?_neg] at oppositeUnits
  obtain ⟨high, highUnits, rfl⟩ := Option.map_eq_some_iff.1 oppositeUnits
  exact ⟨low, high, lowUnits, highUnits, differs⟩

/-- A sum with something that is not negative is not below what it is added to. -/
theorem lt_of_add_lt {left right bound : Float32} (nonneg : 0 ≤ right)
    (less : left + right < bound) : left < bound := by
  obtain ⟨sum, limit, sumUnits, limitUnits, order⟩ := lt_iff.1 less
  obtain ⟨low, high, lowUnits, highUnits, differs⟩ := differs_of_add sumUnits
  have added : 0 ≤ high := (le_iff_units units?_zero highUnits).1 nonneg
  have small := (representable_units lowUnits).le_infinityUnits
  have kept : low ≤ sum := by
    cases differs with
    | rounded rounds => exact rounds.below low (representable_units lowUnits) (by omega)
    | infinite => exact Int.le_refl _
    | absorbed => omega
  exact (lt_iff_units lowUnits limitUnits).2 (Int.lt_of_le_of_lt kept order)

/-- A difference with something that is not negative is not above what it is taken off. -/
theorem lt_of_lt_sub {left right bound : Float32} (nonneg : (units? right).isSome → 0 ≤ right)
    (less : bound < left - right) : bound < left := by
  obtain ⟨limit, difference, limitUnits, differenceUnits, order⟩ := lt_iff.1 less
  obtain ⟨low, high, lowUnits, highUnits, differs⟩ := differs_of_sub differenceUnits
  have number : (units? right).isSome := Option.isSome_iff_exists.2 ⟨high, highUnits⟩
  have taken : 0 ≤ high := (le_iff_units units?_zero highUnits).1 (nonneg number)
  have small := (representable_units lowUnits).le_infinityUnits
  have kept : difference ≤ low := by
    cases differs with
    | rounded rounds => exact rounds.above low (representable_units lowUnits) (by omega)
    | infinite => exact Int.le_refl _
    | absorbed => omega
  exact (lt_iff_units limitUnits lowUnits).2 (Int.lt_of_lt_of_le order kept)

/-- What is taken off something as large leaves nothing negative, if it leaves a number. -/
theorem sub_nonneg {left right : Float32} (positive : 0 < right) (order : right ≤ left)
    (number : (units? (left - right)).isSome) : 0 ≤ left - right := by
  obtain ⟨difference, differenceUnits⟩ := Option.isSome_iff_exists.1 number
  obtain ⟨low, high, lowUnits, highUnits, differs⟩ := differs_of_sub differenceUnits
  have some : 0 < high := (lt_iff_units units?_zero highUnits).1 positive
  have fewer : high ≤ low := (le_iff_units highUnits lowUnits).1 order
  have kept : 0 ≤ difference := by
    cases differs with
    | rounded rounds => exact rounds.below 0 (representable_units units?_zero) (by omega)
    | infinite | absorbed => omega
  exact (le_iff_units units?_zero differenceUnits).2 kept

end SkillEngine.Single
