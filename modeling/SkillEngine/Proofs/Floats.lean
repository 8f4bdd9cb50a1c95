import SkillEngine.Number.Scalar
import SkillEngine.Proofs.Rounding

/-!
# The order of single-precision floats

Every float that is a number is a whole number of units, infinity being as many as begin above the
largest finite single. Floats compare as their units do, and positive ones as their bits.
-/

namespace SkillEngine.Single

open Float.Model (Format UnpackedFloat)
open Float.Model.UnpackedFloat

/-- The units that an unpacked float has, if it is a number. -/
def unpackedUnits? : UnpackedFloat → Option Int
  | .notANumber => none
  | .infinity sign => some (sign.apply infinityUnits)
  | .zero _ => some 0
  | .finite sign mantissa exponent _ =>
    some (sign.apply (mantissa * 2 ^ (exponent + 149).toNat : Nat))

/-- The form that every finite single has exactly once. -/
def IsCanonical : UnpackedFloat → Prop
  | .finite _ mantissa exponent _ => ∃ place : Nat, exponent = place - 149 ∧ place < 254 ∧
      Placed mantissa place
  | _ => True

/-- The units that a float has, if it is a number. -/
def units? (value : Float32) : Option Int := unpackedUnits? value.toModel.unpack

/-- A place counts from the least exponent. -/
theorem toNat_place (place : Nat) : ((place : Int) - 149 + 149).toNat = place := by
  omega

/-- A mantissa behind its leading bit. -/
theorem toNat_leading (mantissa : BitVec 23) :
    (1#1 ++ mantissa).toNat = 2 ^ 23 + mantissa.toNat := by
  rw [BitVec.toNat_append, Nat.shiftLeft_eq, Nat.or_comm]
  change _ ||| 1 * 2 ^ 23 = _
  rw [Nat.one_mul, Nat.or_two_pow_eq_add_of_lt mantissa.isLt, Nat.add_comm]

/-- What the fields of a float, its exponent and its mantissa, say under a sign. A place above
another starts where the other one ends. -/
inductive Encodes (sign : Sign) (exponent mantissa : Nat) : UnpackedFloat → Prop where
  /-- The largest exponent without a mantissa is infinity. -/
  | infinity (top : exponent = 255) (none : mantissa = 0) :
      Encodes sign exponent mantissa (.infinity sign)
  /-- The largest exponent with a mantissa is no number. -/
  | notANumber : Encodes sign exponent mantissa .notANumber
  /-- Nothing is zero. -/
  | zero (least : exponent = 0) (none : mantissa = 0) : Encodes sign exponent mantissa (.zero sign)
  /-- All else is finite. -/
  | finite {single place : Nat} {positive : 0 < single} (small : place < 254)
      (placed : Placed single place)
      (fields : exponent * 2 ^ 23 + mantissa = place * 2 ^ 23 + single) :
      Encodes sign exponent mantissa (.finite sign single (place - 149) positive)

/-- What the fields of a float say is what is read from it. -/
theorem encodes_unpack (bits : BitVec Format.binary32.numBits) :
    Encodes (.ofBitVec (unpackSign bits)) (unpackExponent bits).toNat (unpackMantissa bits).toNat
      (UnpackedFloat.unpack Format.binary32 bits) := by
  have exponents : (unpackExponent bits).toNat < 2 ^ 8 := (unpackExponent bits).isLt
  have mantissas : (unpackMantissa bits).toNat < 2 ^ 23 := (unpackMantissa bits).isLt
  have subnormal : ((0 : Nat) : Int) - (Format.binary32.exponentBias +
      Format.binary32.mantissaBitsWithoutImplicit) + 1 = (0 : Nat) - 149 := rfl
  have normal (count : Nat) (some : count ≠ 0) : (count : Int) - (Format.binary32.exponentBias +
      Format.binary32.mantissaBitsWithoutImplicit) = (count - 1 : Nat) - 149 := by
    change (count : Int) - (127 + 23 : Nat) = _
    omega
  have whole : (1#1 ++ unpackMantissa bits).toNat = 2 ^ 23 + (unpackMantissa bits).toNat :=
    toNat_leading _
  unfold UnpackedFloat.unpack
  dsimp only
  split
  · next top =>
    split
    · next none => exact .infinity (congrArg BitVec.toNat top) (congrArg BitVec.toNat none)
    · exact .notANumber
  · next finite =>
    have below : (unpackExponent bits).toNat ≠ 255 := fun top => finite (BitVec.eq_of_toNat_eq top)
    split
    · next least =>
      have zero : (unpackExponent bits).toNat = 0 := congrArg BitVec.toNat least
      split
      · next none => exact .zero zero (congrArg BitVec.toNat none)
      · simp only [zero, subnormal]
        exact .finite (by decide) ⟨by omega, .inl rfl⟩ rfl
    · next regular =>
      have some : (unpackExponent bits).toNat ≠ 0 :=
        fun none => regular (BitVec.eq_of_toNat_eq none)
      simp only [normal _ some, whole]
      exact .finite (by omega) ⟨by omega, .inr (Nat.le_add_right _ _)⟩ (by omega)

/-- Every float is read in canonical form. -/
theorem isCanonical_unpack (bits : BitVec Format.binary32.numBits) :
    IsCanonical (UnpackedFloat.unpack Format.binary32 bits) := by
  have encodes := encodes_unpack bits
  generalize UnpackedFloat.unpack Format.binary32 bits = value at encodes
  cases encodes with
  | infinity | notANumber | zero => trivial
  | finite small placed => exact ⟨_, rfl, small, placed⟩

/-- A finite single has fewer units than infinity. -/
theorem Placed.lt_infinityUnits {mantissa place : Nat} (placed : Placed mantissa place)
    (small : place < 254) : mantissa * 2 ^ place < infinityUnits := by
  calc mantissa * 2 ^ place
    _ < 2 ^ 24 * 2 ^ place := Nat.mul_lt_mul_of_pos_right placed.short (Nat.two_pow_pos place)
    _ ≤ infinityUnits := Nat.mul_le_mul_left _ (Nat.pow_le_pow_right (by decide) (by omega))

/-- A finite single has fewer units than infinity, and some. -/
theorem magnitude_lt {sign : Sign} {mantissa : Nat} {exponent : Int} {positive : 0 < mantissa}
    (canonical : IsCanonical (.finite sign mantissa exponent positive)) :
    0 < mantissa * 2 ^ (exponent + 149).toNat ∧
      mantissa * 2 ^ (exponent + 149).toNat < infinityUnits := by
  obtain ⟨place, rfl, small, placed⟩ := canonical
  rw [toNat_place]
  exact ⟨Nat.mul_pos positive (Nat.two_pow_pos place), placed.lt_infinityUnits small⟩

/-- What is at a lower place has fewer units. -/
theorem Placed.mul_lt_mul {left right low high : Nat} (first : Placed left low)
    (second : Placed right high) (lower : low < high) : left * 2 ^ low < right * 2 ^ high := by
  have most : 2 ^ 23 ≤ right := second.leads.resolve_left (by omega)
  calc left * 2 ^ low
    _ < 2 ^ 24 * 2 ^ low := Nat.mul_lt_mul_of_pos_right first.short (Nat.two_pow_pos low)
    _ = 2 ^ 23 * 2 ^ (low + 1) := by rw [← Nat.pow_add, ← Nat.pow_add]; congr 1; omega
    _ ≤ 2 ^ 23 * 2 ^ high := Nat.mul_le_mul_left _ (Nat.pow_le_pow_right (by decide) lower)
    _ ≤ right * 2 ^ high := Nat.mul_le_mul_right _ most

/-- Canonical singles of one sign compare by exponent, then by mantissa, as their units do. -/
theorem compare_magnitudes {sign : Sign} {left right : Nat} {low high : Int} {positive : 0 < left}
    {positive' : 0 < right} (first : IsCanonical (.finite sign left low positive))
    (second : IsCanonical (.finite sign right high positive')) :
    (compare low high).then (compare left right) =
      compare ((left * 2 ^ (low + 149).toNat : Nat) : Int)
        (right * 2 ^ (high + 149).toNat : Nat) := by
  obtain ⟨place, rfl, _, placed⟩ := first
  obtain ⟨other, rfl, _, placed'⟩ := second
  rw [toNat_place, toNat_place]
  rcases Nat.lt_trichotomy place other with lower | rfl | higher
  · have less := placed.mul_lt_mul placed' lower
    rw [Int.compare_eq_lt.2 (by omega), Int.compare_eq_lt.2 (by omega)]
    rfl
  · have scale := Nat.two_pow_pos place
    rw [Int.compare_eq_eq.2 rfl, Ordering.eq_then]
    rcases Nat.lt_trichotomy left right with less | rfl | more
    · have below := Nat.mul_lt_mul_of_pos_right less scale
      rw [Nat.compare_eq_lt.2 less, Int.compare_eq_lt.2 (by omega)]
    · rw [Nat.compare_eq_eq.2 rfl, Int.compare_eq_eq.2 rfl]
    · have above := Nat.mul_lt_mul_of_pos_right more scale
      rw [Nat.compare_eq_gt.2 more, Int.compare_eq_gt.2 (by omega)]
  · have more := placed'.mul_lt_mul placed higher
    rw [Int.compare_eq_gt.2 (by omega), Int.compare_eq_gt.2 (by omega)]
    rfl

/-- Below zero the order is reversed. -/
theorem compare_neg (left right : Int) : compare (-left) (-right) = (compare left right).swap := by
  rcases Int.lt_trichotomy left right with less | rfl | more
  · rw [Int.compare_eq_lt.2 less, Int.compare_eq_gt.2 (by omega)]
    rfl
  · rw [Int.compare_eq_eq.2 rfl, Int.compare_eq_eq.2 rfl]
    rfl
  · rw [Int.compare_eq_gt.2 more, Int.compare_eq_lt.2 (by omega)]
    rfl

/-- Numbers compare as their units do, and what is no number does not compare. -/
theorem compare_unpacked {left right : UnpackedFloat} (first : IsCanonical left)
    (second : IsCanonical right) : left.compare right =
      (unpackedUnits? left).bind fun low => (unpackedUnits? right).map (compare low) := by
  have top : 0 < infinityUnits := Nat.mul_pos (Nat.two_pow_pos 24) (Nat.two_pow_pos 253)
  have less {low high : Int} (order : low < high) : some Ordering.lt = some (compare low high) :=
    congrArg some (Int.compare_eq_lt.2 order).symm
  have more {low high : Int} (order : high < low) : some Ordering.gt = some (compare low high) :=
    congrArg some (Int.compare_eq_gt.2 order).symm
  have same (units : Int) : some Ordering.eq = some (compare units units) :=
    congrArg some (Int.compare_eq_eq.2 rfl).symm
  cases left with
  | notANumber => rfl
  | infinity sign =>
    cases right with
    | notANumber => cases sign <;> rfl
    | infinity other =>
      cases sign <;> cases other
      · exact same _
      · exact less (by simp only [Sign.apply]; omega)
      · exact more (by simp only [Sign.apply]; omega)
      · exact same _
    | zero =>
      cases sign
      · exact less (by simp only [Sign.apply]; omega)
      · exact more (by simp only [Sign.apply]; omega)
    | finite other =>
      have bounds := magnitude_lt second
      cases sign
      · exact less (by cases other <;> simp only [Sign.apply] <;> omega)
      · exact more (by cases other <;> simp only [Sign.apply] <;> omega)
  | zero =>
    cases right with
    | notANumber => rfl
    | infinity other =>
      cases other
      · exact more (by simp only [Sign.apply]; omega)
      · exact less (by simp only [Sign.apply]; omega)
    | zero => exact same 0
    | finite other =>
      have bounds := magnitude_lt second
      cases other
      · exact more (by simp only [Sign.apply]; omega)
      · exact less (by simp only [Sign.apply]; omega)
  | finite sign =>
    have bounds := magnitude_lt first
    cases right with
    | notANumber => cases sign <;> rfl
    | infinity other =>
      cases other
      · exact more (by cases sign <;> simp only [Sign.apply] <;> omega)
      · exact less (by cases sign <;> simp only [Sign.apply] <;> omega)
    | zero =>
      cases sign
      · exact less (by simp only [Sign.apply]; omega)
      · exact more (by simp only [Sign.apply]; omega)
    | finite other =>
      have bounds' := magnitude_lt second
      cases sign <;> cases other
      · refine congrArg some ?_
        simp only [Sign.apply]
        rw [compare_neg, ← compare_magnitudes first second]
      · exact less (by simp only [Sign.apply]; omega)
      · exact more (by simp only [Sign.apply]; omega)
      · exact congrArg some (compare_magnitudes first second)

/-- Floats compare as their units do, and what is no number does not compare. -/
theorem compare_unpack (left right : Float32) :
    left.toModel.unpack.compare right.toModel.unpack =
      (units? left).bind fun low => (units? right).map (compare low) :=
  compare_unpacked (isCanonical_unpack _) (isCanonical_unpack _)

/-- A float is below another when both are numbers and it has fewer units. -/
theorem lt_iff {left right : Float32} :
    left < right ↔ ∃ low high, units? left = some low ∧ units? right = some high ∧ low < high := by
  have decided : left < right ↔ left.toModel.unpack.compare right.toModel.unpack = some .lt := by
    change decide (left.toModel < right.toModel) = true ↔ _
    rw [decide_eq_true_eq]
    exact beq_iff_eq
  rw [decided, compare_unpack]
  simp [Option.bind_eq_some_iff, Int.compare_eq_lt]

/-- A float is not above another when both are numbers and it has no more units. -/
theorem le_iff {left right : Float32} :
    left ≤ right ↔ ∃ low high, units? left = some low ∧ units? right = some high ∧ low ≤ high := by
  have decided : left ≤ right ↔
      (left.toModel.unpack.compare right.toModel.unpack).any (·.isLE) = true := by
    change decide (left.toModel ≤ right.toModel) = true ↔ _
    rw [decide_eq_true_eq]
    rfl
  rw [decided, compare_unpack]
  simp [Option.any_eq_true, Option.bind_eq_some_iff, Int.isLE_compare]

section Units

variable {left right : Float32} {low high : Int}

/-- Two numbers have the strict order of their units. -/
theorem lt_iff_units (first : units? left = some low) (second : units? right = some high) :
    left < right ↔ low < high := by
  rw [lt_iff, first, second]
  simp

/-- Two numbers have the order of their units. -/
theorem le_iff_units (first : units? left = some low) (second : units? right = some high) :
    left ≤ right ↔ low ≤ high := by
  rw [le_iff, first, second]
  simp

end Units

/-- A sign does not change how many units there are. -/
theorem natAbs_apply (sign : Sign) (magnitude : Nat) :
    (sign.apply magnitude).natAbs = magnitude := by
  cases sign
  · exact Int.natAbs_neg _
  · rfl

/-- The units that a float has are those of a single. -/
theorem representable_unpackedUnits? {value : UnpackedFloat} (canonical : IsCanonical value)
    {units : Int} (number : unpackedUnits? value = some units) : Representable units.natAbs := by
  cases value with
  | notANumber => cases number
  | infinity sign =>
    cases number
    rw [natAbs_apply]
    exact ⟨2 ^ 24, 253, Nat.le_refl _, Nat.le_refl _, rfl⟩
  | zero =>
    cases number
    exact ⟨0, 0, Nat.zero_le _, Nat.zero_le _, rfl⟩
  | finite sign mantissa exponent positive =>
    cases number
    obtain ⟨place, rfl, small, placed⟩ := canonical
    rw [natAbs_apply, toNat_place]
    exact ⟨mantissa, place, Nat.le_of_lt placed.short, by omega, rfl⟩

/-- The units that a float has are those of a single. -/
theorem representable_units {value : Float32} {units : Int} (number : units? value = some units) :
    Representable units.natAbs :=
  representable_unpackedUnits? (isCanonical_unpack _) number

/-- Zero has no units. -/
theorem units?_zero : units? 0 = some 0 := by decide +kernel

/-- A positive float has some units. -/
theorem exists_units_of_pos {value : Float32} (positive : 0 < value) :
    ∃ units, units? value = some units ∧ 0 < units := by
  obtain ⟨_, units, _, number, _⟩ := lt_iff.1 positive
  exact ⟨units, number, (lt_iff_units units?_zero number).1 positive⟩

section Order

variable {left middle right : Float32}

/-- If one float is below another, the other is not below or equal to it. -/
theorem not_le_of_lt (less : left < right) : ¬ right ≤ left := by
  obtain ⟨low, high, lowUnits, highUnits, order⟩ := lt_iff.1 less
  rw [le_iff_units highUnits lowUnits]
  omega

/-- What is below another is not above it. -/
theorem le_of_lt (less : left < right) : left ≤ right := by
  obtain ⟨low, high, lowUnits, highUnits, order⟩ := lt_iff.1 less
  exact (le_iff_units lowUnits highUnits).2 (Int.le_of_lt order)

/-- What is not below another is a number. -/
theorem isSome_of_le (order : left ≤ right) : (units? right).isSome := by
  obtain ⟨_, high, _, highUnits, _⟩ := le_iff.1 order
  exact Option.isSome_iff_exists.2 ⟨high, highUnits⟩

/-- Of two numbers, the one that the other is not below or equal to is below it. -/
theorem lt_of_not_le (first : (units? left).isSome) (second : (units? right).isSome)
    (order : ¬ right ≤ left) : left < right := by
  obtain ⟨low, lowUnits⟩ := Option.isSome_iff_exists.1 first
  obtain ⟨high, highUnits⟩ := Option.isSome_iff_exists.1 second
  rw [le_iff_units highUnits lowUnits] at order
  exact (lt_iff_units lowUnits highUnits).2 (Int.lt_of_not_ge order)

/-- What is below something is below all that is not below that. -/
theorem lt_of_lt_of_le (less : left < middle) (order : middle ≤ right) : left < right := by
  obtain ⟨low, mid, lowUnits, midUnits, below⟩ := lt_iff.1 less
  obtain ⟨high, highUnits⟩ := Option.isSome_iff_exists.1 (isSome_of_le order)
  have above : mid ≤ high := (le_iff_units midUnits highUnits).1 order
  exact (lt_iff_units lowUnits highUnits).2 (Int.lt_of_lt_of_le below above)

end Order

/-- The fields of a float make up its bits. -/
theorem toNat_fields (bits : BitVec Format.binary32.numBits) : bits.toNat =
    (unpackSign bits).toNat * 2 ^ 31 +
      ((unpackExponent bits).toNat * 2 ^ 23 + (unpackMantissa bits).toNat) := by
  have size : bits.toNat < 2 ^ 32 := bits.isLt
  have sign : (unpackSign bits).toNat = (bits.toNat >>> 31) % 2 ^ 1 := by
    simp [unpackSign]
  have exponent : (unpackExponent bits).toNat = (bits.toNat >>> 23) % 2 ^ 8 := by
    simp [unpackExponent]
  have mantissa : (unpackMantissa bits).toNat = bits.toNat % 2 ^ 23 := by
    simp [unpackMantissa]
  rw [sign, exponent, mantissa, Nat.shiftRight_eq_div_pow, Nat.shiftRight_eq_div_pow]
  omega

/-- A positive float is infinity or finite, and its bits tell its place and its mantissa. -/
inductive Positive (bits : Nat) (units : Int) : Prop where
  /-- It is infinity. -/
  | infinity (top : bits = 255 * 2 ^ 23) (all : units = infinityUnits) : Positive bits units
  /-- It is finite. -/
  | finite {single place : Nat} (small : place < 254) (placed : Placed single place)
      (fields : bits = place * 2 ^ 23 + single)
      (exact : units = (single * 2 ^ place : Nat)) : Positive bits units

/-- The bits and the units of a positive float. -/
theorem positive_toBits {value : Float32} {units : Int} (number : units? value = some units)
    (positive : 0 < units) : Positive value.toBits.toNat units := by
  have bits : value.toBits.toNat = _ := toNat_fields value.toModel.toBits.toBitVec
  have encodes := encodes_unpack value.toModel.toBits.toBitVec
  change unpackedUnits? (UnpackedFloat.unpack Format.binary32 value.toModel.toBits.toBitVec) = _
    at number
  generalize UnpackedFloat.unpack Format.binary32 value.toModel.toBits.toBitVec = read
    at encodes number
  generalize @unpackSign Format.binary32 value.toModel.toBits.toBitVec = sign at bits encodes
  have plain {magnitude : Nat} (same : (Sign.ofBitVec sign).apply magnitude = units) :
      sign.toNat = 0 ∧ units = magnitude := by
    unfold Sign.ofBitVec at same
    split at same
    · next clear =>
      subst clear
      exact ⟨rfl, same.symm⟩
    · simp only [Sign.apply] at same
      omega
  cases encodes with
  | notANumber => cases number
  | zero => cases number; omega
  | infinity top none =>
    obtain ⟨clear, whole⟩ := plain (Option.some.inj number)
    refine .infinity ?_ whole
    rw [bits, clear, top, none, Nat.zero_mul, Nat.zero_add, Nat.add_zero]
  | @finite single place above small placed fields =>
    obtain ⟨clear, whole⟩ := plain (Option.some.inj number)
    rw [toNat_place] at whole
    refine .finite small placed ?_ whole
    rw [bits, clear, fields, Nat.zero_mul, Nat.zero_add]

/-- Floats of the same bits are the same. -/
theorem eq_of_toBits {left right : Float32} (same : left.toBits = right.toBits) :
    left = right := by
  obtain ⟨⟨bits, valid⟩⟩ := left
  obtain ⟨⟨others, valid'⟩⟩ := right
  obtain rfl : bits = others := same
  rfl

/-- A positive number of units is that of one float. -/
theorem eq_of_units {left right : Float32} {units : Int} (first : units? left = some units)
    (second : units? right = some units) (positive : 0 < units) : left = right := by
  refine eq_of_toBits (UInt32.toNat_inj.1 ?_)
  cases positive_toBits first positive with
  | infinity top all =>
    cases positive_toBits second positive with
    | infinity top' => rw [top, top']
    | finite small placed _ exact =>
      have bound := placed.lt_infinityUnits small
      omega
  | @finite single place small placed fields exact =>
    have bound := placed.lt_infinityUnits small
    cases positive_toBits second positive with
    | infinity _ all => omega
    | @finite single' place' _ placed' fields' exact' =>
      rcases Nat.lt_trichotomy place place' with lower | rfl | higher
      · have less := placed.mul_lt_mul placed' lower
        omega
      · have same : single = single' :=
          Nat.eq_of_mul_eq_mul_right (Nat.two_pow_pos place) (by omega)
        omega
      · have more := placed'.mul_lt_mul placed higher
        omega

/-- A positive float has bits. -/
theorem toBits_pos {value : Float32} (positive : 0 < value) : 0 < value.toBits.toNat := by
  obtain ⟨units, number, some⟩ := exists_units_of_pos positive
  cases positive_toBits number some with
  | infinity top => omega
  | @finite single place _ _ fields exact =>
    have nonzero : single ≠ 0 := by
      rintro rfl
      rw [Nat.zero_mul] at exact
      omega
    omega

/-- A positive float below another has smaller bits. -/
theorem toBits_lt_toBits {left right : Float32} (positive : 0 < left) (less : left < right) :
    left.toBits.toNat < right.toBits.toNat := by
  obtain ⟨low, high, lowUnits, highUnits, order⟩ := lt_iff.1 less
  have some : 0 < low := (lt_iff_units units?_zero lowUnits).1 positive
  have bound := (representable_units highUnits).le_infinityUnits
  cases positive_toBits lowUnits some with
  | infinity => omega
  | @finite single place small placed fields exact =>
    have short : single < 2 ^ 24 := placed.short
    cases positive_toBits highUnits (by omega) with
    | infinity top => omega
    | @finite single' place' small' placed' fields' exact' =>
      rcases Nat.lt_trichotomy place place' with lower | rfl | higher
      · have most : 2 ^ 23 ≤ single' := placed'.leads.resolve_left (by omega)
        omega
      · have fewer : single < single' := by
          refine Nat.lt_of_mul_lt_mul_right (a := 2 ^ place) ?_
          omega
        omega
      · have more := placed'.mul_lt_mul placed higher
        omega

end SkillEngine.Single
