import SkillEngine.Proofs.Reading
import SkillEngine.Proofs.JsonText

/-!
# The spelling of constants

A decimal is written in full or with an exponent, and either way the digits are told from the text.
-/

namespace SkillEngine.Number

open Significand (Spells)

/-- A number taken on through some digits. -/
def joined (number : Nat) (digits : List Nat) : Nat :=
  digits.foldl (fun number digit => number * 10 + digit) number

/-- A number taken on through the digits of two lists is taken on through the first, then the
second. -/
theorem joined_append (number : Nat) (first second : List Nat) :
    joined number (first ++ second) = joined (joined number first) second :=
  List.foldl_append

/-- The digits of a number are joined to it. -/
theorem joined_digitsOf (number : Nat) : joined 0 (digitsOf number) = number := by
  rw [joined, digitsOf, List.foldl_map]
  exact Json.numberOf_toDigits number

/-- The digits of a number are digits. -/
theorem digitsOf_lt {number digit : Nat} (member : digit ∈ digitsOf number) : digit < 10 := by
  obtain ⟨character, written, rfl⟩ := List.mem_map.1 member
  have decimal := Nat.isDigit_of_mem_toDigits (by decide) (by decide) written
  have most : character.toNat ≤ '9'.toNat := (Char.isDigit_iff_toNat.1 decimal).2
  change character.toNat ≤ 57 at most
  show character.toNat - 48 < 10
  omega

/-- A positive number has a digit. -/
theorem length_digitsOf_pos {number : Nat} (positive : 0 < number) :
    0 < (digitsOf number).length := by
  rw [List.length_pos_iff]
  intro none
  have joined := joined_digitsOf number
  rw [none] at joined
  exact Nat.ne_of_gt positive joined.symm

/-- A number grows as it is taken on. -/
theorem le_joined (number : Nat) (digits : List Nat) : number ≤ joined number digits := by
  induction digits generalizing number with
  | nil => exact Nat.le_refl number
  | cons digit rest ih =>
    have grown := ih (number * 10 + digit)
    show number ≤ joined (number * 10 + digit) rest
    omega

/-- As many digits take a number to less than the next power of ten. -/
theorem joined_lt {digits : List Nat} (small : ∀ digit ∈ digits, digit < 10) (number : Nat) :
    joined number digits < (number + 1) * 10 ^ digits.length := by
  induction digits generalizing number with
  | nil => show number < (number + 1) * 1; omega
  | cons digit rest ih =>
    obtain ⟨first, others⟩ := List.forall_mem_cons.1 small
    calc joined (number * 10 + digit) rest
      _ < (number * 10 + digit + 1) * 10 ^ rest.length := ih others _
      _ ≤ (number + 1) * 10 * 10 ^ rest.length := Nat.mul_le_mul_right _ (by omega)
      _ = (number + 1) * 10 ^ (rest.length + 1) := by rw [Nat.pow_succ']; ring

/-- What stays below the bound is taken on through all digits. -/
theorem absorb_eq {number : Nat} {digits : List Nat}
    (short : joined number digits < UInt64.size) :
    Numeral.absorb number digits = (joined number digits, 0) := by
  induction digits generalizing number with
  | nil => rfl
  | cons digit rest ih =>
    change joined (number * 10 + digit) rest < _ at short
    have next : number * 10 + digit < UInt64.size :=
      Nat.lt_of_le_of_lt (le_joined _ rest) short
    rw [Numeral.absorb, if_pos next, ih short]
    rfl

/-- The leading digits of a numeral are all its digits if they are few. -/
theorem scientific_eq {numeral : Numeral}
    (short : joined numeral.whole numeral.fraction < UInt64.size) :
    numeral.scientific = (joined numeral.whole numeral.fraction,
      numeral.exponent.getD 0 - numeral.fraction.length) := by
  have whole : joined 0 (digitsOf numeral.whole) < UInt64.size := by
    rw [joined_digitsOf]
    exact Nat.lt_of_le_of_lt (le_joined _ _) short
  have first := absorb_eq whole
  rw [joined_digitsOf] at first
  rw [Numeral.scientific, first]
  simp only [absorb_eq short]
  rw [Nat.sub_zero]
  congr 1
  omega

/-- A numeral is a decimal under a sign, its digits after the point being digits. -/
structure IsSpelling (numeral : Numeral) (negative : Bool) (digits : Nat) (place : Int) : Prop where
  /-- The sign is that of the numeral. -/
  sign : numeral.negative = negative
  /-- It can be written. -/
  written : numeral.IsWritten
  /-- It is not a whole number. -/
  broken : numeral.isWord = false
  /-- It is told in full from few digits. -/
  spells : ∃ count power, numeral.scientific = (count, power) ∧
    Spells digits place count power ∧ count < 2 ^ 53

variable {digits : Nat} {place : Int}

/-- A numeral whose digits are those of a decimal, its last one at the decimal's place. -/
theorem IsSpelling.of_placed {numeral : Numeral} (short : digits < 2 ^ 31)
    (written : numeral.IsWritten)
    (broken : 0 < numeral.fraction.length ∨ numeral.exponent.isSome = true)
    (all : joined numeral.whole numeral.fraction = digits)
    (last : numeral.exponent.getD 0 - numeral.fraction.length = place) :
    IsSpelling numeral numeral.negative digits place := by
  have size : 2 ^ 31 < UInt64.size := by decide
  have told := scientific_eq (all ▸ Nat.lt_trans short size)
  refine ⟨rfl, written, ?_, digits, place, ?_, .placed, Nat.lt_trans short (by decide)⟩
  · rw [Numeral.isWord, Numeral.isWhole]
    rcases broken with some | some
    · rw [List.isEmpty_eq_false_iff.2 (List.length_pos_iff.1 some)]
      rfl
    · rw [Option.isSome_iff_exists] at some
      obtain ⟨power, written⟩ := some
      rw [written]
      simp
  · rw [told, all, last]

/-- Zeros in front of a number do not change it. -/
theorem joined_replicate (count : Nat) : joined 0 (List.replicate count 0) = 0 := by
  induction count with
  | zero => rfl
  | succ count ih => exact ih

/-- A whole decimal that is written in full has one more digit, a zero behind the point. -/
theorem isSpelling_full (negative : Bool) {length : Nat} (bound : digits < 10 ^ length)
    (whole : 0 ≤ place) (few : length + place ≤ 13) :
    IsSpelling ⟨negative, digits * Nat.pow 10 place.toNat, [0], none⟩ negative digits place := by
  obtain ⟨power, same⟩ : ∃ power : Nat, place = power := ⟨_, (Int.toNat_of_nonneg whole).symm⟩
  subst same
  rw [Int.toNat_natCast]
  have short : digits * 10 ^ power * 10 < 10 ^ 14 := by
    calc digits * 10 ^ power * 10
      _ < 10 ^ length * 10 ^ power * 10 :=
        Nat.mul_lt_mul_of_pos_right (Nat.mul_lt_mul_of_pos_right bound (by positivity)) (by decide)
      _ = 10 ^ (length + power + 1) := by rw [Nat.pow_succ, Nat.pow_add]
      _ ≤ 10 ^ 14 := Nat.pow_le_pow_right (by decide) (by omega)
  have told : (⟨negative, digits * Nat.pow 10 power, [0], none⟩ : Numeral).scientific =
      (digits * 10 ^ power * 10, -1) :=
    scientific_eq (show digits * 10 ^ power * 10 < UInt64.size from Nat.lt_trans short (by decide))
  refine ⟨rfl, ?_, rfl, _, _, told, .full _ power rfl rfl, Nat.lt_trans short (by decide)⟩
  intro digit member
  rw [List.mem_singleton.1 member]
  decide

/-- The numeral of a decimal with few digits is a spelling of it. -/
theorem isSpelling_numeral (negative : Bool) (positive : 0 < digits) (short : digits < 2 ^ 31) :
    IsSpelling (Layout.single.numeral negative ⟨digits, place⟩) negative digits place := by
  have some := length_digitsOf_pos positive
  have whole := joined_digitsOf digits
  have small : ∀ digit ∈ digitsOf digits, digit < 10 := fun _ => digitsOf_lt
  have bound := joined_lt small 0
  rw [whole, Nat.zero_add, Nat.one_mul] at bound
  unfold Layout.numeral
  dsimp only
  generalize digitsOf digits = all at *
  have parted (count : Nat) :
      joined (joined 0 (all.take count)) (all.drop count) = digits := by
    rw [← joined_append, List.take_append_drop, whole]
  have behind (count : Nat) : ∀ digit ∈ all.drop count, digit < 10 :=
    fun digit member => small digit (List.mem_of_mem_drop member)
  split
  · next full =>
    obtain ⟨least, most⟩ : -6 < (all.length : Int) + place ∧ (all.length : Int) + place ≤ 13 := full
    split
    · next up => exact isSpelling_full negative bound up most
    · next down =>
      split
      · next within =>
        refine .of_placed short (behind _) (.inl ?_) (parted _) ?_
        · show 0 < (all.drop _).length
          rw [List.length_drop]
          omega
        · show (0 : Int) - (all.drop _).length = place
          rw [List.length_drop]
          omega
      · next before =>
        refine .of_placed short ?_ (.inl ?_) ?_ ?_
        · intro digit member
          rcases List.mem_append.1 member with zero | other
          · rw [List.eq_of_mem_replicate zero]
            decide
          · exact small digit other
        · show 0 < (List.replicate _ 0 ++ all).length
          rw [List.length_append]
          omega
        · show joined 0 (List.replicate _ 0 ++ all) = digits
          rw [joined_append, joined_replicate, whole]
        · show (0 : Int) - (List.replicate _ 0 ++ all).length = place
          rw [List.length_append, List.length_replicate]
          omega
  · next far =>
    refine .of_placed short (behind 1) (.inr rfl) (parted 1) ?_
    show (all.length : Int) + place - 1 - (all.drop 1).length = place
    rw [List.length_drop]
    omega

end SkillEngine.Number
