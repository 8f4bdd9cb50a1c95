import SkillEngine.Number.Decimal

/-!
# Written numbers

A numeral is a number as text spells it: sign, whole part, fraction and exponent. `Layout` is the
decision where a decimal is written out in full and where with an exponent. `Numeral.chars` writes
a numeral; `Numeral.toDouble?` and the whole-number readings give its values. Reading a double takes
two roundings, so it may miss the nearest one by a little.
-/

namespace SkillEngine.Number

/-- A number as it is spelled. -/
structure Numeral where
  /-- A minus sign comes first. -/
  negative : Bool
  /-- The part before the point. -/
  whole : Nat
  /-- The digits after the point; without digits there is no point. -/
  fraction : List Nat
  /-- The power of ten, if one is written. -/
  exponent : Option Int
  deriving DecidableEq, Repr

namespace Numeral

/-- The text of one digit. -/
def digitChar (digit : Nat) : Char := Char.ofNat ('0'.toNat + digit)

/-- The text of an exponent, whose plus sign may be left out. -/
def exponentChars (plus : Bool) (power : Int) : List Char :=
  'e' :: (if plus && 0 ≤ power then ['+'] else []) ++ (toString power).toList

/-- The text of a numeral, with or without a plus sign in its exponent. -/
def chars (plus : Bool) (numeral : Numeral) : List Char :=
  (if numeral.negative then ['-'] else [])
    ++ (digitsOf numeral.whole).map digitChar
    ++ (if numeral.fraction.isEmpty then [] else '.' :: numeral.fraction.map digitChar)
    ++ match numeral.exponent with
      | none => []
      | some power => exponentChars plus power

/-- The numeral of a natural number. -/
def ofNat (number : Nat) : Numeral := ⟨false, number, [], none⟩

/-- A whole numeral has neither fraction nor exponent; the negative zero is not whole. -/
def isWhole (numeral : Numeral) : Bool :=
  numeral.fraction.isEmpty && numeral.exponent.isNone && !(numeral.negative && numeral.whole = 0)

/-- The whole number below `bound` that a numeral writes. -/
def toNat? (numeral : Numeral) (bound : Nat) : Option Nat :=
  if numeral.isWhole && !numeral.negative && numeral.whole < bound then some numeral.whole else none

/-- A number taken on through some digits for as long as it stays below `2 ^ 64`, with the count of
digits that were left out. -/
def absorb (number : Nat) : List Nat → Nat × Nat
  | [] => (number, 0)
  | digit :: rest =>
    if number * 10 + digit < UInt64.size then absorb (number * 10 + digit) rest
    else (number, rest.length + 1)

/-- The leading digits of a numeral as one number below `2 ^ 64`, with the power of ten of the last
of them. Digits behind these count for their place alone. -/
def scientific (numeral : Numeral) : Nat × Int :=
  let (number, skipped) := absorb 0 (digitsOf numeral.whole)
  let (number, dropped) := absorb number numeral.fraction
  (number, numeral.exponent.getD 0 + skipped - (numeral.fraction.length - dropped : Nat))

/-- The nearest double of a power of ten. -/
def tenPower (power : Nat) : Float := Float.ofScientific 1 false power

/-- The double that `digits * 10 ^ place` is read as, the digits being a number below `2 ^ 64`: that
number is rounded to a double, which one product or quotient with a power of ten rounds once more. A
power beyond the largest that a double holds is divided off in two steps, the first by that largest
one; after two such steps nothing is left. None when the number is too large for any double. -/
def scaled (digits : Nat) (place : Int) : Option Float :=
  let value := Float.ofNat digits
  if 308 < place then if digits = 0 then some value else none
  else if 0 ≤ place then
    let product := value * tenPower place.toNat
    if product.isInf then none else some product
  else if -308 ≤ place then some (value / tenPower (-place).toNat)
  else if -616 ≤ place then some (value / tenPower 308 / tenPower (-place - 308).toNat)
  else some 0

/-- The double that a numeral is read as; none when it is too large for any. -/
def toDouble? (numeral : Numeral) : Option Float :=
  let (digits, place) := numeral.scientific
  (scaled digits place).map fun magnitude => if numeral.negative then -magnitude else magnitude

/-- A whole numeral of the signed or unsigned 64-bit range. -/
def isWord (numeral : Numeral) : Bool :=
  numeral.isWhole
    && (if numeral.negative then numeral.whole ≤ UInt64.size / 2 else numeral.whole < UInt64.size)

/-- The single-precision float that a numeral is read as: a 64-bit whole number is rounded once,
every other numeral is first read as a double. -/
def toSingle? (numeral : Numeral) : Option Float32 :=
  if numeral.isWord then
    let magnitude := Float32.ofNat numeral.whole
    some (if numeral.negative then -magnitude else magnitude)
  else numeral.toDouble?.map narrow

end Numeral

/-- Where a decimal is written out in full: from `least` (exclusive) to `most` (inclusive) digits
before the point, a negative count meaning zeros after it. Elsewhere it carries an exponent. -/
structure Layout where
  /-- The last digit count that takes an exponent below. -/
  least : Int
  /-- The last digit count that is written in full above. -/
  most : Int
  /-- The choice between two equally near decimals. -/
  tie : Tie

namespace Layout

/-- Single-precision constants in data files. -/
def single : Layout := ⟨-6, 13, .even⟩

/-- Double-precision constants in data files. -/
def double : Layout := ⟨-5, 16, .even⟩

/-- Numbers quoted in diagnostics. -/
def diagnostic : Layout := ⟨-4, 16, .up⟩

/-- The numeral of a decimal: a number written in full always has a fraction. -/
def numeral (layout : Layout) (negative : Bool) (decimal : Decimal) : Numeral :=
  let digits := digitsOf decimal.digits
  let point := (digits.length : Int) + decimal.place
  let join := fun (part : List Nat) => part.foldl (fun number digit => number * 10 + digit) 0
  if layout.least < point ∧ point ≤ layout.most then
    if 0 ≤ decimal.place then
      ⟨negative, decimal.digits * Nat.pow 10 decimal.place.toNat, [0], none⟩
    else if 0 < point then
      ⟨negative, join (digits.take point.toNat), digits.drop point.toNat, none⟩
    else ⟨negative, 0, List.replicate (-point).toNat 0 ++ digits, none⟩
  else ⟨negative, join (digits.take 1), digits.drop 1, some (point - 1)⟩

/-- The numeral of a finite stored constant; none when it is infinite or a NaN. -/
def ofSingle? (layout : Layout) (stored : Single) : Option Numeral :=
  let negative := stored.bits >= 0x80000000
  if !stored.isFinite then none
  else if stored.bits &&& 0x7fffffff = 0 then some ⟨negative, 0, [0], none⟩
  else some (layout.numeral negative ((Significand.ofSingle stored).shortest layout.tie))

/-- The numeral of a finite stored constant; none when it is infinite or a NaN. -/
def ofDouble? (layout : Layout) (stored : Double) : Option Numeral :=
  let negative := stored.bits >= 0x8000000000000000
  if !stored.isFinite then none
  else if stored.bits &&& 0x7fffffffffffffff = 0 then some ⟨negative, 0, [0], none⟩
  else some (layout.numeral negative ((Significand.ofDouble stored).shortest layout.tie))

end Layout

end SkillEngine.Number
