import SkillEngine.Number.Stored

/-!
# Shortest decimals

A finite binary float is a whole number of units, `significand * 2 ^ exponent`. Its shortest decimal
is the one with the fewest digits among those nearer to it than to any other float, and of those
the nearest; where two are equally near the caller's tie rule decides. Every comparison is made on
natural numbers by multiplying out.
-/

namespace SkillEngine.Number

/-- A decimal number: `digits * 10 ^ place`. -/
structure Decimal where
  /-- The digits, as one natural number. -/
  digits : Nat
  /-- The power of ten of the last digit. -/
  place : Int
  deriving DecidableEq, Repr

/-- Which of two equally near decimals is taken. -/
inductive Tie where
  /-- The one whose last digit is even. -/
  | even
  /-- The larger one. -/
  | up

/-- A finite positive binary float and the room around it. -/
structure Significand where
  /-- The whole number of units. -/
  units : Nat
  /-- The power of two of one unit. -/
  exponent : Int
  /-- The next float below is only half a unit away. -/
  narrowBelow : Bool

namespace Significand

/-- The significand of a finite, nonzero single-precision float, its sign left out. -/
def ofSingle (stored : Single) : Significand :=
  let fraction : Nat := stored.bits.toNat % Nat.pow 2 23
  let biased : Nat := stored.bits.toNat / Nat.pow 2 23 % Nat.pow 2 8
  if biased = 0 then ⟨fraction, -149, false⟩
  else ⟨Nat.pow 2 23 + fraction, (biased : Int) - 150, fraction = 0 && biased > 1⟩

/-- The significand of a finite, nonzero double-precision float, its sign left out. -/
def ofDouble (stored : Double) : Significand :=
  let fraction : Nat := stored.bits.toNat % Nat.pow 2 52
  let biased : Nat := stored.bits.toNat / Nat.pow 2 52 % Nat.pow 2 11
  if biased = 0 then ⟨fraction, -1074, false⟩
  else ⟨Nat.pow 2 52 + fraction, (biased : Int) - 1075, fraction = 0 && biased > 1⟩

/-- A quarter of one unit, as a fraction. -/
def quarter (float : Significand) : Nat × Nat :=
  if 0 ≤ float.exponent - 2 then (Nat.pow 2 (float.exponent - 2).toNat, 1)
  else (1, Nat.pow 2 (2 - float.exponent).toNat)

/-- The decimal `count * 10 ^ place` lies among the reals that round to the float; the ends of that
interval belong to it when the significand is even. -/
def admits (float : Significand) (count : Nat) (place : Int) : Bool :=
  let (top, bottom) := float.quarter
  let low := 4 * float.units - (if float.narrowBelow then 1 else 2)
  let high := 4 * float.units + 2
  let decimal := count * Nat.pow 10 place.toNat * bottom
  let scale := top * Nat.pow 10 (-place).toNat
  if float.units % 2 = 0 then low * scale ≤ decimal && decimal ≤ high * scale
  else low * scale < decimal && decimal < high * scale

/-- The distance of `count * 10 ^ place` from the float, in units that depend on `place` alone. -/
def distance (float : Significand) (count : Nat) (place : Int) : Nat :=
  let (top, bottom) := float.quarter
  let decimal := count * Nat.pow 10 place.toNat * bottom
  let value := 4 * float.units * top * Nat.pow 10 (-place).toNat
  (decimal - value) + (value - decimal)

/-- The largest whole number of steps `10 ^ place` that does not exceed the float. -/
def stepsBelow (float : Significand) (place : Int) : Nat :=
  let (top, bottom) := float.quarter
  4 * float.units * top * Nat.pow 10 (-place).toNat / (bottom * Nat.pow 10 place.toNat)

/-- Of the float's two neighbours on the grid of step `10 ^ place`, the nearer admitted one. -/
def onGrid (tie : Tie) (float : Significand) (place : Int) : Option Nat :=
  let below := float.stepsBelow place
  let above := below + 1
  match float.admits below place && below != 0, float.admits above place with
  | false, false => none
  | true, false => some below
  | false, true => some above
  | true, true =>
    let down := float.distance below place
    let up := float.distance above place
    if down < up then some below
    else if up < down then some above
    else match tie with
      | .even => some (if below % 2 = 0 then below else above)
      | .up => some above

/-- The first of `count` ever finer grids, from `place` downwards, that has an admitted point. -/
def firstGrid (tie : Tie) (float : Significand) : Nat → Int → Decimal
  | 0, place => ⟨float.stepsBelow place, place⟩
  | count + 1, place =>
    match float.onGrid tie place with
    | some digits => ⟨digits, place⟩
    | none => firstGrid tie float count (place - 1)

/-- A power of ten at the float's size: its binary length times the decimal logarithm of two. -/
def ceiling (float : Significand) : Int :=
  ((float.units.log2 : Int) + 1 + float.exponent) * 30103 / 100000 + 1

/-- The shortest decimal of the float. -/
def shortest (tie : Tie) (float : Significand) : Decimal :=
  float.firstGrid tie 20 float.ceiling

end Significand

/-- The decimal digits of a natural number, the leading one first. -/
def digitsOf (number : Nat) : List Nat :=
  (Nat.toDigits 10 number).map fun digit => digit.toNat - '0'.toNat

end SkillEngine.Number
