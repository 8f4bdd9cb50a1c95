import SkillEngine.Number.Scalar
import Mathlib.Algebra.Order.Floor.Semiring
import Mathlib.Data.Rat.Floor
import Mathlib.Tactic.NormNum

/-!
# Exact arithmetic of gameplay values

The rules that are stated over any `Scalar` read over rational numbers, where nothing is rounded.
-/

namespace SkillEngine.Number

/-- Rational numbers; the threshold of zero is the value that its float has. -/
instance instScalarRat : Scalar ℚ where
  decidableLt := inferInstance
  decidableLe := inferInstance
  ofCount n := n
  magnitude value := |value|
  nearZero := 8796093 / 2 ^ 43
  descents start step := ⌊start / step⌋₊

/-- The threshold of zero is above zero. -/
theorem nearZero_pos : (0 : ℚ) < Scalar.nearZero := by
  change (0 : ℚ) < 8796093 / 2 ^ 43
  norm_num

end SkillEngine.Number
