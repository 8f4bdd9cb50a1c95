/-!
# Arithmetic of gameplay values

Gameplay rules need only the four operations, comparison, magnitude and counting. `Scalar` names
that arithmetic, so a rule stated once runs on single-precision floats and can be read over exact
numbers. `larger` and `smaller` are the float choices that prefer a number to a NaN.
-/

namespace SkillEngine.Number

/-- The arithmetic that aggregation and effect timers are written in. -/
class Scalar (S : Type) extends Zero S, One S, Add S, Sub S, Mul S, Div S, Neg S, LT S, LE S where
  /-- The strict order is decidable. -/
  decidableLt : DecidableLT S
  /-- The order is decidable. -/
  decidableLe : DecidableLE S
  /-- The value of a count. -/
  ofCount : Nat → S
  /-- The distance from zero. -/
  magnitude : S → S
  /-- Values nearer to zero than this one count as zero. -/
  nearZero : S
  /-- A bound on how often the second value can be taken off the first, each time making it
  strictly smaller, before the rest is below the second value. -/
  descents : S → S → Nat

attribute [reducible, instance] Scalar.decidableLt Scalar.decidableLe

/-- Zero is the positive zero. -/
instance instZeroFloat32 : Zero Float32 := ⟨Float32.ofBits 0⟩

/-- One is exact. -/
instance instOneFloat32 : One Float32 := ⟨Float32.ofBits 0x3f800000⟩

/-- Single precision: a positive float has no more floats below it than its bit pattern says. -/
instance instScalarFloat32 : Scalar Float32 where
  decidableLt := inferInstance
  decidableLe := inferInstance
  ofCount n := Float32.ofNat n
  magnitude := Float32.abs
  nearZero := Float32.ofBits 0x358637bd
  descents start _ := start.toBits.toNat

/-- The larger of two floats; a NaN gives way to the other operand. -/
def larger (left right : Float32) : Float32 :=
  if left.isNaN then right
  else if right.isNaN then left
  else if left < right then right else left

/-- The smaller of two floats; a NaN gives way to the other operand. -/
def smaller (left right : Float32) : Float32 :=
  if left.isNaN then right
  else if right.isNaN then left
  else if right < left then right else left

/-- Positive infinity. -/
def infinity : Float32 := Float32.ofBits 0x7f800000

/-- Negative infinity. -/
def negativeInfinity : Float32 := Float32.ofBits 0xff800000

end SkillEngine.Number
