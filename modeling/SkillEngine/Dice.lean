import SkillEngine.Dice.ChaCha
import SkillEngine.Number.Stored

/-!
# Chance rolls

Every roll of a simulation draws from one seeded stream, so equal seeds and equal rolls give equal
results. The state is the seed with the number of draws made; a draw is two successive words of
the key stream, the low word first. A certain roll draws nothing, and a roll whose chance is a NaN
has no answer.
-/

namespace SkillEngine

/-- A seeded stream of draws, and how many were made. -/
structure Dice where
  /-- The seed. -/
  seed : UInt64
  /-- The draws made so far. -/
  drawn : Nat
  deriving DecidableEq, Inhabited

namespace Dice

/-- The next state of the generator that spreads a seed over a key. -/
def spread (state : UInt64) : UInt64 := state * 6364136223846793005 + 11634580027462260723

/-- The key word that a state of the spreading generator gives. -/
def keyWord (state : UInt64) : UInt32 :=
  let mixed := ((((state >>> 18) ^^^ state) >>> 27)).toUInt32
  let count := (state >>> 59).toUInt32
  (mixed >>> count) ||| (mixed <<< ((32 - count) % 32))

/-- The key of a seed. -/
def key (seed : UInt64) : ChaCha.Key :=
  let s1 := spread seed
  let s2 := spread s1
  let s3 := spread s2
  let s4 := spread s3
  let s5 := spread s4
  let s6 := spread s5
  let s7 := spread s6
  let s8 := spread s7
  #v[keyWord s1, keyWord s2, keyWord s3, keyWord s4, keyWord s5, keyWord s6, keyWord s7, keyWord s8]

/-- A stream at its start. -/
def ofSeed (seed : UInt64) : Dice := ⟨seed, 0⟩

/-- The draw at a position of a seed's stream. -/
def drawAt (seed : UInt64) (position : Nat) : UInt64 :=
  let low := ChaCha.word (key seed) (2 * position)
  let high := ChaCha.word (key seed) (2 * position + 1)
  high.toUInt64 <<< 32 ||| low.toUInt64

/-- The next draw. -/
def draw (dice : Dice) : UInt64 × Dice :=
  (drawAt dice.seed dice.drawn, { dice with drawn := dice.drawn + 1 })

/-- The number of 64-bit draws, out of `2 ^ 64`, below a chance in the unit interval. -/
def threshold (chance : Float) : Nat :=
  match Float.Model.UnpackedFloat.unpack Float.Model.Format.binary64 chance.toBits.toBitVec with
  | .finite .positive units exponent _ =>
    units * Nat.pow 2 (exponent + 64).toNat / Nat.pow 2 (-(exponent + 64)).toNat
  | _ => 0

/-- Rolls against a chance. A chance of one or more holds without a draw, one of zero or less fails
with a draw, and a NaN has no answer. -/
def roll (dice : Dice) (chance : Float32) : Option (Bool × Dice) :=
  if chance.isNaN then none
  else if 1 ≤ chance then some (true, dice)
  else
    let (value, dice) := dice.draw
    some (value.toNat < threshold (Number.widen (if chance < 0 then 0 else chance)), dice)

end Dice

end SkillEngine
