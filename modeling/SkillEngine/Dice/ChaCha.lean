/-!
# The ChaCha key stream with eight rounds

A block is sixteen words: four constants, the eight key words, a 64-bit block counter and two zero
words, stirred eight rounds and added to what they were before. `word` reads the concatenation of
all blocks by position.
-/

namespace SkillEngine.Dice.ChaCha

/-- The eight words of a key. -/
abbrev Key := Vector UInt32 8

/-- The sixteen words of a block. -/
abbrev Block := Vector UInt32 16

/-- A word turned left. -/
def turn (word : UInt32) (count : UInt32) : UInt32 :=
  (word <<< count) ||| (word >>> (32 - count))

/-- One quarter round on four words of a block. -/
def quarterRound (a b c d : Fin 16) (block : Block) : Block :=
  let block := block.set a (block[a] + block[b])
  let block := block.set d (turn (block[d] ^^^ block[a]) 16)
  let block := block.set c (block[c] + block[d])
  let block := block.set b (turn (block[b] ^^^ block[c]) 12)
  let block := block.set a (block[a] + block[b])
  let block := block.set d (turn (block[d] ^^^ block[a]) 8)
  let block := block.set c (block[c] + block[d])
  block.set b (turn (block[b] ^^^ block[c]) 7)

/-- A column round, then a diagonal round. -/
def doubleRound (block : Block) : Block :=
  block |> quarterRound 0 4 8 12 |> quarterRound 1 5 9 13
    |> quarterRound 2 6 10 14 |> quarterRound 3 7 11 15
    |> quarterRound 0 5 10 15 |> quarterRound 1 6 11 12
    |> quarterRound 2 7 8 13 |> quarterRound 3 4 9 14

/-- The block before the rounds. -/
def start (key : Key) (counter : UInt64) : Block :=
  #v[0x61707865, 0x3320646e, 0x79622d32, 0x6b206574,
    key[0], key[1], key[2], key[3], key[4], key[5], key[6], key[7],
    counter.toUInt32, (counter >>> 32).toUInt32, 0, 0]

/-- One block of the key stream. -/
def block (key : Key) (counter : UInt64) : Block :=
  let before := start key counter
  let after := before |> doubleRound |> doubleRound |> doubleRound |> doubleRound
  Vector.zipWith (· + ·) after before

/-- One word of the key stream, by its position. -/
def word (key : Key) (position : Nat) : UInt32 :=
  (block key (UInt64.ofNat (position / 16))).get ⟨position % 16, Nat.mod_lt _ (by decide)⟩

end SkillEngine.Dice.ChaCha
