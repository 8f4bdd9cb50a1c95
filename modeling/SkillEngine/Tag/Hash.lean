/-!
# Path hashes

A path is hashed from its bytes in little-endian words: eight bytes at a time, then a rest of four,
of two and of one, and last a closing byte. Tags are compared by this hash.
-/

namespace SkillEngine.Tag

/-- Stirs one word into a hash. -/
def mix (hash word : UInt64) : UInt64 :=
  (((hash <<< 5) ||| (hash >>> 59)) ^^^ word) * 0x517cc1b727220a95

/-- Some bytes as one word, the first byte lowest. -/
def littleEndian : List UInt8 → UInt64
  | [] => 0
  | byte :: rest => byte.toUInt64 ||| (littleEndian rest <<< 8)

/-- Stirs in the bytes that are too few for a word of eight. -/
def mixRest : UInt64 → List UInt8 → UInt64
  | hash, b0 :: b1 :: b2 :: b3 :: rest => mixRest (mix hash (littleEndian [b0, b1, b2, b3])) rest
  | hash, b0 :: b1 :: rest => mixRest (mix hash (littleEndian [b0, b1])) rest
  | hash, b0 :: rest => mixRest (mix hash b0.toUInt64) rest
  | hash, [] => hash

/-- Stirs in bytes, eight at a time while there are eight. -/
def mixBytes : UInt64 → List UInt8 → UInt64
  | hash, b0 :: b1 :: b2 :: b3 :: b4 :: b5 :: b6 :: b7 :: rest =>
    mixBytes (mix hash (littleEndian [b0, b1, b2, b3, b4, b5, b6, b7])) rest
  | hash, rest => mixRest hash rest

/-- The hash of a path. -/
def pathHash (path : String) : UInt64 := mix (mixBytes 0 path.toByteArray.data.toList) 0xff

end SkillEngine.Tag
