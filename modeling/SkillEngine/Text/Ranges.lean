/-!
# Ranges of characters

A property of characters is kept as the list of the ranges of code points that have it, each with
its first and its last one.
-/

namespace SkillEngine.Text

/-- Ranges of code points, the ends included. -/
abbrev Ranges := List (Nat × Nat)

/-- The character lies in one of the ranges. -/
def Ranges.contains (ranges : Ranges) (character : Char) : Bool :=
  ranges.any fun range => range.1 ≤ character.toNat && character.toNat ≤ range.2

end SkillEngine.Text
