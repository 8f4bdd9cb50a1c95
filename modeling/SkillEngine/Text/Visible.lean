import SkillEngine.Text.Extending
import SkillEngine.Text.Unassigned

/-!
# Visible characters

A character is visible when it has a shape of its own: it is assigned, extends no other, and is no
control, format or private one, no separator but the space, and no filler. Of the characters that
extend others only the letters are visible, since each fills a place of its own. The small classes
are those of version 17.0 of Unicode.
-/

namespace SkillEngine.Text

/-- Control characters (general category `Cc`). -/
def controls : Ranges :=
  [(0x0000, 0x001f), (0x007f, 0x009f)]

/-- Format characters (`Cf`). -/
def formats : Ranges :=
  [(0x00ad, 0x00ad), (0x0600, 0x0605), (0x061c, 0x061c), (0x06dd, 0x06dd), (0x070f, 0x070f),
   (0x0890, 0x0891), (0x08e2, 0x08e2), (0x180e, 0x180e), (0x200b, 0x200f), (0x202a, 0x202e),
   (0x2060, 0x2064), (0x2066, 0x206f), (0xfeff, 0xfeff), (0xfff9, 0xfffb), (0x110bd, 0x110bd),
   (0x110cd, 0x110cd), (0x13430, 0x1343f), (0x1bca0, 0x1bca3), (0x1d173, 0x1d17a),
   (0xe0001, 0xe0001), (0xe0020, 0xe007f)]

/-- Characters for private use (`Co`). -/
def privateUse : Ranges :=
  [(0xe000, 0xf8ff), (0xf0000, 0xffffd), (0x100000, 0x10fffd)]

/-- Separators of lines, paragraphs and words (`Zl`, `Zp`, `Zs`), the plain space left out. -/
def separators : Ranges :=
  [(0x00a0, 0x00a0), (0x1680, 0x1680), (0x2000, 0x200a), (0x2028, 0x2029), (0x202f, 0x202f),
   (0x205f, 0x205f), (0x3000, 0x3000)]

/-- Letters without a shape, which hold the place of a missing part of a syllable: of all letters,
those that are ignored where no shape is at hand (`Default_Ignorable_Code_Point`). -/
def fillers : Ranges :=
  [(0x115f, 0x1160), (0x3164, 0x3164), (0xffa0, 0xffa0)]

/-- The letters (general category `Lm`) among the extending characters: the half-width marks of
voiced sounds, which stand behind their letter and not over it. -/
def spacingMarks : Ranges :=
  [(0xff9e, 0xff9f)]

/-- The character has a shape of its own, or is the space. -/
def isVisible (character : Char) : Bool :=
  spacingMarks.contains character
    || [controls, formats, privateUse, separators, fillers, extending, unassigned].all
      fun ranges => !ranges.contains character

end SkillEngine.Text
