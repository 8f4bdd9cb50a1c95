import SkillEngine.Dict
import SkillEngine.Number.Stored

/-!
# Cue definitions

A cue is a presentation trigger: a name under which the host registered something to play, with a
duration and free numeric parameters.
-/

namespace SkillEngine

/-- The static description of a cue. -/
structure CueDef where
  /-- The name of what is played. -/
  cue : String
  /-- The seconds that it should last. -/
  duration : Number.Single := .zero
  /-- Numbers that are passed through. -/
  params : Dict String Number.Single := .empty
  deriving Inhabited

end SkillEngine
