import SkillEngine.Number.Stored

/-!
# Engine settings
-/

namespace SkillEngine

/-- The settings of a world. -/
structure EngineConfig where
  /-- The deepest chain of port firings; deeper branches are cut. -/
  maxCascadeDepth : UInt32 := 64
  /-- The factor on every tick. -/
  timeScale : Number.Single := .one
  /-- The seed of the dice. -/
  seed : UInt64 := 0
  deriving DecidableEq, Inhabited

end SkillEngine
