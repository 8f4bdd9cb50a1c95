import SkillEngine.Attribute.Sheet
import SkillEngine.Effect.Roster
import SkillEngine.Tag.Counts

/-!
# Entities

An entity is what the engine works on: attributes, held tags and effects under one number.
-/

namespace SkillEngine

/-- The attributes, tags and effects of one participant. -/
structure Entity where
  /-- Its number. -/
  id : EntityId
  /-- Its attributes. -/
  attributes : AttributeSheet
  /-- The tags that it holds. -/
  tags : TagCounts
  /-- The effects on it. -/
  effects : EffectRoster
  deriving Inhabited

namespace Entity

/-- An entity without attributes. -/
def bare (id : EntityId) : Entity := ⟨id, .empty, .empty, .empty⟩

/-- An entity with one attribute per row of a table. -/
def ofTable (id : EntityId) (table : AttributeTable) : Entity :=
  { bare id with attributes := .ofTable table }

/-- The cues that its live effects own. -/
def ownedCues (entity : Entity) : List CueId := entity.effects.live.flatMap (·.cues)

end Entity

end SkillEngine
