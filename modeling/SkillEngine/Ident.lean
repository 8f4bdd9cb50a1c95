/-!
# Identifiers

The host hands out entity, attribute, skill and node numbers; the engine numbers cues, effect
instances, modifier sources and subscriptions. Each kind of number is a type of its own, ordered
as its number is, with a display form for messages.
-/

namespace SkillEngine

/-- A participant of the simulation. -/
structure EntityId where
  /-- The number the host gave it. -/
  raw : UInt32
  deriving DecidableEq, Inhabited, Repr

/-- A kind of attribute, such as health. -/
structure AttributeId where
  /-- The number the game gave it. -/
  raw : UInt16
  deriving DecidableEq, Inhabited, Repr

/-- A skill: one authored graph. -/
structure SkillId where
  /-- The authored number. -/
  raw : UInt32
  deriving DecidableEq, Inhabited, Repr

/-- A node, unique within its skill. -/
structure NodeId where
  /-- The authored number. -/
  raw : UInt32
  deriving DecidableEq, Inhabited, Repr

/-- A running cue. -/
structure CueId where
  /-- The number counted up from zero. -/
  raw : Nat
  deriving DecidableEq, Inhabited, Repr

/-- One activation of an effect. -/
structure EffectId where
  /-- The number counted up from one. -/
  raw : Nat
  deriving DecidableEq, Inhabited, Repr

/-- Whatever attached a modifier, normally an effect instance. -/
structure SourceId where
  /-- The number of the owner. -/
  raw : Nat
  deriving DecidableEq, Inhabited, Repr

/-- One subscription of a listener list. -/
structure SubscriptionId where
  /-- The number counted up from zero in its list. -/
  raw : Nat
  deriving DecidableEq, Inhabited, Repr

/-- Where a live effect is found: the entity that carries it, and its own number. -/
structure EffectHandle where
  /-- The entity that carries the effect. -/
  target : EntityId
  /-- The instance. -/
  id : EffectId
  deriving DecidableEq, Inhabited, Repr

namespace EntityId

instance : LT EntityId := ⟨fun left right => left.raw < right.raw⟩

instance : DecidableLT EntityId :=
  fun left right => inferInstanceAs (Decidable (left.raw < right.raw))

/-- The display form, as in error messages. -/
def display (id : EntityId) : String := "Entity(" ++ toString id.raw ++ ")"

end EntityId

namespace AttributeId

instance : LT AttributeId := ⟨fun left right => left.raw < right.raw⟩

instance : DecidableLT AttributeId :=
  fun left right => inferInstanceAs (Decidable (left.raw < right.raw))

/-- The display form, which also stands in for a missing name. -/
def display (id : AttributeId) : String := "Attr(" ++ toString id.raw ++ ")"

end AttributeId

/-- The display form, as in error messages. -/
def SkillId.display (id : SkillId) : String := "Skill(" ++ toString id.raw ++ ")"

/-- The display form, as in error messages. -/
def NodeId.display (id : NodeId) : String := "Node(" ++ toString id.raw ++ ")"

/-- The display form of a cue number. -/
def CueId.display (id : CueId) : String := "Cue(" ++ toString id.raw ++ ")"

/-- The display form of an instance number. -/
def EffectId.display (id : EffectId) : String := "Effect(" ++ toString id.raw ++ ")"

/-- An effect instance owns the modifiers that it attaches under its own number. -/
def EffectId.source (id : EffectId) : SourceId := ⟨id.raw⟩

end SkillEngine
