import SkillEngine.Cue.Stage
import SkillEngine.Reply
import SkillEngine.Tag.Counts

/-!
# Events

What a host hears while the world works, in the order in which it happens.
-/

namespace SkillEngine

/-- Something that a host hears of. -/
inductive Event where
  /-- A listener heard of a tag. -/
  | tag (listener : String) (event : TagEvent)
  /-- A hook was asked about a change. -/
  | asked (hook : String) (change : AttributeChange Float32)
  /-- An observer that reports for an entity heard of a change. -/
  | changed (observer : EntityId) (change : AttributeChange Float32)
  /-- A cue reported. -/
  | cue (event : CueEvent)
  /-- The host was asked for targets. -/
  | queried (origin : EntityId) (shape : SearchShape)
  /-- A node's script had a request answered, in or out of a tick. -/
  | scripted (skill : SkillId) (node : NodeId) (ticking : Bool) (reply : Reply)

/-- The event of an attribute's signal. -/
def Event.ofSignal : AttributeSignal → Event
  | .asked hook change => .asked hook change
  | .changed observer change => .changed observer change

/-- The event that a tag listener reports, if it reports any. -/
def Event.ofNotice? : TagListener × TagEvent → Option Event
  | (.named name, event) => some (.tag name event)
  | (.requirements, _) => none

end SkillEngine
