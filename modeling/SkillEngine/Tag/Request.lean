import SkillEngine.Reply
import SkillEngine.Tag.Counts

/-!
# Requests to held tags
-/

namespace SkillEngine

/-- What can be asked of an entity's tags. -/
inductive TagRequest where
  /-- Gives a tag once more; tells whether it appeared. -/
  | add (tag : Tag)
  /-- Takes a tag away once; tells whether it disappeared. -/
  | remove (tag : Tag)
  /-- How often a tag is held. -/
  | count (tag : Tag)
  /-- Whether a tag is held exactly. -/
  | hasExact (tag : Tag)
  /-- Whether a tag is matched. -/
  | has (tag : Tag)
  /-- Gives each tag of a set once more; lists those that appeared. -/
  | addAll (tags : TagSet)
  /-- Takes each tag of a set away once; lists those that disappeared. -/
  | removeAll (tags : TagSet)
  /-- Whether every tag of a set is matched. -/
  | hasAll (tags : TagSet)
  /-- Whether some tag of a set is matched. -/
  | hasAny (tags : TagSet)
  /-- The held tags. -/
  | toSet
  /-- Listens under a name; tells the subscription. -/
  | watch (name : String)
  /-- Stops listening; tells whether the subscription was live. -/
  | unwatch (id : SubscriptionId)
  /-- Drops everything held and everyone listening. -/
  | clear

/-- Performs a request on held tags. The events are paired with those who hear of them. -/
def TagRequest.perform (counts : TagCounts) :
    TagRequest → Outcome TagCounts (TagListener × TagEvent)
  | .add tag =>
    let (appeared, after) := counts.add tag
    ⟨.flag appeared, after, counts.notices (if appeared then [.added tag] else [])⟩
  | .remove tag =>
    let (vanished, after) := counts.remove tag
    ⟨.flag vanished, after, counts.notices (if vanished then [.removed tag] else [])⟩
  | .count tag => ⟨.count (counts.count tag), counts, []⟩
  | .hasExact tag => ⟨.flag (counts.hasExact tag), counts, []⟩
  | .has tag => ⟨.flag (counts.hasTag tag), counts, []⟩
  | .addAll tags =>
    let (appeared, after) := counts.addEach tags.tags
    ⟨.paths appeared, after, counts.notices (appeared.map .added)⟩
  | .removeAll tags =>
    let (vanished, after) := counts.removeEach tags.tags
    ⟨.paths vanished, after, counts.notices (vanished.map .removed)⟩
  | .hasAll tags => ⟨.flag (counts.hasAll tags), counts, []⟩
  | .hasAny tags => ⟨.flag (counts.hasAny tags), counts, []⟩
  | .toSet => ⟨.paths counts.toSet.tags, counts, []⟩
  | .watch name =>
    let (id, listeners) := counts.listeners.subscribe (.named name)
    ⟨.count id.raw, { counts with listeners }, []⟩
  | .unwatch id =>
    ⟨.flag (counts.listeners.subscribed id),
      { counts with listeners := counts.listeners.unsubscribe id }, []⟩
  | .clear => ⟨.nothing, counts.clear, []⟩

end SkillEngine
