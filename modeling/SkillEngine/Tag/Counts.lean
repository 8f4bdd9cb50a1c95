import SkillEngine.Subscribers
import SkillEngine.Tag.Set

/-!
# Held tags

An entity holds each tag as often as it was given. A tag is listed while it is held at least once,
in the order in which the tags were last given anew. A tag is kept together with its count here; a
list of tags beside a map of their counts comes to the same (`TagLedger`). Only giving a tag anew
and taking it away entirely are events; a container's listeners hear of them in subscription order.
-/

namespace SkillEngine

/-- A tag appeared or disappeared. -/
inductive TagEvent where
  /-- The tag was not held before. -/
  | added (tag : Tag)
  /-- The tag is no longer held. -/
  | removed (tag : Tag)

/-- Who listens to an entity's tags. -/
inductive TagListener where
  /-- A host listener, which reports every event under its name. -/
  | named (name : String)
  /-- The engine itself, which re-checks ongoing requirements after a change. -/
  | requirements

/-- The tags that an entity holds. -/
structure TagCounts where
  /-- The held tags with their counts, in the order in which they appeared. -/
  held : List (Tag × Nat)
  /-- Who listens. -/
  listeners : Subscribers TagListener
  deriving Inhabited

namespace TagCounts

/-- Nothing held, nobody listening. -/
def empty : TagCounts := ⟨[], .empty⟩

/-- The held tags. -/
def tags (counts : TagCounts) : List Tag := counts.held.map (·.1)

/-- How often a tag is held. -/
def count (counts : TagCounts) (tag : Tag) : Nat :=
  match counts.held.find? (·.1.hash == tag.hash) with
  | some entry => entry.2
  | none => 0

/-- The tag is held, exactly. -/
def hasExact (counts : TagCounts) (tag : Tag) : Bool := counts.held.any (·.1.hash == tag.hash)

/-- A held tag is the tag or a descendant of it. -/
def hasTag (counts : TagCounts) (tag : Tag) : Bool := counts.held.any (·.1.hasTag tag)

/-- Every tag of a query is matched. -/
def hasAll (counts : TagCounts) (query : TagSet) : Bool := query.tags.all counts.hasTag

/-- Some tag of a query is matched. -/
def hasAny (counts : TagCounts) (query : TagSet) : Bool := query.tags.any counts.hasTag

/-- Gives a tag once more, and tells whether it appeared. -/
def add (counts : TagCounts) (tag : Tag) : Bool × TagCounts :=
  if counts.hasExact tag then
    (false, { counts with
      held := counts.held.map fun entry =>
        if entry.1.hash == tag.hash then (entry.1, entry.2 + 1) else entry })
  else (true, { counts with held := counts.held ++ [(tag, 1)] })

/-- Takes a tag away once, and tells whether it disappeared; a tag that is not held stays so. -/
def remove (counts : TagCounts) (tag : Tag) : Bool × TagCounts :=
  match counts.count tag with
  | 0 => (false, counts)
  | 1 => (true, { counts with held := counts.held.filter fun entry => entry.1.hash != tag.hash })
  | _ => (false, { counts with
      held := counts.held.map fun entry =>
        if entry.1.hash == tag.hash then (entry.1, entry.2 - 1) else entry })

/-- Gives some tags in turn, and lists those that appeared. -/
def addEach (counts : TagCounts) : List Tag → List Tag × TagCounts
  | [] => ([], counts)
  | tag :: rest =>
    let (appeared, counts) := counts.add tag
    let (others, counts) := counts.addEach rest
    (if appeared then tag :: others else others, counts)

/-- Takes some tags away in turn, and lists those that disappeared. -/
def removeEach (counts : TagCounts) : List Tag → List Tag × TagCounts
  | [] => ([], counts)
  | tag :: rest =>
    let (vanished, counts) := counts.remove tag
    let (others, counts) := counts.removeEach rest
    (if vanished then tag :: others else others, counts)

/-- The held tags as a set. -/
def toSet (counts : TagCounts) : TagSet := TagSet.ofList counts.tags

/-- The number of different tags held. -/
def size (counts : TagCounts) : Nat := counts.held.length

/-- No tag is held. -/
def isEmpty (counts : TagCounts) : Bool := counts.held.isEmpty

/-- Drops tags and listeners without an event. -/
def clear (counts : TagCounts) : TagCounts := ⟨[], counts.listeners.clear⟩

/-- Who hears what when events happen in turn. -/
def notices (counts : TagCounts) (events : List TagEvent) : List (TagListener × TagEvent) :=
  events.flatMap fun event => counts.listeners.listeners.map fun listener => (listener, event)

end TagCounts

end SkillEngine
