import SkillEngine.Graph.Library
import SkillEngine.Reply

/-!
# Requests to the skill library
-/

namespace SkillEngine

/-- What can be asked of the skill library. -/
inductive LibraryRequest where
  /-- Loads a skill, if it is valid. -/
  | insert (graph : SkillGraph)
  /-- Drops a skill; tells whether it was loaded. -/
  | remove (skill : SkillId)
  /-- Whether a skill is loaded. -/
  | contains (skill : SkillId)
  /-- A node. -/
  | find (skill : SkillId) (node : NodeId)
  /-- The nodes that a port leads to. -/
  | connected (skill : SkillId) (node : NodeId) (port : String)

/-- Performs a request on the library. -/
def LibraryRequest.perform (library : SkillLibrary) : LibraryRequest → Reply × SkillLibrary
  | .insert graph =>
    match library.insert graph with
    | .ok after => (.nothing, after)
    | .error error => (.refused (.engine error), library)
  | .remove skill => (.flag (library.contains skill), library.remove skill)
  | .contains skill => (.flag (library.contains skill), library)
  | .find skill node => (.optional .node (library.node? skill node), library)
  | .connected skill node port =>
    (.list (fun node => .count node.id.raw.toNat) (library.connected skill node port), library)

end SkillEngine
