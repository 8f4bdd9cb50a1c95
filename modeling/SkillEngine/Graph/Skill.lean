import SkillEngine.Graph.Node

/-!
# Skill graphs

A skill is a table of nodes and a table of connections. It is valid when no two nodes share a
number and every connection joins nodes that it has; `validate` names the first fault, a repeated
node before a loose end.
-/

namespace SkillEngine

/-- Why the engine refuses something. -/
inductive EngineError where
  /-- The entity is registered already. -/
  | duplicateEntity (entity : EntityId)
  /-- A connection names a node that the skill lacks. -/
  | unknownNode (skill : SkillId) (node : NodeId)
  /-- Two nodes of a skill share a number. -/
  | duplicateNode (skill : SkillId) (node : NodeId)
  deriving DecidableEq, Repr

/-- The message of an error. -/
def EngineError.message : EngineError → String
  | .duplicateEntity entity => "entity " ++ entity.display ++ " already exists"
  | .unknownNode skill node =>
    "skill " ++ skill.display ++ ": connection references unknown node " ++ node.display
  | .duplicateNode skill node =>
    "skill " ++ skill.display ++ ": node " ++ node.display ++ " defined twice"

/-- One authored skill. -/
structure SkillGraph where
  /-- Its number. -/
  id : SkillId
  /-- Its name. -/
  name : String := ""
  /-- The node table. -/
  nodes : List Node := []
  /-- The connection table. -/
  connections : List Connection := []
  deriving Inhabited

namespace SkillGraph

/-- The first number of a list that also stands earlier, in the list or among `seen`. -/
def firstRepeated (seen : List NodeId) : List NodeId → Option NodeId
  | [] => none
  | id :: rest => if seen.contains id then some id else firstRepeated (id :: seen) rest

/-- The numbers of the nodes. -/
def nodeIds (graph : SkillGraph) : List NodeId := graph.nodes.map (·.id)

/-- Both ends of every connection, in order. -/
def ends (graph : SkillGraph) : List NodeId :=
  graph.connections.flatMap fun connection => [connection.source, connection.target]

/-- Refuses a graph with a repeated node or a loose end. -/
def validate (graph : SkillGraph) : Except EngineError Unit :=
  match firstRepeated [] graph.nodeIds with
  | some node => .error (.duplicateNode graph.id node)
  | none =>
    match graph.ends.find? fun node => !graph.nodeIds.contains node with
    | some node => .error (.unknownNode graph.id node)
    | none => .ok ()

end SkillGraph

end SkillEngine
