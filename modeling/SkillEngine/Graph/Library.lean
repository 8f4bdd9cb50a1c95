import SkillEngine.Graph.Skill

/-!
# The skill library

The library holds the loaded skills and answers the two questions that running one asks: which node
has a number, and which nodes a port leads to. Nodes and edges are indexed by skill and node, so
an answer never scans a whole graph; loading a skill again replaces all of it, and a skill that is
refused changes nothing.
-/

namespace SkillEngine

/-- The loaded skills, indexed by skill and node. -/
structure SkillLibrary where
  /-- The nodes of each skill. -/
  nodes : List ((SkillId × NodeId) × Node)
  /-- The edges out of each node, in connection order: port and destination. -/
  outgoing : List ((SkillId × NodeId) × List (String × NodeId))
  /-- The node numbers of each loaded skill. -/
  skills : List (SkillId × List NodeId)
  deriving Inhabited

namespace SkillLibrary

/-- The library without skills. -/
def empty : SkillLibrary := ⟨[], [], []⟩

/-- The skill is loaded. -/
def contains (library : SkillLibrary) (skill : SkillId) : Bool :=
  (library.skills.lookup skill).isSome

/-- The library without a skill. -/
def remove (library : SkillLibrary) (skill : SkillId) : SkillLibrary :=
  match library.skills.lookup skill with
  | none => library
  | some ids =>
    let gone := fun (key : SkillId × NodeId) => key.1 == skill && ids.contains key.2
    ⟨library.nodes.filter fun entry => !gone entry.1,
      library.outgoing.filter fun entry => !gone entry.1,
      library.skills.filter fun entry => entry.1 != skill⟩

/-- An edge added behind the others of its node. -/
def addEdge (key : SkillId × NodeId) (edge : String × NodeId) :
    List ((SkillId × NodeId) × List (String × NodeId)) →
      List ((SkillId × NodeId) × List (String × NodeId))
  | [] => [(key, [edge])]
  | (other, edges) :: rest =>
    if other == key then (other, edges ++ [edge]) :: rest
    else (other, edges) :: addEdge key edge rest

/-- The library with a valid graph loaded in place of any earlier version. -/
def insert (library : SkillLibrary) (graph : SkillGraph) : Except EngineError SkillLibrary :=
  match graph.validate with
  | .error error => .error error
  | .ok () =>
    let cleared := library.remove graph.id
    .ok ⟨cleared.nodes ++ graph.nodes.map fun node => ((graph.id, node.id), node),
      graph.connections.foldl (fun outgoing connection =>
        addEdge (graph.id, connection.source) (connection.sourcePort, connection.target) outgoing)
        cleared.outgoing,
      cleared.skills ++ [(graph.id, graph.nodeIds)]⟩

/-- The node with a number. -/
def node? (library : SkillLibrary) (skill : SkillId) (node : NodeId) : Option Node :=
  library.nodes.lookup (skill, node)

/-- The nodes that a port leads to, in connection order. -/
def connected (library : SkillLibrary) (skill : SkillId) (node : NodeId) (port : String) :
    List Node :=
  match library.outgoing.lookup (skill, node) with
  | none => []
  | some edges => (edges.filter (·.1 == port)).filterMap fun edge => library.node? skill edge.2

/-- The number of loaded skills. -/
def size (library : SkillLibrary) : Nat := library.skills.length

/-- No skill is loaded. -/
def isEmpty (library : SkillLibrary) : Bool := library.skills.isEmpty

end SkillLibrary

end SkillEngine
