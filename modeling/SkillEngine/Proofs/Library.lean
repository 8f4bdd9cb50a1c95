import SkillEngine.Graph.Request
import Mathlib.Data.List.Basic

/-!
# What the skill library answers

The library keeps three tables, keyed by skill and node, in step with the graphs that were loaded.
`SkillLibrary.Holds` ties the tables to the graph of each loaded skill. Loading and dropping keep
it, so every look-up answers what the tables of the graph itself say.
-/

namespace SkillEngine

/-- No two nodes share a number, and every connection joins nodes of the graph. -/
def SkillGraph.WellFormed (graph : SkillGraph) : Prop :=
  graph.nodeIds.Nodup ∧
    ∀ connection ∈ graph.connections,
      connection.source ∈ graph.nodeIds ∧ connection.target ∈ graph.nodeIds

instance (graph : SkillGraph) : Decidable graph.WellFormed :=
  inferInstanceAs (Decidable (_ ∧ _))

namespace SkillGraph

/-- The node with a number, in the graph's own table. -/
def node? (graph : SkillGraph) (id : NodeId) : Option Node := graph.nodes.find? (·.id == id)

/-- The connections that leave a port of a node, in the order of the graph's own table. -/
def wires (graph : SkillGraph) (id : NodeId) (port : String) : List Connection :=
  graph.connections.filter fun connection =>
    connection.source == id && connection.sourcePort == port

/-- No number of a list is found repeated exactly if they differ from each other and from those
that were seen before. -/
theorem firstRepeated_eq_none (ids seen : List NodeId) :
    firstRepeated seen ids = none ↔ ids.Nodup ∧ ∀ id ∈ ids, id ∉ seen := by
  induction ids generalizing seen with
  | nil => simp [firstRepeated]
  | cons id rest ih =>
    rw [firstRepeated]
    by_cases known : id ∈ seen
    · simp [known]
    · simp only [List.contains_eq_mem, known, decide_false, Bool.false_eq_true, if_false, ih,
        List.nodup_cons, List.mem_cons, not_or, forall_eq_or_imp, not_false_eq_true, true_and]
      constructor
      · rintro ⟨distinct, apart⟩
        exact ⟨⟨fun again => (apart id again).1 rfl, distinct⟩, fun other member =>
          (apart other member).2⟩
      · rintro ⟨⟨fresh, distinct⟩, apart⟩
        exact ⟨distinct,
          fun other member => ⟨fun same => fresh (same ▸ member), apart other member⟩⟩

/-- A graph passes the check exactly if it is well formed. -/
theorem validate_eq_ok_iff (graph : SkillGraph) : graph.validate = .ok () ↔ graph.WellFormed := by
  have loose : (graph.ends.find? fun node => !graph.nodeIds.contains node) = none ↔
      ∀ connection ∈ graph.connections,
        connection.source ∈ graph.nodeIds ∧ connection.target ∈ graph.nodeIds := by
    simp [ends]
  unfold validate WellFormed
  cases repeated : firstRepeated [] graph.nodeIds with
  | some node =>
    have twice : ¬ graph.nodeIds.Nodup := fun distinct => by
      have none := (firstRepeated_eq_none graph.nodeIds []).2 ⟨distinct, by simp⟩
      rw [repeated] at none
      cases none
    simp [twice]
  | none =>
    have distinct := ((firstRepeated_eq_none graph.nodeIds []).1 repeated).1
    rw [← loose]
    cases found : graph.ends.find? fun node => !graph.nodeIds.contains node with
    | some node => simp
    | none => simp [distinct]

end SkillGraph

namespace SkillLibrary

section Tables

variable {κ ν : Type} [BEq κ] [LawfulBEq κ]

/-- Looking up among the entries whose keys are kept. -/
theorem lookup_filter (keep : κ → Bool) (key : κ) (entries : List (κ × ν)) :
    (entries.filter fun entry => keep entry.1).lookup key =
      if keep key then entries.lookup key else none := by
  induction entries with
  | nil => simp
  | cons entry rest ih =>
    obtain ⟨other, value⟩ := entry
    by_cases here : key = other
    · subst here
      cases kept : keep key <;> simp [kept, ih]
    · have apart : (key == other) = false := by simpa using here
      cases kept : keep other <;> simp [kept, ih, List.lookup_cons, apart]

/-- Looking up among some values under the keys that they are given. -/
theorem lookup_map (key : κ) (keyOf : ν → κ) (values : List ν) :
    (values.map fun value => (keyOf value, value)).lookup key =
      values.find? (fun value => keyOf value == key) := by
  induction values with
  | nil => rfl
  | cons value rest ih =>
    by_cases here : key = keyOf value
    · simp [here]
    · have apart : (key == keyOf value) = false := by simpa using here
      have other : (keyOf value == key) = false := by simpa using Ne.symm here
      simp [List.lookup_cons, apart, other, ih]

/-- What is picked from a list of which every member gives something is what they give, in turn. -/
theorem map_some_filterMap {α β : Type} {pick : α → Option β} {values : List α}
    (given : ∀ value ∈ values, ∃ result, pick value = some result) :
    (values.filterMap pick).map some = values.map pick := by
  induction values with
  | nil => rfl
  | cons value rest ih =>
    obtain ⟨result, here⟩ := given value List.mem_cons_self
    have onward := ih fun later member => given later (List.mem_cons_of_mem _ member)
    rw [List.filterMap_cons_some here, List.map_cons, List.map_cons, onward, here]

end Tables

/-- The edges out of a node. -/
def edges (library : SkillLibrary) (skill : SkillId) (node : NodeId) : List (String × NodeId) :=
  (library.outgoing.lookup (skill, node)).getD []

/-- A port leads to the nodes at the ends of its edges. -/
theorem connected_eq (library : SkillLibrary) (skill : SkillId) (node : NodeId) (port : String) :
    library.connected skill node port =
      ((library.edges skill node).filter (·.1 == port)).filterMap
        fun edge => library.node? skill edge.2 := by
  unfold connected edges
  cases library.outgoing.lookup (skill, node) <;> rfl

/-- Adding an edge changes what its node answers and nothing else. -/
theorem lookup_addEdge (key other : SkillId × NodeId) (edge : String × NodeId)
    (entries : List ((SkillId × NodeId) × List (String × NodeId))) :
    ((addEdge key edge entries).lookup other).getD [] =
      (entries.lookup other).getD [] ++ if other = key then [edge] else [] := by
  induction entries with
  | nil =>
    by_cases same : other = key
    · simp [addEdge, same]
    · simp [addEdge, List.lookup_cons, beq_false_of_ne same, same]
  | cons entry rest ih =>
    obtain ⟨first, edges⟩ := entry
    rw [addEdge]
    by_cases here : first = key
    · subst here
      by_cases same : other = first
      · simp [same]
      · simp [List.lookup_cons, beq_false_of_ne same, same]
    · have apart : (first == key) = false := by simpa using here
      rw [apart]
      by_cases same : other = first
      · subst same
        simp [here]
      · have differs : (other == first) = false := by simpa using same
        simpa [List.lookup_cons, differs] using ih

/-- Adding the edges of some connections of a skill in turn. -/
theorem lookup_addEdges (skill : SkillId) (connections : List Connection) (key : SkillId × NodeId)
    (entries : List ((SkillId × NodeId) × List (String × NodeId))) :
    ((connections.foldl (fun outgoing connection =>
        addEdge (skill, connection.source) (connection.sourcePort, connection.target) outgoing)
        entries).lookup key).getD [] =
      (entries.lookup key).getD [] ++
        if key.1 = skill then
          (connections.filter (·.source == key.2)).map fun connection =>
            (connection.sourcePort, connection.target)
        else [] := by
  induction connections generalizing entries with
  | nil => simp
  | cons connection rest ih =>
    rw [List.foldl_cons, ih, lookup_addEdge, List.append_assoc]
    congr 1
    obtain ⟨owner, node⟩ := key
    by_cases mine : owner = skill
    · by_cases here : connection.source = node
      · simp [mine, here]
      · simp [mine, here, Ne.symm here]
    · simp [mine]

/-- The tables of a library are those of the graphs of its loaded skills. -/
structure Holds (library : SkillLibrary) (loaded : SkillId → Option SkillGraph) : Prop where
  /-- A loaded graph stands under its own number, and is well formed. -/
  wellFormed : ∀ skill graph, loaded skill = some graph → graph.id = skill ∧ graph.WellFormed
  /-- The loaded skills are listed with the numbers of their nodes. -/
  skills : ∀ skill, library.skills.lookup skill = (loaded skill).map (·.nodeIds)
  /-- A node is looked up in the graph of its skill. -/
  nodes : ∀ skill node, library.node? skill node = (loaded skill).bind (·.node? node)
  /-- The edges out of a node are the connections of the graph of its skill. -/
  edges : ∀ skill node, library.edges skill node =
    (loaded skill).elim [] fun graph =>
      (graph.connections.filter (·.source == node)).map fun connection =>
        (connection.sourcePort, connection.target)

/-- The library without skills holds none. -/
theorem holds_empty : empty.Holds fun _ => none where
  wellFormed _ _ found := by cases found
  skills _ := rfl
  nodes _ _ := rfl
  edges _ _ := rfl

namespace Holds

variable {library : SkillLibrary} {loaded : SkillId → Option SkillGraph}

/-- A node whose skill lists it not is not there, and nothing leaves it. -/
theorem unlisted (holds : library.Holds loaded) {skill : SkillId} {graph : SkillGraph}
    (found : loaded skill = some graph) {node : NodeId} (missing : node ∉ graph.nodeIds) :
    library.node? skill node = none ∧ library.edges skill node = [] := by
  have sources := (holds.wellFormed skill graph found).2.2
  have absent : graph.node? node = none := List.find?_eq_none.2 fun other member equal =>
    missing (beq_iff_eq.1 equal ▸ List.mem_map_of_mem member)
  have bare : graph.connections.filter (·.source == node) = [] :=
    List.filter_eq_nil_iff.2 fun connection member equal =>
      missing (beq_iff_eq.1 equal ▸ (sources connection member).1)
  rw [holds.nodes, holds.edges, found]
  exact ⟨absent, by simp [bare]⟩

/-- Dropping a skill leaves the others as they are. -/
theorem remove (holds : library.Holds loaded) (gone : SkillId) :
    (library.remove gone).Holds fun skill => if skill = gone then none else loaded skill := by
  cases found : loaded gone with
  | none =>
    -- Nothing is listed under the number, so nothing changes.
    have listed : library.skills.lookup gone = none := by rw [holds.skills, found]; rfl
    have same : (fun skill => if skill = gone then none else loaded skill) = loaded := by
      funext skill
      split
      · next here => rw [here, found]
      · rfl
    have kept : library.remove gone = library := by simp only [SkillLibrary.remove, listed]
    rw [same, kept]
    exact holds
  | some graph =>
    have listed : library.skills.lookup gone = some graph.nodeIds := by
      rw [holds.skills, found]; rfl
    let stays (key : SkillId × NodeId) : Bool := !(key.1 == gone && graph.nodeIds.contains key.2)
    have kept : library.remove gone =
        ⟨library.nodes.filter fun entry => stays entry.1,
          library.outgoing.filter fun entry => stays entry.1,
          library.skills.filter fun entry => entry.1 != gone⟩ := by
      simp only [SkillLibrary.remove, listed]
      rfl
    have others (skill : SkillId) (node : NodeId) (apart : skill ≠ gone) :
        stays (skill, node) = true := by simp [stays, apart]
    have own (node : NodeId) : stays (gone, node) = !graph.nodeIds.contains node := by simp [stays]
    rw [kept]
    refine ⟨fun skill other held => ?_, fun skill => ?_, fun skill node => ?_, fun skill node => ?_⟩
    · split at held
      · cases held
      · exact holds.wellFormed skill other held
    · change (library.skills.filter fun entry => entry.1 != gone).lookup skill = _
      rw [lookup_filter (· != gone)]
      by_cases here : skill = gone
      · simp [here]
      · simp [here, holds.skills]
    · change (library.nodes.filter fun entry => stays entry.1).lookup (skill, node) = _
      rw [lookup_filter]
      by_cases here : skill = gone
      · subst here
        by_cases member : node ∈ graph.nodeIds
        · simp [own, member]
        · have absent : library.nodes.lookup (skill, node) = none := (holds.unlisted found member).1
          simp [absent]
      · rw [others skill node here, if_pos rfl, if_neg here]
        exact holds.nodes skill node
    · change ((library.outgoing.filter fun entry => stays entry.1).lookup (skill, node)).getD [] = _
      rw [lookup_filter]
      by_cases here : skill = gone
      · subst here
        by_cases member : node ∈ graph.nodeIds
        · simp [own, member]
        · have bare : (library.outgoing.lookup (skill, node)).getD [] = [] :=
            (holds.unlisted found member).2
          cases stays (skill, node) <;> simp [bare]
      · rw [others skill node here, if_pos rfl, if_neg here]
        exact holds.edges skill node

/-- Loading a graph that passes the check puts it in the place of the one before. -/
theorem insert (holds : library.Holds loaded) {graph : SkillGraph} {after : SkillLibrary}
    (accepted : library.insert graph = .ok after) :
    after.Holds fun skill => if skill = graph.id then some graph else loaded skill := by
  unfold SkillLibrary.insert at accepted
  cases checked : graph.validate with
  | error error => rw [checked] at accepted; cases accepted
  | ok _ =>
    rw [checked] at accepted
    cases accepted
    have formed := (graph.validate_eq_ok_iff).1 checked
    have cleared := holds.remove graph.id
    refine ⟨fun skill other held => ?_, fun skill => ?_, fun skill node => ?_, fun skill node => ?_⟩
    · split at held
      · next here =>
        cases held
        exact ⟨here.symm, formed⟩
      · exact holds.wellFormed skill other held
    · have before := cleared.skills skill
      rw [List.lookup_append, before]
      by_cases here : skill = graph.id
      · simp [here]
      · have apart : (skill == graph.id) = false := by simpa using here
        cases loaded skill <;> simp [here, List.lookup_cons, apart]
    · have before := cleared.nodes skill node
      have added := lookup_map (skill, node) (fun node : Node => (graph.id, node.id)) graph.nodes
      unfold node? at before ⊢
      rw [List.lookup_append, before, added]
      by_cases here : skill = graph.id
      · subst here
        have number (other : Node) :
            ((graph.id, other.id) == (graph.id, node)) = (other.id == node) := by
          rw [Bool.eq_iff_iff]
          simp
        simp only [if_true, Option.bind_none, Option.none_or, Option.bind_some, SkillGraph.node?,
          number]
      · have none : graph.nodes.find? (fun other => (graph.id, other.id) == (skill, node)) = none :=
          List.find?_eq_none.2 fun other _ equal =>
            here (congrArg Prod.fst (beq_iff_eq.1 equal)).symm
        simp [here, none]
    · have before := cleared.edges skill node
      unfold SkillLibrary.edges at before ⊢
      rw [lookup_addEdges, before]
      by_cases here : skill = graph.id
      · simp [here]
      · simp [here]

/-- A port leads to the node at the end of each of its connections, in their order. -/
theorem connected (holds : library.Holds loaded) (skill : SkillId) (node : NodeId) (port : String) :
    (library.connected skill node port).map some =
      (loaded skill).elim [] fun graph =>
        (graph.wires node port).map fun connection => graph.node? connection.target := by
  rw [connected_eq, holds.edges]
  cases found : loaded skill with
  | none => rfl
  | some graph =>
    obtain ⟨_, _, joined⟩ := holds.wellFormed skill graph found
    -- Every end of a connection is a node of the graph, so no edge is passed over.
    have ends (connection : Connection) (member : connection ∈ graph.wires node port) :
        ∃ target, graph.node? connection.target = some target := by
      have listed := (joined connection (List.mem_filter.1 member).1).2
      obtain ⟨target, stored, number⟩ := List.mem_map.1 listed
      exact Option.isSome_iff_exists.1 (List.find?_isSome.2 ⟨target, stored, by simp [number]⟩)
    have looked (target : NodeId) : library.node? skill target = graph.node? target := by
      rw [holds.nodes, found]
      rfl
    have chosen : ((graph.connections.filter (·.source == node)).map fun connection =>
        (connection.sourcePort, connection.target)).filter (·.1 == port) =
        (graph.wires node port).map fun connection =>
          (connection.sourcePort, connection.target) := by
      rw [List.filter_map, List.filter_filter]
      simp only [SkillGraph.wires, Function.comp_def, Bool.and_comm]
    change ((((graph.connections.filter (·.source == node)).map fun connection =>
        (connection.sourcePort, connection.target)).filter (·.1 == port)).filterMap
          fun edge => library.node? skill edge.2).map some =
        (graph.wires node port).map fun connection => graph.node? connection.target
    rw [chosen, List.filterMap_map]
    simp only [Function.comp_def, looked]
    exact map_some_filterMap ends

end Holds

end SkillLibrary

/-- The graph under a skill's number after a request: an accepted graph takes the place of the one
before, a dropped skill has none, and a question changes nothing. -/
def LibraryRequest.leaves (skill : SkillId) (before : Option SkillGraph) :
    LibraryRequest → Option SkillGraph
  | .insert graph => if skill = graph.id ∧ graph.WellFormed then some graph else before
  | .remove gone => if skill = gone then none else before
  | .contains _ | .find _ _ | .connected _ _ _ => before

namespace SkillLibrary

/-- The graph that some requests leave under a skill's number: the last one that was accepted, if it
was not dropped since. -/
def loadedBy (requests : List LibraryRequest) (skill : SkillId) : Option SkillGraph :=
  requests.foldl (LibraryRequest.leaves skill) none

/-- The library after some requests. -/
def after (requests : List LibraryRequest) : SkillLibrary :=
  requests.foldl (fun library request => (request.perform library).2) .empty

/-- A graph is accepted exactly if it is well formed. -/
theorem exists_insert_iff (library : SkillLibrary) (graph : SkillGraph) :
    (∃ later, library.insert graph = .ok later) ↔ graph.WellFormed := by
  rw [← graph.validate_eq_ok_iff]
  unfold insert
  cases graph.validate with
  | error error => simp
  | ok _ => simp

/-- A graph that is not well formed is refused, and the library stays as it is. -/
theorem perform_insert_of_malformed (library : SkillLibrary) {graph : SkillGraph}
    (malformed : ¬ graph.WellFormed) :
    ∃ error, (LibraryRequest.insert graph).perform library =
      (.refused (.engine error), library) := by
  cases given : library.insert graph with
  | ok later => exact absurd ((library.exists_insert_iff graph).1 ⟨later, given⟩) malformed
  | error error => exact ⟨error, by simp [LibraryRequest.perform, given]⟩

/-- A request keeps the tables in step with the loaded graphs. -/
theorem Holds.perform {library : SkillLibrary} {loaded : SkillId → Option SkillGraph}
    (holds : library.Holds loaded) (request : LibraryRequest) :
    (request.perform library).2.Holds fun skill => request.leaves skill (loaded skill) := by
  cases request with
  | insert graph =>
    by_cases formed : graph.WellFormed
    · obtain ⟨later, given⟩ := (library.exists_insert_iff graph).2 formed
      have placed := holds.insert given
      simpa [LibraryRequest.perform, LibraryRequest.leaves, given, formed] using placed
    · obtain ⟨error, refused⟩ := library.perform_insert_of_malformed formed
      simpa [refused, LibraryRequest.leaves, formed] using holds
  | remove gone => exact holds.remove gone
  | contains | find | connected => exact holds

/-- After any requests the tables are those of the graphs that the requests leave. -/
theorem holds_after (requests : List LibraryRequest) :
    (after requests).Holds (loadedBy requests) := by
  have onward : ∀ (requests : List LibraryRequest) (library : SkillLibrary)
      (loaded : SkillId → Option SkillGraph), library.Holds loaded →
      (requests.foldl (fun library request => (request.perform library).2) library).Holds
        fun skill => requests.foldl (LibraryRequest.leaves skill) (loaded skill) := by
    intro requests
    induction requests with
    | nil => exact fun _ _ holds => holds
    | cons request rest ih => exact fun library loaded holds => ih _ _ (holds.perform request)
  exact onward requests .empty (fun _ => none) holds_empty

/-- The library agrees with the authored tables. After any requests, a node is looked up in the
graph that they leave under its skill, a port leads to the node at the end of each of its
connections in the order of that graph's table, and both find nothing where no graph is left. A
graph is accepted exactly if it is well formed, and one that is refused leaves the library, and with
it every answer, as it is. -/
theorem library_agrees_with_graphs (requests : List LibraryRequest) :
    (∀ skill node, (after requests).node? skill node =
      (loadedBy requests skill).bind (·.node? node)) ∧
    (∀ skill node port, ((after requests).connected skill node port).map some =
      (loadedBy requests skill).elim [] fun graph =>
        (graph.wires node port).map fun connection => graph.node? connection.target) ∧
    (∀ graph, (∃ later, (after requests).insert graph = .ok later) ↔ graph.WellFormed) ∧
    ∀ graph, ¬ graph.WellFormed → ∃ error,
      (LibraryRequest.insert graph).perform (after requests) =
        (.refused (.engine error), after requests) := by
  have holds := holds_after requests
  refine ⟨holds.nodes, holds.connected, (after requests).exists_insert_iff, ?_⟩
  exact fun graph malformed => (after requests).perform_insert_of_malformed malformed

/-- A skill whose first node leads to the third, the second and the third again. -/
def fork : SkillGraph where
  id := ⟨1⟩
  nodes := [1, 2, 3].map fun number => { id := ⟨number⟩, kind := .task .captureSnapshot }
  connections := [3, 2, 3].map fun number =>
    { source := ⟨1⟩, sourcePort := "complete", target := ⟨number⟩ }

/-- A later version of the skill that lacks a node which it connects. -/
def frayed : SkillGraph := { fork with nodes := fork.nodes.take 2 }

/-- The skill answers with its connections in order, one of them twice, and goes on doing so when a
frayed version of it is refused. -/
theorem fork_outlasts_frayed :
    ((after [.insert fork, .insert frayed]).connected ⟨1⟩ ⟨1⟩ "complete").map some =
      [fork.node? ⟨3⟩, fork.node? ⟨2⟩, fork.node? ⟨3⟩] ∧
    ¬ frayed.WellFormed ∧
    ∃ error, (LibraryRequest.insert frayed).perform (after [.insert fork, .insert frayed]) =
      (.refused (.engine error), after [.insert fork, .insert frayed]) := by
  obtain ⟨_, connected, _, refused⟩ := library_agrees_with_graphs [.insert fork, .insert frayed]
  have malformed : ¬ frayed.WellFormed := by decide
  exact ⟨(connected ⟨1⟩ ⟨1⟩ "complete").trans rfl, malformed, refused frayed malformed⟩

end SkillLibrary

end SkillEngine
