import SkillEngine.World.Frame

/-!
# Walking a skill

A firing runs every node that its port leads to, in connection order, each on its own copy of the
context one hop further; a firing at the depth limit is cut. What a node does depends on its kind:
effects are applied to every target, tasks do their work and then fire `complete`, conditions fire
`true` or `false`, and cues are started under the effect that owns the walk.
-/

namespace SkillEngine

/-- The output ports that tasks and conditions fire. -/
inductive NodePort where
  /-- Once per hit of a search. -/
  | forEach
  /-- After a task. -/
  | complete
  /-- A condition holds. -/
  | holds
  /-- A condition fails. -/
  | fails
  deriving DecidableEq

/-- The name of an output port. -/
def NodePort.name : NodePort → String
  | .forEach => "for_each"
  | .complete => "complete"
  | .holds => "true"
  | .fails => "false"

namespace World

/-- Fires a port: the nodes that it leads to now are run, unless the walk is too deep. -/
def fire (world : World) (firing : Firing) : Progress :=
  match world.library.connected firing.skill firing.node firing.port with
  | [] => { world }
  | nodes =>
    if world.config.maxCascadeDepth ≤ firing.context.depth then { world }
    else { world, frames := [.branch firing.skill firing.context.descend nodes] }

/-- Goes on with a firing in progress. -/
def branch (world : World) (skill : SkillId) (context : Context) : List Node → Progress
  | [] => { world }
  | node :: rest => { world, frames := [.visit skill node context, .branch skill context rest] }

/-- Runs the node of a number. -/
def enter (world : World) (skill : SkillId) (node : NodeId) (context : Context) : Progress :=
  match world.library.node? skill node with
  | none => { world }
  | some node => { world, frames := [.visit skill node context] }

/-- The candidate passes the filters of a search: it is registered, matches every required tag and
no excluded one, and is not an excluded caster. -/
def passes (world : World) (requireTags excludeTags : TagSet) (excluded : Option EntityId)
    (candidate : EntityId) : Bool :=
  excluded != some candidate
    && (world.entity? candidate).any fun entity =>
      entity.tags.hasAll requireTags && !entity.tags.hasAny excludeTags

/-- The hits among some candidates, after earlier hits: each that passes, once, up to a limit. -/
def hitsFrom (passes : EntityId → Bool) (limit : Option Nat) (hits : List EntityId) :
    List EntityId → List EntityId
  | [] => hits
  | candidate :: rest =>
    if limit.any fun limit => limit ≤ hits.length then hits
    else if passes candidate && !hits.contains candidate then
      hitsFrom passes limit (hits ++ [candidate]) rest
    else hitsFrom passes limit hits rest

/-- Runs a task. -/
def runTask (world : World) (skill : SkillId) (node : Node) (context : Context) :
    TaskDef → Progress
  | .searchTargets shape requireTags excludeTags maxCount excludeCaster =>
    let origin := (context.resolve node.target).headD context.caster
    let (candidates, asked) := match world.query with
      | none => ([], [])
      | some query => (query origin shape, [.queried origin shape])
    let excluded := if excludeCaster then some context.caster else none
    let hits := hitsFrom (world.passes requireTags excludeTags excluded)
      (maxCount.map UInt64.toNat) [] candidates
    { world
      frames := (hits.map fun hit => fires .forEach (context.forParentInput hit)) ++
        [fires .complete { context with targets := hits }]
      events := asked }
  | .setContextValue key formula =>
    let target := (context.resolve node.target).headD context.caster
    let value := world.scene.evaluateFormula formula (.of context target 1)
    { world, frames := [fires .complete (context.set key (.number value))] }
  | .removeEffectsWithTags tags =>
    { world, frames := targets (.removeEffectsWithTags · tags) ++ [fires .complete context] }
  | .addLooseTags tags =>
    { world, frames := targets (.addTags · tags) ++ [fires .complete context] }
  | .removeLooseTags tags =>
    { world, frames := targets (.removeTags · tags) ++ [fires .complete context] }
  | .captureSnapshot =>
    let captured := match world.entity? context.caster with
      | some caster => { context with snapshot := caster.attributes.snapshot }
      | none => context
    { world, frames := [fires .complete captured] }
where
  /-- The firing of a port of the node. -/
  fires (port : NodePort) (context : Context) : Frame :=
    .fire ⟨skill, node.id, port.name, context, none⟩
  /-- One request for each target of the node. -/
  targets (request : EntityId → Request) : List Frame :=
    (context.resolve node.target).map fun target => .perform (request target)

/-- Runs a condition for the first target of its node. -/
def runCondition (world : World) (skill : SkillId) (node : Node) (context : Context)
    (definition : ConditionDef) : Progress :=
  let subject := (context.resolve node.target).head?.bind world.entity?
  let (answer, dice) := definition.evaluate subject context world.dice
  let rolled := { world with dice }
  match answer with
  | none => .noAnswer rolled
  | some passed =>
    let port := if passed then NodePort.holds else NodePort.fails
    { world := rolled, frames := [.fire ⟨skill, node.id, port.name, context, none⟩] }

/-- Starts a cue, which the live effect that owns the walk takes along. -/
def runCue (world : World) (skill : SkillId) (node : Node) (context : Context)
    (definition : CueDef) : Progress :=
  let (id, cues, events) := world.cues.spawn definition skill node.id context
  let started := { world with cues }
  { world := match id, context.owner with
      | some id, some owner =>
        started.modifyEffect owner fun effect =>
          if effect.isLive then { effect with cues := effect.cues ++ [id] } else effect
      | _, _ => started
    events := events.map .cue }

/-- Runs a node as nodes of a category are run; one of another category does nothing. -/
def runStandard (world : World) (skill : SkillId) (node : Node) (context : Context)
    (category : NodeCategory) : Progress :=
  match category, node.kind with
  | .effect, .effect definition =>
    { world, frames :=
        [.applyEach ⟨skill, node.id, definition, context⟩ (context.resolve node.target) []] }
  | .task, .task definition => world.runTask skill node context definition
  | .condition, .condition definition => world.runCondition skill node context definition
  | .cue, .cue definition => world.runCue skill node context definition
  | _, _ => { world }

/-- Runs a node as the world has it for the node's category. -/
def visit (world : World) (skill : SkillId) (node : Node) (context : Context) : Progress :=
  match world.behaviours node.category with
  | none | some .idle => { world }
  | some (.standard category) => world.runStandard skill node context category
  | some .scripted =>
    match world.scripts skill node.id with
    | none => world.runStandard skill node context .task
    | some requests =>
      { world, frames :=
          [.script skill node.id requests,
            .fire ⟨skill, node.id, NodePort.complete.name, context, none⟩] }

/-- Goes on with a script. -/
def script (world : World) (skill : SkillId) (node : NodeId) : List Request → Progress
  | [] => { world }
  | request :: rest => { world, frames := [.perform request, .scripted skill node rest] }

/-- Tells the answer to a script's request. -/
def scripted (world : World) (reply : Reply) (skill : SkillId) (node : NodeId)
    (requests : List Request) : Progress :=
  { world
    frames := [.script skill node requests]
    events := [.scripted skill node world.registry.ticking reply] }

end World

end SkillEngine
