import SkillEngine.World.Frame

/-!
# Performing requests

What each request to the world does at once, and what it leaves to be done. A request that sets off
a walk opens its context before waiting tag changes are seen to.
-/

namespace SkillEngine.World

/-- Registers an entity. -/
def join (world : World) (entity : Entity) : Progress :=
  match world.registry.register entity with
  | .ok registry => .answered (world.withRegistry registry) (.flag true)
  | .error error => .answered world (.refused (.engine error))

/-- An entity with the attributes of some rows and some tags. -/
def newEntity (id : EntityId) (rows : List AttributeRow) (tags : TagSet) : Entity :=
  { Entity.ofTable id ⟨rows⟩ with tags := (TagCounts.empty.addEach tags.tags).2 }

/-- Unregisters an entity; outside a tick the cues of its live effects stop. -/
def depart (world : World) (id : EntityId) : Progress :=
  let (known, registry) := world.registry.unregister id
  let cues := match world.entity? id with
    | some entity => if world.registry.ticking then [] else entity.ownedCues
    | none => []
  let (world, events) := world.cancelCues cues
  { world := world.withRegistry registry, reply := some (.flag known), events }

/-- Changes the tags of an entity and re-checks requirements; without the entity the reply is the
one for no change. -/
def retag (world : World) (id : EntityId) (absent : Reply)
    (change : Entity → Reply × World × List Event) : Progress :=
  match world.entity? id with
  | none => .answered world absent
  | some entity =>
    let (reply, after) := change entity
    .told after [.drain, .answer reply]

/-- Applies an effect node to all its targets. -/
def applyNode (world : World) (skill : SkillId) (id : NodeId) (context : Context) : Progress :=
  match world.library.node? skill id with
  | some { kind := .effect definition, target, .. } =>
    { world, frames :=
        [.applyEach ⟨skill, id, definition, context⟩ (context.resolve target) []] }
  | _ => .answered world .nothing

/-- Whether nodes of each category are supported, told twice: as asked and as tried. -/
def supported (world : World) : Reply :=
  .list (fun category =>
    let known := .flag (world.behaviours category).isSome
    .several [known, known]) [NodeCategory.effect, .task, .condition, .cue]

/-- Performs a request. -/
def perform (world : World) : Request → Progress
  | .spawn id => world.join (.ofTable id world.scene.table)
  | .register id rows tags => world.join (newEntity id rows tags)
  | .unregister id => world.depart id
  | .contains id =>
    .answered world (.several [.flag (world.registry.contains id),
      .count world.registry.entities.size, .flag world.registry.entities.entries.isEmpty])
  | .tick seconds times => { world, frames := [.ticks seconds times, .answer .nothing] }
  | .setTimeScale scale =>
    let timeScale := Number.larger scale 0
    .answered { world with timeScale } (.number timeScale)
  | .setPaused paused => .answered { world with paused } (.flag paused)
  | .activate skill node opening =>
    { world, frames := [.drain, .enter skill node (world.openContext opening), .answer .nothing] }
  | .firePort skill node port opening =>
    { world, frames :=
        [.fire ⟨skill, node, port, world.openContext opening, none⟩, .answer .nothing] }
  | .addTag entity tag =>
    world.retag entity (.flag false) fun entity =>
      let (appeared, after) := world.giveTags entity [tag]
      (.flag !appeared.isEmpty, after)
  | .removeTag entity tag =>
    world.retag entity (.flag false) fun entity =>
      let (vanished, after) := world.takeTags entity [tag]
      (.flag !vanished.isEmpty, after)
  | .addTags entity tags =>
    world.retag entity (.several []) fun entity =>
      let (appeared, after) := world.giveTags entity tags.tags
      (.paths appeared, after)
  | .removeTags entity tags =>
    world.retag entity (.several []) fun entity =>
      let (vanished, after) := world.takeTags entity tags.tags
      (.paths vanished, after)
  | .processTagChanges => { world, frames := [.drain, .answer .nothing] }
  | .removeEffect handle => { world, frames := [.finish handle .removed true] }
  | .cancelEffect handle => { world, frames := [.finish handle .cancelled false] }
  | .removeEffectsWithTags target tags => { world, frames := [.cleanse target tags] }
  | .expire handle => { world, frames := [.expire handle, .answer .nothing] }
  | .tickEntity entity seconds =>
    { world, frames := [.tickEntity entity seconds, .answer .nothing] }
  | .enforce target => { world, frames := [.enforce target, .answer .nothing] }
  | .apply skill node definition target opening =>
    { world, frames := [.apply ⟨skill, node, definition, world.openContext opening⟩ target] }
  | .applyNode skill node opening => world.applyNode skill node (world.openContext opening)
  | .effect handle =>
    .answered world (.optional (fun effect =>
      .several [.handle effect.handle, .definition effect.definition]) (world.effect? handle))
  | .magnitude source target stackCount opening =>
    .answered world (.number
      (world.resolve source (.of (world.openContext opening) target stackCount)))
  | .condition definition subject opening =>
    let (answer, dice) :=
      definition.evaluate (subject.bind world.entity?) (world.openContext opening) world.dice
    let rolled := { world with dice }
    match answer with
    | none => .noAnswer rolled
    | some passed => .answered rolled (.flag passed)
  | .roll chance =>
    match world.dice.roll chance with
    | none => .noAnswer world
    | some (outcome, dice) => .answered { world with dice } (.flag outcome)
  | .reseed seed => .answered { world with dice := .ofSeed seed } .nothing
  | .attributeId name =>
    .answered world (.optional (fun id => .count id.raw.toNat) (world.scene.attributeId? name))
  | .attributeName id => .answered world (.text (world.scene.attributeName id))
  | .context opening => .answered world (.context (world.openContext opening))
  | .info =>
    .answered world (.several [.count world.config.maxCascadeDepth.toNat,
      .count world.config.seed.toNat, .number world.config.timeScale.value,
      .count world.scene.table.size, .flag world.registry.ticking, .flag world.cues.isEmpty])
  | .supports => .answered world world.supported
  | .library request =>
    match request with
    | .error refusal => .answered world (.refused refusal)
    | .ok request =>
      let (reply, library) := request.perform world.library
      .answered { world with library } reply
  | .cues request =>
    let done := Outcome.unlessRefused request world.cues (CueRequest.perform world.cues)
    { world := { world with cues := done.state }
      reply := some done.reply
      events := done.events.map .cue }
  | .tags id request =>
    match world.entity? id with
    | none => .answered world .nothing
    | some entity =>
      let done := Outcome.unlessRefused request entity.tags (TagRequest.perform entity.tags)
      let (after, events) := (world.modify id fun entity =>
        { entity with tags := done.state }).hear id done.events
      { world := after, reply := some done.reply, events }
  | .attributes id request =>
    match world.entity? id with
    | none => .answered world .nothing
    | some entity =>
      let done := Outcome.unlessRefused request entity.attributes
        (SheetRequest.perform id entity.attributes)
      { world := world.modify id fun entity => { entity with attributes := done.state }
        reply := some done.reply
        events := done.events.map .ofSignal }
  | .effects id request =>
    match world.entity? id with
    | none => .answered world .nothing
    | some entity =>
      match request with
      | .error refusal => .answered world (.refused refusal)
      | .ok request =>
        let (reply, effects) := request.perform entity.effects
        .answered (world.modify id fun entity => { entity with effects }) reply
  | .refused refusal => .answered world (.refused refusal)

end SkillEngine.World
