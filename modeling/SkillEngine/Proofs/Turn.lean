import SkillEngine.Proofs.Registry
import SkillEngine.Proofs.Transitions
import SkillEngine.World.Cascade

/-!
# What one frame can do to a world

Everything that a frame can do to the entities of a world is listed here once: at most one entity is
changed, by a *deed*, or its tags are; a new instance takes hold; entities join and leave; the queue
of tag changes is emptied; or nothing of all this happens. `World.turn_expand` derives the list from
the frames, for the built-in behaviours and for requests that edit no roster. What a run of frames
keeps is then read off the list.
-/

namespace SkillEngine

/-- The request looks effects up and edits none. -/
def RosterRequest.isReading : RosterRequest → Bool
  | .get _ | .live | .findStackable .. | .stacksWith .. | .matching _ | .stackCount _
  | .violating _ => true
  | _ => false

/-- The request leaves the effects on an entity to the engine. -/
def Request.isLawful : Request → Bool
  | .effects _ (.ok request) => request.isReading
  | _ => true

/-- The request leaves the engine listening. -/
def TagRequest.keepsWatch : TagRequest → Bool
  | .unwatch _ | .clear => false
  | _ => true

/-- The request leaves the engine listening to the tags that it edits. -/
def Request.keepsWatch : Request → Bool
  | .tags _ (.ok request) => request.keepsWatch
  | _ => true

/-- The request gives or takes tags. -/
def TagRequest.isEdit : TagRequest → Bool
  | .add _ | .remove _ | .addAll _ | .removeAll _ => true
  | _ => false

/-- The request edits the held tags of an entity without re-checking requirements. -/
def Request.Edits (request : Request) (id : EntityId) : Prop :=
  ∃ edit : TagRequest, request = .tags id (.ok edit) ∧ edit.isEdit = true

/-- The requests that nodes make. -/
def Request.isNested : Request → Bool
  | .removeEffectsWithTags .. | .addTags .. | .removeTags .. => true
  | _ => false

/-- What a request asks of held tags, and whose. -/
def Request.tagEdit? : Request → Option (EntityId × TagRequest)
  | .addTag id tag => some (id, .add tag)
  | .removeTag id tag => some (id, .remove tag)
  | .addTags id given => some (id, .addAll given)
  | .removeTags id taken => some (id, .removeAll taken)
  | .tags id (.ok edit) => some (id, edit)
  | _ => none

/-- The request registers or unregisters. -/
def Request.isEnrolment : Request → Bool
  | .spawn _ | .register .. | .unregister _ => true
  | _ => false

/-- The frame is one of those after which others may be registered, or wait to join or leave. -/
def Frame.enrols : Frame → Bool
  | .perform request => request.isEnrolment
  | .beginTick _ | .endTick _ => true
  | _ => false

/-- The requests that a frame may perform are some, and those that nodes make; an effect fires its
last ports unless it is cancelled; and there are no scripts. -/
def Frame.Admitted (admits : Request → Prop) : Frame → Prop
  | .perform request => admits request ∨ request.isNested = true
  | .finish _ state fires =>
    (state = .removed ∨ state = .expired) ∧ fires = true ∨ state = .cancelled ∧ fires = false
  | .script .. | .scripted .. => False
  | _ => True

/-- More requests admit more frames. -/
theorem Frame.Admitted.mono {admits others : Request → Prop} {frame : Frame}
    (admitted : frame.Admitted admits) (more : ∀ request, admits request → others request) :
    frame.Admitted others := by
  cases frame with
  | perform request => exact admitted.imp_left (more request)
  | _ => exact admitted

/-- An effect ends in a state that is over. -/
theorem Frame.Admitted.isTerminal {admits : Request → Prop} {handle : EffectHandle}
    {state : EffectState} {fires : Bool}
    (admitted : (Frame.finish handle state fires).Admitted admits) : state.isTerminal = true := by
  rcases admitted with ⟨rfl | rfl, _⟩ | ⟨rfl, _⟩ <;> rfl

/-- One form of an instance is another with timers, stacks, cues or context touched. -/
structure Effect.Retouches (before after : Effect) : Prop where
  /-- It is a later form. -/
  becomes : before.Becomes after
  /-- The magnitudes stay. -/
  magnitudes : after.magnitudes = before.magnitudes
  /-- What is live stays live. -/
  live : after.isLive = before.isLive

/-- A change of timers, stacks, cues and context alone touches an instance. -/
theorem Effect.Retouches.of_eq {before after : Effect} (id : after.id = before.id)
    (skill : after.skill = before.skill) (node : after.node = before.node)
    (definition : after.definition = before.definition) (source : after.source = before.source)
    (target : after.target = before.target) (magnitudes : after.magnitudes = before.magnitudes)
    (state : after.state = before.state) : before.Retouches after :=
  ⟨.of_eq id skill node definition source target magnitudes state, magnitudes,
    congrArg EffectState.isLive state⟩

/-- A live instance may go from one live state to another meanwhile. -/
theorem Effect.Retouches.of_live {before after : Effect} (id : after.id = before.id)
    (skill : after.skill = before.skill) (node : after.node = before.node)
    (definition : after.definition = before.definition) (source : after.source = before.source)
    (target : after.target = before.target) (magnitudes : after.magnitudes = before.magnitudes)
    (was : before.isLive = true) (live : after.isLive = true) : before.Retouches after where
  becomes :=
    { id, skill, node, definition, source, target
      slots := by rw [magnitudes]
      captured := fun _ _ _ _ => by rw [magnitudes]
      final := fun terminal => by
        rw [Effect.isLive, EffectState.not_isLive_of_isTerminal terminal] at was
        exact absurd was (by decide)
      attached := fun _ pending => by
        rw [Effect.isLive, pending] at live
        exact absurd live (by decide) }
  magnitudes := magnitudes
  live := live.trans was.symm

/-- Stacking onto a live instance touches it and leaves its context alone. -/
theorem Effect.retouches_restack {effect : Effect} (live : effect.isLive = true)
    (policy : StackingPolicy) : effect.Retouches (effect.restack policy) ∧
      (effect.restack policy).context = effect.context := by
  unfold Effect.restack
  dsimp only
  split
  · exact ⟨.of_live rfl rfl rfl rfl rfl rfl rfl live rfl, rfl⟩
  · exact ⟨.of_live rfl rfl rfl rfl rfl rfl rfl live rfl, rfl⟩

/-- Letting time pass for an instance whose walk starts afresh touches it. -/
theorem Effect.retouches_advance (effect : Effect) (context : Context) (seconds : Float32) :
    effect.Retouches (Effect.advance { effect with context } seconds).2 := by
  unfold Effect.advance
  split
  · exact .of_eq rfl rfl rfl rfl rfl rfl rfl rfl
  · next proceeds =>
    simp only [Bool.or_eq_true, not_or, decide_eq_true_eq] at proceeds
    have live : effect.isLive = true := by
      simpa [Effect.isLive] using proceeds.1
    exact .of_live rfl rfl rfl rfl rfl rfl rfl live rfl

/-- What a frame makes of the timers of an instance. -/
inductive Frame.Winds (frame : Frame) (handle : EffectHandle) (before : Effect) :
    Clock Float32 → Prop where
  /-- They stay as they are. -/
  | kept : frame.Winds handle before before.clock
  /-- Some time passes for it while it is live. -/
  | advanced {seconds : Float32} (ticks : frame = .tickEffect handle seconds)
      (live : before.isLive = true) (forward : ¬ seconds ≤ 0) :
      frame.Winds handle before (before.clock.advance seconds).2
  /-- An application is stacked onto it. -/
  | stacked {application : Application} {policy : StackingPolicy}
      (applies : frame = .apply application handle.target)
      (stacking : before.definition.stacking = some policy) :
      frame.Winds handle before (before.restack policy).clock
  /-- Its policy restarts the duration when it has run out. -/
  | restarted {policy : StackingPolicy} (expires : frame = .expire handle)
      (stacking : before.definition.stacking = some policy) :
      frame.Winds handle before before.restartDuration.clock

/-- An entity that has no effects, no modifiers and nothing stale. -/
structure Entity.IsNewcomer (entity : Entity) : Prop where
  /-- No effects. -/
  effects : entity.effects = .empty
  /-- No modifiers. -/
  modifiers : ∀ id attr, entity.attributes.get? id = some attr → attr.modifiers = []
  /-- Nothing stale. -/
  fresh : entity.attributes.Fresh

/-- An entity that is set up from a table is a newcomer. -/
theorem Entity.isNewcomer_ofTable (id : EntityId) (table : AttributeTable) (tags : TagCounts) :
    Entity.IsNewcomer { Entity.ofTable id table with tags } where
  effects := rfl
  modifiers _ _ found := by
    obtain ⟨row, rfl⟩ := AttributeSheet.get?_ofTable found
    rfl
  fresh _ _ found := by
    obtain ⟨row, rfl⟩ := AttributeSheet.get?_ofTable found
    rfl

namespace World

/-- The changed entities are those that wait. -/
theorem mem_changedEntities {world : World} {id : EntityId} :
    id ∈ world.changedEntities ↔ id ∈ world.tagChanges := by
  unfold changedEntities
  rw [Dict.mem_keys_iff, Dict.isSome_ofList, List.map_map]
  simp

/-- Nodes do what their category says. -/
def Standard (world : World) : Prop :=
  ∀ category, world.behaviours category = some (.standard category)

/-- A world is sound when entities are registered under their own numbers, their rosters are sound
and those that wait to join have no effects. -/
structure Sound (world : World) : Prop where
  /-- Nodes do what their category says. -/
  standard : world.Standard
  /-- Every entity is registered under its own number. -/
  numbered : world.Numbered
  /-- Rosters are sound. -/
  rosters : ∀ id entity, world.entity? id = some entity → entity.effects.Sound world.nextEffect id
  /-- Who waits to join has no effects. -/
  waiting : ∀ entity ∈ world.registry.pendingAdd, entity.effects = .empty

/-- The entities, the numbering of effects and the waiting tag changes are the same. -/
structure Quiet (before after : World) : Prop where
  /-- The registry stays. -/
  registry : after.registry = before.registry
  /-- No effect is numbered. -/
  nextEffect : after.nextEffect = before.nextEffect
  /-- No tag change waits or is seen to. -/
  tagChanges : after.tagChanges = before.tagChanges
  /-- The settings stay. -/
  config : after.config = before.config
  /-- Nodes do what they did. -/
  behaviours : after.behaviours = before.behaviours

/-- Entities join or leave, and nothing else happens to them. -/
structure Regroups (before after : World) : Prop where
  /-- No effect is numbered. -/
  nextEffect : after.nextEffect = before.nextEffect
  /-- No tag change waits or is seen to. -/
  tagChanges : after.tagChanges = before.tagChanges
  /-- The settings stay. -/
  config : after.config = before.config
  /-- Nodes do what they did. -/
  behaviours : after.behaviours = before.behaviours
  /-- Who is registered was, or has waited to join, or is new. -/
  entity? : ∀ id entity, after.entity? id = some entity → before.entity? id = some entity ∨
    ∃ newcomer, (newcomer ∈ before.registry.pendingAdd ∨ newcomer.IsNewcomer) ∧
      newcomer.id = id ∧ newcomer.JoinsAs entity
  /-- Who waits to join did, or is new. -/
  waiting : ∀ entity ∈ after.registry.pendingAdd,
    entity ∈ before.registry.pendingAdd ∨ entity.IsNewcomer

/-- What a frame can do to one entity, its held tags apart. -/
inductive Deed (world : World) : Frame → EntityId → (Entity → Entity) → Prop where
  /-- Nothing. -/
  | still {frame : Frame} {id : EntityId} : world.Deed frame id fun entity => entity
  /-- An instance is touched: in a tick its context may start afresh and tracked magnitudes are
  renewed, and the last stack goes only when the instance then ends. -/
  | touch {frame : Frame} {handle : EffectHandle} {effect touched : Effect}
      {updates : List (Nat × AttributeId × Float32)}
      (found : world.effect? handle = some effect) (retouches : effect.Retouches touched)
      (tracks : touched.Tracks updates)
      (ticked : updates = [] ∧ touched.context = effect.context ∨
        ∃ seconds, frame = .tickEffect handle seconds)
      (counted : touched.stackCount = effect.stackCount ∨
        frame = .expire handle ∧ (world.expire handle).frames = [.finish handle .expired true])
      (winds : frame.Winds handle effect touched.clock) :
      world.Deed frame handle.target (·.touching handle.id touched updates)
  /-- An instance is touched and its modifiers are told the stack count. -/
  | restack {frame : Frame} {handle : EffectHandle} {effect touched : Effect}
      {updates : List (Nat × AttributeId × Float32)}
      (found : world.effect? handle = some effect) (retouches : effect.Retouches touched)
      (tracks : touched.Tracks updates) (context : touched.context = effect.context)
      (winds : frame.Winds handle effect touched.clock) :
      world.Deed frame handle.target (·.restacking handle.id touched updates)
  /-- A live instance ends. -/
  | release {handle : EffectHandle} {state : EffectState} {fires : Bool} {effect : Effect}
      (found : world.effect? handle = some effect) (live : effect.isLive = true) :
      world.Deed (.finish handle state fires) handle.target
        (·.releasing handle.id effect.definition.tags.granted.tags state)
  /-- The roster begins a tick. -/
  | begin {id : EntityId} {seconds : Float32} :
      world.Deed (.tickEntity id seconds) id (·.onEffects fun effects => effects.beginTick.2)
  /-- The roster ends a tick, and values are committed. -/
  | finish {id : EntityId} : world.Deed (.endEntityTick id) id fun entity =>
      (entity.onEffects (·.endTick)).onSheet AttributeSheet.recalculateDirty
  /-- An instant effect writes values. -/
  | write {application : Application} {target : EntityId} {change : Entity → Entity}
      (revalues : ∀ entity : Entity, entity.Revalues (change entity)) :
      world.Deed (.write application target) target change
  /-- The sheet is asked. -/
  | sheet {id : EntityId} {request : Except Refusal SheetRequest} :
      world.Deed (.perform (.attributes id request)) id (·.onSheet fun sheet =>
        let done := Outcome.unlessRefused request sheet (SheetRequest.perform id sheet)
        (done.state, done.events))

/-- What a frame can do to a world. -/
inductive Turn (world : World) : Frame → World → Prop where
  /-- Nothing to entities, numbering and waiting tag changes. -/
  | quiet {frame : Frame} {after : World} (quiet : world.Quiet after) : world.Turn frame after
  /-- The waiting tag changes are taken to be seen to. -/
  | drain : world.Turn .drain { world with tagChanges := [] }
  /-- A deed is done to an entity. -/
  | alter {frame : Frame} {after : World} {id : EntityId} {change : Entity → Entity}
      (alters : world.Alters after id change) (deed : world.Deed frame id change) :
      world.Turn frame after
  /-- The tags of an entity are edited on request; a match that ends is heard of, unless the
  request ends that, and seen to, unless the request edits the held tags alone. -/
  | retag {request : Request} {after : World} {id : EntityId} {entity : Entity} {tags : TagCounts}
      (found : world.entity? id = some entity)
      (alters : world.Alters after id fun entity => { entity with tags })
      (heard : request.keepsWatch = true → entity.tags.Watched →
        tags.Watched ∧ (entity.tags.Keeps tags ∨ id ∈ after.tagChanges ∧
          (.drain ∈ (world.perform request).frames ∨ request.Edits id)))
      (asked : request.tagEdit?.isSome = true) : world.Turn (.perform request) after
  /-- A new instance takes hold. -/
  | hold {application : Application} {target : EntityId} {duration : Float32} {after : World}
      (alters : World.Alters { world with nextEffect := world.nextEffect + 1 } after target
        (·.holding (world.newEffect application target duration) world.time)) :
      world.Turn (.attach application target duration) after
  /-- Entities join or leave. -/
  | regroup {frame : Frame} {after : World} (regroups : world.Regroups after)
      (enrols : frame.enrols = true) : world.Turn frame after

variable {world : World}

/-- A world is like itself. -/
theorem Quiet.refl (world : World) : world.Quiet world := ⟨rfl, rfl, rfl, rfl, rfl⟩

/-- What an application stacks onto is live. -/
theorem Sound.isLive_stackable (sound : world.Sound) {target : EntityId} {entity : Entity}
    (registered : world.entity? target = some entity) {skill : SkillId} {node : NodeId}
    {definition : EffectDef} {source : EntityId} {key : EffectId}
    (found : entity.effects.findStackable? skill node definition source = some key) :
    world.isLive ⟨target, key⟩ = true := by
  obtain ⟨effect, first, rfl⟩ := Option.map_eq_some_iff.1 found
  have member := List.mem_filter.1 (List.mem_of_find?_eq_some first)
  have placed : world.effect? ⟨target, effect.id⟩ = some effect := by
    rw [effect?_eq registered]
    exact (sound.rosters _ _ registered).get?_eq member.1
  exact (isLive_eq placed).trans member.2

/-- A task leaves the world alone. -/
theorem world_runTask (world : World) (skill : SkillId) (node : Node) (context : Context)
    (definition : TaskDef) : (world.runTask skill node context definition).world = world := by
  cases definition with
  | searchTargets => rfl
  | _ => rfl

/-- Touching an effect, if it is found, and leaving its stacks and its context alone. -/
theorem turn_modifyEffect {middle : World} {handle : EffectHandle} {change : Effect → Effect}
    (frame : Frame) (same : world.Alters middle handle.target fun entity => entity)
    (touches : ∀ effect, world.effect? handle = some effect →
      effect.Retouches (change effect) ∧ (change effect).context = effect.context ∧
        (change effect).stackCount = effect.stackCount ∧
          frame.Winds handle effect (change effect).clock) :
    world.Turn frame (middle.modifyEffect handle change) := by
  have alters := same.trans (alters_modifyEffect middle handle change)
  cases found : world.effect? handle with
  | none =>
    refine .alter (alters.congr fun entity registered => ?_) .still
    rw [effect?_eq registered] at found
    exact congrArg (fun effects => { entity with effects })
      (EffectRoster.modify_of_missing found change)
  | some effect =>
    obtain ⟨retouches, context, counted, winds⟩ := touches effect found
    refine .alter (alters.congr fun entity registered => ?_)
      (.touch found retouches (.nil _) (.inl ⟨rfl, context⟩) (.inl counted) winds)
    rw [effect?_eq registered] at found
    exact congrArg (fun effects => { entity with effects })
      (EffectRoster.modify_of_get? found change)

/-- Running a cue lets an effect own it. -/
theorem turn_runCue (world : World) (skill : SkillId) (node : Node) (context : Context)
    (definition : CueDef) (frame : Frame) :
    world.Turn frame (world.runCue skill node context definition).world := by
  unfold runCue
  dsimp only
  split
  · refine turn_modifyEffect frame ((Alters.refl world _).withCues _) fun effect _ => ?_
    split
    · exact ⟨.of_eq rfl rfl rfl rfl rfl rfl rfl rfl, rfl, rfl, .kept⟩
    · exact ⟨.of_eq rfl rfl rfl rfl rfl rfl rfl rfl, rfl, rfl, .kept⟩
  · exact .quiet ⟨rfl, rfl, rfl, rfl, rfl⟩

/-- Running a node. -/
theorem turn_visit (standard : world.Standard) (skill : SkillId) (node : Node) (context : Context)
    (frame : Frame) : world.Turn frame (world.visit skill node context).world := by
  have ways := world.enacting skill node context
  generalize world.visit skill node context = progress at ways ⊢
  cases ways with
  | idle | effect => exact .quiet (.refl world)
  | task =>
    rw [world_runTask]
    exact .quiet (.refl world)
  | unanswered | decided => exact .quiet ⟨rfl, rfl, rfl, rfl, rfl⟩
  | cue => exact turn_runCue world skill node context _ frame
  | scripted scripts => cases (standard node.category).symm.trans scripts

/-- Stacking onto an effect changes its timers, its stack count and its tracked magnitudes. -/
theorem alters_stackOnto {handle : EffectHandle} {effect : Effect} {policy : StackingPolicy}
    (found : world.effect? handle = some effect)
    (stacking : effect.definition.stacking = some policy) (context : Context) :
    ∃ updates, (effect.restack policy).Tracks updates ∧
      world.Alters (world.stackOnto handle context).world handle.target
        (·.restacking handle.id (effect.restack policy) updates) := by
  obtain ⟨_, _, _, same⟩ := of_effect? found
  have number : (effect.restack policy).id = effect.id := by
    unfold Effect.restack
    dsimp only
    split <;> rfl
  obtain ⟨updates, tracks, alters⟩ := alters_track found (number.trans same)
  refine ⟨updates, tracks, ?_⟩
  rw [stackOnto_of_policy found stacking]
  exact alters_restack alters (number.trans same) rfl

/-- Stacking onto a live effect. -/
theorem turn_stackOnto (application : Application) {handle : EffectHandle}
    (live : world.isLive handle = true) :
    world.Turn (.apply application handle.target)
      (world.stackOnto handle application.context).world := by
  rcases world.stackOnto_stacks_or_answers handle application.context with
    ⟨effect, policy, found, stacking⟩ | answers
  · have was : effect.isLive = true := (isLive_eq found).symm.trans live
    obtain ⟨retouches, unmoved⟩ := Effect.retouches_restack was policy
    obtain ⟨updates, tracks, alters⟩ := alters_stackOnto found stacking application.context
    exact .alter alters (.restack found retouches tracks unmoved (.stacked rfl stacking))
  · rw [answers]
    exact .quiet (.refl world)

/-- Applying an effect. -/
theorem turn_applyTo (sound : world.Sound) (application : Application) (target : EntityId) :
    world.Turn (.apply application target) (world.applyTo application target).world := by
  have ways := world.applying application target
  generalize world.applyTo application target = progress at ways ⊢
  cases ways with
  | refused | written | held => exact .quiet (.refl world)
  | stacked registered _ _ matched =>
    exact turn_stackOnto application (sound.isLive_stackable registered matched)

/-- Writing an instant effect. -/
theorem turn_write (world : World) (application : Application) (target : EntityId) :
    world.Turn (.write application target) (world.write application target).world := by
  obtain ⟨change, alters, revalues⟩ := alters_writeInstant world application target
  exact .alter alters (.write revalues)

/-- Letting an effect take hold. -/
theorem turn_attach (sound : world.Sound) (application : Application) (target : EntityId)
    (duration : Float32) :
    world.Turn (.attach application target duration)
      (world.attach application target duration).world := by
  have numbered : World.Numbered { world with nextEffect := world.nextEffect + 1 } := sound.numbered
  exact .hold (alters_takeHold numbered (world.newEffect application target duration))

/-- Ending an effect. -/
theorem turn_finish (sound : world.Sound) (handle : EffectHandle) (state : EffectState)
    (fires : Bool) :
    world.Turn (.finish handle state fires) (world.finish handle state fires).world := by
  cases live : world.isLive handle with
  | false =>
    rw [finish_of_not_isLive live]
    exact .quiet (.refl world)
  | true =>
    obtain ⟨effect, found, lives⟩ := exists_of_isLive live
    rw [finish_of_live found lives]
    exact .alter (alters_release sound.numbered found state) (.release found lives)

/-- Treating an effect as run out. -/
theorem turn_expire (world : World) (handle : EffectHandle) :
    world.Turn (.expire handle) (world.expire handle).world := by
  have ways := world.lapsing handle
  generalize expired : world.expire handle = progress at ways ⊢
  cases ways with
  | missing | ending => exact .quiet (.refl world)
  | spent found =>
    exact .alter (alters_touch world handle _)
      (.touch found (.of_eq rfl rfl rfl rfl rfl rfl rfl rfl) (.nil _) (.inl ⟨rfl, rfl⟩)
        (.inr ⟨rfl, congrArg Progress.frames expired⟩) .kept)
  | lessened found stacking =>
    obtain ⟨_, _, _, same⟩ := of_effect? found
    exact .alter (alters_restack (alters_touch world handle _) same rfl)
      (.restack found (.of_eq rfl rfl rfl rfl rfl rfl rfl rfl) (.nil _) rfl
        (.restarted rfl stacking))
  | restarted found stacking =>
    refine turn_modifyEffect _ (.refl world _) fun other stored => ?_
    cases found.symm.trans stored
    exact ⟨.of_eq rfl rfl rfl rfl rfl rfl rfl rfl, rfl, rfl, .restarted rfl stacking⟩

/-- Taking the waiting tag changes to be seen to. -/
theorem turn_drain (world : World) : world.Turn .drain world.drain.world := by
  unfold drain
  split
  · exact .quiet (.refl world)
  · exact .drain

/-- Beginning the tick of an entity. -/
theorem turn_tickEntity (world : World) (id : EntityId) (seconds : Float32) :
    world.Turn (.tickEntity id seconds) (world.tickEntity id seconds).world := by
  unfold tickEntity
  cases found : world.entity? id with
  | none => exact .quiet (.refl world)
  | some entity =>
    refine .alter ((alters_modify world id _).congr fun other stored => ?_) .begin
    rw [found] at stored
    cases stored
    rfl

/-- Letting time pass for an effect. -/
theorem turn_tickEffect (world : World) (handle : EffectHandle) (seconds : Float32) :
    world.Turn (.tickEffect handle seconds) (world.tickEffect handle seconds).world := by
  unfold tickEffect
  cases found : world.effect? handle with
  | none => exact .quiet (.refl world)
  | some effect =>
    obtain ⟨_, _, _, same⟩ := of_effect? found
    dsimp only
    have retouches := effect.retouches_advance { effect.context with depth := 0 } seconds
    generalize result : ({ effect with
      context := { effect.context with depth := 0 } } : Effect).advance seconds = advanced
      at retouches
    obtain ⟨elapse, after⟩ := advanced
    have advances : after.stackCount = effect.stackCount ∧
        (Frame.tickEffect handle seconds).Winds handle effect after.clock := by
      unfold Effect.advance at result
      split at result
      · cases result
        exact ⟨rfl, .kept⟩
      · next proceeds =>
        simp only [Bool.or_eq_true, not_or, decide_eq_true_eq] at proceeds
        have live : effect.isLive = true := by
          simpa [Effect.isLive] using proceeds.1
        cases result
        exact ⟨rfl, .advanced rfl live proceeds.2⟩
    obtain ⟨counted, winds⟩ := advances
    have number := retouches.becomes.id
    split
    · obtain ⟨updates, tracks, alters⟩ := alters_track found (number.trans same)
      exact .alter alters
        (.touch found retouches tracks (.inr ⟨seconds, rfl⟩) (.inl counted) winds)
    · exact .alter (alters_touch world handle after)
        (.touch found retouches (.nil _) (.inr ⟨seconds, rfl⟩) (.inl counted) winds)

/-- Ending the tick of an entity. -/
theorem turn_endEntityTick (world : World) (id : EntityId) :
    world.Turn (.endEntityTick id) (world.endEntityTick id).world :=
  .alter ((alters_modify world id _).trans (alters_commit _ id)) .finish

/-- Beginning a tick. -/
theorem turn_beginTick (world : World) (seconds : Float32) :
    world.Turn (.beginTick seconds) (world.beginTick seconds).world := by
  unfold beginTick
  dsimp only
  split
  · exact .quiet (.refl world)
  · exact .regroup ⟨rfl, rfl, rfl, rfl, fun _ _ found => .inl found, fun _ waits => .inl waits⟩ rfl

/-- Ending a tick. -/
theorem turn_endTick (world : World) (seconds : Float32) :
    world.Turn (.endTick seconds) (world.endTick seconds).world := by
  refine .regroup ⟨rfl, rfl, rfl, rfl, fun id entity found => ?_, fun entity waits => ?_⟩ rfl
  · rcases Registry.entity?_endTick found with before | ⟨newcomer, waits, joined⟩
    · exact .inl before
    · exact .inr ⟨newcomer, .inl waits, joined⟩
  · have nobody : (world.endTick seconds).world.registry.pendingAdd = [] :=
      Registry.pendingAdd_endTick _
    rw [nobody] at waits
    cases waits

/-- Registering an entity that is a newcomer. -/
theorem turn_join (world : World) {entity : Entity} (newcomer : entity.IsNewcomer) {frame : Frame}
    (enrols : frame.enrols = true) : world.Turn frame (world.join entity).world := by
  unfold join
  split
  · next registry accepted =>
    obtain ⟨registered, waiting⟩ := Registry.register_ok accepted
    refine .regroup ⟨rfl, rfl, rfl, rfl, fun id other found => ?_, fun other waits => ?_⟩ enrols
    · rcases registered id other found with before | joined
      · exact .inl before
      · exact .inr ⟨entity, .inr newcomer, joined⟩
    · rcases waiting other waits with before | rfl
      · exact .inl before
      · exact .inr newcomer
  · exact .quiet (.refl world)

/-- Unregistering an entity. -/
theorem turn_depart (world : World) (id : EntityId) {frame : Frame} (enrols : frame.enrols = true) :
    world.Turn frame (world.depart id).world := by
  obtain ⟨registered, waiting⟩ := Registry.unregister_subset world.registry id
  exact .regroup ⟨rfl, rfl, rfl, rfl,
    fun other entity found => .inl (registered other entity found),
    fun entity waits => .inl (waiting entity waits)⟩ enrols

/-- Events that the engine hears of make its entity wait. -/
theorem mem_tagChanges_hear {counts : TagCounts} (watched : counts.Watched) {events : List TagEvent}
    (told : events ≠ []) (world : World) (id : EntityId) :
    id ∈ (world.hear id (counts.notices events)).1.tagChanges := by
  obtain ⟨event, member⟩ := List.exists_mem_of_ne_nil events told
  have heard := watched.mem_notices member
  refine List.mem_append_right _ (List.mem_map.2 ⟨_, List.mem_filter.2 ⟨heard, rfl⟩, rfl⟩)

/-- Giving tags on request. -/
theorem turn_giveTags {id : EntityId} {entity : Entity} (numbered : world.Numbered)
    (found : world.entity? id = some entity) (tags : List Tag) {request : Request}
    (asked : request.tagEdit?.isSome = true) :
    world.Turn (.perform request) (world.giveTags entity tags).2.1 := by
  obtain rfl := numbered id entity found
  have alters : world.Alters (world.giveTags entity tags).2.1 entity.id
      fun other => { other with tags := (entity.tags.addEach tags).2 } :=
    (alters_giveTags found tags).congr fun other stored => by
      rw [found] at stored
      cases stored
      rfl
  refine .retag found alters (fun _ watched =>
    ⟨?_, .inl (TagCounts.keeps_addEach entity.tags tags)⟩) asked
  · unfold TagCounts.Watched
    rw [TagCounts.listeners_addEach]
    exact watched

/-- Taking tags on request, if requirements are re-checked after it. -/
theorem turn_takeTags {id : EntityId} {entity : Entity} (numbered : world.Numbered)
    (found : world.entity? id = some entity) (tags : List Tag) {request : Request}
    (rechecked : .drain ∈ (world.perform request).frames)
    (asked : request.tagEdit?.isSome = true) :
    world.Turn (.perform request) (world.takeTags entity tags).2.1 := by
  obtain rfl := numbered id entity found
  have alters : world.Alters (world.takeTags entity tags).2.1 entity.id
      fun other => { other with tags := (entity.tags.removeEach tags).2 } :=
    (alters_takeTags found tags).congr fun other stored => by
      rw [found] at stored
      cases stored
      rfl
  refine .retag found alters (fun _ watched => ⟨?_, ?_⟩) asked
  · unfold TagCounts.Watched
    rw [TagCounts.listeners_removeEach]
    exact watched
  · cases vanished : (entity.tags.removeEach tags).1 with
    | nil => exact .inl (TagCounts.keeps_removeEach vanished)
    | cons tag others =>
      refine .inr ⟨mem_tagChanges_hear watched ?_ _ _, .inl rechecked⟩
      rw [vanished]
      simp

/-- A tag edit that keeps the engine listening ends no match unheard. -/
theorem heard_perform {counts : TagCounts} (watched : counts.Watched) (request : TagRequest)
    (keeps : request.keepsWatch = true) (world : World) (id : EntityId) :
    (request.perform counts).state.Watched ∧ (counts.Keeps (request.perform counts).state ∨
      id ∈ (world.hear id (request.perform counts).events).1.tagChanges ∧
        request.isEdit = true) := by
  cases request with
  | add tag =>
    refine ⟨?_, .inl (TagCounts.keeps_add counts tag)⟩
    simp only [TagRequest.perform, TagCounts.Watched, TagCounts.listeners_add]
    exact watched
  | remove tag =>
    refine ⟨?_, ?_⟩
    · simp only [TagRequest.perform, TagCounts.Watched, TagCounts.listeners_remove]
      exact watched
    · cases vanished : (counts.remove tag).1 with
      | false => exact .inl (TagCounts.keeps_remove vanished)
      | true =>
        have told : (if (counts.remove tag).1 then [TagEvent.removed tag] else []) ≠ [] := by
          simp [vanished]
        exact .inr ⟨mem_tagChanges_hear watched told world id, rfl⟩
  | addAll tags =>
    refine ⟨?_, .inl (TagCounts.keeps_addEach counts tags.tags)⟩
    simp only [TagRequest.perform, TagCounts.Watched, TagCounts.listeners_addEach]
    exact watched
  | removeAll tags =>
    refine ⟨?_, ?_⟩
    · simp only [TagRequest.perform, TagCounts.Watched, TagCounts.listeners_removeEach]
      exact watched
    · cases vanished : (counts.removeEach tags.tags).1 with
      | nil => exact .inl (TagCounts.keeps_removeEach vanished)
      | cons tag others =>
        have told : (counts.removeEach tags.tags).1.map TagEvent.removed ≠ [] := by
          simp [vanished]
        exact .inr ⟨mem_tagChanges_hear watched told world id, rfl⟩
  | watch name => exact ⟨watched.subscribe _, .inl (.of_subset fun _ member => member)⟩
  | unwatch => cases keeps
  | clear => cases keeps
  | _ => exact ⟨watched, .inl (.refl counts)⟩

/-- Changing tags on request, where the change takes a turn once requirements are re-checked after
it. -/
theorem turn_retag {frame : Frame} {id : EntityId} {absent : Reply}
    {change : Entity → Reply × World × List Event}
    (turns : ∀ entity, world.entity? id = some entity →
      .drain ∈ (world.retag id absent change).frames → world.Turn frame (change entity).2.1) :
    world.Turn frame (world.retag id absent change).world := by
  cases found : world.entity? id with
  | none =>
    have unchanged : world.retag id absent change = .answered world absent := by
      rw [retag, found]
    rw [unchanged]
    exact .quiet (.refl world)
  | some entity =>
    have changed : world.retag id absent change =
        .told (change entity).2 [.drain, .answer (change entity).1] := by
      rw [retag, found]
    have rechecked : .drain ∈ (world.retag id absent change).frames := by
      rw [changed]
      exact List.mem_cons_self
    have turn := turns entity found rechecked
    rw [changed]
    exact turn

/-- Editing held tags directly. -/
theorem turn_editTags (world : World) (id : EntityId) (request : Except Refusal TagRequest) :
    world.Turn (.perform (.tags id request)) (world.perform (.tags id request)).world := by
  unfold perform
  dsimp only
  split
  · exact .quiet (.refl world)
  · next entity found =>
    have alters {events : List (TagListener × TagEvent)} (tags : TagCounts) :
        world.Alters ((world.modify id fun entity => { entity with tags }).hear id events).1 id
          fun entity => { entity with tags } :=
      (alters_modify world id _).trans (alters_hear _ id _)
    cases request with
    | error refusal =>
      refine .alter ((alters entity.tags).congr fun other stored => ?_) .still
      rw [found] at stored
      cases stored
      rfl
    | ok request =>
      refine .retag found (alters _) (fun keeps watched => ?_) rfl
      obtain ⟨watched, kept⟩ := heard_perform watched request keeps _ id
      exact ⟨watched, kept.imp_right fun heard => ⟨heard.1, .inr ⟨request, rfl, heard.2⟩⟩⟩

/-- Editing attributes directly. -/
theorem turn_editSheet (world : World) (id : EntityId) (request : Except Refusal SheetRequest) :
    world.Turn (.perform (.attributes id request))
      (world.perform (.attributes id request)).world := by
  unfold perform
  dsimp only
  split
  · exact .quiet (.refl world)
  · next entity found =>
    refine .alter ((alters_modify world id _).congr fun other stored => ?_) .sheet
    rw [found] at stored
    cases stored
    rfl

/-- Asking a roster without editing it. -/
theorem turn_askRoster (world : World) {id : EntityId} {request : Except Refusal RosterRequest}
    (lawful : (Request.effects id request).isLawful = true) :
    world.Turn (.perform (.effects id request)) (world.perform (.effects id request)).world := by
  unfold perform
  dsimp only
  split
  · exact .quiet (.refl world)
  · next entity found =>
    split
    · exact .quiet (.refl world)
    · next request =>
      have same : (request.perform entity.effects).2 = entity.effects := by
        cases request <;> first | rfl | cases lawful
      refine .alter ((alters_modify world id _).congr fun other stored => ?_) .still
      rw [found] at stored
      cases stored
      rw [same]

/-- Performing a request that edits no roster. -/
theorem turn_perform (sound : world.Sound) {request : Request} (lawful : request.isLawful = true) :
    world.Turn (.perform request) (world.perform request).world := by
  cases request with
  | spawn id => exact turn_join world (Entity.isNewcomer_ofTable id _ _) rfl
  | register id rows tags => exact turn_join world (Entity.isNewcomer_ofTable id _ _) rfl
  | unregister id => exact turn_depart world id rfl
  | addTag id tag =>
    exact turn_retag fun entity found _ => turn_giveTags sound.numbered found [tag] rfl
  | addTags id tags =>
    exact turn_retag fun entity found _ => turn_giveTags sound.numbered found tags.tags rfl
  | removeTag id tag =>
    exact turn_retag fun entity found rechecked =>
      turn_takeTags sound.numbered found [tag] rechecked rfl
  | removeTags id tags =>
    exact turn_retag fun entity found rechecked =>
      turn_takeTags sound.numbered found tags.tags rechecked rfl
  | applyNode skill node opening =>
    unfold perform applyNode
    dsimp only
    split <;> exact .quiet (.refl world)
  | condition definition subject opening =>
    unfold perform
    dsimp only
    split <;> exact .quiet ⟨rfl, rfl, rfl, rfl, rfl⟩
  | roll chance =>
    unfold perform
    dsimp only
    split <;> exact .quiet ⟨rfl, rfl, rfl, rfl, rfl⟩
  | library request =>
    unfold perform
    dsimp only
    split <;> exact .quiet ⟨rfl, rfl, rfl, rfl, rfl⟩
  | tags id request => exact turn_editTags world id request
  | attributes id request => exact turn_editSheet world id request
  | effects id request => exact turn_askRoster world lawful
  | _ => exact .quiet ⟨rfl, rfl, rfl, rfl, rfl⟩

/-- Every frame but those for scripts is one of the turns that a world can take. -/
theorem turn_expand (sound : world.Sound) (reply : Reply) {frame : Frame}
    (admitted : frame.Admitted fun request => request.isLawful = true) :
    world.Turn frame (frame.expand world reply).world := by
  cases frame with
  | fire | branch | enter | applyEach | applied | pulses | expireDue | cleanse | removeEach
  | enforce | ticks | answer =>
    rw [Frame.world_expand_of_plans rfl]
    exact .quiet (.refl world)
  | visit skill node context => exact turn_visit sound.standard skill node context _
  | perform request =>
    rcases admitted with lawful | nested
    · exact turn_perform sound lawful
    · exact turn_perform sound (by cases request <;> first | rfl | cases nested)
  | apply application target => exact turn_applyTo sound application target
  | write application target => exact turn_write world application target
  | attach application target duration => exact turn_attach sound application target duration
  | expire handle => exact turn_expire world handle
  | finish handle state fires => exact turn_finish sound handle state fires
  | drain => exact turn_drain world
  | tickEntity id seconds => exact turn_tickEntity world id seconds
  | tickEffect handle seconds => exact turn_tickEffect world handle seconds
  | endEntityTick id => exact turn_endEntityTick world id
  | beginTick seconds => exact turn_beginTick world seconds
  | endTick seconds => exact turn_endTick world seconds
  | script | scripted => exact admitted.elim

end World

end SkillEngine
