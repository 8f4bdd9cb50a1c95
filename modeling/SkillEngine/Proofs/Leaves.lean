import SkillEngine.Proofs.Turn

/-!
# What one frame can leave to be done

Everything that a frame can leave in its place is listed here once, frame by frame, with what is
known about the world when it does. `Frame.leaves_expand` derives the list from the frames, for the
built-in behaviours.
-/

namespace SkillEngine

/-- The frames that a request of the host starts with, activations and ticks apart. -/
def Frame.isOpening : Frame → Bool
  | .fire firing => firing.cause.isNone
  | .finish _ state fires => state == .removed && fires || state == .cancelled && !fires
  | .applyEach .. | .apply .. | .expire _ | .cleanse .. | .enforce _ | .drain | .tickEntity .. =>
    true
  | _ => false

/-- The first frame can leave the second, among others, in a world. -/
inductive Frame.Leaves (world : World) : Frame → Frame → Prop where
  /-- Whatever is done may be answered. -/
  | answer {frame : Frame} {reply : Reply} (busy : ∀ reply, frame ≠ .answer reply) :
      Leaves world frame (.answer reply)
  /-- A firing that is not too deep runs the nodes that its port leads to. -/
  | branch {firing : Firing} {nodes : List Node}
      (room : firing.context.depth < world.config.maxCascadeDepth) :
      Leaves world (.fire firing) (.branch firing.skill firing.context.descend nodes)
  /-- A firing in progress runs its next node. -/
  | visit {skill : SkillId} {context : Context} {node : Node} {nodes : List Node} :
      Leaves world (.branch skill context (node :: nodes)) (.visit skill node context)
  /-- A firing in progress goes on. -/
  | nodes {skill : SkillId} {context : Context} {node : Node} {nodes : List Node} :
      Leaves world (.branch skill context (node :: nodes)) (.branch skill context nodes)
  /-- A node of a number is run. -/
  | enter {skill : SkillId} {id : NodeId} {context : Context} {node : Node} :
      Leaves world (.enter skill id context) (.visit skill node context)
  /-- An effect node is applied. -/
  | targets {skill : SkillId} {node : Node} {context : Context} {application : Application}
      {targets : List EntityId} (same : application.context = context) :
      Leaves world (.visit skill node context) (.applyEach application targets [])
  /-- A node fires a port of its own. -/
  | port {skill : SkillId} {node : Node} {context : Context} {firing : Firing}
      (cause : firing.cause = none) (depth : firing.context.depth = context.depth) :
      Leaves world (.visit skill node context) (.fire firing)
  /-- A task makes a request. -/
  | task {skill : SkillId} {node : Node} {context : Context} {request : Request}
      (nested : request.isNested = true) :
      Leaves world (.visit skill node context) (.perform request)
  /-- A request of the host starts. -/
  | host {request : Request} {next : Frame} (host : request.isNested = false)
      (opening : next.isOpening = true) : Leaves world (.perform request) next
  /-- An activation runs a node. -/
  | activate {skill : SkillId} {node : NodeId} {opening : Opening} {context : Context} :
      Leaves world (.perform (.activate skill node opening)) (.enter skill node context)
  /-- Time is asked to pass. -/
  | tick {seconds : Float32} {count : Nat} :
      Leaves world (.perform (.tick seconds count)) (.ticks seconds count)
  /-- A request of a node removes effects. -/
  | cleansing {target : EntityId} {tags : TagSet} :
      Leaves world (.perform (.removeEffectsWithTags target tags)) (.cleanse target tags)
  /-- A request of a node edits tags. -/
  | recheck {request : Request} (nested : request.isNested = true) :
      Leaves world (.perform request) .drain
  /-- An effect is applied to its next target. -/
  | apply {application : Application} {target : EntityId} {targets : List EntityId}
      {handles : List EffectHandle} :
      Leaves world (.applyEach application (target :: targets) handles) (.apply application target)
  /-- Then comes what remains. -/
  | applied {application : Application} {target : EntityId} {targets : List EntityId}
      {handles : List EffectHandle} :
      Leaves world (.applyEach application (target :: targets) handles)
        (.applied application targets handles)
  /-- The remaining targets follow. -/
  | applyEach {application : Application} {targets : List EntityId}
      {handles others : List EffectHandle} :
      Leaves world (.applied application targets handles) (.applyEach application targets others)
  /-- An application removes effects first. -/
  | cleanse {application : Application} {target : EntityId} {tags : TagSet} :
      Leaves world (.apply application target) (.cleanse target tags)
  /-- An instant effect writes. -/
  | write {application : Application} {target : EntityId} :
      Leaves world (.apply application target) (.write application target)
  /-- A lasting effect takes hold. -/
  | attach {application : Application} {target : EntityId} {duration : Float32} :
      Leaves world (.apply application target) (.attach application target duration)
  /-- A live effect at its stack limit overflows. -/
  | overflow {application : Application} {target : EntityId} {handle : EffectHandle}
      {effect : Effect} (found : world.effect? handle = some effect) (live : effect.isLive = true) :
      Leaves world (.apply application target) (.fire (effect.fires handle .overflow
        { application.context with owner := some handle }))
  /-- An instant effect fires its ports. -/
  | written {application : Application} {target : EntityId} {firing : Firing}
      (cause : firing.cause = none) (depth : firing.context.depth = application.context.depth) :
      Leaves world (.write application target) (.fire firing)
  /-- A new effect fires its first port. -/
  | initial {application : Application} {target : EntityId} {duration : Float32} {effect : Effect}
      (new : effect = world.newEffect application target duration) :
      Leaves world (.attach application target duration)
        (.fire (effect.fires effect.handle .initial effect.context))
  /-- A new effect may pulse. -/
  | pulse {application : Application} {target : EntityId} {duration : Float32} {count : Nat} :
      Leaves world (.attach application target duration)
        (.pulses ⟨target, ⟨world.nextEffect⟩⟩ count)
  /-- The requirements on a target are re-checked. -/
  | attached {application : Application} {target : EntityId} {duration : Float32} :
      Leaves world (.attach application target duration) (.enforce target)
  /-- A live effect pulses. -/
  | periodic {handle : EffectHandle} {count : Nat} {effect : Effect}
      (found : world.effect? handle = some effect) (live : effect.isLive = true) :
      Leaves world (.pulses handle (count + 1))
        (.fire (effect.fires handle .periodic effect.context))
  /-- The remaining pulses follow. -/
  | pulses {handle : EffectHandle} {count : Nat} {effect : Effect}
      (found : world.effect? handle = some effect) (live : effect.isLive = true) :
      Leaves world (.pulses handle (count + 1)) (.pulses handle count)
  /-- An effect that is due expires. -/
  | due {handle : EffectHandle} : Leaves world (.expireDue handle) (.expire handle)
  /-- An effect that expires ends. -/
  | expired {handle : EffectHandle} : Leaves world (.expire handle) (.finish handle .expired true)
  /-- A live effect that ends fires its last ports. -/
  | last {handle : EffectHandle} {state : EffectState} {effect : Effect} {port : EffectPort}
      (found : world.effect? handle = some effect) (live : effect.isLive = true)
      (ends : port = .removed ∨ port = .complete) :
      Leaves world (.finish handle state true) (.fire (effect.fires handle port effect.context))
  /-- The requirements on its target are re-checked. -/
  | ended {handle : EffectHandle} {state : EffectState} {fires : Bool} {effect : Effect}
      (found : world.effect? handle = some effect) (live : effect.isLive = true) :
      Leaves world (.finish handle state fires) (.enforce handle.target)
  /-- The effects to be removed are picked. -/
  | removeEach {target : EntityId} {tags : TagSet} {ids : List EffectId} :
      Leaves world (.cleanse target tags) (.removeEach target ids 0)
  /-- The next one is removed. -/
  | remove {target : EntityId} {id : EffectId} {ids : List EffectId} {count : Nat} :
      Leaves world (.removeEach target (id :: ids) count) (.finish ⟨target, id⟩ .removed true)
  /-- The remaining ones follow. -/
  | removing {target : EntityId} {id : EffectId} {ids : List EffectId} {count total : Nat} :
      Leaves world (.removeEach target (id :: ids) count) (.removeEach target ids total)
  /-- An effect whose requirement does not hold is removed. -/
  | violating {target : EntityId} {id : EffectId} :
      Leaves world (.enforce target) (.finish ⟨target, id⟩ .removed true)
  /-- An entity whose tags changed is re-checked. -/
  | changed {id : EntityId} (waits : id ∈ world.tagChanges) : Leaves world .drain (.enforce id)
  /-- After that, tag changes may wait again. -/
  | drain (wait : world.tagChanges ≠ []) : Leaves world .drain .drain
  /-- Time passes for an effect. -/
  | tickEffect {id : EntityId} {key : EffectId} {seconds : Float32} :
      Leaves world (.tickEntity id seconds) (.tickEffect ⟨id, key⟩ seconds)
  /-- The tick of an entity ends. -/
  | endEntityTick {id : EntityId} {seconds : Float32} :
      Leaves world (.tickEntity id seconds) (.endEntityTick id)
  /-- Pulses come due. -/
  | ticked {handle : EffectHandle} {seconds : Float32} {count : Nat} {effect : Effect}
      (found : world.effect? handle = some effect) :
      Leaves world (.tickEffect handle seconds) (.pulses handle count)
  /-- A duration runs out. -/
  | expireDue {handle : EffectHandle} {seconds : Float32} :
      Leaves world (.tickEffect handle seconds) (.expireDue handle)
  /-- Time passes for an entity. -/
  | tickEntity {id : EntityId} {seconds scaled : Float32} :
      Leaves world (.beginTick seconds) (.tickEntity id scaled)
  /-- A tick ends. -/
  | endTick {seconds scaled : Float32} : Leaves world (.beginTick seconds) (.endTick scaled)
  /-- The remaining ticks follow. -/
  | ticks {seconds : Float32} {count : Nat} :
      Leaves world (.ticks seconds (count + 1)) (.ticks seconds count)
  /-- Tag changes are seen to before a tick. -/
  | beforeTick {seconds : Float32} {count : Nat} :
      Leaves world (.ticks seconds (count + 1)) .drain
  /-- A tick begins. -/
  | beginTick {seconds : Float32} {count : Nat} :
      Leaves world (.ticks seconds (count + 1)) (.beginTick seconds)

/-- Stacking onto an instance lets no new one take hold. -/
theorem World.attach_not_mem_stackOnto (world : World) {handle : EffectHandle}
    {context : Context} {application : Application} {target : EntityId} {duration : Float32} :
    .attach application target duration ∉ (world.stackOnto handle context).frames := by
  intro left
  rcases World.of_mem_stackOnto left with same | ⟨_, _, same⟩ <;> cases same

namespace Frame

variable {world : World} {next : Frame}

/-- The depth of a context does not depend on the values in it. -/
theorem depth_writeEach (context : Context) (target : EntityId) (writes : List (Modifier × Float32))
    (world : World) : (world.writeEach context target writes).1.depth = context.depth := by
  induction writes generalizing context world with
  | nil => rfl
  | cons entry rest ih =>
    obtain ⟨modifier, magnitude⟩ := entry
    have first : (world.writeOne context target modifier magnitude).1.depth = context.depth := by
      unfold World.writeOne
      split
      · rfl
      · split <;> rfl
    exact (ih _ _).trans first

/-- What a task leaves. -/
theorem leaves_runTask (skill : SkillId) (node : Node) (context : Context) (definition : TaskDef)
    (left : next ∈ (world.runTask skill node context definition).frames) :
    Leaves world (.visit skill node context) next := by
  cases definition with
  | searchTargets =>
    rcases List.mem_append.1 left with hit | last
    · obtain ⟨target, _, rfl⟩ := List.mem_map.1 hit
      exact .port rfl rfl
    · rw [List.mem_singleton.1 last]
      exact .port rfl rfl
  | removeEffectsWithTags | addLooseTags | removeLooseTags =>
    rcases List.mem_append.1 left with asked | last
    · obtain ⟨target, _, rfl⟩ := List.mem_map.1 asked
      exact .task rfl
    · rw [List.mem_singleton.1 last]
      exact .port rfl rfl
  | setContextValue =>
    rw [List.mem_singleton.1 left]
    exact .port rfl rfl
  | captureSnapshot =>
    rw [List.mem_singleton.1 left]
    refine .port rfl ?_
    simp only
    split <;> rfl

/-- What running a node leaves. -/
theorem leaves_visit (standard : world.Standard) (skill : SkillId) (node : Node) (context : Context)
    (left : next ∈ (world.visit skill node context).frames) :
    Leaves world (.visit skill node context) next := by
  have ways := world.enacting skill node context
  generalize world.visit skill node context = progress at ways left
  cases ways with
  | idle => cases left
  | effect =>
    rw [List.mem_singleton.1 left]
    exact .targets rfl
  | task => exact leaves_runTask skill node context _ left
  | decided =>
    rw [List.mem_singleton.1 left]
    exact .port rfl rfl
  | unanswered | cue => cases left
  | scripted scripts => cases (standard node.category).symm.trans scripts

/-- What performing a request leaves. -/
theorem leaves_perform (request : Request) (left : next ∈ (world.perform request).frames) :
    Leaves world (.perform request) next := by
  have busy : ∀ reply, Frame.perform request ≠ .answer reply := fun _ same => by cases same
  unfold World.perform at left
  cases request with
  | spawn | register =>
    dsimp only [World.join] at left
    split at left <;> cases left
  | firePort | processTagChanges | expire | tickEntity | enforce =>
    simp only [List.mem_cons, List.not_mem_nil, or_false] at left
    rcases left with rfl | rfl
    · exact .host rfl rfl
    · exact .answer busy
  | tick =>
    simp only [List.mem_cons, List.not_mem_nil, or_false] at left
    rcases left with rfl | rfl
    · exact .tick
    · exact .answer busy
  | activate =>
    simp only [List.mem_cons, List.not_mem_nil, or_false] at left
    rcases left with rfl | rfl | rfl
    · exact .host rfl rfl
    · exact .activate
    · exact .answer busy
  | addTag | removeTag =>
    dsimp only [World.retag] at left
    split at left
    · cases left
    · simp only [Progress.told, List.mem_cons, List.not_mem_nil, or_false] at left
      rcases left with rfl | rfl
      · exact .host rfl rfl
      · exact .answer busy
  | addTags | removeTags =>
    dsimp only [World.retag] at left
    split at left
    · cases left
    · simp only [Progress.told, List.mem_cons, List.not_mem_nil, or_false] at left
      rcases left with rfl | rfl
      · exact .recheck rfl
      · exact .answer busy
  | removeEffect | cancelEffect | apply =>
    rw [List.mem_singleton.1 left]
    exact .host rfl rfl
  | removeEffectsWithTags =>
    rw [List.mem_singleton.1 left]
    exact .cleansing
  | applyNode =>
    dsimp only [World.applyNode] at left
    split at left
    · rw [List.mem_singleton.1 left]
      exact .host rfl rfl
    · cases left
  | condition | roll | library | tags | attributes =>
    dsimp only at left
    split at left <;> cases left
  | effects =>
    dsimp only at left
    split at left
    · cases left
    · split at left <;> cases left
  | _ => cases left

/-- What stacking onto a live effect leaves. -/
theorem leaves_stackOnto {application : Application} {target : EntityId} {handle : EffectHandle}
    (live : world.isLive handle = true)
    (left : next ∈ (world.stackOnto handle application.context).frames) :
    Leaves world (.apply application target) next := by
  rcases World.of_mem_stackOnto left with rfl | ⟨effect, found, rfl⟩
  · exact .answer fun _ same => by cases same
  · exact .overflow found ((World.isLive_eq found).symm.trans live)

/-- What applying an effect leaves. -/
theorem leaves_applyTo (sound : world.Sound) {application : Application} {target : EntityId}
    (left : next ∈ (world.applyTo application target).frames) :
    Leaves world (.apply application target) next := by
  have ways := world.applying application target
  generalize world.applyTo application target = progress at ways left
  cases ways with
  | refused => cases left
  | written =>
    simp only [World.instantly, List.mem_cons, List.not_mem_nil, or_false] at left
    rcases left with rfl | rfl | rfl
    · exact .cleanse
    · exact .write
    · exact .answer fun _ same => by cases same
  | stacked registered _ _ matched =>
    exact leaves_stackOnto (sound.isLive_stackable registered matched) left
  | held =>
    simp only [World.lastingly, List.mem_cons, List.not_mem_nil, or_false] at left
    rcases left with rfl | rfl
    · exact .cleanse
    · exact .attach

/-- What firing a port leaves. -/
theorem leaves_fire {firing : Firing} (left : next ∈ (world.fire firing).frames) :
    Leaves world (.fire firing) next := by
  unfold World.fire at left
  split at left
  · cases left
  · split at left
    · cases left
    · next room =>
      rw [List.mem_singleton.1 left]
      exact .branch (UInt32.not_le.1 room)

/-- What a firing in progress leaves. -/
theorem leaves_branch {skill : SkillId} {context : Context} {nodes : List Node}
    (left : next ∈ (world.branch skill context nodes).frames) :
    Leaves world (.branch skill context nodes) next := by
  cases nodes with
  | nil => cases left
  | cons node rest =>
    simp only [World.branch, List.mem_cons, List.not_mem_nil, or_false] at left
    rcases left with rfl | rfl
    · exact .visit
    · exact .nodes

/-- What running the node of a number leaves. -/
theorem leaves_enter {skill : SkillId} {node : NodeId} {context : Context}
    (left : next ∈ (world.enter skill node context).frames) :
    Leaves world (.enter skill node context) next := by
  unfold World.enter at left
  split at left
  · cases left
  · rw [List.mem_singleton.1 left]
    exact .enter

/-- What applying an effect to some targets leaves. -/
theorem leaves_applyEach {application : Application} {targets : List EntityId}
    {handles : List EffectHandle}
    (left : next ∈ (world.applyEach application targets handles).frames) :
    Leaves world (.applyEach application targets handles) next := by
  cases targets with
  | nil => cases left
  | cons target rest =>
    simp only [World.applyEach, List.mem_cons, List.not_mem_nil, or_false] at left
    rcases left with rfl | rfl
    · exact .apply
    · exact .applied

/-- What taking down what an application gave leaves. -/
theorem leaves_applied {reply : Reply} {application : Application} {targets : List EntityId}
    {handles : List EffectHandle}
    (left : next ∈ (world.applied reply application targets handles).frames) :
    Leaves world (.applied application targets handles) next := by
  unfold World.applied at left
  split at left
  · rw [List.mem_singleton.1 left]
    exact .applyEach
  · rw [List.mem_singleton.1 left]
    exact .applyEach

/-- What writing an instant effect leaves. -/
theorem leaves_write {application : Application} {target : EntityId}
    (left : next ∈ (world.write application target).frames) :
    Leaves world (.write application target) next := by
  have depth := depth_writeEach application.context target (application.definition.modifiers.zip
    (world.magnitudesOf application.definition application.context target)) world
  simp only [World.write, Progress.told, List.mem_cons, List.not_mem_nil, or_false] at left
  rcases left with rfl | rfl
  · exact .written rfl depth
  · exact .written rfl depth

/-- What letting an effect take hold leaves. -/
theorem leaves_attach {application : Application} {target : EntityId} {duration : Float32}
    (left : next ∈ (world.attach application target duration).frames) :
    Leaves world (.attach application target duration) next := by
  simp only [World.attach, Progress.told, List.mem_cons, List.not_mem_nil, or_false] at left
  rcases left with rfl | rfl | rfl | rfl
  · exact .initial rfl
  · exact .pulse
  · exact .attached
  · exact .answer fun _ same => by cases same

/-- What some pulses leave. -/
theorem leaves_pulses {handle : EffectHandle} {count : Nat}
    (left : next ∈ (world.pulses handle count).frames) :
    Leaves world (.pulses handle count) next := by
  cases count with
  | zero => cases left
  | succ count =>
    simp only [World.pulses] at left
    split at left
    · cases left
    · next effect found =>
      split at left
      · next live =>
        simp only [List.mem_cons, List.not_mem_nil, or_false] at left
        rcases left with rfl | rfl
        · exact .periodic found live
        · exact .pulses found live
      · cases left

/-- What expiring an effect that is due leaves. -/
theorem leaves_expireDue {handle : EffectHandle} (left : next ∈ (world.expireDue handle).frames) :
    Leaves world (.expireDue handle) next := by
  unfold World.expireDue at left
  split at left
  · rw [List.mem_singleton.1 left]
    exact .due
  · cases left

/-- What treating an effect as run out leaves. -/
theorem leaves_expire {handle : EffectHandle} (left : next ∈ (world.expire handle).frames) :
    Leaves world (.expire handle) next := by
  have ways := world.lapsing handle
  generalize world.expire handle = progress at ways left
  cases ways with
  | missing | lessened | restarted => cases left
  | ending | spent =>
    rw [List.mem_singleton.1 left]
    exact .expired

/-- What ending an effect leaves. -/
theorem leaves_finish {handle : EffectHandle} {state : EffectState} {fires : Bool}
    (left : next ∈ (world.finish handle state fires).frames) :
    Leaves world (.finish handle state fires) next := by
  cases live : world.isLive handle with
  | false =>
    rw [World.finish_of_not_isLive live] at left
    cases left
  | true =>
    obtain ⟨effect, found, lives⟩ := World.exists_of_isLive live
    rw [World.finish_of_live found lives] at left
    simp only [Progress.told, List.mem_append, List.mem_cons, List.not_mem_nil, or_false] at left
    rcases left with ports | rfl | rfl
    · split at ports
      · next firing =>
        subst firing
        simp only [List.mem_cons, List.not_mem_nil, or_false] at ports
        rcases ports with rfl | rfl
        · exact .last found lives (.inl rfl)
        · exact .last found lives (.inr rfl)
      · cases ports
    · exact .ended found lives
    · exact .answer fun _ same => by cases same

/-- What removing the effects with matching tags leaves. -/
theorem leaves_cleanse {target : EntityId} {tags : TagSet}
    (left : next ∈ (world.cleanse target tags).frames) :
    Leaves world (.cleanse target tags) next := by
  unfold World.cleanse at left
  split at left
  · cases left
  · rw [List.mem_singleton.1 left]
    exact .removeEach

/-- What removing some effects leaves. -/
theorem leaves_removeEach {target : EntityId} {ids : List EffectId} {count : Nat}
    (left : next ∈ (world.removeEach target ids count).frames) :
    Leaves world (.removeEach target ids count) next := by
  cases ids with
  | nil => cases left
  | cons id rest =>
    simp only [World.removeEach, List.mem_cons, List.not_mem_nil, or_false] at left
    rcases left with rfl | rfl
    · exact .remove
    · exact .removing

/-- What a re-check leaves. -/
theorem leaves_enforce {target : EntityId} (left : next ∈ (world.enforce target).frames) :
    Leaves world (.enforce target) next := by
  unfold World.enforce at left
  split at left
  · cases left
  · obtain ⟨id, _, rfl⟩ := List.mem_map.1 left
    exact .violating

/-- What a drain leaves. -/
theorem leaves_drain (left : next ∈ world.drain.frames) : Leaves world .drain next := by
  unfold World.drain at left
  split at left
  · cases left
  · next changed some =>
    rcases List.mem_append.1 left with check | last
    · obtain ⟨id, member, rfl⟩ := List.mem_map.1 check
      exact .changed (World.mem_changedEntities.1 member)
    · rw [List.mem_singleton.1 last]
      refine .drain fun none => some ?_
      simp [World.changedEntities, none, Dict.ofList, Dict.keys, Dict.empty]

/-- What time passing for an entity leaves. -/
theorem leaves_tickEntity {id : EntityId} {seconds : Float32}
    (left : next ∈ (world.tickEntity id seconds).frames) :
    Leaves world (.tickEntity id seconds) next := by
  unfold World.tickEntity at left
  split at left
  · cases left
  · rcases List.mem_append.1 left with ticks | last
    · obtain ⟨key, _, rfl⟩ := List.mem_map.1 ticks
      exact .tickEffect
    · rw [List.mem_singleton.1 last]
      exact .endEntityTick

/-- What time passing for an effect leaves. -/
theorem leaves_tickEffect {handle : EffectHandle} {seconds : Float32}
    (left : next ∈ (world.tickEffect handle seconds).frames) :
    Leaves world (.tickEffect handle seconds) next := by
  unfold World.tickEffect at left
  split at left
  · cases left
  · next effect found =>
    rcases List.mem_cons.1 left with rfl | due
    · exact .ticked found
    · split at due
      · rw [List.mem_singleton.1 due]
        exact .expireDue
      · cases due

/-- What ticks leave. -/
theorem leaves_ticks {seconds : Float32} {count : Nat}
    (left : next ∈ (world.ticks seconds count).frames) :
    Leaves world (.ticks seconds count) next := by
  cases count with
  | zero => cases left
  | succ count =>
    simp only [World.ticks] at left
    split at left
    · rw [List.mem_singleton.1 left]
      exact .ticks
    · simp only [List.mem_cons, List.not_mem_nil, or_false] at left
      rcases left with rfl | rfl | rfl
      · exact .beforeTick
      · exact .beginTick
      · exact .ticks

/-- What the beginning of a tick leaves. -/
theorem leaves_beginTick {seconds : Float32}
    (left : next ∈ (world.beginTick seconds).frames) : Leaves world (.beginTick seconds) next := by
  unfold World.beginTick at left
  dsimp only at left
  split at left
  · cases left
  · rcases List.mem_append.1 left with ticks | last
    · obtain ⟨id, _, rfl⟩ := List.mem_map.1 ticks
      exact .tickEntity
    · rw [List.mem_singleton.1 last]
      exact .endTick

/-- What a frame leaves. -/
theorem leaves_expand (sound : world.Sound) (reply : Reply) {frame : Frame}
    {admits : Request → Prop} (admitted : frame.Admitted admits)
    (left : next ∈ (frame.expand world reply).frames) : Leaves world frame next := by
  cases frame with
  | fire => exact leaves_fire left
  | branch => exact leaves_branch left
  | visit skill node context => exact leaves_visit sound.standard skill node context left
  | enter => exact leaves_enter left
  | script | scripted => exact admitted.elim
  | perform request => exact leaves_perform request left
  | answer => cases left
  | applyEach => exact leaves_applyEach left
  | applied => exact leaves_applied left
  | apply => exact leaves_applyTo sound left
  | write => exact leaves_write left
  | attach => exact leaves_attach left
  | pulses => exact leaves_pulses left
  | expireDue => exact leaves_expireDue left
  | expire => exact leaves_expire left
  | finish => exact leaves_finish left
  | cleanse => exact leaves_cleanse left
  | removeEach => exact leaves_removeEach left
  | enforce => exact leaves_enforce left
  | drain => exact leaves_drain left
  | tickEntity => exact leaves_tickEntity left
  | tickEffect => exact leaves_tickEffect left
  | endEntityTick => cases left
  | ticks => exact leaves_ticks left
  | beginTick => exact leaves_beginTick left
  | endTick => cases left

end Frame

end SkillEngine
