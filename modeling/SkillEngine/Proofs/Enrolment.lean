import SkillEngine.Proofs.Turn

/-!
# Who is registered

The roll of a registry tells who is registered, in which order ticks visit them, and who waits to
join or leave. Only registering, unregistering and the two ends of a tick call it anew:
`World.roll_expand` says so of every frame, whatever nodes do, scripts included. No frame at all
renames an attribute.
-/

namespace SkillEngine

/-- Who is registered, in which order, and who waits to join or leave. -/
structure Registry.Roll where
  /-- The registered numbers. -/
  registered : List EntityId
  /-- The order of ticking. -/
  order : List EntityId
  /-- The entities that wait to join. -/
  joining : List Entity
  /-- The numbers that wait to leave. -/
  leaving : List EntityId
  /-- A tick is running. -/
  ticking : Bool

/-- The roll of a registry. -/
def Registry.roll (registry : Registry) : Registry.Roll where
  registered := registry.entities.keys
  order := registry.order
  joining := registry.pendingAdd
  leaving := registry.pendingRemove
  ticking := registry.ticking

/-- Whether a number is registered is read off the roll. -/
theorem Registry.contains_congr {before after : Registry} (same : after.roll = before.roll)
    (id : EntityId) : after.contains id = before.contains id := by
  have keys : after.entities.keys = before.entities.keys := congrArg Roll.registered same
  have listed : (after.entities.get? id).isSome ↔ (before.entities.get? id).isSome := by
    rw [← Dict.mem_keys_iff, ← Dict.mem_keys_iff, keys]
  exact Bool.eq_iff_iff.2 listed

namespace World

variable {world after : World} {frame : Frame} {id : EntityId} {change : Entity → Entity}

/-- Who is registered and who waits to join or leave stays, and so do the names of attributes. -/
structure Stays (before after : World) : Prop where
  /-- The roll stays. -/
  roll : after.registry.roll = before.registry.roll
  /-- The names stay. -/
  names : after.scene.names = before.scene.names

namespace Stays

/-- A world stays as it is. -/
theorem refl (world : World) : world.Stays world := ⟨rfl, rfl⟩

/-- What stays twice stays. -/
theorem trans {first second third : World} (earlier : first.Stays second)
    (later : second.Stays third) : first.Stays third :=
  ⟨later.roll.trans earlier.roll, later.names.trans earlier.names⟩

end Stays

/-- Changing a registered entity changes nothing about who is registered. -/
theorem Alters.stays (alters : world.Alters after id change) : world.Stays after := by
  have keys := alters.keys
  obtain ⟨entities, cues, tagChanges, rfl⟩ := alters.shape
  refine ⟨?_, rfl⟩
  simp only [Registry.roll, keys]
  rfl

/-- Replacing held tags. -/
theorem stays_changeTags (world : World) (entity : Entity) (tags : TagCounts)
    (events : List TagEvent) : world.Stays (world.changeTags entity tags events).1 :=
  ((alters_modify world entity.id _).trans (alters_hear _ entity.id _)).stays

/-- Letting an effect take hold. -/
theorem stays_takeHold (world : World) (effect : Effect) :
    world.Stays (world.takeHold effect).1 := by
  have attached := (alters_attached world effect).stays
  rw [world_takeHold]
  split
  · exact attached
  · next entity _ =>
    exact attached.trans
      ((stays_changeTags _ entity _ _).trans (alters_modify _ effect.target _).stays)

/-- Releasing an effect. -/
theorem stays_release (world : World) (handle : EffectHandle) (effect : Effect)
    (state : EffectState) : world.Stays (world.release handle effect state).1 := by
  have detached := (alters_detached world handle effect state).stays
  rw [world_release]
  split
  · exact detached
  · next entity _ =>
    exact detached.trans
      ((stays_changeTags _ entity _ _).trans (alters_modify _ handle.target _).stays)

/-- Renewing what an effect tracks and telling its modifiers the stack count, after a change of the
effect. -/
theorem stays_spread (world : World) (handle : EffectHandle) (change : Effect → Effect)
    (effect : Effect) :
    world.Stays (((world.modifyEffect handle change).refreshTracked handle).spreadStacks handle
      effect).1 :=
  ((alters_modifyEffect world handle change).stays.trans
    (alters_refreshTracked _ handle).stays).trans (alters_changeSheet _ handle.target _).stays

/-- Stacking onto an effect. -/
theorem stays_stackOnto (world : World) (handle : EffectHandle) (context : Context) :
    world.Stays (world.stackOnto handle context).world := by
  rcases world.stackOnto_stacks_or_answers handle context with
    ⟨effect, policy, found, stacking⟩ | answers
  · rw [stackOnto_of_policy found stacking]
    exact stays_spread world handle _ _
  · rw [answers]
    exact .refl world

/-- Applying an effect. -/
theorem stays_applyTo (world : World) (application : Application) (target : EntityId) :
    world.Stays (world.applyTo application target).world := by
  have ways := world.applying application target
  generalize world.applyTo application target = progress at ways ⊢
  cases ways with
  | refused | written | held => exact .refl world
  | stacked => exact stays_stackOnto world _ _

/-- Running a node, whatever nodes of its category do. -/
theorem stays_visit (world : World) (skill : SkillId) (node : Node) (context : Context) :
    world.Stays (world.visit skill node context).world := by
  have ways := world.enacting skill node context
  generalize world.visit skill node context = progress at ways ⊢
  cases ways with
  | idle | effect | scripted => exact .refl world
  | task =>
    rw [world_runTask]
    exact .refl world
  | unanswered | decided => exact ⟨rfl, rfl⟩
  | cue =>
    have started (cues : CueStage) : world.Stays { world with cues } := ⟨rfl, rfl⟩
    unfold runCue
    dsimp only
    split
    · exact (started _).trans (alters_modifyEffect _ _ _).stays
    · exact started _

/-- Treating an effect as run out. -/
theorem stays_expire (world : World) (handle : EffectHandle) :
    world.Stays (world.expire handle).world := by
  have ways := world.lapsing handle
  generalize world.expire handle = progress at ways ⊢
  cases ways with
  | missing | ending => exact .refl world
  | spent | restarted => exact (alters_modifyEffect world handle _).stays
  | lessened =>
    exact (alters_modifyEffect world handle _).stays.trans
      (alters_changeSheet _ handle.target _).stays

/-- Ending an effect. -/
theorem stays_finish (world : World) (handle : EffectHandle) (state : EffectState) (fires : Bool) :
    world.Stays (world.finish handle state fires).world := by
  cases live : world.isLive handle with
  | false =>
    rw [finish_of_not_isLive live]
    exact .refl world
  | true =>
    obtain ⟨effect, found, lives⟩ := exists_of_isLive live
    rw [finish_of_live found lives]
    exact stays_release world handle effect state

/-- Letting time pass for an effect. -/
theorem stays_tickEffect (world : World) (handle : EffectHandle) (seconds : Float32) :
    world.Stays (world.tickEffect handle seconds).world := by
  unfold tickEffect
  split
  · exact .refl world
  · dsimp only
    split
    · exact (alters_modifyEffect world handle _).stays.trans (alters_refreshTracked _ handle).stays
    · exact (alters_modifyEffect world handle _).stays

/-- Changing tags on request, where the change stays. -/
theorem stays_retag {absent : Reply} {change : Entity → Reply × World × List Event}
    (keeps : ∀ entity, world.Stays (change entity).2.1) :
    world.Stays (world.retag id absent change).world := by
  unfold retag
  split
  · exact .refl world
  · exact keeps _

/-- Performing a request that registers and unregisters nobody. -/
theorem stays_perform (world : World) {request : Request} (plain : request.isEnrolment = false) :
    world.Stays (world.perform request).world := by
  cases request with
  | spawn | register | unregister => cases plain
  | addTag | removeTag | addTags | removeTags =>
    exact stays_retag fun entity => stays_changeTags world entity _ _
  | applyNode =>
    unfold perform applyNode
    dsimp only
    split <;> exact .refl world
  | condition | roll | library =>
    unfold perform
    dsimp only
    split <;> exact ⟨rfl, rfl⟩
  | tags id =>
    unfold perform
    dsimp only
    split
    · exact .refl world
    · exact ((alters_modify world id _).trans (alters_hear _ id _)).stays
  | attributes id =>
    unfold perform
    dsimp only
    split
    · exact .refl world
    · exact (alters_modify world id _).stays
  | effects id =>
    unfold perform
    dsimp only
    split
    · exact .refl world
    · split
      · exact .refl world
      · exact (alters_modify world id _).stays
  | _ => exact ⟨rfl, rfl⟩

/-- Only registering, unregistering and the two ends of a tick change who is registered and who
waits to join or leave. -/
theorem stays_expand (world : World) (reply : Reply) (plain : frame.enrols = false) :
    world.Stays (frame.expand world reply).world := by
  cases frame with
  | beginTick | endTick => cases plain
  | fire | branch | enter | script | scripted | applyEach | applied | pulses | expireDue | cleanse
  | removeEach | enforce | ticks | answer =>
    rw [Frame.world_expand_of_plans rfl]
    exact .refl world
  | visit skill node context => exact stays_visit world skill node context
  | perform request => exact stays_perform world plain
  | apply application target => exact stays_applyTo world application target
  | write application target =>
    obtain ⟨_, alters, _⟩ := alters_writeInstant world application target
    exact alters.stays
  | attach application target duration =>
    have numbered : world.Stays { world with nextEffect := world.nextEffect + 1 } := ⟨rfl, rfl⟩
    exact numbered.trans (stays_takeHold _ _)
  | expire handle => exact stays_expire world handle
  | finish handle state fires => exact stays_finish world handle state fires
  | drain =>
    simp only [Frame.expand, drain]
    split <;> exact ⟨rfl, rfl⟩
  | tickEntity =>
    simp only [Frame.expand, tickEntity]
    split
    · exact .refl world
    · exact (alters_modify world _ _).stays
  | tickEffect handle seconds => exact stays_tickEffect world handle seconds
  | endEntityTick id => exact ((alters_modify world id _).trans (alters_commit _ id)).stays

/-- Releasing an effect calls no roll anew. -/
theorem roll_release (world : World) (handle : EffectHandle) (effect : Effect)
    (state : EffectState) :
    (world.release handle effect state).1.registry.roll = world.registry.roll :=
  (stays_release world handle effect state).roll

/-- Nor does any frame but those that register, unregister, begin a tick or end one. -/
theorem roll_expand (world : World) (reply : Reply) (plain : frame.enrols = false) :
    (frame.expand world reply).world.registry.roll = world.registry.roll :=
  (stays_expand world reply plain).roll

/-- No frame changes the names of attributes. -/
theorem names_expand (world : World) (reply : Reply) (frame : Frame) :
    (frame.expand world reply).world.scene.names = world.scene.names := by
  cases enrols : frame.enrols with
  | false => exact (stays_expand world reply enrols).names
  | true =>
    have joined (entity : Entity) : (world.join entity).world.scene.names = world.scene.names := by
      unfold join
      split <;> rfl
    cases frame with
    | perform request =>
      cases request with
      | spawn | register => exact joined _
      | unregister => rfl
      | _ => cases enrols
    | beginTick seconds =>
      simp only [Frame.expand, beginTick]
      split <;> rfl
    | endTick => rfl
    | _ => cases enrols

end World

end SkillEngine
