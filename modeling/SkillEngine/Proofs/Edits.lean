import SkillEngine.Proofs.Enrolment

/-!
# What frames do to rosters

At most one roster is edited by a frame that registers and unregisters nobody: an instance on it is
touched or released, a new one is stored, its tick begins or ends, or it is asked directly.
`World.editsOnce_expand` says so of every frame, whatever nodes do, scripts included, and it says
what becomes of an instance that is touched, its stacks and its cues included.
-/

namespace SkillEngine

/-- The cue that a cue node starts in a frame, and the effect that owns its walk. -/
def Frame.startsCue? (world : World) : Frame → Option (EffectHandle × CueId)
  | .visit skill node context =>
    match node.kind, context.owner with
    | .cue definition, some owner =>
      (world.cues.spawn definition skill node.id context).1.map fun cue => (owner, cue)
    | _, _ => none
  | _ => none

namespace World

/-- The effects on a registered entity. -/
def roster? (world : World) (id : EntityId) : Option EffectRoster :=
  (world.entity? id).map (·.effects)

/-- What a frame makes of an instance that it touches. -/
inductive Touches (world : World) (frame : Frame) (handle : EffectHandle) (before : Effect) :
    Effect → Prop where
  /-- It owns the cue that is started. -/
  | owning {cue : CueId} (starts : frame.startsCue? world = some (handle, cue))
      (live : before.isLive = true) :
      world.Touches frame handle before { before with cues := before.cues ++ [cue] }
  /-- An application is stacked onto it. -/
  | stacked {application : Application} {policy : StackingPolicy}
      {updates : List (Nat × AttributeId × Float32)}
      (applies : frame = .apply application handle.target)
      (stacking : before.definition.stacking = some policy) :
      world.Touches frame handle before ((before.restack policy).renewed updates)
  /-- Its last stack goes, and it is to end. -/
  | spent {policy : StackingPolicy} (expires : frame = .expire handle)
      (stacking : before.definition.stacking = some policy) (last : before.stackCount - 1 = 0)
      (ends : (world.expire handle).frames = [.finish handle .expired true]) :
      world.Touches frame handle before { before with stackCount := before.stackCount - 1 }
  /-- One of its stacks goes, and its duration starts again. -/
  | lessened (expires : frame = .expire handle) (more : before.stackCount - 1 ≠ 0) :
      world.Touches frame handle before
        { before with stackCount := before.stackCount - 1 }.restartDuration
  /-- Its duration starts again. -/
  | restarted (expires : frame = .expire handle) :
      world.Touches frame handle before before.restartDuration
  /-- Some time passes for it, and its tracked magnitudes are renewed. -/
  | ticked {seconds : Float32} {updates : List (Nat × AttributeId × Float32)}
      (ticks : frame = .tickEffect handle seconds) :
      world.Touches frame handle before
        ((Effect.advance { before with context := { before.context with depth := 0 } }
          seconds).2.renewed updates)

/-- What a frame can do to one roster. -/
inductive Edit (world : World) : Frame → EntityId → (EffectRoster → EffectRoster) → Prop where
  /-- Nothing. -/
  | still {frame : Frame} {id : EntityId} : world.Edit frame id fun roster => roster
  /-- An instance is touched. -/
  | touch {frame : Frame} {handle : EffectHandle} {before after : Effect}
      (found : world.effect? handle = some before)
      (touches : world.Touches frame handle before after) :
      world.Edit frame handle.target (·.modify handle.id fun _ => after)
  /-- A live instance ends. -/
  | release {handle : EffectHandle} {state : EffectState} {fires : Bool} {before : Effect}
      (found : world.effect? handle = some before) (live : before.isLive = true) :
      world.Edit (.finish handle state fires) handle.target (·.release handle.id state)
  /-- A new instance is stored. -/
  | insert {application : Application} {target : EntityId} {duration : Float32} :
      world.Edit (.attach application target duration) target
        (·.insert (world.newEffect application target duration))
  /-- Its tick begins. -/
  | begin {id : EntityId} {seconds : Float32} :
      world.Edit (.tickEntity id seconds) id fun roster => roster.beginTick.2
  /-- Its tick ends. -/
  | finish {id : EntityId} : world.Edit (.endEntityTick id) id (·.endTick)
  /-- It is asked. -/
  | asked {id : EntityId} {request : RosterRequest} :
      world.Edit (.perform (.effects id (.ok request))) id fun roster => (request.perform roster).2

/-- One world is another with one roster edited; whatever else may differ. -/
def Edits (before after : World) (id : EntityId) (edit : EffectRoster → EffectRoster) : Prop :=
  ∀ other, after.roster? other =
    if other = id then (before.roster? other).map edit else before.roster? other

/-- An effect is found where a roster stores it. -/
theorem effect?_eq_roster (world : World) (handle : EffectHandle) :
    world.effect? handle = (world.roster? handle.target).bind (·.get? handle.id) := by
  unfold effect? roster?
  cases world.entity? handle.target <;> rfl

namespace Edits

variable {first second third before after : World} {id : EntityId}
  {edit later : EffectRoster → EffectRoster}

/-- Rosters that stay are edited by nothing. -/
theorem of_same (same : ∀ other, after.roster? other = before.roster? other) (id : EntityId) :
    before.Edits after id fun roster => roster := by
  intro other
  rw [same, Option.map_id']
  split <;> rfl

/-- A world is itself. -/
theorem refl (world : World) (id : EntityId) : world.Edits world id fun roster => roster :=
  of_same (fun _ => rfl) id

/-- Edits of one roster in turn. -/
theorem trans (earlier : first.Edits second id edit) (onward : second.Edits third id later) :
    first.Edits third id (later ∘ edit) := by
  intro other
  rw [onward, earlier]
  split
  · rw [Option.map_map]
  · rfl

/-- Only what an edit does to the roster that is there matters. -/
theorem congr (edits : before.Edits after id edit)
    (agree : ∀ roster, before.roster? id = some roster → edit roster = later roster) :
    before.Edits after id later := by
  intro other
  rw [edits]
  split
  · next same =>
    subst same
    cases found : before.roster? other with
    | none => rfl
    | some roster => exact congrArg some (agree roster found)
  · rfl

/-- Every roster is still there, edited if it is the one. -/
theorem onto (edits : before.Edits after id edit) {other : EntityId} {roster : EffectRoster}
    (found : before.roster? other = some roster) :
    after.roster? other = some (if id = other then edit roster else roster) := by
  rw [edits, found]
  by_cases same : other = id
  · rw [if_pos same, if_pos same.symm]
    rfl
  · rw [if_neg same, if_neg fun equal => same equal.symm]

/-- The edited roster, if its entity is registered. -/
theorem self (edits : before.Edits after id edit) {roster : EffectRoster}
    (found : before.roster? id = some roster) : after.roster? id = some (edit roster) := by
  rw [edits.onto found, if_pos rfl]

/-- Every roster comes from one. -/
theorem origin (edits : before.Edits after id edit) {other : EntityId} {roster : EffectRoster}
    (found : after.roster? other = some roster) : ∃ earlier, before.roster? other = some earlier ∧
      roster = if other = id then edit earlier else earlier := by
  rw [edits] at found
  split at found
  · next same =>
    obtain ⟨earlier, stored, rfl⟩ := Option.map_eq_some_iff.1 found
    exact ⟨earlier, stored, (if_pos same).symm⟩
  · next apart => exact ⟨roster, found, (if_neg apart).symm⟩

end Edits

/-- Changing one entity edits its roster. -/
theorem Alters.edits {before after : World} {id : EntityId} {change : Entity → Entity}
    (alters : before.Alters after id change) (edit : EffectRoster → EffectRoster)
    (effects : ∀ entity, (change entity).effects = edit entity.effects) :
    before.Edits after id edit := by
  intro other
  unfold roster?
  rw [alters.entity?]
  split
  · rw [Option.map_map, Option.map_map]
    exact congrFun (congrArg Option.map (funext effects)) _
  · rfl

variable {world : World} {id : EntityId} {handle : EffectHandle} {frame : Frame} {effect : Effect}

/-- A touched effect keeps its number. -/
theorem Touches.number {handle : EffectHandle} {before touched : Effect}
    (touches : world.Touches frame handle before touched) : touched.id = before.id := by
  cases touches with
  | owning | spent | lessened | restarted => rfl
  | stacked =>
    rw [Effect.renewed_eq]
    unfold Effect.restack
    dsimp only
    split <;> rfl
  | ticked =>
    rw [Effect.renewed_eq]
    unfold Effect.advance
    split <;> rfl

/-- Replacing held tags edits no roster. -/
theorem roster?_changeTags (world : World) (entity : Entity) (tags : TagCounts)
    (events : List TagEvent) (other : EntityId) :
    (world.changeTags entity tags events).1.roster? other = world.roster? other := by
  have alters := ((alters_modify world entity.id fun entity => { entity with tags }).trans
    (alters_hear _ entity.id (entity.tags.notices events))).edits (fun roster => roster)
      fun _ => rfl
  exact (alters other).trans (by rw [Option.map_id', ite_self])

/-- Letting an effect take hold stores it. -/
theorem edits_takeHold (world : World) (effect : Effect) :
    world.Edits (world.takeHold effect).1 effect.target (·.insert effect) := by
  have attached := (alters_attached world effect).edits (fun roster => roster) fun _ => rfl
  rw [world_takeHold]
  split
  · next missing =>
    refine attached.congr fun roster found => ?_
    have gone := attached.self found
    rw [roster?, missing] at gone
    cases gone
  · next entity found =>
    have gave := Edits.of_same (roster?_changeTags (world.attached effect) entity
      (entity.tags.addEach effect.definition.tags.granted.tags).2
      ((entity.tags.addEach effect.definition.tags.granted.tags).1.map .added)) effect.target
    have stored := (alters_modify
      ((world.attached effect).giveTags entity effect.definition.tags.granted.tags).2.1
        effect.target fun entity => { entity with effects := entity.effects.insert effect }).edits
          (·.insert effect) fun _ => rfl
    exact (attached.trans gave).trans stored

/-- Changing an effect. -/
theorem edits_modifyEffect (world : World) (handle : EffectHandle) (change : Effect → Effect) :
    world.Edits (world.modifyEffect handle change) handle.target (·.modify handle.id change) :=
  (alters_modifyEffect world handle change).edits _ fun _ => rfl

/-- Changing attributes edits no roster. -/
theorem edits_changeSheet (world : World) (id : EntityId)
    (change : AttributeSheet → AttributeSheet × List AttributeSignal) :
    world.Edits (world.changeSheet id change).1 id fun roster => roster :=
  (alters_changeSheet world id change).edits _ fun _ => rfl

/-- Releasing an effect. -/
theorem edits_release (world : World) (handle : EffectHandle) (effect : Effect)
    (state : EffectState) :
    world.Edits (world.release handle effect state).1 handle.target
      (·.release handle.id state) := by
  have detached := (alters_detached world handle effect state).edits
    (·.modify handle.id (·.ended state)) fun _ => rfl
  rw [world_release]
  split
  · next missing =>
    refine detached.congr fun roster found => ?_
    have gone := detached.self found
    rw [roster?, missing] at gone
    cases gone
  · next entity found =>
    have took := Edits.of_same (roster?_changeTags (world.detached handle effect state) entity
      (entity.tags.removeEach effect.definition.tags.granted.tags).2
      ((entity.tags.removeEach effect.definition.tags.granted.tags).1.map .removed)) handle.target
    have dropped := (alters_modify ((world.detached handle effect state).takeTags entity
      effect.definition.tags.granted.tags).2.1 handle.target
        fun entity => { entity with effects := (entity.effects.remove handle.id).2 }).edits
          (fun roster => (roster.remove handle.id).2) fun _ => rfl
    exact (detached.trans took).trans dropped

/-- Letting a new effect take hold. -/
theorem edits_attach (world : World) (application : Application) (target : EntityId)
    (duration : Float32) : world.Edits (world.attach application target duration).world target
      (·.insert (world.newEffect application target duration)) :=
  edits_takeHold { world with nextEffect := world.nextEffect + 1 }
    (world.newEffect application target duration)

/-- Ending a live effect. -/
theorem edits_finish (found : world.effect? handle = some effect) (live : effect.isLive = true)
    (state : EffectState) (fires : Bool) : world.Edits (world.finish handle state fires).world
      handle.target (·.release handle.id state) := by
  rw [finish_of_live found live]
  exact edits_release world handle effect state

/-- Beginning the tick of an entity. -/
theorem edits_tickEntity (world : World) (id : EntityId) (seconds : Float32) :
    world.Edits (world.tickEntity id seconds).world id fun roster => roster.beginTick.2 := by
  unfold tickEntity
  split
  · next missing =>
    refine (Edits.refl world id).congr fun roster stored => ?_
    rw [roster?, missing] at stored
    cases stored
  · next entity found =>
    have edits : world.Edits (world.modify id fun entity' =>
        { entity' with effects := entity.effects.beginTick.2 }) id
          fun _ => entity.effects.beginTick.2 :=
      (alters_modify world id _).edits _ fun _ => rfl
    refine edits.congr fun roster stored => ?_
    rw [roster?, found] at stored
    cases stored
    rfl

/-- Ending the tick of an entity. -/
theorem edits_endEntityTick (world : World) (id : EntityId) :
    world.Edits (world.endEntityTick id).world id (·.endTick) :=
  ((alters_modify world id fun entity => { entity with effects := entity.effects.endTick }).edits
    (·.endTick) fun _ => rfl).trans (edits_changeSheet _ id _)

/-- Renewing tracked magnitudes changes them on the effect. -/
theorem edits_refreshTracked (world : World) (handle : EffectHandle) :
    world.Edits (world.refreshTracked handle) handle.target
      (·.modify handle.id fun effect => effect.renewed (world.renewals handle)) :=
  (alters_refreshTracked world handle).edits _ fun entity => Entity.effects_tracking entity _ _

/-- Replacing an effect, then renewing what it tracks. -/
theorem edits_track (world : World) {handle : EffectHandle} {effect : Effect}
    (same : effect.id = handle.id) :
    world.Edits ((world.modifyEffect handle fun _ => effect).refreshTracked handle) handle.target
      (·.modify handle.id fun _ =>
        effect.renewed ((world.modifyEffect handle fun _ => effect).renewals handle)) :=
  ((edits_modifyEffect world handle fun _ => effect).trans (edits_refreshTracked _ handle)).congr
    fun _ _ => EffectRoster.replace_modify same _

/-- What is found after one instance was replaced. -/
theorem Edits.effect?_replace {after : World} {before touched : Effect}
    (edits : world.Edits after handle.target (·.modify handle.id fun _ => touched))
    (found : world.effect? handle = some before) (same : touched.id = handle.id)
    (other : EffectHandle) :
    after.effect? other = if other = handle then some touched else world.effect? other := by
  obtain ⟨entity, registered, stored, number⟩ := of_effect? found
  have roster : world.roster? handle.target = some entity.effects := by
    rw [roster?, registered]
    rfl
  rw [effect?_eq_roster, effect?_eq_roster]
  by_cases here : other.target = handle.target
  · have whole : other = handle ↔ other.id = handle.id := by
      constructor
      · rintro rfl
        rfl
      · intro equal
        cases other
        cases handle
        cases here
        cases equal
        rfl
    rw [here, edits.self roster, roster, Option.bind_some, Option.bind_some,
      EffectRoster.get?_replaced stored same]
    simp only [whole]
  · rw [edits, if_neg here, if_neg fun whole => here (congrArg EffectHandle.target whole)]

/-- The frame has edited one roster at most. -/
def EditsOnce (world : World) (frame : Frame) (after : World) : Prop :=
  ∃ id edit, world.Edit frame id edit ∧ world.Edits after id edit

/-- Rosters have stayed. -/
theorem EditsOnce.of_same {after : World}
    (same : ∀ other, after.roster? other = world.roster? other) : world.EditsOnce frame after :=
  ⟨⟨0⟩, _, .still, .of_same same ⟨0⟩⟩

/-- The registry has stayed. -/
theorem EditsOnce.of_registry {after : World} (same : after.registry = world.registry) :
    world.EditsOnce frame after :=
  .of_same fun other => congrArg (fun registry : Registry =>
    (registry.entity? other).map fun entity : Entity => entity.effects) same

/-- The world has stayed. -/
theorem EditsOnce.refl (world : World) (frame : Frame) : world.EditsOnce frame world :=
  .of_registry rfl

/-- An effect is touched, if it is found. -/
theorem EditsOnce.touch {middle : World}
    (same : ∀ other, middle.roster? other = world.roster? other) (handle : EffectHandle)
    {change : Effect → Effect} (touches : ∀ effect, world.effect? handle = some effect →
      change effect = effect ∨ world.Touches frame handle effect (change effect)) :
    world.EditsOnce frame (middle.modifyEffect handle change) := by
  have edits := (Edits.of_same same handle.target).trans (edits_modifyEffect middle handle change)
  have lookup {roster : EffectRoster} (stored : world.roster? handle.target = some roster) :
      world.effect? handle = roster.get? handle.id := by
    rw [effect?_eq_roster, stored]
    rfl
  cases found : world.effect? handle with
  | none =>
    exact ⟨_, _, .still, edits.congr fun roster stored =>
      EffectRoster.modify_of_missing ((lookup stored).symm.trans found) change⟩
  | some effect =>
    have onto : world.Edits (middle.modifyEffect handle change) handle.target
        (·.modify handle.id fun _ => change effect) :=
      edits.congr fun roster stored =>
        EffectRoster.modify_of_get? ((lookup stored).symm.trans found) change
    rcases touches effect found with still | touches
    · rw [still] at onto
      refine ⟨_, _, .still, onto.congr fun roster stored => ?_⟩
      exact (EffectRoster.modify_of_get? ((lookup stored).symm.trans found) fun other =>
        other).symm.trans (EffectRoster.modify_same roster handle.id)
    · exact ⟨_, _, .touch found touches, onto⟩

/-- Running a node, whatever nodes of its category do. -/
theorem editsOnce_visit (world : World) (skill : SkillId) (node : Node) (context : Context) :
    world.EditsOnce (.visit skill node context) (world.visit skill node context).world := by
  have ways := world.enacting skill node context
  generalize world.visit skill node context = progress at ways ⊢
  cases ways with
  | idle | effect | scripted => exact .refl world _
  | task =>
    rw [world_runTask]
    exact .refl world _
  | unanswered | decided => exact .of_registry rfl
  | cue plays =>
    unfold runCue
    dsimp only
    split
    · next id owner started owned =>
      refine .touch (fun _ => rfl) owner fun effect _ => ?_
      by_cases live : effect.isLive = true
      · rw [if_pos live]
        have starts : (Frame.visit skill node context).startsCue? world = some (owner, id) := by
          simp only [Frame.startsCue?, plays, owned, started, Option.map_some]
        exact .inr (.owning starts live)
      · rw [if_neg live]
        exact .inl rfl
    · exact .of_registry rfl

/-- Stacking onto an effect with a policy replaces it, its tracked magnitudes renewed. -/
theorem edits_stackOnto {policy : StackingPolicy} (found : world.effect? handle = some effect)
    (stacking : effect.definition.stacking = some policy) (context : Context) :
    (effect.restack policy).id = handle.id ∧
      world.Edits (world.stackOnto handle context).world handle.target
        (·.modify handle.id fun _ => (effect.restack policy).renewed
          ((world.modifyEffect handle fun _ => effect.restack policy).renewals handle)) := by
  obtain ⟨_, _, _, number⟩ := of_effect? found
  have same : (effect.restack policy).id = handle.id := by
    rw [← number]
    unfold Effect.restack
    dsimp only
    split <;> rfl
  refine ⟨same, ?_⟩
  rw [stackOnto_of_policy found stacking]
  exact (edits_track world same).trans (edits_changeSheet _ _ _)

/-- Stacking onto an effect. -/
theorem editsOnce_stackOnto (world : World) (application : Application) (handle : EffectHandle)
    (context : Context) :
    world.EditsOnce (.apply application handle.target) (world.stackOnto handle context).world := by
  rcases world.stackOnto_stacks_or_answers handle context with
    ⟨effect, policy, found, stacking⟩ | answers
  · obtain ⟨_, edits⟩ := edits_stackOnto found stacking context
    exact ⟨_, _, .touch found (.stacked rfl stacking), edits⟩
  · rw [answers]
    exact .refl world _

/-- Applying an effect. -/
theorem editsOnce_applyTo (world : World) (application : Application) (target : EntityId) :
    world.EditsOnce (.apply application target) (world.applyTo application target).world := by
  have ways := world.applying application target
  generalize world.applyTo application target = progress at ways ⊢
  cases ways with
  | refused | written | held => exact .refl world _
  | @stacked _ key => exact editsOnce_stackOnto world application ⟨target, key⟩ _

/-- Treating an effect as run out. -/
theorem editsOnce_expire (world : World) (handle : EffectHandle) :
    world.EditsOnce (.expire handle) (world.expire handle).world := by
  have ways := world.lapsing handle
  generalize expired : world.expire handle = progress at ways ⊢
  cases ways with
  | missing | ending => exact .refl world _
  | spent found stacking _ last =>
    refine .touch (fun _ => rfl) handle fun other stored => ?_
    cases found.symm.trans stored
    exact .inr (.spent rfl stacking last (congrArg Progress.frames expired))
  | @lessened effect _ found _ _ more =>
    have edits := (edits_modifyEffect world handle fun _ =>
      { effect with stackCount := effect.stackCount - 1 }.restartDuration).trans
        (edits_changeSheet _ handle.target
          (Entity.spreadAll effect.id.source (effect.stackCount - 1)))
    exact ⟨_, _, .touch found (.lessened rfl more), edits⟩
  | restarted => exact .touch (fun _ => rfl) handle fun other _ => .inr (.restarted rfl)

/-- Letting time pass for an effect. -/
theorem editsOnce_tickEffect (world : World) (handle : EffectHandle) (seconds : Float32) :
    world.EditsOnce (.tickEffect handle seconds) (world.tickEffect handle seconds).world := by
  unfold tickEffect
  split
  · exact .refl world _
  · next effect found =>
    obtain ⟨_, _, _, number⟩ := of_effect? found
    have same : (Effect.advance { effect with context := { effect.context with depth := 0 } }
        seconds).2.id = handle.id := by
      rw [← number]
      unfold Effect.advance
      split <;> rfl
    dsimp only
    split
    · exact ⟨_, _, .touch found (.ticked rfl), edits_track world same⟩
    · exact ⟨_, _, .touch found (@Touches.ticked _ _ _ _ _ [] rfl),
        edits_modifyEffect world handle _⟩

/-- Performing a request that registers and unregisters nobody. -/
theorem editsOnce_perform (world : World) {request : Request}
    (plain : request.isEnrolment = false) :
    world.EditsOnce (.perform request) (world.perform request).world := by
  have retag {id : EntityId} {absent : Reply} {change : Entity → Reply × World × List Event}
      (keeps : ∀ entity other, (change entity).2.1.roster? other = world.roster? other) :
      world.EditsOnce (.perform request) (world.retag id absent change).world := by
    unfold World.retag
    split
    · exact .refl world _
    · exact .of_same (keeps _)
  cases request with
  | spawn | register | unregister => cases plain
  | addTag | removeTag | addTags | removeTags =>
    exact retag fun entity => roster?_changeTags world entity _ _
  | applyNode =>
    unfold perform applyNode
    dsimp only
    split <;> exact .refl world _
  | condition | roll | library =>
    unfold perform
    dsimp only
    split <;> exact .of_registry rfl
  | tags id =>
    unfold perform
    dsimp only
    split
    · exact .refl world _
    · have alters {tags : TagCounts} {notices : List (TagListener × TagEvent)} :=
        ((alters_modify world id fun entity => { entity with tags }).trans
          (alters_hear _ id notices)).edits (fun roster => roster) fun _ => rfl
      exact ⟨id, _, .still, alters⟩
  | attributes id =>
    unfold perform
    dsimp only
    split
    · exact .refl world _
    · exact ⟨id, _, .still, (alters_modify world id _).edits _ fun _ => rfl⟩
  | effects id request =>
    unfold perform
    dsimp only
    split
    · exact .refl world _
    · next entity found =>
      split
      · exact .refl world _
      · next request =>
        have edits : world.Edits (world.modify id fun entity' =>
            { entity' with effects := (request.perform entity.effects).2 }) id
              fun _ => (request.perform entity.effects).2 :=
          (alters_modify world id _).edits _ fun _ => rfl
        refine ⟨id, _, .asked, edits.congr fun roster stored => ?_⟩
        rw [roster?, found] at stored
        cases stored
        rfl
  | _ => exact .of_registry rfl

/-- Every frame that registers and unregisters nobody edits one roster at most. -/
theorem editsOnce_expand (world : World) (reply : Reply) (plain : frame.enrols = false) :
    world.EditsOnce frame (frame.expand world reply).world := by
  cases frame with
  | beginTick | endTick => cases plain
  | fire | branch | enter | script | scripted | applyEach | applied | pulses | expireDue | cleanse
  | removeEach | enforce | ticks | answer =>
    rw [Frame.world_expand_of_plans rfl]
    exact .refl world _
  | visit skill node context => exact editsOnce_visit world skill node context
  | perform request => exact editsOnce_perform world plain
  | apply application target => exact editsOnce_applyTo world application target
  | write application target =>
    obtain ⟨_, alters, revalues⟩ := alters_writeInstant world application target
    exact ⟨target, _, .still, alters.edits _ fun entity => (revalues entity).effects⟩
  | attach application target duration =>
    exact ⟨target, _, .insert, edits_attach world application target duration⟩
  | expire handle => exact editsOnce_expire world handle
  | finish handle state fires =>
    cases live : world.isLive handle with
    | false =>
      rw [Frame.expand, finish_of_not_isLive live]
      exact .refl world _
    | true =>
      obtain ⟨effect, found, lives⟩ := exists_of_isLive live
      exact ⟨_, _, .release found lives, edits_finish found lives state fires⟩
  | drain =>
    simp only [Frame.expand, drain]
    split <;> exact .of_registry rfl
  | tickEntity id seconds => exact ⟨id, _, .begin, edits_tickEntity world id seconds⟩
  | tickEffect handle seconds => exact editsOnce_tickEffect world handle seconds
  | endEntityTick id => exact ⟨id, _, .finish, edits_endEntityTick world id⟩

/-- Every roster of one world is one of another, or it came with an entity that waited to join there
or that has no effects; and so did those that wait. -/
structure Musters (before after : World) : Prop where
  /-- The rosters. -/
  rosters : ∀ id roster, after.roster? id = some roster → before.roster? id = some roster ∨
    ∃ newcomer : Entity, (newcomer ∈ before.registry.pendingAdd ∨ newcomer.effects = .empty) ∧
      roster = newcomer.effects
  /-- Those that wait to join. -/
  waiting : ∀ entity ∈ after.registry.pendingAdd,
    entity ∈ before.registry.pendingAdd ∨ entity.effects = .empty

/-- Entities are registered as they were, or as they joined. -/
theorem Musters.of_entity? {after : World}
    (registered : ∀ id entity, after.entity? id = some entity → world.entity? id = some entity ∨
      ∃ newcomer : Entity, (newcomer ∈ world.registry.pendingAdd ∨ newcomer.effects = .empty) ∧
        newcomer.JoinsAs entity)
    (waiting : ∀ entity ∈ after.registry.pendingAdd,
      entity ∈ world.registry.pendingAdd ∨ entity.effects = .empty) : world.Musters after := by
  refine ⟨fun id roster found => ?_, waiting⟩
  obtain ⟨entity, there, rfl⟩ := Option.map_eq_some_iff.1 found
  rcases registered id entity there with before | ⟨newcomer, origin, joined⟩
  · exact .inl (by rw [roster?, before]; rfl)
  · exact .inr ⟨newcomer, origin, joined.effects⟩

/-- Registering an entity that has no effects. -/
theorem musters_join (world : World) {entity : Entity} (blank : entity.effects = .empty) :
    world.Musters (world.join entity).world := by
  unfold join
  split
  · next registry accepted =>
    obtain ⟨registered, waiting⟩ := Registry.register_ok accepted
    refine .of_entity? (fun id other found => ?_) fun other waits => ?_
    · rcases registered id other found with before | joined
      · exact .inl before
      · exact .inr ⟨entity, .inr blank, joined.2⟩
    · rcases waiting other waits with before | rfl
      · exact .inl before
      · exact .inr blank
  · exact .of_entity? (fun _ _ found => .inl found) fun _ waits => .inl waits

/-- What registering, unregistering and the two ends of a tick do to rosters. -/
theorem musters_expand (world : World) (reply : Reply) (enrols : frame.enrols = true) :
    world.Musters (frame.expand world reply).world := by
  cases frame with
  | perform request =>
    cases request with
    | spawn | register => exact musters_join world rfl
    | unregister id =>
      obtain ⟨registered, waiting⟩ := Registry.unregister_subset world.registry id
      exact .of_entity? (fun other entity found => .inl (registered other entity found))
        fun entity waits => .inl (waiting entity waits)
    | _ => cases enrols
  | beginTick seconds =>
    simp only [Frame.expand, World.beginTick]
    split <;> exact .of_entity? (fun _ _ found => .inl found) fun _ waits => .inl waits
  | endTick seconds =>
    refine .of_entity? (fun id entity found => ?_) fun entity waits => ?_
    · rcases Registry.entity?_endTick found with before | ⟨newcomer, waits, _, joined⟩
      · exact .inl before
      · exact .inr ⟨newcomer, .inl waits, joined⟩
    · rw [show (Frame.expand world reply (.endTick seconds)).world.registry.pendingAdd = [] from
        Registry.pendingAdd_endTick _] at waits
      cases waits
  | _ => cases enrols

end World

end SkillEngine
