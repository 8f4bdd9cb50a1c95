import SkillEngine.Proofs.Enrolment

/-!
# What frames do to the cue stage

Numbers of cues go up, and a cue that runs has run before or has just been started, so no number
ever comes back: each frame takes the stage *onward*. Cues are started by cue nodes and on request
alone; an effect that ends, an entity that leaves and the end of a tick stop some.
-/

namespace SkillEngine

namespace CueStage

/-- One stage comes after another: numbers go up, and of the numbers given before only those run
that ran. -/
structure Onward (before after : CueStage) : Prop where
  /-- Numbers go up. -/
  numbering : before.next ≤ after.next
  /-- What runs under an earlier number ran. -/
  origin : ∀ id : CueId, id.raw < before.next → after.isRunning id = true →
    before.isRunning id = true

namespace Onward

/-- A stage comes after itself. -/
theorem refl (stage : CueStage) : stage.Onward stage := ⟨Nat.le_refl _, fun _ _ runs => runs⟩

/-- A stage that is the same comes after. -/
theorem of_eq {before after : CueStage} (same : after = before) : before.Onward after :=
  same ▸ refl after

/-- Stages come one after the other. -/
theorem trans {first second third : CueStage} (earlier : first.Onward second)
    (later : second.Onward third) : first.Onward third where
  numbering := Nat.le_trans earlier.numbering later.numbering
  origin id old runs :=
    earlier.origin id old (later.origin id (Nat.lt_of_lt_of_le old earlier.numbering) runs)

/-- Fewer cues run, and none is numbered. -/
theorem of_subset {before after : CueStage} (next : after.next = before.next)
    (fewer : ∀ entry ∈ after.running, ∃ cue, (entry.1, cue) ∈ before.running) :
    before.Onward after where
  numbering := Nat.le_of_eq next.symm
  origin id _ runs := by
    obtain ⟨entry, member, same⟩ := List.any_eq_true.1 runs
    obtain ⟨cue, ran⟩ := fewer entry member
    exact List.any_eq_true.2 ⟨_, ran, same⟩

end Onward

variable {stage : CueStage} {id : CueId}

/-- A cue that is started gets the next number. -/
theorem eq_next_of_spawn {definition : CueDef} {skill : SkillId} {node : NodeId}
    {context : Context} (started : (stage.spawn definition skill node context).1 = some id) :
    id = ⟨stage.next⟩ ∧ (stage.spawn definition skill node context).2.1.next = stage.next + 1 := by
  unfold spawn at started ⊢
  split at started
  · cases started
  · next factory _ =>
    dsimp only at started ⊢
    split at started
    · next runs =>
      rw [if_pos runs]
      cases started
      exact ⟨rfl, rfl⟩
    · cases started

/-- Starting a cue. -/
theorem onward_spawn (stage : CueStage) (definition : CueDef) (skill : SkillId) (node : NodeId)
    (context : Context) : stage.Onward (stage.spawn definition skill node context).2.1 := by
  unfold spawn
  split
  · exact .refl stage
  · dsimp only
    split
    · refine ⟨Nat.le_succ _, fun id old runs => ?_⟩
      simp only [isRunning, List.any_append, Bool.or_eq_true] at runs
      rcases runs with before | last
      · exact before
      · rw [List.any_cons, List.any_nil, Bool.or_false, beq_iff_eq] at last
        rw [← last] at old
        exact absurd old (Nat.lt_irrefl _)
    · exact .refl stage

/-- Stopping a cue takes its number off those that run. -/
theorem running_cancel (stage : CueStage) (id : CueId) :
    (stage.cancel id).2.1.running = stage.running.filter (·.1 != id) ∧
      (stage.cancel id).2.1.next = stage.next := by
  unfold cancel
  split
  · next missing =>
    refine ⟨(List.filter_eq_self.2 fun entry member => ?_).symm, rfl⟩
    refine bne_iff_ne.2 fun same => ?_
    have apart := List.lookup_eq_none_iff.1 missing entry member
    exact absurd same (bne_iff_ne.1 apart).symm
  · exact ⟨rfl, rfl⟩

/-- Stopping some cues takes their numbers off those that run. -/
theorem running_cancelEach (stage : CueStage) (ids : List CueId) :
    (stage.cancelEach ids).1.running = stage.running.filter (fun entry => !ids.contains entry.1) ∧
      (stage.cancelEach ids).1.next = stage.next := by
  induction ids generalizing stage with
  | nil => exact ⟨(List.filter_eq_self.2 fun _ _ => rfl).symm, rfl⟩
  | cons id rest ih =>
    obtain ⟨running, next⟩ := running_cancel stage id
    obtain ⟨others, still⟩ := ih (stage.cancel id).2.1
    refine ⟨?_, still.trans next⟩
    show ((stage.cancel id).2.1.cancelEach rest).1.running = _
    rw [others, running, List.filter_filter]
    refine List.filter_congr fun entry _ => ?_
    rw [List.contains_cons, Bool.not_or, Bool.and_comm]
    rfl

/-- Stopping a cue changes nothing but what runs. -/
theorem cancel_eq (stage : CueStage) (id : CueId) :
    (stage.cancel id).2.1 = { stage with running := stage.running.filter (·.1 != id) } := by
  obtain ⟨running, next⟩ := running_cancel stage id
  unfold cancel at running ⊢
  split
  · next missing =>
    rw [missing] at running
    obtain ⟨factories, entries, number⟩ := stage
    exact congrArg (CueStage.mk factories · number) running
  · rfl

/-- Stopping some cues changes nothing but what runs. -/
theorem cancelEach_eq (stage : CueStage) (ids : List CueId) : (stage.cancelEach ids).1 =
    { stage with running := stage.running.filter fun entry => !ids.contains entry.1 } := by
  have whole : (stage.cancelEach ids).1 =
      { stage with running := (stage.cancelEach ids).1.running } := by
    induction ids generalizing stage with
    | nil => rfl
    | cons id rest ih =>
      have onward := ih (stage.cancel id).2.1
      rw [cancel_eq] at onward
      show ((stage.cancel id).2.1.cancelEach rest).1 =
        { stage with running := ((stage.cancel id).2.1.cancelEach rest).1.running }
      rw [cancel_eq]
      exact onward
  rw [whole, (running_cancelEach stage ids).1]

/-- The order in which cues are stopped does not matter, nor does stopping one twice. -/
theorem cancelEach_congr (stage : CueStage) {first second : List CueId}
    (same : ∀ id, id ∈ second ↔ id ∈ first) :
    (stage.cancelEach second).1 = (stage.cancelEach first).1 := by
  have listed (id : CueId) : second.contains id = first.contains id := by
    rw [Bool.eq_iff_iff, List.contains_iff_mem, List.contains_iff_mem]
    exact same id
  rw [cancelEach_eq, cancelEach_eq]
  simp only [listed]

/-- Stopping some cues and then others. -/
theorem cancelEach_append (stage : CueStage) (ids others : List CueId) :
    (stage.cancelEach (ids ++ others)).1 = ((stage.cancelEach ids).1.cancelEach others).1 := by
  induction ids generalizing stage with
  | nil => rfl
  | cons id rest ih => exact ih (stage.cancel id).2.1

/-- Stopping some cues. -/
theorem onward_cancelEach (stage : CueStage) (ids : List CueId) :
    stage.Onward (stage.cancelEach ids).1 := by
  obtain ⟨running, next⟩ := running_cancelEach stage ids
  refine .of_subset next fun entry member => ⟨entry.2, ?_⟩
  rw [running] at member
  exact List.mem_of_mem_filter member

/-- A cue that was stopped does not run. -/
theorem not_isRunning_cancelEach (stage : CueStage) {ids : List CueId} (stopped : id ∈ ids) :
    (stage.cancelEach ids).1.isRunning id = false := by
  refine List.any_eq_false.2 fun entry member same => ?_
  rw [(running_cancelEach stage ids).1] at member
  have kept := (List.mem_filter.1 member).2
  rw [beq_iff_eq.1 same, List.contains_iff_mem.2 stopped] at kept
  cases kept

/-- Letting time pass. -/
theorem onward_tick (stage : CueStage) (seconds : Float32) :
    stage.Onward (stage.tick seconds).1 := by
  refine .of_subset rfl fun entry member => ?_
  obtain ⟨earlier, ran, rfl⟩ := List.mem_map.1 (List.mem_of_mem_filter member)
  exact ⟨earlier.2, ran⟩

/-- Asking the stage. -/
theorem onward_perform (stage : CueStage) (request : CueRequest) :
    stage.Onward (request.perform stage).state := by
  cases request with
  | register => exact ⟨Nat.le_refl _, fun _ _ runs => runs⟩
  | spawn => exact onward_spawn stage _ _ _ _
  | cancel id =>
    obtain ⟨running, next⟩ := running_cancel stage id
    refine .of_subset next fun entry member => ⟨entry.2, ?_⟩
    have member : entry ∈ (stage.cancel id).2.1.running := member
    rw [running] at member
    exact List.mem_of_mem_filter member
  | tick seconds => exact onward_tick stage seconds
  | _ => exact .refl stage

end CueStage

namespace World

variable {world : World} {frame : Frame}

/-- Changing attributes stops no cue and starts none. -/
@[simp] theorem cues_changeSheet (world : World) (id : EntityId)
    (change : AttributeSheet → AttributeSheet × List AttributeSignal) :
    (world.changeSheet id change).1.cues = world.cues := by
  unfold changeSheet
  split <;> rfl

/-- Letting an effect take hold. -/
@[simp] theorem cues_takeHold (world : World) (effect : Effect) :
    (world.takeHold effect).1.cues = world.cues := by
  have attached : (world.attached effect).cues = world.cues := cues_changeSheet world _ _
  rw [world_takeHold]
  split <;> exact attached

/-- Releasing an effect stops its cues. -/
theorem cues_release (world : World) (handle : EffectHandle) (effect : Effect)
    (state : EffectState) :
    (world.release handle effect state).1.cues = (world.cues.cancelEach effect.cues).1 := by
  have detached : (world.detached handle effect state).cues =
      (world.cues.cancelEach effect.cues).1 := cues_changeSheet _ _ _
  rw [world_release]
  split <;> exact detached

/-- Renewing tracked magnitudes. -/
@[simp] theorem cues_refreshTracked (world : World) (handle : EffectHandle) :
    (world.refreshTracked handle).cues = world.cues := by
  obtain ⟨_, same⟩ := refreshTracked_withRegistry world handle
  rw [same]
  rfl

/-- Writing modifiers of an instant effect. -/
theorem cues_writeEach (context : Context) (target : EntityId)
    (writes : List (Modifier × Float32)) (world : World) :
    (world.writeEach context target writes).2.1.cues = world.cues := by
  induction writes generalizing context world with
  | nil => rfl
  | cons entry rest ih =>
    obtain ⟨modifier, magnitude⟩ := entry
    have first : (world.writeOne context target modifier magnitude).2.1.cues = world.cues := by
      unfold writeOne
      split
      · rfl
      · split <;> exact cues_changeSheet world target _
    exact (ih _ _).trans first

/-- Stacking onto an effect. -/
theorem cues_stackOnto (world : World) (handle : EffectHandle) (context : Context) :
    (world.stackOnto handle context).world.cues = world.cues := by
  rcases world.stackOnto_stacks_or_answers handle context with
    ⟨effect, policy, found, stacking⟩ | answers
  · rw [stackOnto_of_policy found stacking]
    exact (cues_changeSheet _ _ _).trans (cues_refreshTracked _ _)
  · rw [answers]

/-- Applying an effect. -/
theorem cues_applyTo (world : World) (application : Application) (target : EntityId) :
    (world.applyTo application target).world.cues = world.cues := by
  have ways := world.applying application target
  generalize world.applyTo application target = progress at ways ⊢
  cases ways with
  | refused | written | held => rfl
  | stacked => exact cues_stackOnto world _ _

/-- Treating an effect as run out. -/
theorem cues_expire (world : World) (handle : EffectHandle) :
    (world.expire handle).world.cues = world.cues := by
  have ways := world.lapsing handle
  generalize world.expire handle = progress at ways ⊢
  cases ways with
  | missing | ending | spent | restarted => rfl
  | lessened => exact cues_changeSheet _ _ _

/-- Running a node starts a cue at most. -/
theorem onward_visit (world : World) (skill : SkillId) (node : Node) (context : Context) :
    world.cues.Onward (world.visit skill node context).world.cues := by
  have ways := world.enacting skill node context
  generalize world.visit skill node context = progress at ways ⊢
  cases ways with
  | idle | effect | unanswered | decided | scripted => exact .refl _
  | task =>
    rw [world_runTask]
    exact .refl _
  | @cue definition =>
    have started := CueStage.onward_spawn world.cues definition skill node.id context
    unfold runCue
    dsimp only
    split <;> exact started

/-- Performing a request. -/
theorem onward_perform (world : World) (request : Request) :
    world.cues.Onward (world.perform request).world.cues := by
  have retag {id : EntityId} {absent : Reply} {change : Entity → Reply × World × List Event}
      (keeps : ∀ entity, (change entity).2.1.cues = world.cues) :
      world.cues.Onward (world.retag id absent change).world.cues := by
    unfold World.retag
    split
    · exact .refl _
    · exact .of_eq (keeps _)
  cases request with
  | spawn | register =>
    unfold perform join
    dsimp only
    split <;> exact .refl _
  | unregister id => exact CueStage.onward_cancelEach world.cues _
  | addTag | removeTag | addTags | removeTags => exact retag fun _ => rfl
  | applyNode =>
    unfold perform applyNode
    dsimp only
    split <;> exact .refl _
  | condition | roll | library =>
    unfold perform
    dsimp only
    split <;> exact .refl _
  | cues request =>
    cases request with
    | error refusal => exact .refl _
    | ok request => exact CueStage.onward_perform world.cues request
  | tags id | attributes id =>
    unfold perform
    dsimp only
    split <;> exact .refl _
  | effects id =>
    unfold perform
    dsimp only
    split
    · exact .refl _
    · split <;> exact .refl _
  | _ => exact .refl _

/-- Every frame takes the cue stage onward, whatever nodes do. -/
theorem onward_expand (world : World) (reply : Reply) (frame : Frame) :
    world.cues.Onward (frame.expand world reply).world.cues := by
  cases frame with
  | fire | branch | enter | script | scripted | applyEach | applied | pulses | expireDue | cleanse
  | removeEach | enforce | ticks | answer =>
    rw [Frame.world_expand_of_plans rfl]
    exact .refl _
  | visit skill node context => exact onward_visit world skill node context
  | perform request => exact onward_perform world request
  | apply application target => exact .of_eq (cues_applyTo world application target)
  | write application target => exact .of_eq (cues_writeEach _ target _ world)
  | attach application target duration => exact .of_eq (cues_takeHold _ _)
  | expire handle => exact .of_eq (cues_expire world handle)
  | finish handle state fires =>
    cases live : world.isLive handle with
    | false =>
      rw [Frame.expand, finish_of_not_isLive live]
      exact .refl _
    | true =>
      obtain ⟨effect, found, lives⟩ := exists_of_isLive live
      rw [Frame.expand, finish_of_live found lives, Progress.told, cues_release]
      exact CueStage.onward_cancelEach _ _
  | drain =>
    simp only [Frame.expand, drain]
    split <;> exact .refl _
  | tickEntity =>
    simp only [Frame.expand, tickEntity]
    split <;> exact .refl _
  | tickEffect handle seconds =>
    simp only [Frame.expand, tickEffect]
    split
    · exact .refl _
    · split
      · exact .of_eq (cues_refreshTracked _ _)
      · exact .refl _
  | endEntityTick id => exact .of_eq (cues_changeSheet _ _ _)
  | beginTick =>
    simp only [Frame.expand, beginTick]
    split <;> exact .refl _
  | endTick seconds =>
    exact (CueStage.onward_tick world.cues seconds).trans (CueStage.onward_cancelEach _ _)

end World

end SkillEngine
