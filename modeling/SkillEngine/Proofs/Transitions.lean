import SkillEngine.Proofs.Entities
import SkillEngine.World.Cascade

/-!
# The ways on

Many frames only say which frames come next. Of the others, applying an effect, stacking onto an
instance, treating an instance as run out and running a node each choose between a few ways on. The
ways are told here once, together with what each was chosen on, so that a property of such a step is
read off its ways.
-/

namespace SkillEngine

namespace Frame

/-- The frame says which frames come next, and leaves the world to them. -/
def plans : Frame → Bool
  | .fire _ | .branch .. | .enter .. | .script .. | .scripted .. | .applyEach .. | .applied ..
  | .pulses .. | .expireDue _ | .cleanse .. | .removeEach .. | .enforce _ | .ticks .. | .answer _ =>
    true
  | _ => false

/-- A frame that plans leaves the world alone. -/
theorem world_expand_of_plans {frame : Frame} (plans : frame.plans = true) (world : World)
    (reply : Reply) : (frame.expand world reply).world = world := by
  cases frame with
  | fire =>
    simp only [expand, World.fire]
    split
    · rfl
    · split <;> rfl
  | branch skill context nodes => cases nodes <;> rfl
  | enter =>
    simp only [expand, World.enter]
    split <;> rfl
  | script skill node requests => cases requests <;> rfl
  | applyEach application targets => cases targets <;> rfl
  | applied =>
    simp only [expand, World.applied]
    split <;> rfl
  | pulses =>
    simp only [expand]
    unfold World.pulses
    split
    · rfl
    · split
      · rfl
      · split <;> rfl
  | expireDue =>
    simp only [expand, World.expireDue]
    split <;> rfl
  | cleanse =>
    simp only [expand, World.cleanse]
    split <;> rfl
  | removeEach target ids => cases ids <;> rfl
  | enforce =>
    simp only [expand, World.enforce]
    split <;> rfl
  | ticks =>
    simp only [expand]
    unfold World.ticks
    split
    · rfl
    · split <;> rfl
  | scripted | answer => rfl
  | _ => cases plans

end Frame

namespace World

variable {handle : EffectHandle}

/-- The overflow port of an instance, if it is at its limit and its policy lets the port fire. -/
def overflowing (effect : Effect) (policy : StackingPolicy) (handle : EffectHandle)
    (context : Context) : List Frame :=
  if effect.atLimit policy && policy.overflow == .allowOverflowEffect then
    [.fire (effect.fires handle .overflow { context with owner := some handle })]
  else []

variable {world : World} {effect : Effect} {policy : StackingPolicy} {context : Context}

/-- Stacking onto an instance with a policy restacks it, tracks anew, tells its modifiers the stack
count and answers, after the overflow port. -/
theorem stackOnto_of_policy (found : world.effect? handle = some effect)
    (stacking : effect.definition.stacking = some policy) (context : Context) :
    world.stackOnto handle context = .told
      (((world.modifyEffect handle fun _ => effect.restack policy).refreshTracked
        handle).spreadStacks handle (effect.restack policy))
      (overflowing effect policy handle context ++ [.answer (.handle handle)]) := by
  simp only [stackOnto, found, stacking, overflowing]
  split <;> rfl

/-- An instance with a policy is found to stack onto, or stacking only answers. -/
theorem stackOnto_stacks_or_answers (world : World) (handle : EffectHandle) (context : Context) :
    (∃ effect policy, world.effect? handle = some effect ∧
      effect.definition.stacking = some policy) ∨
    world.stackOnto handle context = { world, frames := [.answer (.handle handle)] } := by
  cases found : world.effect? handle with
  | none => exact .inr (by simp only [stackOnto, found])
  | some effect =>
    cases stacking : effect.definition.stacking with
    | none => exact .inr (by simp only [stackOnto, found, stacking])
    | some policy => exact .inl ⟨effect, policy, rfl, stacking⟩

/-- What stacking leaves is the answer, or the overflow port of the instance. -/
theorem of_mem_stackOnto {next : Frame}
    (left : next ∈ (world.stackOnto handle context).frames) :
    next = .answer (.handle handle) ∨ ∃ effect, world.effect? handle = some effect ∧
      next = .fire (effect.fires handle .overflow { context with owner := some handle }) := by
  rcases world.stackOnto_stacks_or_answers handle context with
    ⟨effect, policy, found, stacking⟩ | answers
  · rw [stackOnto_of_policy found stacking] at left
    rcases List.mem_append.1 left with port | last
    · unfold overflowing at port
      split at port
      · exact .inr ⟨effect, found, List.mem_singleton.1 port⟩
      · cases port
    · exact .inl (List.mem_singleton.1 last)
  · rw [answers] at left
    exact .inl (List.mem_singleton.1 left)

/-- The ways on from applying an effect to a target. -/
inductive Applying (world : World) (application : Application) (target : EntityId) : Progress → Prop
  /-- The target is not registered or does not let the effect in. -/
  | refused (shut : ∀ entity, world.entity? target = some entity →
      admits entity application.definition = false) :
      Applying world application target (.answered world .nothing)
  /-- It is written at once: it is instant, or it matches no instance and has no time. -/
  | written {entity : Entity} (registered : world.entity? target = some entity)
      (admitted : admits entity application.definition = true)
      (atOnce : application.definition.durationType = .instant ∨
        application.definition.durationType = .duration ∧
          entity.effects.findStackable? application.skill application.node application.definition
            application.context.caster = none ∧
          world.resolve application.definition.duration (.of application.context target 1) ≤ 0) :
      Applying world application target { world, frames := instantly application target }
  /-- It lasts and stacks onto an instance that matches. -/
  | stacked {entity : Entity} {key : EffectId} (registered : world.entity? target = some entity)
      (admitted : admits entity application.definition = true)
      (lasts : application.definition.durationType ≠ .instant)
      (matched : entity.effects.findStackable? application.skill application.node
        application.definition application.context.caster = some key) :
      Applying world application target (world.stackOnto ⟨target, key⟩ application.context)
  /-- It lasts and matches no instance, and a new one is to take hold. -/
  | held {entity : Entity} {duration : Float32} (registered : world.entity? target = some entity)
      (admitted : admits entity application.definition = true)
      (lasts : application.definition.durationType ≠ .instant)
      (unmatched : entity.effects.findStackable? application.skill application.node
        application.definition application.context.caster = none)
      (timed : application.definition.durationType = .duration → ¬ duration ≤ 0 ∧
        duration = world.resolve application.definition.duration
          (.of application.context target 1)) :
      Applying world application target { world, frames := lastingly application target duration }

/-- Applying an effect takes one of the ways on. -/
theorem applying (world : World) (application : Application) (target : EntityId) :
    world.Applying application target (world.applyTo application target) := by
  unfold applyTo
  cases registered : world.entity? target with
  | none => exact .refused fun entity stored => by cases registered.symm.trans stored
  | some entity =>
    dsimp only
    cases admitted : admits entity application.definition with
    | false =>
      refine .refused fun other stored => ?_
      cases registered.symm.trans stored
      exact admitted
    | true =>
      simp only [Bool.not_true, Bool.false_eq_true, if_false]
      cases kind : application.definition.durationType with
      | instant => exact .written registered admitted (.inl kind)
      | duration =>
        have lasts : application.definition.durationType ≠ .instant := by simp [kind]
        cases found : entity.effects.findStackable? application.skill application.node
            application.definition application.context.caster with
        | some key => exact .stacked registered admitted lasts found
        | none =>
          dsimp only
          split
          · next timeless => exact .written registered admitted (.inr ⟨kind, found, timeless⟩)
          · next time => exact .held registered admitted lasts found fun _ => ⟨time, rfl⟩
      | infinite =>
        have lasts : application.definition.durationType ≠ .instant := by simp [kind]
        cases found : entity.effects.findStackable? application.skill application.node
            application.definition application.context.caster with
        | some key => exact .stacked registered admitted lasts found
        | none =>
          exact .held registered admitted lasts found fun timed => by cases kind.symm.trans timed

/-- The ways on from treating an instance as run out. -/
inductive Lapsing (world : World) (handle : EffectHandle) : Progress → Prop
  /-- It is not found. -/
  | missing (absent : world.effect? handle = none) : Lapsing world handle { world }
  /-- It is to end as it is. -/
  | ending {effect : Effect} (found : world.effect? handle = some effect) :
      Lapsing world handle { world, frames := [.finish handle .expired true] }
  /-- Its last stack goes, and it is to end. -/
  | spent {effect : Effect} {policy : StackingPolicy} (found : world.effect? handle = some effect)
      (stacking : effect.definition.stacking = some policy)
      (removes : policy.expiration = .removeSingleStackAndRefreshDuration)
      (last : effect.stackCount - 1 = 0) :
      Lapsing world handle
        { world := world.modifyEffect handle fun _ =>
            { effect with stackCount := effect.stackCount - 1 }
          frames := [.finish handle .expired true] }
  /-- A stack goes, and what remains starts over. -/
  | lessened {effect : Effect} {policy : StackingPolicy}
      (found : world.effect? handle = some effect)
      (stacking : effect.definition.stacking = some policy)
      (removes : policy.expiration = .removeSingleStackAndRefreshDuration)
      (more : effect.stackCount - 1 ≠ 0) :
      Lapsing world handle (.told ((world.modifyEffect handle fun _ =>
        { effect with stackCount := effect.stackCount - 1 }.restartDuration).spreadStacks handle
          { effect with stackCount := effect.stackCount - 1 }))
  /-- It starts over with all its stacks. -/
  | restarted {effect : Effect} {policy : StackingPolicy}
      (found : world.effect? handle = some effect)
      (stacking : effect.definition.stacking = some policy)
      (refreshes : policy.expiration = .refreshDuration) (stacked : effect.stackCount ≠ 0) :
      Lapsing world handle { world := world.modifyEffect handle (·.restartDuration) }

/-- Treating an instance as run out takes one of the ways on. -/
theorem lapsing (world : World) (handle : EffectHandle) :
    world.Lapsing handle (world.expire handle) := by
  unfold expire
  cases found : world.effect? handle with
  | none => exact .missing found
  | some effect =>
    cases stacking : effect.definition.stacking with
    | none =>
      simp only [stacking, Option.map_none, Option.getD_none]
      exact .ending found
    | some policy =>
      simp only [stacking, Option.map_some, Option.getD_some]
      cases expiration : policy.expiration with
      | clearEntireStack => exact .ending found
      | removeSingleStackAndRefreshDuration =>
        dsimp only
        split
        · next last => exact .spent found stacking expiration last
        · next more => exact .lessened found stacking expiration more
      | refreshDuration =>
        dsimp only
        split
        · exact .ending found
        · next stacked => exact .restarted found stacking expiration stacked

/-- The ways on from running a node, whatever nodes of its category do. -/
inductive Enacting (world : World) (skill : SkillId) (node : Node) (context : Context) :
    Progress → Prop
  /-- Nothing is done. -/
  | idle : Enacting world skill node context { world }
  /-- An effect is applied to the targets of the node. -/
  | effect {definition : EffectDef} (is : node.kind = .effect definition) :
      Enacting world skill node context { world, frames :=
        [.applyEach ⟨skill, node.id, definition, context⟩ (context.resolve node.target) []] }
  /-- A task is run. -/
  | task {definition : TaskDef} (is : node.kind = .task definition) :
      Enacting world skill node context (world.runTask skill node context definition)
  /-- A condition has no answer, since a roll has none. -/
  | unanswered {definition : ConditionDef} {dice : Dice} (is : node.kind = .condition definition)
      (rolls : definition.evaluate ((context.resolve node.target).head?.bind world.entity?) context
        world.dice = (none, dice)) :
      Enacting world skill node context (.noAnswer { world with dice })
  /-- A condition has an answer, and the port for it fires. -/
  | decided {definition : ConditionDef} {passed : Bool} {dice : Dice}
      (is : node.kind = .condition definition)
      (rolls : definition.evaluate ((context.resolve node.target).head?.bind world.entity?) context
        world.dice = (some passed, dice)) :
      Enacting world skill node context
        { world := { world with dice }
          frames := [.fire ⟨skill, node.id, (if passed then NodePort.holds else .fails).name,
            context, none⟩] }
  /-- A cue is started. -/
  | cue {definition : CueDef} (is : node.kind = .cue definition) :
      Enacting world skill node context (world.runCue skill node context definition)
  /-- A script is run, and then the node is complete. -/
  | scripted {requests : List Request} (scripts : world.behaviours node.category = some .scripted) :
      Enacting world skill node context { world, frames :=
        [.script skill node.id requests,
          .fire ⟨skill, node.id, NodePort.complete.name, context, none⟩] }

/-- Running a node takes one of the ways on. -/
theorem enacting (world : World) (skill : SkillId) (node : Node) (context : Context) :
    world.Enacting skill node context (world.visit skill node context) := by
  have standard (category : NodeCategory) : world.Enacting skill node context
      (world.runStandard skill node context category) := by
    unfold runStandard
    split
    · next is => exact .effect is
    · next is => exact .task is
    · next definition is =>
      unfold runCondition
      dsimp only
      cases rolls : definition.evaluate ((context.resolve node.target).head?.bind world.entity?)
          context world.dice with
      | mk answer dice =>
        cases answer with
        | none => exact .unanswered is rolls
        | some passed => exact .decided is rolls
    · next is => exact .cue is
    · exact .idle
  unfold visit
  split
  · exact .idle
  · exact .idle
  · exact standard _
  · next scripts =>
    split
    · exact standard _
    · exact .scripted scripts

/-- The end of what is not live is over at once. -/
theorem finish_of_not_isLive (dead : world.isLive handle = false) (state : EffectState)
    (fires : Bool) : world.finish handle state fires = .answered world (.flag false) := by
  unfold finish
  cases found : world.effect? handle with
  | none => rfl
  | some effect =>
    rw [isLive_eq found] at dead
    simp [dead]

/-- The end of what is live releases it and has its target re-checked, after its last ports. -/
theorem finish_of_live (found : world.effect? handle = some effect) (live : effect.isLive = true)
    (state : EffectState) (fires : Bool) :
    world.finish handle state fires = .told (world.release handle effect state)
      ((if fires then [.fire (effect.fires handle .removed effect.context),
        .fire (effect.fires handle .complete effect.context)] else []) ++
          [.enforce handle.target, .answer (.flag true)]) := by
  simp only [finish, found, live, if_true]

end World

end SkillEngine
