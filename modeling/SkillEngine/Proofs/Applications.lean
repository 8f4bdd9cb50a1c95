import SkillEngine.Proofs.Edits
import SkillEngine.Proofs.Enrolment
import SkillEngine.Proofs.Returns

/-!
# What becomes of an application

An application that its target lets in is written at once, stacked onto a live instance or stored as
a new one; the cleansing before the first and the last may set off any cascade, and that ends. Which
instance an application matches is decided by the policy of the application, and how it is stacked
by the policy of the instance. So one kind of application is swallowed: the one that matches an
instance whose own definition does not stack. `applications_take_effect` says that this is the only
kind.
-/

namespace SkillEngine

/-- What pulses can set off registers and unregisters nobody. -/
theorem Frame.enrols_of_isInner {frame : Frame} (inner : frame.isInner = true) :
    frame.enrols = false := by
  cases frame with
  | perform request => cases request <;> first | rfl | cases inner
  | beginTick | endTick => cases inner
  | _ => rfl

namespace Cascade

variable {cascade : Cascade} {frame : Frame} {rest : List Frame}

/-- Up to some step of a run, something remains to be done before the rest. -/
def Ahead (cascade : Cascade) (rest : List Frame) (bound : Nat) : Prop :=
  ∀ earlier ≤ bound, rest.length < (cascade.run earlier).agenda.length

/-- What is ahead of the rest after a step is so from the step on. -/
theorem Ahead.cons {others : List Frame} {bound : Nat} (next : cascade.agenda = frame :: others)
    (longer : rest.length < cascade.agenda.length) (ahead : cascade.step.Ahead rest bound) :
    cascade.Ahead rest (bound + 1) := by
  intro earlier within
  cases earlier with
  | zero => exact longer
  | succ earlier =>
    rw [run_succ next]
    exact ahead earlier (Nat.le_of_succ_le_succ within)

end Cascade

/-- What another application makes of an instance: one stack more, or at the limit the elapsed time
restarted. -/
theorem Effect.restack_cases (effect : Effect) (policy : StackingPolicy) :
    (effect.restack policy).state = .refreshing ∧
      (effect.stackCount < policy.maxStacks →
        (effect.restack policy).stackCount = effect.stackCount + 1) ∧
      (policy.maxStacks ≤ effect.stackCount →
        (effect.restack policy).stackCount = effect.stackCount ∧
          (effect.restack policy).clock.elapsed = 0) := by
  unfold Effect.restack
  refine ⟨rfl, fun below => ?_, fun full => ?_⟩
  · have more : effect.atLimit policy = false := decide_eq_false (Nat.not_le.2 below)
    rw [more]
    rfl
  · have limit : effect.atLimit policy = true := decide_eq_true full
    rw [limit]
    exact ⟨rfl, rfl⟩

namespace World

/-- An application of something that lasts matches an instance whose own definition does not
stack. -/
def Swallows (world : World) (application : Application) (target : EntityId) : Prop :=
  application.definition.durationType ≠ .instant ∧
  ∃ entity key effect, world.entity? target = some entity ∧
    entity.effects.findStackable? application.skill application.node application.definition
      application.context.caster = some key ∧
    world.effect? ⟨target, key⟩ = some effect ∧ effect.definition.stacking = none

variable {world : World} {application : Application} {target : EntityId}

/-- What is found after stacking onto an instance with a policy: that instance in its new form, with
its tracked magnitudes renewed, and every other as it was. -/
theorem effect?_stackOnto {handle : EffectHandle} {effect : Effect} {policy : StackingPolicy}
    (found : world.effect? handle = some effect)
    (stacking : effect.definition.stacking = some policy) (context : Context)
    (other : EffectHandle) :
    (world.stackOnto handle context).world.effect? other =
      if other = handle then some ((effect.restack policy).renewed
        ((world.modifyEffect handle fun _ => effect.restack policy).renewals handle))
      else world.effect? other := by
  obtain ⟨same, edits⟩ := edits_stackOnto found stacking context
  refine edits.effect?_replace found ?_ other
  rw [Effect.renewed_eq]
  exact same

/-- Stacking leaves the answer, after the overflow port if that fires. -/
theorem frames_stackOnto (world : World) (handle : EffectHandle) (context : Context) :
    ∃ inner, (world.stackOnto handle context).frames = inner ++ [.answer (.handle handle)] ∧
      ∀ frame ∈ inner, frame.isInner = true := by
  rcases world.stackOnto_stacks_or_answers handle context with
    ⟨effect, policy, found, stacking⟩ | answers
  · rw [stackOnto_of_policy found stacking]
    refine ⟨overflowing effect policy handle context, rfl, fun frame member => ?_⟩
    unfold overflowing at member
    split at member
    · rw [List.mem_singleton.1 member]
      rfl
    · cases member
  · rw [answers]
    exact ⟨[], rfl, fun _ member => by cases member⟩

/-- A new instance is found where it takes hold. -/
theorem Sound.effect?_attach (sound : world.Sound) (application : Application) {entity : Entity}
    (registered : world.entity? target = some entity) (duration : Float32) :
    (world.attach application target duration).world.effect? ⟨target, ⟨world.nextEffect⟩⟩ =
      some (world.newEffect application target duration) := by
  have roster : world.roster? target = some entity.effects := by rw [roster?, registered]; rfl
  have stored := (edits_attach world application target duration).self roster
  rw [effect?_eq_roster, stored]
  exact ((sound.rosters target entity registered).get?_insert rfl ⟨world.nextEffect⟩).trans
    (if_pos rfl)

/-- How an application goes on that its target lets in: it stacks onto the instance that it matches,
or it is written at once, or it is to take hold. -/
theorem applyTo_of_admits {entity : Entity} (registered : world.entity? target = some entity)
    (admitted : admits entity application.definition = true) :
    (application.definition.durationType ≠ .instant ∧ ∃ key,
      entity.effects.findStackable? application.skill application.node application.definition
        application.context.caster = some key ∧
      world.applyTo application target = world.stackOnto ⟨target, key⟩ application.context) ∨
    ¬ world.Swallows application target ∧
      (world.applyTo application target = { world, frames := instantly application target } ∨
        ∃ duration, world.applyTo application target =
          { world, frames := lastingly application target duration }) := by
  have ways := world.applying application target
  generalize world.applyTo application target = progress at ways ⊢
  have alone (unmatched : entity.effects.findStackable? application.skill application.node
      application.definition application.context.caster = none) :
      ¬ world.Swallows application target := by
    rintro ⟨_, other, key, _, present, matched, _⟩
    cases registered.symm.trans present
    cases unmatched.symm.trans matched
  cases ways with
  | refused shut => cases (shut entity registered).symm.trans admitted
  | written present _ atOnce =>
    cases registered.symm.trans present
    refine .inr ⟨fun swallows => ?_, .inl rfl⟩
    rcases atOnce with instant | ⟨_, unmatched, _⟩
    · exact swallows.1 instant
    · exact alone unmatched swallows
  | stacked present _ lasts matched =>
    cases registered.symm.trans present
    exact .inl ⟨lasts, _, matched, rfl⟩
  | held present _ _ unmatched =>
    cases registered.symm.trans present
    exact .inr ⟨alone unmatched, .inr ⟨_, rfl⟩⟩

end World

namespace Cascade

/-- An application that is next takes effect, before what comes after it. -/
inductive TakesEffect (cascade : Cascade) (application : Application) (target : EntityId)
    (rest : List Frame) : Prop where
  /-- It is written to its target, which is registered. -/
  | written {bound : Nat} (ahead : cascade.Ahead rest bound)
      (agenda : (cascade.run bound).agenda =
        .write application target :: .answer .nothing :: rest)
      (registered : (cascade.run bound).world.registry.contains target = true) :
      TakesEffect cascade application target rest
  /-- A new live instance of it is stored. -/
  | held {bound : Nat} {duration : Float32} (ahead : cascade.Ahead rest bound)
      (agenda : (cascade.run bound).agenda = .attach application target duration :: rest)
      (stored : (cascade.run (bound + 1)).world.effect?
        ⟨target, ⟨(cascade.run bound).world.nextEffect⟩⟩ =
          some ((cascade.run bound).world.newEffect application target duration)) :
      TakesEffect cascade application target rest
  /-- The instance that it answers with is refreshing, with one stack more or, at its limit, with
  its elapsed time restarted. -/
  | stacked {bound : Nat} {handle : EffectHandle} {before after : Effect} {policy : StackingPolicy}
      (ahead : cascade.Ahead rest bound)
      (agenda : (cascade.run bound).agenda = .answer (.handle handle) :: rest)
      (found : cascade.world.effect? handle = some before)
      (stacking : before.definition.stacking = some policy)
      (place : handle.target = target)
      (grown : (cascade.run 1).world.effect? handle = some after)
      (refreshing : after.state = .refreshing)
      (grows : before.stackCount < policy.maxStacks → after.stackCount = before.stackCount + 1)
      (restarts : policy.maxStacks ≤ before.stackCount →
        after.stackCount = before.stackCount ∧ after.clock.elapsed = 0) :
      TakesEffect cascade application target rest

/-- An application that is next is done without a change, and answers with an instance that was
there. -/
structure ComesToNothing (cascade : Cascade) (rest : List Frame) : Prop where
  /-- Two frames later nothing of it is left. -/
  agenda : (cascade.run 2).agenda = rest
  /-- The world is the same. -/
  world : (cascade.run 2).world = cascade.world
  /-- Nothing was told. -/
  trace : (cascade.run 2).trace = cascade.trace
  /-- The answer is a live instance. -/
  answer : ∃ handle, (cascade.run 2).reply = .handle handle ∧ cascade.world.isLive handle = true

end Cascade

section Session

variable {start : World} {past : List Cascade} {now : Cascade} {rest : List Frame}

/-- What every frame that nodes set off leaves true of a world is true when a cleansing has
returned, if it was before. -/
theorem Session.holds_of_cleansed (holds : World → Prop)
    (keeps : ∀ {world : World} {frame : Frame} (reply : Reply), world.Sound →
      (frame.Admitted fun request => request.isLawful = true) → frame.isInner = true →
      holds world → holds (frame.expand world reply).world)
    (calm : start.Calm)
    (session : Session (fun request => request.isLawful = true) start past now) {target : EntityId}
    {tags : TagSet} (next : now.agenda = .cleanse target tags :: rest) {bound : Nat}
    (returns : now.Returns rest bound) (initially : holds now.world) :
    holds (now.run bound).world := by
  have split : now.agenda = [.cleanse target tags] ++ rest := next
  refine session.holds_of_returns holds keeps calm split (fun frame member => ?_) returns initially
  rw [List.mem_singleton.1 member]
  rfl

/-- The cleansing of a registered target returns with the target still registered, unless a roll has
no answer. -/
theorem Session.cleanses (calm : start.Calm)
    (session : Session (fun request => request.isLawful = true) start past now) {target : EntityId}
    {tags : TagSet} (next : now.agenda = .cleanse target tags :: rest) {entity : Entity}
    (registered : now.world.entity? target = some entity) :
    (∃ bound, now.keeps bound = false) ∨ ∃ bound holder, now.Returns rest bound ∧
      (now.run bound).world.entity? target = some holder := by
  have split : now.agenda = [.cleanse target tags] ++ rest := next
  refine (session.returns calm split).imp id fun ⟨bound, returns⟩ => ?_
  have roll : (now.run bound).world.registry.roll = now.world.registry.roll :=
    session.holds_of_cleansed (fun world => world.registry.roll = now.world.registry.roll)
      (fun {world _} reply _ _ inner same =>
        (World.roll_expand world reply (Frame.enrols_of_isInner inner)).trans same)
      calm next returns rfl
  have present : (now.run bound).world.registry.contains target = true := by
    rw [Registry.contains_congr roll]
    exact Option.isSome_of_eq_some registered
  obtain ⟨holder, found⟩ := Option.isSome_iff_exists.1 present
  exact ⟨bound, holder, returns, found⟩

namespace Cascade

variable {application : Application} {target : EntityId}

/-- An application that matches an instance without a policy of its own comes to nothing. -/
theorem comesToNothing {key : EffectId} {effect : Effect}
    (next : now.agenda = .apply application target :: rest)
    (applies : now.world.applyTo application target =
      now.world.stackOnto ⟨target, key⟩ application.context)
    (found : now.world.effect? ⟨target, key⟩ = some effect) (live : effect.isLive = true)
    (unstacked : effect.definition.stacking = none) :
    (now.run 1).agenda = .answer (.handle ⟨target, key⟩) :: rest ∧ now.ComesToNothing rest := by
  have once : now.step =
      { now with agenda := .answer (.handle ⟨target, key⟩) :: rest } := by
    simp [step, next, Frame.expand, applies, World.stackOnto, found, unstacked]
  have first : now.run 1 = now.step := run_succ next 0
  have twice : now.run 2 =
      { now with agenda := rest, reply := .handle ⟨target, key⟩ } := by
    rw [run_succ next 1, once]
    simp [run, isDone, step, Frame.expand, Progress.answered]
  refine ⟨by rw [first, once], ?_, ?_, ?_, ⟨target, key⟩, ?_, ?_⟩
  · rw [twice]
  · rw [twice]
  · rw [twice]
  · rw [twice]
  · exact (World.isLive_eq found).trans live

/-- What comes to nothing takes no effect, if the instance that it answers with has no policy. -/
theorem ComesToNothing.not_takesEffect (nothing : now.ComesToNothing rest)
    (next : now.agenda = .apply application target :: rest) {handle : EffectHandle}
    (answers : (now.run 1).agenda = .answer (.handle handle) :: rest)
    {effect : Effect} (found : now.world.effect? handle = some effect)
    (unstacked : effect.definition.stacking = none) :
    ¬ now.TakesEffect application target rest := by
  -- Only the first two states are ahead of the rest.
  have soon {bound : Nat} (ahead : now.Ahead rest bound) : bound = 0 ∨ bound = 1 := by
    by_contra late
    have longer := ahead 2 (by omega)
    rw [nothing.agenda] at longer
    exact Nat.lt_irrefl _ longer
  intro takes
  cases takes with
  | written ahead agenda =>
    rcases soon ahead with rfl | rfl
    · cases next.symm.trans agenda
    · cases answers.symm.trans agenda
  | held ahead agenda =>
    rcases soon ahead with rfl | rfl
    · cases next.symm.trans agenda
    · cases answers.symm.trans agenda
  | stacked ahead agenda stored stacking =>
    rcases soon ahead with rfl | rfl
    · cases next.symm.trans agenda
    · cases answers.symm.trans agenda
      cases found.symm.trans stored
      cases unstacked.symm.trans stacking

/-- An application that is stacked onto an instance with a policy takes effect, unless a roll has no
answer. -/
theorem takesEffect_of_stacks (calm : start.Calm)
    (session : Session (fun request => request.isLawful = true) start past now)
    {key : EffectId} {effect : Effect} {policy : StackingPolicy}
    (next : now.agenda = .apply application target :: rest)
    (applies : now.world.applyTo application target =
      now.world.stackOnto ⟨target, key⟩ application.context)
    (found : now.world.effect? ⟨target, key⟩ = some effect)
    (stacking : effect.definition.stacking = some policy) :
    (∃ bound, now.keeps bound = false) ∨ now.TakesEffect application target rest := by
  have kept : ((Frame.apply application target).expand now.world now.reply).lost = false := by
    simp [Frame.expand, applies, World.stackOnto, found, stacking, Progress.told]
  obtain ⟨inner, frames, set⟩ := now.world.frames_stackOnto ⟨target, key⟩ application.context
  have agenda : now.step.agenda = inner ++ .answer (.handle ⟨target, key⟩) :: rest := by
    rw [agenda_step next kept]
    simp only [Frame.expand, applies, frames, List.append_assoc, List.cons_append, List.nil_append]
  rcases (session.stepped next kept).returns calm agenda with ⟨bound, lost⟩ | ⟨bound, returns⟩
  · exact .inl ⟨bound + 1, (keeps_succ next kept bound).trans lost⟩
  · have grown := World.effect?_stackOnto found stacking application.context ⟨target, key⟩
    rw [if_pos rfl, Effect.renewed_eq] at grown
    have placed : (now.run 1).world =
        (now.world.stackOnto ⟨target, key⟩ application.context).world := by
      rw [run_succ next 0, run, world_step next]
      simp only [Frame.expand, applies]
    rw [← placed] at grown
    obtain ⟨refreshing, grows, restarts⟩ := effect.restack_cases policy
    have reached := returns.back
    rw [← run_succ next] at reached
    have ahead : now.step.Ahead rest bound := fun earlier within => returns.length_le within
    exact .inr (.stacked (Ahead.cons next (by simp [next]) ahead) reached found stacking rfl grown
      refreshing grows restarts)

/-- What comes after the cleansing of an application comes about with its target registered, unless
a roll has no answer. -/
theorem cleansed (calm : start.Calm)
    (session : Session (fun request => request.isLawful = true) start past now) {entity : Entity}
    (next : now.agenda = .apply application target :: rest)
    (registered : now.world.entity? target = some entity) {tags : TagSet} {frame : Frame}
    {frames : List Frame} (applies : now.world.applyTo application target =
      { world := now.world, frames := .cleanse target tags :: frame :: frames }) :
    (∃ bound, now.keeps bound = false) ∨ ∃ bound holder, now.Ahead rest bound ∧
      (now.run bound).agenda = frame :: frames ++ rest ∧
      (now.run bound).world.entity? target = some holder ∧ (now.run bound).world.Sound := by
  have kept : ((Frame.apply application target).expand now.world now.reply).lost = false := by
    simp [Frame.expand, applies]
  have agenda : now.step.agenda = .cleanse target tags :: (frame :: frames ++ rest) := by
    rw [agenda_step next kept]
    simp [Frame.expand, applies]
  have same : now.step.world = now.world := by
    rw [world_step next]
    simp [Frame.expand, applies]
  have onward := session.stepped next kept
  rcases onward.cleanses calm agenda (same ▸ registered) with
    ⟨bound, lost⟩ | ⟨bound, holder, returns, found⟩
  · exact .inl ⟨bound + 1, (keeps_succ next kept bound).trans lost⟩
  · have ahead : now.step.Ahead rest bound := fun earlier within => by
      have longer := returns.length_le within
      simp only [List.length_append, List.length_cons] at longer
      omega
    refine .inr ⟨bound + 1, holder, Ahead.cons next (by simp [next]) ahead, ?_⟩
    rw [run_succ next]
    exact ⟨returns.back, found, (onward.run bound returns.kept).sound calm fun _ lawful => lawful⟩

/-- An application that goes on to be written or to take hold takes effect, unless a roll has no
answer. -/
theorem takesEffect_of_cleanses (calm : start.Calm)
    (session : Session (fun request => request.isLawful = true) start past now) {entity : Entity}
    (next : now.agenda = .apply application target :: rest)
    (registered : now.world.entity? target = some entity)
    (applies : now.world.applyTo application target =
        { world := now.world, frames := World.instantly application target } ∨
      ∃ duration, now.world.applyTo application target =
        { world := now.world, frames := World.lastingly application target duration }) :
    (∃ bound, now.keeps bound = false) ∨ now.TakesEffect application target rest := by
  rcases applies with applies | ⟨duration, applies⟩
  · refine (cleansed calm session next registered applies).imp id ?_
    rintro ⟨bound, holder, ahead, reached, found, _⟩
    exact .written ahead reached (Option.isSome_of_eq_some found)
  · refine (cleansed calm session next registered applies).imp id ?_
    rintro ⟨bound, holder, ahead, reached, found, sound⟩
    refine .held ahead reached ?_
    rw [run_add_one, run_succ reached 0, run, world_step reached]
    exact sound.effect?_attach application found duration

end Cascade

/-- Unless a roll has no answer, an application that its registered target lets in takes effect,
except for one that lasts and matches an instance whose own definition does not stack: that is
answered with the instance and changes nothing. -/
theorem applications_take_effect {start : World} (calm : start.Calm) {past : List Cascade}
    {now : Cascade} (session : Session (fun request => request.isLawful = true) start past now)
    {application : Application} {target : EntityId} {rest : List Frame} {entity : Entity}
    (next : now.agenda = .apply application target :: rest)
    (registered : now.world.entity? target = some entity)
    (admitted : World.admits entity application.definition = true) :
    (∃ bound, now.keeps bound = false) ∨
      (now.TakesEffect application target rest ↔ ¬ now.world.Swallows application target) ∧
      (now.world.Swallows application target → now.ComesToNothing rest) := by
  have sound := session.sound calm fun _ lawful => lawful
  rcases World.applyTo_of_admits registered admitted with
    ⟨lasts, key, matched, applies⟩ | ⟨alone, applies⟩
  · obtain ⟨effect, found, live⟩ :=
      World.exists_of_isLive (sound.isLive_stackable registered matched)
    cases stacking : effect.definition.stacking with
    | none =>
      have swallows : now.world.Swallows application target :=
        ⟨lasts, entity, key, effect, registered, matched, found, stacking⟩
      obtain ⟨answers, nothing⟩ := Cascade.comesToNothing next applies found live stacking
      exact .inr ⟨iff_of_false (nothing.not_takesEffect next answers found stacking)
        (not_not_intro swallows), fun _ => nothing⟩
    | some policy =>
      have heeded : ¬ now.world.Swallows application target := by
        rintro ⟨_, _, other, _, present, also, stored, unstacked⟩
        cases registered.symm.trans present
        cases matched.symm.trans also
        cases found.symm.trans stored
        cases stacking.symm.trans unstacked
      exact (Cascade.takesEffect_of_stacks calm session next applies found stacking).imp id
        fun takes => ⟨iff_of_true takes heeded, fun swallows => absurd swallows heeded⟩
  · exact (Cascade.takesEffect_of_cleanses calm session next registered applies).imp id
      fun takes => ⟨iff_of_true takes alone, fun swallows => absurd swallows alone⟩

end Session

/-- A lasting effect that does not stack. -/
def chill : EffectDef where
  durationType := .infinite
  tags := { asset := .ofPaths ["Cold"] }

/-- A lasting effect that stacks onto whatever is cold. -/
def frost : EffectDef where
  durationType := .infinite
  tags := { asset := .ofPaths ["Cold"] }
  stacking := some { limit := 3 }

/-- An entity that receives an effect. -/
def coldRequests (first : EffectDef) : List Request :=
  [.spawn ⟨1⟩, .apply ⟨1⟩ ⟨1⟩ first ⟨1⟩ { caster := ⟨1⟩ }]

/-- The state in which the entity has received it. -/
def cold (first : EffectDef) : Cascade :=
  Cascade.afterEach 20 { world := World.create {} .empty, agenda := [] } (coldRequests first)

/-- Frost is applied to it, by another node. -/
def frostRequest : Request := .apply ⟨1⟩ ⟨2⟩ frost ⟨1⟩ { caster := ⟨1⟩ }

/-- The application of the frost. -/
def frosting (first : EffectDef) : Application :=
  ⟨⟨1⟩, ⟨2⟩, frost, (cold first).world.openContext { caster := ⟨1⟩ }⟩

/-- The state in which the frost is applied next. -/
def freezing (first : EffectDef) : Cascade :=
  (Cascade.ofRequest (cold first).world frostRequest).run 1

/-- Whatever effect it was that the entity received, frost is applied next. -/
theorem agenda_freezing (first : EffectDef) :
    (freezing first).agenda = [.apply (frosting first) ⟨1⟩] := rfl

/-- That state is reached in a session, if nothing was lost. -/
theorem session_freezing {first : EffectDef}
    (kept : Cascade.keepsEach 20 { world := World.create {} .empty, agenda := [] }
      (coldRequests first) = true) (done : (cold first).isDone = true) :
    ∃ past, Session (fun request => request.isLawful = true) (World.create {} .empty) past
      (freezing first) := by
  have received : Session (fun request => request.isLawful = true) (World.create {} .empty)
      (Cascade.duringEach 20 { world := World.create {} .empty, agenda := [] }
        (coldRequests first)) (cold first) := by
    refine .ofRequests 20 _ (fun request member => ?_) kept
    rcases List.mem_pair.1 member with rfl | rfl <;> rfl
  have asked : Session (fun request => request.isLawful = true) (World.create {} .empty)
      (_ ++ [cold first]) (.ofRequest (cold first).world frostRequest) :=
    received.asked (List.isEmpty_iff.1 done) rfl
  exact ⟨_, asked.run 1 rfl⟩

/-- Frost lets in whom it finds, and stacks onto frost. -/
theorem frost_stacks : (World.create {} .empty).Calm ∧
    ∃ past entity, Session (fun request => request.isLawful = true) (World.create {} .empty) past
        (freezing frost) ∧
      (freezing frost).world.entity? ⟨1⟩ = some entity ∧ World.admits entity frost = true ∧
      ((∃ bound, (freezing frost).keeps bound = false) ∨
        ((freezing frost).TakesEffect (frosting frost) ⟨1⟩ [] ↔
          ¬ (freezing frost).world.Swallows (frosting frost) ⟨1⟩) ∧
        ((freezing frost).world.Swallows (frosting frost) ⟨1⟩ →
          (freezing frost).ComesToNothing [])) := by
  have calm := World.calm_create {} .empty
  obtain ⟨past, session⟩ : ∃ past, Session (fun request => request.isLawful = true)
      (World.create {} .empty) past (freezing frost) :=
    session_freezing (by decide +kernel) (by decide +kernel)
  have lets : ((freezing frost).world.entity? ⟨1⟩).any (World.admits · frost) = true := by
    decide +kernel
  obtain ⟨entity, registered, admitted⟩ := (Option.any_eq_true _ _).1 lets
  exact ⟨calm, past, entity, session, registered, admitted,
    applications_take_effect calm session (agenda_freezing frost) registered admitted⟩

/-- Frost that is applied to an entity with a chill takes no effect, although the entity lets it
in. -/
theorem chill_swallows_frost : (World.create {} .empty).Calm ∧
    ∃ past entity, Session (fun request => request.isLawful = true) (World.create {} .empty) past
        (freezing chill) ∧
      (freezing chill).agenda = [.apply (frosting chill) ⟨1⟩] ∧
      (freezing chill).world.entity? ⟨1⟩ = some entity ∧ World.admits entity frost = true ∧
      (∀ bound, (freezing chill).keeps bound = true) ∧
      ¬ (freezing chill).TakesEffect (frosting chill) ⟨1⟩ [] := by
  have lets : ((freezing chill).world.entity? ⟨1⟩).any (World.admits · frost) = true := by
    decide +kernel
  have matched : ((freezing chill).world.entity? ⟨1⟩).bind (·.effects.findStackable? ⟨1⟩ ⟨2⟩ frost
      (frosting chill).context.caster) = some ⟨1⟩ := by decide +kernel
  have live : (freezing chill).world.isLive ⟨⟨1⟩, ⟨1⟩⟩ = true := by decide +kernel
  have plain : ((freezing chill).world.effect? ⟨⟨1⟩, ⟨1⟩⟩).map (·.definition.stacking) =
      some none := by decide +kernel
  obtain ⟨past, session⟩ : ∃ past, Session (fun request => request.isLawful = true)
      (World.create {} .empty) past (freezing chill) :=
    session_freezing (by decide +kernel) (by decide +kernel)
  obtain ⟨entity, registered, admitted⟩ := (Option.any_eq_true _ _).1 lets
  obtain ⟨effect, found, alive⟩ := World.exists_of_isLive live
  rw [registered] at matched
  rw [found] at plain
  have unstacked : effect.definition.stacking = none := Option.some.inj plain
  have applies : (freezing chill).world.applyTo (frosting chill) ⟨1⟩ =
      (freezing chill).world.stackOnto ⟨⟨1⟩, ⟨1⟩⟩ (frosting chill).context := by
    have goes := @World.applyTo_of_admits (freezing chill).world (frosting chill) ⟨1⟩ entity
      registered admitted
    rcases goes with ⟨_, key, also, applies⟩ | ⟨alone, _⟩
    · cases matched.symm.trans also
      exact applies
    · exact absurd ⟨by decide, entity, ⟨1⟩, effect, registered, matched, found, unstacked⟩ alone
  obtain ⟨answers, nothing⟩ :=
    Cascade.comesToNothing (agenda_freezing chill) applies found alive unstacked
  have kept : (freezing chill).keeps 2 = true := by decide +kernel
  exact ⟨World.calm_create {} .empty, past, entity, session, agenda_freezing chill, registered,
    admitted, Cascade.keeps_of_isDone kept (by decide +kernel),
    nothing.not_takesEffect (agenda_freezing chill) answers found unstacked⟩

end SkillEngine
