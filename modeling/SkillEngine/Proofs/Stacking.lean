import SkillEngine.Proofs.Session

/-!
# One instance per stack

An application of a stackable effect looks for an instance to stack onto and, if there is none,
cleanses its target before the new instance takes hold. Between the two any cascade may run. So what
is kept is not that there is no instance to stack onto, but that whichever there is has *overtaken*
the application: it took hold while the application waited. `twins_overtake` says so of two
instances that should have been one.
-/

namespace SkillEngine

/-- Two instances that stem from one node and belong on one stack, by target or by source. -/
structure Effect.Twins (first second : Effect) : Prop where
  /-- They stem from the same skill. -/
  skill : first.skill = second.skill
  /-- They stem from the same node. -/
  node : first.node = second.node
  /-- They have the same definition. -/
  definition : first.definition = second.definition
  /-- It stacks, and if stacks are kept by source they have the same source. -/
  shared : ∃ policy, second.definition.stacking = some policy ∧
    (policy.kind = .aggregateBySource → first.source = second.source)

/-- A tag set equals itself. -/
theorem TagSet.beq_self (set : TagSet) : (set == set) = true := by
  have same (tags : List Tag) : (tags == tags) = true := by
    induction tags with
    | nil => rfl
    | cons tag rest ih =>
      have head : (tag == tag) = true := beq_self_eq_true tag.hash
      exact (Bool.and_eq_true _ _).mpr ⟨head, ih⟩
  exact same set.tags

/-- An application like the one of an instance stacks onto a live twin of it. -/
theorem Effect.Twins.stacksWith {first second : Effect} (twins : first.Twins second)
    (live : first.isLive = true) :
    first.stacksWith second.skill second.node second.definition second.source = true := by
  obtain ⟨policy, stacking, same⟩ := twins.shared
  simp only [Effect.stacksWith, live, stacking, twins.skill, twins.node, twins.definition,
    TagSet.beq_self, Bool.true_and, beq_self_eq_true, Bool.and_self, ite_self]
  cases kind : policy.kind with
  | aggregateByTarget => rfl
  | aggregateBySource => simp [same kind]

/-- An application stacks onto an earlier form of what it stacks onto. -/
theorem Effect.Becomes.stacksWith {before after : Effect} (becomes : before.Becomes after)
    (attached : before.state ≠ .pending) {skill : SkillId} {node : NodeId}
    {definition : EffectDef} {source : EntityId}
    (fits : after.stacksWith skill node definition source = true) :
    before.stacksWith skill node definition source = true := by
  obtain ⟨live, matched⟩ := (Bool.and_eq_true _ _).mp fits
  refine (Bool.and_eq_true _ _).mpr ⟨becomes.isLive attached live, ?_⟩
  rw [becomes.skill, becomes.node, becomes.definition, becomes.source] at matched
  exact matched

/-- An application lets a new instance take hold only if there is none to stack onto, and right
after it cleansed. -/
theorem World.unstackable_of_attach {world : World} {application other : Application}
    {target place : EntityId} {duration : Float32}
    (left : .attach other place duration ∈ (world.applyTo application target).frames) :
    other = application ∧ place = target ∧
      (world.applyTo application target).frames = lastingly application target duration ∧
      ∃ entity, world.entity? target = some entity ∧
        entity.effects.findStackable? application.skill application.node application.definition
          application.context.caster = none := by
  have ways := world.applying application target
  generalize world.applyTo application target = progress at ways left ⊢
  cases ways with
  | refused => cases left
  | written => simp [instantly] at left
  | stacked => exact absurd left world.attach_not_mem_stackOnto
  | @held entity _ registered _ _ unmatched =>
    obtain ⟨rfl, rfl, rfl⟩ : other = application ∧ place = target ∧ duration = _ := by
      simpa [lastingly] using left
    exact ⟨rfl, rfl, rfl, entity, registered, unmatched⟩

/-- No stored instance is one to stack onto, if there is none. -/
theorem EffectRoster.not_stacksWith {roster : EffectRoster} {skill : SkillId} {node : NodeId}
    {definition : EffectDef} {source : EntityId} {effect : Effect}
    (unstackable : roster.findStackable? skill node definition source = none)
    (stored : effect ∈ roster.effects) :
    effect.stacksWith skill node definition source = false := by
  have nobody := List.find?_eq_none.1 (Option.map_eq_none_iff.1 unstackable)
  cases fits : effect.stacksWith skill node definition source with
  | false => rfl
  | true =>
    have live : effect.isLive = true := ((Bool.and_eq_true _ _).mp fits).1
    exact absurd fits (nobody effect (List.mem_filter.2 ⟨stored, live⟩))

/-- The frame is a part of a cleansing that removes nothing. -/
def Frame.isSilent : Frame → Bool
  | .cleanse _ tags => tags.isEmpty
  | .removeEach _ ids _ => ids.isEmpty
  | .answer _ => true
  | _ => false

/-- A cleansing that removes nothing leaves nothing else. -/
theorem Frame.isSilent_expand {frame next : Frame} (silent : frame.isSilent = true) (world : World)
    (reply : Reply) (left : next ∈ (frame.expand world reply).frames) : next.isSilent = true := by
  cases frame with
  | cleanse target tags =>
    have empty : tags.isEmpty = true := silent
    simp only [Frame.expand, World.cleanse] at left
    split at left
    · cases left
    · rw [List.mem_singleton.1 left, EffectRoster.matching, if_pos empty]
      rfl
  | removeEach target ids count =>
    cases ids with
    | nil => cases left
    | cons => cases silent
  | answer => cases left
  | _ => cases silent

/-- With the next step an instance takes hold on a target under a number while an application to the
same target waits to take hold. -/
def Cascade.Overtakes (cascade : Cascade) (handle : EffectHandle) (application : Application) :
    Prop :=
  cascade.world.nextEffect = handle.id.raw ∧ ∃ other duration late rest,
    cascade.agenda = .attach other handle.target duration :: rest ∧
      .attach application handle.target late ∈ rest

namespace Session

variable {admits : Request → Prop} {start : World} {past : List Cascade} {now : Cascade}
  (calm : start.Calm) (lawful : ∀ request, admits request → request.isLawful = true)

include calm lawful

/-- Nothing happens before an application that cleanses nothing takes hold. -/
theorem silent (session : Session admits start past now) {application : Application}
    {target : EntityId} {duration : Float32} {before after : List Frame}
    (split : now.agenda = before ++ .attach application target duration :: after)
    (nothing : application.definition.tags.removeEffectsWithTags.isEmpty = true) :
    ∀ frame ∈ before, frame.isSilent = true := by
  induction session generalizing before after with
  | opened => simp at split
  | @asked past now request session =>
    have member : .attach application target duration ∈ [Frame.perform request] := by
      have listed : .attach application target duration ∈
          (Cascade.ofRequest now.world request).agenda := split ▸ by simp
      exact listed
    cases List.mem_singleton.1 member
  | @stepped past now frame rest session next kept ih =>
    have sound := session.sound calm lawful
    have admitted := session.first calm lawful next
    rw [Cascade.agenda_step next kept] at split
    have quiet (between : List Frame)
        (later : rest = between ++ .attach application target duration :: after) :
        ∀ other ∈ (frame.expand now.world now.reply).frames ++ between, other.isSilent = true := by
      have placed : now.agenda =
          (frame :: between) ++ .attach application target duration :: after := by
        rw [next, later]
        rfl
      have others := ih placed
      intro other member
      rcases List.mem_append.1 member with left | waits
      · exact Frame.isSilent_expand (others frame List.mem_cons_self) _ _ left
      · exact others other (List.mem_cons_of_mem _ waits)
    rcases List.append_eq_append_iff.1 split with ⟨between, rfl, later⟩ | ⟨between, framed, later⟩
    · exact quiet between later
    · cases between with
      | nil =>
        have none := quiet [] (by simpa using later.symm)
        simpa [framed] using none
      | cons first between =>
        obtain ⟨rfl, _⟩ := List.cons.inj later
        have left : .attach application target duration ∈
            (frame.expand now.world now.reply).frames := framed ▸ by simp
        have leaves := Frame.leaves_expand sound now.reply admitted left
        cases leaves with
        | host _ opening => cases opening
        | attach =>
          obtain ⟨_, _, lasts, _⟩ := World.unstackable_of_attach left
          have parts : before ++ .attach application target duration :: between =
              World.lastingly application target duration := framed.symm.trans lasts
          cases before with
          | nil => cases (List.cons.inj parts).1
          | cons head tail =>
            obtain ⟨rfl, short⟩ := List.cons.inj parts
            cases tail with
            | cons _ tail => cases tail <;> cases (List.cons.inj short).2
            | nil =>
              intro other member
              rw [List.mem_singleton.1 member]
              exact nothing

/-- Whatever a waiting application would stack onto has overtaken it. -/
theorem overtaken (session : Session admits start past now) {application : Application}
    {handle : EffectHandle} {duration : Float32} {effect : Effect}
    (waits : .attach application handle.target duration ∈ now.agenda)
    (found : now.world.effect? handle = some effect)
    (fits : effect.stacksWith application.skill application.node application.definition
      application.context.caster = true) :
    ∃ earlier ∈ past, earlier.Overtakes handle application := by
  induction session generalizing effect duration with
  | opened => cases waits
  | asked => cases List.mem_singleton.1 waits
  | @stepped past now frame rest session next kept ih =>
    have sound := session.sound calm lawful
    have admitted := session.first calm lawful next
    have turn := session.turn calm lawful next
    rw [Cascade.world_step next] at found
    rw [Cascade.agenda_step next kept] at waits
    rcases turn.origin sound found with ⟨before, was, makes⟩ | ⟨other, early, rfl, rfl⟩
    · -- The instance was there before the step, and could be stacked onto then as well.
      have earlier := (makes.becomes admitted).stacksWith (sound.attached was) fits
      rcases List.mem_append.1 waits with left | later
      · have leaves := Frame.leaves_expand sound now.reply admitted left
        cases leaves with
        | host _ opening => cases opening
        | attach =>
          obtain ⟨_, _, _, entity, registered, unstackable⟩ := World.unstackable_of_attach left
          obtain ⟨holder, stored, placed, _⟩ := World.of_effect? was
          cases registered.symm.trans stored
          have none := EffectRoster.not_stacksWith unstackable (EffectRoster.mem_of_get? placed).1
          exact absurd (earlier.symm.trans none) (by decide)
      · have waited : .attach application handle.target duration ∈ now.agenda :=
          next ▸ List.mem_cons_of_mem _ later
        obtain ⟨state, member, overtakes⟩ := ih waited was earlier
        exact ⟨state, List.mem_append_left _ member, overtakes⟩
    · -- The instance takes hold with the step, while the application waits.
      rcases List.mem_append.1 waits with left | later
      · have leaves := Frame.leaves_expand sound now.reply admitted left
        cases leaves
      · obtain ⟨_, _, _, number⟩ := World.of_effect? found
        exact ⟨now, List.mem_append_right _ (List.mem_singleton.2 rfl),
          congrArg EffectId.raw number, other, early, duration, rest, next, later⟩

/-- Two live instances that belong on one stack: the earlier one has overtaken the application of
the later one. -/
theorem twins_overtaken (session : Session admits start past now) {first second : EffectHandle}
    {effect other : Effect} (same : first.target = second.target)
    (found : now.world.effect? first = some effect)
    (present : now.world.effect? second = some other)
    (live : effect.isLive = true) (alive : other.isLive = true) (twins : effect.Twins other)
    (earlier : first.id.raw < second.id.raw) :
    ∃ state ∈ past, ∃ application, application.skill = other.skill ∧
      application.node = other.node ∧ application.definition = other.definition ∧
      application.context.caster = other.source ∧ state.Overtakes first application := by
  induction session generalizing effect other with
  | opened => cases (calm.missing first).symm.trans found
  | asked session done admitted ih =>
    obtain ⟨state, member, overtakes⟩ := ih found present live alive twins
    exact ⟨state, List.mem_append_left _ member, overtakes⟩
  | @stepped past now frame rest session next kept ih =>
    have sound := session.sound calm lawful
    have admitted := session.first calm lawful next
    have turn := session.turn calm lawful next
    rw [Cascade.world_step next] at found present
    obtain ⟨_, _, _, number⟩ := World.of_effect? present
    rcases turn.origin sound found with ⟨before, was, makes⟩ | ⟨_, _, _, rfl⟩
    · have becomes := makes.becomes admitted
      have attached := sound.attached was
      rcases turn.origin sound present with ⟨later, stored, made⟩ | ⟨application, early, rfl, rfl⟩
      · have onward := made.becomes admitted
        have kin : before.Twins later :=
          { skill := by rw [← becomes.skill, ← onward.skill]; exact twins.skill
            node := by rw [← becomes.node, ← onward.node]; exact twins.node
            definition := by rw [← becomes.definition, ← onward.definition]; exact twins.definition
            shared := by
              rw [← onward.definition, ← becomes.source, ← onward.source]
              exact twins.shared }
        obtain ⟨state, member, overtakes⟩ := ih was stored (becomes.isLive attached live)
          (onward.isLive (sound.attached stored) alive) kin
        rw [onward.skill, onward.node, onward.definition, onward.source]
        exact ⟨state, List.mem_append_left _ member, overtakes⟩
      · -- The later one takes hold with the step, so its application waited until now.
        have waits : .attach application first.target early ∈ now.agenda := by
          rw [next, same]
          exact List.mem_cons_self
        obtain ⟨state, member, overtakes⟩ := session.overtaken calm lawful waits was
          (becomes.stacksWith attached (twins.stacksWith live))
        exact ⟨state, List.mem_append_left _ member, application, rfl, rfl, rfl, rfl, overtakes⟩
    · -- No later instance is there when the earlier one takes hold.
      obtain ⟨_, _, _, new⟩ := World.of_effect? found
      have first : first.id.raw = now.world.nextEffect := congrArg EffectId.raw new.symm
      rcases turn.origin sound present with ⟨later, stored, _⟩ | ⟨_, _, _, rfl⟩
      · have below := sound.numbered_below stored
        omega
      · have last : second.id.raw = now.world.nextEffect := congrArg EffectId.raw number.symm
        omega

end Session

/-- Stacks split only where an application of an effect that cleanses was overtaken: of two live
instances on one entity that belong on one stack, the earlier took hold while the application of the
later, which had found none to stack onto, waited for its own cleansing. -/
theorem twins_overtake {start : World} (calm : start.Calm) {past : List Cascade} {now : Cascade}
    (session : Session (fun request => request.isLawful = true) start past now)
    {first second : EffectHandle} {effect other : Effect} (same : first.target = second.target)
    (found : now.world.effect? first = some effect)
    (present : now.world.effect? second = some other)
    (live : effect.isLive = true) (alive : other.isLive = true) (twins : effect.Twins other)
    (earlier : first.id.raw < second.id.raw) :
    other.definition.tags.removeEffectsWithTags.isEmpty = false ∧
      ∃ state ∈ past, ∃ application, application.skill = other.skill ∧
        application.node = other.node ∧ application.definition = other.definition ∧
        application.context.caster = other.source ∧ state.Overtakes first application := by
  have lawful : ∀ request : Request, request.isLawful = true → request.isLawful = true :=
    fun _ lawful => lawful
  obtain ⟨state, member, application, skill, node, definition, source, overtakes⟩ :=
    session.twins_overtaken calm lawful same found present live alive twins earlier
  refine ⟨?_, state, member, application, skill, node, definition, source, overtakes⟩
  cases nothing : other.definition.tags.removeEffectsWithTags.isEmpty with
  | false => rfl
  | true =>
    obtain ⟨_, overtaking, duration, late, rest, next, waits⟩ := overtakes
    obtain ⟨between, after, placed⟩ := List.append_of_mem waits
    obtain ⟨_, reached⟩ := session.reached state member
    have split : state.agenda = (.attach overtaking first.target duration :: between) ++
        .attach application first.target late :: after := by
      rw [next, placed]
      rfl
    have silent := reached.silent calm lawful split (definition ▸ nothing) _ List.mem_cons_self
    exact absurd silent Bool.false_ne_true

/-- A lasting effect that wards remove. -/
def curse : EffectDef where
  durationType := .infinite
  tags := { asset := .ofPaths ["Curse"] }

/-- A lasting effect that removes curses and is kept on one stack by target. -/
def ward : EffectDef where
  durationType := .infinite
  tags := { removeEffectsWithTags := .ofPaths ["Curse"] }
  stacking := some { limit := 3 }

/-- A curse that is removed leads to a ward. -/
def omen : SkillGraph where
  id := ⟨1⟩
  nodes := [{ id := ⟨1⟩, kind := .effect curse }, { id := ⟨2⟩, kind := .effect ward }]
  connections := [⟨⟨1⟩, "removed", ⟨2⟩, "input"⟩]

/-- An entity receives the curse and then the ward. -/
def wardRequests : List Request :=
  [.library (.ok (.insert omen)), .spawn ⟨1⟩,
    .activate ⟨1⟩ ⟨1⟩ { caster := ⟨1⟩, edits := [.target ⟨1⟩] },
    .activate ⟨1⟩ ⟨2⟩ { caster := ⟨1⟩, edits := [.target ⟨1⟩] }]

/-- The states gone through meanwhile. -/
def warding : List Cascade :=
  Cascade.duringEach 60 { world := World.create {} .empty, agenda := [] } wardRequests

/-- The state that is reached. -/
def warded : Cascade :=
  Cascade.afterEach 60 { world := World.create {} .empty, agenda := [] } wardRequests

/-- The requests make a session. -/
theorem session_warded : Session (fun request => request.isLawful = true) (World.create {} .empty)
    warding warded :=
  .ofRequests 60 wardRequests (by decide +kernel) (by decide +kernel)

/-- The entity then has two live instances of the ward, which belong on one stack. -/
theorem twins_warded : ∃ effect other, warded.world.effect? ⟨⟨1⟩, ⟨2⟩⟩ = some effect ∧
    warded.world.effect? ⟨⟨1⟩, ⟨3⟩⟩ = some other ∧ effect.isLive = true ∧ other.isLive = true ∧
    effect.Twins other := by
  have alive : warded.world.isLive ⟨⟨1⟩, ⟨2⟩⟩ = true ∧ warded.world.isLive ⟨⟨1⟩, ⟨3⟩⟩ = true := by
    decide +kernel
  obtain ⟨effect, found, live⟩ := World.exists_of_isLive alive.1
  obtain ⟨other, present, lives⟩ := World.exists_of_isLive alive.2
  have origin : (warded.world.effect? ⟨⟨1⟩, ⟨2⟩⟩).map (fun effect => (effect.skill, effect.node)) =
      (warded.world.effect? ⟨⟨1⟩, ⟨3⟩⟩).map (fun effect => (effect.skill, effect.node)) := by
    decide +kernel
  have early : (warded.world.effect? ⟨⟨1⟩, ⟨2⟩⟩).map (·.definition) = some ward := rfl
  have late : (warded.world.effect? ⟨⟨1⟩, ⟨3⟩⟩).map (·.definition) = some ward := rfl
  rw [found, present] at origin
  rw [found] at early
  rw [present] at late
  have traits := Option.some.inj origin
  have definition := Option.some.inj late
  refine ⟨effect, other, found, present, live, lives, congrArg Prod.fst traits,
    congrArg Prod.snd traits, (Option.some.inj early).trans definition.symm, { limit := 3 },
    congrArg EffectDef.stacking definition, ?_⟩
  intro bySource
  cases bySource

/-- An entity can hold two live instances that belong on one stack: its curse, removed for a ward,
brings about a ward itself. -/
theorem ward_splits : ∃ past now, Session (fun request => request.isLawful = true)
      (World.create {} .empty) past now ∧ now.agenda = [] ∧
    ∃ first second effect other, first.target = second.target ∧ first ≠ second ∧
      now.world.effect? first = some effect ∧ now.world.effect? second = some other ∧
      effect.isLive = true ∧ other.isLive = true ∧ effect.Twins other := by
  obtain ⟨effect, other, found, present, live, lives, twins⟩ := twins_warded
  exact ⟨warding, warded, session_warded, List.isEmpty_iff.1 (by decide +kernel), ⟨⟨1⟩, ⟨2⟩⟩,
    ⟨⟨1⟩, ⟨3⟩⟩, effect, other, rfl, by decide, found, present, live, lives, twins⟩

/-- Of the two wards the earlier one has overtaken the application of the later one. -/
theorem ward_overtakes : (World.create {} .empty).Calm ∧
    Session (fun request => request.isLawful = true) (World.create {} .empty) warding warded ∧
    ∃ effect other, warded.world.effect? ⟨⟨1⟩, ⟨2⟩⟩ = some effect ∧
      warded.world.effect? ⟨⟨1⟩, ⟨3⟩⟩ = some other ∧ effect.isLive = true ∧
      other.isLive = true ∧ effect.Twins other ∧
      other.definition.tags.removeEffectsWithTags.isEmpty = false ∧
      ∃ state ∈ warding, ∃ application, application.skill = other.skill ∧
        application.node = other.node ∧ application.definition = other.definition ∧
        application.context.caster = other.source ∧
        state.Overtakes ⟨⟨1⟩, ⟨2⟩⟩ application := by
  have calm := World.calm_create {} .empty
  obtain ⟨effect, other, found, present, live, lives, twins⟩ := twins_warded
  have same : (⟨⟨1⟩, ⟨2⟩⟩ : EffectHandle).target = (⟨⟨1⟩, ⟨3⟩⟩ : EffectHandle).target := rfl
  have overtaken := twins_overtake calm session_warded same found present live lives twins
    (by decide)
  exact ⟨calm, session_warded, effect, other, found, present, live, lives, twins, overtaken⟩

end SkillEngine
