import SkillEngine.Proofs.Doses
import SkillEngine.Proofs.Piles
import SkillEngine.Proofs.Stacking

/-!
# Applications in a row

A plain dose is applied to one target again and again, with nothing in between. `World.Heaps` says
what there is after some applications; the next one begins a pile or raises one, and either way it
holds again. `applications_pile_up` says so of all of them: how many instances there are, on how
many stacks, which ports were fired and what is attached. All ongoing requirements on the target
have to be met at first. Otherwise the first new instance has effects removed, and those may take it
along: see `amulet_takes_sting`.
-/

namespace SkillEngine

/-- An instance after one more application: restacked, its tracked magnitudes renewed, with the cues
of the application taken along. -/
def Effect.raised (effect : Effect) (policy : StackingPolicy)
    (updates : List (Nat × AttributeId × Float32)) (cues : List CueId) : Effect :=
  ((effect.restack policy).renewed updates).cued cues

namespace Effect

variable {effect : Effect} {policy : StackingPolicy} {updates : List (Nat × AttributeId × Float32)}

/-- An effect that takes cues along attaches what it attached. -/
theorem attachments_cued (cues : List CueId) (effect : Effect) (attr : AttributeId) :
    (effect.cued cues).attachments attr = effect.attachments attr := by
  rw [cued_eq]
  rfl

/-- A raised instance is the restacked one but for its magnitudes and cues. -/
theorem raised_eq (effect : Effect) (policy : StackingPolicy)
    (updates : List (Nat × AttributeId × Float32)) (cues : List CueId) :
    effect.raised policy updates cues = { effect.restack policy with
      magnitudes := (effect.raised policy updates cues).magnitudes
      cues := (effect.raised policy updates cues).cues } := by
  unfold raised
  rw [cued_eq, renewed_eq]

/-- What is kept when a live instance is raised. -/
theorem becomes_raised (live : effect.isLive = true) (policy : StackingPolicy)
    (tracks : (effect.restack policy).Tracks updates) (cues : List CueId) :
    effect.Becomes (effect.raised policy updates cues) := by
  obtain ⟨retouches, _⟩ := Effect.retouches_restack live policy
  have renews := retouches.becomes.trans (.renewed tracks)
  unfold raised
  rw [cued_eq]
  exact renews.trans (.of_eq rfl rfl rfl rfl rfl rfl rfl rfl)

/-- A raised instance has one stack more, up to the limit. -/
theorem stackCount_raised (within : effect.stackCount ≤ policy.maxStacks)
    (updates : List (Nat × AttributeId × Float32)) (cues : List CueId) :
    (effect.raised policy updates cues).stackCount =
      min (effect.stackCount + 1) policy.maxStacks := by
  obtain ⟨_, grows, stays⟩ := effect.restack_cases policy
  have same :
      (effect.raised policy updates cues).stackCount = (effect.restack policy).stackCount := by
    rw [raised_eq]
  rw [same]
  by_cases below : effect.stackCount < policy.maxStacks
  · rw [grows below, Nat.min_eq_left below]
  · have full := Nat.le_of_not_lt below
    rw [(stays full).1]
    omega

/-- A live instance of a dose is stacked onto by those who share its pile. -/
theorem stacksWith_iff {dose : Dose} (live : effect.isLive = true)
    (skill : effect.skill = dose.skill)
    (node : effect.node = dose.node) (definition : effect.definition = dose.definition)
    (stacking : dose.definition.stacking = some policy) (caster : EntityId) :
    effect.stacksWith dose.skill dose.node dose.definition caster = true ↔
      policy.pile effect.source = policy.pile caster := by
  simp only [stacksWith, live, stacking, skill, node, definition, TagSet.beq_self, Bool.true_and,
    beq_self_eq_true, Bool.and_self, ite_self]
  unfold StackingPolicy.pile
  cases policy.kind with
  | aggregateByTarget => simp
  | aggregateBySource => simp

end Effect

/-- What there is after a dose was applied to a target by some casters: the target as it was, but
for the instances, which are piles of the applications and have fired the ports that they tell. -/
structure World.Heaps (world : World) (dose : Dose) (policy : StackingPolicy) (target : EntityId)
    (origin entity : Entity) (casters : List EntityId) (instances : List Effect)
    (fired : EffectHandle → List String) : Prop where
  /-- The loaded skills are such that the dose is plain. -/
  plain : dose.Plain world.library policy
  /-- The target is registered. -/
  registered : world.entity? target = some entity
  /-- Besides the live effects that it had there are the instances. -/
  live : entity.effects.live = origin.effects.live ++ instances
  /-- It has kept its tags. -/
  tags : entity.tags = origin.tags
  /-- It bears what the instances attach. -/
  bears : origin.Bears entity instances
  /-- The instances are of the dose. -/
  alike : ∀ effect ∈ instances,
    effect.skill = dose.skill ∧ effect.node = dose.node ∧ effect.definition = dose.definition
  /-- They are the piles of the applications. -/
  piled : Piled policy casters instances
  /-- They have fired their ports. -/
  tallied : Tallied policy casters target instances fired

namespace World.Heaps

variable {world : World} {dose : Dose} {policy : StackingPolicy} {target : EntityId}
  {origin entity : Entity} {casters : List EntityId} {instances : List Effect}
  {fired : EffectHandle → List String} {opening : Opening} {effect other : Effect}

/-- Nothing was applied. -/
theorem nil (plain : dose.Plain world.library policy)
    (registered : world.entity? target = some origin) :
    world.Heaps dose policy target origin origin [] [] fun _ => [] where
  plain := plain
  registered := registered
  live := (List.append_nil _).symm
  tags := rfl
  bears := .refl origin
  alike _ member := absurd member List.not_mem_nil
  piled := .nil policy
  tallied := .nil policy target

section

variable (heaps : world.Heaps dose policy target origin entity casters instances fired)

include heaps

/-- The instances are among what is live. -/
theorem mem_live (member : effect ∈ instances) : effect ∈ entity.effects.live :=
  heaps.live ▸ List.mem_append_right _ member

/-- Each of them is live. -/
theorem isLive (member : effect ∈ instances) : effect.isLive = true :=
  (List.mem_filter.1 (heaps.mem_live member)).2

/-- An instance is stacked onto by those who share its pile. -/
theorem stacksWith_iff (member : effect ∈ instances) (caster : EntityId) :
    effect.stacksWith dose.skill dose.node dose.definition caster = true ↔
      policy.pile effect.source = policy.pile caster := by
  obtain ⟨skill, node, definition⟩ := heaps.alike effect member
  exact effect.stacksWith_iff (heaps.isLive member) skill node definition heaps.plain.stacking
    caster

/-- Where no live effect of the target was one to stack onto, an application finds the instance of
its pile, or none if there is no such pile. -/
theorem findStackable? (unmatched : origin.effects.findStackable? dose.skill dose.node
      dose.definition opening.caster = none) :
    (entity.effects.findStackable? dose.skill dose.node dose.definition opening.caster = none ∧
      policy.pile opening.caster ∉ instances.map fun effect => policy.pile effect.source) ∨
    ∃ effect ∈ instances, policy.pile effect.source = policy.pile opening.caster ∧
      entity.effects.findStackable? dose.skill dose.node dose.definition opening.caster =
        some effect.id := by
  unfold EffectRoster.findStackable?
  rw [heaps.live, List.find?_append, Option.map_eq_none_iff.1 unmatched, Option.none_or]
  cases found :
    instances.find? (·.stacksWith dose.skill dose.node dose.definition opening.caster) with
  | none =>
    refine .inl ⟨rfl, fun member => ?_⟩
    obtain ⟨effect, listed, same⟩ := List.mem_map.1 member
    exact List.find?_eq_none.1 found effect listed ((heaps.stacksWith_iff listed _).2 same)
  | some effect =>
    have listed := List.mem_of_find?_eq_some found
    have fits : effect.stacksWith dose.skill dose.node dose.definition opening.caster = true := by
      simpa using List.find?_some found
    exact .inr ⟨effect, listed, (heaps.stacksWith_iff listed _).1 fits, rfl⟩

/-- An instance is found by its number. -/
theorem stored (sound : world.Sound) (member : effect ∈ instances) :
    entity.effects.get? effect.id = some effect :=
  (sound.rosters target entity heaps.registered).get?_eq
    (List.mem_filter.1 (heaps.mem_live member)).1

/-- No two instances have one number. -/
theorem alone (sound : world.Sound) (member : effect ∈ instances) (listed : other ∈ instances)
    (same : other.id = effect.id) : other = effect := by
  have placed := heaps.stored sound listed
  rw [same, heaps.stored sound member] at placed
  exact (Option.some.inj placed).symm

/-- The instance of a pile is told by its number. -/
theorem id_eq_iff (sound : world.Sound) (member : effect ∈ instances) (listed : other ∈ instances) :
    other.id = effect.id ↔ policy.pile other.source = policy.pile effect.source := by
  refine ⟨fun same => ?_, fun same => ?_⟩
  · rw [heaps.alone sound member listed same]
  · exact congrArg Effect.id (List.inj_on_of_nodup_map heaps.piled.apart listed member same)

/-- The numbers of the instances have been given. -/
theorem id_lt (sound : world.Sound) (member : effect ∈ instances) :
    effect.id.raw < world.nextEffect :=
  (sound.rosters target entity heaps.registered).below effect
    (List.mem_filter.1 (heaps.mem_live member)).1

/-- The instances came after the effects that there were. -/
theorem id_ne (sound : world.Sound) (before : other ∈ origin.effects.live)
    (member : effect ∈ instances) : other.id ≠ effect.id := by
  have ordered : entity.effects.live.Pairwise (·.id.raw < ·.id.raw) :=
    (sound.rosters target entity heaps.registered).ordered.filter _
  rw [heaps.live] at ordered
  intro same
  have less := (List.pairwise_append.1 ordered).2.2 other before effect member
  rw [same] at less
  exact Nat.lt_irrefl _ less

/-- All ongoing requirements stay met. -/
theorem enforced (met : origin.Enforced) : entity.Enforced := by
  intro effect member
  rw [heaps.tags]
  rw [heaps.live] at member
  rcases List.mem_append.1 member with before | listed
  · exact met effect before
  · rw [(heaps.alike effect listed).2.2, TagCounts.hasAll, heaps.plain.requiredOngoing]
    rfl

/-- An application that begins a pile. -/
theorem begin (sound : world.Sound) (met : origin.Enforced) (unmatched :
      entity.effects.findStackable? dose.skill dose.node dose.definition opening.caster = none)
    (absent : policy.pile opening.caster ∉ instances.map fun effect => policy.pile effect.source) :
    ∃ taken after form more, world.Takes [.perform (dose.request target opening)] taken after ∧
      after.Heaps dose policy target origin form (casters ++ [opening.caster]) more
        fun handle => fired handle ++ Frame.ports handle taken := by
  obtain ⟨taken, after, duration, cues, takes, alters, fires⟩ :=
    takes_begin sound heaps.plain heaps.registered (heaps.enforced met) opening unmatched
  have lives := live_newEffect sound heaps.registered
    (dose.within (world.openContext opening)) duration cues
  have source := world.caster_openContext opening
  generalize made :
    world.newEffect (dose.within (world.openContext opening)) target duration = effect
    at alters lives
  have library := alters.surroundings.1
  have fresh : ∀ other ∈ instances, other.id ≠ ⟨world.nextEffect⟩ := fun other listed same =>
    Nat.ne_of_lt (heaps.id_lt sound listed) (congrArg EffectId.raw same)
  have number : (effect.cued cues).id = ⟨world.nextEffect⟩ := by
    rw [Effect.id_cued, ← made]
    rfl
  have stems : (effect.cued cues).source = opening.caster := by
    rw [Effect.cued_eq, ← made]
    exact source
  have granted : effect.definition.tags.granted.tags = [] := by
    rw [← made]
    exact heaps.plain.granted
  refine ⟨taken, after, (entity.holding effect world.time).onEffects
    (·.modify ⟨world.nextEffect⟩ (·.cued cues)), instances ++ [effect.cued cues], takes, ?_⟩
  exact {
    plain := library ▸ heaps.plain
    registered := alters.self heaps.registered
    live := by rw [lives, heaps.live, List.append_assoc]
    tags := (Entity.tags_holding entity granted world.time).trans heaps.tags
    bears := heaps.bears.holding (effect.attachments_cued cues) world.time
    alike := fun other member => by
      rcases List.mem_append.1 member with before | last
      · exact heaps.alike other before
      · rw [List.mem_singleton.1 last, Effect.cued_eq, ← made]
        exact ⟨rfl, rfl, rfl⟩
    piled := heaps.piled.begin absent stems (by rw [Effect.cued_eq, ← made]; rfl)
    tallied := heaps.tallied.begin heaps.piled absent stems
      (fun other listed => number ▸ fresh other listed) fun handle => number ▸ fires handle }

/-- What is live after an instance was stacked onto and took cues along. -/
theorem live_restacking (sound : world.Sound) (member : effect ∈ instances)
    {updates : List (Nat × AttributeId × Float32)} (tracks : (effect.restack policy).Tracks updates)
    (cues : List CueId) : ((entity.restacking effect.id (effect.restack policy) updates).onEffects
      (·.modify effect.id (·.cued cues))).effects.live = origin.effects.live ++
        instances.map fun other => if other.id = effect.id
          then effect.raised policy updates cues else other := by
  have live := heaps.isLive member
  obtain ⟨retouches, _⟩ := Effect.retouches_restack live policy
  have number : ((effect.restack policy).renewed updates).id = effect.id :=
    (Effect.Becomes.renewed tracks).id.trans retouches.becomes.id
  have lives : ((effect.restack policy).renewed updates).isLive = effect.isLive := by
    rw [live, Effect.renewed_eq]
    rfl
  have replaced := EffectRoster.live_raised (sound.rosters target entity heaps.registered)
    (heaps.stored sound member) number lives cues
  rw [← Entity.effects_touching retouches.becomes.id, heaps.live, List.map_append] at replaced
  have spared : (origin.effects.live.map fun other => if other.id = effect.id
      then effect.raised policy updates cues else other) = origin.effects.live :=
    (List.map_congr_left fun other before => if_neg (heaps.id_ne sound before member)).trans
      (List.map_id _)
  exact replaced.trans (congrArg (· ++ _) spared)

/-- An application that raises a pile. -/
theorem raise (sound : world.Sound) (member : effect ∈ instances)
    (same : policy.pile effect.source = policy.pile opening.caster) (found :
      entity.effects.findStackable? dose.skill dose.node dose.definition opening.caster =
        some effect.id) :
    ∃ taken after form more, world.Takes [.perform (dose.request target opening)] taken after ∧
      after.Heaps dose policy target origin form (casters ++ [opening.caster]) more
        fun handle => fired handle ++ Frame.ports handle taken := by
  have stored := heaps.stored sound member
  have live := heaps.isLive member
  obtain ⟨skill, node, definition⟩ := heaps.alike effect member
  obtain ⟨taken, after, cues, updates, takes, tracks, alters, fires⟩ := takes_raise sound.standard
    heaps.plain heaps.registered opening found stored skill node definition
  have library := alters.surroundings.1
  have becomes := Effect.becomes_raised live policy tracks cues
  obtain ⟨retouches, _⟩ := Effect.retouches_restack live policy
  have number : (effect.raised policy updates cues).id = effect.id := becomes.id
  have alone : ∀ other ∈ instances, other.id = effect.id → other = effect :=
    fun other listed same => heaps.alone sound member listed same
  refine ⟨taken, after, (entity.restacking effect.id (effect.restack policy) updates).onEffects
    (·.modify effect.id (·.cued cues)), instances.map fun other => if other.id = effect.id
    then effect.raised policy updates cues else other, takes, ?_⟩
  have kept : ∀ other ∈ instances, Effect.Becomes other (if other.id = effect.id
      then effect.raised policy updates cues else other) := fun other listed => by
    split
    · next here => exact alone other listed here ▸ becomes
    · exact .refl other
  have here : ∀ other ∈ instances, other.id = effect.id ↔
      policy.pile other.source = policy.pile opening.caster := fun other listed =>
    same ▸ heaps.id_eq_iff sound member listed
  exact {
    plain := library ▸ heaps.plain
    registered := alters.self heaps.registered
    live := heaps.live_restacking sound member tracks cues
    tags := (Entity.tags_tracking _ _ _).trans heaps.tags
    bears := heaps.bears.restacking member alone retouches tracks number
      (Effect.attachments_cued cues _)
    alike := fun other listed => by
      obtain ⟨before, stored, rfl⟩ := List.mem_map.1 listed
      have stays := kept before stored
      rw [stays.skill, stays.node, stays.definition]
      exact heaps.alike before stored
    piled := by
      refine heaps.piled.raise (same ▸ List.mem_map_of_mem member)
        (fun other listed => (kept other listed).source) (fun other listed pile => ?_)
        fun other listed apart => ?_
      · have number := (here other listed).2 pile
        rw [if_pos number, alone other listed number]
        refine Effect.stackCount_raised ?_ updates cues
        rw [heaps.piled.counts effect member]
        exact Nat.min_le_right _ _
      · rw [if_neg fun number => apart ((here other listed).1 number)]
    tallied := heaps.tallied.raise heaps.piled member here
      (fun other listed => (kept other listed).id)
      (fun other listed => (kept other listed).source) fires }

/-- An application begins a pile or raises one. -/
theorem applied (sound : world.Sound) (met : origin.Enforced) (unmatched :
      origin.effects.findStackable? dose.skill dose.node dose.definition opening.caster = none) :
    ∃ taken after form more, world.Takes [.perform (dose.request target opening)] taken after ∧
      after.Heaps dose policy target origin form (casters ++ [opening.caster]) more
        fun handle => fired handle ++ Frame.ports handle taken := by
  rcases heaps.findStackable? unmatched with ⟨none, absent⟩ | ⟨effect, member, same, found⟩
  · exact heaps.begin sound met none absent
  · exact heaps.raise sound member same found

end

end World.Heaps

/-- What the applications of a dose by some casters, one after the other, have made of a target,
with the states gone through: some instances have joined the effects that were live there. -/
structure Dose.PilesUp (dose : Dose) (policy : StackingPolicy) (target : EntityId)
    (casters : List EntityId) (states : List Cascade) (origin entity : Entity)
    (instances : List Effect) : Prop where
  /-- Besides the live effects that the target had there are the instances. -/
  live : entity.effects.live = origin.effects.live ++ instances
  /-- They are of the dose. -/
  alike : ∀ effect ∈ instances,
    effect.skill = dose.skill ∧ effect.node = dose.node ∧ effect.definition = dose.definition
  /-- Where stacks are kept by target, there is one, with a stack for each application up to the
  limit. -/
  byTarget : policy.kind = .aggregateByTarget → ∃ effect, instances = [effect] ∧
    effect.stackCount = min casters.length policy.maxStacks
  /-- Where they are kept by source, there is one for each caster, with a stack for each application
  of that caster up to the limit. -/
  bySource : policy.kind = .aggregateBySource → (instances.map (·.source)).Nodup ∧
    (∀ caster, caster ∈ instances.map (·.source) ↔ caster ∈ casters) ∧
    ∀ effect ∈ instances,
      effect.stackCount = min (casters.count effect.source) policy.maxStacks
  /-- The first port was fired once for each instance. -/
  initial : ∀ effect ∈ instances,
    (Cascade.fired ⟨target, effect.id⟩ states).count EffectPort.initial.name = 1
  /-- Where overflow is allowed, the overflow port was fired for each application beyond the
  limit. -/
  overflow : policy.overflow = .allowOverflowEffect → ∀ effect ∈ instances,
    (Cascade.fired ⟨target, effect.id⟩ states).count EffectPort.overflow.name =
      policy.share casters effect.source - min (policy.share casters effect.source) policy.maxStacks
  /-- Where applications beyond the limit are denied, it was not fired. -/
  denied : policy.overflow = .denyApplication → ∀ handle,
    EffectPort.overflow.name ∉ Cascade.fired handle states
  /-- No ports of other effects were fired. -/
  elsewhere : ∀ handle : EffectHandle, (∀ effect ∈ instances, handle ≠ ⟨target, effect.id⟩) →
    Cascade.fired handle states = []
  /-- What the instances attach was added to what the target bore. -/
  bears : origin.Bears entity instances
  /-- It all carries the stack count of its instance. -/
  carries : ∀ effect ∈ instances, ∀ id attr, entity.attributes.get? id = some attr →
    ∀ attachment ∈ effect.attachments id,
      attachment ∈ attr.attachments ∧ attachment.stackCount = effect.stackCount

/-- What is said of heaps, pile by pile, is what is to be said of the applications. -/
theorem World.Heaps.pilesUp {world : World} {dose : Dose} {policy : StackingPolicy}
    {target : EntityId} {origin entity : Entity} {casters : List EntityId} {instances : List Effect}
    {states : List Cascade} (heaps : world.Heaps dose policy target origin entity casters instances
      fun handle => Cascade.fired handle states) (some : casters ≠ []) :
    dose.PilesUp policy target casters states origin entity instances where
  live := heaps.live
  alike := heaps.alike
  byTarget kind := by
    obtain ⟨effect, rfl⟩ := heaps.piled.of_byTarget kind some
    refine ⟨effect, rfl, ?_⟩
    rw [heaps.piled.counts effect List.mem_cons_self, StackingPolicy.share, kind]
  bySource kind := by
    obtain ⟨apart, sources⟩ := heaps.piled.of_bySource kind
    refine ⟨apart, sources, fun effect member => ?_⟩
    rw [heaps.piled.counts effect member, StackingPolicy.share, kind]
  initial := heaps.tallied.initial
  overflow allows effect member := by
    rw [heaps.tallied.overflow effect member, StackingPolicy.overflows, allows]
  denied denies handle fires := by
    by_cases listed : ∃ effect ∈ instances, handle = ⟨target, effect.id⟩
    · obtain ⟨effect, member, rfl⟩ := listed
      have none := heaps.tallied.overflow effect member
      rw [StackingPolicy.overflows, denies] at none
      exact List.count_eq_zero.1 none fires
    · have silent := heaps.tallied.elsewhere handle fun effect member same =>
        listed ⟨effect, member, same⟩
      rw [silent] at fires
      exact List.not_mem_nil fires
  elsewhere := heaps.tallied.elsewhere
  bears := heaps.bears
  carries effect member id attr found attachment attaches := by
    obtain ⟨_, _, _, _, attached⟩ := heaps.bears id attr found
    refine ⟨?_, (Effect.of_mem_attachments attaches).2⟩
    rw [attached]
    exact List.mem_append_right _ (List.mem_flatMap.2 ⟨effect, member, attaches⟩)

/-- Applications in turn leave heaps, each of them finished within any bound that is large
enough. -/
theorem Session.heaps {start : World} (calm : start.Calm) {past : List Cascade} {now : Cascade}
    (session : Session (fun request => request.isLawful = true) start past now)
    (done : now.agenda = []) {dose : Dose} {policy : StackingPolicy} {target : EntityId}
    {origin entity : Entity} {casters : List EntityId} {instances : List Effect}
    {fired : EffectHandle → List String}
    (heaps : now.world.Heaps dose policy target origin entity casters instances fired)
    (met : origin.Enforced) {openings : List Opening} (unmatched : ∀ opening ∈ openings,
      origin.effects.findStackable? dose.skill dose.node dose.definition opening.caster = none) :
    ∃ least, ∀ bound, least ≤ bound →
      now.keepsEach bound (openings.map (dose.request target)) = true ∧
      (now.afterEach bound (openings.map (dose.request target))).agenda = [] ∧
      ∃ form more,
        (now.afterEach bound (openings.map (dose.request target))).world.Heaps dose policy
          target origin form (casters ++ openings.map (·.caster)) more fun handle => fired handle ++
            Cascade.fired handle (now.duringEach bound (openings.map (dose.request target))) := by
  induction openings generalizing past now entity casters instances fired with
  | nil =>
    refine ⟨0, fun bound _ => ⟨rfl, done, entity, instances, ?_⟩⟩
    simpa [Cascade.afterEach, Cascade.duringEach, Cascade.fired] using heaps
  | cons opening rest ih =>
    obtain ⟨taken, after, form, more, takes, held⟩ :=
      heaps.applied (session.sound calm fun _ lawful => lawful) met
        (unmatched opening List.mem_cons_self)
    obtain ⟨keeps, reached, agenda, _⟩ := takes.perform (Nat.le_refl _)
    have lawful : (dose.request target opening).isLawful = true := rfl
    have asked := (session.asked done lawful).run taken.length keeps
    obtain ⟨least, onward⟩ := ih asked agenda (reached ▸ held) fun other member =>
      unmatched other (List.mem_cons_of_mem _ member)
    refine ⟨max taken.length least, fun bound enough => ?_⟩
    have within := Nat.le_trans (Nat.le_max_left _ _) enough
    obtain ⟨kept, finished, form, more, piles⟩ :=
      onward bound (Nat.le_trans (Nat.le_max_right _ _) enough)
    obtain ⟨keeps, _, _, fires⟩ := takes.perform within
    rw [← Cascade.run_of_le (List.isEmpty_iff.2 agenda) within] at kept finished piles
    refine ⟨?_, finished, form, more, ?_⟩
    · rw [List.map_cons, Cascade.keepsEach, keeps, kept, Cascade.isDone, done]
      rfl
    · simp only [List.map_cons, Cascade.fired_duringEach_cons done, fires, List.append_assoc,
        List.cons_append, List.nil_append] at piles ⊢
      exact piles

/-- A plain dose that is applied to a target again and again, with nothing in between, piles up
there, if no live effect of the target was one to stack onto and all their ongoing requirements were
met. -/
theorem applications_pile_up {start : World} (calm : start.Calm) {past : List Cascade}
    {now : Cascade} (session : Session (fun request => request.isLawful = true) start past now)
    (done : now.agenda = []) {dose : Dose} {policy : StackingPolicy}
    (plain : dose.Plain now.world.library policy) {target : EntityId} {origin : Entity}
    (registered : now.world.entity? target = some origin) (met : origin.Enforced)
    {openings : List Opening} (several : openings ≠ []) (unmatched : ∀ opening ∈ openings,
      origin.effects.findStackable? dose.skill dose.node dose.definition opening.caster = none) :
    ∃ least, ∀ bound, least ≤ bound →
      now.keepsEach bound (openings.map (dose.request target)) = true ∧
      (now.afterEach bound (openings.map (dose.request target))).agenda = [] ∧
      ∃ entity instances,
        (now.afterEach bound (openings.map (dose.request target))).world.entity? target =
          some entity ∧
        dose.PilesUp policy target (openings.map (·.caster))
          (now.duringEach bound (openings.map (dose.request target))) origin entity instances := by
  obtain ⟨least, onward⟩ := session.heaps calm done (.nil plain registered) met unmatched
  refine ⟨least, fun bound enough => ?_⟩
  obtain ⟨kept, finished, entity, instances, heaps⟩ := onward bound enough
  have casters : openings.map (·.caster) ≠ [] := mt List.map_eq_nil_iff.1 several
  exact ⟨kept, finished, entity, instances, heaps.registered, heaps.pilesUp casters⟩

/-- How stings stack: by source, two at most, and more of them overflow. -/
def swarm : StackingPolicy where
  kind := .aggregateBySource
  limit := 2
  overflow := .allowOverflowEffect

/-- Stings. -/
def sting : EffectDef where
  durationType := .infinite
  tags := { asset := .ofPaths ["Sting"] }
  stacking := some swarm

/-- An amulet that lasts as long as its bearer is pure. -/
def amulet : EffectDef where
  durationType := .infinite
  tags := { requiredOngoing := .ofPaths ["Pure"] }

/-- A skill with an amulet and stings; an amulet that is removed takes the stings along. -/
def jewelry : SkillGraph where
  id := ⟨1⟩
  nodes := [{ id := ⟨1⟩, kind := .effect amulet }, { id := ⟨2⟩, kind := .effect sting },
    { id := ⟨3⟩, kind := .task (.removeEffectsWithTags (.ofPaths ["Sting"])) }]
  connections := [{ source := ⟨1⟩, sourcePort := "removed", target := ⟨3⟩ }]

/-- What the stings are applied from. -/
def stinging : Dose := ⟨⟨1⟩, ⟨2⟩, sting⟩

/-- A pure entity receives an amulet, and something more happens. -/
def adornRequests (further : List Request) : List Request :=
  [.library (.ok (.insert jewelry)), .spawn ⟨1⟩, .addTag ⟨1⟩ (.ofPath "Pure"),
    .activate ⟨1⟩ ⟨1⟩ { caster := ⟨1⟩, edits := [.target ⟨1⟩] }] ++ further

/-- The state that is reached. -/
def adorned (further : List Request) : Cascade :=
  Cascade.afterEach 40 { world := World.create {} .empty, agenda := [] } (adornRequests further)

/-- Stings are plain where their ports lead nowhere. -/
theorem plain_stinging {library : SkillLibrary}
    (nowhere : ∀ port : EffectPort, (library.connected ⟨1⟩ ⟨2⟩ port.name).isEmpty = true) :
    stinging.Plain library swarm where
  stacking := rfl
  lasts := .inl rfl
  granted := rfl
  requiredToApply := rfl
  immunity := rfl
  requiredOngoing := rfl
  removeEffectsWithTags := rfl
  cues port next member := by
    have none : library.connected ⟨1⟩ ⟨2⟩ port.name = [] := List.isEmpty_iff.1 (nowhere port)
    exact absurd (none ▸ member) List.not_mem_nil

/-- That state is reached in a session. -/
theorem session_adorned (further : List Request)
    (kept : Cascade.keepsEach 40 { world := World.create {} .empty, agenda := [] }
      (adornRequests further) = true)
    (lawful : ∀ request ∈ further, request.isLawful = true) :
    ∃ past, Session (fun request => request.isLawful = true) (World.create {} .empty) past
      (adorned further) := by
  exact ⟨_, .ofRequests 40 _ (List.forall_mem_append.2 ⟨by decide +kernel, lawful⟩) kept⟩

/-- Some casters in turn. -/
def stingers (casters : List UInt32) : List Opening :=
  casters.map fun caster => { caster := ⟨caster⟩ }

/-- Two casters sting a pure entity with an amulet, one of them three times and the other once. -/
theorem stings_pile_up : (World.create {} .empty).Calm ∧ ∃ past origin,
    Session (fun request => request.isLawful = true) (World.create {} .empty) past (adorned []) ∧
      (adorned []).agenda = [] ∧ stinging.Plain (adorned []).world.library swarm ∧
      (adorned []).world.entity? ⟨1⟩ = some origin ∧ origin.Enforced ∧ stingers [1, 1, 2, 1] ≠ [] ∧
      (∀ opening ∈ stingers [1, 1, 2, 1],
        origin.effects.findStackable? ⟨1⟩ ⟨2⟩ sting opening.caster = none) ∧
      ∃ least, ∀ bound, least ≤ bound →
        (adorned []).keepsEach bound ((stingers [1, 1, 2, 1]).map (stinging.request ⟨1⟩)) = true ∧
        ((adorned []).afterEach bound
          ((stingers [1, 1, 2, 1]).map (stinging.request ⟨1⟩))).agenda = [] ∧
        ∃ entity instances,
          ((adorned []).afterEach bound
            ((stingers [1, 1, 2, 1]).map (stinging.request ⟨1⟩))).world.entity? ⟨1⟩ = some entity ∧
          stinging.PilesUp swarm ⟨1⟩ [⟨1⟩, ⟨1⟩, ⟨2⟩, ⟨1⟩]
            ((adorned []).duringEach bound
              ((stingers [1, 1, 2, 1]).map (stinging.request ⟨1⟩))) origin entity instances := by
  have calm := World.calm_create {} .empty
  obtain ⟨past, session⟩ := session_adorned [] (by decide +kernel) (by decide)
  have idle : (adorned []).isDone = true := by decide +kernel
  have plain : stinging.Plain (adorned []).world.library swarm :=
    plain_stinging fun port => by cases port <;> decide +kernel
  have fits : ((adorned []).world.entity? ⟨1⟩).any (fun origin =>
      origin.effects.live.all (fun effect =>
        origin.tags.hasAll effect.definition.tags.requiredOngoing) &&
      (stingers [1, 1, 2, 1]).all fun opening =>
        origin.effects.findStackable? ⟨1⟩ ⟨2⟩ sting opening.caster == none) = true := by
    decide +kernel
  obtain ⟨origin, registered, fits⟩ := (Option.any_eq_true _ _).1 fits
  obtain ⟨met, unmatched⟩ := Bool.and_eq_true_iff.1 fits
  have enforced : origin.Enforced := List.all_eq_true.1 met
  have apart : ∀ opening ∈ stingers [1, 1, 2, 1],
      origin.effects.findStackable? ⟨1⟩ ⟨2⟩ sting opening.caster = none :=
    fun opening member => eq_of_beq (List.all_eq_true.1 unmatched opening member)
  exact ⟨calm, past, origin, session, List.isEmpty_iff.1 idle, plain, registered, enforced,
    List.cons_ne_nil _ _, apart, applications_pile_up calm session (List.isEmpty_iff.1 idle) plain
      registered enforced (List.cons_ne_nil _ _) apart⟩

/-- The entity is no longer pure, and no re-check has seen to its amulet yet. -/
def tainting : List Request := [.tags ⟨1⟩ (.ok (.remove (.ofPath "Pure")))]

/-- An ongoing requirement that is unmet when the applications begin can spoil them: the first sting
has the amulet removed, which takes the sting along, so that the second one begins anew. -/
theorem amulet_takes_sting : ∃ past origin,
    Session (fun request => request.isLawful = true) (World.create {} .empty) past
        (adorned tainting) ∧
      (adorned tainting).agenda = [] ∧ stinging.Plain (adorned tainting).world.library swarm ∧
      (adorned tainting).world.entity? ⟨1⟩ = some origin ∧
      (∀ opening ∈ stingers [1, 1],
        origin.effects.findStackable? ⟨1⟩ ⟨2⟩ sting opening.caster = none) ∧
      (adorned tainting).keepsEach 40 ((stingers [1, 1]).map (stinging.request ⟨1⟩)) = true ∧
      ((adorned tainting).afterEach 40
        ((stingers [1, 1]).map (stinging.request ⟨1⟩))).agenda = [] ∧
      ∃ entity effect, ((adorned tainting).afterEach 40
          ((stingers [1, 1]).map (stinging.request ⟨1⟩))).world.entity? ⟨1⟩ = some entity ∧
        entity.effects.live = [effect] ∧ effect.skill = ⟨1⟩ ∧ effect.node = ⟨2⟩ ∧
        effect.source = ⟨1⟩ ∧ effect.stackCount ≠ min 2 swarm.maxStacks := by
  obtain ⟨past, session⟩ := session_adorned tainting (by decide +kernel) (by decide +kernel)
  have idle : (adorned tainting).isDone = true := by decide +kernel
  have plain : stinging.Plain (adorned tainting).world.library swarm :=
    plain_stinging fun port => by cases port <;> decide +kernel
  have fits : ((adorned tainting).world.entity? ⟨1⟩).any (fun origin =>
      (stingers [1, 1]).all fun opening =>
        origin.effects.findStackable? ⟨1⟩ ⟨2⟩ sting opening.caster == none) = true := by
    decide +kernel
  obtain ⟨origin, registered, unmatched⟩ := (Option.any_eq_true _ _).1 fits
  have apart : ∀ opening ∈ stingers [1, 1],
      origin.effects.findStackable? ⟨1⟩ ⟨2⟩ sting opening.caster = none :=
    fun opening member => eq_of_beq (List.all_eq_true.1 unmatched opening member)
  have finished : ((adorned tainting).afterEach 40
      ((stingers [1, 1]).map (stinging.request ⟨1⟩))).isDone = true := by decide +kernel
  have stung : (((adorned tainting).afterEach 40
      ((stingers [1, 1]).map (stinging.request ⟨1⟩))).world.entity? ⟨1⟩).any (fun entity =>
        entity.effects.live.length == 1 && entity.effects.live.all fun effect =>
          effect.skill == ⟨1⟩ && effect.node == ⟨2⟩ && effect.source == ⟨1⟩ &&
            effect.stackCount != min 2 swarm.maxStacks) = true := by
    decide +kernel
  obtain ⟨entity, present, stung⟩ := (Option.any_eq_true _ _).1 stung
  obtain ⟨one, all⟩ := Bool.and_eq_true_iff.1 stung
  obtain ⟨effect, alone⟩ := List.length_eq_one_iff.1 (eq_of_beq one)
  have facts := List.all_eq_true.1 all effect (alone ▸ List.mem_cons_self)
  simp only [Bool.and_eq_true, beq_iff_eq, bne_iff_ne] at facts
  exact ⟨past, origin, session, List.isEmpty_iff.1 idle, plain, registered, apart,
    by decide +kernel, List.isEmpty_iff.1 finished, entity, effect, present, alone, facts.1.1.1,
    facts.1.1.2, facts.1.2, facts.2⟩

end SkillEngine
