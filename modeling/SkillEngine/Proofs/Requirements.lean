import SkillEngine.Proofs.Gates

/-!
# Ongoing requirements are enforced throughout a session

Wherever a live effect's ongoing requirement does not hold, something that remains to be done sees
to it: a re-check of its target, its own removal, or a drain that its target waits for. Only a host
that edits held tags directly leaves nobody to see to them, until the next drain. So when nothing
remains, and when a tick or an activation is about to begin, every requirement holds.
-/

namespace SkillEngine

/-- The live effect of a number has an ongoing requirement that does not hold. -/
def Entity.Unmet (entity : Entity) (key : EffectId) : Prop :=
  ∃ effect, entity.effects.get? key = some effect ∧ effect.isLive = true ∧
    entity.tags.hasAll effect.definition.tags.requiredOngoing = false

/-- The ongoing requirements of all live effects hold. -/
def Entity.Enforced (entity : Entity) : Prop :=
  ∀ effect ∈ entity.effects.live,
    entity.tags.hasAll effect.definition.tags.requiredOngoing = true

/-- What does not hold later, with all matches kept, did not hold before. -/
theorem Entity.Unmet.earlier {before after : Entity} {next : Nat} {owner : EntityId}
    {key : EffectId} (unmet : after.Unmet key) (sound : before.effects.Sound next owner)
    (follows : before.effects.Follows after.effects) (keeps : before.tags.Keeps after.tags) :
    before.Unmet key := by
  obtain ⟨effect, stored, live, fails⟩ := unmet
  obtain ⟨earlier, was, becomes⟩ := follows.get? sound stored
  have attached := sound.attached earlier (EffectRoster.mem_of_get? was).1
  refine ⟨earlier, was, becomes.isLive attached live, ?_⟩
  cases held : before.tags.hasAll earlier.definition.tags.requiredOngoing with
  | false => rfl
  | true =>
    rw [becomes.definition, keeps.hasAll held] at fails
    cases fails

/-- Taking hold leaves alone who listens. -/
theorem Entity.listeners_holding (entity : Entity) (effect : Effect) (appliedAt : Float) :
    (entity.holding effect appliedAt).tags.listeners = entity.tags.listeners :=
  TagCounts.listeners_addEach _ _

/-- Requests that nodes make leave the engine listening. -/
theorem Frame.Admitted.keepsWatch {request : Request}
    (admitted : (Frame.perform request).Admitted fun request => request.keepsWatch = true) :
    request.keepsWatch = true := by
  rcases admitted with keeps | nested
  · exact keeps
  · cases request <;> first | rfl | cases nested

namespace World

variable {world after : World} {frame : Frame} {id : EntityId} {change : Entity → Entity}
  {handle : EffectHandle}

/-- The engine listens to the tags of every registered entity. -/
def Watched (world : World) : Prop :=
  ∀ id entity, world.entity? id = some entity → entity.tags.Watched

/-- The live effect at a place has an ongoing requirement that does not hold. -/
def Unmet (world : World) (handle : EffectHandle) : Prop :=
  ∃ entity, world.entity? handle.target = some entity ∧ entity.Unmet handle.id

/-- Every ongoing requirement of every live effect holds. -/
def Enforced (world : World) : Prop :=
  ∀ id entity, world.entity? id = some entity → entity.Enforced

/-- Where nothing is unmet, every requirement holds. -/
theorem Sound.enforced (sound : world.Sound) {entity : Entity}
    (registered : world.entity? id = some entity) (met : ∀ key, ¬world.Unmet ⟨id, key⟩) :
    entity.Enforced := by
  intro effect live
  obtain ⟨stored, alive⟩ := List.mem_filter.1 live
  cases held : entity.tags.hasAll effect.definition.tags.requiredOngoing with
  | true => rfl
  | false =>
    have found := (sound.rosters _ _ registered).get?_eq stored
    exact absurd ⟨entity, registered, effect, found, alive, held⟩ (met effect.id)

/-- A re-check removes every effect whose requirement is unmet. -/
theorem finish_mem_enforce (unmet : world.Unmet handle) :
    .finish handle .removed true ∈ (world.enforce handle.target).frames := by
  obtain ⟨entity, registered, effect, stored, live, fails⟩ := unmet
  obtain ⟨member, same⟩ := EffectRoster.mem_of_get? stored
  have required : effect.definition.tags.requiredOngoing.isEmpty = false := by
    cases empty : effect.definition.tags.requiredOngoing.isEmpty with
    | false => rfl
    | true =>
      rw [TagCounts.hasAll, List.isEmpty_iff.1 empty] at fails
      cases fails
  have violating : handle.id ∈ entity.effects.violating entity.tags.hasAll := by
    refine List.mem_map.2 ⟨effect, List.mem_filter.2 ⟨List.mem_filter.2 ⟨member, live⟩, ?_⟩, same⟩
    simp [required, fails]
  unfold enforce
  rw [registered]
  exact List.mem_map.2 ⟨handle.id, violating, rfl⟩

/-- A drain re-checks every entity whose tags changed. -/
theorem enforce_mem_drain (waits : id ∈ world.tagChanges) :
    .enforce id ∈ world.drain.frames := by
  have changed := mem_changedEntities.2 waits
  unfold drain
  split
  · next none =>
    rw [none] at changed
    cases changed
  · exact List.mem_append_left _ (List.mem_map.2 ⟨id, changed, rfl⟩)

/-- The end of a live effect has its target re-checked. -/
theorem enforce_mem_finish {effect : Effect} (found : world.effect? handle = some effect)
    (live : effect.isLive = true) (state : EffectState) (fires : Bool) :
    .enforce handle.target ∈ (world.finish handle state fires).frames := by
  rw [finish_of_live found live]
  exact List.mem_append_right _ List.mem_cons_self

/-- An effect that was ended is not live. -/
theorem not_unmet_finish (sound : world.Sound) {state : EffectState} {fires : Bool}
    (final : state.isTerminal = true) :
    ¬(world.finish handle state fires).world.Unmet handle := by
  rintro ⟨entity, registered, effect, stored, live, _⟩
  have ended := sound.isLive_finish handle final fires
  rw [isLive_eq ((effect?_eq registered).trans stored)] at ended
  cases ended.symm.trans live

/-- What a deed does to the tags: who listens stays, and no match ends without a re-check. -/
theorem Deed.keepsTags (deed : world.Deed frame id change) (reply : Reply) (entity : Entity) :
    (change entity).tags.listeners = entity.tags.listeners ∧
      (entity.tags.Keeps (change entity).tags ∨
        .enforce id ∈ (frame.expand world reply).frames) := by
  cases deed with
  | still | begin | finish | sheet => exact ⟨rfl, .inl (.refl _)⟩
  | touch | restack =>
    have same : ∀ touched key updates, (entity.touching key touched updates).tags = entity.tags :=
      fun _ _ _ => Entity.tags_tracking _ _ _
    exact ⟨congrArg TagCounts.listeners (same _ _ _),
      .inl (TagCounts.Keeps.of_subset fun tag held => (same _ _ _).symm ▸ held)⟩
  | release found live =>
    exact ⟨TagCounts.listeners_removeEach _ _, .inr (enforce_mem_finish found live _ _)⟩
  | write revalues =>
    rw [(revalues entity).tags]
    exact ⟨rfl, .inl (.refl _)⟩

/-- The engine goes on listening to every registered entity. -/
theorem Turn.watched (turn : world.Turn frame after)
    (admitted : frame.Admitted fun request => request.keepsWatch = true) (watched : world.Watched) :
    after.Watched := by
  intro id entity found
  cases turn with
  | quiet quiet =>
    exact watched id entity ((congrArg (Registry.entity? · id) quiet.registry).symm.trans found)
  | drain => exact watched id entity found
  | alter alters deed =>
    obtain ⟨earlier, stored, rfl⟩ := alters.origin found
    split
    · unfold TagCounts.Watched
      rw [(deed.keepsTags .nothing earlier).1]
      exact watched id earlier stored
    · exact watched id earlier stored
  | @retag request _ _ _ _ registered alters heard =>
    obtain ⟨earlier, stored, rfl⟩ := alters.origin found
    split
    · exact (heard admitted.keepsWatch (watched _ _ registered)).1
    · exact watched id earlier stored
  | hold alters =>
    obtain ⟨earlier, stored, rfl⟩ := alters.origin found
    split
    · unfold TagCounts.Watched
      rw [Entity.listeners_holding]
      exact watched id earlier stored
    · exact watched id earlier stored
  | regroup regroups =>
    rcases regroups.entity? id entity found with before | ⟨_, _, _, joined⟩
    · exact watched id entity before
    · exact joined.watched

/-- Tag changes that wait go on waiting, unless they are drained. -/
theorem Turn.waits (turn : world.Turn frame after) (busy : frame ≠ .drain)
    (waits : id ∈ world.tagChanges) : id ∈ after.tagChanges := by
  cases turn with
  | quiet quiet => rwa [quiet.tagChanges]
  | drain => exact absurd rfl busy
  | alter alters | retag _ alters | hold alters =>
    obtain ⟨count, queued⟩ := alters.queued
    rw [queued]
    exact List.mem_append_left _ waits
  | regroup regroups => rwa [regroups.tagChanges]

/-- A requirement that is unmet after a turn was unmet before, or is about to be re-checked; after
an edit of the held tags alone it just waits. -/
theorem Turn.unmet (sound : world.Sound) {reply : Reply}
    (turn : world.Turn frame (frame.expand world reply).world)
    (admitted : frame.Admitted fun request => request.keepsWatch = true) (watched : world.Watched)
    (unmet : (frame.expand world reply).world.Unmet handle) : world.Unmet handle ∨
      .enforce handle.target ∈ (frame.expand world reply).frames ∨
      handle.target ∈ (frame.expand world reply).world.tagChanges ∧
        (.drain ∈ (frame.expand world reply).frames ∨
          ∃ request : Request, frame = .perform request ∧ request.Edits handle.target) := by
  obtain ⟨entity, found, fails⟩ := unmet
  generalize reached : (frame.expand world reply).world = after at turn found
  cases turn with
  | quiet quiet =>
    exact .inl ⟨entity, (congrArg (Registry.entity? · _) quiet.registry).symm.trans found, fails⟩
  | drain => exact .inl ⟨entity, found, fails⟩
  | alter alters deed =>
    obtain ⟨earlier, stored, rfl⟩ := alters.origin found
    split at fails
    · next same =>
      subst same
      obtain ⟨_, follows, _⟩ := deed.keeps sound admitted stored
      rcases (deed.keepsTags reply earlier).2 with keeps | rechecked
      · exact .inl ⟨earlier, stored, fails.earlier (sound.rosters _ _ stored) follows keeps⟩
      · exact .inr (.inl rechecked)
    · exact .inl ⟨earlier, stored, fails⟩
  | @retag request _ _ _ _ registered alters heard =>
    obtain ⟨earlier, stored, rfl⟩ := alters.origin found
    split at fails
    · next same =>
      subst same
      cases stored.symm.trans registered
      rcases (heard admitted.keepsWatch (watched _ _ registered)).2 with kept | ⟨waits, seen⟩
      · exact .inl ⟨_, registered, fails.earlier (sound.rosters _ _ registered) (.refl _) kept⟩
      · exact .inr (.inr ⟨waits, seen.imp_right fun edits => ⟨request, rfl, edits⟩⟩)
    · exact .inl ⟨earlier, stored, fails⟩
  | @hold application target duration _ alters =>
    obtain ⟨earlier, stored, changed⟩ := alters.origin found
    have keeps : earlier.tags.Keeps entity.tags := by
      rw [changed]
      split
      · exact TagCounts.keeps_addEach earlier.tags _
      · exact .refl _
    obtain ⟨effect, placed, live, fails⟩ := fails
    rcases effect?_hold sound alters ((effect?_eq found).trans placed) with before | ⟨same, _⟩
    · refine .inl ⟨earlier, stored, effect, (effect?_eq stored).symm.trans before, live, ?_⟩
      cases held : earlier.tags.hasAll effect.definition.tags.requiredOngoing with
      | false => rfl
      | true => cases (keeps.hasAll held).symm.trans fails
    · refine .inr (.inl ?_)
      rw [same]
      simp [Frame.expand, attach, Progress.told]
  | regroup regroups =>
    rcases regroups.entity? _ entity found with before | ⟨newcomer, origin, _, joined⟩
    · exact .inl ⟨entity, before, fails⟩
    · have blank : newcomer.effects = .empty := origin.elim (sound.waiting newcomer) (·.effects)
      obtain ⟨effect, placed, _⟩ := fails
      rw [joined.effects, blank] at placed
      cases placed

end World

/-- A host has edited the held tags of an entity directly, and no drain has begun since. -/
def EditWaits (past : List Cascade) (id : EntityId) : Prop :=
  ∃ before edit since, past = before ++ edit :: since ∧
    (∃ request rest, edit.agenda = .perform request :: rest ∧ request.Edits id) ∧
    ∀ later ∈ since, ∀ rest, later.agenda ≠ .drain :: rest

/-- An edit waits on while nothing is drained. -/
theorem EditWaits.append {past : List Cascade} {now : Cascade} {id : EntityId}
    (waits : EditWaits past id) (busy : ∀ rest, now.agenda ≠ .drain :: rest) :
    EditWaits (past ++ [now]) id := by
  obtain ⟨before, edit, since, rfl, edits, none⟩ := waits
  refine ⟨before, edit, since ++ [now], by simp, edits, fun later member => ?_⟩
  rcases List.mem_append.1 member with earlier | last
  · exact none later earlier
  · rw [List.mem_singleton.1 last]
    exact busy

/-- An edit that is about to be made waits from then on. -/
theorem EditWaits.last {past : List Cascade} {now : Cascade} {request : Request} {rest : List Frame}
    {id : EntityId} (next : now.agenda = .perform request :: rest) (edits : request.Edits id) :
    EditWaits (past ++ [now]) id :=
  ⟨past, now, [], rfl, ⟨request, rest, next, edits⟩, fun _ member => by cases member⟩

/-- An unmet requirement is seen to by what remains to be done, or its target waits after an
edit. -/
def Cascade.SeesTo (past : List Cascade) (now : Cascade) (handle : EffectHandle) : Prop :=
  .enforce handle.target ∈ now.agenda ∨ .finish handle .removed true ∈ now.agenda ∨
    handle.target ∈ now.world.tagChanges ∧ (.drain ∈ now.agenda ∨ EditWaits past handle.target)

/-- The request leaves effects to the engine and lets it listen to the tags that it edits. -/
def Request.isOrderly (request : Request) : Bool := request.isLawful && request.keepsWatch

/-- An orderly request leaves effects to the engine. -/
theorem Request.isLawful_of_isOrderly (request : Request) (orderly : request.isOrderly = true) :
    request.isLawful = true :=
  (Bool.and_eq_true_iff.1 orderly).1

/-- An orderly request leaves the engine listening. -/
theorem Request.keepsWatch_of_isOrderly (request : Request) (orderly : request.isOrderly = true) :
    request.keepsWatch = true :=
  (Bool.and_eq_true_iff.1 orderly).2

variable {start : World} {past : List Cascade} {now : Cascade} {frame : Frame} {rest : List Frame}
  {handle : EffectHandle}

/-- An unmet requirement that was seen to still is after a step, unless it no longer is unmet. -/
theorem Cascade.SeesTo.step (seen : now.SeesTo past handle) (next : now.agenda = frame :: rest)
    (kept : (frame.expand now.world now.reply).lost = false) (sound : now.world.Sound)
    (turn : now.world.Turn frame (frame.expand now.world now.reply).world)
    (before : now.world.Unmet handle) (after : now.step.world.Unmet handle) :
    now.step.SeesTo (past ++ [now]) handle := by
  have left {other : Frame} (member : other ∈ (frame.expand now.world now.reply).frames) :
      other ∈ now.step.agenda := by
    rw [agenda_step next kept]
    exact List.mem_append_left _ member
  have stays {other : Frame} (member : other ∈ rest) : other ∈ now.step.agenda := by
    rw [agenda_step next kept]
    exact List.mem_append_right _ member
  rw [world_step next] at after
  unfold SeesTo at seen
  rw [next] at seen
  rcases seen with checked | ended | ⟨waits, drained⟩
  · rcases List.mem_cons.1 checked with rfl | later
    · -- A re-check that finds the requirement unmet leaves the removal of the effect.
      exact .inr (.inl (left (World.finish_mem_enforce before)))
    · exact .inl (stays later)
  · rcases List.mem_cons.1 ended with rfl | later
    · -- The removal leaves nothing live whose requirement could be unmet.
      exact absurd after (World.not_unmet_finish sound rfl)
    · exact .inr (.inl (stays later))
  · by_cases busy : frame = .drain
    · subst busy
      exact .inl (left (World.enforce_mem_drain waits))
    · have waiting := turn.waits busy waits
      rw [← world_step next] at waiting
      refine .inr (.inr ⟨waiting, drained.imp (fun member => ?_) fun edits => edits.append ?_⟩)
      · exact stays ((List.mem_cons.1 member).resolve_left fun same => busy same.symm)
      · rintro others same
        rw [next] at same
        exact busy (List.cons.inj same).1

namespace Session

/-- The engine listens to every registered entity throughout a session. -/
theorem watched (calm : start.Calm) (watched : start.Watched)
    (session : Session (fun request => request.isOrderly = true) start past now) :
    now.world.Watched := by
  induction session with
  | opened => exact watched
  | asked _ _ _ ih => exact ih
  | stepped session next kept ih =>
    rw [Cascade.world_step next]
    exact (session.turn calm Request.isLawful_of_isOrderly next).watched
      ((session.first calm Request.isLawful_of_isOrderly next).mono
        Request.keepsWatch_of_isOrderly) ih

/-- Throughout a session every unmet requirement is seen to. -/
theorem seen (calm : start.Calm) (watched : start.Watched)
    (session : Session (fun request => request.isOrderly = true) start past now) :
    ∀ handle, now.world.Unmet handle → now.SeesTo past handle := by
  induction session with
  | opened =>
    rintro handle ⟨entity, registered, effect, stored, _⟩
    cases (calm.missing handle).symm.trans ((World.effect?_eq registered).trans stored)
  | @asked past now request session done admitted ih =>
    intro handle unmet
    have before := ih handle unmet
    unfold Cascade.SeesTo at before
    rw [done] at before
    rcases before with checked | ended | ⟨waits, drained | edits⟩
    · cases checked
    · cases ended
    · cases drained
    · refine .inr (.inr ⟨waits, .inr (edits.append fun rest same => ?_)⟩)
      rw [done] at same
      cases same
  | @stepped past now frame rest session next kept ih =>
    intro handle unmet
    have sound := session.sound calm Request.isLawful_of_isOrderly
    have turn := session.turn calm Request.isLawful_of_isOrderly next
    have admitted := (session.first calm Request.isLawful_of_isOrderly next).mono
      Request.keepsWatch_of_isOrderly
    have after := unmet
    rw [Cascade.world_step next] at unmet
    rcases turn.unmet sound admitted (session.watched calm watched) unmet with
      before | checked | ⟨waits, drained | ⟨request, rfl, edits⟩⟩
    · exact (ih handle before).step next kept sound turn before after
    · refine .inl ?_
      rw [Cascade.agenda_step next kept]
      exact List.mem_append_left _ checked
    · refine .inr (.inr ⟨?_, .inl ?_⟩)
      · rwa [Cascade.world_step next]
      · rw [Cascade.agenda_step next kept]
        exact List.mem_append_left _ drained
    · refine .inr (.inr ⟨?_, .inr (.last next edits)⟩)
      rwa [Cascade.world_step next]

end Session

/-- Ongoing requirements are enforced throughout a session in which the host leaves effects to the
engine. Between requests every live effect on a registered entity has its ongoing requirement met,
unless the tags of its target were edited directly and the edit still waits. When a tick or an
activation is about to begin, and when the host has had tag changes processed, no edit waits and
every requirement is met. -/
theorem ongoing_requirements_enforced (calm : start.Calm) (watched : start.Watched)
    (session : Session (fun request => request.isOrderly = true) start past now) :
    (now.agenda = [] → ∀ id entity, now.world.entity? id = some entity →
      ¬(id ∈ now.world.tagChanges ∧ EditWaits past id) → entity.Enforced) ∧
    (∀ gate rest, now.agenda = gate :: rest → gate.isGate = true →
      now.world.tagChanges = [] ∧ now.world.Enforced) ∧
    (∀ before world during, past = before ++ .ofRequest world .processTagChanges :: during →
      (∀ later ∈ during, later.agenda ≠ []) → now.agenda = [] →
        now.world.tagChanges = [] ∧ now.world.Enforced) := by
  have sound := session.sound calm Request.isLawful_of_isOrderly
  have seen := session.seen calm watched
  have enforced (none : now.world.tagChanges = [])
      (idle : ∀ frame ∈ now.agenda, frame.isGate = true ∨ frame.isTrailing = true) :
      now.world.Enforced := by
    refine fun id entity registered => sound.enforced registered fun key unmet => ?_
    rcases seen _ unmet with checked | ended | ⟨waits, _⟩
    · exact (idle _ checked).elim (fun kind => by cases kind) fun kind => by cases kind
    · exact (idle _ ended).elim (fun kind => by cases kind) fun kind => by cases kind
    · rw [none] at waits
      cases waits
  refine ⟨fun done id entity registered quiet => ?_, fun gate rest next isGate => ?_,
    fun before world during asked runs done => ?_⟩
  · refine sound.enforced registered fun key unmet => ?_
    have due := seen _ unmet
    unfold Cascade.SeesTo at due
    rw [done] at due
    rcases due with checked | ended | ⟨waits, drained | edits⟩
    · cases checked
    · cases ended
    · cases drained
    · exact quiet ⟨waits, edits⟩
  · obtain ⟨gated, first⟩ := session.ready calm Request.isLawful_of_isOrderly
    rw [next] at gated first
    have outer : gate.isOuter = true := by cases gate <;> first | rfl | cases isGate
    have none := first gate rfl isGate
    refine ⟨none, enforced none fun frame member => ?_⟩
    rw [next] at member
    rcases List.mem_cons.1 member with rfl | later
    · exact .inl isGate
    · exact .inr (gated.1 outer frame later)
  · rcases session.drained asked runs with ⟨frames, same⟩ | ⟨none, _⟩
    · rw [done] at same
      cases frames <;> cases same
    · refine ⟨none, enforced none fun frame member => ?_⟩
      rw [done] at member
      cases member

/-- A lasting effect for whose whole life its target must be awake. -/
def vigil : EffectDef where
  durationType := .infinite
  tags := { requiredOngoing := .ofPaths ["awake"] }

/-- An entity that is awake receives a vigil and is put to sleep by the host. -/
def sleeperRequests : List Request :=
  [.register ⟨7⟩ [] (.ofPaths ["awake"]), .apply ⟨1⟩ ⟨1⟩ vigil ⟨7⟩ { caster := ⟨7⟩ },
    .tags ⟨7⟩ (.ok (.remove (.ofPath "awake")))]

/-- The state in which the entity has just fallen asleep. -/
def asleep : Cascade :=
  Cascade.afterEach 30 { world := World.create {} .empty, agenda := [] } sleeperRequests

/-- An entity that has fallen asleep loses its vigil when tag changes are processed, and then no tag
change waits and every requirement is met. -/
theorem vigil_is_enforced : (World.create {} .empty).Calm ∧ (World.create {} .empty).Watched ∧
    asleep.world.isLive ⟨⟨7⟩, ⟨1⟩⟩ = true ∧
    ∃ past now,
      Session (fun request => request.isOrderly = true) (World.create {} .empty) past now ∧
      asleep ∈ past ∧ now.agenda = [] ∧ now.world.isLive ⟨⟨7⟩, ⟨1⟩⟩ = false ∧
      now.world.tagChanges = [] ∧ now.world.Enforced := by
  have calm := World.calm_create {} .empty
  have watched : (World.create {} .empty).Watched := fun _ _ found => by cases found
  have orderly : ∀ request ∈ sleeperRequests, request.isOrderly = true := by decide +kernel
  have initially : Session (fun request => request.isOrderly = true) (World.create {} .empty) []
      { world := World.create {} .empty, agenda := [] } := .opened
  have edited := initially.afterEach 30 sleeperRequests orderly (by decide +kernel)
  have done : asleep.agenda = [] := List.isEmpty_iff.1 (by decide +kernel)
  have begun : Session (fun request => request.isOrderly = true) (World.create {} .empty) _
      (Cascade.ofRequest asleep.world .processTagChanges).step :=
    (edited.asked done rfl).stepped rfl rfl
  have processed := begun.run 30 (by decide +kernel)
  have ended : ((Cascade.ofRequest asleep.world .processTagChanges).step.run 30).agenda = [] :=
    List.isEmpty_iff.1 (by decide +kernel)
  refine ⟨calm, watched, by decide +kernel, _, _, processed, ?_, ended, by decide +kernel, ?_⟩
  · exact List.mem_append_left _ (List.mem_append_left _ (List.mem_append_right _
      List.mem_cons_self))
  · exact (ongoing_requirements_enforced calm watched processed).2.2 (_ ++ [asleep]) asleep.world _
      (by rw [List.append_assoc]; rfl) (fun _ => Cascade.agenda_of_mem_during) ended

end SkillEngine
