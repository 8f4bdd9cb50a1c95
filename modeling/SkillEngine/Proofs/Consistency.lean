import SkillEngine.Proofs.Mirror

/-!
# Effects and modifiers agree throughout a session

In every state of a session each registered entity is mirrored, except between the frame that takes
the last stack of an effect and the one that ends the effect, where nothing else happens. Stale
values are committed by the end of the tick of their entity, so none is left between requests.
-/

namespace SkillEngine

namespace World

/-- Every registered entity is mirrored. -/
def Mirrored (world : World) : Prop :=
  ∀ id entity, world.entity? id = some entity → entity.Mirrored

/-- Every registered entity is mirrored, but for what a live effect has attached. -/
structure MirroredBut (world : World) (handle : EffectHandle) : Prop where
  /-- The effect is live. -/
  live : world.isLive handle = true
  /-- The other entities are mirrored. -/
  others : ∀ id entity, world.entity? id = some entity → id ≠ handle.target → entity.Mirrored
  /-- Its target is, without what it has attached. -/
  shows : ∀ entity, world.entity? handle.target = some entity →
    entity.Shows (Attachment.skipping handle.id.source)

variable {world after : World} {frame : Frame} {id : EntityId} {change : Entity → Entity}

/-- An alteration keeps every entity mirrored if it keeps the one so. -/
theorem Alters.mirrored (alters : world.Alters after id change) (mirrored : world.Mirrored)
    (keeps : ∀ entity, world.entity? id = some entity → (change entity).Mirrored) :
    after.Mirrored := by
  intro other entity found
  obtain ⟨earlier, stored, rfl⟩ := alters.origin found
  split
  · next same => exact keeps earlier (same ▸ stored)
  · exact mirrored other earlier stored

/-- Whoever waits to join after a turn did before, or is a newcomer. -/
theorem Turn.waiting (turn : world.Turn frame after)
    (waiting : ∀ entity ∈ world.registry.pendingAdd, entity.IsNewcomer) :
    ∀ entity ∈ after.registry.pendingAdd, entity.IsNewcomer := by
  cases turn with
  | quiet quiet =>
    rw [quiet.registry]
    exact waiting
  | drain => exact waiting
  | alter alters | retag _ alters | hold alters =>
    obtain ⟨_, _, _, rfl⟩ := alters.shape
    exact waiting
  | regroup regroups =>
    exact fun entity waits => (regroups.waiting entity waits).elim (waiting entity) id

/-- Every turn keeps a world mirrored, unless it takes the last stack of a live effect. -/
theorem Turn.mirrored (turn : world.Turn frame after) (sound : world.Sound)
    (admitted : frame.Admitted fun request => request.keepsModifiers = true)
    (waiting : ∀ entity ∈ world.registry.pendingAdd, entity.IsNewcomer)
    (mirrored : world.Mirrored) : after.Mirrored ∨ ∃ handle, frame = .expire handle ∧
      (world.expire handle).frames = [.finish handle .expired true] ∧ after.MirroredBut handle := by
  cases turn with
  | quiet quiet =>
    refine .inl fun id entity found => mirrored id entity ?_
    exact (congrArg (Registry.entity? · id) quiet.registry).symm.trans found
  | drain => exact .inl mirrored
  | @alter _ _ id change alters deed =>
    cases registered : world.entity? id with
    | none =>
      refine .inl (alters.mirrored mirrored fun entity found => ?_)
      cases registered.symm.trans found
    | some entity =>
      rcases deed.mirrored sound admitted registered (mirrored id entity registered) with
        kept | ⟨handle, touched, rfl, frames, rfl, placed, live, shows⟩
      · refine .inl (alters.mirrored mirrored fun other found => ?_)
        cases registered.symm.trans found
        exact kept
      · have self := alters.self registered
        refine .inr ⟨handle, rfl, frames, ?_, fun other entity found apart => ?_,
          fun other found => ?_⟩
        · rw [isLive, effect?_eq self, placed]
          exact live
        · obtain ⟨earlier, stored, rfl⟩ := alters.origin found
          rw [if_neg apart]
          exact mirrored other earlier stored
        · cases self.symm.trans found
          exact shows
  | retag found alters heard =>
    refine .inl (alters.mirrored mirrored fun entity registered => ?_)
    exact (mirrored _ entity registered).revalues (.refl _) rfl
  | @hold application target duration _ alters =>
    refine .inl (alters.mirrored mirrored fun entity registered => ?_)
    exact (mirrored _ entity registered).holding rfl (List.length_map _) world.time
  | regroup regroups =>
    refine .inl fun id entity found => ?_
    rcases regroups.entity? id entity found with before | ⟨newcomer, origin, _, joined⟩
    · exact mirrored id entity before
    · exact Entity.IsNewcomer.mirrored (origin.elim (waiting newcomer) fun is => is) joined.effects
        joined.attributes

/-- Ending an effect mends what it has left unmirrored. -/
theorem MirroredBut.finish {handle : EffectHandle} (but : world.MirroredBut handle)
    (sound : world.Sound) : (world.finish handle .expired true).world.Mirrored := by
  cases found : world.effect? handle with
  | none => cases (isLive_of_missing found).symm.trans but.live
  | some effect =>
    have live : effect.isLive = true := (isLive_eq found).symm.trans but.live
    have alters := alters_release sound.numbered found .expired
    rw [finish_of_live found live]
    intro id entity registered
    obtain ⟨earlier, stored, rfl⟩ := alters.origin registered
    split
    · next same =>
      subst same
      rw [effect?_eq stored] at found
      exact (but.shows earlier stored).release (sound.rosters _ _ stored) found live rfl
    · next apart => exact but.others id earlier stored apart

/-- What a deed leaves of a fresh entity is fresh, unless a tick has renewed tracked magnitudes. -/
theorem Deed.fresh (deed : world.Deed frame id change)
    (admitted : frame.Admitted fun request => request.keepsModifiers = true) {entity : Entity}
    (fresh : entity.attributes.Fresh) : (change entity).attributes.Fresh ∨
      ∃ handle seconds, frame = .tickEffect handle seconds ∧ id = handle.target := by
  cases deed with
  | still | begin => exact .inl fresh
  | @touch _ handle _ _ _ _ _ _ ticked _ =>
    rcases ticked with ⟨rfl, _⟩ | ⟨seconds, rfl⟩
    · exact .inl fresh
    · exact .inr ⟨handle, seconds, rfl, rfl⟩
  | restack | release | finish => exact .inl (AttributeSheet.fresh_recalculateDirty _)
  | write revalues => exact .inl ((revalues entity).attributes.fresh fresh)
  | @sheet _ request =>
    refine .inl (AttributeSheet.Revalues.fresh ?_ fresh)
    cases request with
    | error refusal => exact .refl _
    | ok request =>
      exact SheetRequest.revalues_perform id _
        (admitted.resolve_right fun nested => by cases nested)

/-- Who is not fresh after a turn was not before, or had tracked magnitudes renewed in a tick. -/
theorem Turn.fresh (turn : world.Turn frame after)
    (admitted : frame.Admitted fun request => request.keepsModifiers = true)
    (waiting : ∀ entity ∈ world.registry.pendingAdd, entity.IsNewcomer) {entity : Entity}
    (found : after.entity? id = some entity) : entity.attributes.Fresh ∨
      (∃ earlier, world.entity? id = some earlier ∧ ¬earlier.attributes.Fresh) ∨
      ∃ handle seconds, frame = .tickEffect handle seconds ∧ id = handle.target := by
  have before {earlier : Entity} (stored : world.entity? id = some earlier)
      (same : earlier.attributes = entity.attributes) : entity.attributes.Fresh ∨
      (∃ earlier, world.entity? id = some earlier ∧ ¬earlier.attributes.Fresh) ∨
      ∃ handle seconds, frame = .tickEffect handle seconds ∧ id = handle.target := by
    by_cases fresh : earlier.attributes.Fresh
    · exact .inl (same ▸ fresh)
    · exact .inr (.inl ⟨earlier, stored, fresh⟩)
  cases turn with
  | quiet quiet =>
    exact before ((congrArg (Registry.entity? · id) quiet.registry).symm.trans found) rfl
  | drain => exact before found rfl
  | alter alters deed =>
    obtain ⟨earlier, stored, changed⟩ := alters.origin found
    split at changed
    · next same =>
      subst changed
      by_cases fresh : earlier.attributes.Fresh
      · exact (deed.fresh admitted fresh).imp_right fun ticked => .inr (same ▸ ticked)
      · exact .inr (.inl ⟨earlier, stored, fresh⟩)
    · exact before stored (congrArg Entity.attributes changed.symm)
  | retag _ alters heard =>
    obtain ⟨earlier, stored, rfl⟩ := alters.origin found
    refine before stored ?_
    split <;> rfl
  | hold alters =>
    obtain ⟨earlier, stored, changed⟩ := alters.origin found
    split at changed
    · subst changed
      exact .inl (AttributeSheet.fresh_recalculateDirty _)
    · exact before stored (congrArg Entity.attributes changed.symm)
  | regroup regroups =>
    rcases regroups.entity? id entity found with stored | ⟨newcomer, origin, _, joined⟩
    · exact before stored rfl
    · have is := origin.elim (waiting newcomer) fun is => is
      exact .inl (joined.attributes ▸ is.fresh)

/-- Ending the tick of an entity commits its values. -/
theorem fresh_endEntityTick (world : World) (id : EntityId) {entity : Entity}
    (found : (world.endEntityTick id).world.entity? id = some entity) :
    entity.attributes.Fresh := by
  have alters := (alters_modify world id fun entity =>
    { entity with effects := entity.effects.endTick }).trans (alters_commit _ id)
  obtain ⟨earlier, stored, rfl⟩ := alters.origin found
  rw [if_pos rfl]
  exact AttributeSheet.fresh_recalculateDirty _

end World

/-- Wherever time is about to pass for an effect, the tick of its target is to be ended later. -/
def Frame.Covered : List Frame → Prop
  | [] => True
  | frame :: rest =>
    (∀ handle seconds, frame = .tickEffect handle seconds → .endEntityTick handle.target ∈ rest) ∧
      Covered rest

/-- Frames in front for which nothing needs to come later. -/
theorem Frame.covered_append {frames rest : List Frame}
    (none : ∀ handle seconds, .tickEffect handle seconds ∉ frames) (covered : Covered rest) :
    Covered (frames ++ rest) := by
  induction frames with
  | nil => exact covered
  | cons frame others ih =>
    refine ⟨fun handle seconds same => ?_, ih fun handle seconds member =>
      none handle seconds (List.mem_cons_of_mem _ member)⟩
    exact absurd (same ▸ List.mem_cons_self) (none handle seconds)

/-- The frames of the tick of an entity. -/
theorem Frame.covered_tickEntity (id : EntityId) (seconds : Float32) (keys : List EffectId)
    {rest : List Frame} (covered : Covered rest) :
    Covered
      ((keys.map fun key => .tickEffect ⟨id, key⟩ seconds) ++ [.endEntityTick id] ++ rest) := by
  induction keys with
  | nil => exact ⟨fun _ _ same => (by cases same), covered⟩
  | cons key others ih =>
    refine ⟨fun handle _ same => ?_, ih⟩
    cases same
    exact List.mem_append_left _ (List.mem_append_right _ List.mem_cons_self)

/-- What a frame leaves in front of covered ones is covered. -/
theorem Frame.covered_expand {world : World} (sound : world.Sound) (reply : Reply) {frame : Frame}
    {admits : Request → Prop} (admitted : frame.Admitted admits) {rest : List Frame}
    (covered : Covered rest) : Covered ((frame.expand world reply).frames ++ rest) := by
  have others (no : ∀ id seconds, frame ≠ .tickEntity id seconds) :
      Covered ((frame.expand world reply).frames ++ rest) := by
    refine covered_append (fun handle seconds left => ?_) covered
    cases leaves_expand sound reply admitted left with
    | host _ opening => cases opening
    | tickEffect => exact no _ _ rfl
  cases frame with
  | tickEntity id seconds =>
    simp only [Frame.expand, World.tickEntity]
    split
    · exact covered
    · exact covered_tickEntity id seconds _ covered
  | _ => exact others fun _ _ same => by cases same

/-- A world to start from in which neither who is registered nor who waits to join has modifiers or
anything stale. -/
structure World.Blank (world : World) : Prop where
  /-- Nobody has effects. -/
  calm : world.Calm
  /-- No registered entity has modifiers. -/
  modifiers : ∀ id entity, world.entity? id = some entity →
    ∀ key attr, entity.attributes.get? key = some attr → attr.modifiers = []
  /-- No registered entity has anything stale. -/
  fresh : ∀ id entity, world.entity? id = some entity → entity.attributes.Fresh
  /-- Who waits to join is a newcomer. -/
  waiting : ∀ entity ∈ world.registry.pendingAdd, entity.IsNewcomer

/-- A world that was just made is blank. -/
theorem World.blank_create (config : EngineConfig) (table : AttributeTable) :
    (World.create config table).Blank where
  calm := calm_create config table
  modifiers _ _ found := by cases found
  fresh _ _ found := by cases found
  waiting _ waits := by cases waits

/-- Every entity of a blank world is mirrored. -/
theorem World.Blank.mirrored {world : World} (blank : world.Blank) : world.Mirrored := by
  intro id entity found
  have none : entity.effects.live = [] := by
    rw [EffectRoster.live, (blank.calm.idle id entity found).1]
    rfl
  refine ⟨fun effect live => ?_, fun key attr stored => ?_⟩
  · rw [none] at live
    cases live
  · rw [none, Attribute.attachments, blank.modifiers id entity found key attr stored]
    rfl

variable {start : World} {past : List Cascade} {now : Cascade}

/-- Throughout a session every registered entity is mirrored, unless the next frame ends an effect
whose last stack is gone. -/
theorem Session.mirrored (blank : start.Blank)
    (session : Session (fun request => request.keepsModifiers = true) start past now) :
    (∀ entity ∈ now.world.registry.pendingAdd, entity.IsNewcomer) ∧
      (now.world.Mirrored ∨ ∃ handle rest, now.agenda = .finish handle .expired true :: rest ∧
        now.world.MirroredBut handle) := by
  have lawful : ∀ request : Request, request.keepsModifiers = true → request.isLawful = true :=
    fun request keeps => request.isLawful_of_keepsModifiers keeps
  induction session with
  | opened => exact ⟨blank.waiting, .inl blank.mirrored⟩
  | @asked past now request session done admitted ih =>
    refine ⟨ih.1, .inl ?_⟩
    rcases ih.2 with mirrored | ⟨handle, rest, next, _⟩
    · exact mirrored
    · rw [done] at next
      cases next
  | @stepped past now frame rest session next kept ih =>
    obtain ⟨pending, balance⟩ := ih
    have sound := session.sound blank.calm lawful
    have admitted := session.first blank.calm lawful next
    have turn := session.turn blank.calm lawful next
    rw [Cascade.world_step next, Cascade.agenda_step next kept]
    refine ⟨turn.waiting pending, ?_⟩
    rcases balance with mirrored | ⟨handle, others, ends, but⟩
    · rcases turn.mirrored sound admitted pending mirrored with
        mirrored | ⟨handle, rfl, frames, but⟩
      · exact .inl mirrored
      · refine .inr ⟨handle, rest, ?_, but⟩
        exact congrArg (· ++ rest) frames
    · rw [next] at ends
      cases ends
      exact .inl (but.finish sound)

/-- Throughout a session an entity that is not fresh will end its tick. -/
theorem Session.fresh (blank : start.Blank)
    (session : Session (fun request => request.keepsModifiers = true) start past now) :
    Frame.Covered now.agenda ∧ ∀ id entity, now.world.entity? id = some entity →
      entity.attributes.Fresh ∨ .endEntityTick id ∈ now.agenda := by
  have lawful : ∀ request : Request, request.keepsModifiers = true → request.isLawful = true :=
    fun request keeps => request.isLawful_of_keepsModifiers keeps
  induction session with
  | opened => exact ⟨trivial, fun id entity found => .inl (blank.fresh id entity found)⟩
  | @asked past now request session done admitted ih =>
    refine ⟨⟨fun _ _ same => (by cases same), trivial⟩, fun id entity found => ?_⟩
    rcases ih.2 id entity found with fresh | ends
    · exact .inl fresh
    · rw [done] at ends
      cases ends
  | @stepped past now frame rest session next kept ih =>
    obtain ⟨covered, fresh⟩ := ih
    rw [next] at covered fresh
    have sound := session.sound blank.calm lawful
    have admitted := session.first blank.calm lawful next
    have pending := (session.mirrored blank).1
    rw [Cascade.world_step next, Cascade.agenda_step next kept]
    refine ⟨Frame.covered_expand sound now.reply admitted covered.2, fun id entity found => ?_⟩
    rcases (session.turn blank.calm lawful next).fresh admitted pending found with
      done | ⟨earlier, stored, stale⟩ | ⟨handle, seconds, rfl, rfl⟩
    · exact .inl done
    · rcases List.mem_cons.1 ((fresh id earlier stored).resolve_left stale) with rfl | later
      · exact .inl (World.fresh_endEntityTick now.world id found)
      · exact .inr (List.mem_append_right _ later)
    · exact .inr (List.mem_append_right _ (covered.1 handle seconds rfl))

/-- Effects and modifiers mirror each other throughout a session in which the host touches
attributes through their values alone: between requests, and whenever a port is about to be fired in
the middle of one. A captured magnitude is what it was in every earlier state, and between requests
nothing is stale. -/
theorem modifiers_mirror_effects (blank : start.Blank)
    (session : Session (fun request => request.keepsModifiers = true) start past now) :
    (now.agenda = [] ∨ (∃ firing, now.firing? = some firing) →
      ∀ id entity, now.world.entity? id = some entity → entity.Mirrored) ∧
    (∀ earlier ∈ past, ∀ handle before after, earlier.world.effect? handle = some before →
      now.world.effect? handle = some after → ∀ (slot : Nat) (modifier : Modifier),
        before.definition.modifiers[slot]? = some modifier → modifier.capture = .snapshot →
          after.magnitudes[slot]? = before.magnitudes[slot]?) ∧
    (now.agenda = [] → ∀ id entity, now.world.entity? id = some entity →
      ∀ key attr, entity.attributes.get? key = some attr → attr.dirty = false) := by
  have lawful : ∀ request : Request, request.keepsModifiers = true → request.isLawful = true :=
    fun request keeps => request.isLawful_of_keepsModifiers keeps
  refine ⟨fun place => ?_, fun earlier member handle before after was is slot modifier => ?_,
    fun done id entity found => ?_⟩
  · rcases (session.mirrored blank).2 with mirrored | ⟨handle, rest, next, _⟩
    · exact mirrored
    · rw [Cascade.firing?, next] at place
      rcases place with done | ⟨firing, fires⟩
      · cases done
      · cases fires
  · have evolves := session.evolves blank.calm lawful earlier member
    have old := session.sound_past blank.calm lawful earlier member
    obtain ⟨same, stored, becomes⟩ := evolves.origin handle after (old.numbered_below was) is
    cases was.symm.trans stored
    exact becomes.captured slot modifier
  · rcases (session.fresh blank).2 id entity found with fresh | ends
    · exact fresh
    · rw [done] at ends
      cases ends

/-- A lasting effect that adds to an attribute. -/
def blessing : EffectDef where
  durationType := .infinite
  modifiers := [{ attr := ⟨1⟩, op := .add, magnitude := .fixed .one }]

/-- An entity with one attribute joins. -/
def pilgrimRequests : List Request :=
  [.register ⟨7⟩ [⟨⟨1⟩, "health", .one, none, none, false, .default⟩] .empty]

/-- The entity receives a blessing. -/
def blessRequest : Request := .apply ⟨1⟩ ⟨1⟩ blessing ⟨7⟩ { caster := ⟨7⟩ }

/-- The state in which the blessing is about to fire its first port. -/
def blessed : Cascade :=
  let joined := Cascade.afterEach 30 { world := World.create {} .empty, agenda := [] }
    pilgrimRequests
  Cascade.run 5 (.ofRequest joined.world blessRequest)

/-- When a blessing is about to fire its first port, its target is mirrored: one modifier is
attached to the attribute. -/
theorem blessing_is_mirrored : (World.create {} .empty).Blank ∧
    (∃ past, Session (fun request => request.keepsModifiers = true) (World.create {} .empty) past
      blessed) ∧
    ∃ firing entity attr, blessed.firing? = some firing ∧ firing.port = "initial" ∧
      blessed.world.entity? ⟨7⟩ = some entity ∧ entity.attributes.get? ⟨1⟩ = some attr ∧
      attr.modifiers.length = 1 ∧ entity.Mirrored := by
  have initially : Session (fun request => request.keepsModifiers = true)
      (World.create {} .empty) [] { world := World.create {} .empty, agenda := [] } := .opened
  have joined := initially.afterEach 30 pilgrimRequests (by decide +kernel) (by decide +kernel)
  have asked : Session (fun request => request.keepsModifiers = true) (World.create {} .empty) _
      (.ofRequest _ blessRequest) := joined.asked (List.isEmpty_iff.1 (by decide +kernel)) rfl
  have session := asked.run 5 (by decide +kernel)
  have fires : blessed.firing?.map (·.port) = some "initial" := by decide +kernel
  have attached : ((blessed.world.entity? ⟨7⟩).bind fun entity =>
      entity.attributes.get? ⟨1⟩).map (·.modifiers.length) = some 1 := by decide +kernel
  obtain ⟨firing, next, port⟩ := Option.map_eq_some_iff.1 fires
  obtain ⟨attr, stored, one⟩ := Option.map_eq_some_iff.1 attached
  obtain ⟨entity, found, placed⟩ := Option.bind_eq_some_iff.1 stored
  have mirrored := (modifiers_mirror_effects (World.blank_create {} .empty) session).1
    (.inr ⟨firing, next⟩) ⟨7⟩ entity found
  exact ⟨World.blank_create {} .empty, ⟨_, session⟩, firing, entity, attr, next, port, found,
    placed, one, mirrored⟩

end SkillEngine
