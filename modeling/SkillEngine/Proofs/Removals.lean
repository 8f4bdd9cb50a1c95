import SkillEngine.Proofs.Remakes
import SkillEngine.Proofs.Session

/-!
# Removals in the middle of a tick

An effect that ends while its entity is ticked stays stored until that tick is over. Nobody can
tell: `Cascade.atOnce` does to a roster whatever the frames of the tick do, out of its tick, so that
every removal drops at once, and in each state of a session it has the same live effects as the
roster that is really there. Where the tick of an entity stands on the agenda is followed by
`Cascade.Timing`.
-/

namespace SkillEngine

namespace Frame

/-- The entity whose tick the frame ends. -/
def ends? : Frame → Option EntityId
  | .endEntityTick id => some id
  | _ => none

/-- The frame is one that the tick of an entity can set off before it ends. -/
def isWithin : Frame → Bool
  | .perform request => request.isNested
  | .script .. | .scripted .. | .tickEntity .. | .endEntityTick _ | .ticks .. | .beginTick _
  | .endTick _ => false
  | _ => true

variable {world : World} {frame next : Frame}

/-- What the tick of an entity sets off sets off no more than that. -/
theorem Leaves.isWithin (leaves : frame.Leaves world next) (within : frame.isWithin = true) :
    next.isWithin = true := by
  cases leaves with
  | host host _ => cases host.symm.trans within
  | task nested => exact nested
  | _ => first | rfl | cases within

/-- Only the beginning of an entity's tick leaves its end to be done. -/
theorem Leaves.ends? (leaves : frame.Leaves world next)
    (other : ∀ id seconds, frame ≠ .tickEntity id seconds) : next.ends? = none := by
  cases leaves with
  | host _ opening => cases next <;> first | rfl | cases opening
  | endEntityTick => exact absurd rfl (other _ _)
  | _ => rfl

/-- What the tick of an entity sets off registers and unregisters nobody. -/
theorem enrols_of_isWithin (within : frame.isWithin = true) : frame.enrols = false := by
  cases frame with
  | perform request => cases request <;> first | rfl | cases within
  | beginTick | endTick => cases within
  | _ => rfl

/-- What the tick of an entity sets off ends no such tick. -/
theorem ends?_of_isWithin (within : frame.isWithin = true) : frame.ends? = none := by
  cases frame <;> first | rfl | cases within

end Frame

namespace World

variable {world : World} {frame : Frame} {id : EntityId} {later : EffectRoster}

/-- No roster is in a tick but that of an entity. -/
def TicksOnly (world : World) (id : EntityId) : Prop :=
  ∀ other roster, world.roster? other = some roster → roster.ticking = true → other = id

/-- No roster is in a tick. -/
def TicksNone (world : World) : Prop :=
  ∀ id roster, world.roster? id = some roster → roster.ticking = false

/-- A frame that begins no tick of an entity puts no roster into one. -/
theorem ticking_expand (sound : world.Sound) (reply : Reply)
    (admitted : frame.Admitted fun request => request.isLawful = true)
    (other : ∀ id seconds, frame ≠ .tickEntity id seconds)
    (found : (frame.expand world reply).world.roster? id = some later)
    (ticks : later.ticking = true) :
    ∃ earlier, world.roster? id = some earlier ∧ earlier.ticking = true := by
  rcases remade_expand sound reply admitted found with ⟨_, rfl⟩ | ⟨earlier, there, remakes⟩
  · cases ticks
  · rcases remakes.ticking ticks with before | ⟨seconds, begins⟩
    · exact ⟨earlier, there, before⟩
    · exact absurd begins (other _ _)

/-- Ending the tick of the only roster that is in one leaves none. -/
theorem TicksOnly.endEntityTick (only : world.TicksOnly id) :
    (world.endEntityTick id).world.TicksNone := by
  intro other roster found
  obtain ⟨earlier, there, rfl⟩ := (edits_endEntityTick world id).origin found
  by_cases here : other = id
  · rw [if_pos here]
    rfl
  · rw [if_neg here]
    exact Bool.eq_false_iff.2 fun ticks => here (only other earlier there ticks)

/-- Beginning the tick of an entity puts its roster alone into one. -/
theorem TicksNone.tickEntity (none : world.TicksNone) (id : EntityId) (seconds : Float32) :
    (world.tickEntity id seconds).world.TicksOnly id := by
  intro other roster found ticks
  obtain ⟨earlier, there, rfl⟩ := (edits_tickEntity world id seconds).origin found
  by_cases here : other = id
  · exact here
  · rw [if_neg here, none other earlier there] at ticks
    cases ticks

end World

namespace Cascade

/-- Where the tick of an entity stands on the agenda. -/
inductive Timing (cascade : Cascade) : Prop where
  /-- Nowhere, and no roster is in a tick. -/
  | outside (nowhere : ∀ frame ∈ cascade.agenda, frame.ends? = none)
      (none : cascade.world.TicksNone) : cascade.Timing
  /-- In front of its one end stands only what it has set off, and no other roster is in a tick. -/
  | inside {id : EntityId} {inner outer : List Frame}
      (split : cascade.agenda = inner ++ .endEntityTick id :: outer)
      (within : ∀ frame ∈ inner, frame.isWithin = true)
      (nowhere : ∀ frame ∈ outer, frame.ends? = none)
      (only : cascade.world.TicksOnly id) : cascade.Timing

variable {cascade : Cascade} {frame : Frame} {rest : List Frame} {id : EntityId}

/-- The entity that is ticked now. -/
def ticked? (cascade : Cascade) : Option EntityId := cascade.agenda.findSome? (·.ends?)

/-- Nobody is ticked outside the tick of an entity. -/
theorem ticked?_outside (nowhere : ∀ frame ∈ cascade.agenda, frame.ends? = none) :
    cascade.ticked? = none :=
  List.findSome?_eq_none_iff.2 nowhere

/-- Whose tick ends behind what it has set off is the one who is ticked. -/
theorem ticked?_inside {inner outer : List Frame}
    (split : cascade.agenda = inner ++ .endEntityTick id :: outer)
    (within : ∀ frame ∈ inner, frame.isWithin = true) : cascade.ticked? = some id := by
  unfold ticked?
  rw [split, List.findSome?_append,
    List.findSome?_eq_none_iff.2 fun frame member => Frame.ends?_of_isWithin (within frame member)]
  rfl

/-- Only the roster of the entity that is ticked now is in a tick. -/
theorem Timing.ticked? (timing : cascade.Timing) {roster : EffectRoster}
    (found : cascade.world.roster? id = some roster) (ticks : roster.ticking = true) :
    cascade.ticked? = some id := by
  cases timing with
  | outside _ none => exact absurd (none id roster found) (by simp [ticks])
  | inside split within _ only =>
    obtain rfl := only id roster found ticks
    exact ticked?_inside split within

/-- What is done while an entity is ticked registers and unregisters nobody. -/
theorem Timing.plain (timing : cascade.Timing) (next : cascade.agenda = frame :: rest)
    (ticked : cascade.ticked? = some id) : frame.enrols = false := by
  cases timing with
  | outside nowhere =>
    rw [ticked?_outside nowhere] at ticked
    cases ticked
  | @inside other inner outer split within =>
    rw [next] at split
    cases inner with
    | nil =>
      obtain ⟨rfl, _⟩ := List.cons.inj split
      rfl
    | cons first inner =>
      obtain ⟨rfl, _⟩ := List.cons.inj split
      exact Frame.enrols_of_isWithin (within _ List.mem_cons_self)

section Step

variable (sound : cascade.world.Sound)
  (admitted : frame.Admitted fun request => request.isLawful = true)
  (next : cascade.agenda = frame :: rest)
  (kept : (frame.expand cascade.world cascade.reply).lost = false)

include sound admitted next kept

/-- A frame that begins no tick of an entity leaves none to be ended. -/
theorem Timing.step_outside (none : cascade.world.TicksNone)
    (nowhere : ∀ later ∈ rest, later.ends? = Option.none)
    (other : ∀ id seconds, frame ≠ .tickEntity id seconds) : cascade.step.Timing := by
  refine .outside (fun later member => ?_) fun id roster found => ?_
  · rw [agenda_step next kept] at member
    rcases List.mem_append.1 member with new | old
    · exact (Frame.leaves_expand sound cascade.reply admitted new).ends? other
    · exact nowhere later old
  · rw [world_step next] at found
    refine Bool.eq_false_iff.2 fun ticks => ?_
    obtain ⟨earlier, there, before⟩ :=
      World.ticking_expand sound cascade.reply admitted other found ticks
    cases before.symm.trans (none id earlier there)

/-- What the tick of an entity has set off is done in front of its end. -/
theorem Timing.step_inside {inner outer : List Frame}
    (split : rest = inner ++ .endEntityTick id :: outer)
    (within : ∀ later ∈ frame :: inner, later.isWithin = true)
    (nowhere : ∀ later ∈ outer, later.ends? = none) (only : cascade.world.TicksOnly id) :
    cascade.step.Timing := by
  have here := within frame List.mem_cons_self
  have left := agenda_step next kept
  rw [split, ← List.append_assoc] at left
  refine .inside left (fun later member => ?_) nowhere fun other roster found ticks => ?_
  · rcases List.mem_append.1 member with new | old
    · exact (Frame.leaves_expand sound cascade.reply admitted new).isWithin here
    · exact within later (List.mem_cons_of_mem _ old)
  · rw [world_step next] at found
    have plain : ∀ id seconds, frame ≠ .tickEntity id seconds := by
      rintro id seconds rfl
      cases here
    obtain ⟨earlier, there, before⟩ :=
      World.ticking_expand sound cascade.reply admitted plain found ticks
    exact only other earlier there before

end Step

/-- The tick of an entity begins, if the entity is registered. -/
theorem Timing.step_begins {seconds : Float32}
    (next : cascade.agenda = .tickEntity id seconds :: rest)
    (none : cascade.world.TicksNone) (nowhere : ∀ later ∈ rest, later.ends? = Option.none) :
    cascade.step.Timing := by
  have reached := world_step next
  cases found : cascade.world.entity? id with
  | none =>
    have still : Frame.expand cascade.world cascade.reply (.tickEntity id seconds) =
        { world := cascade.world } := by
      simp only [Frame.expand, World.tickEntity, found]
    have left := agenda_step next (by rw [still])
    rw [still] at reached left
    exact .outside (left ▸ nowhere) (reached ▸ none)
  | some entity =>
    have begun : Frame.expand cascade.world cascade.reply (.tickEntity id seconds) =
        { world := cascade.world.modify id fun other =>
            { other with effects := entity.effects.beginTick.2 }
          frames := (entity.effects.liveIds.map fun effect => .tickEffect ⟨id, effect⟩ seconds) ++
            [.endEntityTick id] } := by
      simp only [Frame.expand, World.tickEntity, found]
      rfl
    have left := agenda_step next (by rw [begun])
    rw [begun, List.append_assoc] at left
    refine .inside left (fun later member => ?_) nowhere (reached ▸ none.tickEntity id seconds)
    obtain ⟨_, _, rfl⟩ := List.mem_map.1 member
    rfl

/-- A step keeps track of the tick of an entity. -/
theorem Timing.step (timing : cascade.Timing) (sound : cascade.world.Sound)
    (admitted : frame.Admitted fun request => request.isLawful = true)
    (next : cascade.agenda = frame :: rest)
    (kept : (frame.expand cascade.world cascade.reply).lost = false) : cascade.step.Timing := by
  cases timing with
  | outside nowhere none =>
    rw [next] at nowhere
    have behind : ∀ later ∈ rest, later.ends? = Option.none := fun later member =>
      nowhere later (List.mem_cons_of_mem _ member)
    by_cases begins : ∃ id seconds, frame = .tickEntity id seconds
    · obtain ⟨id, seconds, rfl⟩ := begins
      exact step_begins next none behind
    · exact step_outside sound admitted next kept none behind
        fun id seconds same => begins ⟨id, seconds, same⟩
  | @inside id inner outer split within nowhere only =>
    rw [next] at split
    cases inner with
    | nil =>
      obtain ⟨rfl, rfl⟩ := List.cons.inj split
      refine .outside ?_ ?_
      · rw [agenda_step next kept]
        exact nowhere
      · rw [world_step next]
        exact only.endEntityTick
    | cons first inner =>
      obtain ⟨rfl, behind⟩ := List.cons.inj split
      exact step_inside sound admitted next kept behind within nowhere only

/-- What the next step does to the roster of an entity. -/
def edit (cascade : Cascade) (id : EntityId) (roster : EffectRoster) : EffectRoster :=
  match cascade.agenda with
  | [] => roster
  | frame :: _ => frame.edit cascade.world cascade.step.world id roster

/-- What the next steps of some states do to the roster of an entity, kept out of its tick: whatever
ends is dropped at once. -/
def atOnce (id : EntityId) (states : List Cascade) (roster : EffectRoster) : EffectRoster :=
  states.foldl (fun roster state => (state.edit id roster).idled) roster

/-- The entity whose tick begins with the next step. -/
def begins? (cascade : Cascade) : Option EntityId :=
  match cascade.agenda with
  | .tickEntity id _ :: _ => some id
  | _ => none

/-- The tick of an entity begins with a frame of its own. -/
theorem agenda_of_begins? (begins : cascade.begins? = some id) :
    ∃ seconds rest, cascade.agenda = .tickEntity id seconds :: rest := by
  unfold begins? at begins
  split at begins
  · next seconds rest next =>
    cases begins
    exact ⟨seconds, rest, next⟩
  · cases begins

/-- The tick of an entity begins when no other is under way. -/
theorem Timing.idle_of_begins (timing : cascade.Timing) {seconds : Float32}
    (next : cascade.agenda = .tickEntity id seconds :: rest) {other : EntityId}
    {roster : EffectRoster} (found : cascade.world.roster? other = some roster) :
    roster.ticking = false := by
  cases timing with
  | outside _ none => exact none other roster found
  | inside split within =>
    rw [next] at split
    rcases List.cons_eq_append_iff.1 split with ⟨_, same⟩ | ⟨inner, rfl, _⟩
    · cases same
    · exact absurd (within _ List.mem_cons_self) (by simp [Frame.isWithin])

/-- A step that registers and unregisters nobody does to a roster what it does to its prompt form,
where what ends is dropped at once. -/
theorem prompt_step (sound : cascade.world.Sound) (exact : cascade.world.Exact)
    (admitted : frame.Admitted fun request => request.isLawful = true)
    (next : cascade.agenda = frame :: rest) (plain : frame.enrols = false) {roster : EffectRoster}
    (found : cascade.world.roster? id = some roster) :
    cascade.step.world.roster? id = some (cascade.edit id roster) ∧
      (cascade.edit id roster).prompt = (cascade.edit id roster.prompt).idled := by
  unfold edit
  rw [next, world_step next]
  exact ⟨World.roster?_expand sound cascade.reply admitted plain found,
    World.prompt_edit sound cascade.reply admitted plain found (exact id roster found)⟩

end Cascade

namespace Session

variable {admits : Request → Prop} {start : World} {past : List Cascade} {now : Cascade}
  (calm : start.Calm)
  (blank : ∀ id entity, start.entity? id = some entity → entity.effects = .empty)
  (lawful : ∀ request, admits request → request.isLawful = true)

include calm blank lawful

/-- In every state of a session rosters are exact, and the tick of an entity stands on the
agenda. -/
theorem exact_and_timing (session : Session admits start past now) :
    now.world.Exact ∧ now.Timing := by
  induction session with
  | opened =>
    have empty {id : EntityId} {roster : EffectRoster} (found : start.roster? id = some roster) :
        roster = .empty := by
      obtain ⟨entity, registered, rfl⟩ := Option.map_eq_some_iff.1 found
      exact blank id entity registered
    refine ⟨fun id roster found => ?_, .outside (fun frame member => by cases member)
      fun id roster found => ?_⟩
    · exact empty found ▸ EffectRoster.exact_empty
    · exact congrArg EffectRoster.ticking (empty found)
  | @asked past now request session done admitted ih =>
    refine ⟨ih.1, ?_⟩
    cases ih.2 with
    | outside _ none =>
      exact .outside (fun frame member => by rw [List.mem_singleton.1 member]; rfl) none
    | inside split =>
      rw [done] at split
      cases List.append_ne_nil_of_right_ne_nil _ (List.cons_ne_nil _ _) split.symm
  | stepped session next kept ih =>
    have sound := session.sound calm lawful
    have admitted := (session.first calm lawful next).mono lawful
    refine ⟨?_, ih.2.step sound admitted next kept⟩
    rw [Cascade.world_step next]
    exact ih.1.expand sound _ admitted

/-- From the step that begins the tick of an entity to the one that ends it, the prompt form of its
roster is what every removal would have left at once. -/
theorem prompt_eq_atOnce (session : Session admits start past now) {id : EntityId}
    {before during : List Cascade} {begun : Cascade} (passed : past = before ++ begun :: during)
    (begins : begun.begins? = some id) (within : ∀ state ∈ during, state.ticked? = some id)
    {first : EffectRoster} (found : begun.world.roster? id = some first) :
    ∃ roster, now.world.roster? id = some roster ∧
      roster.prompt = Cascade.atOnce id (begun :: during) first := by
  obtain ⟨seconds, others, starts⟩ := Cascade.agenda_of_begins? begins
  induction session generalizing during with
  | opened => exact absurd passed.symm (List.append_ne_nil_of_right_ne_nil _ (List.cons_ne_nil _ _))
  | @asked past now request session done _ ih =>
    rcases Cascade.last_or_earlier passed with ⟨_, rfl⟩ | ⟨earlier, rfl, _⟩
    · cases done.symm.trans starts
    · have ticked := within now (List.mem_append_right _ List.mem_cons_self)
      rw [Cascade.ticked?, done] at ticked
      cases ticked
  | @stepped past now frame rest session next kept ih =>
    obtain ⟨exact, timing⟩ := session.exact_and_timing calm blank lawful
    have sound := session.sound calm lawful
    have admitted := (session.first calm lawful next).mono lawful
    -- The state that was just left began the tick, or the two were in step there already.
    rcases Cascade.last_or_earlier passed with ⟨rfl, rfl⟩ | ⟨earlier, rfl, rfl⟩
    · cases next.symm.trans starts
      obtain ⟨there, agrees⟩ := Cascade.prompt_step sound exact admitted next rfl found
      have same := (exact id first found).prompt_of_idle (timing.idle_of_begins starts found)
      rw [same] at agrees
      exact ⟨_, there, agrees⟩
    · obtain ⟨roster, stored, same⟩ := ih rfl fun state member =>
        within state (List.mem_append_left _ member)
      have plain := timing.plain next (within now (List.mem_append_right _ List.mem_cons_self))
      obtain ⟨there, agrees⟩ := Cascade.prompt_step sound exact admitted next plain stored
      refine ⟨_, there, agrees.trans ?_⟩
      rw [same, ← List.cons_append]
      unfold Cascade.atOnce
      rw [List.foldl_append]
      rfl

end Session

/-- In every state of a session that starts without effects, the effects on an entity are numbered
in ascending order, below the next number, and act on that entity. What waits to be dropped, each
once, is exactly what is stored in a last state, also while a port fires, and only on the entity
that is ticked now does anything wait. When nothing remains to be done no roster is in a tick,
nothing waits and every stored effect is live. Ending a tick keeps exactly the live effects. And
from the step that begins the tick of an entity on, the roster looks to every look-up of live
effects like the one to which the same was done and which dropped at once whatever ended: that one
stores the live effects alone. -/
theorem removals_wait_unseen {admits : Request → Prop} {start : World} {past : List Cascade}
    {now : Cascade} (session : Session admits start past now) (calm : start.Calm)
    (blank : ∀ id entity, start.entity? id = some entity → entity.effects = .empty)
    (lawful : ∀ request, admits request → request.isLawful = true) :
    ∀ id entity, now.world.entity? id = some entity →
      (entity.effects.effects.Pairwise (·.id.raw < ·.id.raw) ∧
        ∀ effect ∈ entity.effects.effects,
          effect.id.raw < now.world.nextEffect ∧ effect.target = id) ∧
      ((∀ key, key ∈ entity.effects.queued ↔
          ∃ effect ∈ entity.effects.effects, effect.id = key ∧ effect.state.isTerminal = true) ∧
        entity.effects.queued.Nodup ∧
        (entity.effects.ticking = true ∨ entity.effects.queued ≠ [] → now.ticked? = some id)) ∧
      (now.agenda = [] → entity.effects.ticking = false ∧ entity.effects.queued = [] ∧
        ∀ effect ∈ entity.effects.effects, effect.isLive = true) ∧
      entity.effects.endTick.effects = entity.effects.live ∧
      ∀ before begun during first, past = before ++ begun :: during → begun.begins? = some id →
        (∀ state ∈ during, state.ticked? = some id) → begun.world.entity? id = some first →
          (Cascade.atOnce id (begun :: during) first.effects).effects = entity.effects.live ∧
            (Cascade.atOnce id (begun :: during) first.effects).LooksLike entity.effects := by
  intro id entity registered
  obtain ⟨exacts, timing⟩ := session.exact_and_timing calm blank lawful
  have sound := (session.sound calm lawful).rosters id entity registered
  have there : now.world.roster? id = some entity.effects := by
    rw [World.roster?, registered]
    rfl
  have exact := exacts id entity.effects there
  have idle (done : now.agenda = []) : entity.effects.ticking = false := by
    refine Bool.eq_false_iff.2 fun ticks => ?_
    have ticked := timing.ticked? there ticks
    rw [Cascade.ticked?, done] at ticked
    cases ticked
  refine ⟨⟨sound.ordered,
    fun effect stored => ⟨sound.below effect stored, sound.placed effect stored⟩⟩,
    ⟨exact.mem_queued sound, exact.once, fun waits => ?_⟩, fun done => ?_, ?_, ?_⟩
  · cases ticks : entity.effects.ticking with
    | true => exact timing.ticked? there ticks
    | false =>
      rcases waits with ticks' | some
      · cases ticks.symm.trans ticks'
      · exact absurd (exact.idle ticks) some
  · refine ⟨idle done, exact.idle (idle done), fun effect stored => ?_⟩
    rw [← exact.prompt_of_idle (idle done)] at stored
    exact (List.mem_filter.1 stored).2
  · rw [exact.endTick]
    rfl
  · intro before begun during first passed begins within found
    have began : begun.world.roster? id = some first.effects := by
      rw [World.roster?, found]
      rfl
    obtain ⟨roster, same, prompt⟩ :=
      session.prompt_eq_atOnce calm blank lawful passed begins within began
    cases there.symm.trans same
    rw [← prompt]
    exact ⟨rfl, entity.effects.looksLike_prompt⟩

/-- A lasting effect. -/
def incense : EffectDef where
  durationType := .infinite
  tags := { asset := .ofPaths ["Incense"] }

/-- A lasting effect that pulses every second. -/
def rite : EffectDef where
  durationType := .infinite
  period := .one

/-- With every pulse the other effect is removed and applied again. -/
def shrine : SkillGraph where
  id := ⟨1⟩
  nodes := [{ id := ⟨1⟩, kind := .effect rite }, { id := ⟨2⟩, kind := .effect incense },
    { id := ⟨3⟩, kind := .task (.removeEffectsWithTags (.ofPaths ["Incense"])) }]
  connections := [⟨⟨1⟩, "periodic", ⟨3⟩, "input"⟩, ⟨⟨3⟩, "complete", ⟨2⟩, "input"⟩]

/-- An entity receives both effects. -/
def consecration : List Request :=
  [.library (.ok (.insert shrine)), .spawn ⟨1⟩,
    .activate ⟨1⟩ ⟨2⟩ { caster := ⟨1⟩, edits := [.target ⟨1⟩] },
    .activate ⟨1⟩ ⟨1⟩ { caster := ⟨1⟩, edits := [.target ⟨1⟩] }]

/-- The state that is reached, in which a second passes next. -/
def consecrated : Cascade :=
  Cascade.afterEach 40 { world := World.create {} .empty, agenda := [] } consecration

/-- The state in which the tick of the entity begins. -/
def attended : Cascade := (Cascade.ofRequest consecrated.world (.tick 1 1)).run 4

/-- The state in which the effect that was applied again fires its first port. -/
def rewarded : Cascade := attended.run 25

/-- The states gone through before the tick of the entity. -/
def attending : List Cascade :=
  Cascade.duringEach 40 { world := World.create {} .empty, agenda := [] } consecration ++
    [consecrated] ++ (Cascade.ofRequest consecrated.world (.tick 1 1)).during 4

/-- That second passes in a session. -/
theorem session_rewarded : Session (fun request => request.isLawful = true) (World.create {} .empty)
    (attending ++ attended :: attended.step.during 24) rewarded := by
  have begun : Session (fun request => request.isLawful = true) (World.create {} .empty)
      (Cascade.duringEach 40 { world := World.create {} .empty, agenda := [] } consecration)
      consecrated := .ofRequests 40 consecration (by decide +kernel) (by decide +kernel)
  have done : consecrated.agenda = [] := List.isEmpty_iff.1 (by decide +kernel)
  have asked : Session (fun request => request.isLawful = true) (World.create {} .empty)
      (Cascade.duringEach 40 { world := World.create {} .empty, agenda := [] } consecration ++
        [consecrated]) (.ofRequest consecrated.world (.tick 1 1)) := begun.asked done rfl
  have session : Session (fun request => request.isLawful = true) (World.create {} .empty)
      (attending ++ attended.during 25) rewarded :=
    (asked.run 4 (by decide +kernel)).run 25 (by decide +kernel)
  have busy : attended.isDone = false := by decide +kernel
  have onward : attended.during 25 = attended :: attended.step.during 24 := by
    rw [Cascade.during, busy, if_neg Bool.false_ne_true]
  rw [onward] at session
  exact session

/-- While the new effect fires its first port the old one waits to be dropped, and the two others
are what is there at once. -/
theorem incense_waits_unseen : (World.create {} .empty).Calm ∧
    (∀ id entity, (World.create {} .empty).entity? id = some entity → entity.effects = .empty) ∧
    Session (fun request => request.isLawful = true) (World.create {} .empty)
      (attending ++ attended :: attended.step.during 24) rewarded ∧
    ∃ entity, rewarded.world.entity? ⟨1⟩ = some entity ∧ entity.effects.queued = [⟨1⟩] ∧
      entity.effects.effects.map (·.id) = [⟨1⟩, ⟨2⟩, ⟨3⟩] ∧ rewarded.ticked? = some ⟨1⟩ ∧
      ∃ first, attended.world.entity? ⟨1⟩ = some first ∧
        (Cascade.atOnce ⟨1⟩ (attended :: attended.step.during 24) first.effects).LooksLike
          entity.effects := by
  have calm := World.calm_create {} .empty
  have blank : ∀ id entity, (World.create {} .empty).entity? id = some entity →
      entity.effects = .empty := fun id entity found => by cases found
  have shown : (rewarded.world.entity? ⟨1⟩).map (fun entity =>
      (entity.effects.queued, entity.effects.effects.map (·.id))) =
        some ([⟨1⟩], [⟨1⟩, ⟨2⟩, ⟨3⟩]) := by decide +kernel
  obtain ⟨entity, registered, facts⟩ := Option.map_eq_some_iff.1 shown
  have queued : entity.effects.queued = [⟨1⟩] := congrArg Prod.fst facts
  have known : (attended.world.entity? ⟨1⟩).isSome = true := by decide +kernel
  obtain ⟨first, found⟩ := Option.isSome_iff_exists.1 known
  have begins : attended.begins? = some ⟨1⟩ := by decide +kernel
  have ticked : ∀ state ∈ attended.step.during 24, state.ticked? = some ⟨1⟩ := by
    have all : (attended.step.during 24).all (·.ticked? == some ⟨1⟩) = true := by decide +kernel
    exact fun state member => beq_iff_eq.1 (List.all_eq_true.1 all state member)
  have unseen :=
    removals_wait_unseen session_rewarded calm blank (fun _ lawful => lawful) ⟨1⟩ entity registered
  exact ⟨calm, blank, session_rewarded, entity, registered, queued, congrArg Prod.snd facts,
    unseen.2.1.2.2 (.inr (by rw [queued]; exact List.cons_ne_nil _ _)), first, found,
    (unseen.2.2.2.2 _ _ _ first rfl begins ticked found).2⟩

end SkillEngine
