import SkillEngine.Proofs.Edits
import SkillEngine.Proofs.Session

/-!
# Stacks within limits

A stored effect has at most as many stacks as its own policy allows, and a live one has at least
one, whatever stacks onto it, expires or is removed, and from inside whichever walk. The one state
in between is that in which the last stack has gone and the very next frame ends the effect: it is
told apart by `Cascade.spends?`, and the invariant there speaks of the world that the stack was
still part of. Scripts may do anything but store an effect that breaks its limit.
-/

namespace SkillEngine

/-- How many stacks the policy of an effect allows; without one it has a single stack. -/
def EffectDef.stackLimit (definition : EffectDef) : Nat :=
  match definition.stacking with
  | none => 1
  | some policy => policy.maxStacks

/-- There is always room for one stack. -/
theorem EffectDef.stackLimit_pos (definition : EffectDef) : 1 ≤ definition.stackLimit := by
  unfold stackLimit
  split
  · exact Nat.le_refl 1
  · exact Nat.le_max_right _ 1

namespace Effect

/-- The stacks of an effect are within its limit, and a live effect has some. -/
structure WithinLimit (effect : Effect) : Prop where
  /-- Not more than the policy allows. -/
  atMost : effect.stackCount ≤ effect.definition.stackLimit
  /-- One at least, as long as it lives. -/
  atLeast : effect.isLive = true → 1 ≤ effect.stackCount

namespace WithinLimit

variable {before after : Effect}

/-- Stacks, definition and state alone matter. -/
theorem congr (within : before.WithinLimit) (definition : after.definition = before.definition)
    (count : after.stackCount = before.stackCount)
    (live : after.isLive = true → before.isLive = true) : after.WithinLimit where
  atMost := by
    rw [definition, count]
    exact within.atMost
  atLeast alive := by
    rw [count]
    exact within.atLeast (live alive)

/-- Renewing magnitudes. -/
theorem renewed (within : before.WithinLimit) (updates : List (Nat × AttributeId × Float32)) :
    (before.renewed updates).WithinLimit := by
  rw [Effect.renewed_eq]
  exact within.congr rfl rfl fun live => live

/-- Letting time pass. -/
theorem advance (within : before.WithinLimit) (seconds : Float32) :
    (before.advance seconds).2.WithinLimit := by
  unfold Effect.advance
  split
  · exact within
  · next proceeds =>
    simp only [Bool.or_eq_true, not_or, Bool.not_eq_true', Bool.not_eq_false] at proceeds
    exact within.congr rfl rfl fun _ => proceeds.1

/-- Another application: the limit is the policy of the instance that is stacked onto. -/
theorem restack (within : before.WithinLimit) {policy : StackingPolicy}
    (stacking : before.definition.stacking = some policy) :
    (before.restack policy).WithinLimit := by
  have limit : before.definition.stackLimit = policy.maxStacks := by
    rw [EffectDef.stackLimit, stacking]
  have room : 1 ≤ policy.maxStacks := limit ▸ before.definition.stackLimit_pos
  have most := within.atMost
  rw [limit] at most
  unfold Effect.restack Effect.atLimit
  by_cases full : policy.maxStacks ≤ before.stackCount
  · rw [if_pos (decide_eq_true full)]
    exact ⟨limit ▸ most, fun _ => Nat.le_trans room full⟩
  · rw [if_neg (by simpa using full)]
    exact ⟨limit ▸ Nat.lt_of_not_le full, fun _ => Nat.le_add_left 1 _⟩

/-- An effect that is not live needs no stack. -/
theorem of_over (most : after.stackCount ≤ after.definition.stackLimit)
    (ended : after.isLive = false) : after.WithinLimit :=
  ⟨most, fun live => by rw [ended] at live; cases live⟩

end WithinLimit

end Effect

namespace EffectRoster

/-- Every stored effect is within its limit. -/
def WithinLimits (roster : EffectRoster) : Prop := ∀ effect ∈ roster.effects, effect.WithinLimit

variable {roster : EffectRoster} {key : EffectId}

namespace WithinLimits

/-- A roster that stores no others. -/
theorem of_subset {after : EffectRoster} (within : roster.WithinLimits)
    (fewer : ∀ effect ∈ after.effects, effect ∈ roster.effects) : after.WithinLimits :=
  fun effect stored => within effect (fewer effect stored)

/-- Replacing an instance by one that is within its limit. -/
theorem replace (within : roster.WithinLimits) {after : Effect} (keeps : after.WithinLimit) :
    (roster.modify key fun _ => after).WithinLimits := by
  intro effect stored
  rcases mem_replace stored with before | rfl
  · exact within effect before
  · exact keeps

/-- Storing one more that is within its limit. -/
theorem insert (within : roster.WithinLimits) {after : Effect} (keeps : after.WithinLimit) :
    (roster.insert after).WithinLimits := by
  intro effect stored
  rcases List.mem_append.1 stored with before | last
  · exact within effect before
  · exact List.mem_singleton.1 last ▸ keeps

/-- Changing an instance that is found. -/
theorem modify (within : roster.WithinLimits) {change : Effect → Effect}
    (keeps : ∀ effect, roster.get? key = some effect → (change effect).WithinLimit) :
    (roster.modify key change).WithinLimits := by
  cases found : roster.get? key with
  | none =>
    rw [modify_of_missing found]
    exact within
  | some effect =>
    rw [modify_of_get? found]
    exact within.replace (keeps effect found)

/-- Ending a live instance. -/
theorem release (within : roster.WithinLimits) {effect : Effect}
    (found : roster.get? key = some effect) (live : effect.isLive = true) (state : EffectState) :
    (roster.release key state).WithinLimits := by
  have kept := within effect (mem_of_get? found).1
  have ended : (roster.modify key (·.ended state)).WithinLimits :=
    within.modify fun other stored => by
      rw [found] at stored
      cases stored
      exact ⟨kept.atMost, fun _ => kept.atLeast live⟩
  exact ended.of_subset fun effect stored => mem_of_mem_remove stored

/-- Asking a roster, if what is stored on request is within its limit. -/
theorem perform (within : roster.WithinLimits) {request : RosterRequest}
    (keeps : ∀ effect, request = .insert effect → effect.WithinLimit) :
    (request.perform roster).2.WithinLimits := by
  cases request with
  | insert effect => exact within.insert (keeps effect rfl)
  | remove id => exact within.of_subset fun effect stored => mem_of_mem_remove stored
  | endTick => exact within.of_subset fun effect stored => List.mem_of_mem_filter stored
  | advance id seconds =>
    simp only [RosterRequest.perform]
    split
    · exact within
    · next effect found =>
      exact within.replace ((within effect (mem_of_get? found).1).advance seconds)
  | clear => exact fun effect stored => by cases stored
  | _ => exact within

end WithinLimits

end EffectRoster

namespace World

/-- Every effect that is stored, on a registered entity or on one that waits to join, is within its
limit. -/
structure WithinLimits (world : World) : Prop where
  /-- On the registered entities. -/
  rosters : ∀ id roster, world.roster? id = some roster → roster.WithinLimits
  /-- On those that wait to join. -/
  waiting : ∀ entity ∈ world.registry.pendingAdd, entity.effects.WithinLimits

variable {world after : World} {frame : Frame} {id : EntityId}
  {edit : EffectRoster → EffectRoster}

/-- An effect that is found is within its limit. -/
theorem WithinLimits.found (within : world.WithinLimits) {handle : EffectHandle} {effect : Effect}
    (found : world.effect? handle = some effect) : effect.WithinLimit := by
  rw [effect?_eq_roster] at found
  obtain ⟨roster, registered, stored⟩ := Option.bind_eq_some_iff.1 found
  exact within.rosters _ roster registered effect (EffectRoster.mem_of_get? stored).1

/-- An edit of one roster that keeps it within limits keeps the world so. -/
theorem WithinLimits.edited (within : world.WithinLimits) (edits : world.Edits after id edit)
    (keeps : ∀ roster, world.roster? id = some roster → (edit roster).WithinLimits)
    (roll : after.registry.roll = world.registry.roll) : after.WithinLimits where
  rosters other roster found := by
    obtain ⟨earlier, stored, rfl⟩ := edits.origin found
    split
    · next same => exact keeps earlier (same ▸ stored)
    · exact within.rosters other earlier stored
  waiting := by
    rw [show after.registry.pendingAdd = world.registry.pendingAdd from
      congrArg Registry.Roll.joining roll]
    exact within.waiting

/-- One world is another in which the last stack of an effect has just gone. -/
structure Spends (before after : World) (handle : EffectHandle) (spent : Effect) : Prop where
  /-- The effect was there. -/
  found : ∃ effect, before.effect? handle = some effect
  /-- It is replaced. -/
  edits : before.Edits after handle.target (·.modify handle.id fun _ => spent)
  /-- By one of its number. -/
  number : spent.id = handle.id
  /-- It has no more stacks than its policy allows. -/
  atMost : spent.stackCount ≤ spent.definition.stackLimit
  /-- It has a policy. -/
  limited : spent.definition.stacking ≠ none
  /-- Nobody has joined or left. -/
  roll : after.registry.roll = before.registry.roll

/-- The one who is spent is found. -/
theorem Spends.effect? {handle : EffectHandle} {spent : Effect}
    (spends : world.Spends after handle spent) : after.effect? handle = some spent := by
  obtain ⟨effect, found⟩ := spends.found
  rw [effect?_eq_roster] at found
  obtain ⟨roster, registered, stored⟩ := Option.bind_eq_some_iff.1 found
  rw [effect?_eq_roster, spends.edits.self registered]
  exact EffectRoster.get?_replace stored spends.number

/-- Ending the effect that is spent sets things right. -/
theorem WithinLimits.finish {handle : EffectHandle} {spent : Effect}
    (within : world.WithinLimits) (spends : world.Spends after handle spent) :
    (after.finish handle .expired true).world.WithinLimits := by
  have ended : EffectState.expired.isLive = false := rfl
  by_cases live : spent.isLive = true
  · rw [finish_of_live spends.effect? live]
    -- The spent effect goes over before it is looked at again.
    refine within.edited (spends.edits.trans (edits_release after handle spent .expired))
      (fun roster registered => ?_) ((roll_release after handle spent .expired).trans spends.roll)
    have ended : ((roster.modify handle.id fun _ => spent).modify handle.id
        (·.ended .expired)).WithinLimits := by
      rw [EffectRoster.replace_modify spends.number]
      exact (within.rosters _ roster registered).replace (.of_over spends.atMost ended)
    exact ended.of_subset fun effect stored => EffectRoster.mem_of_mem_remove stored
  · rw [finish_of_not_isLive ((isLive_eq spends.effect?).trans (Bool.eq_false_iff.2 live))]
    refine within.edited spends.edits (fun roster registered => ?_) spends.roll
    exact (within.rosters _ roster registered).replace
      (.of_over spends.atMost (by simpa using live))

/-- What an effect that is touched becomes is within its limit, unless its last stack has gone. -/
theorem Touches.withinLimit {handle : EffectHandle} {before touched : Effect}
    (touches : world.Touches frame handle before touched) (within : before.WithinLimit) :
    touched.WithinLimit ∨ touched.stackCount ≤ touched.definition.stackLimit ∧
      touched.definition.stacking ≠ none ∧ frame = .expire handle ∧
        (world.expire handle).frames = [.finish handle .expired true] := by
  cases touches with
  | owning => exact .inl (within.congr rfl rfl fun live => live)
  | stacked _ stacking => exact .inl ((within.restack stacking).renewed _)
  | spent expires stacking _ ends =>
    refine .inr ⟨Nat.le_trans (Nat.sub_le _ 1) within.atMost, fun none => ?_, expires, ends⟩
    rw [stacking] at none
    cases none
  | lessened _ more =>
    exact .inl ⟨Nat.le_trans (Nat.sub_le _ 1) within.atMost, fun _ => Nat.pos_of_ne_zero more⟩
  | restarted => exact .inl (within.congr rfl rfl fun live => live)
  | ticked =>
    have fresh : Effect.WithinLimit
        { before with context := { before.context with depth := 0 } } :=
      within.congr rfl rfl fun live => live
    exact .inl ((fresh.advance _).renewed _)

/-- A frame that registers and unregisters nobody keeps effects within their limits, or takes a last
stack and leaves the effect to end next. -/
theorem WithinLimits.expand (within : world.WithinLimits) (reply : Reply)
    (plain : frame.enrols = false)
    (keeps : ∀ id effect, frame = .perform (.effects id (.ok (.insert effect))) →
      effect.WithinLimit) :
    (frame.expand world reply).world.WithinLimits ∨
      ∃ handle spent, (frame.expand world reply).frames = [.finish handle .expired true] ∧
        world.Spends (frame.expand world reply).world handle spent := by
  have roll := roll_expand world reply plain
  obtain ⟨id, edit, done, edits⟩ := editsOnce_expand world reply plain
  cases done with
  | still => exact .inl (within.edited edits (within.rosters _) roll)
  | touch found touches =>
    rcases touches.withinLimit (within.found found) with keeps | ⟨atMost, limited, rfl, ends⟩
    · exact .inl (within.edited edits
        (fun roster registered => (within.rosters _ roster registered).replace keeps) roll)
    · obtain ⟨_, _, _, number⟩ := of_effect? found
      exact .inr ⟨_, _, ends, ⟨_, found⟩, edits, touches.number.trans number, atMost, limited,
        roll⟩
  | @release handle state fires effect found live =>
    refine .inl (within.edited edits (fun roster registered => ?_) roll)
    rw [effect?_eq_roster, registered] at found
    exact (within.rosters _ roster registered).release found live state
  | insert =>
    have new {application : Application} {target : EntityId} {duration : Float32} :
        (world.newEffect application target duration).WithinLimit :=
      ⟨EffectDef.stackLimit_pos _, fun _ => Nat.le_refl 1⟩
    exact .inl (within.edited edits
      (fun roster registered => (within.rosters _ roster registered).insert new) roll)
  | begin =>
    exact .inl (within.edited edits (fun roster registered => within.rosters _ roster registered)
      roll)
  | finish =>
    exact .inl (within.edited edits (fun roster registered =>
      (within.rosters _ roster registered).of_subset fun effect stored =>
        List.mem_of_mem_filter stored) roll)
  | asked =>
    exact .inl (within.edited edits (fun roster registered =>
      (within.rosters _ roster registered).perform fun effect asked =>
        keeps _ effect (by rw [asked])) roll)

/-- A world that was just made stores no effects. -/
theorem withinLimits_create (config : EngineConfig) (table : AttributeTable) :
    (World.create config table).WithinLimits :=
  ⟨fun _ _ found => (by cases found), fun _ waits => (by cases waits)⟩

/-- Registering, unregistering and the two ends of a tick keep effects within their limits. -/
theorem WithinLimits.enrolled (within : world.WithinLimits) (musters : world.Musters after) :
    after.WithinLimits := by
  have waits {entity : Entity}
      (waits : entity ∈ world.registry.pendingAdd ∨ entity.effects = .empty) :
      entity.effects.WithinLimits := by
    rcases waits with waits | blank
    · exact within.waiting entity waits
    · intro effect stored
      rw [blank] at stored
      cases stored
  refine ⟨fun id roster found => ?_, fun entity member => waits (musters.waiting entity member)⟩
  rcases musters.rosters id roster found with before | ⟨newcomer, origin, rfl⟩
  · exact within.rosters id roster before
  · exact waits origin

end World

namespace Cascade

/-- The effect that the next frame ends because it has run out. -/
def spends? (cascade : Cascade) : Option EffectHandle :=
  match cascade.agenda with
  | .finish handle .expired true :: _ => some handle
  | _ => none

/-- The effect that the next frame stores on direct request. -/
def stores? (cascade : Cascade) : Option Effect :=
  match cascade.agenda with
  | .perform (.effects _ (.ok (.insert effect))) :: _ => some effect
  | _ => none

/-- Every stored effect is within its limit, or it was until the last stack of one has just gone,
which ends next. -/
def SpentOrWithin (cascade : Cascade) : Prop :=
  cascade.world.WithinLimits ∨ ∃ earlier handle spent, World.WithinLimits earlier ∧
    earlier.Spends cascade.world handle spent ∧ cascade.spends? = some handle

variable {cascade : Cascade} {frame : Frame} {rest : List Frame}

/-- What is spent ends next. -/
theorem eq_finish_of_spends? {handle : EffectHandle} (next : cascade.agenda = frame :: rest)
    (spends : cascade.spends? = some handle) : frame = .finish handle .expired true := by
  unfold spends? at spends
  rw [next] at spends
  split at spends
  · next same =>
    cases spends
    exact (List.cons.inj same).1
  · cases spends

/-- A step keeps effects within their limits, the one apart whose last stack has just gone. -/
theorem SpentOrWithin.step (within : cascade.SpentOrWithin) (next : cascade.agenda = frame :: rest)
    (kept : (frame.expand cascade.world cascade.reply).lost = false)
    (keeps : ∀ effect, cascade.stores? = some effect → effect.WithinLimit) :
    cascade.step.SpentOrWithin := by
  have reached := world_step next
  have left := agenda_step next kept
  rcases within with within | ⟨earlier, handle, spent, within, spends, ends⟩
  · cases enrols : frame.enrols with
    | true =>
      refine .inl ?_
      rw [reached]
      exact within.enrolled (World.musters_expand _ cascade.reply enrols)
    | false =>
      have stored (id : EntityId) (effect : Effect)
          (asked : frame = .perform (.effects id (.ok (.insert effect)))) : effect.WithinLimit :=
        keeps effect (by rw [stores?, next, asked])
      rcases within.expand cascade.reply enrols stored with within | ⟨handle, spent, ends, spends⟩
      · exact .inl (reached ▸ within)
      · refine .inr ⟨_, handle, spent, within, reached ▸ spends, ?_⟩
        rw [spends?, left, ends]
        rfl
  · refine .inl ?_
    rw [reached, eq_finish_of_spends? next ends]
    exact within.finish spends

/-- What is stored on an entity has at most as many stacks as it may, and one at least if it lives,
unless it has a policy and ends next. -/
theorem SpentOrWithin.stored (within : cascade.SpentOrWithin) {id : EntityId} {entity : Entity}
    (registered : cascade.world.entity? id = some entity) {effect : Effect}
    (member : effect ∈ entity.effects.effects) (live : effect.isLive = true) :
    effect.stackCount ≤ effect.definition.stackLimit ∧ (1 ≤ effect.stackCount ∨
      effect.definition.stacking ≠ none ∧ cascade.spends? = some ⟨id, effect.id⟩) := by
  have there : cascade.world.roster? id = some entity.effects := by
    rw [World.roster?, registered]
    rfl
  have settled (within : effect.WithinLimit) : effect.stackCount ≤ effect.definition.stackLimit ∧
      (1 ≤ effect.stackCount ∨
        effect.definition.stacking ≠ none ∧ cascade.spends? = some ⟨id, effect.id⟩) :=
    ⟨within.atMost, .inl (within.atLeast live)⟩
  rcases within with within | ⟨earlier, handle, spent, within, spends, ends⟩
  · exact settled (within.rosters id _ there effect member)
  · obtain ⟨roster, before, same⟩ := spends.edits.origin there
    rw [same] at member
    split at member
    · next here =>
      rcases EffectRoster.mem_replace member with old | rfl
      · exact settled (within.rosters id roster before effect old)
      · exact ⟨spends.atMost, .inr ⟨spends.limited, by rw [ends, here, spends.number]⟩⟩
    · exact settled (within.rosters id roster before effect member)

end Cascade

/-- If effects are within their limits at the start of a session, then in every state that it
reaches they are so, or the last stack of one has just gone. -/
theorem Session.spentOrWithin {admits : Request → Prop} {start : World} {past : List Cascade}
    {now : Cascade} (session : Session admits start past now) (within : start.WithinLimits)
    (stored : ∀ state ∈ past, ∀ effect, state.stores? = some effect → effect.WithinLimit) :
    now.SpentOrWithin := by
  induction session with
  | opened => exact .inl within
  | asked session done _ ih =>
    rcases ih fun state member => stored state (List.mem_append_left _ member) with
      within | ⟨_, _, _, _, _, ends⟩
    · exact .inl within
    · rw [Cascade.spends?, done] at ends
      cases ends
  | stepped session next kept ih =>
    exact (ih fun state member => stored state (List.mem_append_left _ member)).step next kept
      (stored _ (List.mem_append_right _ List.mem_cons_self))

/-- In every state of a session a live effect with a stacking policy of its own has at most as many
stacks as that allows, and at least one unless the very next frame ends it, its last stack having
gone; and one without a policy has a single stack. So every live effect has a stack whenever a port
fires and whenever nothing remains to be done. Whatever the host or a script stores directly is to
keep its limit itself. -/
theorem stacks_within_limits {admits : Request → Prop} {start : World} {past : List Cascade}
    {now : Cascade} (session : Session admits start past now) (within : start.WithinLimits)
    (stored : ∀ state ∈ past, ∀ effect, state.stores? = some effect → effect.WithinLimit) :
    ∀ id entity, now.world.entity? id = some entity → ∀ effect ∈ entity.effects.effects,
      effect.isLive = true →
        (∀ policy, effect.definition.stacking = some policy →
          effect.stackCount ≤ policy.maxStacks ∧
            (1 ≤ effect.stackCount ∨ now.spends? = some ⟨id, effect.id⟩)) ∧
        (effect.definition.stacking = none → effect.stackCount = 1) := by
  intro id entity registered effect member live
  obtain ⟨most, least⟩ := (session.spentOrWithin within stored).stored registered member live
  unfold EffectDef.stackLimit at most
  refine ⟨fun policy stacking => ?_, fun stacking => ?_⟩
  · rw [stacking] at most
    exact ⟨most, least.imp_right (·.2)⟩
  · rw [stacking] at most
    rcases least with some | ⟨limited, _⟩
    · exact Nat.le_antisymm most some
    · exact absurd stacking limited

/-- A timed effect of at most two stacks that runs out stack by stack. -/
def ember : EffectDef where
  durationType := .duration
  duration := .fixed .one
  stacking := some {
    limit := 2
    overflow := .allowOverflowEffect
    expiration := .removeSingleStackAndRefreshDuration }

/-- At its limit the effect applies itself again. -/
def blaze : SkillGraph where
  id := ⟨1⟩
  nodes := [{ id := ⟨1⟩, kind := .effect ember }]
  connections := [⟨⟨1⟩, "overflow", ⟨1⟩, "input"⟩]

/-- An entity receives the effect three times, once beyond its limit, and a second goes by. -/
def blazeRequests : List Request :=
  [.library (.ok (.insert blaze)), .spawn ⟨1⟩,
    .activate ⟨1⟩ ⟨1⟩ { caster := ⟨1⟩, edits := [.target ⟨1⟩] },
    .activate ⟨1⟩ ⟨1⟩ { caster := ⟨1⟩, edits := [.target ⟨1⟩] },
    .activate ⟨1⟩ ⟨1⟩ { caster := ⟨1⟩, edits := [.target ⟨1⟩] }, .tick 1 1]

/-- The world in which that happens: walks go two hops deep. -/
def hearth : World := .create { maxCascadeDepth := 2 } .empty

/-- The states gone through meanwhile. -/
def blazing : List Cascade := Cascade.duringEach 60 { world := hearth, agenda := [] } blazeRequests

/-- The state that is reached. -/
def blazed : Cascade := Cascade.afterEach 60 { world := hearth, agenda := [] } blazeRequests

/-- In the end the effect has one stack left of two. -/
theorem ember_within_limits :
    Session (fun _ => True) hearth blazing blazed ∧ hearth.WithinLimits ∧
    (∀ state ∈ blazing, ∀ effect, state.stores? = some effect → effect.WithinLimit) ∧
    ∃ entity effect, blazed.world.entity? ⟨1⟩ = some entity ∧ effect ∈ entity.effects.effects ∧
      effect.isLive = true ∧ effect.stackCount = 1 ∧
      (∀ policy, effect.definition.stacking = some policy → effect.stackCount ≤ policy.maxStacks ∧
        (1 ≤ effect.stackCount ∨ blazed.spends? = some ⟨⟨1⟩, effect.id⟩)) ∧
      (effect.definition.stacking = none → effect.stackCount = 1) := by
  have session : Session (fun _ => True) hearth blazing blazed :=
    .ofRequests 60 blazeRequests (fun _ _ => trivial) (by decide +kernel)
  have within : hearth.WithinLimits := World.withinLimits_create _ _
  have silent : ∀ state ∈ blazing, state.stores?.isNone = true :=
    List.all_eq_true.1 (by decide +kernel)
  have stored : ∀ state ∈ blazing, ∀ effect, state.stores? = some effect → effect.WithinLimit := by
    intro state member effect stores
    have none := silent state member
    rw [stores] at none
    cases none
  have alive : (blazed.world.effect? ⟨⟨1⟩, ⟨1⟩⟩).map
      (fun effect => (effect.isLive, effect.stackCount)) = some (true, 1) := by decide +kernel
  obtain ⟨effect, found, facts⟩ := Option.map_eq_some_iff.1 alive
  obtain ⟨entity, registered, kept, _⟩ := World.of_effect? found
  have member := (EffectRoster.mem_of_get? kept).1
  have live : effect.isLive = true := congrArg Prod.fst facts
  exact ⟨session, within, stored, entity, effect, registered, member, live,
    congrArg Prod.snd facts,
    stacks_within_limits session within stored ⟨1⟩ entity registered effect member live⟩

end SkillEngine
