import SkillEngine.Proofs.Expiry
import SkillEngine.Proofs.Protocol
import SkillEngine.Proofs.Visits
import Mathlib.Algebra.GroupWithZero.Nat

/-!
# When a new effect first ages

A tick visits the registered entities in turn, and lets time pass for the effects that are live on
an entity when it comes there. Meanwhile effects take hold on any of them. On an entity that the
tick has come to already a new effect does not age before the next tick. On one that the tick has
still to visit it does, once, in the very tick in which it took hold.
-/

namespace SkillEngine

namespace EffectRoster

variable {roster : EffectRoster} {next : Nat} {owner : EntityId} {key : EffectId}

/-- A number is that of a live instance if it finds one. -/
theorem Sound.mem_liveIds (sound : roster.Sound next owner) :
    key ∈ roster.liveIds ↔ (roster.get? key).any (·.isLive) = true := by
  unfold liveIds
  rw [List.mem_map, Option.any_eq_true]
  constructor
  · rintro ⟨effect, live, rfl⟩
    obtain ⟨stored, alive⟩ := List.mem_filter.1 live
    exact ⟨effect, sound.get?_eq stored, alive⟩
  · rintro ⟨effect, found, alive⟩
    obtain ⟨stored, same⟩ := mem_of_get? found
    exact ⟨effect, List.mem_filter.2 ⟨stored, alive⟩, same⟩

/-- The live instances have different numbers. -/
theorem Sound.nodup_liveIds (sound : roster.Sound next owner) : roster.liveIds.Nodup :=
  List.pairwise_map.2 (sound.distinct.filter _)

end EffectRoster

/-- The timers stand at their start. -/
def Clock.AtStart (clock : Clock Float32) : Prop := clock.elapsed = 0 ∧ clock.periodTimer = 0

/-- The pulses that an application brings. -/
def EffectDef.pulsesAtOnce (definition : EffectDef) : Nat :=
  if definition.isPeriodic && definition.executePeriodicOnApplication then 1 else 0

namespace Frame

/-- Time passes for an effect. -/
def ages (handle : EffectHandle) : Frame → Bool
  | .tickEffect ticked _ => decide (ticked = handle)
  | _ => false

/-- The entity that is visited. -/
def visits? : Frame → Option EntityId
  | .tickEntity id _ => some id
  | _ => none

/-- The pulses of an effect that remain to be fired. -/
def pulsesLeft (handle : EffectHandle) : Frame → Nat
  | .pulses pulsing count => if pulsing = handle then count else 0
  | .fire firing =>
    if firing.cause = some handle ∧ firing.port = EffectPort.periodic.name then 1 else 0
  | _ => 0

/-- The effect that time passes for, that pulses or that fires a port. -/
def about? : Frame → Option EffectHandle
  | .tickEffect ticked _ => some ticked
  | .pulses pulsing _ => some pulsing
  | .fire firing => firing.cause
  | _ => none

variable {world : World} {frame next : Frame} {handle : EffectHandle}

/-- A frame that lets time pass for an effect is about it. -/
theorem about?_of_ages (ages : frame.ages handle = true) : frame.about? = some handle := by
  cases frame with
  | tickEffect ticked seconds => exact congrArg some (of_decide_eq_true ages)
  | _ => cases ages

/-- A frame with pulses of an effect left is about it. -/
theorem about?_of_pulsesLeft (left : frame.pulsesLeft handle ≠ 0) :
    frame.about? = some handle := by
  cases frame with
  | pulses pulsing count =>
    exact congrArg some (Decidable.by_contra fun apart => left (if_neg apart))
  | fire firing =>
    exact Decidable.by_contra fun apart => left (if_neg fun same => apart same.1)
  | _ => exact absurd rfl left

/-- A visit lets time pass once for an effect that is live on the entity, and for no other. -/
theorem countP_ages_tickEntity (sound : world.Sound) (id : EntityId) (seconds : Float32) :
    (world.tickEntity id seconds).frames.countP (ages handle) =
      if id = handle.target ∧ world.isLive handle = true then 1 else 0 := by
  unfold World.tickEntity World.isLive World.effect?
  split
  · next missing =>
    refine (if_neg ?_).symm
    rintro ⟨rfl, live⟩
    simp [missing] at live
  · next entity registered =>
    have roster := sound.rosters _ _ registered
    have counted : ((entity.effects.liveIds.map fun key => Frame.tickEffect ⟨id, key⟩ seconds) ++
        [Frame.endEntityTick id]).countP (ages handle) =
          entity.effects.liveIds.countP fun key => decide (⟨id, key⟩ = handle) := by
      rw [List.countP_append, List.countP_map]
      rfl
    refine counted.trans ?_
    by_cases here : id = handle.target
    · subst here
      have same : (fun key => decide ((⟨handle.target, key⟩ : EffectHandle) = handle)) =
          fun key => key == handle.id := by
        funext key
        cases handle
        simp [Bool.beq_eq_decide_eq]
      rw [same, registered, ← List.count, roster.nodup_liveIds.count]
      exact if_congr ((roster.mem_liveIds).trans (by simp)) rfl rfl
    · rw [if_neg fun both => here both.1, List.countP_eq_zero]
      intro key _ same
      exact here (congrArg EffectHandle.target (of_decide_eq_true same))

/-- Only a visit lets time pass for an effect. -/
theorem Leaves.ages (leaves : frame.Leaves world next) (still : frame.visits? = none)
    (handle : EffectHandle) : next.ages handle = false := by
  cases leaves with
  | host _ opening =>
    cases next with
    | tickEffect => cases opening
    | _ => rfl
  | tickEffect => cases still
  | _ => rfl

/-- A frame lets time pass for an effect later if it visits the entity that the effect is live
on. -/
theorem countP_ages_expand (handle : EffectHandle) (sound : world.Sound) (reply : Reply)
    {admits : Request → Prop} (admitted : frame.Admitted admits) :
    (frame.expand world reply).frames.countP (ages handle) =
      if frame.visits? = some handle.target ∧ world.isLive handle = true then 1 else 0 := by
  cases visits : frame.visits? with
  | none =>
    refine (List.countP_eq_zero.2 fun next left => ?_).trans (if_neg fun both => ?_).symm
    · exact Bool.eq_false_iff.1 ((leaves_expand sound reply admitted left).ages visits handle)
    · cases both.1
  | some id =>
    cases frame with
    | tickEntity visited seconds =>
      cases visits
      simpa [Frame.expand] using countP_ages_tickEntity sound id seconds
    | _ => cases visits

/-- What a frame leaves is about effects that it finds, or the one that takes hold with it. -/
theorem about?_below (sound : world.Sound) (reply : Reply) {admits : Request → Prop}
    (admitted : frame.Admitted admits)
    (numbering : world.nextEffect ≤ (frame.expand world reply).world.nextEffect)
    (left : next ∈ (frame.expand world reply).frames) (about : next.about? = some handle) :
    handle.id.raw < (frame.expand world reply).world.nextEffect := by
  have known {effect : Effect} (found : world.effect? handle = some effect) :
      handle.id.raw < (frame.expand world reply).world.nextEffect :=
    Nat.lt_of_lt_of_le (sound.numbered_below found) numbering
  cases leaves_expand sound reply admitted left with
  | tickEffect =>
    have visited := countP_ages_expand handle sound reply admitted
    have passes : 0 < (Frame.expand world reply _).frames.countP (ages handle) :=
      List.countP_pos_iff.2 ⟨_, left, by simpa [ages, about?] using about⟩
    rw [visited] at passes
    split at passes
    · next both =>
      obtain ⟨effect, found, _⟩ := World.exists_of_isLive both.2
      exact known found
    · cases passes
  | host _ opening =>
    cases next with
    | fire firing =>
      have uncaused : firing.cause = none := Option.isNone_iff_eq_none.1 opening
      cases uncaused.symm.trans about
    | tickEffect | pulses => cases opening
    | _ => cases about
  | port cause | written cause => cases cause.symm.trans about
  | overflow found | periodic found | pulses found | last found | ticked found =>
    cases about
    exact known found
  | initial new =>
    subst new
    cases about
    show world.nextEffect < _
    rw [Frame.expand, sound.nextEffect_attach]
    exact Nat.lt_succ_self _
  | pulse =>
    cases about
    show world.nextEffect < _
    rw [Frame.expand, sound.nextEffect_attach]
    exact Nat.lt_succ_self _
  | _ => cases about

/-- No pulses of an effect come of a frame with none left, unless they come due or the effect takes
hold. -/
theorem Leaves.pulsesLeft (leaves : frame.Leaves world next)
    (young : frame.ages handle = false) (old : frame.registers? world ≠ some handle)
    (fired : frame.pulsesLeft handle = 0) : next.pulsesLeft handle = 0 := by
  have uncaused {firing : Firing} (cause : firing.cause = none) :
      (Frame.fire firing).pulsesLeft handle = 0 :=
    if_neg fun same => by cases cause.symm.trans same.1
  have another {effect : Effect} {firing : EffectHandle} {port : EffectPort} {context : Context}
      (apart : port ≠ .periodic) :
      (Frame.fire (effect.fires firing port context)).pulsesLeft handle = 0 :=
    if_neg fun same => apart (EffectPort.name_injective same.2)
  have apart {pulsing : EffectHandle} {count : Nat}
      (fired : (Frame.pulses pulsing (count + 1)).pulsesLeft handle = 0) : pulsing ≠ handle :=
    fun same => by cases (if_pos same).symm.trans fired
  cases leaves with
  | port cause | written cause => exact uncaused cause
  | host _ opening =>
    cases next with
    | fire firing => exact uncaused (Option.isNone_iff_eq_none.1 opening)
    | pulses => cases opening
    | _ => rfl
  | overflow | initial => exact another (by decide)
  | last _ _ ends => rcases ends with rfl | rfl <;> exact another (by decide)
  | pulse => exact if_neg fun same => old (congrArg some same)
  | periodic => exact if_neg fun same => apart fired (Option.some.inj same.1)
  | pulses => exact if_neg (apart fired)
  | ticked => exact if_neg fun same => Bool.eq_false_iff.1 young (decide_eq_true same)
  | _ => rfl

/-- The pulses of an effect that a frame leaves to be fired were left to be fired before it, unless
they come due or the effect takes hold. -/
theorem pulsesLeft_expand (sound : world.Sound) (reply : Reply) {admits : Request → Prop}
    (admitted : frame.Admitted admits) (young : frame.ages handle = false)
    (old : frame.registers? world ≠ some handle) :
    ((frame.expand world reply).frames.map (pulsesLeft handle)).sum +
        (frame.port? handle).toList.count EffectPort.periodic.name ≤ frame.pulsesLeft handle := by
  have settled (fired : frame.pulsesLeft handle = 0) :
      ((frame.expand world reply).frames.map (pulsesLeft handle)).sum = 0 :=
    List.sum_eq_zero_iff_forall_eq_nat.2 fun left member => by
      obtain ⟨next, left, rfl⟩ := List.mem_map.1 member
      exact (leaves_expand sound reply admitted left).pulsesLeft young old fired
  cases frame with
  | fire firing =>
    -- A firing leaves no pulses, and is one pulse less if it is one.
    have walked :
        (((Frame.fire firing).expand world reply).frames.map (pulsesLeft handle)).sum = 0 :=
      List.sum_eq_zero_iff_forall_eq_nat.2 fun left member => by
        obtain ⟨next, left, rfl⟩ := List.mem_map.1 member
        cases leaves_fire left <;> rfl
    rw [walked, Nat.zero_add]
    unfold port? pulsesLeft
    dsimp only
    by_cases same : firing.cause = some handle
    · by_cases pulse : firing.port = EffectPort.periodic.name <;> simp [same, pulse]
    · simp [same]
  | pulses pulsing count =>
    show _ + 0 ≤ _
    rw [Nat.add_zero]
    by_cases same : pulsing = handle
    · subst same
      cases count with
      | zero => exact Nat.zero_le _
      | succ count =>
        unfold expand World.pulses
        dsimp only
        split
        · exact Nat.zero_le _
        · split
          · simp [pulsesLeft, Effect.fires, Nat.add_comm]
          · exact Nat.zero_le _
    · rw [settled (if_neg same)]
      exact Nat.zero_le _
  | _ =>
    rw [settled rfl]
    exact Nat.le_refl 0

/-- Timers that stand at their start stay there unless time passes. -/
theorem Winds.atStart {before : Effect} {clock : Clock Float32}
    (winds : frame.Winds handle before clock) (still : frame.ages handle = false)
    (start : before.clock.AtStart) : clock.AtStart := by
  cases winds with
  | kept => exact start
  | advanced ticks =>
    subst ticks
    exact absurd (decide_eq_true rfl) (Bool.eq_false_iff.1 still)
  | @stacked _ policy =>
    obtain ⟨_, _, _, elapsed, timer⟩ := Effect.clock_restack before policy
    exact ⟨elapsed.elim id fun same => same.trans start.1,
      timer.elim id fun same => same.trans start.2⟩
  | restarted => exact ⟨rfl, start.2⟩

/-- In a tick, what is incidental leaves only what is. -/
theorem isIncidental_expand (sound : world.Sound) (running : world.registry.ticking = true)
    (reply : Reply) (nested : frame.Nested) (plain : frame.isIncidental = true)
    (left : next ∈ (frame.expand world reply).frames) : next.isIncidental = true := by
  cases sets : frame.setsTicks with
  | false => exact (leaves_expand sound reply nested left).isIncidental sets
  | true =>
    cases frame with
    | perform request =>
      have ours : request.isNested = true := nested.resolve_left id
      cases leaves_perform request left with
      | host host => cases host.symm.trans ours
      | activate | tick => cases ours
      | _ => rfl
    | ticks seconds count =>
      cases count <;> simp [expand, World.ticks, running] at left
      rw [left]
      rfl
    | beginTick => cases plain
    | _ => cases sets

end Frame

namespace Cascade

/-- With the next step time passes for an effect. -/
def ages (handle : EffectHandle) (cascade : Cascade) : Bool :=
  cascade.agenda.head?.any (Frame.ages handle)

/-- A tick is under way, with the frames that remain after its end. -/
def InTick (cascade : Cascade) (after : List Frame) : Prop :=
  ∃ (inner : List Frame) (remaining : List EntityId) (seconds : Float32), cascade.agenda =
      inner ++ (remaining.map (Frame.tickEntity · seconds) ++ .endTick seconds :: after) ∧
    ∀ frame ∈ inner, frame.isIncidental = true ∧ frame.Nested

variable {now : Cascade} {frame : Frame} {rest after : List Frame} {handle : EffectHandle}

/-- Time passes for an effect with the next frame. -/
theorem ages_eq (next : now.agenda = frame :: rest) : now.ages handle = frame.ages handle := by
  simp [ages, next]

/-- The port that is fired with the next step is the one of the next frame. -/
theorem port?_eq (next : now.agenda = frame :: rest) : now.port? handle = frame.port? handle := by
  simp [port?, next]

/-- Something remains to be done in a tick. -/
theorem InTick.busy (inTick : now.InTick after) : now.agenda ≠ [] := by
  obtain ⟨inner, remaining, seconds, agenda, _⟩ := inTick
  simp [agenda]

/-- A visit in a tick is one of the tick's own. -/
theorem InTick.visits? (inTick : now.InTick after) (next : now.agenda = frame :: rest) :
    now.visits? = frame.visits? := by
  obtain ⟨inner, remaining, seconds, agenda, incidental⟩ := inTick
  cases inner with
  | cons first inner =>
    obtain ⟨rfl, _⟩ := List.cons.inj (next.symm.trans agenda)
    have still := (incidental frame List.mem_cons_self).1
    unfold Cascade.visits?
    rw [next]
    cases frame with
    | tickEntity => cases still
    | _ => rfl
  | nil =>
    cases remaining with
    | nil =>
      obtain ⟨rfl, _⟩ := List.cons.inj (next.symm.trans agenda)
      unfold Cascade.visits?
      rw [next]
      rfl
    | cons id remaining =>
      obtain ⟨rfl, rfl⟩ := List.cons.inj (next.symm.trans agenda)
      unfold Cascade.visits?
      rw [next]
      simp [Frame.onlyVisits_visits, Frame.visits?]

/-- A step in a tick goes on with it, or it ends the tick. -/
theorem InTick.step (inTick : now.InTick after) (sound : now.world.Sound)
    (running : now.world.registry.ticking = true) (next : now.agenda = frame :: rest)
    (kept : (frame.expand now.world now.reply).lost = false) :
    now.step.InTick after ∧ now.step.world.registry.ticking = true ∨
      now.step.agenda = after ∧ now.step.world.registry.ticking = false := by
  obtain ⟨inner, remaining, seconds, agenda, incidental⟩ := inTick
  have left := agenda_step next kept
  cases inner with
  | cons first inner =>
    obtain ⟨rfl, rfl⟩ := List.cons.inj (next.symm.trans agenda)
    obtain ⟨plain, nested⟩ := incidental frame List.mem_cons_self
    have still : frame.turnsTick = false := by
      cases frame with
      | beginTick | endTick => cases plain
      | _ => rfl
    refine .inl ⟨⟨_, remaining, seconds, left.trans (List.append_assoc _ _ _).symm, ?_⟩,
      (ticking_step running next still).1⟩
    intro other member
    rcases List.mem_append.1 member with new | old
    · exact ⟨Frame.isIncidental_expand sound running now.reply nested plain new,
        (Frame.leaves_expand sound now.reply nested new).nested⟩
    · exact incidental other (List.mem_cons_of_mem _ old)
  | nil =>
    cases remaining with
    | nil =>
      obtain ⟨rfl, rfl⟩ := List.cons.inj (next.symm.trans agenda)
      refine .inr ⟨left, ?_⟩
      rw [world_step next]
      exact Registry.ticking_joinEach _ _
    | cons id remaining =>
      obtain ⟨rfl, rfl⟩ := List.cons.inj (next.symm.trans agenda)
      refine .inl ⟨⟨_, remaining, seconds, left, fun other new => ?_⟩,
        (ticking_step running next rfl).1⟩
      have leaves := Frame.leaves_tickEntity new
      exact ⟨leaves.isIncidental rfl, leaves.nested⟩

/-- Since some states, time has passed for an effect, or is about to, no more often than its target
was visited, and as often if it is live. -/
structure Aged (handle : EffectHandle) (later : List Cascade) (now : Cascade) : Prop where
  /-- No more often. -/
  most : later.countP (·.ages handle) + now.agenda.countP (Frame.ages handle) ≤
    (later.filterMap (·.visits?)).count handle.target
  /-- As often. -/
  all : now.world.isLive handle = true →
    later.countP (·.ages handle) + now.agenda.countP (Frame.ages handle) =
      (later.filterMap (·.visits?)).count handle.target

/-- A step that visits the target lets time pass for the effect if it is live, and no other does. -/
theorem Aged.step {later : List Cascade} (aged : Aged handle later now) (sound : now.world.Sound)
    {admits : Request → Prop} (admitted : frame.Admitted admits)
    (next : now.agenda = frame :: rest)
    (kept : (frame.expand now.world now.reply).lost = false)
    (visits : now.visits? = frame.visits?)
    (lived : now.step.world.isLive handle = true → now.world.isLive handle = true) :
    Aged handle (later ++ [now]) now.step := by
  have passes := Frame.countP_ages_expand handle sound now.reply admitted
  have moved : (later ++ [now]).countP (·.ages handle) +
      now.step.agenda.countP (Frame.ages handle) =
        later.countP (·.ages handle) + now.agenda.countP (Frame.ages handle) +
          (frame.expand now.world now.reply).frames.countP (Frame.ages handle) := by
    rw [agenda_step next kept, next]
    simp only [List.countP_append, List.countP_cons, List.countP_nil, ages_eq next]
    omega
  have visited : ((later ++ [now]).filterMap (·.visits?)).count handle.target =
      (later.filterMap (·.visits?)).count handle.target +
        if frame.visits? = some handle.target then 1 else 0 := by
    rw [filterMap_concat, List.count_append, visits]
    cases frame.visits? with
    | none => simp
    | some id => simp [List.count_singleton]
  constructor
  · rw [moved, visited, passes]
    have most := aged.most
    by_cases here : frame.visits? = some handle.target
    · simp only [here, true_and, if_true]
      split <;> omega
    · simpa [here] using most
  · intro live
    rw [moved, visited, passes, aged.all (lived live)]
    simp only [lived live, and_true]

end Cascade

namespace Session

variable {admits : Request → Prop} {start : World} {past before later : List Cascade}
  {state now : Cascade} {handle : EffectHandle}

/-- Every state gone through was reached by what came before it. -/
theorem cut (session : Session admits start past now) (split : past = before ++ state :: later) :
    Session admits start before state := by
  induction session generalizing later with
  | opened => simp at split
  | asked session _ _ ih | stepped session _ _ ih =>
    rcases Cascade.last_or_earlier split with ⟨rfl, rfl⟩ | ⟨earlier, _, same⟩
    · rw [← (List.append_inj' split rfl).1]
      exact session
    · exact ih same

/-- What holds after a step holds from then on if it lasts whatever is asked and taken next. -/
theorem since {motive : List Cascade → Cascade → Prop} {frame : Frame} {rest : List Frame}
    (session : Session admits start past now) (split : past = before ++ state :: later)
    (next : state.agenda = frame :: rest)
    (first : (frame.expand state.world state.reply).lost = false → motive [] state.step)
    (asked : ∀ later now request, Session admits start (before ++ state :: later) now →
      now.agenda = [] → motive later now → motive (later ++ [now]) (.ofRequest now.world request))
    (stepped : ∀ later now frame rest, Session admits start (before ++ state :: later) now →
      now.agenda = frame :: rest → (frame.expand now.world now.reply).lost = false →
        motive later now → motive (later ++ [now]) now.step) : motive later now := by
  induction session generalizing later with
  | opened => simp at split
  | @asked past now request session done _ ih =>
    rcases Cascade.last_or_earlier split with ⟨rfl, rfl⟩ | ⟨earlier, rfl, rfl⟩
    · cases next.symm.trans done
    · exact asked earlier now request session done (ih rfl)
  | @stepped past now other others session following kept ih =>
    rcases Cascade.last_or_earlier split with ⟨rfl, rfl⟩ | ⟨earlier, rfl, rfl⟩
    · obtain ⟨rfl, rfl⟩ := List.cons.inj (next.symm.trans following)
      exact first kept
    · exact stepped earlier now other others session following kept (ih rfl)

section Lawful

variable (calm : start.Calm) (lawful : ∀ request, admits request → request.isLawful = true)

include calm lawful

/-- Outside a tick none is under way. -/
theorem outside_or_inTick (session : Session admits start past now)
    (idle : start.registry.ticking = false) :
    now.world.registry.ticking = false ∨ ∃ after, now.InTick after := by
  induction session with
  | opened => exact .inl idle
  | asked session done _ ih =>
    rcases ih with outside | ⟨after, inTick⟩
    · exact .inl outside
    · exact absurd done inTick.busy
  | @stepped past now frame rest session next kept ih =>
    cases running : now.world.registry.ticking with
    | true =>
      rcases ih with outside | ⟨after, inTick⟩
      · cases running.symm.trans outside
      · exact (inTick.step (session.sound calm lawful) running next kept).symm.imp
          (fun ended => ended.2) fun onward => ⟨after, onward.1⟩
    | false =>
      refine (Cascade.ticking_step_outside running next).imp_right ?_
      rintro ⟨seconds, rfl, forward⟩
      exact ⟨rest, [], _, _, (Cascade.step_beginTick next forward).2.2, by simp⟩

/-- A tick goes on until it ends. -/
theorem inTick_since (session : Session admits start past now)
    (split : past = before ++ state :: later) {after : List Frame} (inTick : state.InTick after)
    (inside : ∀ other ∈ state :: later, other.world.registry.ticking = true) :
    now.InTick after ∧ now.world.registry.ticking = true ∨
      now.agenda = after ∧ now.world.registry.ticking = false := by
  obtain ⟨frame, rest, next⟩ := List.exists_cons_of_ne_nil inTick.busy
  have reached := session.cut split
  refine session.since split next (motive := fun later now =>
    (∀ other ∈ state :: later, other.world.registry.ticking = true) →
      now.InTick after ∧ now.world.registry.ticking = true ∨
        now.agenda = after ∧ now.world.registry.ticking = false) ?_ ?_ ?_ inside
  · exact fun kept inside =>
      inTick.step (reached.sound calm lawful) (inside state (by simp)) next kept
  · intro later now request _ done ih inside
    rcases ih fun other member => inside other (by simp at member ⊢; tauto) with
      ⟨still, _⟩ | ⟨_, outside⟩
    · exact absurd done still.busy
    · exact absurd ((inside now (by simp)).symm.trans outside) (by decide)
  · intro later now frame rest session next kept ih inside
    have running : now.world.registry.ticking = true := inside now (by simp)
    rcases ih fun other member => inside other (by simp at member ⊢; tauto) with
      ⟨still, _⟩ | ⟨_, outside⟩
    · exact still.step (session.sound calm lawful) running next kept
    · exact absurd (running.symm.trans outside) (by decide)

/-- Time passes, pulses remain and ports are fired for effects that took hold. -/
theorem about?_below (session : Session admits start past now) {frame : Frame}
    (member : frame ∈ now.agenda) (about : frame.about? = some handle) :
    handle.id.raw < now.world.nextEffect := by
  induction session generalizing frame with
  | opened => cases member
  | asked =>
    rw [List.mem_singleton.1 member] at about
    cases about
  | @stepped past now first rest session next kept ih =>
    have numbering := (session.turn calm lawful next).numbering
    rw [Cascade.agenda_step next kept] at member
    rw [Cascade.world_step next]
    rcases List.mem_append.1 member with left | old
    · exact Frame.about?_below (session.sound calm lawful) now.reply
        (session.first calm lawful next) numbering left about
    · exact Nat.lt_of_lt_of_le (ih (next ▸ List.mem_cons_of_mem _ old) about) numbering

/-- Nothing that remains to be done when an effect takes hold is about it yet. -/
theorem about?_of_registers (session : Session admits start past now)
    (registers : now.registers? = some handle) {frame : Frame} (member : frame ∈ now.agenda) :
    frame.about? ≠ some handle := by
  intro about
  have below := session.about?_below calm lawful member about
  rw [(Cascade.registers?_eq_some registers).1] at below
  exact Nat.lt_irrefl _ below

/-- An effect that took hold and is live after a step was live before it. -/
theorem live_of_step (session : Session admits start past now) {frame : Frame} {rest : List Frame}
    (next : now.agenda = frame :: rest) (old : handle ∈ Cascade.registered past)
    (live : now.step.world.isLive handle = true) : now.world.isLive handle = true := by
  have sound := session.sound calm lawful
  obtain ⟨effect, found, alive⟩ := World.exists_of_isLive live
  rw [Cascade.world_step next] at found
  have evolves := (session.turn calm lawful next).evolves sound (session.first calm lawful next)
  obtain ⟨earlier, was, becomes⟩ :=
    evolves.origin handle effect (session.registered_below calm lawful old) found
  exact (World.isLive_eq was).trans (becomes.isLive (sound.attached was) alive)

/-- In the tick in which an effect takes hold, time passes for it when its target is visited after
that. -/
theorem aged_since (session : Session admits start past now)
    (split : past = before ++ state :: later) (registers : state.registers? = some handle)
    {after : List Frame} (inTick : state.InTick after)
    (inside : ∀ other ∈ state :: later, other.world.registry.ticking = true) :
    Cascade.Aged handle later now := by
  obtain ⟨_, application, duration, rest, next⟩ := Cascade.registers?_eq_some registers
  have reached := session.cut split
  refine session.since split next (motive := fun later now =>
    (∀ other ∈ state :: later, other.world.registry.ticking = true) →
      Cascade.Aged handle later now) ?_ ?_ ?_ inside
  · intro kept _
    have none : state.step.agenda.countP (Frame.ages handle) = 0 := by
      rw [Cascade.agenda_step next kept, List.countP_append,
        Frame.countP_ages_expand handle (reached.sound calm lawful) state.reply
          (reached.first calm lawful next), List.countP_eq_zero.2]
      · simp [Frame.visits?]
      · intro other member ages
        exact reached.about?_of_registers calm lawful registers
          (next ▸ List.mem_cons_of_mem _ member) (Frame.about?_of_ages ages)
    constructor <;> simp [none]
  · intro later now request session done _ inside
    rcases session.inTick_since calm lawful rfl inTick
      fun other member => inside other (by simp at member ⊢; tauto) with ⟨still, _⟩ | ⟨_, outside⟩
    · exact absurd done still.busy
    · exact absurd ((inside now (by simp)).symm.trans outside) (by decide)
  · intro later now frame rest session next kept ih inside
    have earlier (other : Cascade) (member : other ∈ state :: later) :
        other.world.registry.ticking = true := inside other (by simp at member ⊢; tauto)
    rcases session.inTick_since calm lawful rfl inTick earlier with ⟨still, _⟩ | ⟨_, outside⟩
    · have old : handle ∈ Cascade.registered (before ++ state :: later) :=
        List.mem_filterMap.2 ⟨state, by simp, registers⟩
      exact (ih earlier).step (session.sound calm lawful) (session.first calm lawful next) next kept
        (still.visits? next) (session.live_of_step calm lawful next old)
    · exact absurd ((inside now (by simp)).symm.trans outside) (by decide)

/-- The world after a step evolves into every one that is reached from there. -/
theorem evolves_since (session : Session admits start past now)
    (split : past = before ++ state :: later) {frame : Frame} {rest : List Frame}
    (next : state.agenda = frame :: rest) : state.step.world.Evolves now.world :=
  session.since split next (motive := fun _ now => state.step.world.Evolves now.world)
    (fun _ => .refl _) (fun _ _ _ _ _ ih => ih)
    fun _ now _ _ session next _ ih => by
      rw [show now.step.world = _ from Cascade.world_step next]
      exact ih.trans ((session.turn calm lawful next).evolves (session.sound calm lawful)
        (session.first calm lawful next))

/-- An effect that has just taken hold is the new one of its application. -/
theorem eq_newEffect (session : Session admits start past now) {application : Application}
    {duration : Float32} {rest : List Frame}
    (next : now.agenda = .attach application handle.target duration :: rest)
    (number : handle.id = ⟨now.world.nextEffect⟩) {effect : Effect}
    (found : now.step.world.effect? handle = some effect) :
    effect = now.world.newEffect application handle.target duration := by
  rw [Cascade.world_step next] at found
  rcases (session.turn calm lawful next).origin (session.sound calm lawful) found with
    ⟨earlier, was, _⟩ | ⟨_, _, same, rfl⟩
  · have below := (session.sound calm lawful).numbered_below was
    rw [number] at below
    exact absurd below (Nat.lt_irrefl _)
  · cases same
    rfl

/-- What is found of an effect that took hold is a later form of the new one, and its target was
registered. -/
theorem origin_since (session : Session admits start past now)
    (split : past = before ++ state :: later) {application : Application} {duration : Float32}
    {rest : List Frame} (next : state.agenda = .attach application handle.target duration :: rest)
    (number : handle.id = ⟨state.world.nextEffect⟩) {effect : Effect}
    (found : now.world.effect? handle = some effect) :
    (state.world.newEffect application handle.target duration).Becomes effect ∧
      ∃ entity, state.step.world.entity? handle.target = some entity := by
  have reached := session.cut split
  have numbered : handle.id.raw < state.step.world.nextEffect := by
    rw [number, Cascade.world_step next, Frame.expand,
      (reached.sound calm lawful).nextEffect_attach]
    exact Nat.lt_succ_self _
  obtain ⟨new, stored, becomes⟩ :=
    (session.evolves_since calm lawful split next).origin handle effect numbered found
  obtain ⟨entity, registered, _⟩ := World.of_effect? stored
  exact ⟨reached.eq_newEffect calm lawful next number stored ▸ becomes, entity, registered⟩

/-- The timers of an effect stand at their start until time passes for it. -/
theorem atStart_since (session : Session admits start past now)
    (split : past = before ++ state :: later) {application : Application} {duration : Float32}
    {rest : List Frame} (next : state.agenda = .attach application handle.target duration :: rest)
    (number : handle.id = ⟨state.world.nextEffect⟩)
    (unaged : ∀ other ∈ later, other.ages handle = false) {effect : Effect}
    (found : now.world.effect? handle = some effect) : effect.clock.AtStart := by
  have reached := session.cut split
  have registers : state.registers? = some handle := by
    rw [Cascade.registers?_eq next, Frame.registers?, ← number]
  refine session.since split next (motive := fun later now =>
    (∀ other ∈ later, other.ages handle = false) →
      ∀ effect, now.world.effect? handle = some effect → effect.clock.AtStart) ?_ ?_ ?_ unaged
    effect found
  · intro kept _ effect found
    rw [reached.eq_newEffect calm lawful next number found]
    exact ⟨rfl, rfl⟩
  · exact fun later now request session done ih unaged =>
      ih fun other member => unaged other (by simp [member])
  · intro later now frame rest session next kept ih unaged effect found
    rw [Cascade.world_step next] at found
    rcases (session.turn calm lawful next).origin (session.sound calm lawful) found with
      ⟨earlier, was, makes⟩ | ⟨_, _, rfl, rfl⟩
    · refine makes.winds.atStart ?_ (ih (fun other member => unaged other (by simp [member])) _ was)
      rw [← Cascade.ages_eq next]
      exact unaged now (by simp)
    · have below : handle.id.raw < now.world.nextEffect := session.registered_below calm lawful
        (List.mem_filterMap.2 ⟨state, by simp, registers⟩)
      obtain ⟨_, _, _, same⟩ := World.of_effect? found
      rw [← same] at below
      exact absurd below (Nat.lt_irrefl _)

/-- Until time passes for an effect it fires no pulses but those that its application brings. -/
theorem pulses_since (session : Session admits start past now)
    (split : past = before ++ state :: later) {application : Application} {duration : Float32}
    {rest : List Frame} (next : state.agenda = .attach application handle.target duration :: rest)
    (number : handle.id = ⟨state.world.nextEffect⟩)
    (unaged : ∀ other ∈ later, other.ages handle = false) :
    (Cascade.fired handle later).count EffectPort.periodic.name +
      (now.agenda.map (Frame.pulsesLeft handle)).sum ≤ application.definition.pulsesAtOnce := by
  have reached := session.cut split
  have registers : state.registers? = some handle := by
    rw [Cascade.registers?_eq next, Frame.registers?, ← number]
  refine session.since split next (motive := fun later now =>
    (∀ other ∈ later, other.ages handle = false) →
      (Cascade.fired handle later).count EffectPort.periodic.name +
        (now.agenda.map (Frame.pulsesLeft handle)).sum ≤ application.definition.pulsesAtOnce)
    ?_ ?_ ?_ unaged
  · intro kept _
    have silent : (rest.map (Frame.pulsesLeft handle)).sum = 0 := by
      rw [List.sum_eq_zero_iff_forall_eq_nat]
      intro left member
      obtain ⟨other, waits, rfl⟩ := List.mem_map.1 member
      exact Decidable.by_contra fun some => reached.about?_of_registers calm lawful registers
        (next ▸ List.mem_cons_of_mem _ waits) (Frame.about?_of_pulsesLeft some)
    rw [Cascade.agenda_step next kept, List.map_append, List.sum_append, silent, Cascade.fired]
    have given : handle = ⟨handle.target, ⟨state.world.nextEffect⟩⟩ := by rw [← number]
    rw [given]
    simp [Frame.expand, World.attach, Progress.told, World.newEffect, Effect.handle, Effect.pending,
      Frame.pulsesLeft, Effect.fires, EffectPort.name, EffectDef.pulsesAtOnce]
  · intro later now request session done ih unaged
    have before := ih fun other member => unaged other (by simp [member])
    rw [Cascade.fired_concat, (Cascade.idle done handle).1, Option.toList_none, List.append_nil]
    exact Nat.le_trans (Nat.add_le_add_left (Nat.zero_le _) _) before
  · intro later now frame rest session next kept ih unaged
    have before := ih fun other member => unaged other (by simp [member])
    have young : frame.ages handle = false := by
      rw [← Cascade.ages_eq next]
      exact unaged now (by simp)
    have old : frame.registers? now.world ≠ some handle := by
      rw [← Cascade.registers?_eq next]
      intro again
      have below : handle.id.raw < now.world.nextEffect := session.registered_below calm lawful
        (List.mem_filterMap.2 ⟨state, by simp, registers⟩)
      rw [(Cascade.registers?_eq_some again).1] at below
      exact Nat.lt_irrefl _ below
    have fewer := Frame.pulsesLeft_expand (session.sound calm lawful) now.reply
      (session.first calm lawful next) young old
    rw [next, List.map_cons, List.sum_cons] at before
    rw [Cascade.agenda_step next kept, Cascade.fired_concat, Cascade.port?_eq next,
      List.count_append, List.map_append, List.sum_append]
    omega

/-- When the tick in which an effect takes hold has ended, time is not about to pass for it. -/
theorem countP_ages_of_ended (session : Session admits start past now)
    (idle : start.registry.ticking = false) (split : past = before ++ state :: later)
    (registers : state.registers? = some handle)
    (inside : ∀ other ∈ state :: later, other.world.registry.ticking = true)
    (ended : now.world.registry.ticking = false) :
    now.agenda.countP (Frame.ages handle) = 0 := by
  have reached := session.cut split
  rcases reached.outside_or_inTick calm lawful idle with still | ⟨after, inTick⟩
  · exact absurd ((inside state List.mem_cons_self).symm.trans still) (by decide)
  · rcases session.inTick_since calm lawful split inTick inside with ⟨_, still⟩ | ⟨rest, _⟩
    · exact absurd (still.symm.trans ended) (by decide)
    · obtain ⟨inner, remaining, seconds, agenda, _⟩ := inTick
      rw [rest, List.countP_eq_zero]
      intro frame member ages
      exact reached.about?_of_registers calm lawful registers (by simp [agenda, member])
        (Frame.about?_of_ages ages)

/-- The tick in which an effect takes hold visits its target once, before that or after, if the
effect is still there in the end. -/
theorem visits_target_once (session : Session admits start past now)
    (fresh : start.registry = .empty) {earlier : List Cascade} {opening : Cascade}
    (split : past = before ++ opening :: (earlier ++ state :: later))
    (outside : opening.world.registry.ticking = false)
    (inside : ∀ other ∈ earlier ++ state :: later, other.world.registry.ticking = true)
    (ended : now.world.registry.ticking = false) (registers : state.registers? = some handle)
    {effect : Effect} (found : now.world.effect? handle = some effect) :
    (earlier.filterMap (·.visits?)).count handle.target +
      (later.filterMap (·.visits?)).count handle.target = 1 := by
  have first : start.registry.Orderly := fresh ▸ Registry.orderly_empty
  have idle : start.registry.ticking = false := by rw [fresh]; rfl
  obtain ⟨number, application, duration, rest, next⟩ := Cascade.registers?_eq_some registers
  have cut : past = (before ++ opening :: earlier) ++ state :: later := by simpa using split
  have reached := session.cut cut
  have running : state.world.registry.ticking = true := inside state (by simp)
  -- The target is registered, or the effect would not have been stored.
  obtain ⟨_, entity, registered⟩ := session.origin_since calm lawful cut next number found
  have listed : handle.target ∈ state.world.registry.order := by
    rw [(reached.orderly first).listed,
      ← Registry.contains_congr (Cascade.roll_step next rfl) handle.target]
    exact Option.isSome_iff_exists.2 ⟨entity, registered⟩
  -- So the tick visits it.
  have ordered : state.world.registry.order = opening.world.registry.order := by
    rcases reached.outside_or_visiting idle with
      still | ⟨_, begun, states, same, calm, busy, visiting⟩
    · exact absurd (running.symm.trans still) (by decide)
    · have apart (other : Cascade) (still : other.world.registry.ticking = false) :
          ¬other.world.registry.ticking = true := by simp [still]
      obtain ⟨rfl, _⟩ := cut_unique same (apart opening outside) (apart begun calm)
        (fun other member => inside other (by simp [member])) busy
      exact visiting.order_eq
  have visited := session.visits_eq_order idle split outside (by simp) inside ended
  have silent : state.visits? = none := by
    unfold Cascade.visits?
    rw [next]
  rw [List.filterMap_append, List.filterMap_cons_none silent] at visited
  rw [← List.count_append, visited, ← ordered]
  exact List.count_eq_one_of_mem (reached.orderly first).distinct listed

end Lawful

end Session

/-- An effect that takes hold in a tick and is live when the tick has ended: if the tick had come to
its target before, no time has passed for it, its timers stand at their start and it has fired no
pulses but those that its application brings; if not, time has passed for it once in that tick, when
its target was visited. -/
theorem new_effects_age_when_visited {start : World} (calm : start.Calm)
    (fresh : start.registry = .empty) {past before earlier later : List Cascade}
    {opening state now : Cascade}
    (session : Session (fun request => request.isLawful = true) start past now)
    (split : past = before ++ opening :: (earlier ++ state :: later))
    (outside : opening.world.registry.ticking = false)
    (inside : ∀ other ∈ earlier ++ state :: later, other.world.registry.ticking = true)
    (ended : now.world.registry.ticking = false) {handle : EffectHandle}
    (registers : state.registers? = some handle) {effect : Effect}
    (found : now.world.effect? handle = some effect) (live : effect.isLive = true) :
    (handle.target ∈ earlier.filterMap (·.visits?) →
      (∀ other ∈ later, other.ages handle = false) ∧ effect.clock.AtStart ∧
        (Cascade.fired handle later).count EffectPort.periodic.name ≤
          effect.definition.pulsesAtOnce) ∧
    (handle.target ∉ earlier.filterMap (·.visits?) →
      ∃ young aged old was, later = young ++ aged :: old ∧
        handle.target ∈ young.filterMap (·.visits?) ∧ aged.ages handle = true ∧
        (∀ other ∈ young ++ old, other.ages handle = false) ∧
        aged.world.effect? handle = some was ∧ was.clock.AtStart) := by
  have lawful : ∀ request : Request, request.isLawful = true → request.isLawful = true :=
    fun _ same => same
  have idle : start.registry.ticking = false := by rw [fresh]; rfl
  obtain ⟨number, application, duration, rest, next⟩ := Cascade.registers?_eq_some registers
  have cut : past = (before ++ opening :: earlier) ++ state :: later := by simpa using split
  have reached := session.cut cut
  have running (other : Cascade) (member : other ∈ state :: later) :
      other.world.registry.ticking = true := inside other (List.mem_append_right _ member)
  have once := session.visits_target_once calm lawful fresh split outside inside ended registers
    found
  have spent := session.countP_ages_of_ended calm lawful idle cut registers running ended
  obtain ⟨after, inTick⟩ := (reached.outside_or_inTick calm lawful idle).resolve_left
    (by rw [running state List.mem_cons_self]; decide)
  have accounts := session.aged_since calm lawful cut registers inTick running
  constructor
  · intro visited
    have passed : later.countP (·.ages handle) = 0 := by
      have most := accounts.most
      have before := List.count_pos_iff.2 visited
      omega
    have unaged (other : Cascade) (member : other ∈ later) : other.ages handle = false :=
      Bool.eq_false_iff.2 (List.countP_eq_zero.1 passed other member)
    refine ⟨unaged, session.atStart_since calm lawful cut next number unaged found, ?_⟩
    rw [(session.origin_since calm lawful cut next number found).1.definition]
    exact Nat.le_trans (Nat.le_add_right _ _)
      (session.pulses_since calm lawful cut next number unaged)
  · intro unvisited
    have passed : later.countP (·.ages handle) = 1 := by
      have all := accounts.all ((World.isLive_eq found).trans live)
      have before := List.count_eq_zero.2 unvisited
      omega
    obtain ⟨aged, member, ages⟩ := List.countP_pos_iff.1 (passed ▸ Nat.one_pos)
    obtain ⟨young, old, rfl⟩ := List.append_of_mem member
    have single : young.countP (·.ages handle) + (old.countP (·.ages handle) + 1) = 1 := by
      rw [List.countP_append, List.countP_cons_of_pos ages] at passed
      exact passed
    have unaged (other : Cascade) (apart : other ∈ young ++ old) : other.ages handle = false := by
      have none : (young ++ old).countP (·.ages handle) = 0 := by
        rw [List.countP_append]
        omega
      exact Bool.eq_false_iff.2 (List.countP_eq_zero.1 none other apart)
    -- Up to the state in which time passes, the same accounts hold.
    have there : past = (before ++ opening :: (earlier ++ state :: young)) ++ aged :: old := by
      simpa using split
    have upTo : before ++ opening :: (earlier ++ state :: young) =
        (before ++ opening :: earlier) ++ state :: young := by simp
    have aging := session.cut there
    have visited : handle.target ∈ young.filterMap (·.visits?) := by
      have most := (aging.aged_since calm lawful upTo registers inTick fun other member =>
        running other (by simp at member ⊢; tauto)).most
      have waits : 0 < aged.agenda.countP (Frame.ages handle) := by
        obtain ⟨frame, head, passes⟩ := (Option.any_eq_true _ _).1 ages
        exact List.countP_pos_iff.2 ⟨frame, List.mem_of_head? head, passes⟩
      exact List.count_pos_iff.1 (by omega)
    obtain ⟨was, present, _⟩ := (session.evolves calm lawful aged (by simp [there])).origin handle
      effect (aging.registered_below calm lawful
        (List.mem_filterMap.2 ⟨state, by simp, registers⟩)) found
    exact ⟨young, aged, old, was, rfl, visited, ages, unaged, present,
      aging.atStart_since calm lawful upTo next number
        (fun other member => unaged other (List.mem_append_left _ member)) present⟩

/-- A heartbeat on a target, each beat of which lets the caster receive one of its own. -/
def kindling : SkillGraph where
  id := ⟨1⟩
  nodes := [{ id := ⟨1⟩, kind := .effect heartbeat },
    { id := ⟨2⟩, kind := .effect heartbeat, target := .caster }]
  connections := [⟨⟨1⟩, "periodic", ⟨2⟩, "input"⟩]

/-- Two entities join, and one of them receives the first heartbeat from the other. -/
def kindleRequests (target caster : EntityId) : List Request :=
  [.library (.ok (.insert kindling)), .spawn ⟨1⟩, .spawn ⟨2⟩,
    .activate ⟨1⟩ ⟨1⟩ { caster, edits := [.target target] }]

/-- The state after that. -/
def kindled (target caster : EntityId) : Cascade :=
  Cascade.afterEach 30 { world := World.create {} .empty, agenda := [] }
    (kindleRequests target caster)

/-- The state in which a tick of one second is about to begin. -/
def glowing (target caster : EntityId) : Cascade :=
  Cascade.run 3 (.ofRequest (kindled target caster).world (.tick 1 1))

/-- The state some frames later. -/
def catching (target caster : EntityId) (frames : Nat) : Cascade :=
  (glowing target caster).run (frames + 1)

/-- A tick in two parts that loses nothing is a part of a session. -/
theorem session_catching (target caster : EntityId) (first last : Nat)
    (kept : Cascade.keepsEach 30 { world := World.create {} .empty, agenda := [] }
      (kindleRequests target caster) = true)
    (done : (kindled target caster).isDone = true)
    (begins : Cascade.keeps 3 (.ofRequest (kindled target caster).world (.tick 1 1)) = true)
    (busy : (glowing target caster).isDone = false)
    (comes : (glowing target caster).keeps (first + 1) = true)
    (between : (catching target caster first).isDone = false)
    (ends : (catching target caster first).keeps (last + 1) = true) :
    ∃ before, Session (fun request => request.isLawful = true) (World.create {} .empty)
      (before ++ glowing target caster :: ((glowing target caster).step.during first ++
        catching target caster first :: (catching target caster first).step.during last))
      ((catching target caster first).run (last + 1)) := by
  obtain ⟨past, still⟩ : ∃ past, Session (fun request => request.isLawful = true)
      (World.create {} .empty) past (kindled target caster) := by
    refine ⟨_, .ofRequests 30 (kindleRequests target caster) (fun request member => ?_) kept⟩
    simp only [kindleRequests, List.mem_cons, List.not_mem_nil, or_false] at member
    rcases member with rfl | rfl | rfl | rfl <;> rfl
  have asked : Session (fun request => request.isLawful = true) (World.create {} .empty) _
      (.ofRequest (kindled target caster).world (.tick 1 1)) :=
    still.asked (List.isEmpty_iff.1 done) rfl
  have whole := ((asked.run 3 begins).run_succ first busy comes).run_succ last between ends
  rw [List.append_assoc, List.cons_append] at whole
  exact ⟨_, whole⟩

/-- When the second entity receives the heartbeat, the tick has come to the first one, the caster,
before it receives its own, which is as new when the tick has ended. -/
theorem ember_waits : (World.create {} .empty).Calm ∧
    (World.create {} .empty).registry = .empty ∧
    ∃ before earlier later opening state now effect,
      Session (fun request => request.isLawful = true) (World.create {} .empty)
        (before ++ opening :: (earlier ++ state :: later)) now ∧
      opening.world.registry.ticking = false ∧
      (∀ other ∈ earlier ++ state :: later, other.world.registry.ticking = true) ∧
      now.world.registry.ticking = false ∧ state.registers? = some ⟨⟨1⟩, ⟨2⟩⟩ ∧
      now.world.effect? ⟨⟨1⟩, ⟨2⟩⟩ = some effect ∧ effect.isLive = true ∧
      ⟨1⟩ ∈ earlier.filterMap (·.visits?) ∧
      (∀ other ∈ later, other.ages ⟨⟨1⟩, ⟨2⟩⟩ = false) ∧ effect.clock.AtStart ∧
      (Cascade.fired ⟨⟨1⟩, ⟨2⟩⟩ later).count EffectPort.periodic.name ≤
        effect.definition.pulsesAtOnce := by
  have calm := World.calm_create {} .empty
  have stored : ((catching ⟨2⟩ ⟨1⟩ 12).run 11).world.isLive ⟨⟨1⟩, ⟨2⟩⟩ = true := by decide +kernel
  obtain ⟨effect, found, live⟩ := World.exists_of_isLive stored
  obtain ⟨before, session⟩ := session_catching ⟨2⟩ ⟨1⟩ 12 10 (by decide +kernel)
    (by decide +kernel) (by decide +kernel) (by decide +kernel) (by decide +kernel)
    (by decide +kernel) (by decide +kernel)
  have outside : (glowing ⟨2⟩ ⟨1⟩).world.registry.ticking = false := by decide +kernel
  have inside : ∀ other ∈ (glowing ⟨2⟩ ⟨1⟩).step.during 12 ++
      catching ⟨2⟩ ⟨1⟩ 12 :: (catching ⟨2⟩ ⟨1⟩ 12).step.during 10,
      other.world.registry.ticking = true := List.all_eq_true.1 (by decide +kernel)
  have ended : ((catching ⟨2⟩ ⟨1⟩ 12).run 11).world.registry.ticking = false := by decide +kernel
  have registers : (catching ⟨2⟩ ⟨1⟩ 12).registers? = some ⟨⟨1⟩, ⟨2⟩⟩ := by decide +kernel
  have visited : (⟨1⟩ : EntityId) ∈ ((glowing ⟨2⟩ ⟨1⟩).step.during 12).filterMap (·.visits?) := by
    decide +kernel
  exact ⟨calm, rfl, before, _, _, _, _, _, effect, session, outside, inside, ended, registers,
    found, live, visited,
    (new_effects_age_when_visited calm rfl session rfl outside inside ended registers
      found live).1 visited⟩

/-- When the first entity receives the heartbeat, the tick has still to come to the second one, the
caster, which receives its own: that ages and pulses in the tick in which it took hold. -/
theorem ember_flares_up : (World.create {} .empty).Calm ∧
    (World.create {} .empty).registry = .empty ∧
    ∃ before earlier later opening state now effect,
      Session (fun request => request.isLawful = true) (World.create {} .empty)
        (before ++ opening :: (earlier ++ state :: later)) now ∧
      opening.world.registry.ticking = false ∧
      (∀ other ∈ earlier ++ state :: later, other.world.registry.ticking = true) ∧
      now.world.registry.ticking = false ∧ state.registers? = some ⟨⟨2⟩, ⟨2⟩⟩ ∧
      now.world.effect? ⟨⟨2⟩, ⟨2⟩⟩ = some effect ∧ effect.isLive = true ∧
      effect.clock.elapsed = 1 ∧ ¬ effect.clock.AtStart ∧ effect.definition.pulsesAtOnce = 0 ∧
      (Cascade.fired ⟨⟨2⟩, ⟨2⟩⟩ later).count EffectPort.periodic.name = 1 := by
  have aged : (((catching ⟨1⟩ ⟨2⟩ 10).run 17).world.effect? ⟨⟨2⟩, ⟨2⟩⟩).any (fun effect =>
      effect.isLive && decide (effect.clock.elapsed = 1) &&
        effect.definition.pulsesAtOnce == 0) = true := by decide +kernel
  obtain ⟨effect, found, holds⟩ := (Option.any_eq_true _ _).1 aged
  simp only [Bool.and_eq_true, beq_iff_eq, decide_eq_true_eq] at holds
  obtain ⟨⟨live, elapsed⟩, single⟩ := holds
  obtain ⟨before, session⟩ := session_catching ⟨1⟩ ⟨2⟩ 10 16 (by decide +kernel)
    (by decide +kernel) (by decide +kernel) (by decide +kernel) (by decide +kernel)
    (by decide +kernel) (by decide +kernel)
  refine ⟨World.calm_create {} .empty, rfl, before, _, _, _, _, _, effect, session,
    by decide +kernel, List.all_eq_true.1 (by decide +kernel), by decide +kernel,
    by decide +kernel, found, live, elapsed, fun start => ?_, single, by decide +kernel⟩
  exact absurd (elapsed.symm.trans start.1) (by decide +kernel)

end SkillEngine
