import SkillEngine.Proofs.Deferral
import SkillEngine.Proofs.Session

/-!
# Calls made in a tick

A tick is a stretch of a session: the states from the one in which it begins to the one that it ends
in. `deferred_calls_refine_immediate` compares what the calls to register and unregister that are
made meanwhile, by scripts for instance, have done at its end with what they do before it, each at
once. The two agree as long as no call is overlooked; `successor_stays` is a tick that overlooks
one.
-/

namespace SkillEngine

namespace World

variable {world other : World} {request : Request}

/-- The world after some requests were performed in turn, each to the end. -/
def runEach (world : World) (requests : List Request) : World :=
  requests.foldl (fun world request => (world.run request).2.1) world

/-- Registering and unregistering leave nothing to be done. -/
theorem frames_of_isEnrolment (world : World) (call : request.isEnrolment = true) :
    (world.perform request).frames = [] ∧ (world.perform request).lost = false := by
  cases request with
  | spawn | register =>
    unfold perform join
    dsimp only
    split <;> exact ⟨rfl, rfl⟩
  | unregister => exact ⟨rfl, rfl⟩
  | _ => cases call

/-- Registering and unregistering are performed in one step. -/
theorem run_of_isEnrolment (world : World) (call : request.isEnrolment = true) :
    (world.run request).2.1 = (world.perform request).world := by
  obtain ⟨nothing, kept⟩ := frames_of_isEnrolment world call
  have next : (Cascade.ofRequest world request).agenda = [.perform request] := rfl
  have step := Cascade.world_step next
  have agenda := Cascade.agenda_step next kept
  have done : (Cascade.ofRequest world request).step.isDone = true := by
    rw [Cascade.isDone, agenda, List.append_nil]
    exact List.isEmpty_iff.2 nothing
  have limit : frameLimit = 1 + (frameLimit - 1) := by decide
  have finished : (Cascade.ofRequest world request).run frameLimit =
      (Cascade.ofRequest world request).step := by
    rw [limit, Cascade.run_add]
    exact Cascade.run_of_isDone _ done
  rw [run]
  dsimp only
  rw [finished, step]
  rfl

/-- Registering an entity is registering it in the registry. -/
theorem registry_join (world : World) (entity : Entity) :
    (world.join entity).world.registry = world.registry.registering entity := by
  unfold join Registry.registering
  split
  · next registry accepted =>
    rw [accepted]
    rfl
  · next error refused =>
    rw [refused]
    rfl

/-- A call outside a tick leaves nobody waiting. -/
theorem settled_perform (settled : world.registry.Settled) (call : request.isEnrolment = true) :
    (world.perform request).world.registry.Settled := by
  cases request with
  | spawn | register =>
    exact (registry_join world _).symm ▸ settled.registering _
  | unregister id => exact settled.unregister id
  | _ => cases call

/-- A call in a tick that is not overlooked defers what the same call does outside of it. -/
theorem defers_perform (defers : world.registry.Defers other.registry)
    (call : request.isEnrolment = true) (heeded : world.registry.overlooks request = false) :
    (world.perform request).world.registry.Defers (other.run request).2.1.registry := by
  rw [run_of_isEnrolment other call]
  cases request with
  | spawn id =>
    show (world.join (.ofTable id world.scene.table)).world.registry.Defers
      (other.join (.ofTable id other.scene.table)).world.registry
    rw [registry_join, registry_join]
    exact defers.registering rfl
  | register id rows tags =>
    show (world.join (newEntity id rows tags)).world.registry.Defers
      (other.join (newEntity id rows tags)).world.registry
    rw [registry_join, registry_join]
    exact defers.registering rfl
  | unregister id => exact defers.unregister heeded
  | _ => cases call

/-- An overlooked call in a tick changes nothing about who is registered. -/
theorem roll_overlooked (defers : world.registry.Defers other.registry)
    (overlooked : world.registry.overlooks request = true) :
    (world.perform request).world.registry = world.registry := by
  cases request with
  | unregister id => exact defers.overlooked overlooked
  | _ => cases overlooked

/-- The world after one request more. -/
theorem runEach_concat (world : World) (requests : List Request) (request : Request) :
    world.runEach (requests ++ [request]) = ((world.runEach requests).run request).2.1 := by
  simp [runEach]

end World

/-- The call that a frame makes to register or unregister, if it makes one. -/
def Frame.call? : Frame → Option Request
  | .perform request => if request.isEnrolment then some request else none
  | _ => none

/-- The call that the next step makes to register or unregister, if it makes one. -/
def Cascade.call? (cascade : Cascade) : Option Request := cascade.agenda.head?.bind (·.call?)

/-- The call that the next step makes to register or unregister, unless it is overlooked. -/
def Cascade.heeded? (cascade : Cascade) : Option Request :=
  cascade.call?.filter fun request => !cascade.world.registry.overlooks request

/-- The same entities are registered and visited in the same order. -/
structure Registry.Alike (first second : Registry) : Prop where
  /-- The same entities are registered. -/
  registered : ∀ id, first.contains id = second.contains id
  /-- They are visited in the same order. -/
  order : first.order = second.order

namespace Cascade

variable {now : Cascade} {frame : Frame} {rest : List Frame} {other : World}

/-- A frame that makes no call and neither begins nor ends a tick keeps the roll. -/
theorem roll_step (next : now.agenda = frame :: rest) (plain : frame.enrols = false) :
    now.step.world.registry.roll = now.world.registry.roll := by
  rw [world_step next]
  exact World.roll_expand now.world now.reply plain

/-- A step outside a tick leaves nobody waiting, or begins a tick. -/
theorem settled_step (settled : now.world.registry.Settled) (next : now.agenda = frame :: rest) :
    now.step.world.registry.Settled ∨ now.step.world.registry = now.world.registry.beginTick := by
  cases plain : frame.enrols with
  | false => exact .inl (settled.congr (roll_step next plain))
  | true =>
    rw [world_step next]
    cases frame with
    | perform request => exact .inl (World.settled_perform settled plain)
    | beginTick seconds =>
      simp only [Frame.expand, World.beginTick]
      split
      · exact .inl settled
      · exact .inr rfl
    | endTick seconds =>
      have same : (now.world.endTick seconds).world.registry = now.world.registry :=
        settled.endTick
      exact .inl (same.symm ▸ settled)
    | _ => cases plain

/-- A step in a tick goes on deferring, with the call that it heeds if it makes one, or it ends the
tick. -/
theorem defers_step {calls : List Request}
    (defers : now.world.registry.Defers (other.runEach calls).registry)
    (next : now.agenda = frame :: rest) :
    now.step.world.registry.Defers (other.runEach (calls ++ now.heeded?.toList)).registry ∨
      now.heeded? = none ∧ now.step.world.registry = now.world.registry.endTick := by
  cases plain : frame.enrols with
  | false =>
    have silent : now.heeded? = none := by
      cases frame <;> simp_all [heeded?, call?, Frame.call?, Frame.enrols]
    rw [silent]
    exact .inl ((List.append_nil calls).symm ▸ defers.congr (roll_step next plain))
  | true =>
    rw [world_step next]
    cases frame with
    | perform request =>
      have call : now.call? = some request := by
        simp [call?, next, Frame.call?, show request.isEnrolment = true from plain]
      refine .inl ?_
      cases overlooked : now.world.registry.overlooks request with
      | true =>
        have silent : now.heeded? = none := by simp [heeded?, call, overlooked]
        have same := World.roll_overlooked defers overlooked
        rw [silent]
        exact (List.append_nil calls).symm ▸ defers.congr (congrArg Registry.roll same)
      | false =>
        have heeded : now.heeded? = some request := by simp [heeded?, call, overlooked]
        rw [heeded, Option.toList_some, World.runEach_concat]
        exact World.defers_perform defers plain overlooked
    | beginTick seconds =>
      have silent : now.heeded? = none := by simp [heeded?, call?, next, Frame.call?]
      rw [silent]
      refine .inl ((List.append_nil calls).symm ▸ defers.congr ?_)
      simp only [Frame.expand, World.beginTick]
      split
      · rfl
      · have ticking := defers.ticking
        simp only [Registry.roll, ticking]
        rfl
    | endTick seconds =>
      exact .inr ⟨by simp [heeded?, call?, next, Frame.call?], rfl⟩
    | _ => cases plain

end Cascade

/-- A list is cut at the last of its members without a property in one way. -/
theorem cut_unique {α : Type} {holds : α → Prop} {early late before after : List α} {first last : α}
    (same : early ++ first :: late = before ++ last :: after) (lacks : ¬holds first)
    (missing : ¬holds last) (holding : ∀ member ∈ late, holds member)
    (others : ∀ member ∈ after, holds member) : first = last ∧ late = after := by
  rcases List.append_eq_append_iff.1 same with ⟨middle, _, cut⟩ | ⟨middle, _, cut⟩
  · cases middle with
    | nil => simpa using cut
    | cons head tail =>
      have inside : last ∈ late := by
        have tails := (List.cons.inj cut).2
        rw [tails]
        simp
      exact absurd (holding last inside) missing
  · cases middle with
    | nil =>
      have heads := List.cons.inj cut
      exact ⟨heads.1.symm, heads.2.symm⟩
    | cons head tail =>
      have inside : first ∈ after := by
        have tails := (List.cons.inj cut).2
        rw [tails]
        simp
      exact absurd (others first inside) lacks

namespace Session

variable {admits : Request → Prop} {start : World} {past : List Cascade} {now : Cascade}

/-- One more state in a tick. -/
theorem inside_concat {during : List Cascade}
    (inside : ∀ state ∈ during, state.world.registry.ticking = true)
    (ticking : now.world.registry.ticking = true) :
    ∀ state ∈ during ++ [now], state.world.registry.ticking = true := by
  intro state member
  rcases List.mem_append.1 member with earlier | last
  · exact inside state earlier
  · rw [List.mem_singleton.1 last]
    exact ticking

/-- Outside a tick nobody waits; in one, the registry defers what the calls heeded since its
beginning would have done before it. -/
theorem settled_or_defers (session : Session admits start past now)
    (settled : start.registry.Settled) :
    now.world.registry.Settled ∨ ∃ before opening during, past = before ++ opening :: during ∧
      opening.world.registry.ticking = false ∧
      (∀ state ∈ during, state.world.registry.ticking = true) ∧
      now.world.registry.Defers
        (opening.world.runEach (during.filterMap (·.heeded?))).registry := by
  induction session with
  | opened => exact .inl settled
  | @asked past now request session done admitted ih =>
    rcases ih with outside | ⟨before, opening, during, rfl, outside, inside, defers⟩
    · exact .inl outside
    · have silent : now.heeded? = none := by simp [Cascade.heeded?, Cascade.call?, done]
      refine .inr ⟨before, opening, during ++ [now], by simp, outside,
        inside_concat inside defers.ticking, ?_⟩
      rw [filterMap_concat, silent, Option.toList_none, List.append_nil]
      exact defers
  | @stepped past now frame rest session next kept ih =>
    rcases ih with outside | ⟨before, opening, during, rfl, outside, inside, defers⟩
    · rcases Cascade.settled_step outside next with settled | begun
      · exact .inl settled
      · have nobody : ∀ state ∈ ([] : List Cascade), state.world.registry.ticking = true :=
          fun state member => absurd member List.not_mem_nil
        refine .inr ⟨past, now, [], rfl, outside.idle, nobody, ?_⟩
        rw [begun]
        exact outside.defers
    · rcases Cascade.defers_step defers next with onward | ⟨_, ended⟩
      · refine .inr ⟨before, opening, during ++ [now], by simp, outside,
          inside_concat inside defers.ticking, ?_⟩
        rw [filterMap_concat]
        exact onward
      · exact .inl (ended ▸ defers.atEnd.1)

/-- The states of a tick that has ended, from the last one that it was running in. -/
theorem exists_last (session : Session admits start past now) {before during : List Cascade}
    {opening : Cascade} (split : past = before ++ opening :: during) (begun : during ≠ [])
    (inside : ∀ state ∈ during, state.world.registry.ticking = true)
    (ended : now.world.registry.ticking = false) :
    ∃ (most : List Cascade) (last : Cascade) (frame : Frame) (rest : List Frame),
      during = most ++ [last] ∧ Session admits start (before ++ opening :: most) last ∧
      last.agenda = frame :: rest ∧ (frame.expand last.world last.reply).lost = false ∧
      now = last.step := by
  obtain ⟨most, last, rfl⟩ := List.eq_nil_or_concat during |>.resolve_left begun
  rw [List.concat_eq_append] at *
  have ticking : last.world.registry.ticking = true := inside last (by simp)
  have whole : past = (before ++ opening :: most) ++ [last] := by simpa using split
  cases session with
  | opened => exact absurd whole (by simp)
  | @asked past now request session =>
    obtain ⟨_, same⟩ := List.append_inj' whole rfl
    rw [← List.singleton_inj.1 same] at ticking
    exact absurd (ticking.symm.trans ended) (by decide)
  | @stepped past now frame rest session next kept =>
    obtain ⟨earlier, same⟩ := List.append_inj' whole rfl
    obtain rfl := List.singleton_inj.1 same
    exact ⟨most, now, frame, rest, rfl, earlier ▸ session, next, kept, rfl⟩

/-- The step that ends a tick leaves the registry as the heeded calls would have left it. -/
theorem alike_of_ended (session : Session admits start past now)
    (settled : start.registry.Settled) {before during : List Cascade} {opening : Cascade}
    (split : past = before ++ opening :: during)
    (outside : opening.world.registry.ticking = false) (begun : during ≠ [])
    (inside : ∀ state ∈ during, state.world.registry.ticking = true)
    (ended : now.world.registry.ticking = false) :
    now.world.registry.Alike
      (opening.world.runEach (during.filterMap (·.heeded?))).registry := by
  obtain ⟨most, last, frame, rest, rfl, earlier, next, _, rfl⟩ :=
    session.exists_last split begun inside ended
  have running : last.world.registry.ticking = true := inside last (by simp)
  rcases earlier.settled_or_defers settled with idle | ⟨_, first, states, cut, idle, busy, defers⟩
  · exact absurd (running.symm.trans idle.idle) (by decide)
  · have apart (state : Cascade) (still : state.world.registry.ticking = false) :
        ¬state.world.registry.ticking = true := by simp [still]
    obtain ⟨rfl, rfl⟩ := cut_unique cut (apart opening outside) (apart first idle)
      (fun state member => inside state (by simp [member])) busy
    rcases Cascade.defers_step defers next with onward | ⟨silent, reached⟩
    · exact absurd (onward.ticking.symm.trans ended) (by decide)
    · obtain ⟨_, registered, order⟩ := defers.atEnd
      rw [filterMap_concat, silent, Option.toList_none, List.append_nil, reached]
      exact ⟨registered, order⟩

end Session

/-- At the end of a tick the same entities are registered and visited in the same order as if the
calls that the tick heeded had been made before it, each at once; and as if all its calls had been,
if it overlooked none. -/
theorem deferred_calls_refine_immediate {admits : Request → Prop} {start : World}
    {past before during : List Cascade} {opening now : Cascade}
    (session : Session admits start past now) (settled : start.registry.Settled)
    (split : past = before ++ opening :: during)
    (outside : opening.world.registry.ticking = false) (begun : during ≠ [])
    (inside : ∀ state ∈ during, state.world.registry.ticking = true)
    (ended : now.world.registry.ticking = false) :
    now.world.registry.Alike (opening.world.runEach (during.filterMap (·.heeded?))).registry ∧
      ((∀ state ∈ during, ∀ request, state.call? = some request →
          state.world.registry.overlooks request = false) →
        now.world.registry.Alike
          (opening.world.runEach (during.filterMap (·.call?))).registry) := by
  have alike := session.alike_of_ended settled split outside begun inside ended
  refine ⟨alike, fun heard => ?_⟩
  have all : during.filterMap (·.heeded?) = during.filterMap (·.call?) := by
    refine List.filterMap_congr fun state member => ?_
    cases called : state.call? with
    | none => simp [Cascade.heeded?, called]
    | some request => simp [Cascade.heeded?, called, heard state member request called]
  exact all ▸ alike

/-- A run that takes a frame, with its first state shown. -/
theorem Session.run_succ {admits : Request → Prop} {start : World} {past : List Cascade}
    {now : Cascade} (session : Session admits start past now) (bound : Nat)
    (busy : now.isDone = false) (kept : now.keeps (bound + 1) = true) :
    Session admits start (past ++ now :: now.step.during bound) (now.run (bound + 1)) := by
  have onward := session.run (bound + 1) kept
  rw [Cascade.during, if_neg (by simp [busy])] at onward
  exact onward

/-- A lasting effect that pulses every second. -/
def heartbeat : EffectDef where
  durationType := .infinite
  period := .one

/-- The pulses of a heartbeat lead to a task. -/
def clock : SkillGraph where
  id := ⟨1⟩
  nodes := [{ id := ⟨1⟩, kind := .effect heartbeat }, { id := ⟨2⟩, kind := .task .captureSnapshot }]
  connections := [⟨⟨1⟩, "periodic", ⟨2⟩, "input"⟩]

/-- A world in which the task follows a script. -/
def clockwork (script : List Request) : World :=
  { World.create {} .empty with
    behaviours := fun category => some (if category = .task then .scripted else .standard category)
    scripts := fun _ node => if node = ⟨2⟩ then some script else none }

/-- Two entities join, and the first one receives a heartbeat. -/
def windRequests : List Request :=
  [.library (.ok (.insert clock)), .spawn ⟨1⟩, .spawn ⟨3⟩,
    .applyNode ⟨1⟩ ⟨1⟩ { caster := ⟨1⟩, edits := [.target ⟨1⟩] }]

/-- The state after that. -/
def wound (script : List Request) : Cascade :=
  Cascade.afterEach 30 { world := clockwork script, agenda := [] } windRequests

/-- The state in which a tick of one second, which will pulse once, is about to begin. -/
def struck (script : List Request) : Cascade :=
  Cascade.run 3 (.ofRequest (wound script).world (.tick 1 1))

/-- The states gone through before it. -/
def winding (script : List Request) : List Cascade :=
  Cascade.duringEach 30 { world := clockwork script, agenda := [] } windRequests ++
    [wound script] ++ Cascade.during 3 (.ofRequest (wound script).world (.tick 1 1))

/-- The states of the tick, in all of which it is running. -/
def striking (script : List Request) : List Cascade := (struck script).step.during 23

/-- The state that it ends in. -/
def stricken (script : List Request) : Cascade := (struck script).run 24

/-- A tick that loses nothing is a part of a session. -/
theorem session_stricken (script : List Request)
    (kept : Cascade.keepsEach 30 { world := clockwork script, agenda := [] } windRequests = true)
    (done : (wound script).isDone = true)
    (begins : Cascade.keeps 3 (.ofRequest (wound script).world (.tick 1 1)) = true)
    (busy : (struck script).isDone = false) (ends : (struck script).keeps 24 = true) :
    Session (fun _ => True) (clockwork script)
      (winding script ++ struck script :: striking script) (stricken script) := by
  have still : Session (fun _ => True) (clockwork script) _ (wound script) :=
    .ofRequests 30 windRequests (fun _ _ => trivial) kept
  have asked : Session (fun _ => True) (clockwork script) _
      (.ofRequest (wound script).world (.tick 1 1)) :=
    still.asked (List.isEmpty_iff.1 done) trivial
  exact (asked.run 3 begins).run_succ 23 busy ends

/-- The second entity is replaced and a third one joins. -/
def relief : List Request := [.unregister ⟨3⟩, .spawn ⟨3⟩, .spawn ⟨5⟩]

/-- A tick in which the second entity is replaced and a third one joins overlooks no call, and at
its end the three are registered in this order. -/
theorem relief_refines_immediate :
    Session (fun _ => True) (clockwork relief)
      (winding relief ++ struck relief :: striking relief) (stricken relief) ∧
    (clockwork relief).registry.Settled ∧ (struck relief).world.registry.ticking = false ∧
    (∀ state ∈ striking relief, state.world.registry.ticking = true) ∧
    (striking relief).countP (·.call?.isSome) = 3 ∧
    (stricken relief).world.registry.ticking = false ∧
    (stricken relief).world.registry.order = [⟨1⟩, ⟨3⟩, ⟨5⟩] ∧
    (stricken relief).world.registry.Alike
      ((struck relief).world.runEach ((striking relief).filterMap (·.call?))).registry := by
  have session := session_stricken relief (by decide +kernel) (by decide +kernel)
    (by decide +kernel) (by decide +kernel) (by decide +kernel)
  have settled : (clockwork relief).registry.Settled := Registry.settled_empty
  have outside : (struck relief).world.registry.ticking = false := by decide +kernel
  have begun : striking relief ≠ [] := List.length_pos_iff.1 (by decide +kernel)
  have inside : ∀ state ∈ striking relief, state.world.registry.ticking = true :=
    List.all_eq_true.1 (by decide +kernel)
  have ended : (stricken relief).world.registry.ticking = false := by decide +kernel
  have heard : (striking relief).all (fun state =>
      state.call?.all fun request => !state.world.registry.overlooks request) = true := by
    decide +kernel
  have alike := (deferred_calls_refine_immediate session settled rfl outside begun inside ended).2
    fun state member request called => by
      have fine := List.all_eq_true.1 heard state member
      rw [called] at fine
      simpa using fine
  exact ⟨session, settled, outside, inside, by decide +kernel, ended, by decide +kernel, alike⟩

/-- The second entity is replaced, and its successor is to leave. -/
def lapse : List Request := [.unregister ⟨3⟩, .spawn ⟨3⟩, .unregister ⟨3⟩]

/-- A successor that is to leave in the tick in which it was registered stays, while before the tick
the same calls leave nobody of its number. -/
theorem successor_stays :
    Session (fun _ => True) (clockwork lapse)
      (winding lapse ++ struck lapse :: striking lapse) (stricken lapse) ∧
    (clockwork lapse).registry.Settled ∧ (struck lapse).world.registry.ticking = false ∧
    (∀ state ∈ striking lapse, state.world.registry.ticking = true) ∧
    (stricken lapse).world.registry.ticking = false ∧
    (stricken lapse).world.registry.order = [⟨1⟩, ⟨3⟩] ∧
    ((struck lapse).world.runEach
      ((striking lapse).filterMap (·.call?))).registry.order = [⟨1⟩] := by
  have session := session_stricken lapse (by decide +kernel) (by decide +kernel)
    (by decide +kernel) (by decide +kernel) (by decide +kernel)
  have inside : ∀ state ∈ striking lapse, state.world.registry.ticking = true :=
    List.all_eq_true.1 (by decide +kernel)
  exact ⟨session, Registry.settled_empty, by decide +kernel, inside, by decide +kernel,
    by decide +kernel, by decide +kernel⟩

end SkillEngine
