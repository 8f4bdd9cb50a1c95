import SkillEngine.Proofs.Ports

/-!
# The protocol of an instance

The ports that are fired for an instance in a session follow a protocol. The first one comes when
the instance takes hold, pulses and overflows may follow while it is live, and the last two come one
after the other, when it is removed or expires. Nothing follows when it is cancelled or when it is
lost with its entity.
-/

namespace SkillEngine

namespace Cascade

/-- The port that is fired for an instance with the next step. -/
def port? (handle : EffectHandle) (cascade : Cascade) : Option String :=
  cascade.agenda.head?.bind (Frame.port? handle)

/-- The instance that takes hold with the next step. -/
def registers? (cascade : Cascade) : Option EffectHandle :=
  cascade.agenda.head?.bind (Frame.registers? cascade.world)

/-- The state in which an instance ends with the next step. -/
def ending? (handle : EffectHandle) (cascade : Cascade) : Option EffectState :=
  cascade.agenda.head?.bind (Frame.ending? cascade.world handle)

/-- The ports that are fired for an instance in some states, in the order in which they start. -/
def fired (handle : EffectHandle) (states : List Cascade) : List String :=
  states.filterMap (port? handle)

/-- The instances that take hold in some states. -/
def registered (states : List Cascade) : List EffectHandle := states.filterMap registers?

/-- The states in which an instance ends in some states. -/
def endings (handle : EffectHandle) (states : List Cascade) : List EffectState :=
  states.filterMap (ending? handle)

/-- A live instance is lost with the next step, without having ended: its entity leaves. -/
def TearsDown (handle : EffectHandle) (cascade : Cascade) : Prop :=
  cascade.world.isLive handle = true ∧ cascade.ending? handle = none ∧
    cascade.step.world.effect? handle = none

variable {past : List Cascade} {now : Cascade} {frame : Frame} {rest : List Frame}
  {handle : EffectHandle}

/-- One more state may fire one more port. -/
theorem fired_concat (handle : EffectHandle) (past : List Cascade) (now : Cascade) :
    fired handle (past ++ [now]) = fired handle past ++ (now.port? handle).toList :=
  filterMap_concat _ past now

/-- In one more state one more instance may take hold. -/
theorem registered_concat (past : List Cascade) (now : Cascade) :
    registered (past ++ [now]) = registered past ++ now.registers?.toList :=
  filterMap_concat _ past now

/-- An instance may end in one more state. -/
theorem endings_concat (handle : EffectHandle) (past : List Cascade) (now : Cascade) :
    endings handle (past ++ [now]) = endings handle past ++ (now.ending? handle).toList :=
  filterMap_concat _ past now

/-- Where nothing remains to be done, nothing happens to an instance. -/
theorem idle (done : now.agenda = []) (handle : EffectHandle) :
    now.port? handle = none ∧ now.registers? = none ∧ now.ending? handle = none := by
  simp [port?, registers?, ending?, done]

/-- The instance that takes hold with the next step is the one of the next frame. -/
theorem registers?_eq (next : now.agenda = frame :: rest) :
    now.registers? = frame.registers? now.world := by
  rw [registers?, next]
  rfl

/-- The state in which an instance ends with the next step is the one of the next frame. -/
theorem ending?_eq (next : now.agenda = frame :: rest) :
    now.ending? handle = frame.ending? now.world handle := by
  rw [ending?, next]
  rfl

/-- An instance that takes hold has the next number. -/
theorem registers?_eq_some (registers : now.registers? = some handle) :
    handle.id = ⟨now.world.nextEffect⟩ ∧ ∃ application duration rest,
      now.agenda = .attach application handle.target duration :: rest := by
  cases next : now.agenda with
  | nil => cases (idle next handle).2.1.symm.trans registers
  | cons frame rest =>
    rw [registers?_eq next] at registers
    cases frame with
    | attach application target duration =>
      cases registers
      exact ⟨rfl, _, _, _, rfl⟩
    | _ => cases registers

/-- An instance that ends was live. -/
theorem ending?_eq_some {state : EffectState} (ends : now.ending? handle = some state) :
    now.world.isLive handle = true ∧
      ∃ fires rest, now.agenda = .finish handle state fires :: rest := by
  cases next : now.agenda with
  | nil => cases (idle next handle).2.2.symm.trans ends
  | cons frame rest =>
    rw [ending?_eq next] at ends
    cases frame with
    | finish ended last fires =>
      simp only [Frame.ending?, Option.ite_none_right_eq_some, Option.some.injEq] at ends
      obtain ⟨⟨rfl, live⟩, rfl⟩ := ends
      exact ⟨live, _, _, rfl⟩
    | _ => cases ends

/-- An instance that is not found does not end. -/
theorem ending?_of_missing (missing : now.world.effect? handle = none) :
    now.ending? handle = none := by
  refine Option.eq_none_iff_forall_ne_some.2 fun state ends => ?_
  cases (World.isLive_of_missing missing).symm.trans (ending?_eq_some ends).1

/-- A step that fires nothing for an instance leaves the ports that wait, and the first of them may
come next. -/
theorem ports_step (next : now.agenda = frame :: rest)
    (kept : (frame.expand now.world now.reply).lost = false)
    (none : Frame.ports handle (frame.expand now.world now.reply).frames = []) :
    Frame.ports handle now.agenda.tail =
      (now.step.port? handle).toList ++ Frame.ports handle now.step.agenda.tail := by
  have same : Frame.ports handle now.agenda.tail = Frame.ports handle now.step.agenda := by
    rw [agenda_step next kept, Frame.ports_append, none, List.nil_append, next, List.tail_cons]
  rw [same, port?]
  cases now.step.agenda with
  | nil => rfl
  | cons first others =>
    cases fires : first.port? handle <;> simp [Frame.ports, fires]

/-- A step that fires a port for an instance puts it next. -/
theorem port?_step (next : now.agenda = frame :: rest)
    (kept : (frame.expand now.world now.reply).lost = false) {port : EffectPort}
    {others : List EffectPort}
    (first : Frame.StartWith handle port others (frame.expand now.world now.reply).frames) :
    now.step.port? handle = some port.name := by
  obtain ⟨firing, more, shape, fires, _⟩ := first
  rw [port?, agenda_step next kept, shape]
  exact fires

/-- When no port of an instance waits, a step that fires some for it adds the first to those that
were fired, and the others wait. -/
theorem fired_step (next : now.agenda = frame :: rest)
    (kept : (frame.expand now.world now.reply).lost = false) {port : EffectPort}
    {ports others : List EffectPort}
    (first : Frame.StartWith handle port others (frame.expand now.world now.reply).frames)
    (before : fired handle (past ++ [now]) = ports.map (·.name))
    (waited : Frame.ports handle now.agenda.tail = []) :
    fired handle (past ++ [now] ++ [now.step]) = (ports ++ [port]).map (·.name) ∧
      Frame.ports handle now.step.agenda.tail = others.map (·.name) := by
  have onward := port?_step next kept first
  obtain ⟨firing, more, shape, _, follow⟩ := first
  refine ⟨?_, ?_⟩
  · rw [fired_concat, before, onward, List.map_append]
    rfl
  · rw [next, List.tail_cons] at waited
    rw [agenda_step next kept, shape, List.cons_append, List.tail_cons, Frame.ports_append, follow,
      waited, List.append_nil]

end Cascade

/-- Different ports have different names. -/
theorem EffectPort.name_injective {first second : EffectPort} (same : first.name = second.name) :
    first = second := by
  cases first <;> cases second <;> first | rfl | exact absurd same (by decide)

/-- How far the protocol of an instance has come: the ports that were fired, those that wait behind
the next step, and the states in which the instance has ended. -/
inductive Stage : List EffectPort → List EffectPort → List EffectState → Prop where
  /-- It has not ended, or it was cancelled. -/
  | held {middle : List EffectPort} {endings : List EffectState}
      (between : ∀ port ∈ middle, port = .periodic ∨ port = .overflow)
      (ends : endings = [] ∨ endings = [.cancelled]) : Stage (.initial :: middle) [] endings
  /-- It was removed or has expired, and the last port waits for the walk of the one before. -/
  | leaving {middle : List EffectPort} {state : EffectState}
      (between : ∀ port ∈ middle, port = .periodic ∨ port = .overflow)
      (final : state = .removed ∨ state = .expired) :
      Stage (.initial :: (middle ++ [.removed])) [.complete] [state]
  /-- It was removed or has expired, and all its ports were fired. -/
  | gone {middle : List EffectPort} {state : EffectState}
      (between : ∀ port ∈ middle, port = .periodic ∨ port = .overflow)
      (final : state = .removed ∨ state = .expired) :
      Stage (.initial :: (middle ++ [.removed, .complete])) [] [state]

/-- Where an instance stands in a session. -/
inductive Standing (handle : EffectHandle) (past : List Cascade) (now : Cascade) : Prop where
  /-- It did not take hold yet. -/
  | unborn (new : handle ∉ Cascade.registered past)
      (fired : Cascade.fired handle (past ++ [now]) = [])
      (waits : Frame.ports handle now.agenda.tail = [])
      (endings : Cascade.endings handle past = [])
      (missing : now.world.effect? handle = none)
  /-- It took hold. -/
  | born {ports waiting : List EffectPort} (old : handle ∈ Cascade.registered past)
      (fired : Cascade.fired handle (past ++ [now]) = ports.map (·.name))
      (waits : Frame.ports handle now.agenda.tail = waiting.map (·.name))
      (stage : Stage ports waiting (Cascade.endings handle past))

/-- Fired ports wait no longer, and the others still do. -/
theorem Stage.advance {ports waiting : List EffectPort} {endings : List EffectState}
    (stage : Stage ports waiting endings) {fires : Option String} {later : List String}
    (waits : waiting.map (·.name) = fires.toList ++ later) :
    ∃ more remaining : List EffectPort, fires.toList = more.map (·.name) ∧
      later = remaining.map (·.name) ∧ Stage (ports ++ more) remaining endings := by
  have still (none : [] = fires.toList ++ later) (held : Stage ports [] endings) :
      ∃ more remaining : List EffectPort, fires.toList = more.map (·.name) ∧
        later = remaining.map (·.name) ∧ Stage (ports ++ more) remaining endings := by
    obtain ⟨silent, none⟩ := List.append_eq_nil_iff.1 none.symm
    exact ⟨[], [], silent, none, by rwa [List.append_nil]⟩
  cases stage with
  | held between ends => exact still waits (.held between ends)
  | gone between final => exact still waits (.gone between final)
  | @leaving middle state between final =>
    cases fires with
    | none =>
      refine ⟨[], [.complete], rfl, waits.symm, ?_⟩
      rw [List.append_nil]
      exact .leaving between final
    | some port =>
      cases waits
      refine ⟨[.complete], [], rfl, rfl, ?_⟩
      rw [List.cons_append, List.append_assoc]
      exact .gone between final

/-- At most the very last port waits. -/
theorem Stage.waiting {ports waiting : List EffectPort} {endings : List EffectState}
    (stage : Stage ports waiting endings) : waiting = [] ∨ waiting = [.complete] := by
  cases stage with
  | held | gone => exact .inl rfl
  | leaving => exact .inr rfl

/-- The ports that were fired are the first one, those in between, and the last ones if the instance
was removed or has expired. -/
theorem Stage.shape {ports waiting : List EffectPort} {endings : List EffectState}
    (stage : Stage ports waiting endings) : ∃ middle last : List EffectPort,
      ports = .initial :: (middle ++ last) ∧
      (∀ port ∈ middle, port = .periodic ∨ port = .overflow) ∧
      (last = [] ∧ (endings = [] ∨ endings = [.cancelled]) ∨
        (last = [.removed, .complete] ∨ last = [.removed] ∧ waiting ≠ []) ∧
          (endings = [.removed] ∨ endings = [.expired])) := by
  cases stage with
  | @held middle _ between ends =>
    exact ⟨middle, [], by rw [List.append_nil], between, .inl ⟨rfl, ends⟩⟩
  | @leaving middle state between final =>
    refine ⟨middle, _, rfl, between, .inr ⟨.inr ⟨rfl, List.cons_ne_nil _ _⟩, ?_⟩⟩
    rcases final with rfl | rfl
    · exact .inl rfl
    · exact .inr rfl
  | @gone middle state between final =>
    refine ⟨middle, _, rfl, between, .inr ⟨.inl rfl, ?_⟩⟩
    rcases final with rfl | rfl
    · exact .inl rfl
    · exact .inr rfl

/-- What has not ended may be cancelled. -/
theorem Stage.cancel {ports waiting : List EffectPort} (stage : Stage ports waiting []) :
    Stage ports waiting [.cancelled] := by
  cases stage with
  | held between => exact .held between (.inr rfl)

/-- An instance that is live has fired its first port, possibly some in between, and has not ended;
none of its ports waits. -/
theorem Standing.live {handle : EffectHandle} {past : List Cascade} {now : Cascade}
    (standing : Standing handle past now)
    (unended : Cascade.endings handle past = []) (live : now.world.isLive handle = true) :
    ∃ middle : List EffectPort, (∀ port ∈ middle, port = .periodic ∨ port = .overflow) ∧
      handle ∈ Cascade.registered past ∧
      Cascade.fired handle (past ++ [now]) = (EffectPort.initial :: middle).map (·.name) ∧
      Frame.ports handle now.agenda.tail = [] := by
  cases standing with
  | unborn new fired waits endings missing =>
    cases (World.isLive_of_missing missing).symm.trans live
  | born old fired waits stage =>
    rw [unended] at stage
    cases stage with
    | held between => exact ⟨_, between, old, fired, waits⟩

namespace Session

variable {admits : Request → Prop} {start : World} {past : List Cascade} {now : Cascade}
  {handle : EffectHandle}

variable (calm : start.Calm) (lawful : ∀ request, admits request → request.isLawful = true)

include calm lawful

/-- Instances that took hold have numbers given before. -/
theorem registered_below (session : Session admits start past now)
    (old : handle ∈ Cascade.registered past) : handle.id.raw < now.world.nextEffect := by
  induction session with
  | opened => cases old
  | @asked past now request session done admitted ih =>
    rw [Cascade.registered_concat, (Cascade.idle done handle).2.1] at old
    exact ih (by simpa using old)
  | @stepped past now frame rest session next kept ih =>
    rw [Cascade.world_step next]
    rw [Cascade.registered_concat] at old
    rcases List.mem_append.1 old with before | last
    · exact Nat.lt_of_lt_of_le (ih before) (session.turn calm lawful next).numbering
    · obtain ⟨number, application, duration, _, here⟩ :=
        Cascade.registers?_eq_some (Option.mem_toList.1 last)
      cases next.symm.trans here
      have given := (session.sound calm lawful).nextEffect_attach application handle.target duration
      rw [number]
      exact given ▸ Nat.lt_succ_self now.world.nextEffect

/-- No two instances that took hold have the same number. -/
theorem registered_distinct (session : Session admits start past now) :
    (Cascade.registered past).Pairwise (·.id ≠ ·.id) := by
  induction session with
  | opened => exact .nil
  | @asked past now request session done admitted ih =>
    rw [Cascade.registered_concat, (Cascade.idle done ⟨⟨0⟩, ⟨0⟩⟩).2.1]
    simpa using ih
  | @stepped past now frame rest session next kept ih =>
    rw [Cascade.registered_concat]
    refine List.pairwise_append.2 ⟨ih, ?_, fun earlier old latest last same => ?_⟩
    · cases now.registers? <;> simp
    · have number := (Cascade.registers?_eq_some (Option.mem_toList.1 last)).1
      have below := session.registered_below calm lawful old
      rw [same, number] at below
      exact Nat.lt_irrefl _ below

/-- Instances that were live have numbers given before. -/
theorem live_below (session : Session admits start past now) {earlier : Cascade}
    (member : earlier ∈ past) (live : earlier.world.isLive handle = true) :
    handle.id.raw < now.world.nextEffect := by
  obtain ⟨effect, found, _⟩ := World.exists_of_isLive live
  have below := (session.sound_past calm lawful earlier member).numbered_below found
  exact Nat.lt_of_lt_of_le below (session.evolves calm lawful earlier member).numbering

/-- An instance that ends is live no longer. -/
theorem not_isLive_step (session : Session admits start past now) {state : EffectState}
    (ends : now.ending? handle = some state) : now.step.world.isLive handle = false := by
  obtain ⟨_, fires, rest, next⟩ := Cascade.ending?_eq_some ends
  rw [Cascade.world_step next]
  have final := (session.first calm lawful next).isTerminal
  exact (session.sound calm lawful).isLive_finish handle final fires

/-- An instance that is not found is found after a step only if it takes hold. -/
theorem missing_step (session : Session admits start past now) {frame : Frame} {rest : List Frame}
    (next : now.agenda = frame :: rest) (missing : now.world.effect? handle = none)
    (old : now.registers? ≠ some handle) : now.step.world.effect? handle = none := by
  rw [Cascade.world_step next]
  refine Option.eq_none_iff_forall_ne_some.2 fun effect found => ?_
  rcases (session.turn calm lawful next).origin (session.sound calm lawful) found with
    ⟨earlier, was, _⟩ | ⟨application, duration, rfl, rfl⟩
  · cases missing.symm.trans was
  · obtain ⟨_, _, _, number⟩ := World.of_effect? found
    rw [Cascade.registers?_eq next] at old
    exact old (congrArg (fun id => some (⟨handle.target, id⟩ : EffectHandle)) number)

/-- An instance that is stored has ended only if it is in a last state, and then in that one. -/
theorem endings_eq (session : Session admits start past now) {effect : Effect}
    (found : now.world.effect? handle = some effect) :
    Cascade.endings handle past = if effect.isLive then [] else [effect.state] := by
  induction session generalizing effect with
  | opened => cases (calm.missing handle).symm.trans found
  | @asked past now request session done admitted ih =>
    rw [Cascade.endings_concat, (Cascade.idle done handle).2.2]
    simpa using ih found
  | @stepped past now frame rest session next kept ih =>
    have after := found
    rw [Cascade.world_step next] at found
    rw [Cascade.endings_concat]
    have sound := session.sound calm lawful
    have admitted := session.first calm lawful next
    rcases (session.turn calm lawful next).origin sound found with
      ⟨earlier, was, makes⟩ | ⟨application, duration, rfl, rfl⟩
    · rcases makes.live with same | ⟨live, fires, rfl⟩
      · have stays : now.ending? handle = none := by
          refine Option.eq_none_iff_forall_ne_some.2 fun state ends => ?_
          have dead := session.not_isLive_step calm lawful ends
          rw [World.isLive_eq after, same, ← World.isLive_eq was] at dead
          cases dead.symm.trans (Cascade.ending?_eq_some ends).1
        rw [stays, Option.toList_none, List.append_nil, ih was, same]
        split
        · rfl
        · next dead =>
          have terminal : earlier.state.isTerminal = true := by
            have attached := EffectState.isLive_eq_not_isTerminal (sound.attached was)
            rw [Effect.isLive, attached] at dead
            simpa using dead
          rw [(makes.becomes admitted).final terminal]
      · have alive : now.world.isLive handle = true := (World.isLive_eq was).trans live
        have ends : now.ending? handle = some effect.state :=
          (Cascade.ending?_eq next).trans (if_pos ⟨rfl, alive⟩)
        have dead : effect.isLive = false :=
          EffectState.not_isLive_of_isTerminal admitted.isTerminal
        rw [ends, ih was, live, dead]
        rfl
    · obtain ⟨_, _, _, number⟩ := World.of_effect? found
      have fresh : Cascade.endings handle past = [] := by
        refine List.eq_nil_iff_forall_not_mem.2 fun state ended => ?_
        obtain ⟨earlier, member, ends⟩ := List.mem_filterMap.1 ended
        have below := session.live_below calm lawful member (Cascade.ending?_eq_some ends).1
        rw [← number] at below
        exact Nat.lt_irrefl _ below
      rw [fresh, Cascade.ending?_eq next]
      rfl

/-- An instance that is live has not ended. -/
theorem endings_of_live (session : Session admits start past now)
    (live : now.world.isLive handle = true) : Cascade.endings handle past = [] := by
  obtain ⟨effect, found, alive⟩ := World.exists_of_isLive live
  rw [session.endings_eq calm lawful found, if_pos alive]

section Step

variable {frame : Frame} {rest : List Frame} (next : now.agenda = frame :: rest)
  (kept : (frame.expand now.world now.reply).lost = false)

include next kept

/-- Where an instance stands after a step that fires nothing for it. -/
theorem standing_nothing (session : Session admits start past now)
    (none : Frame.ports handle (frame.expand now.world now.reply).frames = [])
    (old : frame.registers? now.world ≠ some handle)
    (ends : ∀ state, frame.ending? now.world handle = some state → state = .cancelled)
    (standing : Standing handle past now) : Standing handle (past ++ [now]) now.step := by
  -- Nothing is put in front, so what fires next, if anything, has waited.
  have waits := Cascade.ports_step next kept none
  rw [← Cascade.registers?_eq next] at old
  have same : handle ∈ Cascade.registered (past ++ [now]) ↔ handle ∈ Cascade.registered past := by
    have unregistered : handle ∉ now.registers?.toList := fun member =>
      old (Option.mem_toList.1 member)
    rw [Cascade.registered_concat, List.mem_append, or_iff_left unregistered]
  cases standing with
  | unborn new silent waited unended missing =>
    rw [waited] at waits
    obtain ⟨quiet, later⟩ := List.append_eq_nil_iff.1 waits.symm
    have silent : Cascade.fired handle (past ++ [now] ++ [now.step]) = [] := by
      rw [Cascade.fired_concat, silent, quiet]
      rfl
    have unended : Cascade.endings handle (past ++ [now]) = [] := by
      rw [Cascade.endings_concat, unended, Cascade.ending?_of_missing missing]
      rfl
    exact .unborn (fun member => new (same.1 member)) silent later unended
      (session.missing_step calm lawful next missing old)
  | @born ports waiting held fired waited stage =>
    rw [waited] at waits
    obtain ⟨more, remaining, fires, later, onward⟩ := stage.advance waits
    have fired : Cascade.fired handle (past ++ [now] ++ [now.step]) =
        (ports ++ more).map (·.name) := by
      rw [Cascade.fired_concat, fired, fires, List.map_append]
    refine .born (same.2 held) fired later ?_
    rw [Cascade.endings_concat]
    cases ended : now.ending? handle with
    | none => rwa [Option.toList_none, List.append_nil]
    | some state =>
      have live := (Cascade.ending?_eq_some ended).1
      rw [session.endings_of_live calm lawful live] at onward ⊢
      rw [ends state ((Cascade.ending?_eq next).symm.trans ended)]
      exact onward.cancel

/-- Where an instance stands after a step in which it takes hold. -/
theorem standing_initial (session : Session admits start past now)
    (registers : frame.registers? now.world = some handle)
    (first : Frame.StartWith handle .initial [] (frame.expand now.world now.reply).frames)
    (standing : Standing handle past now) : Standing handle (past ++ [now]) now.step := by
  rw [← Cascade.registers?_eq next] at registers
  cases standing with
  | born held =>
    have below := session.registered_below calm lawful held
    rw [(Cascade.registers?_eq_some registers).1] at below
    exact absurd below (Nat.lt_irrefl _)
  | unborn new silent waited unended missing =>
    have none : Cascade.fired handle (past ++ [now]) = [].map EffectPort.name := silent
    obtain ⟨fired, later⟩ := Cascade.fired_step next kept first none waited
    have born : handle ∈ Cascade.registered (past ++ [now]) := by
      rw [Cascade.registered_concat, registers]
      exact List.mem_append_right _ List.mem_cons_self
    have unended : Cascade.endings handle (past ++ [now]) = [] := by
      rw [Cascade.endings_concat, unended, Cascade.ending?_of_missing missing]
      rfl
    exact .born born fired later (unended ▸ .held (fun _ member => by cases member) (.inl rfl))

/-- When a port fires next for a live instance, nothing has ended it, and so far it has fired its
first port and ports in between; after the step it has fired that port too. -/
theorem fired_live (session : Session admits start past now) {port : EffectPort}
    {others : List EffectPort} (live : now.world.isLive handle = true)
    (first : Frame.StartWith handle port others (frame.expand now.world now.reply).frames)
    (standing : Standing handle past now) :
    Cascade.endings handle past = [] ∧ handle ∈ Cascade.registered (past ++ [now]) ∧
      ∃ middle : List EffectPort, (∀ between ∈ middle, between = .periodic ∨ between = .overflow) ∧
        Cascade.fired handle (past ++ [now] ++ [now.step]) =
          (.initial :: (middle ++ [port])).map EffectPort.name ∧
        Frame.ports handle now.step.agenda.tail = others.map (·.name) := by
  have unended := session.endings_of_live calm lawful live
  obtain ⟨middle, between, held, before, waited⟩ := standing.live unended live
  obtain ⟨fired, later⟩ := Cascade.fired_step next kept first before waited
  have born : handle ∈ Cascade.registered (past ++ [now]) := by
    rw [Cascade.registered_concat]
    exact List.mem_append_left _ held
  rw [List.cons_append] at fired
  exact ⟨unended, born, middle, between, fired, later⟩

/-- Where an instance stands after a step that fires a pulse or an overflow of it. -/
theorem standing_between (session : Session admits start past now) {port : EffectPort}
    (kind : port = .periodic ∨ port = .overflow) (live : now.world.isLive handle = true)
    (remains : (frame.expand now.world now.reply).world.isLive handle = true)
    (first : Frame.StartWith handle port [] (frame.expand now.world now.reply).frames)
    (standing : Standing handle past now) : Standing handle (past ++ [now]) now.step := by
  obtain ⟨unended, born, middle, between, fired, later⟩ :=
    session.fired_live calm lawful next kept live first standing
  have stays : now.ending? handle = none := by
    refine Option.eq_none_iff_forall_ne_some.2 fun state ends => ?_
    have dead := session.not_isLive_step calm lawful ends
    rw [Cascade.world_step next] at dead
    cases dead.symm.trans remains
  refine .born born fired later ?_
  rw [Cascade.endings_concat, unended, stays]
  refine .held (fun other member => ?_) (.inl rfl)
  rcases List.mem_append.1 member with before | last
  · exact between other before
  · rw [List.mem_singleton.1 last]
    exact kind

/-- Where an instance stands after a step in which it is removed or expires. -/
theorem standing_last (session : Session admits start past now) {state : EffectState}
    (ends : frame.ending? now.world handle = some state)
    (final : state = .removed ∨ state = .expired)
    (first : Frame.StartWith handle .removed [.complete] (frame.expand now.world now.reply).frames)
    (standing : Standing handle past now) : Standing handle (past ++ [now]) now.step := by
  rw [← Cascade.ending?_eq next] at ends
  have live := (Cascade.ending?_eq_some ends).1
  obtain ⟨unended, born, middle, between, fired, later⟩ :=
    session.fired_live calm lawful next kept live first standing
  refine .born born fired later ?_
  rw [Cascade.endings_concat, unended, ends]
  exact .leaving between final

end Step

/-- Where an instance stands at any time. -/
theorem standing (session : Session admits start past now) (handle : EffectHandle) :
    Standing handle past now := by
  induction session with
  | opened => exact .unborn List.not_mem_nil rfl rfl rfl (calm.missing handle)
  | @asked past now request session done admitted ih =>
    obtain ⟨_, unregistered, unended⟩ := Cascade.idle done handle
    have silent : Cascade.fired handle (past ++ [now] ++ [.ofRequest now.world request]) =
        Cascade.fired handle (past ++ [now]) := by
      rw [Cascade.fired_concat]
      exact List.append_nil _
    have same : Cascade.registered (past ++ [now]) = Cascade.registered past := by
      rw [Cascade.registered_concat, unregistered]
      exact List.append_nil _
    have unended : Cascade.endings handle (past ++ [now]) = Cascade.endings handle past := by
      rw [Cascade.endings_concat, unended]
      exact List.append_nil _
    cases ih with
    | unborn new fired waits endings missing =>
      exact .unborn (same ▸ new) (silent.trans fired) rfl (unended.trans endings) missing
    | born old fired waits stage =>
      rw [done] at waits
      exact .born (same ▸ old) (silent.trans fired) waits (unended ▸ stage)
  | @stepped past now frame rest session next kept ih =>
    have sound := session.sound calm lawful
    have admitted := session.first calm lawful next
    cases Frame.fires_expand sound now.reply admitted handle with
    | nothing none old ends => exact session.standing_nothing calm lawful next kept none old ends ih
    | initial registers first =>
      exact session.standing_initial calm lawful next kept registers first ih
    | between kind live remains first =>
      exact session.standing_between calm lawful next kept kind live remains first ih
    | last ends final first => exact session.standing_last calm lawful next kept ends final first ih

/-- A pulse or an overflow is about to be fired only for an instance that is live. -/
theorem alive (session : Session admits start past now) {port : EffectPort}
    (kind : port = .periodic ∨ port = .overflow) (fires : now.port? handle = some port.name) :
    now.world.isLive handle = true := by
  cases session with
  | opened => cases fires
  | asked => cases fires
  | @stepped past now frame rest session next kept =>
    have sound := session.sound calm lawful
    have admitted := session.first calm lawful next
    have differs {other : EffectPort} (apart : other ≠ .periodic ∧ other ≠ .overflow)
        (first : now.step.port? handle = some other.name) : False := by
      have same := EffectPort.name_injective (Option.some.inj (first.symm.trans fires))
      rcases kind with rfl | rfl
      · exact apart.1 same
      · exact apart.2 same
    cases Frame.fires_expand sound now.reply admitted handle with
    | nothing none =>
      -- The port has waited, and only the very last one ever does.
      have waits := Cascade.ports_step next kept none
      rw [fires] at waits
      cases session.standing calm lawful handle with
      | unborn _ _ waited => cases waited.symm.trans waits
      | born _ _ waited stage =>
        rcases stage.waiting with rfl | rfl
        · cases waited.symm.trans waits
        · have same := EffectPort.name_injective (List.cons.inj (waited.symm.trans waits)).1
          rcases kind with rfl | rfl <;> cases same
    | initial _ first => exact (differs (by decide) (Cascade.port?_step next kept first)).elim
    | between _ _ remains =>
      rw [Cascade.world_step next]
      exact remains
    | last _ _ first => exact (differs (by decide) (Cascade.port?_step next kept first)).elim

/-- An instance that was torn down is found no longer, and it does not end. -/
theorem unended_of_tearsDown (session : Session admits start past now) {earlier : Cascade}
    (member : earlier ∈ past) (down : earlier.TearsDown handle) :
    Cascade.endings handle past = [] ∧ now.world.effect? handle = none := by
  have here {past : List Cascade} {now : Cascade} (session : Session admits start past now)
      (down : now.TearsDown handle) : Cascade.endings handle (past ++ [now]) = [] := by
    obtain ⟨live, unending, _⟩ := down
    rw [Cascade.endings_concat, session.endings_of_live calm lawful live, unending]
    rfl
  induction session with
  | opened => cases member
  | @asked past now request session done admitted ih =>
    rcases List.mem_append.1 member with before | last
    · obtain ⟨unended, missing⟩ := ih before
      refine ⟨?_, missing⟩
      rw [Cascade.endings_concat, unended, (Cascade.idle done handle).2.2]
      rfl
    · cases List.mem_singleton.1 last
      have same : earlier.step = earlier := by rw [Cascade.step, done]
      have missing := down.2.2
      rw [same] at missing
      exact ⟨here session down, missing⟩
  | @stepped past now frame rest session next kept ih =>
    rcases List.mem_append.1 member with before | last
    · obtain ⟨unended, missing⟩ := ih before
      have old : now.registers? ≠ some handle := fun registers => by
        have below := session.live_below calm lawful before down.1
        rw [(Cascade.registers?_eq_some registers).1] at below
        exact Nat.lt_irrefl _ below
      refine ⟨?_, session.missing_step calm lawful next missing old⟩
      rw [Cascade.endings_concat, unended, Cascade.ending?_of_missing missing]
      rfl
    · cases List.mem_singleton.1 last
      exact ⟨here session down, down.2.2⟩

end Session

/-- What holds of an instance at any time of a session. -/
structure Lifecycle (handle : EffectHandle) (past : List Cascade) (now : Cascade) : Prop where
  /-- Before it takes hold no port is fired for it. -/
  unborn : handle ∉ Cascade.registered past → Cascade.fired handle (past ++ [now]) = []
  /-- Then the first port is fired, pulses and overflows follow, and when it is removed or expires,
  but not when it is cancelled, the last two are fired in turn. -/
  protocol : handle ∈ Cascade.registered past → ∃ middle last : List EffectPort,
    Cascade.fired handle (past ++ [now]) = (.initial :: (middle ++ last)).map EffectPort.name ∧
    (∀ port ∈ middle, port = .periodic ∨ port = .overflow) ∧
    (last = [] ∧
        (Cascade.endings handle past = [] ∨ Cascade.endings handle past = [.cancelled]) ∨
      (last = [.removed, .complete] ∨ last = [.removed] ∧ now.agenda ≠ []) ∧
        (Cascade.endings handle past = [.removed] ∨ Cascade.endings handle past = [.expired]))
  /-- Pulses and overflows are fired only while it is live. -/
  alive : ∀ port : EffectPort, port = .periodic ∨ port = .overflow →
    now.port? handle = some port.name → now.world.isLive handle = true
  /-- When it is stored, it took hold, and it has ended just when it is not live, in its state. -/
  state : ∀ effect, now.world.effect? handle = some effect → handle ∈ Cascade.registered past ∧
    Cascade.endings handle past = if effect.isLive then [] else [effect.state]
  /-- When it was torn down with its entity, it does not end. -/
  tornDown : (∃ earlier ∈ past, earlier.TearsDown handle) → Cascade.endings handle past = []
  /-- A last state never changes. -/
  final : ∀ earlier ∈ past, ∀ before after, earlier.world.effect? handle = some before →
    now.world.effect? handle = some after → before.state.isTerminal = true →
      after.state = before.state

/-- Every instance keeps to the protocol throughout a session in which the host leaves effects to
the engine, and no two instances that take hold have the same number. -/
theorem instances_keep_protocol {start : World} (calm : start.Calm) {past : List Cascade}
    {now : Cascade} (session : Session (fun request => request.isLawful = true) start past now) :
    (Cascade.registered past).Pairwise (·.id ≠ ·.id) ∧ ∀ handle, Lifecycle handle past now := by
  have lawful : ∀ request : Request, request.isLawful = true → request.isLawful = true :=
    fun _ lawful => lawful
  refine ⟨session.registered_distinct calm lawful, fun handle => ?_⟩
  have standing := session.standing calm lawful handle
  refine ⟨fun new => ?_, fun old => ?_, fun port kind fires => session.alive calm lawful kind fires,
    fun effect found => ⟨?_, session.endings_eq calm lawful found⟩,
    fun ⟨earlier, member, down⟩ => (session.unended_of_tearsDown calm lawful member down).1,
    fun earlier member before after was found terminal => ?_⟩
  · cases standing with
    | unborn _ fired => exact fired
    | born old => exact absurd old new
  · cases standing with
    | unborn new => exact absurd old new
    | born _ fired waits stage =>
      obtain ⟨middle, last, rfl, between, ends⟩ := stage.shape
      refine ⟨middle, last, fired, between, ends.imp id fun ⟨ported, final⟩ => ⟨?_, final⟩⟩
      refine ported.imp id fun ⟨removed, follows⟩ => ⟨removed, fun done => follows ?_⟩
      rw [done] at waits
      exact List.map_eq_nil_iff.1 waits.symm
  · cases standing with
    | unborn _ _ _ _ missing => cases missing.symm.trans found
    | born old => exact old
  · have below := (session.sound_past calm lawful earlier member).numbered_below was
    obtain ⟨same, stored, becomes⟩ :=
      (session.evolves calm lawful earlier member).origin handle after below found
    cases was.symm.trans stored
    exact becomes.final terminal

/-- A lasting effect that pulses at once and overflows when it is applied again. -/
def drip : EffectDef where
  durationType := .infinite
  period := .one
  executePeriodicOnApplication := true
  stacking := some { limit := 1, overflow := .allowOverflowEffect }

/-- An entity receives a drip twice and is rid of it, and then receives one that is cancelled. -/
def dripRequests : List Request :=
  [.register ⟨7⟩ [] .empty, .apply ⟨1⟩ ⟨1⟩ drip ⟨7⟩ { caster := ⟨7⟩ },
    .apply ⟨1⟩ ⟨1⟩ drip ⟨7⟩ { caster := ⟨7⟩ }, .removeEffect ⟨⟨7⟩, ⟨1⟩⟩,
    .apply ⟨1⟩ ⟨1⟩ drip ⟨7⟩ { caster := ⟨7⟩ }, .cancelEffect ⟨⟨7⟩, ⟨2⟩⟩]

/-- The states gone through meanwhile. -/
def dripping : List Cascade :=
  Cascade.duringEach 30 { world := World.create {} .empty, agenda := [] } dripRequests

/-- The state that is reached. -/
def dripped : Cascade :=
  Cascade.afterEach 30 { world := World.create {} .empty, agenda := [] } dripRequests

/-- The first drip fires all its ports in turn, the second one none after it is cancelled. -/
theorem drip_keeps_protocol : (World.create {} .empty).Calm ∧
    Session (fun request => request.isLawful = true) (World.create {} .empty) dripping dripped ∧
    Cascade.registered dripping = [⟨⟨7⟩, ⟨1⟩⟩, ⟨⟨7⟩, ⟨2⟩⟩] ∧
    Cascade.fired ⟨⟨7⟩, ⟨1⟩⟩ (dripping ++ [dripped]) =
      ["initial", "periodic", "overflow", "removed", "complete"] ∧
    Cascade.endings ⟨⟨7⟩, ⟨1⟩⟩ dripping = [.removed] ∧
    Cascade.fired ⟨⟨7⟩, ⟨2⟩⟩ (dripping ++ [dripped]) = ["initial", "periodic"] ∧
    Cascade.endings ⟨⟨7⟩, ⟨2⟩⟩ dripping = [.cancelled] ∧
    ∀ handle, Lifecycle handle dripping dripped := by
  have calm := World.calm_create {} .empty
  have initially : Session (fun request => request.isLawful = true) (World.create {} .empty) []
      { world := World.create {} .empty, agenda := [] } := .opened
  have session := initially.afterEach 30 dripRequests (by decide +kernel) (by decide +kernel)
  rw [List.nil_append] at session
  exact ⟨calm, session, by decide +kernel, by decide +kernel, by decide +kernel, by decide +kernel,
    by decide +kernel, (instances_keep_protocol calm session).2⟩

end SkillEngine
