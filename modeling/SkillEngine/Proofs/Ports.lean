import SkillEngine.Proofs.Session

/-!
# What a frame fires for an instance

A frame puts at most one port of an instance in front of what remains: the first one when the
instance takes hold, a pulse or an overflow while it is live. Only the last two ports are put there
together, when the instance is removed or expires, and the second waits for the whole walk of the
first.
-/

namespace SkillEngine

namespace Frame

/-- The port that a frame fires for an instance. -/
def port? (handle : EffectHandle) : Frame → Option String
  | .fire firing => if firing.cause = some handle then some firing.port else none
  | _ => none

/-- The ports that some frames fire for an instance, in order. -/
def ports (handle : EffectHandle) (frames : List Frame) : List String :=
  frames.filterMap (port? handle)

/-- The instance that takes hold with a frame. -/
def registers? (world : World) : Frame → Option EffectHandle
  | .attach _ target _ => some ⟨target, ⟨world.nextEffect⟩⟩
  | _ => none

/-- The state in which a frame ends an instance. -/
def ending? (world : World) (handle : EffectHandle) : Frame → Option EffectState
  | .finish ended state _ =>
    if ended = handle ∧ world.isLive handle = true then some state else none
  | _ => none

/-- The first of some frames fires a port for an instance, and the others fire the ports that
follow. -/
def StartWith (handle : EffectHandle) (first : EffectPort) (others : List EffectPort)
    (frames : List Frame) : Prop :=
  ∃ next rest, frames = next :: rest ∧ next.port? handle = some first.name ∧
    ports handle rest = others.map (·.name)

/-- What a frame fires for an instance by what it leaves. -/
inductive Fires (world : World) (handle : EffectHandle) (frame : Frame) (after : Progress) :
    Prop where
  /-- Nothing: the instance does not take hold, and it does not end unless it is cancelled. -/
  | nothing (none : ports handle after.frames = [])
      (old : frame.registers? world ≠ some handle)
      (ends : ∀ state, frame.ending? world handle = some state → state = .cancelled)
  /-- The first port, when the instance takes hold. -/
  | initial (registers : frame.registers? world = some handle)
      (first : StartWith handle .initial [] after.frames)
  /-- A pulse or an overflow of an instance that is live and remains so. -/
  | between {port : EffectPort} (kind : port = .periodic ∨ port = .overflow)
      (live : world.isLive handle = true) (remains : after.world.isLive handle = true)
      (first : StartWith handle port [] after.frames)
  /-- The last ports, when the instance is removed or expires. -/
  | last {state : EffectState} (ends : frame.ending? world handle = some state)
      (final : state = .removed ∨ state = .expired)
      (first : StartWith handle .removed [.complete] after.frames)

variable {world : World} {frame next : Frame} {frames rest : List Frame} {handle : EffectHandle}

/-- The ports of frames in a row. -/
theorem ports_append (handle : EffectHandle) (frames rest : List Frame) :
    ports handle (frames ++ rest) = ports handle frames ++ ports handle rest :=
  List.filterMap_append

/-- A firing of an effect is a port of its instance. -/
theorem port?_fires (effect : Effect) (handle : EffectHandle) (port : EffectPort)
    (context : Context) :
    (Frame.fire (effect.fires handle port context)).port? handle = some port.name := if_pos rfl

/-- A firing of an effect is no port of another instance. -/
theorem port?_fires_of_ne (effect : Effect) {handle other : EffectHandle} (apart : other ≠ handle)
    (port : EffectPort) (context : Context) :
    (Frame.fire (effect.fires other port context)).port? handle = none :=
  if_neg fun same => apart (Option.some.inj same)

/-- The frames that fire ports for an instance. -/
def isSource : Frame → Bool
  | .apply .. | .attach .. | .pulses .. | .finish .. => true
  | _ => false

/-- Other frames leave no firing for an instance. -/
theorem Leaves.port? (leaves : frame.Leaves world next) (plain : frame.isSource = false)
    (handle : EffectHandle) : next.port? handle = none := by
  have uncaused {firing : Firing} (cause : firing.cause = none) :
      (Frame.fire firing).port? handle = none :=
    if_neg fun same => by cases cause.symm.trans same
  cases leaves with
  | port cause | written cause => exact uncaused cause
  | host _ opening =>
    cases next with
    | fire firing => exact uncaused (Option.isNone_iff_eq_none.1 opening)
    | _ => rfl
  | overflow | initial | periodic | last => cases plain
  | answer => rfl
  | _ => rfl

/-- Other frames fire nothing for an instance. -/
theorem fires_of_plain (sound : world.Sound) (reply : Reply) {admits : Request → Prop}
    (admitted : frame.Admitted admits) (plain : frame.isSource = false) (handle : EffectHandle) :
    Fires world handle frame (frame.expand world reply) := by
  refine .nothing ?_ ?_ ?_
  · exact List.filterMap_eq_nil_iff.2 fun next left =>
      (leaves_expand sound reply admitted left).port? plain handle
  · cases frame with
    | attach => cases plain
    | _ => exact fun same => by cases same
  · cases frame with
    | finish => cases plain
    | _ => exact fun _ same => by cases same

/-- What letting an effect take hold fires for an instance. -/
theorem fires_attach (world : World) (application : Application) (target : EntityId)
    (duration : Float32) (handle : EffectHandle) :
    Fires world handle (.attach application target duration)
      (world.attach application target duration) := by
  by_cases same : (⟨target, ⟨world.nextEffect⟩⟩ : EffectHandle) = handle
  · subst same
    exact .initial rfl ⟨_, _, rfl, port?_fires _ _ _ _, rfl⟩
  · refine .nothing ?_ (fun registers => same (Option.some.inj registers)) fun _ ends => by
      cases ends
    have first := port?_fires_of_ne (world.newEffect application target duration) same .initial
      (world.newEffect application target duration).context
    exact List.filterMap_cons_none first

/-- What pulses fire for an instance. -/
theorem fires_pulses (world : World) (pulsing : EffectHandle) (count : Nat)
    (handle : EffectHandle) :
    Fires world handle (.pulses pulsing count) (world.pulses pulsing count) := by
  have nothing (none : ports handle (world.pulses pulsing count).frames = []) :
      Fires world handle (.pulses pulsing count) (world.pulses pulsing count) :=
    .nothing none (fun registers => by cases registers) fun _ ends => by cases ends
  cases count with
  | zero => exact nothing rfl
  | succ count =>
    cases found : world.effect? pulsing with
    | none => exact nothing (by simp [World.pulses, found, ports])
    | some effect =>
      by_cases live : effect.isLive = true
      · have left : world.pulses pulsing (count + 1) =
            { world, frames := [.fire (effect.fires pulsing .periodic effect.context),
              .pulses pulsing count] } := by
          simp [World.pulses, found, live]
        by_cases same : pulsing = handle
        · subst same
          have alive : world.isLive pulsing = true := (World.isLive_eq found).trans live
          rw [left]
          exact .between (.inl rfl) alive alive ⟨_, _, rfl, port?_fires _ _ _ _, rfl⟩
        · refine nothing ?_
          rw [left]
          exact List.filterMap_cons_none (port?_fires_of_ne effect same .periodic effect.context)
      · exact nothing (by simp [World.pulses, found, live, ports])

/-- What ending an effect fires for an instance. -/
theorem fires_finish {admits : Request → Prop} {ended : EffectHandle} {state : EffectState}
    {fires : Bool} (admitted : (Frame.finish ended state fires).Admitted admits)
    (handle : EffectHandle) :
    Fires world handle (.finish ended state fires) (world.finish ended state fires) := by
  by_cases same : ended = handle
  · subst same
    cases alive : world.isLive ended with
    | false =>
      refine .nothing (by simp [World.finish_of_not_isLive alive, Progress.answered, ports])
        (fun registers => by cases registers) fun state ends => ?_
      simp [ending?, alive] at ends
    | true =>
      obtain ⟨effect, found, live⟩ := World.exists_of_isLive alive
      have ends : (Frame.finish ended state fires).ending? world ended = some state :=
        if_pos ⟨rfl, alive⟩
      rcases admitted with ⟨final, rfl⟩ | ⟨rfl, rfl⟩
      · refine .last ends final ?_
        rw [World.finish_of_live found live]
        exact ⟨_, _, rfl, port?_fires _ _ _ _, List.filterMap_cons_some (port?_fires _ _ _ _)⟩
      · refine .nothing ?_ (fun registers => by cases registers) fun state other => ?_
        · simp [World.finish_of_live found live, Progress.told, ports, port?]
        · exact (Option.some.inj (ends.symm.trans other)).symm
  · refine .nothing (List.filterMap_eq_nil_iff.2 fun next left => ?_)
      (fun registers => by cases registers) fun state ends => ?_
    · cases leaves_finish left with
      | last => exact port?_fires_of_ne _ same _ _
      | answer | ended => rfl
    · simp [ending?, same] at ends

/-- Stacking onto a live effect leaves it live. -/
theorem isLive_stackOnto {stacked : EffectHandle} (live : world.isLive stacked = true)
    (context : Context) : (world.stackOnto stacked context).world.isLive stacked = true := by
  rcases world.stackOnto_stacks_or_answers stacked context with
    ⟨effect, policy, found, stacking⟩ | answers
  · have was : effect.isLive = true := (World.isLive_eq found).symm.trans live
    obtain ⟨retouches, _⟩ := Effect.retouches_restack was policy
    obtain ⟨updates, _, alters⟩ := World.alters_stackOnto found stacking context
    obtain ⟨_, _, _, number⟩ := World.of_effect? found
    have same := retouches.becomes.id.trans number
    have placed := World.effect?_touching alters (fun _ => rfl) found same
    rw [World.isLive_eq placed, Effect.renewed_eq]
    exact retouches.live.trans was
  · rw [answers]
    exact live

/-- What stacking fires for an instance. -/
theorem fires_stackOnto {application : Application} {target : EntityId} {stacked : EffectHandle}
    (live : world.isLive stacked = true) (handle : EffectHandle) :
    Fires world handle (.apply application target)
      (world.stackOnto stacked application.context) := by
  have remains := isLive_stackOnto live application.context
  have nothing (none : ports handle (world.stackOnto stacked application.context).frames = []) :
      Fires world handle (.apply application target)
        (world.stackOnto stacked application.context) :=
    .nothing none (fun registers => by cases registers) fun _ ends => by cases ends
  rcases world.stackOnto_stacks_or_answers stacked application.context with
    ⟨effect, policy, found, stacking⟩ | answers
  · have goes := World.stackOnto_of_policy found stacking application.context
    by_cases overflows : (effect.atLimit policy && policy.overflow == .allowOverflowEffect) = true
    · have left : (world.stackOnto stacked application.context).frames =
          [.fire (effect.fires stacked .overflow
            { application.context with owner := some stacked }),
            .answer (.handle stacked)] := by
        rw [goes, World.overflowing, if_pos overflows]
        rfl
      by_cases same : stacked = handle
      · subst same
        refine .between (.inr rfl) live remains ?_
        rw [left]
        exact ⟨_, _, rfl, port?_fires _ _ _ _, rfl⟩
      · refine nothing ?_
        rw [left]
        exact List.filterMap_cons_none (port?_fires_of_ne effect same .overflow _)
    · refine nothing ?_
      rw [goes, World.overflowing, if_neg overflows]
      rfl
  · exact nothing (by rw [answers]; rfl)

/-- What applying an effect fires for an instance. -/
theorem fires_applyTo (sound : world.Sound) (application : Application) (target : EntityId)
    (handle : EffectHandle) :
    Fires world handle (.apply application target) (world.applyTo application target) := by
  have nothing {after : Progress} (none : ports handle after.frames = []) :
      Fires world handle (.apply application target) after :=
    .nothing none (fun registers => by cases registers) fun _ ends => by cases ends
  have ways := world.applying application target
  generalize world.applyTo application target = progress at ways ⊢
  cases ways with
  | refused | written | held => exact nothing rfl
  | stacked registered _ _ matched =>
    exact fires_stackOnto (sound.isLive_stackable registered matched) handle

/-- What a frame fires for an instance. -/
theorem fires_expand (sound : world.Sound) (reply : Reply) {admits : Request → Prop}
    (admitted : frame.Admitted admits) (handle : EffectHandle) :
    Fires world handle frame (frame.expand world reply) := by
  cases frame with
  | apply application target => exact fires_applyTo sound application target handle
  | attach application target duration =>
    exact fires_attach world application target duration handle
  | pulses pulsing count => exact fires_pulses world pulsing count handle
  | finish ended state fires => exact fires_finish admitted handle
  | _ => exact fires_of_plain sound reply admitted rfl handle

end Frame

end SkillEngine
