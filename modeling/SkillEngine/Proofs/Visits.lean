import SkillEngine.Proofs.Orderly
import SkillEngine.Proofs.TickCalls

/-!
# Whom a tick visits

A tick puts one visit for each registered entity on the agenda and its own end behind them. What a
visit leaves, and what scripts ask for meanwhile, is done in front of the next visit and disturbs
none of them. So a tick visits exactly the entities that were registered when it began, each once
and in order, and the registry stays orderly throughout.
-/

namespace SkillEngine

namespace Frame

/-- Nothing but visits stands before the end of the tick. -/
def onlyVisits : List Frame → Bool
  | .tickEntity .. :: rest => onlyVisits rest
  | .endTick _ :: _ => true
  | _ => false

/-- The frames that begin or end a tick. -/
def turnsTick : Frame → Bool
  | .beginTick _ | .endTick _ => true
  | _ => false

/-- Frames among which no tick begins or ends, and whose last one visits no entity. -/
def Interior : List Frame → Prop
  | [] => True
  | frame :: rest => frame.turnsTick = false ∧
      (∀ id seconds, frame = .tickEntity id seconds → rest ≠ []) ∧ Interior rest

/-- The frames that neither visit an entity nor begin or end a tick. -/
def isIncidental : Frame → Bool
  | .tickEntity .. | .beginTick _ | .endTick _ => false
  | _ => true

variable {world : World} {frame : Frame} {frames rest : List Frame}

/-- Incidental frames are interior. -/
theorem interior_of_isIncidental (incidental : ∀ frame ∈ frames, frame.isIncidental = true) :
    Interior frames := by
  induction frames with
  | nil => trivial
  | cons frame rest ih =>
    have here := incidental frame List.mem_cons_self
    refine ⟨?_, ?_, ih fun later member =>
      incidental later (List.mem_cons_of_mem _ member)⟩
    · cases frame <;> first | rfl | cases here
    · rintro id seconds rfl
      cases here

/-- Interior frames in front of interior ones. -/
theorem interior_append (before : Interior frames) (after : Interior rest) :
    Interior (frames ++ rest) := by
  induction frames with
  | nil => exact after
  | cons frame others ih =>
    obtain ⟨still, followed, onward⟩ := before
    refine ⟨still, fun id seconds visit => ?_, ih onward⟩
    exact List.append_ne_nil_of_left_ne_nil (followed id seconds visit) rest

/-- Interior frames are not visits alone. -/
theorem onlyVisits_interior (interior : Interior frames) (some : frames ≠ []) :
    onlyVisits (frames ++ rest) = false := by
  induction frames with
  | nil => exact absurd rfl some
  | cons frame others ih =>
    obtain ⟨still, followed, onward⟩ := interior
    cases frame with
    | tickEntity id seconds => exact ih onward (followed id seconds rfl)
    | endTick => cases still
    | _ => rfl

/-- The visits of a tick and its end. -/
theorem onlyVisits_visits (ids : List EntityId) (seconds : Float32) :
    onlyVisits (ids.map (Frame.tickEntity · seconds) ++ .endTick seconds :: rest) = true := by
  induction ids with
  | nil => rfl
  | cons id others ih => exact ih

/-- The frames that may leave visits, ticks and what begins or ends one. -/
def setsTicks : Frame → Bool
  | .perform _ | .ticks .. | .beginTick _ => true
  | _ => false

/-- What any other frame is known to leave is incidental. -/
theorem Leaves.isIncidental {next : Frame} (leaves : frame.Leaves world next)
    (other : frame.setsTicks = false) : next.isIncidental = true := by
  cases leaves with
  | host | activate | tick | cleansing | recheck => cases other
  | tickEntity | endTick | ticks | beforeTick | beginTick => cases other
  | _ => rfl

/-- Frames that another frame is known to leave are interior. -/
theorem interior_of_leaves (other : frame.setsTicks = false)
    (leaves : ∀ next ∈ frames, frame.Leaves world next) : Interior frames :=
  interior_of_isIncidental fun next left => (leaves next left).isIncidental other

/-- What a node leaves is incidental, whatever nodes of its category do. -/
theorem isIncidental_visit (world : World) (skill : SkillId) (node : Node) (context : Context) :
    ∀ next ∈ (world.visit skill node context).frames, next.isIncidental = true := by
  intro next left
  have ways := world.enacting skill node context
  generalize world.visit skill node context = progress at ways left
  cases ways with
  | idle | unanswered | cue => cases left
  | effect | decided =>
    rw [List.mem_singleton.1 left]
    rfl
  | task => exact (leaves_runTask skill node context _ left).isIncidental rfl
  | scripted =>
    simp only [List.mem_cons, List.not_mem_nil, or_false] at left
    rcases left with rfl | rfl <;> rfl

/-- What applying an effect leaves is incidental. -/
theorem isIncidental_applyTo (world : World) (application : Application) (target : EntityId) :
    ∀ next ∈ (world.applyTo application target).frames, next.isIncidental = true := by
  intro next left
  have ways := world.applying application target
  generalize world.applyTo application target = progress at ways left
  cases ways with
  | refused => cases left
  | written =>
    simp only [World.instantly, List.mem_cons, List.not_mem_nil, or_false] at left
    rcases left with rfl | rfl | rfl <;> rfl
  | stacked => rcases World.of_mem_stackOnto left with rfl | ⟨_, _, rfl⟩ <;> rfl
  | held =>
    simp only [World.lastingly, List.mem_cons, List.not_mem_nil, or_false] at left
    rcases left with rfl | rfl <;> rfl

/-- What a request leaves is interior: when it visits an entity, its answer comes behind. -/
theorem interior_perform (world : World) (request : Request) :
    Interior (world.perform request).frames := by
  have edited {id : EntityId} {absent : Reply} {change : Entity → Reply × World × List Event} :
      Interior (world.retag id absent change).frames := by
    refine interior_of_isIncidental ?_
    unfold World.retag
    split <;> simp [Progress.answered, Progress.told, isIncidental]
  cases request with
  | tickEntity entity seconds =>
    exact ⟨rfl, fun _ _ _ => List.cons_ne_nil _ _, rfl, by simp, trivial⟩
  | addTag | removeTag | addTags | removeTags => exact edited
  | spawn | register =>
    refine interior_of_isIncidental ?_
    simp only [World.perform, World.join]
    split <;> simp [Progress.answered]
  | applyNode =>
    refine interior_of_isIncidental ?_
    simp only [World.perform, World.applyNode]
    split <;> simp [Progress.answered, isIncidental]
  | condition | roll | library | tags | attributes =>
    refine interior_of_isIncidental ?_
    simp only [World.perform]
    split <;> simp [Progress.answered, Progress.noAnswer]
  | effects =>
    refine interior_of_isIncidental ?_
    simp only [World.perform]
    split
    · simp [Progress.answered]
    · split <;> simp [Progress.answered]
  | _ =>
    refine interior_of_isIncidental ?_
    simp [World.perform, World.depart, Progress.answered, isIncidental]

/-- In a tick, a frame that neither begins nor ends one leaves interior frames. -/
theorem interior_expand (running : world.registry.ticking = true) (reply : Reply)
    (still : frame.turnsTick = false) : Interior (frame.expand world reply).frames := by
  cases frame with
  | beginTick | endTick => cases still
  | perform request => exact interior_perform world request
  | visit skill node context =>
    exact interior_of_isIncidental (isIncidental_visit world skill node context)
  | apply application target =>
    exact interior_of_isIncidental (isIncidental_applyTo world application target)
  | script skill node requests =>
    refine interior_of_isIncidental ?_
    cases requests <;> simp [Frame.expand, World.script, isIncidental]
  | scripted =>
    exact interior_of_isIncidental (by simp [Frame.expand, World.scripted, isIncidental])
  | answer | endEntityTick => trivial
  | ticks seconds count =>
    refine interior_of_isIncidental ?_
    cases count <;> simp [Frame.expand, World.ticks, running, isIncidental]
  | fire => exact interior_of_leaves rfl fun _ => leaves_fire
  | branch => exact interior_of_leaves rfl fun _ => leaves_branch
  | enter => exact interior_of_leaves rfl fun _ => leaves_enter
  | applyEach => exact interior_of_leaves rfl fun _ => leaves_applyEach
  | applied => exact interior_of_leaves rfl fun _ => leaves_applied
  | write => exact interior_of_leaves rfl fun _ => leaves_write
  | attach => exact interior_of_leaves rfl fun _ => leaves_attach
  | pulses => exact interior_of_leaves rfl fun _ => leaves_pulses
  | expireDue => exact interior_of_leaves rfl fun _ => leaves_expireDue
  | expire => exact interior_of_leaves rfl fun _ => leaves_expire
  | finish => exact interior_of_leaves rfl fun _ => leaves_finish
  | cleanse => exact interior_of_leaves rfl fun _ => leaves_cleanse
  | removeEach => exact interior_of_leaves rfl fun _ => leaves_removeEach
  | enforce => exact interior_of_leaves rfl fun _ => leaves_enforce
  | drain => exact interior_of_leaves rfl fun _ => leaves_drain
  | tickEntity => exact interior_of_leaves rfl fun _ => leaves_tickEntity
  | tickEffect => exact interior_of_leaves rfl fun _ => leaves_tickEffect

end Frame

/-- The entity that the tick under way visits with the next step. A visit that a script asks for is
answered before the tick goes on, and is none of the tick's own. -/
def Cascade.visits? (cascade : Cascade) : Option EntityId :=
  match cascade.agenda with
  | .tickEntity id _ :: rest => if Frame.onlyVisits rest then some id else none
  | _ => none

/-- A tick is under way: it has visited some entities of an order and will visit the others. -/
structure Cascade.Visiting (now : Cascade) (order visited : List EntityId) : Prop where
  /-- The tick is running. -/
  ticking : now.world.registry.ticking = true
  /-- The order is that of the registry. -/
  order_eq : now.world.registry.order = order
  /-- What is left of the last visit comes first, then the other visits and the end of the tick. -/
  ahead : ∃ inner remaining seconds rest,
    now.agenda = inner ++ (remaining.map (Frame.tickEntity · seconds) ++ .endTick seconds :: rest) ∧
      Frame.Interior inner ∧ order = visited ++ remaining

namespace Cascade

variable {now : Cascade} {frame : Frame} {rest : List Frame} {order visited : List EntityId}

/-- What is left of a visit is not the next one. -/
theorem visits?_interior {inner : List Frame} (interior : Frame.Interior inner)
    (some : inner ≠ []) (agenda : now.agenda = inner ++ rest) : now.visits? = none := by
  have mixed : Frame.onlyVisits (inner ++ rest) = false :=
    Frame.onlyVisits_interior interior some
  unfold visits?
  rw [agenda]
  split
  · next id seconds others same =>
    have after : Frame.onlyVisits others = false := by
      rw [same] at mixed
      exact mixed
    rw [after]
    rfl
  · rfl

/-- Whom a tick visits stands in the order. -/
theorem Visiting.mem_order (visiting : now.Visiting order visited) {id : EntityId}
    (visits : now.visits? = some id) : id ∈ order := by
  obtain ⟨inner, remaining, seconds, rest, agenda, interior, split⟩ := visiting.ahead
  cases inner with
  | cons frame others =>
    have silent := visits?_interior interior (List.cons_ne_nil _ _) agenda
    cases visits.symm.trans silent
  | nil =>
    rw [visits?, agenda] at visits
    cases remaining with
    | nil => cases visits
    | cons first others =>
      have next : first = id := by simpa [Frame.onlyVisits_visits] using visits
      rw [split, next]
      simp

/-- A frame that neither begins nor ends a tick leaves a tick running, and the order as it is. -/
theorem ticking_step (running : now.world.registry.ticking = true)
    (next : now.agenda = frame :: rest) (still : frame.turnsTick = false) :
    now.step.world.registry.ticking = true ∧
      now.step.world.registry.order = now.world.registry.order := by
  cases plain : frame.enrols with
  | false =>
    have same := roll_step next plain
    exact ⟨(congrArg Registry.Roll.ticking same).trans running,
      congrArg Registry.Roll.order same⟩
  | true =>
    rw [world_step next]
    cases frame with
    | beginTick | endTick => cases still
    | perform request =>
      have joined (entity : Entity) :
          (now.world.join entity).world.registry.ticking = true ∧
            (now.world.join entity).world.registry.order = now.world.registry.order := by
        rw [World.registry_join]
        have kept := Registry.registering_of_ticking running entity
        exact ⟨kept.1, kept.2.2⟩
      cases request with
      | spawn | register => exact joined _
      | unregister id =>
        have kept := Registry.unregister_of_ticking running id
        exact ⟨kept.1, kept.2.2⟩
      | _ => cases plain
    | _ => cases plain

/-- A step in a tick goes on with its visits, or it ends the tick after the last of them. -/
theorem Visiting.step (visiting : now.Visiting order visited) (next : now.agenda = frame :: rest)
    (kept : (frame.expand now.world now.reply).lost = false) :
    now.step.Visiting order (visited ++ now.visits?.toList) ∨
      now.visits? = none ∧ visited = order ∧ now.step.world.registry.ticking = false := by
  obtain ⟨inner, remaining, seconds, others, agenda, interior, split⟩ := visiting.ahead
  have left := agenda_step next kept
  cases inner with
  | cons first inner =>
    -- What is left of the last visit goes on, in front of everything else.
    have silent := visits?_interior interior (List.cons_ne_nil _ _) agenda
    obtain ⟨still, followed, onward⟩ := interior
    obtain ⟨rfl, rfl⟩ := List.cons.inj (next.symm.trans agenda)
    obtain ⟨ticking, same⟩ := ticking_step visiting.ticking next still
    have within := Frame.interior_expand visiting.ticking now.reply still
    refine .inl ⟨ticking, same.trans visiting.order_eq, _, remaining, seconds, others, ?_,
      Frame.interior_append within onward, ?_⟩
    · rw [left]
      exact (List.append_assoc _ _ _).symm
    · rw [silent, Option.toList_none, List.append_nil, split]
  | nil =>
    cases remaining with
    | cons id remaining =>
      -- The next entity is visited.
      obtain ⟨rfl, rfl⟩ := List.cons.inj (next.symm.trans agenda)
      have visits : now.visits? = some id := by
        simp [visits?, next, Frame.onlyVisits_visits]
      obtain ⟨ticking, same⟩ := ticking_step visiting.ticking next rfl
      have within :
          Frame.Interior ((Frame.tickEntity id seconds).expand now.world now.reply).frames :=
        Frame.interior_expand visiting.ticking now.reply rfl
      refine .inl ⟨ticking, same.trans visiting.order_eq, _, remaining, seconds, others, left,
        within, ?_⟩
      rw [visits, split]
      simp
    | nil =>
      -- All have been visited, so the tick ends.
      obtain ⟨rfl, rfl⟩ := List.cons.inj (next.symm.trans agenda)
      refine .inr ⟨by simp [visits?, next], by simp [split], ?_⟩
      rw [world_step next]
      exact Registry.ticking_joinEach _ _

/-- A step outside a tick stays outside, or time is about to pass. -/
theorem ticking_step_outside (outside : now.world.registry.ticking = false)
    (next : now.agenda = frame :: rest) : now.step.world.registry.ticking = false ∨
      ∃ seconds, frame = .beginTick seconds ∧ ¬ seconds * now.world.timeScale ≤ 0 := by
  cases plain : frame.enrols with
  | false => exact .inl ((congrArg Registry.Roll.ticking (roll_step next plain)).trans outside)
  | true =>
    rw [world_step next]
    cases frame with
    | perform request =>
      have joined (entity : Entity) :
          (now.world.join entity).world.registry.ticking = false := by
        rw [World.registry_join]
        unfold Registry.registering Registry.register
        split
        · exact outside
        · split
          · exact outside
          · exact outside
      cases request with
      | spawn | register => exact .inl (joined _)
      | unregister id =>
        refine .inl ?_
        show (now.world.registry.unregister id).2.ticking = false
        unfold Registry.unregister
        split
        · exact outside
        · split <;> exact outside
      | _ => cases plain
    | beginTick seconds =>
      by_cases still : seconds * now.world.timeScale ≤ 0
      · left
        simp only [Frame.expand, World.beginTick, if_pos still]
        exact outside
      · exact .inr ⟨seconds, rfl, still⟩
    | endTick seconds => exact .inl (Registry.ticking_joinEach _ _)
    | _ => cases plain

/-- When time begins to pass, a tick is running, and its visits and its end are put in front. -/
theorem step_beginTick {seconds : Float32} (next : now.agenda = .beginTick seconds :: rest)
    (forward : ¬ seconds * now.world.timeScale ≤ 0) :
    now.step.world.registry.ticking = true ∧
      now.step.world.registry.order = now.world.registry.order ∧
      now.step.agenda = now.world.registry.order.map
        (Frame.tickEntity · (seconds * now.world.timeScale)) ++
          .endTick (seconds * now.world.timeScale) :: rest := by
  have begun : (Frame.beginTick seconds).expand now.world now.reply =
      { world := { now.world.withRegistry now.world.registry.beginTick with
          time := now.world.time + Number.widen (seconds * now.world.timeScale) }
        frames := now.world.registry.order.map
          (Frame.tickEntity · (seconds * now.world.timeScale)) ++
            [.endTick (seconds * now.world.timeScale)] } := by
    simp only [Frame.expand, World.beginTick, if_neg forward]
    rfl
  have kept : ((Frame.beginTick seconds).expand now.world now.reply).lost = false := by rw [begun]
  rw [world_step next, agenda_step next kept, begun]
  exact ⟨rfl, rfl, List.append_assoc _ _ _⟩

/-- A step outside a tick stays outside, or begins a tick that has visited nobody yet. -/
theorem visiting_step (outside : now.world.registry.ticking = false)
    (next : now.agenda = frame :: rest) :
    now.step.world.registry.ticking = false ∨
      now.step.Visiting now.world.registry.order [] := by
  refine (ticking_step_outside outside next).imp_right ?_
  rintro ⟨seconds, rfl, forward⟩
  obtain ⟨ticking, order, agenda⟩ := step_beginTick next forward
  exact ⟨ticking, order, [], _, _, rest, agenda, trivial, rfl⟩

end Cascade

namespace Session

variable {admits : Request → Prop} {start : World} {past : List Cascade} {now : Cascade}

/-- The registry of every state that is reached is orderly. -/
theorem orderly (session : Session admits start past now) (first : start.registry.Orderly) :
    now.world.registry.Orderly := by
  induction session with
  | opened => exact first
  | asked _ _ _ ih => exact ih
  | @stepped past now frame rest session next kept ih =>
    cases plain : frame.enrols with
    | false => exact ih.congr (Cascade.roll_step next plain)
    | true =>
      rw [Cascade.world_step next]
      have joined (entity : Entity) : (now.world.join entity).world.registry.Orderly := by
        rw [World.registry_join]
        exact ih.registering entity
      cases frame with
      | perform request =>
        cases request with
        | spawn | register => exact joined _
        | unregister id => exact ih.unregister id
        | _ => cases plain
      | beginTick seconds =>
        simp only [Frame.expand, World.beginTick]
        split
        · exact ih
        · exact ih.beginTick
      | endTick seconds => exact ih.endTick
      | _ => cases plain

/-- Outside a tick none is under way; in one, it has visited whom the states since its beginning
visited, and will visit the others. -/
theorem outside_or_visiting (session : Session admits start past now)
    (idle : start.registry.ticking = false) :
    now.world.registry.ticking = false ∨ ∃ before opening during,
      past = before ++ opening :: during ∧ opening.world.registry.ticking = false ∧
      (∀ state ∈ during, state.world.registry.ticking = true) ∧
      now.Visiting opening.world.registry.order (during.filterMap (·.visits?)) := by
  induction session with
  | opened => exact .inl idle
  | @asked past now request session done admitted ih =>
    rcases ih with outside | ⟨before, opening, during, rfl, outside, inside, visiting⟩
    · exact .inl outside
    · obtain ⟨inner, remaining, seconds, rest, agenda, _⟩ := visiting.ahead
      simp [done] at agenda
  | @stepped past now frame rest session next kept ih =>
    rcases ih with outside | ⟨before, opening, during, rfl, outside, inside, visiting⟩
    · rcases Cascade.visiting_step outside next with still | begun
      · exact .inl still
      · exact .inr ⟨past, now, [], rfl, outside,
          fun _ member => absurd member List.not_mem_nil, begun⟩
    · rcases visiting.step next kept with onward | ⟨_, _, ended⟩
      · refine .inr ⟨before, opening, during ++ [now], by simp, outside,
          inside_concat inside visiting.ticking, ?_⟩
        rw [filterMap_concat]
        exact onward
      · exact .inl ended

/-- A tick that has ended visited everyone in the order in which it began. -/
theorem visits_eq_order (session : Session admits start past now)
    (idle : start.registry.ticking = false) {before during : List Cascade} {opening : Cascade}
    (split : past = before ++ opening :: during)
    (outside : opening.world.registry.ticking = false) (begun : during ≠ [])
    (inside : ∀ state ∈ during, state.world.registry.ticking = true)
    (ended : now.world.registry.ticking = false) :
    during.filterMap (·.visits?) = opening.world.registry.order := by
  obtain ⟨most, last, frame, rest, rfl, earlier, next, kept, rfl⟩ :=
    session.exists_last split begun inside ended
  have running : last.world.registry.ticking = true := inside last (by simp)
  rcases earlier.outside_or_visiting idle with still | ⟨_, first, states, cut, calm, busy, visiting⟩
  · exact absurd (running.symm.trans still) (by decide)
  · have apart (state : Cascade) (still : state.world.registry.ticking = false) :
        ¬state.world.registry.ticking = true := by simp [still]
    obtain ⟨rfl, rfl⟩ := cut_unique cut (apart opening outside) (apart first calm)
      (fun state member => inside state (by simp [member])) busy
    rcases visiting.step next kept with onward | ⟨silent, all, _⟩
    · exact absurd (onward.ticking.symm.trans ended) (by decide)
    · rw [filterMap_concat, silent, Option.toList_none, List.append_nil]
      exact all

end Session

/-- In every state of a session, those in the middle of a tick included, the registry is orderly:
the order lists exactly the registered numbers, each once, whoever waits to join or leave waits once
and with reason, and outside a tick nobody waits. So a tick visits everyone who was registered when
it began exactly once, in order, each while it is still registered, whatever is registered and
unregistered meanwhile. -/
theorem registry_orderly_and_visited {admits : Request → Prop} {start : World}
    {past : List Cascade} {now : Cascade} (session : Session admits start past now)
    (fresh : start.registry = .empty) :
    now.world.registry.Orderly ∧
      ∀ before opening during, past = before ++ opening :: during →
        opening.world.registry.ticking = false → during ≠ [] →
        (∀ state ∈ during, state.world.registry.ticking = true) →
        now.world.registry.ticking = false →
        during.filterMap (·.visits?) = opening.world.registry.order ∧
          (∀ id, opening.world.registry.contains id = true →
            (during.filterMap (·.visits?)).count id = 1) ∧
          ∀ state ∈ during, ∀ id, state.visits? = some id →
            state.world.registry.contains id = true := by
  have first : start.registry.Orderly := fresh ▸ Registry.orderly_empty
  have idle : start.registry.ticking = false := by rw [fresh]; rfl
  refine ⟨session.orderly first, fun before opening during split outside begun inside ended => ?_⟩
  have visited := session.visits_eq_order idle split outside begun inside ended
  refine ⟨visited, fun id registered => ?_, fun state member id visits => ?_⟩
  · obtain ⟨_, reached⟩ := session.reached opening (by simp [split])
    have orderly := reached.orderly first
    rw [visited]
    exact List.count_eq_one_of_mem orderly.distinct ((orderly.listed id).2 registered)
  · obtain ⟨_, reached⟩ := session.reached state (by simp [split, member])
    rcases reached.outside_or_visiting idle with still | ⟨_, _, _, _, _, _, visiting⟩
    · exact absurd ((inside state member).symm.trans still) (by decide)
    · have listed := visiting.order_eq ▸ visiting.mem_order visits
      exact ((reached.orderly first).listed id).1 listed

/-- While a tick visits the two entities that it began with, one of them is replaced and a third one
joins; each of the two is visited once. -/
theorem relief_visits_both :
    Session (fun _ => True) (clockwork relief)
      (winding relief ++ struck relief :: striking relief) (stricken relief) ∧
    (clockwork relief).registry = .empty ∧ (struck relief).world.registry.ticking = false ∧
    striking relief ≠ [] ∧ (∀ state ∈ striking relief, state.world.registry.ticking = true) ∧
    (stricken relief).world.registry.ticking = false ∧
    (stricken relief).world.registry.Orderly ∧
    (striking relief).filterMap (·.visits?) = [⟨1⟩, ⟨3⟩] := by
  have session := session_stricken relief (by decide +kernel) (by decide +kernel)
    (by decide +kernel) (by decide +kernel) (by decide +kernel)
  have fresh : (clockwork relief).registry = .empty := rfl
  have outside : (struck relief).world.registry.ticking = false := by decide +kernel
  have begun : striking relief ≠ [] := List.length_pos_iff.1 (by decide +kernel)
  have inside : ∀ state ∈ striking relief, state.world.registry.ticking = true :=
    List.all_eq_true.1 (by decide +kernel)
  have ended : (stricken relief).world.registry.ticking = false := by decide +kernel
  obtain ⟨orderly, visited⟩ := registry_orderly_and_visited session fresh
  have all := (visited _ _ _ rfl outside begun inside ended).1
  exact ⟨session, fresh, outside, begun, inside, ended, orderly, all.trans (by decide +kernel)⟩

end SkillEngine
