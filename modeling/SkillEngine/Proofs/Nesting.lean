import SkillEngine.Proofs.Burden

/-!
# How deep firings nest

A firing is in progress while nodes that its port leads to remain to be run, so the firings in
progress are nested in one another. Within a walk every firing counts one hop more than the one that
it is nested in, and none is made at the depth limit. But an effect that is removed in the middle of
a walk fires its last ports with the context that it was made with, whose hops are those of its
application: there the count goes back, and the nesting can go beyond the limit.
-/

namespace SkillEngine

/-- The firing is one of the last ports of an effect, which ended. -/
def Firing.isLast (firing : Firing) : Bool :=
  firing.cause.isSome &&
    (firing.port == EffectPort.removed.name || firing.port == EffectPort.complete.name)

/-- The frames that are firings in progress. -/
def Frame.isFiring : Frame → Bool
  | .branch .. => true
  | _ => false

/-- How many firings are in progress. -/
def Cascade.nesting (now : Cascade) : ℕ := now.agenda.countP Frame.isFiring

/-- The firings in progress, innermost first, after the next frame. A port that leads to nodes and
is not too deep begins one, and it is over after the last of them. -/
def Cascade.firings (running : List Firing) (now : Cascade) : List Firing :=
  match now.agenda with
  | [] => running
  | frame :: _ =>
    let progress := frame.expand now.world now.reply
    if progress.lost then []
    else match frame with
      | .fire firing => if progress.frames.isEmpty then running else firing :: running
      | .branch _ _ [] => running.tail
      | _ => running

/-- The firings in progress, innermost first, after some frames of a request. -/
def Cascade.inProgress (bound : ℕ) (now : Cascade) : List Firing :=
  (now.during bound).foldl firings []

/-- The hops after which what remains of the innermost firing goes on. -/
def hopsWithin : List Firing → UInt32
  | [] => 0
  | firing :: _ => firing.context.descend.depth

/-- Firings nested in one another, innermost first, below a limit of hops. -/
def Nested (limit : UInt32) : List Firing → Prop
  | [] => True
  | firing :: outer => firing.context.depth < limit ∧
      (firing.isLast = true ∨ firing.context.depth = hopsWithin outer) ∧ Nested limit outer

/-- The hops that some firings in progress gain below a limit, by starting again from the hops that
an effect was applied after although they are nested in another firing. -/
def regained (limit : UInt32) (running : List Firing) : ℕ :=
  ((running.dropLast.filter Firing.isLast).map fun firing =>
    limit.toNat - firing.context.depth.toNat).sum

/-- The hops gained with one more firing. -/
theorem regained_cons (limit : UInt32) (inner firing : Firing) (outer : List Firing) :
    regained limit (inner :: firing :: outer) =
      (if inner.isLast then limit.toNat - inner.context.depth.toNat else 0) +
        regained limit (firing :: outer) := by
  unfold regained
  rw [List.dropLast_cons_of_ne_nil (List.cons_ne_nil _ _), List.filter_cons]
  split
  · rw [List.map_cons, List.sum_cons]
  · rw [Nat.zero_add]

/-- The hops of the innermost firing, with those gained, tell how many there are. -/
theorem Nested.length_le {limit : UInt32} {firing : Firing} {outer : List Firing}
    (nested : Nested limit (firing :: outer)) :
    (firing :: outer).length ≤
      firing.context.depth.toNat + 1 + regained limit (firing :: outer) := by
  induction outer generalizing firing with
  | nil =>
    show 1 ≤ _
    omega
  | cons next outer ih =>
    obtain ⟨room, goes, within⟩ := nested
    have fewer := ih within
    have inside : next.context.depth.toNat < limit.toNat := UInt32.lt_iff_toNat_lt.1 within.1
    rw [regained_cons, List.length_cons]
    by_cases last : firing.isLast = true
    · have below : firing.context.depth.toNat < limit.toNat := UInt32.lt_iff_toNat_lt.1 room
      rw [if_pos last]
      omega
    · have deeper : firing.context.depth.toNat = next.context.depth.toNat + 1 := by
        rw [goes.resolve_left last]
        exact Frame.toNat_descend within.1
      rw [if_neg last]
      omega

/-- Nested firings are no more than the limit and the hops gained. -/
theorem Nested.length_le_limit {limit : UInt32} {running : List Firing}
    (nested : Nested limit running) :
    running.length ≤ limit.toNat + regained limit running := by
  cases running with
  | nil => exact Nat.zero_le _
  | cons firing outer =>
    have fewer := nested.length_le
    have inside : firing.context.depth.toNat < limit.toNat := UInt32.lt_iff_toNat_lt.1 nested.1
    omega

namespace Frame

/-- In a walk that came to some hops, the frame goes on after as many. -/
def GoesOn (world : World) (hops : UInt32) : Frame → Prop
  | .fire firing => firing.isLast = true ∨ firing.context.depth = hops
  | .visit _ _ context | .enter _ _ context => context.depth = hops
  | .applyEach application .. | .applied application .. | .apply application _
  | .write application _ | .attach application .. => application.context.depth = hops
  | .pulses handle _ => handle.id.raw < world.nextEffect ∧
      ∀ effect, world.effect? handle = some effect → effect.context.depth = hops
  | .perform request => request.isNested = true
  | .finish _ state fires => (state = .removed ∨ state = .expired) ∧ fires = true
  | .answer _ | .expire _ | .cleanse .. | .removeEach .. | .enforce _ | .drain => True
  | _ => False

variable {world after : World} {frame next : Frame} {frames rest : List Frame} {hops : UInt32}

/-- What goes on is admitted whatever the host may ask. -/
theorem GoesOn.admitted (goes : frame.GoesOn world hops) : frame.Admitted fun _ => False := by
  cases frame with
  | perform => exact .inr goes
  | finish => exact .inl goes
  | script | scripted => exact goes
  | _ => trivial

/-- No time passes for an effect with a frame that goes on. -/
theorem GoesOn.idle (goes : frame.GoesOn world hops) :
    ∀ handle seconds, frame ≠ .tickEffect handle seconds := by
  rintro handle seconds rfl
  exact goes

/-- What goes on still does after a turn that lets no time pass for an effect. -/
theorem GoesOn.turn (goes : frame.GoesOn world hops) {taken : Frame}
    (turn : world.Turn taken after) (sound : world.Sound)
    (idle : ∀ handle seconds, taken ≠ .tickEffect handle seconds) : frame.GoesOn after hops := by
  cases frame with
  | pulses handle count =>
    obtain ⟨old, same⟩ := goes
    refine ⟨Nat.lt_of_lt_of_le old turn.numbering, fun effect found => ?_⟩
    rcases turn.origin sound found with ⟨earlier, was, makes⟩ | ⟨_, _, _, rfl⟩
    · rw [makes.context idle]
      exact same earlier was
    · obtain ⟨_, _, _, number⟩ := World.of_effect? found
      rw [← number] at old
      exact absurd old (Nat.lt_irrefl _)
  | _ => exact goes

/-- A new effect pulses after as many hops as it was applied after. -/
theorem goesOn_pulse {application : Application} {target : EntityId} {duration : Float32}
    (turn : world.Turn (.attach application target duration)
      (world.attach application target duration).world) (sound : world.Sound) (count : ℕ) :
    (Frame.pulses ⟨target, ⟨world.nextEffect⟩⟩ count).GoesOn
      (world.attach application target duration).world application.context.depth := by
  refine ⟨?_, fun effect found => ?_⟩
  · rw [sound.nextEffect_attach]
    exact Nat.lt_succ_self _
  · rcases turn.origin sound found with ⟨earlier, was, _⟩ | ⟨_, _, same, rfl⟩
    · exact absurd (sound.numbered_below was) (Nat.lt_irrefl _)
    · cases same
      rfl

/-- A firing does nothing, or it is below the limit and in progress from then on. -/
theorem expand_fire (world : World) (reply : Reply) (firing : Firing) :
    (Frame.fire firing).expand world reply = { world } ∨
      firing.context.depth < world.config.maxCascadeDepth ∧
      ∃ nodes, (Frame.fire firing).expand world reply =
        { world, frames := [.branch firing.skill firing.context.descend nodes] } := by
  show world.fire firing = _ ∨ _ ∧ ∃ nodes, world.fire firing = _
  unfold World.fire
  split
  · exact .inl rfl
  · split
    · exact .inl rfl
    · next room => exact .inr ⟨UInt32.not_le.1 room, _, rfl⟩

/-- What a frame that goes on leaves goes on after as many hops, unless it is a firing. -/
theorem Leaves.goesOn (leaves : frame.Leaves world next) (sound : world.Sound) {reply : Reply}
    (goes : frame.GoesOn world hops) (quiet : ∀ firing, frame ≠ .fire firing) :
    next.GoesOn (frame.expand world reply).world hops := by
  have turn := World.turn_expand sound reply (goes.admitted.mono fun _ => False.elim)
  cases leaves with
  | branch => exact absurd rfl (quiet _)
  | enter => exact goes
  | targets same => exact (congrArg Context.depth same).trans goes
  | port _ depth => exact .inr (depth.trans goes)
  | task nested => exact nested
  | host host => cases host.symm.trans goes
  | activate | tick => cases goes
  | apply | applied | applyEach | write | attach => exact goes
  | overflow => exact .inr goes
  | written _ depth => exact .inr (depth.trans goes)
  | initial new =>
    subst new
    exact .inr goes
  | pulse =>
    have same : _ = hops := goes
    subst same
    exact goesOn_pulse turn sound _
  | periodic found => exact .inr (goes.2 _ found)
  | pulses =>
    have onward := goes.turn turn sound goes.idle
    exact onward
  | last _ _ ends =>
    refine .inl ?_
    rcases ends with rfl | rfl <;> rfl
  | expired => exact ⟨.inr rfl, rfl⟩
  | remove | violating => exact ⟨.inl rfl, rfl⟩
  | answer | cleansing | recheck | cleanse | attached | ended | removeEach | removing | changed
  | drain => trivial
  | visit | nodes | due | tickEffect | endEntityTick | ticked | expireDue | tickEntity | endTick
  | ticks | beforeTick | beginTick => exact goes.elim

end Frame

/-- What remains to be done belongs to the firings in progress, innermost first: before the next
nodes of a firing stands what is nested in it. -/
inductive Agenda (world : World) (limit : UInt32) : List Frame → List Firing → Prop where
  /-- Nothing remains. -/
  | done : Agenda world limit [] []
  /-- A frame of the innermost firing. -/
  | within {frame : Frame} {rest : List Frame} {running : List Firing}
      (goes : frame.GoesOn world (hopsWithin running)) (onward : Agenda world limit rest running) :
      Agenda world limit (frame :: rest) running
  /-- The innermost firing. -/
  | firing {firing : Firing} {nodes : List Node} {rest : List Frame} {running : List Firing}
      (room : firing.context.depth < limit)
      (goes : firing.isLast = true ∨ firing.context.depth = hopsWithin running)
      (onward : Agenda world limit rest running) :
      Agenda world limit (.branch firing.skill firing.context.descend nodes :: rest)
        (firing :: running)

namespace Agenda

variable {world after : World} {limit : UInt32} {frames rest : List Frame} {running : List Firing}

/-- The firings in progress are nested in one another. -/
theorem nested (agenda : Agenda world limit frames running) :
    Nested limit running := by
  induction agenda with
  | done => trivial
  | within _ _ ih => exact ih
  | firing room goes _ ih => exact ⟨room, goes, ih⟩

/-- The firings in progress are those that have nodes left to be run. -/
theorem countP_isFiring (agenda : Agenda world limit frames running) :
    frames.countP Frame.isFiring = running.length := by
  induction agenda with
  | done => rfl
  | @within frame rest running goes onward ih =>
    rw [List.countP_cons_of_neg, ih]
    cases frame with
    | branch => exact goes.elim
    | _ => exact Bool.false_ne_true
  | firing _ _ _ ih => rw [List.countP_cons_of_pos rfl, ih, List.length_cons]

/-- What remains still belongs to the same firings after a turn that lets no time pass. -/
theorem turn (agenda : Agenda world limit frames running) {taken : Frame}
    (turn : world.Turn taken after) (sound : world.Sound)
    (idle : ∀ handle seconds, taken ≠ .tickEffect handle seconds) :
    Agenda after limit frames running := by
  induction agenda with
  | done => exact .done
  | within goes _ ih => exact .within (goes.turn turn sound idle) ih
  | firing room goes _ ih => exact .firing room goes ih

/-- More frames of the innermost firing. -/
theorem append (agenda : Agenda world limit rest running)
    (goes : ∀ frame ∈ frames, frame.GoesOn world (hopsWithin running)) :
    Agenda world limit (frames ++ rest) running := by
  induction frames with
  | nil => exact agenda
  | cons frame others ih =>
    exact .within (goes frame List.mem_cons_self)
      (ih fun later member => goes later (List.mem_cons_of_mem _ member))

end Agenda

/-- A sound world in which what remains to be done belongs to the firings in progress. -/
structure Cascade.Walks (now : Cascade) (limit : UInt32) (running : List Firing) : Prop where
  /-- The world is sound. -/
  sound : now.world.Sound
  /-- The depth limit. -/
  limit_eq : now.world.config.maxCascadeDepth = limit
  /-- What remains belongs to the firings in progress. -/
  agenda : Agenda now.world limit now.agenda running

namespace Cascade

variable {now : Cascade} {limit : UInt32} {running : List Firing}

/-- What is next in a walk is admitted, and lets no time pass. -/
theorem Walks.first (walks : now.Walks limit running) {frame : Frame} {rest : List Frame}
    (next : now.agenda = frame :: rest) :
    (frame.Admitted fun _ => False) ∧ ∀ handle seconds, frame ≠ .tickEffect handle seconds := by
  have agenda := next ▸ walks.agenda
  cases agenda with
  | within goes => exact ⟨goes.admitted, goes.idle⟩
  | firing => exact ⟨trivial, fun _ _ same => by cases same⟩

/-- A step of a walk keeps account of the firings in progress. -/
theorem Walks.step (walks : now.Walks limit running) :
    now.step.Walks limit (firings running now) := by
  cases next : now.agenda with
  | nil =>
    have still : now.step = now := by simp [Cascade.step, next]
    rw [still, firings, next]
    exact walks
  | cons frame rest =>
    obtain ⟨admitted, idle⟩ := walks.first next
    have turn := World.turn_expand walks.sound now.reply (admitted.mono fun _ => False.elim)
    have sound : now.step.world.Sound := by
      rw [world_step next]
      exact turn.sound walks.sound admitted
    have config : now.step.world.config.maxCascadeDepth = limit := by
      rw [world_step next, turn.config]
      exact walks.limit_eq
    refine ⟨sound, config, ?_⟩
    cases lost : (frame.expand now.world now.reply).lost with
    | true =>
      have none : now.step.agenda = [] := by simp [Cascade.step, next, lost]
      have nothing : firings running now = [] := by simp [firings, next, lost]
      rw [none, nothing]
      exact .done
    | false =>
      rw [world_step next, agenda_step next lost]
      have agenda := next ▸ walks.agenda
      cases agenda with
      | @firing firing nodes _ outer room goes onward =>
        cases nodes with
        | nil =>
          have ended : firings (firing :: outer) now = outer := by
            simp [firings, next, lost]
          rw [ended]
          exact onward
        | cons node nodes =>
          have same : firings (firing :: outer) now = firing :: outer := by
            simp [firings, next, lost]
          rw [same]
          exact .within rfl (.firing room goes onward)
      | within goes onward =>
        have onward := onward.turn turn walks.sound idle
        cases frame with
        | fire firing =>
          rcases Frame.expand_fire now.world now.reply firing with none | ⟨room, nodes, begins⟩
          · have same : firings running now = running := by simp [firings, next, none]
            rw [none] at onward ⊢
            rw [same]
            exact onward
          · have more : firings running now = firing :: running := by
              simp [firings, next, begins]
            rw [begins] at onward ⊢
            rw [more]
            exact .firing (walks.limit_eq ▸ room) goes onward
        | branch => exact goes.elim
        | _ =>
          have same : firings running now = running := by simp [firings, next, lost]
          rw [same]
          exact onward.append fun left member =>
            (Frame.leaves_expand walks.sound now.reply admitted member).goesOn walks.sound goes
              fun _ same => by cases same

/-- A walk keeps account of the firings in progress. -/
theorem Walks.run (walks : now.Walks limit running) (bound : ℕ) :
    (now.run bound).Walks limit ((now.during bound).foldl firings running) := by
  induction bound generalizing now running with
  | zero => exact walks
  | succ bound ih =>
    unfold Cascade.run Cascade.during
    split
    · exact walks
    · exact ih walks.step

/-- An activation that opens with a fresh context is a walk once its request is taken. -/
theorem walks_activate {world : World} (sound : world.Sound) (skill : SkillId) (node : NodeId)
    {opening : Opening} (fresh : (world.openContext opening).depth = 0) :
    (ofRequest world (.activate skill node opening)).step.Walks
      world.config.maxCascadeDepth [] := by
  refine ⟨sound, rfl, ?_⟩
  show Agenda world _ [.drain, .enter skill node (world.openContext opening), .answer .nothing] []
  exact .within trivial (.within fresh (.within trivial .done))

end Cascade

/-- In an activation that opens with a fresh context, the firings in progress are no more than the
depth limit, but for the hops that the last ports of effects gain, each by starting again from the
hops of its effect's application although the effect ended in the middle of another firing. -/
theorem nesting_le_limit {start : World} (calm : start.Calm) {past : List Cascade} {idle : Cascade}
    (session : Session (fun request => request.isLawful = true) start past idle)
    (skill : SkillId) (node : NodeId) {opening : Opening}
    (fresh : (idle.world.openContext opening).depth = 0) (bound : ℕ) :
    let activation := Cascade.ofRequest idle.world (.activate skill node opening)
    (activation.run bound).nesting = (activation.inProgress bound).length ∧
      (activation.run bound).nesting ≤ idle.world.config.maxCascadeDepth.toNat +
        regained idle.world.config.maxCascadeDepth (activation.inProgress bound) := by
  dsimp only
  have lawful : ∀ request : Request, request.isLawful = true → request.isLawful = true :=
    fun _ lawful => lawful
  have walks := Cascade.walks_activate (session.sound calm lawful) skill node fresh
  cases bound with
  | zero => exact ⟨rfl, Nat.zero_le _⟩
  | succ bound =>
    have onward := walks.run bound
    have counted := onward.agenda.countP_isFiring
    exact ⟨counted, counted.le.trans onward.agenda.nested.length_le_limit⟩

/-- A lasting effect that leads on when it takes hold and when it is removed. -/
def brittle : EffectDef where
  durationType := .infinite
  tags := { asset := .ofPaths ["Brittle"] }

/-- What the effect leads to when it takes hold removes it, and its removal marks the target. -/
def shatter : SkillGraph where
  id := ⟨1⟩
  nodes := [{ id := ⟨1⟩, kind := .effect brittle },
    { id := ⟨2⟩, kind := .task (.removeEffectsWithTags (.ofPaths ["Brittle"])) },
    { id := ⟨3⟩, kind := .task (.addLooseTags (.ofPaths ["Shattered"])) }]
  connections := [⟨⟨1⟩, "initial", ⟨2⟩, "input"⟩, ⟨⟨1⟩, "removed", ⟨3⟩, "input"⟩]

/-- A world in which one activation may nest no firings in one another. -/
def shallow : World := World.create { maxCascadeDepth := 1 } .empty

/-- The skill is loaded and an entity joins. -/
def shatterRequests : List Request := [.library (.ok (.insert shatter)), .spawn ⟨1⟩]

/-- The states gone through meanwhile. -/
def settingUp : List Cascade :=
  Cascade.duringEach 10 { world := shallow, agenda := [] } shatterRequests

/-- The state that is reached. -/
def setUp : Cascade := Cascade.afterEach 10 { world := shallow, agenda := [] } shatterRequests

/-- The effect is applied to the entity, in a fresh context. -/
def breaking : Opening := { caster := ⟨1⟩, edits := [.target ⟨1⟩] }

/-- The activation that applies it. -/
def shattering : Cascade := .ofRequest setUp.world (.activate ⟨1⟩ ⟨1⟩ breaking)

/-- The requests make a session. -/
theorem session_setUp : Session (fun request => request.isLawful = true) shallow settingUp setUp :=
  .ofRequests 10 shatterRequests (by decide +kernel) (by decide +kernel)

/-- Firings can nest deeper than the limit: within the one firing that it allows, the removal of the
effect is another one. -/
theorem shattering_nests_deeper : shallow.Calm ∧
    Session (fun request => request.isLawful = true) shallow settingUp setUp ∧
    setUp.agenda = [] ∧ (setUp.world.openContext breaking).depth = 0 ∧
    setUp.world.config.maxCascadeDepth.toNat < (shattering.run 20).nesting :=
  ⟨World.calm_create _ _, session_setUp, List.isEmpty_iff.1 (by decide +kernel),
    by decide +kernel, by decide +kernel⟩

/-- The removal gains the one hop that the firing around it had made. -/
theorem shattering_regains : shallow.Calm ∧
    Session (fun request => request.isLawful = true) shallow settingUp setUp ∧
    (setUp.world.openContext breaking).depth = 0 ∧
    (shattering.inProgress 20).map (·.port) = ["removed", "initial"] ∧
    regained setUp.world.config.maxCascadeDepth (shattering.inProgress 20) = 1 ∧
    (shattering.run 20).nesting ≤ 1 + 1 := by
  have calm := World.calm_create { maxCascadeDepth := 1 } .empty
  have fresh : (setUp.world.openContext breaking).depth = 0 := by decide +kernel
  have limit : setUp.world.config.maxCascadeDepth = 1 := by decide +kernel
  have gained : regained setUp.world.config.maxCascadeDepth (shattering.inProgress 20) = 1 := by
    decide +kernel
  have ports : (shattering.inProgress 20).map (·.port) = ["removed", "initial"] := by
    decide +kernel
  have bounded : (shattering.run 20).nesting ≤ setUp.world.config.maxCascadeDepth.toNat +
      regained setUp.world.config.maxCascadeDepth (shattering.inProgress 20) :=
    (nesting_le_limit calm session_setUp ⟨1⟩ ⟨1⟩ fresh 20).2
  refine ⟨calm, session_setUp, fresh, ports, gained, bounded.trans ?_⟩
  rw [gained, limit]
  exact Nat.le_refl 2

end SkillEngine
