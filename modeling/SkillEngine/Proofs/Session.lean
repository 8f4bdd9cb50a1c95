import SkillEngine.Proofs.Leaves
import SkillEngine.Proofs.Lifetime

/-!
# Sessions

A session is everything that happens to a world from its start: the host asks one request after
another, and each is performed frame by frame until nothing remains. It is kept as the list of all
states gone through, those in the middle of a cascade included. A frame that asks the dice for an
answer that they do not have ends the session, since nothing is returned from it.
-/

namespace SkillEngine

/-- What is picked from a list with one more element. -/
theorem filterMap_concat {α β : Type} (pick : α → Option β) (list : List α) (last : α) :
    (list ++ [last]).filterMap pick = list.filterMap pick ++ (pick last).toList := by
  rw [List.filterMap_append]
  cases picked : pick last <;> simp [picked]

/-- No request is performed besides those that nodes make. -/
abbrev Frame.Nested (frame : Frame) : Prop := frame.Admitted fun _ => False

/-- What is left performs no request besides those that nodes make. -/
theorem Frame.Leaves.nested {world : World} {frame next : Frame}
    (leaves : frame.Leaves world next) : next.Nested := by
  cases leaves with
  | task nested => exact .inr nested
  | host _ opening =>
    cases next with
    | finish handle state fires =>
      cases state <;> cases fires <;>
        first | exact .inl ⟨.inl rfl, rfl⟩ | exact .inr ⟨rfl, rfl⟩ | cases opening
    | _ => first | exact trivial | cases opening
  | expired => exact .inl ⟨.inr rfl, rfl⟩
  | remove | violating => exact .inl ⟨.inl rfl, rfl⟩
  | _ => exact trivial

namespace Cascade

variable {cascade : Cascade} {frame : Frame} {rest : List Frame}

/-- The world after a step is the one that the first frame brings. -/
theorem world_step (next : cascade.agenda = frame :: rest) :
    cascade.step.world = (frame.expand cascade.world cascade.reply).world := by
  unfold step
  rw [next]

/-- What a step leaves to be done: what the first frame leaves, then the rest. -/
theorem agenda_step (next : cascade.agenda = frame :: rest)
    (kept : (frame.expand cascade.world cascade.reply).lost = false) :
    cascade.step.agenda = (frame.expand cascade.world cascade.reply).frames ++ rest := by
  unfold step
  rw [next]
  simp [kept]

/-- A step that loses its frame leaves nothing. -/
theorem agenda_step_lost (next : cascade.agenda = frame :: rest)
    (lost : (frame.expand cascade.world cascade.reply).lost = true) : cascade.step.agenda = [] := by
  unfold step
  rw [next]
  simp [lost]

/-- The firing that starts with the next step, if any. -/
def firing? (cascade : Cascade) : Option Firing :=
  match cascade.agenda with
  | .fire firing :: _ => some firing
  | _ => none

/-- None of the frames that a run takes is lost. -/
def keeps : Nat → Cascade → Bool
  | 0, _ => true
  | bound + 1, cascade =>
    match cascade.agenda with
    | [] => true
    | frame :: _ => !(frame.expand cascade.world cascade.reply).lost && keeps bound cascade.step

/-- The states that a run goes through, but the one that it reaches. -/
def during : Nat → Cascade → List Cascade
  | 0, _ => []
  | bound + 1, cascade => if cascade.isDone then [] else cascade :: during bound cascade.step

/-- In every state that a run goes through something remains to be done. -/
theorem agenda_of_mem_during {bound : Nat} {later : Cascade}
    (member : later ∈ cascade.during bound) : later.agenda ≠ [] := by
  induction bound generalizing cascade with
  | zero => cases member
  | succ bound ih =>
    unfold during at member
    split at member
    · cases member
    · next busy =>
      rcases List.mem_cons.1 member with rfl | after
      · simpa [isDone] using busy
      · exact ih after

/-- What is reached by some requests in turn, each taking at most some frames. -/
def afterEach (bound : Nat) (cascade : Cascade) (requests : List Request) : Cascade :=
  requests.foldl (fun now request => run bound (ofRequest now.world request)) cascade

/-- The states that some requests in turn go through, but the one that they reach. -/
def duringEach (bound : Nat) : Cascade → List Request → List Cascade
  | _, [] => []
  | now, request :: rest =>
    now :: during bound (ofRequest now.world request) ++
      duringEach bound (run bound (ofRequest now.world request)) rest

/-- Every one of some requests is finished before the next one, and none loses a frame. -/
def keepsEach (bound : Nat) : Cascade → List Request → Bool
  | _, [] => true
  | now, request :: rest =>
    now.isDone && keeps bound (ofRequest now.world request)
      && keepsEach bound (run bound (ofRequest now.world request)) rest

/-- Of the states gone through, one that was reached earlier is the last one or comes before it. -/
theorem last_or_earlier {past before during : List Cascade} {now reached : Cascade}
    (same : past ++ [now] = before ++ reached :: during) : during = [] ∧ now = reached ∨
      ∃ earlier, during = earlier ++ [now] ∧ past = before ++ reached :: earlier := by
  rcases List.eq_nil_or_concat during with rfl | ⟨earlier, last, rfl⟩
  · exact .inl ⟨rfl, (List.cons.inj (List.append_inj' same rfl).2).1⟩
  · rw [List.concat_eq_append] at same ⊢
    rw [← List.cons_append, ← List.append_assoc] at same
    obtain ⟨others, equal⟩ := List.append_inj' same rfl
    cases equal
    exact .inr ⟨earlier, rfl, others⟩

end Cascade

/-- A world to start from: nodes do what their category says, and neither who is registered nor who
waits to join has effects. -/
structure World.Calm (world : World) : Prop where
  /-- Nodes do what their category says. -/
  standard : world.Standard
  /-- Every entity is registered under its own number. -/
  numbered : world.Numbered
  /-- No registered entity has effects, or any that wait to be dropped. -/
  idle : ∀ id entity, world.entity? id = some entity →
    entity.effects.effects = [] ∧ entity.effects.queued = []
  /-- Who waits to join has no effects. -/
  waiting : ∀ entity ∈ world.registry.pendingAdd, entity.effects = .empty

/-- A world to start from is sound. -/
theorem World.Calm.sound {world : World} (calm : world.Calm) : world.Sound where
  standard := calm.standard
  numbered := calm.numbered
  rosters id entity found := by
    obtain ⟨none, dropped⟩ := calm.idle id entity found
    constructor <;> simp [none, dropped]
  waiting := calm.waiting

/-- No effect is found in a world to start from. -/
theorem World.Calm.missing {world : World} (calm : world.Calm) (handle : EffectHandle) :
    world.effect? handle = none := by
  cases found : world.effect? handle with
  | none => rfl
  | some effect =>
    obtain ⟨entity, registered, stored, _⟩ := World.of_effect? found
    have member := (EffectRoster.mem_of_get? stored).1
    rw [(calm.idle _ _ registered).1] at member
    cases member

/-- A world that was just made is one to start from. -/
theorem World.calm_create (config : EngineConfig) (table : AttributeTable) :
    (World.create config table).Calm where
  standard _ := rfl
  numbered _ _ found := by cases found
  idle _ _ found := by cases found
  waiting _ waits := by cases waits

/-- The states gone through in a session, and the one that is reached, when a host asks only
requests that are admitted. -/
inductive Session (admits : Request → Prop) (start : World) : List Cascade → Cascade → Prop where
  /-- Nothing was asked yet. -/
  | opened : Session admits start [] { world := start, agenda := [] }
  /-- When nothing remains to be done, the host asks a request. -/
  | asked {past : List Cascade} {now : Cascade} {request : Request}
      (session : Session admits start past now) (done : now.agenda = [])
      (admitted : admits request) :
      Session admits start (past ++ [now]) (.ofRequest now.world request)
  /-- While something remains to be done, the next frame is taken. -/
  | stepped {past : List Cascade} {now : Cascade} {frame : Frame} {rest : List Frame}
      (session : Session admits start past now) (next : now.agenda = frame :: rest)
      (kept : (frame.expand now.world now.reply).lost = false) :
      Session admits start (past ++ [now]) now.step

namespace Session

variable {admits : Request → Prop} {start : World} {past : List Cascade} {now : Cascade}

section Lawful

variable (calm : start.Calm) (lawful : ∀ request, admits request → request.isLawful = true)

include calm lawful

/-- Every frame that remains to be done performs an admitted request or one that nodes make. -/
theorem admitted (session : Session admits start past now) :
    now.world.Sound ∧ ∀ frame ∈ now.agenda, frame.Admitted admits := by
  induction session with
  | opened => exact ⟨calm.sound, fun frame member => by cases member⟩
  | asked session done admitted ih =>
    refine ⟨ih.1, fun frame member => ?_⟩
    rw [List.mem_singleton.1 member]
    exact .inl admitted
  | @stepped past now frame rest session next kept ih =>
    obtain ⟨sound, allowed⟩ := ih
    have first : frame.Admitted admits := allowed frame (next ▸ List.mem_cons_self)
    rw [Cascade.world_step next, Cascade.agenda_step next kept]
    refine ⟨(World.turn_expand sound now.reply (first.mono lawful)).sound sound first, ?_⟩
    intro other member
    rcases List.mem_append.1 member with left | kept
    · exact (Frame.leaves_expand sound now.reply first left).nested.mono fun _ => False.elim
    · exact allowed other (next ▸ List.mem_cons_of_mem _ kept)

/-- The world that is reached is sound. -/
theorem sound (session : Session admits start past now) : now.world.Sound :=
  (session.admitted calm lawful).1

/-- The next frame performs an admitted request or one that nodes make. -/
theorem first (session : Session admits start past now) {frame : Frame}
    {rest : List Frame} (next : now.agenda = frame :: rest) : frame.Admitted admits :=
  (session.admitted calm lawful).2 frame (next ▸ List.mem_cons_self)

/-- The next frame takes one of the turns that a world can take. -/
theorem turn (session : Session admits start past now) {frame : Frame}
    {rest : List Frame} (next : now.agenda = frame :: rest) :
    now.world.Turn frame (frame.expand now.world now.reply).world :=
  World.turn_expand (session.sound calm lawful) now.reply
    ((session.first calm lawful next).mono lawful)

/-- The world of every state gone through evolves into the one that is reached. -/
theorem evolves (session : Session admits start past now) :
    ∀ earlier ∈ past, earlier.world.Evolves now.world := by
  induction session with
  | opened => exact fun earlier member => by cases member
  | asked session done admitted ih =>
    intro earlier member
    rcases List.mem_append.1 member with before | last
    · exact ih earlier before
    · rw [List.mem_singleton.1 last]
      exact .refl _
  | @stepped past now frame rest session next kept ih =>
    have step : now.world.Evolves now.step.world := by
      rw [Cascade.world_step next]
      exact (session.turn calm lawful next).evolves (session.sound calm lawful)
        (session.first calm lawful next)
    intro earlier member
    rcases List.mem_append.1 member with before | last
    · exact (ih earlier before).trans step
    · rw [List.mem_singleton.1 last]
      exact step

/-- The world of every state gone through is sound. -/
theorem sound_past (session : Session admits start past now) :
    ∀ earlier ∈ past, earlier.world.Sound := by
  induction session with
  | opened => exact fun earlier member => by cases member
  | asked session _ _ ih | stepped session _ _ ih =>
    intro earlier member
    rcases List.mem_append.1 member with before | last
    · exact ih earlier before
    · rw [List.mem_singleton.1 last]
      exact session.sound calm lawful

end Lawful

/-- Every state gone through was reached by a session. -/
theorem reached (session : Session admits start past now) :
    ∀ earlier ∈ past, ∃ before, Session admits start before earlier := by
  induction session with
  | opened => exact fun earlier member => absurd member List.not_mem_nil
  | asked session _ _ ih | stepped session _ _ ih =>
    intro earlier member
    rcases List.mem_append.1 member with before | last
    · exact ih earlier before
    · rw [List.mem_singleton.1 last]
      exact ⟨_, session⟩

/-- A run that loses nothing is a part of a session. -/
theorem run (session : Session admits start past now) (bound : Nat)
    (kept : now.keeps bound = true) :
    Session admits start (past ++ now.during bound) (now.run bound) := by
  induction bound generalizing past now with
  | zero => simpa [Cascade.run, Cascade.during] using session
  | succ bound ih =>
    unfold Cascade.run Cascade.during Cascade.isDone
    unfold Cascade.keeps at kept
    cases next : now.agenda with
    | nil => simpa [next] using session
    | cons frame rest =>
      simp only [next, Bool.and_eq_true, Bool.not_eq_true'] at kept
      simpa using ih (session.stepped next kept.1) kept.2

/-- Requests that are finished in turn and lose nothing are a part of a session. -/
theorem afterEach (session : Session admits start past now) (bound : Nat)
    (requests : List Request) (admitted : ∀ request ∈ requests, admits request)
    (kept : now.keepsEach bound requests = true) :
    Session admits start (past ++ now.duringEach bound requests)
      (now.afterEach bound requests) := by
  induction requests generalizing past now with
  | nil => simpa [Cascade.duringEach, Cascade.afterEach] using session
  | cons request rest ih =>
    simp only [Cascade.keepsEach, Bool.and_eq_true] at kept
    obtain ⟨⟨done, first⟩, others⟩ := kept
    have asked := session.asked (List.isEmpty_iff.1 done) (admitted request List.mem_cons_self)
    have onward := ih (asked.run bound first)
      (fun later member => admitted later (List.mem_cons_of_mem _ member)) others
    simpa [Cascade.duringEach, Cascade.afterEach] using onward

/-- A session that begins with some requests. -/
theorem ofRequests (bound : Nat) (requests : List Request)
    (admitted : ∀ request ∈ requests, admits request)
    (kept : Cascade.keepsEach bound { world := start, agenda := [] } requests = true) :
    Session admits start (Cascade.duringEach bound { world := start, agenda := [] } requests)
      (Cascade.afterEach bound { world := start, agenda := [] } requests) := by
  have session := Session.opened.afterEach bound requests admitted kept
  rw [List.nil_append] at session
  exact session

end Session

end SkillEngine
