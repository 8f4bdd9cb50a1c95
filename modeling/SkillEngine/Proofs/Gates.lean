import SkillEngine.Proofs.Session

/-!
# When a tick or an activation begins

A tick and an activation begin only when a drain has just found that no tag change waits, and then
nothing but answers and further ticks remains to be done after them. The same holds when a host asks
for tag changes to be processed and gets its answer.
-/

namespace SkillEngine

/-- Where no entity is to be re-checked, no tag change waits. -/
theorem World.tagChanges_of_changedEntities {world : World} (none : world.changedEntities = []) :
    world.tagChanges = [] := by
  refine List.eq_nil_iff_forall_not_mem.2 fun id waits => ?_
  have changed := World.mem_changedEntities.2 waits
  rw [none] at changed
  cases changed

namespace Frame

/-- The frames before which requirements are enforced: a tick or an activation begins. -/
def isGate : Frame → Bool
  | .enter .. | .beginTick _ => true
  | _ => false

/-- The frames after which nothing but answers and further ticks remains. -/
def isOuter : Frame → Bool
  | .enter .. | .beginTick _ | .ticks .. => true
  | .perform request => !request.isNested
  | _ => false

/-- The frames that may remain after those. -/
def isTrailing : Frame → Bool
  | .ticks .. | .answer _ => true
  | _ => false

/-- Every gate comes directly after a drain, and nothing but answers and further ticks comes after
it. -/
def Gated : List Frame → Prop
  | [] => True
  | frame :: rest =>
    (frame.isOuter = true → ∀ later ∈ rest, later.isTrailing = true) ∧
      (frame ≠ .drain → ∀ gate ∈ rest.head?, gate.isGate = false) ∧ Gated rest

/-- Every gate among what remains comes directly after a drain, and one that is next comes when no
tag change waits. -/
def Ready (tagChanges : List EntityId) (agenda : List Frame) : Prop :=
  Gated agenda ∧ ∀ gate ∈ agenda.head?, gate.isGate = true → tagChanges = []

variable {world : World} {frame next : Frame} {frames rest : List Frame}

/-- A gate is one of the frames after which only answers and ticks remain. -/
theorem isGate_eq_false (inner : frame.isOuter = false) : frame.isGate = false := by
  cases frame <;> first | rfl | cases inner

/-- Answers and ticks alone are gated, and none is a gate. -/
theorem gated_trailing (trailing : ∀ frame ∈ frames, frame.isTrailing = true) :
    Gated frames ∧ ∀ gate ∈ frames.head?, gate.isGate = false := by
  have noGate : ∀ frame ∈ frames, frame.isGate = false := fun frame member => by
    have kind := trailing frame member
    cases frame <;> first | rfl | cases kind
  refine ⟨?_, fun gate first => noGate gate (List.mem_of_mem_head? first)⟩
  induction frames with
  | nil => trivial
  | cons frame rest ih =>
    have others := fun later member => trailing later (List.mem_cons_of_mem _ member)
    have closed := fun later member => noGate later (List.mem_cons_of_mem _ member)
    exact ⟨fun _ => others, fun _ gate first => closed gate (List.mem_of_mem_head? first),
      ih others closed⟩

/-- Frames of a cascade in front of gated ones that do not begin with a gate. -/
theorem gated_append (inner : ∀ frame ∈ frames, frame.isOuter = false)
    (closed : ∀ gate ∈ rest.head?, gate.isGate = false) (gated : Gated rest) :
    Gated (frames ++ rest) ∧ ∀ gate ∈ (frames ++ rest).head?, gate.isGate = false := by
  induction frames with
  | nil => exact ⟨gated, closed⟩
  | cons frame others ih =>
    obtain ⟨behind, shut⟩ := ih fun later member => inner later (List.mem_cons_of_mem _ member)
    have here := inner frame List.mem_cons_self
    refine ⟨⟨fun outer => ?_, fun _ => shut, behind⟩, fun gate first => ?_⟩
    · cases here.symm.trans outer
    · cases first
      exact isGate_eq_false here

/-- Only an activation, a request for ticks and a tick lead to a frame after which only answers and
ticks remain. -/
theorem Leaves.outer (leaves : frame.Leaves world next) (outer : next.isOuter = true) :
    (∃ skill node opening, frame = .perform (.activate skill node opening)) ∨
      (∃ seconds count, frame = .perform (.tick seconds count)) ∨
      ∃ seconds count, frame = .ticks seconds count := by
  cases leaves with
  | activate => exact .inl ⟨_, _, _, rfl⟩
  | tick => exact .inr (.inl ⟨_, _, rfl⟩)
  | ticks | beginTick => exact .inr (.inr ⟨_, _, rfl⟩)
  | task nested =>
    simp only [isOuter, nested] at outer
    cases outer
  | host _ opening =>
    have inner : next.isOuter = false := by cases next <;> first | rfl | cases opening
    cases inner.symm.trans outer
  | _ => cases outer

/-- What is gated and does not begin with a gate is ready for any tag changes. -/
theorem ready_of_gated {tagChanges : List EntityId}
    (gated : Gated frames ∧ ∀ gate ∈ frames.head?, gate.isGate = false) :
    Ready tagChanges frames :=
  ⟨gated.1, fun gate first isGate => by cases (gated.2 gate first).symm.trans isGate⟩

/-- A gate directly after a drain and before answers and ticks alone is gated. -/
theorem gated_drain (gate : Frame) (trailing : ∀ later ∈ rest, later.isTrailing = true) :
    Gated (.drain :: gate :: rest) ∧
      ∀ next ∈ (Frame.drain :: gate :: rest).head?, next.isGate = false := by
  obtain ⟨behind, shut⟩ := gated_trailing trailing
  refine ⟨⟨fun outer => (by cases outer), fun busy => absurd rfl busy, fun _ => trailing,
    fun _ => shut, behind⟩, fun next first => ?_⟩
  cases first
  rfl

/-- A drain leaves re-checks and a drain, or finds that no tag change waits. -/
theorem ready_drain (world : World) (gated : Gated (.drain :: rest)) :
    Ready world.drain.world.tagChanges (world.drain.frames ++ rest) := by
  unfold World.drain
  split
  · next none => exact ⟨gated.2.2, fun _ _ _ => World.tagChanges_of_changedEntities none⟩
  · next changed _ =>
    rw [List.append_assoc]
    refine ready_of_gated (gated_append (fun next member => ?_) (fun gate first => ?_) gated)
    · obtain ⟨id, _, rfl⟩ := List.mem_map.1 member
      rfl
    · cases first
      rfl

/-- Ticks leave a drain before the next one, and the others behind it. -/
theorem ready_ticks (world : World) (seconds : Float32) (count : Nat)
    (trailing : ∀ later ∈ rest, later.isTrailing = true) :
    Ready (world.ticks seconds count).world.tagChanges
      ((world.ticks seconds count).frames ++ rest) := by
  cases count with
  | zero => exact ready_of_gated (gated_trailing trailing)
  | succ count =>
    have others : ∀ later ∈ Frame.ticks seconds count :: rest, later.isTrailing = true := by
      intro later member
      rcases List.mem_cons.1 member with rfl | rest
      · rfl
      · exact trailing later rest
    simp only [World.ticks]
    split
    · exact ready_of_gated (gated_trailing others)
    · exact ready_of_gated (gated_drain (.beginTick seconds) others)

/-- A request of the host leaves a drain before a walk begins. -/
theorem ready_perform (world : World) {request : Request}
    (outer : (∃ skill node opening, request = .activate skill node opening) ∨
      ∃ seconds count, request = .tick seconds count)
    (trailing : ∀ later ∈ rest, later.isTrailing = true) :
    Ready (world.perform request).world.tagChanges ((world.perform request).frames ++ rest) := by
  have answered {reply : Reply} :
      ∀ later ∈ Frame.answer reply :: rest, later.isTrailing = true := by
    intro later member
    rcases List.mem_cons.1 member with rfl | rest
    · rfl
    · exact trailing later rest
  rcases outer with ⟨skill, node, opening, rfl⟩ | ⟨seconds, count, rfl⟩
  · exact ready_of_gated (gated_drain _ answered)
  · refine ready_of_gated (gated_trailing fun later member => ?_)
    rcases List.mem_cons.1 member with rfl | rest
    · rfl
    · exact answered later rest

/-- What a frame leaves is gated, and a gate comes next only when no tag change waits. -/
theorem ready_expand (sound : world.Sound) (reply : Reply) {admits : Request → Prop}
    (admitted : frame.Admitted admits) (ready : Ready world.tagChanges (frame :: rest)) :
    Ready (frame.expand world reply).world.tagChanges
      ((frame.expand world reply).frames ++ rest) := by
  obtain ⟨gated, _⟩ := ready
  have ⟨after, before, behind⟩ := gated
  have others (busy : frame ≠ .drain)
      (plain : ¬((∃ skill node opening, frame = .perform (.activate skill node opening)) ∨
        (∃ seconds count, frame = .perform (.tick seconds count)) ∨
        ∃ seconds count, frame = .ticks seconds count)) :
      Ready (frame.expand world reply).world.tagChanges
        ((frame.expand world reply).frames ++ rest) := by
    refine ready_of_gated (gated_append (fun next left => ?_) (before busy) behind)
    exact Bool.eq_false_iff.2 fun outer =>
      plain ((leaves_expand sound reply admitted left).outer outer)
  cases frame with
  | drain => exact ready_drain world gated
  | ticks seconds count => exact ready_ticks world seconds count (after rfl)
  | perform request =>
    cases request with
    | activate skill node opening =>
      exact ready_perform world (.inl ⟨skill, node, opening, rfl⟩) (after rfl)
    | tick seconds count => exact ready_perform world (.inr ⟨seconds, count, rfl⟩) (after rfl)
    | _ => exact others (by simp) (by simp)
  | _ => exact others (by simp) (by simp)

end Frame

namespace Session

variable {admits : Request → Prop} {start : World} {past : List Cascade} {now : Cascade}

/-- Throughout a session every gate among what remains comes directly after a drain. -/
theorem ready (calm : start.Calm)
    (lawful : ∀ request, admits request → request.isLawful = true)
    (session : Session admits start past now) :
    Frame.Ready now.world.tagChanges now.agenda := by
  induction session with
  | opened => exact ⟨trivial, fun _ first => by cases first⟩
  | asked session _ _ ih =>
    refine ⟨⟨fun _ _ member => (by cases member), fun _ _ first => (by cases first), trivial⟩,
      fun gate first isGate => ?_⟩
    cases first
    cases isGate
  | stepped session next kept ih =>
    rw [next] at ih
    rw [Cascade.world_step next, Cascade.agenda_step next kept]
    exact Frame.ready_expand (session.sound calm lawful) _ (session.first calm lawful next) ih

/-- From when a host asks for tag changes to be processed until nothing remains, a drain is to come,
or no tag change waits. -/
theorem drained (session : Session admits start past now)
    {before during : List Cascade} {world : World}
    (asked : past = before ++ .ofRequest world .processTagChanges :: during)
    (runs : ∀ later ∈ during, later.agenda ≠ []) :
    (∃ frames, now.agenda = frames ++ [.drain, .answer .nothing]) ∨
      now.world.tagChanges = [] ∧ (now.agenda = [.answer .nothing] ∨ now.agenda = []) := by
  induction session generalizing during with
  | opened => simp at asked
  | @asked past now request session done admitted ih =>
    rcases Cascade.last_or_earlier asked with ⟨_, rfl⟩ | ⟨earlier, rfl, _⟩
    · cases done
    · exact absurd done (runs now (List.mem_append_right _ List.mem_cons_self))
  | @stepped past now frame rest session next kept ih =>
    rw [Cascade.world_step next, Cascade.agenda_step next kept]
    rcases Cascade.last_or_earlier asked with ⟨rfl, rfl⟩ | ⟨earlier, rfl, before⟩
    · cases next
      exact .inl ⟨[], rfl⟩
    · rcases ih before fun later member => runs later (List.mem_append_left _ member) with
        ⟨frames, same⟩ | ⟨none, last | finished⟩
      · rw [next] at same
        rcases List.cons_eq_append_iff.1 same with ⟨_, same⟩ | ⟨others, _, rfl⟩
        · cases same
          simp only [Frame.expand, World.drain]
          split
          · next changed => exact .inr ⟨World.tagChanges_of_changedEntities changed, .inl rfl⟩
          · exact .inl ⟨now.world.changedEntities.map fun id => .enforce id, by simp⟩
        · exact .inl ⟨(frame.expand now.world now.reply).frames ++ others, by simp⟩
      · rw [next] at last
        cases last
        exact .inr ⟨none, .inr rfl⟩
      · rw [next] at finished
        cases finished

end Session

end SkillEngine
