import SkillEngine.Proofs.Expiry
import SkillEngine.Proofs.Termination

/-!
# Runs that return

What a frame sets off is done when the agenda has come back to what was behind the frame. A run
*returns* when it comes there for the first time and has lost nothing on the way. Every cascade of a
session ends, so every run of one returns unless a roll has no answer, and whatever each frame that
nodes set off leaves true of the world is still true when such frames have returned.
-/

namespace SkillEngine

namespace Cascade

variable {cascade : Cascade} {frame : Frame} {rest inner behind : List Frame} {bound : Nat}

/-- A run takes the first frame and goes on. -/
theorem run_succ (next : cascade.agenda = frame :: rest) (bound : Nat) :
    cascade.run (bound + 1) = cascade.step.run bound := by
  simp [run, isDone, next]

/-- One frame more is a frame at the end of a run. -/
theorem run_add_one (cascade : Cascade) (bound : Nat) :
    cascade.run (bound + 1) = (cascade.run bound).run 1 :=
  run_add bound 1 cascade

/-- A run whose first frame is not lost keeps what the others keep. -/
theorem keeps_succ (next : cascade.agenda = frame :: rest)
    (kept : (frame.expand cascade.world cascade.reply).lost = false) (bound : Nat) :
    cascade.keeps (bound + 1) = cascade.step.keeps bound := by
  simp [keeps, next, kept]

/-- A run that has kept every frame until nothing remained keeps every frame, however long it is. -/
theorem keeps_of_isDone {steps : Nat} (kept : cascade.keeps steps = true)
    (done : (cascade.run steps).isDone = true) (bound : Nat) : cascade.keeps bound = true := by
  induction bound generalizing cascade steps with
  | zero => rfl
  | succ bound ih =>
    cases next : cascade.agenda with
    | nil => simp [keeps, next]
    | cons frame rest =>
      cases steps with
      | zero => simp [run, isDone, next] at done
      | succ steps =>
        simp only [keeps, next, Bool.and_eq_true] at kept ⊢
        rw [run_succ next] at done
        exact ⟨kept.1, ih kept.2 done⟩

/-- What is kept on a long run is kept on a shorter one. -/
theorem keeps_of_le {fewer : Nat} (kept : cascade.keeps bound = true) (le : fewer ≤ bound) :
    cascade.keeps fewer = true := by
  induction bound generalizing cascade fewer with
  | zero => rwa [Nat.le_zero.1 le]
  | succ bound ih =>
    cases fewer with
    | zero => rfl
    | succ fewer =>
      cases next : cascade.agenda with
      | nil => simp [keeps, next]
      | cons frame rest =>
        simp only [keeps, next, Bool.and_eq_true] at kept ⊢
        exact ⟨kept.1, ih kept.2 (Nat.le_of_succ_le_succ le)⟩

/-- What a run keeps in its second part. -/
theorem keeps_run {first : Nat} (kept : cascade.keeps (first + bound) = true) :
    (cascade.run first).keeps bound = true := by
  induction first generalizing cascade with
  | zero => rwa [Nat.zero_add] at kept
  | succ first ih =>
    cases next : cascade.agenda with
    | nil =>
      rw [run_of_isDone _ (List.isEmpty_iff.2 next)]
      cases bound <;> simp [keeps, next]
    | cons frame rest =>
      rw [Nat.succ_add] at kept
      simp only [keeps, next, Bool.and_eq_true] at kept
      rw [run_succ next]
      exact ih kept.2

/-- While more remains to be done than the rest, the rest stays as it is. -/
theorem exists_agenda_append (kept : cascade.keeps bound = true)
    (split : cascade.agenda = inner ++ rest)
    (longer : ∀ earlier < bound, rest.length < (cascade.run earlier).agenda.length) :
    ∃ left, (cascade.run bound).agenda = left ++ rest := by
  induction bound generalizing cascade inner with
  | zero => exact ⟨inner, split⟩
  | succ bound ih =>
    have more := longer 0 (Nat.succ_pos _)
    cases inner with
    | nil =>
      rw [run, split] at more
      exact absurd more (Nat.lt_irrefl _)
    | cons frame inner =>
      have next : cascade.agenda = frame :: (inner ++ rest) := split
      simp only [keeps, next, Bool.and_eq_true, Bool.not_eq_true'] at kept
      have agenda : cascade.step.agenda =
          ((frame.expand cascade.world cascade.reply).frames ++ inner) ++ rest := by
        rw [agenda_step next kept.1, List.append_assoc]
      rw [run_succ next]
      refine ih kept.2 agenda fun earlier within => ?_
      rw [← run_succ next]
      exact longer (earlier + 1) (Nat.succ_lt_succ within)

/-- A run comes back for the first time to what is behind. -/
structure Returns (cascade : Cascade) (behind : List Frame) (bound : Nat) : Prop where
  /-- Nothing was lost on the way. -/
  kept : cascade.keeps bound = true
  /-- There was more to do before. -/
  sooner : ∀ earlier < bound, behind.length < (cascade.run earlier).agenda.length
  /-- What is behind is next. -/
  back : (cascade.run bound).agenda = behind

/-- A run that loses nothing until no more remains than was behind has returned. -/
theorem exists_returns (split : cascade.agenda = inner ++ behind)
    (kept : cascade.keeps bound = true)
    (few : (cascade.run bound).agenda.length ≤ behind.length) :
    ∃ first ≤ bound, cascade.Returns behind first := by
  have some : ∃ time, (cascade.run time).agenda.length ≤ behind.length := ⟨bound, few⟩
  have least : Nat.find some ≤ bound := Nat.find_min' some few
  have sooner : ∀ earlier < Nat.find some, behind.length < (cascade.run earlier).agenda.length :=
    fun earlier before => Nat.lt_of_not_le (Nat.find_min some before)
  have kept := keeps_of_le kept least
  obtain ⟨left, same⟩ := exists_agenda_append kept split sooner
  have none : left = [] := by
    have lengths := Nat.find_spec some
    rw [same, List.length_append] at lengths
    exact List.eq_nil_of_length_eq_zero (by omega)
  exact ⟨Nat.find some, least, kept, sooner, by rw [same, none, List.nil_append]⟩

namespace Returns

/-- Until it returns a run has at least as much to do as is behind. -/
theorem length_le (returns : cascade.Returns behind bound) {earlier : Nat}
    (within : earlier ≤ bound) :
    behind.length ≤ (cascade.run earlier).agenda.length := by
  rcases Nat.lt_or_eq_of_le within with before | rfl
  · exact (returns.sooner earlier before).le
  · rw [returns.back]

/-- A run that returns when nothing was in front returns at once. -/
theorem eq_zero (returns : cascade.Returns behind bound) (agenda : cascade.agenda = behind) :
    bound = 0 := by
  by_contra positive
  have more := returns.sooner 0 (Nat.pos_of_ne_zero positive)
  rw [run, agenda] at more
  exact Nat.lt_irrefl _ more

/-- A run that has yet to return takes a frame and returns. -/
theorem step (returns : cascade.Returns behind (bound + 1))
    (next : cascade.agenda = frame :: rest) :
    (frame.expand cascade.world cascade.reply).lost = false ∧
      cascade.step.Returns behind bound := by
  obtain ⟨kept, sooner, back⟩ := returns
  simp only [keeps, next, Bool.and_eq_true, Bool.not_eq_true'] at kept
  rw [run_succ next] at back
  refine ⟨kept.1, kept.2, fun earlier before => ?_, back⟩
  rw [← run_succ next]
  exact sooner (earlier + 1) (Nat.succ_lt_succ before)

/-- A run that returns has first done what was in front of some more frames. -/
theorem split (returns : cascade.Returns behind bound)
    (agenda : cascade.agenda = inner ++ (rest ++ behind)) :
    ∃ first fewer, bound = first + fewer ∧ cascade.Returns (rest ++ behind) first ∧
      (cascade.run first).Returns behind fewer := by
  have few : (cascade.run bound).agenda.length ≤ (rest ++ behind).length := by
    rw [returns.back, List.length_append]
    exact Nat.le_add_left _ _
  obtain ⟨first, within, before⟩ := exists_returns agenda returns.kept few
  obtain ⟨fewer, rfl⟩ := Nat.exists_eq_add_of_le within
  refine ⟨first, fewer, rfl, before, keeps_run returns.kept, fun earlier sooner => ?_, ?_⟩
  · rw [← run_add]
    exact returns.sooner (first + earlier) (Nat.add_lt_add_left sooner first)
  · rw [← run_add]
    exact returns.back

end Returns

end Cascade

namespace Session

variable {start : World} {past : List Cascade} {now : Cascade} {inner behind : List Frame}
  {bound : Nat}

/-- What is in front of the rest returns to it, unless a roll has no answer. -/
theorem returns (calm : start.Calm)
    (session : Session (fun request => request.isLawful = true) start past now)
    (next : now.agenda = inner ++ behind) :
    (∃ bound, now.keeps bound = false) ∨ ∃ bound, now.Returns behind bound := by
  obtain ⟨bound, done⟩ := session.ends calm fun _ lawful => lawful
  cases kept : now.keeps bound with
  | false => exact .inl ⟨bound, kept⟩
  | true =>
    have few : (now.run bound).agenda.length ≤ behind.length := by
      rw [List.isEmpty_iff.1 done]
      exact Nat.zero_le _
    obtain ⟨first, _, returns⟩ := Cascade.exists_returns next kept few
    exact .inr ⟨first, returns⟩

/-- What every frame that nodes set off leaves true of a world is true when such frames have
returned, if it was before. -/
theorem holds_of_returns (holds : World → Prop)
    (keeps : ∀ {world : World} {frame : Frame} (reply : Reply), world.Sound →
      (frame.Admitted fun request => request.isLawful = true) → frame.isInner = true →
      holds world → holds (frame.expand world reply).world)
    (calm : start.Calm)
    (session : Session (fun request => request.isLawful = true) start past now)
    (next : now.agenda = inner ++ behind) (set : ∀ frame ∈ inner, frame.isInner = true)
    (returns : now.Returns behind bound) (initially : holds now.world) :
    holds (now.run bound).world := by
  induction bound generalizing past now inner with
  | zero => exact initially
  | succ bound ih =>
    cases inner with
    | nil => cases returns.eq_zero next
    | cons frame inner =>
      have split : now.agenda = frame :: (inner ++ behind) := next
      obtain ⟨kept, onward⟩ := returns.step split
      have sound := session.sound calm fun _ lawful => lawful
      have admitted := session.first calm (fun _ lawful => lawful) next
      have within := set frame List.mem_cons_self
      have agenda : now.step.agenda =
          ((frame.expand now.world now.reply).frames ++ inner) ++ behind := by
        rw [Cascade.agenda_step split kept, List.append_assoc]
      rw [Cascade.run_succ next]
      refine ih (session.stepped next kept) agenda (fun other member => ?_) onward ?_
      · rcases List.mem_append.1 member with left | later
        · exact (Frame.leaves_expand sound now.reply admitted left).isInner within
        · exact set other (List.mem_cons_of_mem _ later)
      · rw [Cascade.world_step next]
        exact keeps now.reply sound admitted within initially

end Session

end SkillEngine
