import SkillEngine.Tag.Request
import Mathlib.Data.List.Basic

/-!
# What held tags match

Giving tags never ends a match, and taking tags ends one only if some tag has disappeared. Nothing
but listening and ceasing to listen changes who listens.
-/

namespace SkillEngine.TagCounts

variable {counts before after : TagCounts}

/-- Every tag that some held tags match is matched by others. -/
def Keeps (before after : TagCounts) : Prop :=
  ∀ tag, before.hasTag tag = true → after.hasTag tag = true

/-- Unchanged tags match what they matched. -/
theorem Keeps.refl (counts : TagCounts) : counts.Keeps counts := fun _ held => held

/-- Matches that are kept twice are kept. -/
theorem Keeps.trans {first second third : TagCounts} (earlier : first.Keeps second)
    (later : second.Keeps third) : first.Keeps third :=
  fun tag held => later tag (earlier tag held)

/-- A requirement goes on holding. -/
theorem Keeps.hasAll (keeps : before.Keeps after) {query : TagSet}
    (holds : before.hasAll query = true) : after.hasAll query = true := by
  refine List.all_eq_true.2 fun tag member => ?_
  exact keeps tag (List.all_eq_true.1 holds tag member)

/-- Tags that list what others list match what those match. -/
theorem Keeps.of_subset (listed : ∀ tag ∈ before.tags, tag ∈ after.tags) : before.Keeps after := by
  intro tag held
  obtain ⟨entry, member, matched⟩ := List.any_eq_true.1 held
  obtain ⟨other, stored, same⟩ := List.mem_map.1 (listed entry.1 (List.mem_map_of_mem member))
  exact List.any_eq_true.2 ⟨other, stored, same ▸ matched⟩

/-- Counting a held tag anew lists the same tags. -/
theorem tags_recount (held : List (Tag × Nat)) (tag : Tag) (recount : Nat → Nat) :
    (held.map fun entry =>
      if entry.1.hash == tag.hash then (entry.1, recount entry.2) else entry).map (·.1) =
      held.map (·.1) := by
  rw [List.map_map]
  refine List.map_congr_left fun entry _ => ?_
  simp only [Function.comp]
  split <;> rfl

/-- Giving a tag ends no match. -/
theorem keeps_add (counts : TagCounts) (tag : Tag) : counts.Keeps (counts.add tag).2 := by
  refine .of_subset fun held member => ?_
  unfold add
  split
  · exact (congrArg (held ∈ ·) (tags_recount counts.held tag (· + 1))).mpr member
  · simp only [tags, List.map_append, List.mem_append]
    exact .inl member

/-- Taking a tag that does not disappear ends no match. -/
theorem keeps_remove {tag : Tag} (stays : (counts.remove tag).1 = false) :
    counts.Keeps (counts.remove tag).2 := by
  refine .of_subset fun held member => ?_
  unfold remove at stays ⊢
  split
  · exact member
  · next one => simp [one] at stays
  · exact (congrArg (held ∈ ·) (tags_recount counts.held tag (· - 1))).mpr member

/-- Giving tags ends no match. -/
theorem keeps_addEach (counts : TagCounts) (tags : List Tag) :
    counts.Keeps (counts.addEach tags).2 := by
  induction tags generalizing counts with
  | nil => exact .refl counts
  | cons tag rest ih => exact (keeps_add counts tag).trans (ih _)

/-- Taking tags of which none disappears ends no match. -/
theorem keeps_removeEach {tags : List Tag} (stay : (counts.removeEach tags).1 = []) :
    counts.Keeps (counts.removeEach tags).2 := by
  induction tags generalizing counts with
  | nil => exact .refl counts
  | cons tag rest ih =>
    cases vanished : (counts.remove tag).1 with
    | true => simp [removeEach, vanished] at stay
    | false =>
      have others : ((counts.remove tag).2.removeEach rest).1 = [] := by
        simpa [removeEach, vanished] using stay
      exact (keeps_remove vanished).trans (ih others)

/-- Giving a tag changes no listener. -/
theorem listeners_add (counts : TagCounts) (tag : Tag) :
    (counts.add tag).2.listeners = counts.listeners := by
  unfold add
  split <;> rfl

/-- Taking a tag changes no listener. -/
theorem listeners_remove (counts : TagCounts) (tag : Tag) :
    (counts.remove tag).2.listeners = counts.listeners := by
  unfold remove
  split <;> rfl

/-- Giving tags changes no listener. -/
theorem listeners_addEach (counts : TagCounts) (tags : List Tag) :
    (counts.addEach tags).2.listeners = counts.listeners := by
  induction tags generalizing counts with
  | nil => rfl
  | cons tag rest ih => exact (ih _).trans (listeners_add counts tag)

/-- Taking tags changes no listener. -/
theorem listeners_removeEach (counts : TagCounts) (tags : List Tag) :
    (counts.removeEach tags).2.listeners = counts.listeners := by
  induction tags generalizing counts with
  | nil => rfl
  | cons tag rest ih => exact (ih _).trans (listeners_remove counts tag)

/-- The engine itself listens. -/
def Watched (counts : TagCounts) : Prop := .requirements ∈ counts.listeners.listeners

/-- Who listens after somebody more does includes those who listened. -/
theorem Watched.subscribe (watched : counts.Watched) (listener : TagListener) :
    TagCounts.Watched { counts with listeners := (counts.listeners.subscribe listener).2 } := by
  unfold Watched Subscribers.listeners Subscribers.subscribe at *
  rw [List.map_append]
  exact List.mem_append_left _ watched

/-- The engine hears of every event. -/
theorem Watched.mem_notices (watched : counts.Watched) {events : List TagEvent} {event : TagEvent}
    (told : event ∈ events) : (.requirements, event) ∈ counts.notices events :=
  List.mem_flatMap.2 ⟨event, told, List.mem_map.2 ⟨_, watched, rfl⟩⟩

end SkillEngine.TagCounts
