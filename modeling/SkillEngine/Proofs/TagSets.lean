import SkillEngine.Tag.Set
import Mathlib.Data.List.Basic

/-!
# How tag sets are built

A set is built from a list by adding its tags in turn. What it lists in the end are the tags that
equal no earlier one (`Tag.firsts`), behind what it listed before; so a set is built anew from its
own members, whoever wrote them down.
-/

namespace SkillEngine

namespace Tag

/-- The tags of a list that equal no earlier one. -/
def firsts : List Tag → List Tag
  | [] => []
  | tag :: rest => tag :: (firsts rest).filter (·.hash != tag.hash)

/-- No two of them are equal. -/
theorem distinct_firsts (tags : List Tag) : Distinct (firsts tags) := by
  induction tags with
  | nil => exact .nil
  | cons tag rest ih =>
    refine List.pairwise_cons.2 ⟨fun other member equal => ?_, ih.filter _⟩
    have apart := (List.mem_filter.1 member).2
    exact bne_iff_ne.1 apart equal.symm

/-- All tags of a list stay if no two are equal. -/
theorem firsts_of_distinct {tags : List Tag} (distinct : Distinct tags) : firsts tags = tags := by
  induction tags with
  | nil => rfl
  | cons tag rest ih =>
    obtain ⟨apart, others⟩ := List.pairwise_cons.1 distinct
    rw [firsts, ih others]
    refine congrArg (tag :: ·) (List.filter_eq_self.2 fun other member => ?_)
    exact bne_iff_ne.2 (apart other member).symm

end Tag

namespace TagSet

variable {first second : TagSet}

/-- Sets that list the same tags are the same. -/
theorem eq_of_tags (same : first.tags = second.tags) : first = second := by
  obtain ⟨tags, _⟩ := first
  obtain ⟨others, _⟩ := second
  obtain rfl : tags = others := same
  rfl

/-- A tag that equals a member is a member. -/
theorem contains_congr (set : TagSet) {tag other : Tag} (same : tag.hash = other.hash) :
    set.contains tag = set.contains other := by
  rw [contains, contains, same]

/-- A tag that is not a member is added behind the others. -/
theorem tags_add {set : TagSet} {tag : Tag} (absent : set.contains tag ≠ true) :
    (set.add tag).tags = set.tags ++ [tag] := by
  rw [add, dif_neg absent]

/-- Tags that are added in turn come behind the members, those that equal a member or an earlier one
left out. -/
theorem tags_foldl_add (tags : List Tag) (set : TagSet) :
    (tags.foldl add set).tags =
      set.tags ++ (Tag.firsts tags).filter fun tag => !set.contains tag := by
  induction tags generalizing set with
  | nil => exact (List.append_nil _).symm
  | cons tag rest ih =>
    rw [List.foldl_cons, ih, Tag.firsts, List.filter_cons, List.filter_filter]
    by_cases member : set.contains tag = true
    · rw [add, dif_pos member, member]
      refine congrArg (set.tags ++ ·) (List.filter_congr fun other _ => ?_)
      -- What equals a member is left out as such.
      by_cases same : other.hash = tag.hash
      · simp [set.contains_congr same, member]
      · simp [same]
    · have behind (other : Tag) :
          (set.add tag).contains other = (set.contains other || tag.hash == other.hash) := by
        rw [contains, tags_add member, List.any_append, List.any_cons, List.any_nil, Bool.or_false]
        rfl
      rw [tags_add member, Bool.eq_false_iff.2 member, List.append_assoc]
      refine congrArg (set.tags ++ tag :: ·) (List.filter_congr fun other _ => ?_)
      rw [behind, Bool.not_or]
      exact congrArg (!set.contains other && !·) Bool.beq_comm

/-- The set of some tags lists those that equal no earlier one. -/
theorem tags_ofList (tags : List Tag) : (ofList tags).tags = Tag.firsts tags := by
  rw [ofList, tags_foldl_add]
  exact List.filter_eq_self.2 fun _ _ => rfl

/-- The set of a set's members is the set. -/
theorem ofList_tags (set : TagSet) : ofList set.tags = set :=
  eq_of_tags ((tags_ofList set.tags).trans (Tag.firsts_of_distinct set.distinct))

end TagSet

end SkillEngine
