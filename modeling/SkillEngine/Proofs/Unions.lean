import SkillEngine.Proofs.Documents

/-!
# Unions, intersections and differences of tag sets

Every operation on tag sets builds its result anew from a list, in which a tag may be mentioned
again. It comes to this: a union lists the one set and then what the other one adds (`tags_union`),
and two sets share out the members of the first between what they have in common and the rest, both
in the order of the first (`Shares`). Tags count as equal if their hashes are; the laws are
nevertheless laws of the lists, path by path, since of equal tags it is always the first that stays.
-/

namespace SkillEngine

open Binary (Format)

/-- A list is made of two others, each of which keeps its order. -/
inductive Interleaves {α : Type} : List α → List α → List α → Prop where
  /-- There is nothing left. -/
  | nil : Interleaves [] [] []
  /-- The next one comes from the first list. -/
  | left {next : α} {first second whole : List α} :
      Interleaves first second whole → Interleaves (next :: first) second (next :: whole)
  /-- The next one comes from the second list. -/
  | right {next : α} {first second whole : List α} :
      Interleaves first second whole → Interleaves first (next :: second) (next :: whole)

/-- What passes a test and what does not make up the list. -/
theorem interleaves_filter {α : Type} (test : α → Bool) (whole : List α) :
    Interleaves (whole.filter test) (whole.filter fun next => !test next) whole := by
  induction whole with
  | nil => exact .nil
  | cons next rest ih =>
    cases passed : test next with
    | true => simpa [passed] using ih.left
    | false => simpa [passed] using ih.right

namespace TagSet

variable {first second : TagSet}

/-- A union lists the members of the first set and then those of the second that the first lacks. -/
theorem tags_union (first second : TagSet) :
    (first.union second).tags =
      first.tags ++ second.tags.filter fun tag => !first.contains tag := by
  have built : (first.union second).tags = (second.tags.foldl add first).tags := by
    rw [union, ofList, List.foldl_append, ← ofList, ofList_tags]
  rw [built, tags_foldl_add, Tag.firsts_of_distinct second.distinct]

/-- Two paths have the same hash, and the one that the first set lists is kept. -/
example : ((ofPaths ["7BcukGzpULrCwLWs", "Cold"]).union
    (ofPaths ["Wet", "OxETyQCOA3GbdGP9"])).paths = ["7BcukGzpULrCwLWs", "Cold", "Wet"] := by
  decide +kernel

/-- What passes a test is listed in the order of the set. -/
theorem tags_ofList_filter (set : TagSet) (test : Tag → Bool) :
    (ofList (set.tags.filter test)).tags = set.tags.filter test :=
  (tags_ofList _).trans (Tag.firsts_of_distinct (set.distinct.filter test))

/-- An intersection lists the members that the other set has. -/
theorem tags_intersect (first second : TagSet) :
    (first.intersect second).tags = first.tags.filter second.contains :=
  first.tags_ofList_filter _

/-- A difference lists the members that the other set lacks. -/
theorem tags_except (first second : TagSet) :
    (first.except second).tags = first.tags.filter fun tag => !second.contains tag :=
  first.tags_ofList_filter _

/-- Of the members that pass a test, a tag is one if it is a member and passes, provided that equal
tags pass alike. -/
theorem any_filter (set : TagSet) {test : Tag → Bool}
    (alike : ∀ {tag other : Tag}, tag.hash = other.hash → test tag = test other) (tag : Tag) :
    (set.tags.filter test).any (·.hash == tag.hash) = (set.contains tag && test tag) := by
  rw [List.any_filter, Bool.eq_iff_iff, Bool.and_eq_true, contains, List.any_eq_true,
    List.any_eq_true]
  constructor
  · rintro ⟨member, listed, both⟩
    obtain ⟨passed, same⟩ := Bool.and_eq_true_iff.1 both
    exact ⟨⟨member, listed, same⟩, alike (beq_iff_eq.1 same) ▸ passed⟩
  · rintro ⟨⟨member, listed, same⟩, passed⟩
    refine ⟨member, listed, Bool.and_eq_true_iff.2 ⟨?_, same⟩⟩
    exact alike (beq_iff_eq.1 same) ▸ passed

/-- An intersection has what both sets have. -/
theorem contains_intersect (first second : TagSet) (tag : Tag) :
    (first.intersect second).contains tag = (first.contains tag && second.contains tag) := by
  rw [contains, tags_intersect]
  exact first.any_filter second.contains_congr tag

/-- A difference has what the first set has and the second lacks. -/
theorem contains_except (first second : TagSet) (tag : Tag) :
    (first.except second).contains tag = (first.contains tag && !second.contains tag) := by
  rw [contains, tags_except]
  exact first.any_filter (fun same => congrArg (!·) (second.contains_congr same)) tag

/-- A union has what either set has. -/
theorem contains_union (first second : TagSet) (tag : Tag) :
    (first.union second).contains tag = (first.contains tag || second.contains tag) := by
  have added := second.any_filter (fun same => congrArg (!·) (first.contains_congr same)) tag
  rw [contains, tags_union, List.any_append, added, ← contains]
  cases first.contains tag <;> simp

/-- It does not matter which of three sets are united first. -/
theorem union_assoc (first second third : TagSet) :
    (first.union second).union third = first.union (second.union third) := by
  refine eq_of_tags ?_
  have lacking : (third.tags.filter fun tag => !(first.union second).contains tag) =
      (third.tags.filter fun tag => !second.contains tag).filter
        fun tag => !first.contains tag := by
    rw [List.filter_filter]
    exact List.filter_congr fun tag _ => by rw [contains_union, Bool.not_or]
  simp only [tags_union, List.filter_append, List.append_assoc, lacking]

/-- A set united with itself is the set. -/
theorem union_self (set : TagSet) : set.union set = set := by
  refine eq_of_tags ?_
  have none : (set.tags.filter fun tag => !set.contains tag) = [] := by
    refine List.filter_eq_nil_iff.2 fun tag member => ?_
    have held : set.contains tag = true :=
      List.any_eq_true.2 ⟨tag, member, beq_self_eq_true tag.hash⟩
    simp [held]
  rw [tags_union, none, List.append_nil]

/-- Two sets share out the members of a third one. -/
structure Shares (whole first second : TagSet) : Prop where
  /-- Each lists its share in the order of the third set, and there is nothing else in that. -/
  interleaves : Interleaves first.tags second.tags whole.tags
  /-- They have nothing in common. -/
  disjoint : ∀ tag, (first.contains tag && second.contains tag) = false
  /-- Every member of the third set is in one of them and not in the other, and nothing else is in
  either. -/
  once : ∀ tag, whole.contains tag = (first.contains tag ^^ second.contains tag)

/-- What a set has in common with another one and what it has not share it out. -/
theorem shares (whole other : TagSet) :
    whole.Shares (whole.intersect other) (whole.except other) where
  interleaves := by
    rw [tags_intersect, tags_except]
    exact interleaves_filter other.contains whole.tags
  disjoint tag := by
    rw [contains_intersect, contains_except]
    cases other.contains tag <;> simp
  once tag := by
    rw [contains_intersect, contains_except]
    cases other.contains tag <;> simp

/-- A set is what a list of tags makes, whichever way that comes in. -/
structure MadeOf (set : TagSet) (tags : List Tag) : Prop where
  /-- As it is. -/
  ofList : TagSet.ofList tags = set
  /-- In JSON, wherever an array may be opened. -/
  decoder : ∀ room, TagSet.decoder (room + 1) (.array (tags.map Tag.toJson)) = some set
  /-- As bytes, in front of others, if their number can be written in eight bytes. -/
  format : ((Format.list Tag.format).write tags).length < UInt64.size →
    ∀ rest, TagSet.format.read ((Format.list Tag.format).write tags ++ rest) = .ok (set, rest)

/-- Every list of tags makes one set. -/
theorem madeOf (tags : List Tag) : (ofList tags).MadeOf tags where
  ofList := rfl
  decoder := decoder_array tags
  format short rest := by
    have listed : (Format.list Tag.format).Faithful tags :=
      Format.faithful_list (fun tag _ => Tag.solid_format tag) fun tag _ => tag.faithful_format
    rw [TagSet.format]
    exact Format.read_map (listed short) rest

/-- A set is what its own members make. -/
theorem madeOf_tags (set : TagSet) : set.MadeOf set.tags := by
  have made := madeOf set.tags
  rwa [ofList_tags] at made

end TagSet

/-- Tag sets are ordered sets, whichever tags have the same hash. A list of tags makes the set of
those that equal no earlier one, of which no two are equal, and the list that a set is written as
makes that set. Unions are associative and idempotent as lists, and have what either set has. What a
set has in common with another one and what it has not share out its members, in its order. -/
theorem tag_sets_are_ordered_sets (tags : List Tag) (first second third : TagSet) (tag : Tag) :
    ((TagSet.ofList tags).MadeOf tags ∧ (TagSet.ofList tags).tags = Tag.firsts tags ∧
      Tag.Distinct (Tag.firsts tags)) ∧
    first.MadeOf first.tags ∧
    (first.union second).union third = first.union (second.union third) ∧
    first.union first = first ∧
    (first.union second).contains tag = (first.contains tag || second.contains tag) ∧
    first.Shares (first.intersect second) (first.except second) :=
  ⟨⟨TagSet.madeOf tags, TagSet.tags_ofList tags, Tag.distinct_firsts tags⟩, first.madeOf_tags,
    first.union_assoc second third, first.union_self, first.contains_union second tag,
    first.shares second⟩

end SkillEngine
