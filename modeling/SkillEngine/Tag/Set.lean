import SkillEngine.Tag.Basic

/-!
# Tag sets

A tag set is a duplicate-free list in the order of first mention. `contains` asks for an exact
member; `hasTag` also accepts a descendant. An empty query is matched by all and met by none.
-/

namespace SkillEngine

/-- No two tags of a list are equal. -/
def Tag.Distinct (tags : List Tag) : Prop :=
  tags.Pairwise fun first second => first.hash ≠ second.hash

/-- A duplicate-free list of tags. -/
structure TagSet where
  /-- The members, in order of first mention. -/
  tags : List Tag
  /-- No member occurs twice. -/
  distinct : Tag.Distinct tags

namespace TagSet

/-- The set without members. -/
def empty : TagSet := ⟨[], .nil⟩

instance : Inhabited TagSet := ⟨empty⟩

/-- Sets are equal when they list equal tags in the same order. -/
instance : BEq TagSet := ⟨fun left right => left.tags == right.tags⟩

/-- The tag is a member, exactly. -/
def contains (set : TagSet) (tag : Tag) : Bool := set.tags.any (·.hash == tag.hash)

/-- The set with a tag at the end, unless it is a member. -/
def add (set : TagSet) (tag : Tag) : TagSet :=
  if absent : set.contains tag = true then set
  else ⟨set.tags ++ [tag], by
    refine List.pairwise_append.2 ⟨set.distinct, List.pairwise_singleton _ _, ?_⟩
    intro first member second last equal
    obtain rfl := List.mem_singleton.1 last
    exact absent (List.any_eq_true.2 ⟨first, member, beq_iff_eq.2 equal⟩)⟩

/-- The set of some tags; of equal tags the first stays. -/
def ofList (tags : List Tag) : TagSet := tags.foldl add empty

/-- The set of some paths. -/
def ofPaths (paths : List String) : TagSet := ofList (paths.map Tag.ofPath)

/-- The number of members. -/
def size (set : TagSet) : Nat := set.tags.length

/-- The set has no members. -/
def isEmpty (set : TagSet) : Bool := set.tags.isEmpty

/-- A member is the tag or a descendant of it. -/
def hasTag (set : TagSet) (tag : Tag) : Bool := set.tags.any (·.hasTag tag)

/-- Every tag of a query is matched. -/
def hasAll (set query : TagSet) : Bool := query.tags.all set.hasTag

/-- Some tag of a query is matched. -/
def hasAny (set query : TagSet) : Bool := query.tags.any set.hasTag

/-- The members of either set, those of the first in front. -/
def union (left right : TagSet) : TagSet := ofList (left.tags ++ right.tags)

/-- The members that the other set has too. -/
def intersect (left right : TagSet) : TagSet := ofList (left.tags.filter right.contains)

/-- The members that the other set lacks. -/
def except (left right : TagSet) : TagSet :=
  ofList (left.tags.filter fun tag => !right.contains tag)

/-- The paths of the members. -/
def paths (set : TagSet) : List String := set.tags.map (·.path)

end TagSet

end SkillEngine
