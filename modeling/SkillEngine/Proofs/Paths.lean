import SkillEngine.Tag.Counts
import Mathlib.Data.Set.Function
import Mathlib.Data.List.Nodup

/-!
# The order of dotted paths

A path lies below another if it is the other followed by a dot and something, which may be nothing.
A tag matches the tags whose paths are its own or lie above it, and what is compared are hashes: the
hash of a path with the hashes of the texts before each dot. So matching is the order of the paths
(`matching_is_prefix_order`) as far as the hash tells the paths of some tags, and those above them,
apart. What lies above a tag is what its parents are, one after another (`Tag.ascent`); all that is
said of it follows the way up.
-/

namespace SkillEngine

namespace Tag

/-- One path is another one, a dot, and a rest. -/
def Below (lower upper : String) : Prop := ∃ rest, lower = upper ++ "." ++ rest

/-- The path of a tag is that of another one or lies below it. -/
def Matches (tag other : Tag) : Prop := tag.path = other.path ∨ Below tag.path other.path

/-- The texts before the dots are those that a dot and a rest make the whole of. -/
theorem mem_dottedPrefixes {front letters : List Char} :
    front ∈ dottedPrefixes letters ↔ ∃ rest, letters = front ++ '.' :: rest := by
  induction letters generalizing front with
  | nil => simp [dottedPrefixes]
  | cons letter others ih =>
    cases front with
    | nil =>
      by_cases dot : letter = '.'
      · simp [dottedPrefixes, dot]
      · simp [dottedPrefixes, dot]
    | cons first more =>
      by_cases dot : letter = '.'
      · simp [dottedPrefixes, dot, ih, and_comm, eq_comm]
      · simp [dottedPrefixes, dot, ih, and_comm, eq_comm]

/-- There are as many texts before dots as there are dots. -/
theorem length_dottedPrefixes (letters : List Char) :
    (dottedPrefixes letters).length = letters.count '.' := by
  induction letters with
  | nil => rfl
  | cons letter others ih =>
    by_cases dot : letter = '.'
    · simp [dottedPrefixes, dot, ih]
    · simp [dottedPrefixes, dot, ih]

/-- The last of the texts before dots has the others before its own dots. -/
theorem dottedPrefixes_cases (letters : List Char) :
    dottedPrefixes letters = [] ∨
      ∃ front, dottedPrefixes letters = dottedPrefixes front ++ [front] := by
  induction letters with
  | nil => exact .inl rfl
  | cons letter others ih =>
    by_cases dot : letter = '.'
    · refine .inr ?_
      rcases ih with none | ⟨front, some⟩
      · exact ⟨[], by simp [dottedPrefixes, dot, none]⟩
      · exact ⟨letter :: front, by simp [dottedPrefixes, dot, some]⟩
    · rcases ih with none | ⟨front, some⟩
      · exact .inl (by simp [dottedPrefixes, dot, none])
      · exact .inr ⟨letter :: front, by simp [dottedPrefixes, dot, some]⟩

/-- The paths above a tag are those that its path lies below. -/
theorem mem_ancestorPaths {tag : Tag} {path : String} :
    path ∈ tag.ancestorPaths ↔ Below tag.path path := by
  unfold ancestorPaths ancestorPathsOf
  constructor
  · intro member
    obtain ⟨front, listed, rfl⟩ := List.mem_map.1 member
    obtain ⟨rest, whole⟩ := mem_dottedPrefixes.1 listed
    exact ⟨String.ofList rest, String.toList_inj.1 (by simp [whole])⟩
  · rintro ⟨rest, whole⟩
    refine List.mem_map.2 ⟨path.toList, mem_dottedPrefixes.2 ⟨rest.toList, ?_⟩, by simp⟩
    simp [whole]

/-- A tag without a parent has no paths above it. -/
theorem ancestorPaths_of_none {tag : Tag} (top : tag.parent? = none) : tag.ancestorPaths = [] :=
  List.getLast?_eq_none_iff.1 (Option.map_eq_none_iff.1 top)

/-- Above a tag are the path of its parent and what is above that. -/
theorem ancestorPaths_of_parent {tag parent : Tag} (above : tag.parent? = some parent) :
    tag.ancestorPaths = parent.ancestorPaths ++ [parent.path] := by
  obtain ⟨path, last, rfl⟩ := Option.map_eq_some_iff.1 above
  unfold ancestorPaths ancestorPathsOf at *
  rw [path_ofPath]
  rcases dottedPrefixes_cases tag.path.toList with none | ⟨front, some⟩
  · simp [none] at last
  · rw [some] at last ⊢
    obtain rfl : String.ofList front = path := by simpa using last
    simp

/-- The tags on the way up, from parent to parent. -/
def ascent (tag : Tag) : List Tag :=
  match _above : tag.parent? with
  | none => []
  | some parent => parent :: parent.ascent
termination_by tag.ancestorPaths.length
decreasing_by
  rw [ancestorPaths_of_parent _above, List.length_append]
  exact Nat.lt_succ_self _

/-- The paths above a tag are those of the tags on the way up, in reverse. -/
theorem ancestorPaths_eq_ascent (tag : Tag) :
    tag.ancestorPaths = (tag.ascent.map (·.path)).reverse := by
  fun_induction ascent tag with
  | case1 tag top => exact ancestorPaths_of_none top
  | case2 tag parent above ih =>
    rw [ancestorPaths_of_parent above, ih, List.map_cons, List.reverse_cons]

/-- What lies below what lies below a path lies below the path. -/
theorem Below.trans {lower middle upper : String} (first : Below lower middle)
    (second : Below middle upper) : Below lower upper := by
  obtain ⟨rest, rfl⟩ := first
  obtain ⟨more, rfl⟩ := second
  exact ⟨more ++ "." ++ rest, by simp only [String.append_assoc]⟩

/-- A path below another is longer. -/
theorem Below.length_lt {lower upper : String} (below : Below lower upper) :
    upper.length < lower.length := by
  obtain ⟨rest, rfl⟩ := below
  simp only [String.length_append]
  have dot : ".".length = 1 := by decide
  omega

/-- The paths above a tag are listed outermost first: each later one lies below it. -/
theorem pairwise_ancestorPaths (tag : Tag) :
    tag.ancestorPaths.Pairwise fun outer inner => Below inner outer := by
  induction tag using ascent.induct with
  | case1 tag top =>
    rw [ancestorPaths_of_none top]
    exact .nil
  | case2 tag parent above ih =>
    rw [ancestorPaths_of_parent above]
    refine List.pairwise_append.2 ⟨ih, List.pairwise_singleton _ _, ?_⟩
    intro outer member inner last
    obtain rfl := List.mem_singleton.1 last
    exact mem_ancestorPaths.1 member

/-- A tag has one segment more than its path has dots. -/
theorem depth_eq (tag : Tag) : tag.depth = tag.path.toList.count '.' + 1 := by
  rw [depth, tag.lineage_eq, ancestorPathsOf, List.length_map, List.length_map,
    length_dottedPrefixes]

/-- What is compared is the hash of a tag with those of the paths above another. -/
theorem isDescendantOf_iff_hash {tag other : Tag} : tag.isDescendantOf other = true ↔
    ∃ path ∈ tag.ancestorPaths, pathHash path = pathHash other.path := by
  have listed : tag.isDescendantOf other = true ↔ other.hash ∈ tag.lineage := by
    rw [isDescendantOf, List.any_beq']
    exact List.contains_iff_mem
  rw [listed, tag.lineage_eq, other.hash_eq, List.mem_map]
  rfl

/-- The paths of some tags and the paths above them. -/
def spelled (tags : Set Tag) : Set String :=
  {path | ∃ tag ∈ tags, path = tag.path ∨ path ∈ tag.ancestorPaths}

section Told

-- The hash tells the paths of some tags, and the paths above them, apart.
variable {tags : Set Tag} (told : Set.InjOn pathHash (spelled tags))
include told

/-- The strict ancestors of a tag are the tags that its path lies below. -/
theorem isDescendantOf_iff {tag other : Tag} (mine : tag ∈ tags) (known : other ∈ tags) :
    tag.isDescendantOf other = true ↔ Below tag.path other.path := by
  rw [isDescendantOf_iff_hash]
  constructor
  · rintro ⟨path, member, same⟩
    have equal := told ⟨tag, mine, .inr member⟩ ⟨other, known, .inl rfl⟩ same
    exact mem_ancestorPaths.1 (equal ▸ member)
  · intro below
    exact ⟨other.path, mem_ancestorPaths.2 below, rfl⟩

/-- A tag has the tags that it matches. -/
theorem hasTag_iff {tag other : Tag} (mine : tag ∈ tags) (known : other ∈ tags) :
    tag.hasTag other = true ↔ tag.Matches other := by
  have hashes : tag.hash = other.hash ↔ tag.path = other.path := by
    rw [tag.hash_eq, other.hash_eq]
    exact told.eq_iff ⟨tag, mine, .inl rfl⟩ ⟨other, known, .inl rfl⟩
  rw [hasTag, Bool.or_eq_true, beq_iff_eq, hashes, isDescendantOf_iff told mine known, Matches]

end Told

/-- Matching orders some tags by dotted prefixes. -/
structure PrefixOrder (tags : Set Tag) : Prop where
  /-- A tag has those whose path is its own, or is followed by a dot at the front of its own. -/
  hasTag : ∀ tag ∈ tags, ∀ other ∈ tags, (tag.hasTag other = true ↔ tag.Matches other)
  /-- It descends from those that it has and that do not have it. -/
  strict : ∀ tag ∈ tags, ∀ other ∈ tags,
    (tag.isDescendantOf other = true ↔ tag.hasTag other = true ∧ ¬ other.hasTag tag = true)
  /-- It has itself. -/
  refl : ∀ tag ∈ tags, tag.hasTag tag = true
  /-- Tags that have each other are the same. -/
  antisymm : ∀ tag ∈ tags, ∀ other ∈ tags,
    tag.hasTag other = true → other.hasTag tag = true → tag = other
  /-- It has what the tags that it has have. -/
  trans : ∀ lower ∈ tags, ∀ middle ∈ tags, ∀ upper ∈ tags,
    lower.hasTag middle = true → middle.hasTag upper = true → lower.hasTag upper = true

namespace Matches

variable {tag other lower middle upper : Tag}

/-- What matches a tag and lies above it too is the tag. -/
theorem antisymm (one : tag.Matches other) (back : other.Matches tag) : tag = other := by
  rcases one with same | below
  · exact ext_path same
  · rcases back with same | above
    · exact ext_path same.symm
    · exact absurd above.length_lt (Nat.lt_asymm below.length_lt)

/-- Matching what matches a tag is matching the tag. -/
theorem trans (first : lower.Matches middle) (second : middle.Matches upper) :
    lower.Matches upper := by
  unfold Matches at *
  rcases first with same | below
  · rwa [same]
  · rcases second with same | above
    · exact .inr (same ▸ below)
    · exact .inr (below.trans above)

/-- A path lies below another if its tag matches the other's, but not the other way round. -/
theorem below_iff : Below tag.path other.path ↔ tag.Matches other ∧ ¬ other.Matches tag := by
  constructor
  · intro below
    refine ⟨.inr below, fun back => ?_⟩
    obtain rfl := antisymm (.inr below) back
    exact Nat.lt_irrefl _ below.length_lt
  · rintro ⟨same | below, apart⟩
    · exact absurd (.inl same.symm) apart
    · exact below

end Matches

/-- Where the hash tells paths apart, matching is the order of dotted prefixes. -/
theorem prefixOrder {tags : Set Tag} (told : Set.InjOn pathHash (spelled tags)) :
    PrefixOrder tags where
  hasTag _ mine _ known := hasTag_iff told mine known
  strict _ mine _ known := by
    rw [isDescendantOf_iff told mine known, hasTag_iff told mine known, hasTag_iff told known mine]
    exact Matches.below_iff
  refl _ mine := (hasTag_iff told mine mine).2 (.inl rfl)
  antisymm _ mine _ known one back :=
    ((hasTag_iff told mine known).1 one).antisymm ((hasTag_iff told known mine).1 back)
  trans _ low _ middle _ high first second :=
    (hasTag_iff told low high).2
      (((hasTag_iff told low middle).1 first).trans ((hasTag_iff told middle high).1 second))

/-- What a tag says of the paths above it. -/
structure Climbs (tag : Tag) : Prop where
  /-- They are those that its path is, but for a dot and a rest. -/
  prefixes : ∀ path, path ∈ tag.ancestorPaths ↔ Below tag.path path
  /-- They are listed outermost first. -/
  outermost : tag.ancestorPaths.Pairwise fun outer inner => Below inner outer
  /-- They are the paths that are met from parent to parent, in reverse. -/
  parents : tag.ancestorPaths = (tag.ascent.map (·.path)).reverse
  /-- The depth counts the dots, and one. -/
  depth : tag.depth = tag.path.toList.count '.' + 1

/-- The paths above a tag are its strict dotted prefixes, and its parents. -/
theorem climbs (tag : Tag) : tag.Climbs :=
  ⟨fun _ => mem_ancestorPaths, pairwise_ancestorPaths tag, ancestorPaths_eq_ascent tag,
    depth_eq tag⟩

/-- Queries after some tags are answered by those that are held: all that is asked for is matched,
or some of it. -/
structure Answers (tags : Set Tag) (held : List Tag) (hasAll hasAny : TagSet → Bool) : Prop where
  /-- Whether each tag of a query is matched by one that is held. -/
  all : ∀ query : TagSet, (∀ wanted ∈ query.tags, wanted ∈ tags) →
    (hasAll query = true ↔ ∀ wanted ∈ query.tags, ∃ tag ∈ held, tag.Matches wanted)
  /-- Whether some tag of a query is matched by one that is held. -/
  any : ∀ query : TagSet, (∀ wanted ∈ query.tags, wanted ∈ tags) →
    (hasAny query = true ↔ ∃ wanted ∈ query.tags, ∃ tag ∈ held, tag.Matches wanted)

/-- Asking one held tag after the other answers a query. -/
theorem answers {tags : Set Tag} (told : Set.InjOn pathHash (spelled tags)) {held : List Tag}
    (mine : ∀ tag ∈ held, tag ∈ tags) :
    Answers tags held (fun query => query.tags.all fun wanted => held.any (·.hasTag wanted))
      (fun query => query.tags.any fun wanted => held.any (·.hasTag wanted)) := by
  have matched {wanted : Tag} (known : wanted ∈ tags) :
      held.any (·.hasTag wanted) = true ↔ ∃ tag ∈ held, tag.Matches wanted := by
    rw [List.any_eq_true]
    exact exists_congr fun tag => and_congr_right fun member =>
      hasTag_iff told (mine tag member) known
  constructor
  · intro query known
    rw [List.all_eq_true]
    exact forall₂_congr fun wanted member => matched (known wanted member)
  · intro query known
    rw [List.any_eq_true]
    exact exists_congr fun wanted => and_congr_right fun member => matched (known wanted member)

end Tag

/-- If the hash tells the paths of some tags, and the paths above them, apart, then matching orders
the tags by dotted prefixes, and held tags and tag sets answer queries by that order. Whatever the
hash, the paths above a tag are its strict dotted prefixes, outermost first. -/
theorem matching_is_prefix_order {tags : Set Tag}
    (told : Set.InjOn Tag.pathHash (Tag.spelled tags)) :
    Tag.PrefixOrder tags ∧ (∀ tag : Tag, tag.Climbs) ∧
      (∀ counts : TagCounts, (∀ held ∈ counts.tags, held ∈ tags) →
        Tag.Answers tags counts.tags counts.hasAll counts.hasAny) ∧
      ∀ set : TagSet, (∀ held ∈ set.tags, held ∈ tags) →
        Tag.Answers tags set.tags set.hasAll set.hasAny := by
  refine ⟨Tag.prefixOrder told, Tag.climbs, fun counts mine => ?_, fun set mine => ?_⟩
  · have asked (wanted : Tag) : counts.hasTag wanted = counts.tags.any (·.hasTag wanted) := by
      rw [TagCounts.tags, List.any_map]
      rfl
    have answers := Tag.answers told mine
    simp only [← asked] at answers
    exact answers
  · exact Tag.answers told mine

/-- Paths with empty segments and other letters, and the paths above them. -/
def crookedPaths : List String := ["", ".", "A", "A.", "A..B", "Ä", "Ä.ß"]

/-- The tags of these paths. -/
def crooked : Set Tag := {tag | tag.path ∈ crookedPaths}

/-- The tag of two letters with an empty segment in between has the tag before its last dot, which
is held. -/
theorem crooked_match : Set.InjOn Tag.pathHash (Tag.spelled crooked) ∧
    Tag.PrefixOrder crooked ∧
    Tag.Answers crooked [.ofPath "A..B", .ofPath "Ä.ß"]
      (TagSet.ofPaths ["A..B", "Ä.ß"]).hasAll (TagSet.ofPaths ["A..B", "Ä.ß"]).hasAny ∧
    (Tag.ofPath "A..B").hasTag (.ofPath "A.") = true ∧
    (Tag.ofPath "A..B").hasTag (.ofPath "") = false ∧
    (Tag.ofPath "A..B").ancestorPaths = ["A", "A."] := by
  have closed : Tag.spelled crooked ⊆ {path | path ∈ crookedPaths} := by
    rintro path ⟨tag, mine, rfl | above⟩
    · exact mine
    · have all : ∀ lower ∈ crookedPaths, ∀ upper ∈ Tag.ancestorPathsOf lower,
          upper ∈ crookedPaths := by decide +kernel
      exact all tag.path mine path above
  have distinct : (crookedPaths.map Tag.pathHash).Nodup := by decide +kernel
  have told : Set.InjOn Tag.pathHash (Tag.spelled crooked) := fun one first other second same =>
    List.inj_on_of_nodup_map distinct (closed first) (closed second) same
  obtain ⟨order, -, -, sets⟩ := matching_is_prefix_order told
  refine ⟨told, order, ?_, by decide +kernel, by decide +kernel, by decide +kernel⟩
  have known : ∀ tag ∈ (TagSet.ofPaths ["A..B", "Ä.ß"]).tags, tag.path ∈ crookedPaths := by
    decide +kernel
  exact sets (.ofPaths ["A..B", "Ä.ß"]) known

end SkillEngine
