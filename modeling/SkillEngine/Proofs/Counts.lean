import SkillEngine.Proofs.Tags

/-!
# Counting held tags

What a request to held tags does to the count of a tag: it gives the tag some times and takes it
some times, and a tag that is not held stays so when it is taken.
-/

namespace SkillEngine

namespace TagSet

/-- A set lists a member once. -/
theorem countP_tags (set : TagSet) (tag : Tag) :
    set.tags.countP (·.hash == tag.hash) = if set.contains tag then 1 else 0 := by
  have once (tags : List Tag) (distinct : Tag.Distinct tags) :
      tags.countP (·.hash == tag.hash) = if tags.any (·.hash == tag.hash) then 1 else 0 := by
    induction tags with
    | nil => rfl
    | cons first rest ih =>
      obtain ⟨apart, others⟩ := List.pairwise_cons.1 distinct
      by_cases same : first.hash = tag.hash
      · have absent : rest.countP (·.hash == tag.hash) = 0 := by
          refine List.countP_eq_zero.2 fun other member equal => ?_
          exact apart other member (same.trans (beq_iff_eq.1 equal).symm)
        rw [List.countP_cons_of_pos (by simpa using same), absent]
        simp [same]
      · have differs : (first.hash == tag.hash) = false := beq_eq_false_iff_ne.2 same
        rw [List.countP_cons_of_neg (by simpa using same), ih others, List.any_cons, differs,
          Bool.false_or]
  exact once set.tags set.distinct

end TagSet

namespace TagCounts

variable {counts : TagCounts}

/-- The count that some entries give a hash: that of the first one with the hash. -/
def countIn (hash : UInt64) : List (Tag × Nat) → Nat
  | [] => 0
  | entry :: rest => if entry.1.hash = hash then entry.2 else countIn hash rest

/-- How often a tag is held is what the entries say. -/
theorem count_eq (counts : TagCounts) (tag : Tag) :
    counts.count tag = countIn tag.hash counts.held := by
  unfold count
  induction counts.held with
  | nil => rfl
  | cons entry rest ih =>
    by_cases same : entry.1.hash = tag.hash
    · simp [countIn, same]
    · simpa [countIn, same] using ih

/-- A hash without an entry counts nothing. -/
theorem countIn_eq_zero {hash : UInt64} {held : List (Tag × Nat)}
    (absent : ∀ entry ∈ held, entry.1.hash ≠ hash) : countIn hash held = 0 := by
  induction held with
  | nil => rfl
  | cons entry rest ih =>
    rw [countIn, if_neg (absent entry List.mem_cons_self)]
    exact ih fun other member => absent other (List.mem_cons_of_mem _ member)

/-- Counting one hash anew changes the count of no other. -/
theorem countIn_recount_of_ne {hash other : UInt64} (differs : other ≠ hash)
    (held : List (Tag × Nat)) (recount : Nat → Nat) :
    countIn other (held.map fun entry =>
      if entry.1.hash == hash then (entry.1, recount entry.2) else entry) =
      countIn other held := by
  induction held with
  | nil => rfl
  | cons entry rest ih =>
    rw [List.map_cons, countIn, countIn, ih]
    by_cases here : entry.1.hash = hash
    · have apart : hash ≠ other := fun equal => differs equal.symm
      simp [here, apart]
    · simp [here]

/-- Counting a hash anew changes its count, if it has an entry. -/
theorem countIn_recount_self {hash : UInt64} {held : List (Tag × Nat)}
    (listed : held.any (·.1.hash == hash) = true) (recount : Nat → Nat) :
    countIn hash (held.map fun entry =>
      if entry.1.hash == hash then (entry.1, recount entry.2) else entry) =
      recount (countIn hash held) := by
  induction held with
  | nil => cases listed
  | cons entry rest ih =>
    rw [List.map_cons, countIn, countIn]
    by_cases here : entry.1.hash = hash
    · simp [here]
    · have later : rest.any (·.1.hash == hash) = true := by simpa [here] using listed
      simp only [beq_iff_eq] at ih
      simp [here, ih later]

/-- Entries without one hash count the others as before. -/
theorem countIn_filter {hash other : UInt64} (differs : other ≠ hash) (held : List (Tag × Nat)) :
    countIn other (held.filter fun entry => entry.1.hash != hash) = countIn other held := by
  induction held with
  | nil => rfl
  | cons entry rest ih =>
    by_cases here : entry.1.hash = hash
    · have apart : hash ≠ other := fun equal => differs equal.symm
      rw [List.filter_cons_of_neg (by simpa using here), ih, countIn, here, if_neg apart]
    · rw [List.filter_cons_of_pos (by simpa using here), countIn, countIn, ih]

/-- A tag without an entry is not held. -/
theorem count_eq_zero {tag : Tag} (absent : counts.hasExact tag = false) :
    counts.count tag = 0 := by
  rw [count_eq]
  exact countIn_eq_zero fun entry member => by simpa using List.any_eq_false.1 absent entry member

/-- A held tag has an entry. -/
theorem hasExact_of_count {tag : Tag} (held : 0 < counts.count tag) :
    counts.hasExact tag = true := by
  cases absent : counts.hasExact tag with
  | true => rfl
  | false =>
    rw [count_eq_zero absent] at held
    exact absurd held (Nat.lt_irrefl 0)

/-- A new entry of another hash changes no count. -/
theorem countIn_concat_of_ne {hash : UInt64} {entry : Tag × Nat} (differs : entry.1.hash ≠ hash)
    (held : List (Tag × Nat)) : countIn hash (held ++ [entry]) = countIn hash held := by
  induction held with
  | nil => exact if_neg differs
  | cons first rest ih => rw [List.cons_append, countIn, countIn, ih]

/-- A new entry of a hash that had none is what the hash counts. -/
theorem countIn_concat_self {entry : Tag × Nat} {held : List (Tag × Nat)}
    (absent : ∀ other ∈ held, other.1.hash ≠ entry.1.hash) :
    countIn entry.1.hash (held ++ [entry]) = entry.2 := by
  induction held with
  | nil => exact if_pos rfl
  | cons first rest ih =>
    rw [List.cons_append, countIn, if_neg (absent first List.mem_cons_self)]
    exact ih fun other member => absent other (List.mem_cons_of_mem _ member)

/-- Giving a tag counts it once more. -/
theorem count_add (counts : TagCounts) (tag other : Tag) :
    (counts.add tag).2.count other =
      counts.count other + if tag.hash == other.hash then 1 else 0 := by
  rw [count_eq, count_eq]
  unfold add
  by_cases same : other.hash = tag.hash
  · have once : (if tag.hash == other.hash then 1 else 0) = 1 := by simp [same]
    rw [once, same]
    cases listed : counts.hasExact tag with
    | true =>
      rw [if_pos rfl]
      exact countIn_recount_self listed (· + 1)
    | false =>
      have absent : ∀ entry ∈ counts.held, entry.1.hash ≠ tag.hash :=
        fun entry member => by simpa using List.any_eq_false.1 listed entry member
      rw [if_neg Bool.false_ne_true, countIn_eq_zero absent]
      exact @countIn_concat_self (tag, 1) counts.held absent
  · have apart : tag.hash ≠ other.hash := fun equal => same equal.symm
    have never : (if tag.hash == other.hash then 1 else 0) = 0 := by simp [apart]
    rw [never, Nat.add_zero]
    split
    · exact countIn_recount_of_ne same counts.held (· + 1)
    · exact countIn_concat_of_ne apart counts.held

/-- Taking a tag counts it once less, if it is held. -/
theorem count_remove (counts : TagCounts) (tag other : Tag) :
    (counts.remove tag).2.count other =
      counts.count other - if tag.hash == other.hash then 1 else 0 := by
  by_cases same : other.hash = tag.hash
  · have once : (if tag.hash == other.hash then 1 else 0) = 1 := by simp [same]
    have equal : counts.count other = counts.count tag := by rw [count_eq, count_eq, same]
    rw [once, equal, count_eq, same]
    unfold remove
    split
    · next none => rw [← count_eq, none]
    · next one =>
      rw [one]
      exact countIn_eq_zero fun entry member => by simpa using (List.mem_filter.1 member).2
    · next several _ =>
      have listed := hasExact_of_count (Nat.pos_of_ne_zero several)
      rw [count_eq]
      exact countIn_recount_self listed (· - 1)
  · have apart : tag.hash ≠ other.hash := fun equal => same equal.symm
    have never : (if tag.hash == other.hash then 1 else 0) = 0 := by simp [apart]
    rw [never, Nat.sub_zero, count_eq, count_eq]
    unfold remove
    split
    · rfl
    · exact countIn_filter same counts.held
    · exact countIn_recount_of_ne same counts.held (· - 1)

/-- Giving some tags counts each as often as it is listed. -/
theorem count_addEach (counts : TagCounts) (tags : List Tag) (tag : Tag) :
    (counts.addEach tags).2.count tag =
      counts.count tag + tags.countP (·.hash == tag.hash) := by
  induction tags generalizing counts with
  | nil => rfl
  | cons first rest ih =>
    have onward := ih (counts.add first).2
    rw [count_add] at onward
    rw [List.countP_cons]
    show (((counts.add first).2.addEach rest).2.count tag) = _
    omega

/-- Taking some tags counts each less by as often as it is listed. -/
theorem count_removeEach (counts : TagCounts) (tags : List Tag) (tag : Tag) :
    (counts.removeEach tags).2.count tag =
      counts.count tag - tags.countP (·.hash == tag.hash) := by
  induction tags generalizing counts with
  | nil => rfl
  | cons first rest ih =>
    have onward := ih (counts.remove first).2
    rw [count_remove] at onward
    rw [List.countP_cons]
    show (((counts.remove first).2.removeEach rest).2.count tag) = _
    omega

end TagCounts

namespace TagRequest

/-- How often a request gives a tag. -/
def gives (tag : Tag) : TagRequest → Nat
  | .add other => if other.hash == tag.hash then 1 else 0
  | .addAll tags => tags.tags.countP (·.hash == tag.hash)
  | _ => 0

/-- How often a request takes a tag that is held some times; dropping everything takes it that
often. -/
def takes (tag : Tag) (held : Nat) : TagRequest → Nat
  | .remove other => if other.hash == tag.hash then 1 else 0
  | .removeAll tags => tags.tags.countP (·.hash == tag.hash)
  | .clear => held
  | _ => 0

/-- A request counts a tag as often more as it gives it, or as often less as it takes it. -/
theorem count_perform (counts : TagCounts) (request : TagRequest) (tag : Tag) :
    (request.perform counts).state.count tag =
      counts.count tag + request.gives tag - request.takes tag (counts.count tag) := by
  cases request with
  | add other => exact TagCounts.count_add counts other tag
  | remove other => exact TagCounts.count_remove counts other tag
  | addAll tags => exact TagCounts.count_addEach counts tags.tags tag
  | removeAll tags => exact TagCounts.count_removeEach counts tags.tags tag
  | clear => exact (Nat.sub_self (counts.count tag)).symm
  | _ => rfl

end TagRequest

end SkillEngine
