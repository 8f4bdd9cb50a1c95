import SkillEngine.Dict
import SkillEngine.Proofs.Moves

/-!
# A list beside a map of counts

A container of tags keeps two things apart: the list of the tags, which is what queries go through,
and a map of their counts. `TagCounts` has both in one, a list with a count at each tag. The moves
keep the two in step (`TagLedger.InStep`): a tag is listed, once, if and only if the map has a
count for it, and that is positive. A ledger that shows some held tags goes on to show what moves
make of them (`TagLedger.Shows.play`), and it answers as they do (`TagLedger.Answers`).
-/

namespace SkillEngine

namespace TagCounts

variable {counts : TagCounts} {tag : Tag}

/-- How often a tag is held, if it is. -/
def times? (counts : TagCounts) (tag : Tag) : Option Nat :=
  if counts.hasExact tag then some (counts.count tag) else none

/-- A tag that is not held counts nothing. -/
theorem getD_times? (counts : TagCounts) (tag : Tag) :
    (counts.times? tag).getD 0 = counts.count tag := by
  rw [times?]
  split
  · rfl
  · next absent => exact (count_eq_zero (Bool.eq_false_iff.2 absent)).symm

/-- A tag is held if it is held some times. -/
theorem isSome_times? (counts : TagCounts) (tag : Tag) :
    (counts.times? tag).isSome = counts.hasExact tag := by
  rw [times?]
  cases counts.hasExact tag <;> rfl

/-- A tag that counts is held that often. -/
theorem times?_of_count (held : 0 < counts.count tag) :
    counts.times? tag = some (counts.count tag) :=
  if_pos (hasExact_of_count held)

/-- A tag that is given is held once more. -/
theorem times?_add (counts : TagCounts) (tag other : Tag) : (counts.add tag).2.times? other =
    if tag.hash = other.hash then some (counts.count tag + 1) else counts.times? other := by
  rw [times?, times?, hasExact_add, count_add]
  by_cases same : tag.hash = other.hash
  · simp [same, count_congr same]
  · simp [same]

/-- A tag that counts once is not held when it has been taken. -/
theorem times?_remove_of_once (once : counts.count tag = 1) (other : Tag) :
    (counts.remove tag).2.times? other =
      if tag.hash = other.hash then none else counts.times? other := by
  have count := counts.count_remove tag other
  simp only [remove, once] at count ⊢
  rw [times?, times?, hasExact_filter, count]
  by_cases same : tag.hash = other.hash
  · simp [same]
  · simp [same]

/-- A tag that counts several times is held once less when it has been taken. -/
theorem times?_remove_of_several (several : 1 < counts.count tag) (other : Tag) :
    (counts.remove tag).2.times? other =
      if tag.hash = other.hash then some (counts.count tag - 1) else counts.times? other := by
  have count := counts.count_remove tag other
  have listed : counts.hasExact tag = true := hasExact_of_count (Nat.zero_lt_of_lt several)
  obtain ⟨rest, times⟩ : ∃ rest, counts.count tag = rest + 2 := Nat.exists_eq_add_of_le' several
  simp only [remove, times] at count ⊢
  rw [times?, times?, counts.hasExact_recount tag (· - 1), count]
  by_cases same : tag.hash = other.hash
  · simp [same, ← count_congr same, times, hasExact_of_hash same ▸ listed]
  · simp [same]

end TagCounts

/-- Held tags as a list beside a map. -/
structure TagLedger where
  /-- The tags, in the order in which they appeared. -/
  tags : List Tag
  /-- How often each is held, by its hash. -/
  counts : Dict UInt64 Nat

namespace TagLedger

/-- Nothing held. -/
def empty : TagLedger := ⟨[], .empty⟩

/-- How often a tag is held; one that the map does not have is not. -/
def count (ledger : TagLedger) (tag : Tag) : Nat := (ledger.counts.get? tag.hash).getD 0

/-- The map has the tag. -/
def hasExact (ledger : TagLedger) (tag : Tag) : Bool := ledger.counts.contains tag.hash

/-- A listed tag is the tag or a descendant of it. -/
def hasTag (ledger : TagLedger) (tag : Tag) : Bool := ledger.tags.any (·.hasTag tag)

/-- Counts a tag once more, lists it if that is the first time, and tells whether it was. -/
def add (ledger : TagLedger) (tag : Tag) : Bool × TagLedger :=
  let count := ledger.count tag + 1
  let counts := ledger.counts.insert tag.hash count
  if count = 1 then (true, ⟨ledger.tags ++ [tag], counts⟩) else (false, ⟨ledger.tags, counts⟩)

/-- Counts a tag once less if the map has it, strikes it out if nothing is left, and tells whether
that was so. -/
def remove (ledger : TagLedger) (tag : Tag) : Bool × TagLedger :=
  match ledger.counts.get? tag.hash with
  | none => (false, ledger)
  | some count =>
    if 0 < count - 1 then
      (false, ⟨ledger.tags, ledger.counts.insert tag.hash (count - 1)⟩)
    else (true, ⟨ledger.tags.filter (·.hash != tag.hash), ledger.counts.erase tag.hash⟩)

/-- Makes a move, and tells whether the tag appeared or disappeared. -/
def perform (ledger : TagLedger) : TagMove → Bool × TagLedger
  | .give tag => ledger.add tag
  | .take tag => ledger.remove tag

/-- Makes some moves in turn, and lists those by which a tag appeared or disappeared. -/
def play (ledger : TagLedger) : List TagMove → List TagMove × TagLedger
  | [] => ([], ledger)
  | move :: rest =>
    let (turned, ledger) := ledger.perform move
    let (others, ledger) := ledger.play rest
    (if turned then move :: others else others, ledger)

/-- Some moves and others behind them leave what the others leave of what the first left. -/
theorem play_append (ledger : TagLedger) (moves more : List TagMove) :
    (ledger.play (moves ++ more)).2 = ((ledger.play moves).2.play more).2 := by
  induction moves generalizing ledger with
  | nil => rfl
  | cons move rest ih => exact ih (ledger.perform move).2

/-- The list and the map agree on what is held. -/
structure InStep (ledger : TagLedger) : Prop where
  /-- No tag is listed twice. -/
  distinct : Tag.Distinct ledger.tags
  /-- The tags that the map has are listed, and no others. -/
  listed : ∀ tag, (∃ held ∈ ledger.tags, held.hash = tag.hash) ↔ ledger.hasExact tag = true
  /-- What the map has is positive. -/
  positive : ∀ tag, ledger.hasExact tag = true → 0 < ledger.count tag

/-- A ledger answers as some held tags do. -/
structure Answers (ledger : TagLedger) (held : TagCounts) : Prop where
  /-- The same tags are listed, in the same order. -/
  tags : ledger.tags = held.tags
  /-- Every tag counts as often. -/
  count : ∀ tag, ledger.count tag = held.count tag
  /-- The same tags are held exactly. -/
  hasExact : ∀ tag, ledger.hasExact tag = held.hasExact tag
  /-- The same tags are matched. -/
  hasTag : ∀ tag, ledger.hasTag tag = held.hasTag tag
  /-- Whatever moves come next, the same ones make a tag appear or disappear. -/
  moves : ∀ moves, (ledger.play moves).1 = (held.play moves).1

/-- The list and the map are those of some held tags. -/
structure Shows (ledger : TagLedger) (held : TagCounts) : Prop where
  /-- The list has the held tags in their order. -/
  tags : ledger.tags = held.tags
  /-- The map has the counts of the held tags, and no others. -/
  counts : ∀ tag, ledger.counts.get? tag.hash = held.times? tag
  /-- None of them is zero. -/
  positive : ∀ tag, held.times? tag ≠ some 0

namespace Shows

variable {ledger : TagLedger} {held after : TagCounts} {tag : Tag}

/-- An empty ledger shows that nothing is held. -/
theorem start (none : held.held = []) : empty.Shows held := by
  obtain ⟨entries, listeners⟩ := held
  obtain rfl : entries = [] := none
  exact ⟨rfl, fun _ => rfl, nofun⟩

/-- What a ledger shows is up to the entries. -/
theorem of_held (shows : ledger.Shows held) (same : after.held = held.held) :
    ledger.Shows after := by
  obtain ⟨entries, listeners⟩ := after
  obtain rfl : entries = held.held := same
  exact ⟨shows.tags, shows.counts, shows.positive⟩

/-- A ledger counts the tags that it shows. -/
theorem count (shows : ledger.Shows held) (tag : Tag) : ledger.count tag = held.count tag := by
  rw [TagLedger.count, shows.counts, TagCounts.getD_times?]

/-- A ledger has the tags that it shows. -/
theorem hasExact (shows : ledger.Shows held) (tag : Tag) :
    ledger.hasExact tag = held.hasExact tag := by
  rw [TagLedger.hasExact, Dict.contains, shows.counts, TagCounts.isSome_times?]

/-- A tag that is held counts. -/
theorem count_pos (shows : ledger.Shows held) (listed : held.hasExact tag = true) :
    0 < held.count tag := by
  refine Nat.pos_of_ne_zero fun none => shows.positive tag ?_
  rw [TagCounts.times?, if_pos listed, none]

/-- A ledger is in step if no tag that it shows is listed twice. -/
theorem inStep (shows : ledger.Shows held) (distinct : Tag.Distinct held.tags) :
    ledger.InStep where
  distinct := shows.tags ▸ distinct
  listed tag := by rw [shows.tags, shows.hasExact, TagCounts.hasExact_iff]
  positive tag := by
    rw [shows.hasExact, shows.count]
    exact shows.count_pos

/-- If one tag is held otherwise now, on both sides, and all others as before, a ledger goes on to
show what is held. -/
theorem change (shows : ledger.Shows held) {next : TagLedger} {times : Option Nat}
    (tags : next.tags = after.tags) (proper : times ≠ some 0)
    (here : ∀ other : Tag, next.counts.get? other.hash =
      if other.hash = tag.hash then times else ledger.counts.get? other.hash)
    (there : ∀ other, after.times? other =
      if tag.hash = other.hash then times else held.times? other) : next.Shows after where
  tags := tags
  counts other := by
    rw [here, there, shows.counts]
    simp only [eq_comm]
  positive other := by
    rw [there]
    split
    · exact proper
    · exact shows.positive other

/-- Giving a tag tells the same and shows what is held then. -/
theorem add (shows : ledger.Shows held) (tag : Tag) :
    (ledger.add tag).1 = (held.add tag).1 ∧ (ledger.add tag).2.Shows (held.add tag).2 := by
  have step : (ledger.add tag).1 = (held.add tag).1 ∧
      (ledger.add tag).2.tags = (held.add tag).2.tags ∧
      (ledger.add tag).2.counts = ledger.counts.insert tag.hash (held.count tag + 1) := by
    rw [TagLedger.add, TagCounts.add, shows.count]
    cases listed : held.hasExact tag with
    | false =>
      rw [TagCounts.count_eq_zero listed, if_pos rfl, if_neg Bool.false_ne_true, shows.tags]
      exact ⟨rfl, (held.tags_concat tag).symm, rfl⟩
    | true =>
      have several : held.count tag + 1 ≠ 1 := by
        have some := shows.count_pos listed
        omega
      rw [if_neg several, if_pos rfl, shows.tags]
      exact ⟨rfl, (TagCounts.tags_recount held.held tag (· + 1)).symm, rfl⟩
  obtain ⟨told, tags, counts⟩ := step
  refine ⟨told, shows.change tags (by simp) (fun other => ?_) (held.times?_add tag)⟩
  rw [counts, Dict.get?_insert]

/-- Taking a tag that is not held tells nothing, and what is held stays so. -/
theorem remove_of_none (shows : ledger.Shows held) (none : held.count tag = 0) :
    ledger.remove tag = (false, ledger) ∧ held.remove tag = (false, held) := by
  have absent : held.hasExact tag = false := by
    refine Bool.eq_false_iff.2 fun listed => ?_
    have some := shows.count_pos listed
    omega
  have kept := shows.counts tag
  rw [TagCounts.times?, absent, if_neg Bool.false_ne_true] at kept
  simp only [TagLedger.remove, kept, TagCounts.remove, none, and_self]

/-- Taking the last of a tag tells that and shows what is held then. -/
theorem remove_of_once (shows : ledger.Shows held) (once : held.count tag = 1) :
    (ledger.remove tag).1 = (held.remove tag).1 ∧
      (ledger.remove tag).2.Shows (held.remove tag).2 := by
  have remain := TagCounts.times?_remove_of_once once
  have kept : ledger.counts.get? tag.hash = some 1 := by
    rw [shows.counts, TagCounts.times?_of_count (by omega), once]
  simp only [TagLedger.remove, kept, TagCounts.remove, once, Nat.sub_self,
    if_neg (Nat.lt_irrefl 0)] at remain ⊢
  refine ⟨trivial, shows.change ?_ (by simp) (fun other => Dict.get?_erase _ _ _) remain⟩
  rw [shows.tags, TagCounts.tags_filter]

/-- Taking one of several of a tag tells nothing and shows what is held then. -/
theorem remove_of_several (shows : ledger.Shows held) (several : 1 < held.count tag) :
    (ledger.remove tag).1 = (held.remove tag).1 ∧
      (ledger.remove tag).2.Shows (held.remove tag).2 := by
  have remain := TagCounts.times?_remove_of_several several
  obtain ⟨rest, times⟩ : ∃ rest, held.count tag = rest + 2 := Nat.exists_eq_add_of_le' several
  have kept : ledger.counts.get? tag.hash = some (rest + 2) := by
    rw [shows.counts, TagCounts.times?_of_count (by omega), times]
  have left : 0 < rest + 2 - 1 := by omega
  simp only [TagLedger.remove, kept, TagCounts.remove, times, if_pos left] at remain ⊢
  refine ⟨trivial, shows.change ?_ (by simp) (fun other => Dict.get?_insert _ _ _ _) remain⟩
  rw [shows.tags]
  exact (TagCounts.tags_recount held.held tag (· - 1)).symm

/-- Taking a tag tells the same and shows what is held then. -/
theorem remove (shows : ledger.Shows held) (tag : Tag) :
    (ledger.remove tag).1 = (held.remove tag).1 ∧
      (ledger.remove tag).2.Shows (held.remove tag).2 := by
  rcases Nat.lt_trichotomy (held.count tag) 1 with none | once | several
  · obtain ⟨here, there⟩ := shows.remove_of_none (Nat.lt_one_iff.1 none)
    rw [here, there]
    exact ⟨rfl, shows⟩
  · exact shows.remove_of_once once
  · exact shows.remove_of_several several

/-- A move tells the same and shows what is held then. -/
theorem perform (shows : ledger.Shows held) (move : TagMove) :
    (ledger.perform move).1 = (move.perform held).1 ∧
      (ledger.perform move).2.Shows (move.perform held).2 := by
  cases move with
  | give tag => exact shows.add tag
  | take tag => exact shows.remove tag

/-- Moves tell the same and show what is held then. -/
theorem play (shows : ledger.Shows held) (moves : List TagMove) :
    (ledger.play moves).1 = (held.play moves).1 ∧
      (ledger.play moves).2.Shows (held.play moves).2 := by
  induction moves generalizing ledger held with
  | nil => exact ⟨rfl, shows⟩
  | cons move rest ih =>
    obtain ⟨answer, onward⟩ := shows.perform move
    obtain ⟨others, last⟩ := ih onward
    refine ⟨?_, last⟩
    simp only [TagLedger.play, TagCounts.play, answer, others]

/-- A ledger answers as the tags that it shows. -/
theorem answers (shows : ledger.Shows held) : ledger.Answers held where
  tags := shows.tags
  count := shows.count
  hasExact := shows.hasExact
  hasTag tag := by
    rw [TagLedger.hasTag, shows.tags, TagCounts.tags, List.any_map]
    rfl
  moves moves := (shows.play moves).1

end Shows

end TagLedger

end SkillEngine
