import SkillEngine.Proofs.Counts

/-!
# Moves on held tags

Requests to held tags come down to *moves*, each of which gives one tag once more or takes it once.
The count of a tag is the tally of the moves; a move by which it rises from nothing makes it appear
at the end of the list, one by which it sinks to nothing takes it out, and any other leaves the list
alone (`TagMove.perform_cases`). What a call answers is which tags it made appear or disappear
(`TagCounts.tellsFlips`): a set has no tag twice, so what is true of one move after another is true
of the call.
-/

namespace SkillEngine

/-- A tag is given once more, or taken once. -/
inductive TagMove where
  /-- The tag is given. -/
  | give (tag : Tag)
  /-- The tag is taken. -/
  | take (tag : Tag)

namespace TagMove

/-- The tag that is given or taken. -/
def tag : TagMove → Tag
  | give tag | take tag => tag

/-- How often a tag counts after a move, if it counted some times before: once more if an equal tag
is given, and once less, but not less than never, if one is taken. -/
def tally (tag : Tag) (held : Nat) : TagMove → Nat
  | give other => if other.hash == tag.hash then held + 1 else held
  | take other => if other.hash == tag.hash then held - 1 else held

/-- How often a tag counts after some moves. -/
def tallied (tag : Tag) (moves : List TagMove) : Nat := moves.foldl (tally tag) 0

/-- Makes a move, and tells whether the tag appeared or disappeared. -/
def perform (counts : TagCounts) : TagMove → Bool × TagCounts
  | give tag => counts.add tag
  | take tag => counts.remove tag

/-- What there is to tell of a move by which its tag appears or disappears. -/
def event : TagMove → TagEvent
  | give tag => .added tag
  | take tag => .removed tag

/-- The move at a place raises the count of a tag from nothing. -/
structure Rises (moves : List TagMove) (tag : Tag) (place : Nat) : Prop where
  /-- The tag did not count before. -/
  before : tallied tag (moves.take place) = 0
  /-- It counts once afterwards. -/
  after : tallied tag (moves.take (place + 1)) = 1

/-- The move at a place is the last one to raise the count of a tag from nothing. -/
structure LastRise (moves : List TagMove) (tag : Tag) (place : Nat) : Prop where
  /-- It does so. -/
  rises : Rises moves tag place
  /-- No later one does. -/
  last : ∀ other, Rises moves tag other → other ≤ place

/-- One more move. -/
theorem tallied_concat (tag : Tag) (moves : List TagMove) (move : TagMove) :
    tallied tag (moves ++ [move]) = move.tally tag (tallied tag moves) := by
  rw [tallied, List.foldl_append]
  rfl

variable {moves : List TagMove} {tag : Tag} {place : Nat}

/-- There is a move at the place. -/
theorem Rises.lt_length (rises : Rises moves tag place) : place < moves.length := by
  refine Nat.lt_of_not_le fun beyond => ?_
  have none := rises.before
  have one := rises.after
  rw [List.take_of_length_le beyond] at none
  rw [List.take_of_length_le (Nat.le_succ_of_le beyond), none] at one
  cases one

/-- Moves raise what they raised, whatever comes after them. -/
theorem rises_concat_of_lt (within : place < moves.length) (move : TagMove) :
    Rises (moves ++ [move]) tag place ↔ Rises moves tag place := by
  have before : (moves ++ [move]).take place = moves.take place :=
    List.take_append_of_le_length (Nat.le_of_lt within)
  have after : (moves ++ [move]).take (place + 1) = moves.take (place + 1) :=
    List.take_append_of_le_length within
  constructor
  · intro rises
    exact ⟨before ▸ rises.before, after ▸ rises.after⟩
  · intro rises
    exact ⟨before.symm ▸ rises.before, after.symm ▸ rises.after⟩

/-- A move does not raise a tag that counts. -/
theorem rises_concat_of_held (held : 0 < tallied tag moves) (move : TagMove) :
    Rises (moves ++ [move]) tag place ↔ Rises moves tag place := by
  by_cases within : place < moves.length
  · exact rises_concat_of_lt within move
  · constructor
    · intro rises
      have bound := rises.lt_length
      rw [List.length_append, List.length_singleton] at bound
      have here : place = moves.length := by omega
      have none := rises.before
      rw [here, List.take_left' rfl] at none
      omega
    · intro rises
      exact absurd rises.lt_length within

/-- The last rise of a tag that counts is not changed by one more move. -/
theorem lastRise_concat_of_held (held : 0 < tallied tag moves) (move : TagMove) :
    LastRise (moves ++ [move]) tag place ↔ LastRise moves tag place := by
  constructor
  · intro rise
    refine ⟨(rises_concat_of_held held move).1 rise.rises, fun other rises => ?_⟩
    exact rise.last other ((rises_concat_of_held held move).2 rises)
  · intro rise
    refine ⟨(rises_concat_of_held held move).2 rise.rises, fun other rises => ?_⟩
    exact rise.last other ((rises_concat_of_held held move).1 rises)

/-- The move that raises a tag from nothing is the last to do so. -/
theorem lastRise_concat_of_rise {move : TagMove} (none : tallied tag moves = 0)
    (once : tallied tag (moves ++ [move]) = 1) : LastRise (moves ++ [move]) tag moves.length := by
  refine ⟨⟨?_, ?_⟩, fun other rises => ?_⟩
  · rwa [List.take_left' rfl]
  · rwa [List.take_of_length_le (by simp)]
  · have bound := rises.lt_length
    rw [List.length_append, List.length_singleton] at bound
    omega

end TagMove

namespace TagCounts

variable {counts : TagCounts} {tag : Tag}

/-- A tag is held exactly if the list has an equal one. -/
theorem hasExact_iff : counts.hasExact tag = true ↔ ∃ held ∈ counts.tags, held.hash = tag.hash := by
  have listed : counts.hasExact tag = counts.tags.any (·.hash == tag.hash) := by
    rw [tags, List.any_map]
    rfl
  simp only [listed, List.any_eq_true, beq_iff_eq]

/-- Equal tags are held equally often. -/
theorem count_congr {other : Tag} (same : tag.hash = other.hash) :
    counts.count tag = counts.count other := by
  rw [count_eq, count_eq, same]

/-- Of equal tags both are held or neither is. -/
theorem hasExact_of_hash {other : Tag} (same : tag.hash = other.hash) :
    counts.hasExact tag = counts.hasExact other := by
  rw [hasExact, same, hasExact]

/-- Whether a tag is held is up to the list. -/
theorem hasExact_congr {after : TagCounts} (same : after.tags = counts.tags) (tag : Tag) :
    after.hasExact tag = counts.hasExact tag :=
  Bool.eq_iff_iff.2 (by rw [hasExact_iff, hasExact_iff, same])

/-- A new entry is listed behind the others. -/
theorem tags_concat (counts : TagCounts) (tag : Tag) :
    tags { counts with held := counts.held ++ [(tag, 1)] } = counts.tags ++ [tag] :=
  List.map_append

/-- Without the entries of one tag the others are listed. -/
theorem tags_filter (counts : TagCounts) (tag : Tag) :
    tags { counts with held := counts.held.filter fun entry => entry.1.hash != tag.hash } =
      counts.tags.filter (·.hash != tag.hash) := by
  rw [tags, tags, List.filter_map]
  rfl

/-- What is held with one more entry. -/
theorem hasExact_concat (counts : TagCounts) (tag other : Tag) :
    hasExact { counts with held := counts.held ++ [(tag, 1)] } other =
      if tag.hash = other.hash then true else counts.hasExact other := by
  rw [hasExact, List.any_append, ← hasExact]
  by_cases same : tag.hash = other.hash
  · simp [same]
  · simp [same]

/-- Counting the entries of a tag anew changes nothing about what is held. -/
theorem hasExact_recount (counts : TagCounts) (tag : Tag) (recount : Nat → Nat) (other : Tag) :
    hasExact { counts with held := counts.held.map fun entry =>
      if entry.1.hash == tag.hash then (entry.1, recount entry.2) else entry } other =
      counts.hasExact other := by
  refine hasExact_congr ?_ other
  exact tags_recount counts.held tag recount

/-- What is held when a tag has been given. -/
theorem hasExact_add (counts : TagCounts) (tag other : Tag) : (counts.add tag).2.hasExact other =
    if tag.hash = other.hash then true else counts.hasExact other := by
  rw [add]
  split
  · next listed =>
    refine (hasExact_recount counts tag (· + 1) other).trans ?_
    split
    · next same => exact (hasExact_of_hash same).symm.trans listed
    · rfl
  · exact hasExact_concat counts tag other

/-- What is held without the entries of one tag. -/
theorem hasExact_filter (counts : TagCounts) (tag other : Tag) :
    hasExact { counts with
      held := counts.held.filter fun entry => entry.1.hash != tag.hash } other =
      if tag.hash = other.hash then false else counts.hasExact other := by
  rw [hasExact, List.any_filter]
  by_cases same : tag.hash = other.hash
  · simp [same]
  · rw [if_neg same, hasExact]
    refine congrArg (List.any counts.held) (funext fun entry => ?_)
    by_cases mine : entry.1.hash = other.hash
    · simp [mine, Ne.symm same]
    · simp [mine]

/-- The entry of a tag says how often it is held, if no tag is listed twice. -/
theorem count_of_mem (distinct : Tag.Distinct counts.tags) {entry : Tag × Nat}
    (member : entry ∈ counts.held) : counts.count entry.1 = entry.2 := by
  have alone (held : List (Tag × Nat)) (apart : Tag.Distinct (held.map (·.1)))
      (listed : entry ∈ held) : countIn entry.1.hash held = entry.2 := by
    induction held with
    | nil => cases listed
    | cons first rest ih =>
      obtain ⟨other, others⟩ := List.pairwise_cons.1 apart
      rcases List.mem_cons.1 listed with rfl | later
      · exact if_pos rfl
      · rw [countIn, if_neg (other entry.1 (List.mem_map_of_mem later))]
        exact ih others later
  rw [count_eq]
  exact alone counts.held distinct member

end TagCounts

namespace TagMove

/-- A move counts a tag as it tallies it. -/
theorem count_perform (counts : TagCounts) (move : TagMove) (tag : Tag) :
    (move.perform counts).2.count tag = move.tally tag (counts.count tag) := by
  cases move with
  | give other =>
    refine (TagCounts.count_add counts other tag).trans ?_
    rw [tally]
    split <;> rfl
  | take other =>
    refine (TagCounts.count_remove counts other tag).trans ?_
    rw [tally]
    split <;> rfl

/-- What a move can do: a tag that is not held appears behind the others, a tag that counts once
disappears, or the list stays as it is, and so does what is counted at all. -/
theorem perform_cases (counts : TagCounts) (move : TagMove) :
    (∃ tag, move = .give tag ∧ counts.hasExact tag = false ∧
      move.perform counts = (true, { counts with held := counts.held ++ [(tag, 1)] })) ∨
    (∃ tag, move = .take tag ∧ counts.count tag = 1 ∧ move.perform counts =
      (true, { counts with held := counts.held.filter fun entry => entry.1.hash != tag.hash })) ∨
    ∃ after, move.perform counts = (false, after) ∧ after.tags = counts.tags ∧
      ∀ other, 0 < counts.count other → 0 < after.count other := by
  cases move with
  | give tag =>
    cases listed : counts.hasExact tag with
    | false =>
      refine .inl ⟨tag, rfl, listed, ?_⟩
      rw [perform, TagCounts.add, listed]
      rfl
    | true =>
      refine .inr (.inr ⟨(counts.add tag).2, ?_, ?_, fun other held => ?_⟩)
      · rw [perform, TagCounts.add, if_pos listed]
      · rw [TagCounts.add, if_pos listed]
        exact TagCounts.tags_recount counts.held tag (· + 1)
      · rw [TagCounts.count_add]
        exact Nat.add_pos_left held _
  | take tag =>
    match times : counts.count tag with
    | 0 =>
      refine .inr (.inr ⟨counts, ?_, rfl, fun _ held => held⟩)
      simp only [perform, TagCounts.remove, times]
    | 1 =>
      refine .inr (.inl ⟨tag, rfl, times, ?_⟩)
      simp only [perform, TagCounts.remove, times]
    | rest + 2 =>
      refine .inr (.inr ⟨(counts.remove tag).2, ?_, ?_, fun other held => ?_⟩)
      · simp only [perform, TagCounts.remove, times]
      · simp only [TagCounts.remove, times]
        exact TagCounts.tags_recount counts.held tag (· - 1)
      · rw [TagCounts.count_remove]
        split
        · next same =>
          have equal : counts.count tag = counts.count other :=
            TagCounts.count_congr (beq_iff_eq.1 same)
          omega
        · exact held

end TagMove

namespace TagCounts

/-- Makes some moves in turn, and lists those by which a tag appeared or disappeared. -/
def play (counts : TagCounts) : List TagMove → List TagMove × TagCounts
  | [] => ([], counts)
  | move :: rest =>
    let (turned, counts) := move.perform counts
    let (others, counts) := counts.play rest
    (if turned then move :: others else others, counts)

/-- Playing one move is making it. -/
theorem play_singleton (counts : TagCounts) (move : TagMove) : counts.play [move] =
    (if (move.perform counts).1 then [move] else [], (move.perform counts).2) := rfl

/-- Giving some tags is a move for each. -/
theorem addEach_eq_play (counts : TagCounts) (tags : List Tag) :
    (counts.addEach tags).2 = (counts.play (tags.map .give)).2 ∧
      (counts.play (tags.map .give)).1 = (counts.addEach tags).1.map .give := by
  induction tags generalizing counts with
  | nil => exact ⟨rfl, rfl⟩
  | cons tag rest ih =>
    obtain ⟨last, turned⟩ := ih (counts.add tag).2
    refine ⟨last, ?_⟩
    simp only [List.map_cons, play, TagMove.perform, addEach, turned]
    split <;> rfl

/-- Taking some tags is a move for each. -/
theorem removeEach_eq_play (counts : TagCounts) (tags : List Tag) :
    (counts.removeEach tags).2 = (counts.play (tags.map .take)).2 ∧
      (counts.play (tags.map .take)).1 = (counts.removeEach tags).1.map .take := by
  induction tags generalizing counts with
  | nil => exact ⟨rfl, rfl⟩
  | cons tag rest ih =>
    obtain ⟨last, turned⟩ := ih (counts.remove tag).2
    refine ⟨last, ?_⟩
    simp only [List.map_cons, play, TagMove.perform, removeEach, turned]
    split <;> rfl

/-- A tag is held before and not afterwards, or the other way round. -/
def flips (before after : TagCounts) (tag : Tag) : Bool := before.hasExact tag != after.hasExact tag

/-- What is held after a move is what was, but for its tag if that turns. -/
theorem hasExact_perform (counts : TagCounts) (move : TagMove) (other : Tag) :
    (move.perform counts).2.hasExact other =
      if (move.perform counts).1 = true ∧ move.tag.hash = other.hash then !counts.hasExact move.tag
      else counts.hasExact other := by
  rcases move.perform_cases counts with
    ⟨tag, rfl, absent, done⟩ | ⟨tag, rfl, once, done⟩ | ⟨after, done, same, -⟩
  · rw [done, hasExact_concat]
    simp [TagMove.tag, absent]
  · have held : counts.hasExact tag = true := hasExact_of_count (by omega)
    rw [done, hasExact_filter]
    simp [TagMove.tag, held]
  · rw [done, hasExact_congr same]
    simp

/-- A move tells whether its tag is held before but not afterwards, or the other way round. -/
theorem perform_flips (counts : TagCounts) (move : TagMove) :
    (move.perform counts).1 = counts.flips (move.perform counts).2 move.tag := by
  rw [flips, hasExact_perform]
  cases (move.perform counts).1 with
  | false => simp
  | true => simp

/-- Moves of other tags do not change whether a tag is held. -/
theorem hasExact_play {moves : List TagMove} {tag : Tag}
    (others : ∀ move ∈ moves, move.tag.hash ≠ tag.hash) (counts : TagCounts) :
    (counts.play moves).2.hasExact tag = counts.hasExact tag := by
  induction moves generalizing counts with
  | nil => rfl
  | cons move rest ih =>
    obtain ⟨first, later⟩ := List.forall_mem_cons.1 others
    refine (ih later (move.perform counts).2).trans ?_
    rw [hasExact_perform, if_neg fun turned => first turned.2]

/-- Of moves of different tags those turn by which the tag is held before but not afterwards, or the
other way round. -/
theorem play_eq_filter {moves : List TagMove} (distinct : Tag.Distinct (moves.map (·.tag)))
    (counts : TagCounts) : (counts.play moves).1 =
      moves.filter fun move => counts.flips (counts.play moves).2 move.tag := by
  induction moves generalizing counts with
  | nil => rfl
  | cons move rest ih =>
    obtain ⟨apart, others⟩ := List.pairwise_cons.1 distinct
    have first : (move.perform counts).1 =
        counts.flips (counts.play (move :: rest)).2 move.tag := by
      rw [perform_flips, flips, flips]
      refine congrArg (counts.hasExact move.tag != ·) (hasExact_play ?_ _).symm
      intro other member equal
      exact apart other.tag (List.mem_map_of_mem member) equal.symm
    have later : ((move.perform counts).2.play rest).1 =
        rest.filter fun other => counts.flips (counts.play (move :: rest)).2 other.tag := by
      rw [ih others]
      refine List.filter_congr fun other member => ?_
      rw [flips, hasExact_perform, if_neg fun turned => ?_]
      · rfl
      · exact apart other.tag (List.mem_map_of_mem member) turned.2
    rw [List.filter_cons, ← first, ← later]
    rfl

/-- One move for each tag of a set: the tags of those that turn are those that the moves flip. -/
theorem turned_eq_filter {make : Tag → TagMove} (named : ∀ tag, (make tag).tag = tag)
    (counts : TagCounts) (set : TagSet) {turned : List Tag}
    (moved : (counts.play (set.tags.map make)).1 = turned.map make) :
    turned = set.tags.filter (counts.flips (counts.play (set.tags.map make)).2) := by
  have tags (list : List Tag) : (list.map make).map (·.tag) = list := by
    rw [List.map_map]
    exact (List.map_congr_left fun tag _ => named tag).trans (List.map_id _)
  have distinct : Tag.Distinct ((set.tags.map make).map (·.tag)) :=
    (tags set.tags).symm ▸ set.distinct
  have both := congrArg (List.map (·.tag)) (moved.symm.trans (play_eq_filter distinct counts))
  rw [tags, List.filter_map, tags] at both
  rw [both]
  exact List.filter_congr fun tag _ => by rw [Function.comp, named]

/-- What calls answer is which tags they made appear or disappear. -/
structure TellsFlips (counts : TagCounts) : Prop where
  /-- Whether the tag that is given was not held. -/
  add : ∀ tag, (counts.add tag).1 = counts.flips (counts.add tag).2 tag
  /-- Whether the tag that is taken is no longer held. -/
  remove : ∀ tag, (counts.remove tag).1 = counts.flips (counts.remove tag).2 tag
  /-- Those of the tags that are given which were not held. -/
  addEach : ∀ set : TagSet, (counts.addEach set.tags).1 =
    set.tags.filter (counts.flips (counts.addEach set.tags).2)
  /-- Those of the tags that are taken which are no longer held. -/
  removeEach : ∀ set : TagSet, (counts.removeEach set.tags).1 =
    set.tags.filter (counts.flips (counts.removeEach set.tags).2)

/-- Calls answer which tags they made appear or disappear. -/
theorem tellsFlips (counts : TagCounts) : counts.TellsFlips where
  add tag := perform_flips counts (.give tag)
  remove tag := perform_flips counts (.take tag)
  addEach set := by
    obtain ⟨last, turned⟩ := addEach_eq_play counts set.tags
    rw [last]
    exact turned_eq_filter (fun _ => rfl) counts set turned
  removeEach set := by
    obtain ⟨last, turned⟩ := removeEach_eq_play counts set.tags
    rw [last]
    exact turned_eq_filter (fun _ => rfl) counts set turned

end TagCounts

end SkillEngine
