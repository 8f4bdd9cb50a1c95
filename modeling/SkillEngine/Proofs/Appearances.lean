import SkillEngine.Proofs.Ledgers

/-!
# Appearances of tags

Held tags are a multiset that tells when a tag appears and when it is gone. Whatever the moves that
are made on them, they are `Chronicled`: the counts are the tally of the moves, the tags that count
are listed once each, in the order in which they last rose from nothing, and the events about a tag
are appearances and disappearances in turn, which replayed give the list. Others may come and go
while somebody listens; who listens all the time hears just these events
(`held_tags_are_chronicled`).
-/

namespace SkillEngine

namespace TagEvent

/-- The tag that appeared or disappeared. -/
def tag : TagEvent → Tag
  | added tag | removed tag => tag

/-- The tag appeared. -/
def isAdded : TagEvent → Bool
  | added _ => true
  | removed _ => false

/-- The events about one tag. -/
def about (tag : Tag) (events : List TagEvent) : List TagEvent :=
  events.filter (·.tag.hash == tag.hash)

/-- Does to a list of tags what an event tells. -/
def replay (tags : List Tag) : TagEvent → List Tag
  | added tag => tags ++ [tag]
  | removed tag => tags.filter (·.hash != tag.hash)

/-- The events about each tag are appearances and disappearances in turn, an appearance first. -/
structure Alternate (events : List TagEvent) (held : Tag → Bool) : Prop where
  /-- Every other event about a tag, from the first one on, is an appearance. -/
  turns : ∀ tag place event, (about tag events)[place]? = some event →
    (event.isAdded = true ↔ place % 2 = 0)
  /-- The held tags are those of which the last event is an appearance. -/
  parity : ∀ tag, held tag = true ↔ (about tag events).length % 2 = 1

variable {events : List TagEvent} {event : TagEvent} {held after : Tag → Bool}

/-- An event about a tag comes behind the others about it. -/
theorem about_concat_of_eq {tag : Tag} (mine : event.tag.hash = tag.hash) :
    about tag (events ++ [event]) = about tag events ++ [event] := by
  simp [about, mine]

/-- An event is not about other tags. -/
theorem about_concat_of_ne {tag : Tag} (other : event.tag.hash ≠ tag.hash) :
    about tag (events ++ [event]) = about tag events := by
  simp [about, other]

/-- One more event, by which a tag appears that is not held, or disappears if it is. -/
theorem Alternate.concat (alternate : Alternate events held)
    (turns : event.isAdded = !held event.tag)
    (changed : ∀ tag, after tag = if event.tag.hash = tag.hash then event.isAdded else held tag) :
    Alternate (events ++ [event]) after := by
  have same {tag : Tag} (mine : event.tag.hash = tag.hash) :
      about tag events = about event.tag events := by
    simp only [about, mine]
  have even : event.isAdded = true ↔ (about event.tag events).length % 2 = 0 := by
    have parity := alternate.parity event.tag
    rw [turns, Bool.not_eq_true', Bool.eq_false_iff, ne_eq, parity]
    omega
  constructor
  · intro tag place told found
    by_cases mine : event.tag.hash = tag.hash
    · rw [about_concat_of_eq mine] at found
      rcases Nat.lt_or_ge place (about tag events).length with earlier | later
      · rw [List.getElem?_append_left earlier] at found
        exact alternate.turns tag place told found
      · rw [List.getElem?_append_right later, List.getElem?_singleton] at found
        split at found
        · next last =>
          obtain rfl := Option.some.inj found
          have here : place = (about event.tag events).length := by
            rw [← same mine]
            omega
          rw [here]
          exact even
        · cases found
    · rw [about_concat_of_ne mine] at found
      exact alternate.turns tag place told found
  · intro tag
    rw [changed]
    by_cases mine : event.tag.hash = tag.hash
    · rw [if_pos mine, about_concat_of_eq mine, even, same mine, List.length_append,
        List.length_singleton]
      omega
    · rw [if_neg mine, about_concat_of_ne mine]
      exact alternate.parity tag

end TagEvent

namespace TagCounts

/-- What moves on held tags, and the events on the way, come to. -/
structure Chronicled (moves : List TagMove) (events : List TagEvent) (counts : TagCounts) :
    Prop where
  /-- Every tag counts as the moves tally it. -/
  count : ∀ tag, counts.count tag = TagMove.tallied tag moves
  /-- No tag is listed twice. -/
  distinct : Tag.Distinct counts.tags
  /-- The tags that count are listed, and no others. -/
  listed : ∀ tag, (∃ held ∈ counts.tags, held.hash = tag.hash) ↔ 0 < counts.count tag
  /-- Every listed tag has risen from nothing. -/
  risen : ∀ tag ∈ counts.tags, ∃ place, TagMove.LastRise moves tag place
  /-- The tags are listed in the order in which they last did. -/
  ordered : counts.tags.Pairwise fun earlier later => ∀ first second,
    TagMove.LastRise moves earlier first → TagMove.LastRise moves later second → first < second
  /-- Replaying the events gives the list. -/
  replayed : events.foldl TagEvent.replay [] = counts.tags
  /-- The events about a tag are appearances and disappearances in turn. -/
  alternate : TagEvent.Alternate events counts.hasExact

namespace Chronicled

variable {moves : List TagMove} {events : List TagEvent} {counts after : TagCounts} {tag : Tag}

/-- No tags are held before any move. -/
theorem start (empty : counts.held = []) : Chronicled [] [] counts := by
  obtain ⟨held, listeners⟩ := counts
  obtain rfl : held = [] := empty
  exact
    { count := fun _ => rfl
      distinct := .nil
      listed := fun _ => iff_of_false (fun ⟨_, member, _⟩ => nomatch member) (Nat.lt_irrefl 0)
      risen := fun _ member => nomatch member
      ordered := .nil
      replayed := rfl
      alternate := ⟨fun _ _ _ found => (nomatch found), fun _ => iff_of_false nofun nofun⟩ }

/-- No entry has a count of zero, of which one could not be taken. -/
theorem positive (chronicled : Chronicled moves events counts) :
    ∀ entry ∈ counts.held, 0 < entry.2 := by
  intro entry member
  rw [← count_of_mem chronicled.distinct member]
  exact (chronicled.listed entry.1).1 ⟨entry.1, List.mem_map_of_mem member, rfl⟩

/-- A tag is held exactly if it counts. -/
theorem hasExact_iff (chronicled : Chronicled moves events counts) (tag : Tag) :
    counts.hasExact tag = true ↔ 0 < counts.count tag :=
  TagCounts.hasExact_iff.trans (chronicled.listed tag)

/-- One more move is tallied. -/
theorem count_concat (chronicled : Chronicled moves events counts) (move : TagMove) (tag : Tag) :
    (move.perform counts).2.count tag = TagMove.tallied tag (moves ++ [move]) := by
  rw [TagMove.count_perform, chronicled.count, TagMove.tallied_concat]

/-- The last rises of the listed tags are not changed by one more move. -/
theorem lastRise_iff (chronicled : Chronicled moves events counts) (member : tag ∈ counts.tags)
    (move : TagMove) (place : Nat) :
    TagMove.LastRise (moves ++ [move]) tag place ↔ TagMove.LastRise moves tag place := by
  refine TagMove.lastRise_concat_of_held ?_ move
  rw [← chronicled.count]
  exact (chronicled.listed tag).1 ⟨tag, member, rfl⟩

/-- The listed tags have risen after one more move as well. -/
theorem risen_concat (chronicled : Chronicled moves events counts) (move : TagMove)
    (member : tag ∈ counts.tags) : ∃ place, TagMove.LastRise (moves ++ [move]) tag place := by
  obtain ⟨place, rise⟩ := chronicled.risen tag member
  exact ⟨place, (chronicled.lastRise_iff member move place).2 rise⟩

/-- The listed tags are in the order of their last rises after one more move as well. -/
theorem ordered_concat (chronicled : Chronicled moves events counts) (move : TagMove) :
    counts.tags.Pairwise fun earlier later => ∀ first second,
      TagMove.LastRise (moves ++ [move]) earlier first →
      TagMove.LastRise (moves ++ [move]) later second → first < second := by
  refine chronicled.ordered.imp_of_mem fun {earlier later} before behind ordered => ?_
  intro first second rise next
  exact ordered first second ((chronicled.lastRise_iff before move first).1 rise)
    ((chronicled.lastRise_iff behind move second).1 next)

/-- A tag that is not held appears behind the others. -/
theorem appear (chronicled : Chronicled moves events counts) (absent : counts.hasExact tag = false)
    (done : (TagMove.give tag).perform counts =
      (true, { counts with held := counts.held ++ [(tag, 1)] })) :
    Chronicled (moves ++ [.give tag]) (events ++ [.added tag])
      { counts with held := counts.held ++ [(tag, 1)] } := by
  have apart : ∀ held ∈ counts.tags, held.hash ≠ tag.hash := by
    intro held member equal
    exact Bool.eq_false_iff.1 absent (TagCounts.hasExact_iff.2 ⟨held, member, equal⟩)
  have tallied := chronicled.count_concat (.give tag)
  rw [done] at tallied
  have longer := counts.tags_concat tag
  have none : TagMove.tallied tag moves = 0 := by
    rw [← chronicled.count]
    refine Nat.eq_zero_of_not_pos fun held => ?_
    obtain ⟨other, member, equal⟩ := (chronicled.listed tag).2 held
    exact apart other member equal
  have rise : TagMove.LastRise (moves ++ [.give tag]) tag moves.length := by
    refine TagMove.lastRise_concat_of_rise none ?_
    rw [TagMove.tallied_concat, none, TagMove.tally, if_pos (beq_self_eq_true _)]
  refine
    { count := tallied
      distinct := ?distinct
      listed := fun other => ?listed
      risen := fun other member => ?risen
      ordered := ?ordered
      replayed := ?replayed
      alternate := chronicled.alternate.concat ?turns fun other => ?changed }
  case distinct =>
    rw [longer]
    refine List.pairwise_append.2 ⟨chronicled.distinct, List.pairwise_singleton _ _, ?_⟩
    intro held member last behind
    obtain rfl := List.mem_singleton.1 behind
    exact apart held member
  case listed =>
    have count := TagCounts.count_add counts tag other
    rw [show counts.add tag = _ from done] at count
    rw [← TagCounts.hasExact_iff, hasExact_concat, count]
    by_cases same : tag.hash = other.hash
    · simp [same]
    · simp [same, chronicled.hasExact_iff]
  case risen =>
    rw [longer] at member
    rcases List.mem_append.1 member with before | last
    · exact chronicled.risen_concat (.give tag) before
    · obtain rfl := List.mem_singleton.1 last
      exact ⟨moves.length, rise⟩
  case ordered =>
    rw [longer]
    refine List.pairwise_append.2
      ⟨chronicled.ordered_concat (.give tag), List.pairwise_singleton _ _, ?_⟩
    intro held member last behind first second earlier later
    obtain rfl := List.mem_singleton.1 behind
    have old := (chronicled.lastRise_iff member (.give last) first).1 earlier
    exact Nat.lt_of_lt_of_le old.rises.lt_length (later.last _ rise.rises)
  case replayed =>
    rw [List.foldl_append, chronicled.replayed, longer]
    rfl
  case turns => exact (congrArg (!·) absent).symm
  case changed => exact hasExact_concat counts tag other

/-- A tag that counts once disappears. -/
theorem vanish (chronicled : Chronicled moves events counts) (once : counts.count tag = 1)
    (done : (TagMove.take tag).perform counts =
      (true, { counts with held := counts.held.filter fun entry => entry.1.hash != tag.hash })) :
    Chronicled (moves ++ [.take tag]) (events ++ [.removed tag])
      { counts with held := counts.held.filter fun entry => entry.1.hash != tag.hash } := by
  have tallied := chronicled.count_concat (.take tag)
  rw [done] at tallied
  have shorter := counts.tags_filter tag
  have fewer : tags { counts with
      held := counts.held.filter fun entry => entry.1.hash != tag.hash } ⊆ counts.tags := by
    rw [shorter]
    exact List.filter_subset_self _
  refine
    { count := tallied
      distinct := ?distinct
      listed := fun other => ?listed
      risen := fun other member => chronicled.risen_concat (.take tag) (fewer member)
      ordered := ?ordered
      replayed := ?replayed
      alternate := chronicled.alternate.concat ?turns fun other => ?changed }
  case distinct =>
    rw [shorter]
    exact chronicled.distinct.filter _
  case listed =>
    have count := TagCounts.count_remove counts tag other
    rw [show counts.remove tag = _ from done] at count
    rw [← TagCounts.hasExact_iff, hasExact_filter, count]
    by_cases same : tag.hash = other.hash
    · have equal : counts.count other = 1 := count_congr same ▸ once
      simp [same, equal]
    · simp [same, chronicled.hasExact_iff]
  case ordered =>
    rw [shorter]
    exact (chronicled.ordered_concat (.take tag)).filter _
  case replayed =>
    rw [List.foldl_append, chronicled.replayed, shorter]
    rfl
  case turns =>
    have held : counts.hasExact tag = true := hasExact_of_count (by omega)
    exact (congrArg (!·) held).symm
  case changed => exact hasExact_filter counts tag other

/-- A move by which no tag appears or disappears. -/
theorem stay (chronicled : Chronicled moves events counts) {move : TagMove}
    (done : move.perform counts = (false, after)) (same : after.tags = counts.tags)
    (held : ∀ other, 0 < counts.count other → 0 < after.count other) :
    Chronicled (moves ++ [move]) events after := by
  have tallied := chronicled.count_concat move
  rw [done] at tallied
  refine
    { count := tallied
      distinct := same ▸ chronicled.distinct
      listed := fun other => ?listed
      risen := fun other member => chronicled.risen_concat move (same ▸ member)
      ordered := same ▸ chronicled.ordered_concat move
      replayed := same ▸ chronicled.replayed
      alternate := ?alternate }
  case listed =>
    rw [same]
    refine ⟨fun member => held other ((chronicled.listed other).1 member), fun counted => ?_⟩
    rw [← TagCounts.hasExact_iff, ← hasExact_congr same]
    exact hasExact_of_count counted
  case alternate =>
    have unchanged : after.hasExact = counts.hasExact := funext (hasExact_congr same)
    rw [unchanged]
    exact chronicled.alternate

/-- One move, and its event if it is one. -/
theorem concat (chronicled : Chronicled moves events counts) (move : TagMove) :
    Chronicled (moves ++ [move])
      (events ++ if (move.perform counts).1 then [move.event] else []) (move.perform counts).2 := by
  rcases move.perform_cases counts with
    ⟨tag, rfl, absent, done⟩ | ⟨tag, rfl, once, done⟩ | ⟨after, done, same, held⟩
  · have appeared := chronicled.appear absent done
    rw [done]
    exact appeared
  · have vanished := chronicled.vanish once done
    rw [done]
    exact vanished
  · have stayed := chronicled.stay done same held
    rw [done]
    simpa using stayed

/-- Some moves, and their events. -/
theorem play (chronicled : Chronicled moves events counts) (more : List TagMove) :
    Chronicled (moves ++ more) (events ++ (counts.play more).1.map TagMove.event)
      (counts.play more).2 := by
  induction more generalizing moves events counts with
  | nil => simpa [TagCounts.play] using chronicled
  | cons move rest ih =>
    have onward := ih (chronicled.concat move)
    simp only [List.append_assoc, List.singleton_append] at onward
    cases turned : (move.perform counts).1 with
    | false => simpa [TagCounts.play, turned] using onward
    | true => simpa [TagCounts.play, turned] using onward

end Chronicled

end TagCounts

/-- The listener is the one of a name. -/
def TagListener.isNamed (name : String) : TagListener → Bool
  | named other => other == name
  | requirements => false

namespace TagRequest

/-- The moves that a request makes. -/
def moves : TagRequest → List TagMove
  | add tag => [.give tag]
  | remove tag => [.take tag]
  | addAll tags => tags.tags.map .give
  | removeAll tags => tags.tags.map .take
  | _ => []

/-- The request leaves a subscription alone, and its name to it: it neither ends it, nor subscribes
under the name again, nor drops everything. -/
def Spares (name : String) (id : SubscriptionId) : TagRequest → Prop
  | watch other => other ≠ name
  | unwatch other => other ≠ id
  | clear => False
  | _ => True

end TagRequest

namespace TagCounts

variable {counts : TagCounts} {name : String} {id : SubscriptionId}

/-- The subscription of a number is the one under a name. -/
def Follows (name : String) (id : SubscriptionId) (counts : TagCounts) : Prop :=
  counts.listeners.entries.filter (·.2.isNamed name) = [(id, .named name)]

/-- What the listener of a name hears. -/
def heard (name : String) (log : List (TagListener × TagEvent)) : List TagEvent :=
  (log.filter (·.1.isNamed name)).map (·.2)

/-- Who is subscribed hears every event once. -/
theorem Follows.heard_notices (follows : counts.Follows name id) (events : List TagEvent) :
    heard name (counts.notices events) = events := by
  have once (event : TagEvent) :
      heard name (counts.listeners.listeners.map fun listener => (listener, event)) = [event] := by
    have mine : (counts.listeners.listeners.filter (·.isNamed name)) = [.named name] := by
      rw [Subscribers.listeners, List.filter_map]
      exact congrArg (List.map (·.2)) follows
    rw [heard, List.filter_map, List.map_map]
    exact congrArg (List.map fun _ => event) mine
  induction events with
  | nil => rfl
  | cons event rest ih =>
    rw [notices, List.flatMap_cons, heard, List.filter_append, List.map_append]
    exact congrArg₂ (· ++ ·) (once event) ih

/-- Held tags after some requests in turn, and who heard what on the way. -/
def serve (counts : TagCounts) : List TagRequest → TagCounts × List (TagListener × TagEvent)
  | [] => (counts, [])
  | request :: rest =>
    let done := request.perform counts
    let (last, log) := done.state.serve rest
    (last, done.events ++ log)

/-- A request makes its moves, and tells their events. -/
theorem perform_eq_play (counts : TagCounts) {request : TagRequest}
    (spares : request.Spares name id) :
    (request.perform counts).state.held = (counts.play request.moves).2.held ∧
      (request.perform counts).events =
        counts.notices ((counts.play request.moves).1.map TagMove.event) := by
  cases request with
  | add tag =>
    refine ⟨rfl, congrArg counts.notices ?_⟩
    rw [TagRequest.moves, play_singleton, apply_ite (List.map TagMove.event)]
    rfl
  | remove tag =>
    refine ⟨rfl, congrArg counts.notices ?_⟩
    rw [TagRequest.moves, play_singleton, apply_ite (List.map TagMove.event)]
    rfl
  | addAll tags =>
    obtain ⟨last, turned⟩ := addEach_eq_play counts tags.tags
    refine ⟨congrArg held last, congrArg counts.notices ?_⟩
    rw [TagRequest.moves, turned, List.map_map]
    rfl
  | removeAll tags =>
    obtain ⟨last, turned⟩ := removeEach_eq_play counts tags.tags
    refine ⟨congrArg held last, congrArg counts.notices ?_⟩
    rw [TagRequest.moves, turned, List.map_map]
    rfl
  | clear => cases spares
  | _ => exact ⟨rfl, rfl⟩

/-- Whether somebody is subscribed is up to the listeners. -/
theorem Follows.of_listeners {after : TagCounts} (follows : counts.Follows name id)
    (same : after.listeners = counts.listeners) : after.Follows name id := by
  rw [Follows, same]
  exact follows

/-- Who is subscribed stays so. -/
theorem Follows.perform (follows : counts.Follows name id) {request : TagRequest}
    (spares : request.Spares name id) : (request.perform counts).state.Follows name id := by
  cases request with
  | add tag => exact follows.of_listeners (listeners_add counts tag)
  | remove tag => exact follows.of_listeners (listeners_remove counts tag)
  | addAll tags => exact follows.of_listeners (listeners_addEach counts tags.tags)
  | removeAll tags => exact follows.of_listeners (listeners_removeEach counts tags.tags)
  | watch other =>
    have another : (TagListener.named other).isNamed name = false := beq_eq_false_iff_ne.2 spares
    show List.filter _ (counts.listeners.entries ++ [_]) = _
    rw [List.filter_append, follows]
    simp [another]
  | unwatch other =>
    have different : (id != other) = true := bne_iff_ne.2 (Ne.symm spares)
    show List.filter _ (counts.listeners.entries.filter _) = _
    rw [List.filter_comm, follows]
    simp [different]
  | clear => cases spares
  | _ => exact follows

/-- What moves come to is up to the entries. -/
theorem Chronicled.of_held {moves : List TagMove} {events : List TagEvent} {after : TagCounts}
    (chronicled : Chronicled moves events counts) (same : after.held = counts.held) :
    Chronicled moves events after := by
  obtain ⟨held, listeners⟩ := after
  obtain rfl : held = counts.held := same
  exact
    { count := chronicled.count
      distinct := chronicled.distinct
      listed := chronicled.listed
      risen := chronicled.risen
      ordered := chronicled.ordered
      replayed := chronicled.replayed
      alternate := chronicled.alternate }

/-- Held tags are chronicled by the moves of requests and by what is heard. -/
theorem Chronicled.serve {moves : List TagMove} {events : List TagEvent}
    {requests : List TagRequest} (chronicled : Chronicled moves events counts)
    (follows : counts.Follows name id) (spare : ∀ request ∈ requests, request.Spares name id) :
    Chronicled (moves ++ requests.flatMap TagRequest.moves)
      (events ++ heard name (counts.serve requests).2) (counts.serve requests).1 := by
  induction requests generalizing counts moves events with
  | nil => simpa [TagCounts.serve, heard] using chronicled
  | cons request rest ih =>
    obtain ⟨first, others⟩ := List.forall_mem_cons.1 spare
    obtain ⟨state, told⟩ := perform_eq_play counts first
    have now := (chronicled.play request.moves).of_held state
    have onward := ih now (follows.perform first) others
    have log : heard name (counts.serve (request :: rest)).2 =
        (counts.play request.moves).1.map TagMove.event ++
          heard name ((request.perform counts).state.serve rest).2 := by
      rw [← follows.heard_notices ((counts.play request.moves).1.map TagMove.event), ← told]
      simp only [heard, TagCounts.serve, List.filter_append, List.map_append]
    rw [log, List.flatMap_cons, ← List.append_assoc, ← List.append_assoc]
    exact onward

end TagCounts

/-- A ledger that makes the moves of requests shows what the requests come to. -/
theorem TagLedger.Shows.serve {ledger : TagLedger} {held : TagCounts} {name : String}
    {id : SubscriptionId} {requests : List TagRequest} (shows : ledger.Shows held)
    (spare : ∀ request ∈ requests, request.Spares name id) :
    (ledger.play (requests.flatMap TagRequest.moves)).2.Shows (held.serve requests).1 := by
  induction requests generalizing ledger held with
  | nil => exact shows
  | cons request rest ih =>
    obtain ⟨first, others⟩ := List.forall_mem_cons.1 spare
    have now := (shows.play request.moves).2.of_held (held.perform_eq_play first).1
    rw [List.flatMap_cons, TagLedger.play_append]
    exact ih now others

/-- Tags are given and taken, starting with none, while somebody listens all the time: every tag
counts as often as the requests tally it; those that count are listed once each, in the order in
which they last rose from nothing; no entry is at zero; every call answers which tags it made appear
or disappear; and what is heard of a tag are appearances and disappearances in turn, which replayed
give the list. A list of tags beside a map of counts stays in step under the same requests, and
answers alike. -/
theorem held_tags_are_chronicled {name : String} {id : SubscriptionId} {start : TagCounts}
    (empty : start.held = []) (follows : start.Follows name id) {requests : List TagRequest}
    (spare : ∀ request ∈ requests, request.Spares name id) :
    let (last, log) := start.serve requests
    let ledger := (TagLedger.empty.play (requests.flatMap TagRequest.moves)).2
    TagCounts.Chronicled (requests.flatMap TagRequest.moves) (TagCounts.heard name log) last ∧
      (∀ entry ∈ last.held, 0 < entry.2) ∧ last.TellsFlips ∧
      ledger.InStep ∧ ledger.Answers last := by
  have chronicled := (TagCounts.Chronicled.start empty).serve follows spare
  have shows := (TagLedger.Shows.start empty).serve spare
  exact ⟨chronicled, chronicled.positive, TagCounts.tellsFlips _, shows.inStep chronicled.distinct,
    shows.answers⟩

/-- Somebody listens to held tags of which there are none yet. -/
def displayed : TagCounts := ((TagRequest.watch "display").perform .empty).state

/-- Two tags are given twice each, and another one is taken that is not held, while somebody else
listens for some time. Both are taken once, and one of them once more before it is given again. -/
def hustle : List TagRequest :=
  [.add (.ofPath "Wet"), .watch "log", .addAll (.ofPaths ["Wet", "Cold"]), .remove (.ofPath "Hot"),
    .add (.ofPath "Cold"), .removeAll (.ofPaths ["Cold", "Wet"]), .unwatch ⟨1⟩,
    .remove (.ofPath "Wet"), .add (.ofPath "Wet")]

/-- The tag that was given first is listed last, since it was gone in between. -/
theorem displayed_hustle : displayed.held = [] ∧ displayed.Follows "display" ⟨0⟩ ∧
    (∀ request ∈ hustle, request.Spares "display" ⟨0⟩) ∧
    (let (last, log) := displayed.serve hustle
    let ledger := (TagLedger.empty.play (hustle.flatMap TagRequest.moves)).2
    TagCounts.Chronicled (hustle.flatMap TagRequest.moves) (TagCounts.heard "display" log) last ∧
      (∀ entry ∈ last.held, 0 < entry.2) ∧ last.TellsFlips ∧
      ledger.InStep ∧ ledger.Answers last) ∧
    (displayed.serve hustle).1.tags.map (·.path) = ["Cold", "Wet"] ∧
    (TagCounts.heard "display" (displayed.serve hustle).2).map
      (fun event => (event.isAdded, event.tag.path)) =
      [(true, "Wet"), (true, "Cold"), (false, "Wet"), (true, "Wet")] := by
  have follows : displayed.Follows "display" ⟨0⟩ := rfl
  have spare : ∀ request ∈ hustle, request.Spares "display" ⟨0⟩ := by
    simp [hustle, TagRequest.Spares]
  exact ⟨rfl, follows, spare, held_tags_are_chronicled rfl follows spare, by decide +kernel,
    by decide +kernel⟩

end SkillEngine
