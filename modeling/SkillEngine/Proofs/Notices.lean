import SkillEngine.Proofs.Staleness
import Mathlib.Logic.Function.Basic

/-!
# What an observer hears

The changes that an observer of an attribute hears of are a history without gaps: each one of a kind
begins at the value at which the one before it ended, and the last one ends at the value that is
stored. So the stored values can be had from the changes alone (`Unbroken`), however writes, hooks,
modifiers and commits take turns, and a write that a hook vetoes leaves no trace.

Every change is told to all observers in turn before the next one is. What one of them hears is
therefore one in so many of the things told (`share`), whatever name it reports under.
-/

namespace SkillEngine

namespace Subscribers

variable {α β γ : Type} {list : Subscribers α} {id : SubscriptionId}

/-- How many listeners hear of an event before a subscription does. -/
def place (list : Subscribers α) (id : SubscriptionId) : Nat :=
  list.entries.findIdx (·.1 == id)

/-- What falls to one subscription of the things that are told to all, round after round. -/
def share (list : Subscribers α) (id : SubscriptionId) (told : List β) : List β :=
  (told.zipIdx.filter fun entry => entry.2 % list.size == list.place id).map (·.1)

/-- A live subscription has a place in the list. -/
theorem place_lt_size (live : list.subscribed id = true) : list.place id < list.size :=
  List.findIdx_lt_length_of_exists (List.any_eq_true.1 live)

/-- Of the things at consecutive places one is at a given place. -/
theorem filter_zipIdx (told : List β) (start offset : Nat) :
    ((told.zipIdx start).filter fun entry => entry.2 == start + offset).map (·.1) =
      told[offset]?.toList := by
  induction told generalizing start offset with
  | nil => rfl
  | cons first rest ih =>
    cases offset with
    | zero =>
      have none : (rest.zipIdx (start + 1)).filter (fun entry => entry.2 == start) = [] := by
        refine List.filter_eq_nil_iff.2 fun entry member => ?_
        have later := List.le_snd_of_mem_zipIdx member
        simp only [beq_iff_eq]
        omega
      simp [List.zipIdx_cons, none]
    | succ offset =>
      have onward := ih (start + 1) offset
      have shift : start + 1 + offset = start + (offset + 1) := by omega
      rw [shift] at onward
      simp [List.zipIdx_cons, onward]

/-- Of one round, wherever it begins, a live subscription hears the thing at its place. -/
theorem share_round (live : list.subscribed id = true) {round : List β}
    (length : round.length = list.size) {start : Nat} (begins : start % list.size = 0) :
    ((round.zipIdx start).filter fun entry => entry.2 % list.size == list.place id).map (·.1) =
      round[list.place id]?.toList := by
  have within := place_lt_size live
  rw [← filter_zipIdx round start]
  refine congrArg (List.map Prod.fst) (List.filter_congr fun entry member => ?_)
  have low := List.le_snd_of_mem_zipIdx member
  have high := List.snd_lt_add_of_mem_zipIdx member
  obtain ⟨offset, same⟩ := Nat.exists_eq_add_of_le low
  have small : offset < list.size := by omega
  have rest : (start + offset) % list.size = offset := by
    rw [Nat.add_mod, begins, Nat.zero_add, Nat.mod_mod, Nat.mod_eq_of_lt small]
  rw [same, rest, Bool.eq_iff_iff, beq_iff_eq, beq_iff_eq, Nat.add_left_cancel_iff]

/-- A live subscription hears of every event once if all listeners are told of each in turn. -/
theorem share_rounds (live : list.subscribed id = true) (tell : α → γ → β) (events : List γ) :
    ∃ listener ∈ list.listeners, list.share id
      (events.flatMap fun event => list.listeners.map fun other => tell other event) =
        events.map (tell listener) := by
  have size : list.listeners.length = list.size := List.length_map _
  have bound : list.place id < list.listeners.length := size.symm ▸ place_lt_size live
  refine ⟨list.listeners[list.place id], List.getElem_mem bound, ?_⟩
  -- The rounds may begin at any place at which a round does.
  suffices onward : ∀ start, start % list.size = 0 →
      (((events.flatMap fun event => list.listeners.map fun other => tell other event).zipIdx
        start).filter fun entry => entry.2 % list.size == list.place id).map (·.1) =
          events.map (tell list.listeners[list.place id]) from onward 0 (Nat.zero_mod _)
  induction events with
  | nil => exact fun _ _ => rfl
  | cons event rest ih =>
    intro start begins
    have length : (list.listeners.map fun other => tell other event).length = list.size := by
      rw [List.length_map, size]
    have next : (start + list.size) % list.size = 0 := by rw [Nat.add_mod_right, begins]
    rw [List.flatMap_cons, List.zipIdx_append, List.filter_append, List.map_append,
      share_round live length begins, length, ih _ next, List.getElem?_map,
      List.getElem?_eq_getElem bound]
    rfl

/-- A subscription stays live when another one is added. -/
theorem subscribed_subscribe (live : list.subscribed id = true) (listener : α) :
    (list.subscribe listener).2.subscribed id = true := by
  rw [subscribed, subscribe, List.any_append]
  exact Bool.or_eq_true_iff.2 (.inl live)

/-- A subscription stays live when another one is dropped. -/
theorem subscribed_unsubscribe (live : list.subscribed id = true) {other : SubscriptionId}
    (different : other ≠ id) : (list.unsubscribe other).subscribed id = true := by
  obtain ⟨entry, member, mine⟩ := List.any_eq_true.1 live
  refine List.any_eq_true.2 ⟨entry, List.mem_filter.2 ⟨member, ?_⟩, mine⟩
  have same : entry.1 = id := beq_iff_eq.1 mine
  exact bne_iff_ne.2 (same ▸ different.symm)

end Subscribers

namespace AttributeChange

/-- Changes lead from one value to another: the first begins at the one, the last ends at the other,
and each begins where the one before it ended. -/
inductive Leads : Float32 → List (AttributeChange Float32) → Float32 → Prop where
  /-- Without changes a value stays what it is. -/
  | stay (value : Float32) : Leads value [] value
  /-- One change, and then the others. -/
  | go {start finish : Float32} {change : AttributeChange Float32}
      {rest : List (AttributeChange Float32)} :
      change.old = start → Leads change.new rest finish → Leads start (change :: rest) finish

/-- Changes and then more of them. -/
theorem Leads.append {start middle finish : Float32} {changes more : List (AttributeChange Float32)}
    (before : Leads start changes middle) (after : Leads middle more finish) :
    Leads start (changes ++ more) finish := by
  induction before with
  | stay _ => exact after
  | go old _ ih => exact .go old (ih after)

/-- The last change ends at the value that the changes lead to. -/
theorem Leads.last {start finish : Float32} {changes : List (AttributeChange Float32)}
    (leads : Leads start changes finish) : ∀ change ∈ changes.getLast?, change.new = finish := by
  induction leads with
  | stay _ => exact fun _ none => nomatch none
  | go _ leads ih =>
    intro change found
    cases leads with
    | stay _ => exact congrArg new (Option.some.inj found).symm
    | go old onward => exact ih change (List.getLast?_cons_cons ▸ found)

/-- The changes of one kind. -/
def ofKind (kind : ValueKind) (changes : List (AttributeChange Float32)) :
    List (AttributeChange Float32) :=
  changes.filter fun change => decide (change.kind = kind)

/-- The stored values as they are known after one more change was heard of. -/
def learn (values : ValueKind → Float32) (change : AttributeChange Float32) :
    ValueKind → Float32 :=
  Function.update values change.kind change.new

variable {kind : ValueKind} {change : AttributeChange Float32}
  {changes more : List (AttributeChange Float32)} {start middle finish : ValueKind → Float32}

/-- A change is one of its kind. -/
theorem ofKind_cons_of_eq (mine : change.kind = kind) :
    ofKind kind (change :: changes) = change :: ofKind kind changes := by
  simp [ofKind, mine]

/-- A change is not one of the other kind. -/
theorem ofKind_cons_of_ne (other : change.kind ≠ kind) :
    ofKind kind (change :: changes) = ofKind kind changes := by
  simp [ofKind, other]

/-- A change tells the value of its kind. -/
theorem learn_of_eq (mine : change.kind = kind) : learn start change kind = change.new := by
  subst mine
  exact Function.update_self ..

/-- A change tells nothing of the other kind. -/
theorem learn_of_ne (other : change.kind ≠ kind) : learn start change kind = start kind :=
  Function.update_of_ne (Ne.symm other) ..

/-- Who hears of changes that lead from a known value to another knows that one. -/
theorem Leads.foldl_learn {last : Float32}
    (leads : Leads (start kind) (ofKind kind changes) last) :
    changes.foldl learn start kind = last := by
  induction changes generalizing start with
  | nil =>
    cases leads
    rfl
  | cons change rest ih =>
    refine ih ?_
    by_cases mine : change.kind = kind
    · rw [ofKind_cons_of_eq mine] at leads
      rw [learn_of_eq mine]
      cases leads with
      | go _ onward => exact onward
    · rw [ofKind_cons_of_ne mine] at leads
      rwa [learn_of_ne mine]

/-- Changes lead from some stored values to others without a gap. -/
structure Unbroken (start : ValueKind → Float32) (changes : List (AttributeChange Float32))
    (finish : ValueKind → Float32) : Prop where
  /-- Those of each kind lead from the one value to the other. -/
  leads : ∀ kind, Leads (start kind) (ofKind kind changes) (finish kind)
  /-- The last one of a kind tells what the value is. -/
  last : ∀ kind, ∀ change ∈ (ofKind kind changes).getLast?, change.new = finish kind
  /-- Who knows the values at the start and hears of the changes knows the values at the end. -/
  learned : changes.foldl learn start = finish

namespace Unbroken

/-- It is enough that the changes of each kind lead on. -/
theorem of_leads (leads : ∀ kind, Leads (start kind) (ofKind kind changes) (finish kind)) :
    Unbroken start changes finish :=
  ⟨leads, fun kind => (leads kind).last, funext fun kind => (leads kind).foldl_learn⟩

/-- No changes. -/
theorem nil (start : ValueKind → Float32) : Unbroken start [] start :=
  .of_leads fun kind => .stay (start kind)

/-- One change, from the value that is stored. -/
theorem single (old : change.old = start change.kind) :
    Unbroken start [change] (learn start change) := by
  refine .of_leads fun kind => ?_
  by_cases mine : change.kind = kind
  · rw [ofKind_cons_of_eq mine, learn_of_eq mine]
    exact .go (mine ▸ old) (.stay _)
  · rw [ofKind_cons_of_ne mine, learn_of_ne mine]
    exact .stay _

/-- Changes and then more of them. -/
theorem append (before : Unbroken start changes middle) (after : Unbroken middle more finish) :
    Unbroken start (changes ++ more) finish := by
  refine .of_leads fun kind => ?_
  rw [ofKind, List.filter_append]
  exact (before.leads kind).append (after.leads kind)

end Unbroken

end AttributeChange

open AttributeChange (Unbroken learn)

/-- What is told to an observer, and under which name it reports. -/
def AttributeSignal.told? : AttributeSignal → Option (EntityId × AttributeChange Float32)
  | asked .. => none
  | changed observer change => some (observer, change)

namespace Attribute

/-- What a request tells the observers, in order. -/
def told (observer : EntityId) (attr : Attribute) (request : AttributeRequest) :
    List (EntityId × AttributeChange Float32) :=
  (request.perform observer attr).events.filterMap AttributeSignal.told?

/-- What one subscription hears of it. -/
def heard (observer : EntityId) (id : SubscriptionId) (attr : Attribute)
    (request : AttributeRequest) : List (AttributeChange Float32) :=
  (attr.observers.share id (attr.told observer request)).map (·.2)

/-- What one subscription hears of some operations in turn. -/
def hears (observer : EntityId) (id : SubscriptionId) (attr : Attribute)
    (operations : List (Subscribers Hook × AttributeRequest)) : List (AttributeChange Float32) :=
  (attr.course observer operations).flatMap fun step => step.1.heard observer id step.2

/-- The stored value of a kind. -/
def stored (attr : Attribute) : ValueKind → Float32
  | .base => attr.base
  | .current => attr.current

/-- Of some hooks that are asked in turn, each about the value that those before it have left, one
vetoes. -/
inductive Vetoes (id : AttributeId) (kind : ValueKind) (old : Float32) :
    List Hook → Float32 → Prop where
  /-- The first hook vetoes. -/
  | here {hook : Hook} {rest : List Hook} {value : Float32} :
      hook.judge ⟨id, kind, old, value⟩ = .veto → Vetoes id kind old (hook :: rest) value
  /-- The first hook accepts the value, and a later one vetoes. -/
  | accepted {hook : Hook} {rest : List Hook} {value : Float32} :
      hook.judge ⟨id, kind, old, value⟩ = .accept → Vetoes id kind old rest value →
      Vetoes id kind old (hook :: rest) value
  /-- The first hook replaces the value, and a later one vetoes. -/
  | replaced {hook : Hook} {rest : List Hook} {value other : Float32} :
      hook.judge ⟨id, kind, old, value⟩ = .replace other → Vetoes id kind old rest other →
      Vetoes id kind old (hook :: rest) value

/-- Hooks tell the observers nothing. -/
theorem told_consult (id : AttributeId) (kind : ValueKind) (old : Float32) (hooks : List Hook)
    (value : Float32) :
    (consult id kind old hooks value).2.filterMap AttributeSignal.told? = [] := by
  induction hooks generalizing value with
  | nil => rfl
  | cons hook rest ih =>
    rw [consult]
    split
    · rfl
    · exact ih value
    · exact ih _

/-- Nothing remains of a value that is vetoed. -/
theorem Vetoes.exists_asked {id : AttributeId} {kind : ValueKind} {old value : Float32}
    {hooks : List Hook} (vetoes : Vetoes id kind old hooks value) :
    ∃ asked, asked.filterMap AttributeSignal.told? = [] ∧
      consult id kind old hooks value = (none, asked) := by
  have quiet := told_consult id kind old hooks value
  suffices none : (consult id kind old hooks value).1 = none from
    ⟨_, quiet, Prod.ext none rfl⟩
  clear quiet
  induction vetoes with
  | here veto => rw [consult, veto]
  | accepted accept _ ih => rw [consult, accept]; exact ih
  | replaced replace _ ih => rw [consult, replace]; exact ih

/-- A change is told to all observers in turn. -/
theorem told_announce (attr : Attribute) (kind : ValueKind) (old new : Float32) :
    (attr.announce kind old new).filterMap AttributeSignal.told? =
      attr.observers.listeners.map fun listener => (listener, ⟨attr.id, kind, old, new⟩) := by
  rw [announce, List.filterMap_map, ← List.filterMap_eq_map]
  rfl

/-- What writing the base value can do: a hook vetoes, and nothing is done; or both values are
stored, and the observers are told of the current one first. -/
theorem setBase_cases (attr : Attribute) (value : Float32) :
    (∃ asked, asked.filterMap AttributeSignal.told? = [] ∧
      attr.setBase value = (false, attr, asked)) ∨
    ∃ base current asked, asked.filterMap AttributeSignal.told? = [] ∧
      attr.setBase value = (true, { attr with base, current, dirty := false },
        asked ++ attr.announce .current attr.current current ++
          attr.announce .base attr.base base) := by
  have quiet := told_consult attr.id .base attr.base attr.hooks.listeners value
  unfold setBase
  split
  · next asked consulted =>
    rw [consulted] at quiet
    exact .inl ⟨asked, quiet, rfl⟩
  · next proposed asked consulted =>
    rw [consulted] at quiet
    exact .inr ⟨attr.clamp proposed, computed { attr with base := attr.clamp proposed }, asked,
      quiet, rfl⟩

/-- What writing the current value can do: a hook vetoes, and nothing is done; or it is stored, and
the observers are told of it. -/
theorem setCurrent_cases (attr : Attribute) (value : Float32) :
    (∃ asked, asked.filterMap AttributeSignal.told? = [] ∧
      attr.setCurrent value = (false, attr, asked)) ∨
    ∃ current asked, asked.filterMap AttributeSignal.told? = [] ∧
      attr.setCurrent value = (true, { attr with current },
        asked ++ attr.announce .current attr.current current) := by
  have quiet := told_consult attr.id .current attr.current attr.hooks.listeners value
  unfold setCurrent
  split
  · next asked consulted =>
    rw [consulted] at quiet
    exact .inl ⟨asked, quiet, rfl⟩
  · next proposed asked consulted =>
    rw [consulted] at quiet
    exact .inr ⟨attr.clamp proposed, asked, quiet, rfl⟩

/-- What is told when some changes are, each to all observers in turn. -/
def rounds (attr : Attribute) (changes : List (AttributeChange Float32)) :
    List (EntityId × AttributeChange Float32) :=
  changes.flatMap fun change => attr.observers.listeners.map fun listener => (listener, change)

/-- An outcome tells all observers in turn of some changes of the attribute, which lead from what it
stored to what it stores. -/
structure Tells (attr : Attribute) (done : Outcome Attribute AttributeSignal)
    (changes : List (AttributeChange Float32)) : Prop where
  /-- All observers are told, and they are told nothing else. -/
  rounds : done.events.filterMap AttributeSignal.told? = attr.rounds changes
  /-- The changes are the attribute's own. -/
  own : ∀ change ∈ changes, change.attr = attr.id
  /-- They leave no gap. -/
  unbroken : Unbroken attr.stored changes done.state.stored

/-- The attribute with another value stored. -/
def store (attr : Attribute) (kind : ValueKind) (value : Float32) : Attribute :=
  match kind with
  | .base => { attr with base := value }
  | .current => { attr with current := value }

/-- Storing one value is one change. -/
theorem unbroken_store (attr : Attribute) (kind : ValueKind) (value : Float32) :
    Unbroken attr.stored [⟨attr.id, kind, attr.stored kind, value⟩]
      (attr.store kind value).stored := by
  have change : Unbroken attr.stored [⟨attr.id, kind, attr.stored kind, value⟩] _ := .single rfl
  have same : (attr.store kind value).stored =
      learn attr.stored ⟨attr.id, kind, attr.stored kind, value⟩ := by
    funext other
    cases kind <;> cases other <;> rfl
  rwa [← same] at change

/-- Every request tells the observers of such changes. -/
theorem exists_tells (observer : EntityId) (attr : Attribute) (request : AttributeRequest) :
    ∃ changes, attr.Tells (request.perform observer attr) changes := by
  cases request with
  | setBase value =>
    rcases attr.setBase_cases value with
      ⟨asked, quiet, done⟩ | ⟨base, current, asked, quiet, done⟩
    · refine ⟨[], ?_⟩
      simp only [AttributeRequest.perform, done]
      exact ⟨quiet, nofun, .nil _⟩
    · refine ⟨[⟨attr.id, .current, attr.current, current⟩,
        ⟨attr.id, .base, attr.base, base⟩], ?_⟩
      simp only [AttributeRequest.perform, done]
      refine ⟨?_, by simp, ?_⟩
      · simp [quiet, told_announce, Attribute.rounds]
      · have first := attr.unbroken_store .current current
        exact first.append ((attr.store .current current).unbroken_store .base base)
  | setCurrent value =>
    rcases attr.setCurrent_cases value with
      ⟨asked, quiet, done⟩ | ⟨current, asked, quiet, done⟩
    · refine ⟨[], ?_⟩
      simp only [AttributeRequest.perform, done]
      exact ⟨quiet, nofun, .nil _⟩
    · refine ⟨[⟨attr.id, .current, attr.current, current⟩], ?_⟩
      simp only [AttributeRequest.perform, done]
      refine ⟨?_, by simp, attr.unbroken_store .current current⟩
      simp [quiet, told_announce, Attribute.rounds]
  | recalculate =>
    refine ⟨[⟨attr.id, .current, attr.current, attr.computed⟩], ?_, by simp, ?_⟩
    · simp [AttributeRequest.perform, recalculate, told_announce, Attribute.rounds]
    · exact attr.unbroken_store .current attr.computed
  -- Nothing is stored, and nothing told.
  | _ => exact ⟨[], rfl, nofun, .nil _⟩

end Attribute

namespace AttributeRequest

/-- A hook vetoes what the request would write. -/
def Vetoed (attr : Attribute) : AttributeRequest → Prop
  | setBase value => Attribute.Vetoes attr.id .base attr.base attr.hooks.listeners value
  | setCurrent value => Attribute.Vetoes attr.id .current attr.current attr.hooks.listeners value
  | _ => False

/-- The request leaves a subscription alone: it neither ends it nor drops everything. -/
def Spares (id : SubscriptionId) : AttributeRequest → Prop
  | unobserve other => other ≠ id
  | clearCallbacks => False
  | _ => True

end AttributeRequest

namespace Attribute

variable {attr : Attribute} {id : SubscriptionId}

/-- A live subscription hears of the changes that all observers are told of. -/
theorem Tells.heard {observer : EntityId} {request : AttributeRequest}
    {changes : List (AttributeChange Float32)}
    (tells : attr.Tells (request.perform observer attr) changes)
    (live : attr.observers.subscribed id = true) : attr.heard observer id request = changes := by
  have told : attr.told observer request = attr.rounds changes := tells.rounds
  obtain ⟨listener, -, mine⟩ := Subscribers.share_rounds live Prod.mk changes
  rw [Attribute.heard, told, Attribute.rounds, mine, List.map_map]
  exact List.map_id _

/-- What a live subscription hears of a request. -/
theorem tells_heard (live : attr.observers.subscribed id = true) (observer : EntityId)
    (request : AttributeRequest) :
    attr.Tells (request.perform observer attr) (attr.heard observer id request) := by
  obtain ⟨changes, tells⟩ := attr.exists_tells observer request
  rwa [tells.heard live]

/-- A request that a hook vetoes fails, changes nothing and tells the observers nothing. -/
theorem perform_of_vetoed {request : AttributeRequest} (vetoed : request.Vetoed attr)
    (observer : EntityId) :
    (request.perform observer attr).reply = .flag false ∧
      (request.perform observer attr).state = attr ∧ attr.told observer request = [] := by
  cases request with
  | setBase value =>
    obtain ⟨asked, quiet, consulted⟩ := Vetoes.exists_asked vetoed
    have done : attr.setBase value = (false, attr, asked) := by rw [setBase, consulted]
    simp only [told, AttributeRequest.perform, done, quiet, and_self]
  | setCurrent value =>
    obtain ⟨asked, quiet, consulted⟩ := Vetoes.exists_asked vetoed
    have done : attr.setCurrent value = (false, attr, asked) := by rw [setCurrent, consulted]
    simp only [told, AttributeRequest.perform, done, quiet, and_self]
  | _ => cases vetoed

/-- A request that leaves a subscription alone keeps it live. -/
theorem subscribed_perform (live : attr.observers.subscribed id = true)
    {request : AttributeRequest} (spares : request.Spares id) (observer : EntityId) :
    (request.perform observer attr).state.observers.subscribed id = true := by
  cases request with
  | setBase value =>
    rcases attr.setBase_cases value with ⟨asked, -, done⟩ | ⟨base, current, asked, -, done⟩
    · simp only [AttributeRequest.perform, done, live]
    · simp only [AttributeRequest.perform, done, live]
  | setCurrent value =>
    rcases attr.setCurrent_cases value with ⟨asked, -, done⟩ | ⟨current, asked, -, done⟩
    · simp only [AttributeRequest.perform, done, live]
    · simp only [AttributeRequest.perform, done, live]
  | observe => exact Subscribers.subscribed_subscribe live observer
  | unobserve other => exact Subscribers.subscribed_unsubscribe live spares
  | clearCallbacks => cases spares
  | _ => exact live

/-- What a subscription hears of operations that leave it alone leads from what is stored at first
to what is stored in the end. -/
theorem unbroken_hears (live : attr.observers.subscribed id = true) {observer : EntityId}
    {operations : List (Subscribers Hook × AttributeRequest)}
    (spare : ∀ operation ∈ operations, operation.2.Spares id) :
    Unbroken attr.stored (attr.hears observer id operations)
      (attr.afterEach observer operations).stored := by
  induction operations generalizing attr with
  | nil => exact .nil _
  | cons operation rest ih =>
    obtain ⟨hooks, request⟩ := operation
    obtain ⟨first, others⟩ := List.forall_mem_cons.1 spare
    have asked : (observers { attr with hooks }).subscribed id = true := live
    have now := (tells_heard asked observer request).unbroken
    exact now.append (ih (subscribed_perform asked first observer) others)

/-- A subscription that operations leave alone is live at each of them. -/
theorem subscribed_course (live : attr.observers.subscribed id = true) {observer : EntityId}
    {operations : List (Subscribers Hook × AttributeRequest)}
    (spare : ∀ operation ∈ operations, operation.2.Spares id) :
    ∀ step ∈ attr.course observer operations, step.1.observers.subscribed id = true := by
  induction operations generalizing attr with
  | nil => exact fun _ member => nomatch member
  | cons operation rest ih =>
    obtain ⟨hooks, request⟩ := operation
    obtain ⟨first, others⟩ := List.forall_mem_cons.1 spare
    have asked : (observers { attr with hooks }).subscribed id = true := live
    intro step member
    rcases List.mem_cons.1 member with rfl | later
    · exact asked
    · exact ih (subscribed_perform asked first observer) others step later

end Attribute

/-- Whatever an attribute is and whatever is done with it while somebody observes it: after every
operation, what was heard leads without a gap from what was stored when the observing began to what
is stored by then, bit for bit and for both values. All observers are told of each change, and told
nothing else; and a write that a hook vetoes fails, changes nothing and is told to nobody. -/
theorem notices_leave_no_gap {attr : Attribute} {id : SubscriptionId}
    (live : attr.observers.subscribed id = true) {observer : EntityId}
    {operations : List (Subscribers Hook × AttributeRequest)}
    (spare : ∀ operation ∈ operations, operation.2.Spares id) :
    (∀ done, done <+: operations →
      Unbroken attr.stored (attr.hears observer id done) (attr.afterEach observer done).stored) ∧
    ∀ asked request, (asked, request) ∈ attr.course observer operations →
      asked.Tells (request.perform observer asked) (asked.heard observer id request) ∧
      (request.Vetoed asked → (request.perform observer asked).reply = .flag false ∧
        (request.perform observer asked).state = asked ∧ asked.told observer request = []) := by
  refine ⟨fun done begun => ?_, fun asked request member => ⟨?_, fun vetoed => ?_⟩⟩
  · exact Attribute.unbroken_hears live fun operation member =>
      spare operation (begun.subset member)
  · exact Attribute.tells_heard (Attribute.subscribed_course live spare _ member) observer request
  · exact Attribute.perform_of_vetoed vetoed observer

/-- An attribute of ten points that is observed twice for the same entity. -/
def watched : Attribute := vigor.afterEach ⟨1⟩ [(.empty, .observe), (.empty, .observe)]

/-- A write of three points fails. Thirty and forty are written while a hook lets half of a change
through, five are added in between, and the first observer gives way to another one. -/
def workout : List (Subscribers Hook × AttributeRequest) :=
  [(sealed, .setBase (Float32.ofBits 0x40400000)), (halving, .setBase (Float32.ofBits 0x41f00000)),
    (.empty, .attach bracing), (.empty, .unobserve ⟨0⟩), (.empty, .observe),
    (halving, .setCurrent (Float32.ofBits 0x42200000)), (.empty, .recalculate)]

/-- The second observer hears of the current value going from ten to twenty, to thirty and to
twenty-five, and of the base value going from ten to twenty. -/
theorem watched_workout : watched.observers.subscribed ⟨1⟩ = true ∧
    (∀ operation ∈ workout, operation.2.Spares ⟨1⟩) ∧
    Unbroken watched.stored (watched.hears ⟨1⟩ ⟨1⟩ workout)
      (watched.afterEach ⟨1⟩ workout).stored ∧
    ({ watched with hooks := sealed }.told ⟨1⟩ (.setBase (Float32.ofBits 0x40400000)) = []) ∧
    (watched.hears ⟨1⟩ ⟨1⟩ workout).map
      (fun change => (change.kind, change.old.toBits, change.new.toBits)) =
      [(.current, 0x41200000, 0x41a00000), (.base, 0x41200000, 0x41a00000),
        (.current, 0x41a00000, 0x41f00000), (.current, 0x41f00000, 0x41c80000)] := by
  have live : watched.observers.subscribed ⟨1⟩ = true := rfl
  have spare : ∀ operation ∈ workout, operation.2.Spares ⟨1⟩ := by
    simp [workout, AttributeRequest.Spares]
  obtain ⟨heard, steps⟩ := notices_leave_no_gap live spare
  have vetoed : (AttributeRequest.setBase (Float32.ofBits 0x40400000)).Vetoed
      { watched with hooks := sealed } := .here rfl
  obtain ⟨-, quiet⟩ := steps _ _ (.head _)
  exact ⟨live, spare, heard workout (List.prefix_refl _), (quiet vetoed).2.2, by decide +kernel⟩

end SkillEngine
