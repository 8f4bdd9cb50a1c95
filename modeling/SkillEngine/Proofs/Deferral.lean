import SkillEngine.Proofs.Enrolment

/-!
# Deferred registration

While a tick runs, a registry *defers*: what it will be at the end of the tick is what another
registry is already, on which the same calls were made outside a tick. Each call keeps the two in
step, but for one: unregistering a number that is registered and about to leave is overlooked when
another entity of the number waits to join, since the call finds the one that leaves.
-/

namespace SkillEngine

namespace Registry

variable {registry deferred immediate : Registry} {id : EntityId}

/-- Who is registered after an entity joined. -/
theorem contains_join (registry : Registry) (newcomer : Entity) (id : EntityId) :
    (registry.join newcomer).contains id = (registry.contains id || newcomer.id == id) := by
  simp only [contains, join, Dict.contains, Dict.get?_insert]
  by_cases same : id = newcomer.id
  · simp [same]
  · have differs : newcomer.id ≠ id := fun equal => same equal.symm
    simp [same, differs]

/-- Who is registered after an entity left. -/
theorem contains_leave (registry : Registry) (leaver id : EntityId) :
    (registry.leave leaver).contains id = (registry.contains id && leaver != id) := by
  simp only [contains, leave, Dict.contains, Dict.get?_erase]
  by_cases same : id = leaver
  · simp [same]
  · have differs : leaver ≠ id := fun equal => same equal.symm
    simp [same, differs]

/-- Who is registered after some entities joined in turn. -/
theorem contains_joinEach (newcomers : List Entity) (registry : Registry) (id : EntityId) :
    (newcomers.foldl join registry).contains id =
      (registry.contains id || newcomers.any (·.id == id)) := by
  induction newcomers generalizing registry with
  | nil => simp
  | cons newcomer rest ih =>
    rw [List.foldl_cons, ih, contains_join, List.any_cons, Bool.or_assoc]

/-- Who is registered after some entities left in turn. -/
theorem contains_leaveEach (leavers : List EntityId) (registry : Registry) (id : EntityId) :
    (leavers.foldl leave registry).contains id =
      (registry.contains id && !leavers.contains id) := by
  induction leavers generalizing registry with
  | nil => simp
  | cons leaver rest ih =>
    have flipped : (id == leaver) = (leaver == id) := Bool.beq_comm
    rw [List.foldl_cons, ih, contains_leave, List.contains_cons, Bool.not_or, Bool.and_assoc,
      flipped]
    rfl

/-- The order after some entities joined in turn. -/
theorem order_joinEach (newcomers : List Entity) (registry : Registry) :
    (newcomers.foldl join registry).order = registry.order ++ newcomers.map (·.id) := by
  induction newcomers generalizing registry with
  | nil => simp
  | cons newcomer rest ih =>
    rw [List.foldl_cons, ih]
    simp [join]

/-- The order after some entities left in turn. -/
theorem order_leaveEach (leavers : List EntityId) (registry : Registry) :
    (leavers.foldl leave registry).order =
      registry.order.filter fun id => !leavers.contains id := by
  induction leavers generalizing registry with
  | nil => simp
  | cons leaver rest ih =>
    rw [List.foldl_cons, ih]
    simp only [leave, List.filter_filter, List.contains_cons]
    refine List.filter_congr fun id _ => ?_
    rw [Bool.not_or, Bool.and_comm]
    rfl

/-- Joining begins and ends no tick. -/
theorem ticking_joinEach (newcomers : List Entity) (registry : Registry) :
    (newcomers.foldl join registry).ticking = registry.ticking := by
  induction newcomers generalizing registry with
  | nil => rfl
  | cons newcomer rest ih => exact ih _

/-- Joining makes nobody wait to leave. -/
theorem pendingRemove_joinEach (newcomers : List Entity) (registry : Registry) :
    (newcomers.foldl join registry).pendingRemove = registry.pendingRemove := by
  induction newcomers generalizing registry with
  | nil => rfl
  | cons newcomer rest ih => exact ih _

/-- Outside a tick nobody waits, and whoever is visited is registered. -/
structure Settled (registry : Registry) : Prop where
  /-- No tick is running. -/
  idle : registry.ticking = false
  /-- Nobody waits to join. -/
  nobodyJoins : registry.pendingAdd = []
  /-- Nobody waits to leave. -/
  nobodyLeaves : registry.pendingRemove = []
  /-- Whoever is visited is registered. -/
  listed : ∀ id ∈ registry.order, registry.contains id = true

/-- The number is registered once the tick that is running ends. -/
def willContain (registry : Registry) (id : EntityId) : Bool :=
  registry.contains id && !registry.pendingRemove.contains id
    || registry.pendingAdd.any (·.id == id)

/-- The order of ticking once the tick that is running ends: who stays, then who joins. -/
def willOrder (registry : Registry) : List EntityId :=
  registry.order.filter (fun id => !registry.pendingRemove.contains id)
    ++ registry.pendingAdd.map (·.id)

/-- What a registry in a tick will be at its end is what another registry is. -/
structure Defers (deferred immediate : Registry) : Prop where
  /-- The tick is running. -/
  ticking : deferred.ticking = true
  /-- The other registry is outside a tick. -/
  settled : immediate.Settled
  /-- Whoever is visited is registered. -/
  listed : ∀ id ∈ deferred.order, deferred.contains id = true
  /-- A number that is registered and waits to join waits to leave as well. -/
  renewed : ∀ entity ∈ deferred.pendingAdd, deferred.contains entity.id = true →
    deferred.pendingRemove.contains entity.id = true
  /-- The same entities will be registered. -/
  registered : ∀ id, immediate.contains id = deferred.willContain id
  /-- They will be visited in the same order. -/
  order : immediate.order = deferred.willOrder

/-- The call finds the entity that is about to leave and not the one that waits to join. -/
def overlooks (registry : Registry) : Request → Bool
  | .unregister id => registry.contains id && registry.pendingAdd.any (·.id == id)
  | _ => false

/-- A registry without entities is settled. -/
theorem settled_empty : empty.Settled := ⟨rfl, rfl, rfl, fun _ listed => by cases listed⟩

/-- Settledness is read off the roll. -/
theorem Settled.congr {after : Registry} (settled : registry.Settled)
    (same : after.roll = registry.roll) : after.Settled where
  idle := (congrArg Roll.ticking same).trans settled.idle
  nobodyJoins := (congrArg Roll.joining same).trans settled.nobodyJoins
  nobodyLeaves := (congrArg Roll.leaving same).trans settled.nobodyLeaves
  listed id member := by
    have order : after.order = registry.order := congrArg Roll.order same
    rw [contains_congr same]
    exact settled.listed id (order ▸ member)

/-- What a registry defers is read off the roll. -/
theorem Defers.congr {after : Registry} (defers : deferred.Defers immediate)
    (same : after.roll = deferred.roll) : after.Defers immediate := by
  have order : after.order = deferred.order := congrArg Roll.order same
  have joining : after.pendingAdd = deferred.pendingAdd := congrArg Roll.joining same
  have leaving : after.pendingRemove = deferred.pendingRemove := congrArg Roll.leaving same
  have contains := contains_congr same
  constructor
  · exact (congrArg Roll.ticking same).trans defers.ticking
  · exact defers.settled
  · intro id member
    rw [contains]
    exact defers.listed id (order ▸ member)
  · intro entity waits known
    rw [contains] at known
    rw [leaving]
    exact defers.renewed entity (joining ▸ waits) known
  · intro id
    rw [willContain, contains, joining, leaving]
    exact defers.registered id
  · rw [willOrder, order, joining, leaving]
    exact defers.order

/-- The registry after an entity was registered, if it may be. -/
def registering (registry : Registry) (entity : Entity) : Registry :=
  (registry.register entity).toOption.getD registry

/-- A number that will be registered is refused. -/
theorem registering_of_taken {entity : Entity} (taken : registry.willContain entity.id = true) :
    registry.registering entity = registry := by
  have refused : (registry.pendingAdd.any (·.id == entity.id)
      || (registry.contains entity.id && !registry.pendingRemove.contains entity.id)) = true := by
    rw [Bool.or_comm]
    exact taken
  rw [registering, register, if_pos refused]
  rfl

/-- Another number waits to join, or joins at once. -/
theorem registering_of_free {entity : Entity} (free : registry.willContain entity.id = false) :
    registry.registering entity =
      if registry.ticking then { registry with pendingAdd := registry.pendingAdd ++ [entity] }
      else registry.join entity := by
  have accepted : ¬(registry.pendingAdd.any (·.id == entity.id)
      || (registry.contains entity.id && !registry.pendingRemove.contains entity.id)) = true := by
    rw [Bool.or_comm, Bool.not_eq_true]
    exact free
  rw [registering, register, if_neg accepted]
  split <;> rfl

/-- Outside a tick who will be registered is. -/
theorem Settled.willContain_eq (settled : registry.Settled) (id : EntityId) :
    registry.willContain id = registry.contains id := by
  simp [willContain, settled.nobodyJoins, settled.nobodyLeaves]

/-- Outside a tick who will be visited is. -/
theorem Settled.willOrder_eq (settled : registry.Settled) :
    registry.willOrder = registry.order := by
  simp [willOrder, settled.nobodyJoins, settled.nobodyLeaves]

/-- Joining outside a tick. -/
theorem Settled.join (settled : registry.Settled) (entity : Entity) :
    (registry.join entity).Settled where
  idle := settled.idle
  nobodyJoins := settled.nobodyJoins
  nobodyLeaves := settled.nobodyLeaves
  listed id member := by
    rw [contains_join]
    rcases List.mem_append.1 member with before | last
    · simp [settled.listed id before]
    · simp [List.mem_singleton.1 last]

/-- Leaving outside a tick. -/
theorem Settled.leave (settled : registry.Settled) (leaver : EntityId) :
    (registry.leave leaver).Settled where
  idle := settled.idle
  nobodyJoins := settled.nobodyJoins
  nobodyLeaves := settled.nobodyLeaves
  listed id member := by
    obtain ⟨before, stays⟩ := List.mem_filter.1 member
    have known := settled.listed id before
    have differs : leaver ≠ id := fun same => by simp [same] at stays
    rw [contains_leave]
    simp [known, differs]

/-- Outside a tick an entity of a free number joins at once. -/
theorem Settled.registering_eq (settled : registry.Settled) (entity : Entity) :
    registry.registering entity =
      if registry.contains entity.id then registry else registry.join entity := by
  cases taken : registry.contains entity.id with
  | true => exact registering_of_taken ((settled.willContain_eq _).trans taken)
  | false =>
    rw [registering_of_free ((settled.willContain_eq _).trans taken), settled.idle]
    rfl

/-- Registering outside a tick. -/
theorem Settled.registering (settled : registry.Settled) (entity : Entity) :
    (registry.registering entity).Settled := by
  rw [settled.registering_eq]
  split
  · exact settled
  · exact settled.join entity

/-- Outside a tick a known entity leaves at once. -/
theorem Settled.unregister_eq (settled : registry.Settled) (id : EntityId) :
    (registry.unregister id).2 = if registry.contains id then registry.leave id else registry := by
  unfold unregister
  cases known : registry.contains id with
  | true => simp [settled.idle]
  | false =>
    have nobody := settled.nobodyJoins
    obtain ⟨entities, order, pendingAdd, pendingRemove, ticking⟩ := registry
    simp_all

/-- Unregistering outside a tick. -/
theorem Settled.unregister (settled : registry.Settled) (id : EntityId) :
    (registry.unregister id).2.Settled := by
  rw [settled.unregister_eq]
  split
  · exact settled.leave id
  · exact settled

/-- Nobody but the unregistered entity ceases to be registered. -/
theorem Settled.contains_unregister (settled : registry.Settled) (id other : EntityId) :
    (registry.unregister id).2.contains other = (registry.contains other && id != other) := by
  rw [settled.unregister_eq]
  split
  · exact contains_leave registry id other
  · next unknown =>
    by_cases same : id = other
    · subst same
      simpa using unknown
    · simp [same]

/-- Nobody but the unregistered entity ceases to be visited. -/
theorem Settled.order_unregister (settled : registry.Settled) (id : EntityId) :
    (registry.unregister id).2.order = registry.order.filter (· != id) := by
  rw [settled.unregister_eq]
  split
  · rfl
  · next unknown =>
    refine (List.filter_eq_self.2 fun other listed => ?_).symm
    have differs : other ≠ id := fun same => unknown (same ▸ settled.listed other listed)
    simpa using differs

/-- A tick that begins defers nothing yet. -/
theorem Settled.defers (settled : registry.Settled) : registry.beginTick.Defers registry where
  ticking := rfl
  settled := settled
  listed := settled.listed
  renewed entity waits := by
    have joins : entity ∈ registry.pendingAdd := waits
    rw [settled.nobodyJoins] at joins
    cases joins
  registered id := (settled.willContain_eq id).symm
  order := settled.willOrder_eq.symm

/-- Registering in a tick defers what registering outside of it does at once. -/
theorem Defers.registering (defers : deferred.Defers immediate) {entity other : Entity}
    (same : entity.id = other.id) :
    (deferred.registering entity).Defers (immediate.registering other) := by
  have agree : immediate.contains other.id = deferred.willContain entity.id := by
    rw [same, defers.registered]
  rw [defers.settled.registering_eq, agree]
  cases taken : deferred.willContain entity.id with
  | true =>
    rw [registering_of_taken taken]
    exact defers
  | false =>
    rw [registering_of_free taken, defers.ticking]
    constructor
    · rfl
    · exact defers.settled.join other
    · exact defers.listed
    · intro joiner waits known
      rcases List.mem_append.1 waits with before | last
      · exact defers.renewed joiner before known
      · have known : deferred.contains entity.id = true := List.mem_singleton.1 last ▸ known
        have leaves : deferred.pendingRemove.contains entity.id = true := by
          have free := (Bool.or_eq_false_iff.1 taken).1
          rw [known, Bool.true_and] at free
          simpa using free
        exact List.mem_singleton.1 last ▸ leaves
    · intro id
      have split : deferred.willContain id = (deferred.contains id
          && !deferred.pendingRemove.contains id || deferred.pendingAdd.any (·.id == id)) := rfl
      show (immediate.join other).contains id = (deferred.contains id
        && !deferred.pendingRemove.contains id
        || (deferred.pendingAdd ++ [entity]).any (·.id == id))
      rw [contains_join, defers.registered, split, List.any_append, ← same, Bool.or_assoc]
      simp
    · show immediate.order ++ [other.id] =
        deferred.order.filter (fun id => !deferred.pendingRemove.contains id) ++
          (deferred.pendingAdd ++ [entity]).map (·.id)
      rw [defers.order, willOrder, List.map_append, List.append_assoc, ← same]
      rfl

/-- Unregistering a number that is not registered keeps its entities from joining. -/
theorem unregister_of_absent (absent : registry.contains id = false) :
    (registry.unregister id).2 =
      { registry with pendingAdd := registry.pendingAdd.filter (·.id != id) } := by
  simp [unregister, absent]

/-- Unregistering a registered number in a tick makes it wait to leave. -/
theorem unregister_of_present (ticking : registry.ticking = true)
    (present : registry.contains id = true) :
    (registry.unregister id).2 = { registry with
      pendingRemove := if registry.pendingRemove.contains id then registry.pendingRemove
        else registry.pendingRemove ++ [id] } := by
  simp [unregister, present, ticking]

/-- Who waits to leave after one number more does. -/
theorem contains_enqueued (leaving : List EntityId) (id other : EntityId) :
    (if leaving.contains id then leaving else leaving ++ [id]).contains other =
      (leaving.contains other || id == other) := by
  by_cases same : id = other
  · subst same
    cases queued : leaving.contains id <;> simp_all
  · have differs : other ≠ id := fun equal => same equal.symm
    split <;> simp [same, differs]

/-- Unregistering in a tick, unless the call is overlooked: nobody but the unregistered entity
ceases to be about to be registered. -/
theorem willContain_unregister (ticking : registry.ticking = true)
    (heeded : registry.overlooks (.unregister id) = false) (other : EntityId) :
    (registry.unregister id).2.willContain other = (registry.willContain other && id != other) := by
  cases present : registry.contains id with
  | false =>
    rw [unregister_of_absent present]
    show (registry.contains other && !registry.pendingRemove.contains other
      || (registry.pendingAdd.filter (·.id != id)).any (·.id == other)) = _
    rw [List.any_filter, willContain]
    by_cases same : id = other
    · subst same
      simp [present]
    · have apart : (id != other) = true := bne_iff_ne.2 same
      have joins : (fun entity : Entity => entity.id != id && entity.id == other) =
          fun entity => entity.id == other := by
        funext entity
        by_cases equal : entity.id = other
        · simp [equal, Ne.symm same]
        · simp [equal]
      rw [joins, apart, Bool.and_true]
  | true =>
    have nobody : registry.pendingAdd.any (·.id == id) = false := by
      simpa [overlooks, present] using heeded
    rw [unregister_of_present ticking present]
    show (registry.contains other && !(if registry.pendingRemove.contains id then
      registry.pendingRemove else registry.pendingRemove ++ [id]).contains other
        || registry.pendingAdd.any (·.id == other)) = _
    rw [contains_enqueued, willContain]
    by_cases same : id = other
    · subst same
      rw [beq_self_eq_true, Bool.or_true, nobody]
      simp
    · have apart : (id == other) = false := beq_eq_false_iff_ne.2 same
      rw [apart, Bool.or_false, bne, apart, Bool.not_false, Bool.and_true]

/-- Unregistering in a tick, unless the call is overlooked: nobody but the unregistered entity
ceases to be about to be visited. -/
theorem willOrder_unregister (ticking : registry.ticking = true)
    (listed : ∀ id ∈ registry.order, registry.contains id = true)
    (heeded : registry.overlooks (.unregister id) = false) :
    (registry.unregister id).2.willOrder = registry.willOrder.filter (· != id) := by
  cases present : registry.contains id with
  | false =>
    have stays : registry.order.filter (fun other => other != id &&
        !registry.pendingRemove.contains other) =
        registry.order.filter fun other => !registry.pendingRemove.contains other := by
      refine List.filter_congr fun other member => ?_
      have differs : other ≠ id := fun same => by
        have known := listed other member
        rw [same, present] at known
        cases known
      simp [differs]
    rw [unregister_of_absent present, willOrder, willOrder, List.filter_append, List.filter_filter,
      stays, List.filter_map]
    rfl
  | true =>
    have nobody : registry.pendingAdd.any (·.id == id) = false := by
      simpa [overlooks, present] using heeded
    have joins : (registry.pendingAdd.map (·.id)).filter (· != id) =
        registry.pendingAdd.map (·.id) := by
      refine List.filter_eq_self.2 fun other member => ?_
      obtain ⟨entity, waits, rfl⟩ := List.mem_map.1 member
      have apart := List.any_eq_false.1 nobody entity waits
      simpa using apart
    rw [unregister_of_present ticking present, willOrder, willOrder, List.filter_append,
      List.filter_filter, joins]
    refine congrArg (· ++ _) (List.filter_congr fun other _ => ?_)
    rw [contains_enqueued, Bool.not_or, Bool.and_comm, bne, Bool.beq_comm]

/-- Unregistering in a tick defers what unregistering outside of it does at once, unless the call is
overlooked. -/
theorem Defers.unregister (defers : deferred.Defers immediate)
    (heeded : deferred.overlooks (.unregister id) = false) :
    (deferred.unregister id).2.Defers (immediate.unregister id).2 := by
  have registered (other : EntityId) : (immediate.unregister id).2.contains other =
      (deferred.unregister id).2.willContain other := by
    rw [defers.settled.contains_unregister, willContain_unregister defers.ticking heeded,
      defers.registered]
  have order : (immediate.unregister id).2.order = (deferred.unregister id).2.willOrder := by
    rw [defers.settled.order_unregister,
      willOrder_unregister defers.ticking defers.listed heeded, defers.order]
  cases present : deferred.contains id with
  | false =>
    rw [unregister_of_absent present] at registered order ⊢
    refine ⟨defers.ticking, defers.settled.unregister id, defers.listed, ?_, registered, order⟩
    intro entity waits known
    exact defers.renewed entity (List.mem_filter.1 waits).1 known
  | true =>
    rw [unregister_of_present defers.ticking present] at registered order ⊢
    refine ⟨defers.ticking, defers.settled.unregister id, defers.listed, ?_, registered, order⟩
    intro entity waits known
    rw [contains_enqueued, defers.renewed entity waits known]
    rfl

/-- An overlooked call changes nothing. -/
theorem Defers.overlooked (defers : deferred.Defers immediate)
    (overlooked : deferred.overlooks (.unregister id) = true) :
    (deferred.unregister id).2 = deferred := by
  obtain ⟨present, waits⟩ := (Bool.and_eq_true _ _).mp overlooked
  obtain ⟨entity, joins, same⟩ := List.any_eq_true.1 waits
  have number : entity.id = id := beq_iff_eq.1 same
  have leaves := defers.renewed entity joins (number ▸ present)
  rw [number] at leaves
  rw [unregister_of_present defers.ticking present, if_pos leaves]

/-- Ending no tick changes nothing. -/
theorem Settled.endTick (settled : registry.Settled) : registry.endTick = registry := by
  obtain ⟨idle, nobodyJoins, nobodyLeaves, _⟩ := settled
  obtain ⟨entities, order, pendingAdd, pendingRemove, ticking⟩ := registry
  cases idle
  cases nobodyJoins
  cases nobodyLeaves
  rfl

/-- At the end of the tick the registry is what it deferred. -/
theorem Defers.atEnd (defers : deferred.Defers immediate) :
    deferred.endTick.Settled ∧ (∀ id, deferred.endTick.contains id = immediate.contains id) ∧
      deferred.endTick.order = immediate.order := by
  have registered (id : EntityId) : deferred.endTick.contains id = immediate.contains id := by
    rw [defers.registered]
    unfold endTick willContain
    rw [contains_joinEach]
    exact congrArg (· || _) (contains_leaveEach deferred.pendingRemove deferred id)
  have order : deferred.endTick.order = immediate.order := by
    rw [defers.order]
    unfold endTick willOrder
    rw [order_joinEach]
    exact congrArg (· ++ _) (order_leaveEach deferred.pendingRemove deferred)
  refine ⟨⟨?_, pendingAdd_endTick deferred, ?_, ?_⟩, registered, order⟩
  · exact ticking_joinEach deferred.pendingAdd _
  · exact pendingRemove_joinEach deferred.pendingAdd _
  · intro id member
    rw [registered]
    exact defers.settled.listed id (order ▸ member)

end Registry

end SkillEngine
