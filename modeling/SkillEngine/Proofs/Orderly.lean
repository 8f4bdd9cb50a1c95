import SkillEngine.Proofs.Deferral
import Mathlib.Data.List.Nodup

/-!
# An orderly registry

A registry is orderly when its order lists every registered number once, when nobody waits to join
twice or under a number that stays taken, and nobody waits to leave twice or without being
registered; outside a tick nobody waits at all. Every change of a registry keeps it orderly, and in
a tick neither who is registered nor the order changes.
-/

namespace SkillEngine

namespace Registry

variable {registry : Registry}

/-- The order, the registered entities and those that wait agree with each other. -/
structure Orderly (registry : Registry) : Prop where
  /-- No number is visited twice. -/
  distinct : registry.order.Nodup
  /-- Exactly the registered numbers are visited. -/
  listed : ∀ id, id ∈ registry.order ↔ registry.contains id = true
  /-- No two that wait to join share a number. -/
  joinOnce : (registry.pendingAdd.map (·.id)).Nodup
  /-- The number of one that waits to join is free, or is about to be. -/
  joinApart : ∀ entity ∈ registry.pendingAdd,
    registry.contains entity.id = false ∨ entity.id ∈ registry.pendingRemove
  /-- No number waits to leave twice. -/
  leaveOnce : registry.pendingRemove.Nodup
  /-- Who waits to leave is registered. -/
  leaveKnown : ∀ id ∈ registry.pendingRemove, registry.contains id = true
  /-- Outside a tick nobody waits. -/
  idle : registry.ticking = false → registry.pendingAdd = [] ∧ registry.pendingRemove = []

/-- A registry without entities is orderly. -/
theorem orderly_empty : empty.Orderly where
  distinct := .nil
  listed _ := by simp [empty, contains, Dict.contains, Dict.get?, Dict.empty, Dict.lookup]
  joinOnce := .nil
  joinApart _ waits := by cases waits
  leaveOnce := .nil
  leaveKnown _ waits := by cases waits
  idle _ := ⟨rfl, rfl⟩

/-- Whether a registry is orderly is read off the roll. -/
theorem Orderly.congr {after : Registry} (orderly : registry.Orderly)
    (same : after.roll = registry.roll) : after.Orderly := by
  have order : after.order = registry.order := congrArg Roll.order same
  have joining : after.pendingAdd = registry.pendingAdd := congrArg Roll.joining same
  have leaving : after.pendingRemove = registry.pendingRemove := congrArg Roll.leaving same
  have ticking : after.ticking = registry.ticking := congrArg Roll.ticking same
  have contains := contains_congr same
  constructor
  · exact order ▸ orderly.distinct
  · exact fun id => by rw [order, contains, orderly.listed]
  · exact joining ▸ orderly.joinOnce
  · intro entity waits
    rw [contains, leaving]
    exact orderly.joinApart entity (joining ▸ waits)
  · exact leaving ▸ orderly.leaveOnce
  · intro id waits
    rw [contains]
    exact orderly.leaveKnown id (leaving ▸ waits)
  · intro idle
    rw [joining, leaving]
    exact orderly.idle (ticking ▸ idle)

/-- A new last element is no repetition. -/
theorem nodup_concat {numbers : List EntityId} {last : EntityId} (distinct : numbers.Nodup)
    (fresh : last ∉ numbers) : (numbers ++ [last]).Nodup := by
  rw [← List.concat_eq_append]
  exact distinct.concat fresh

/-- Registering an entity keeps a registry orderly. -/
theorem Orderly.registering (orderly : registry.Orderly) (entity : Entity) :
    (registry.registering entity).Orderly := by
  cases taken : registry.willContain entity.id with
  | true =>
    rw [registering_of_taken taken]
    exact orderly
  | false =>
    rw [registering_of_free taken]
    obtain ⟨leaves, fresh⟩ := Bool.or_eq_false_iff.1 taken
    cases running : registry.ticking with
    | true =>
      rw [if_pos rfl]
      refine { orderly with joinOnce := ?_, joinApart := ?_, idle := ?_ }
      · rw [List.map_append]
        refine nodup_concat orderly.joinOnce fun member => ?_
        obtain ⟨other, waits, same⟩ := List.mem_map.1 member
        exact List.any_eq_false.1 fresh other waits (beq_iff_eq.2 same)
      · intro joiner waits
        rcases List.mem_append.1 waits with before | last
        · exact orderly.joinApart joiner before
        · rw [List.mem_singleton.1 last]
          cases known : registry.contains entity.id with
          | false => exact .inl known
          | true =>
            rw [known, Bool.true_and, Bool.not_eq_false'] at leaves
            exact .inr (List.contains_iff_mem.1 leaves)
      · intro idle
        cases idle
    | false =>
      rw [if_neg (by decide)]
      obtain ⟨nobodyJoins, nobodyLeaves⟩ := orderly.idle running
      have free : registry.contains entity.id = false := by
        rw [nobodyLeaves] at leaves
        simpa using leaves
      refine { orderly with distinct := ?_, listed := ?_, joinApart := ?_, leaveKnown := ?_ }
      · refine nodup_concat orderly.distinct fun member => ?_
        have known := (orderly.listed entity.id).1 member
        rw [free] at known
        cases known
      · intro id
        rw [contains_join, Bool.or_eq_true, ← orderly.listed id, beq_iff_eq, eq_comm]
        exact List.mem_append.trans (or_congr Iff.rfl List.mem_singleton)
      · intro joiner waits
        have waits : joiner ∈ registry.pendingAdd := waits
        rw [nobodyJoins] at waits
        cases waits
      · intro id waits
        have waits : id ∈ registry.pendingRemove := waits
        rw [nobodyLeaves] at waits
        cases waits

/-- Unregistering an entity keeps a registry orderly. -/
theorem Orderly.unregister (orderly : registry.Orderly) (id : EntityId) :
    (registry.unregister id).2.Orderly := by
  cases present : registry.contains id with
  | false =>
    rw [unregister_of_absent present]
    refine { orderly with joinOnce := ?_, joinApart := ?_, idle := ?_ }
    · exact orderly.joinOnce.sublist (List.filter_sublist.map _)
    · exact fun entity waits => orderly.joinApart entity (List.mem_filter.1 waits).1
    · intro idle
      obtain ⟨nobodyJoins, nobodyLeaves⟩ := orderly.idle idle
      exact ⟨by simp [nobodyJoins], nobodyLeaves⟩
  | true =>
    cases running : registry.ticking with
    | true =>
      rw [unregister_of_present running present]
      by_cases queued : registry.pendingRemove.contains id = true
      · rw [if_pos queued]
        exact orderly
      · rw [if_neg queued]
        have fresh : id ∉ registry.pendingRemove := fun member =>
          queued (List.contains_iff_mem.2 member)
        refine { orderly with joinApart := ?_, leaveOnce := ?_, leaveKnown := ?_, idle := ?_ }
        · intro entity waits
          exact (orderly.joinApart entity waits).imp_right fun leaves =>
            List.mem_append_left _ leaves
        · exact nodup_concat orderly.leaveOnce fresh
        · intro leaver waits
          rcases List.mem_append.1 waits with before | last
          · exact orderly.leaveKnown leaver before
          · rw [List.mem_singleton.1 last]
            exact present
        · intro idle
          exact absurd (running.symm.trans idle) (by decide)
    | false =>
      obtain ⟨nobodyJoins, nobodyLeaves⟩ := orderly.idle running
      have leaves : (registry.unregister id).2 = registry.leave id := by
        simp [Registry.unregister, present, running]
      rw [leaves]
      refine { orderly with distinct := ?_, listed := ?_, joinApart := ?_, leaveKnown := ?_ }
      · exact orderly.distinct.filter _
      · intro other
        rw [contains_leave, Bool.and_eq_true, ← orderly.listed other, bne_comm]
        exact List.mem_filter
      · intro joiner waits
        have waits : joiner ∈ registry.pendingAdd := waits
        rw [nobodyJoins] at waits
        cases waits
      · intro leaver waits
        have waits : leaver ∈ registry.pendingRemove := waits
        rw [nobodyLeaves] at waits
        cases waits

/-- A tick begins in an orderly registry. -/
theorem Orderly.beginTick (orderly : registry.Orderly) : registry.beginTick.Orderly :=
  { orderly with idle := fun idle => by cases idle }

/-- A tick ends in an orderly registry: who waited to leave is gone and who waited to join is
there. -/
theorem Orderly.endTick (orderly : registry.Orderly) : registry.endTick.Orderly := by
  have order : registry.endTick.order = registry.willOrder := by
    unfold Registry.endTick willOrder
    rw [order_joinEach]
    exact congrArg (· ++ _) (order_leaveEach registry.pendingRemove registry)
  have contains (id : EntityId) : registry.endTick.contains id = registry.willContain id := by
    unfold Registry.endTick willContain
    rw [contains_joinEach]
    exact congrArg (· || _) (contains_leaveEach registry.pendingRemove registry id)
  have nobodyJoins : registry.endTick.pendingAdd = [] := pendingAdd_endTick registry
  have nobodyLeaves : registry.endTick.pendingRemove = [] :=
    pendingRemove_joinEach registry.pendingAdd _
  constructor
  · rw [order]
    refine List.nodup_append.2 ⟨orderly.distinct.filter _, orderly.joinOnce, ?_⟩
    intro id member other joins same
    obtain ⟨before, stays⟩ := List.mem_filter.1 member
    obtain ⟨entity, waits, number⟩ := List.mem_map.1 joins
    have known := (orderly.listed id).1 before
    rcases orderly.joinApart entity waits with free | leaves
    · rw [number, ← same, known] at free
      cases free
    · rw [number, ← same] at leaves
      simp [leaves] at stays
  · intro id
    rw [order, contains, willOrder, willContain, Bool.or_eq_true, Bool.and_eq_true,
      ← orderly.listed id, List.mem_append, List.mem_filter, List.any_eq_true, List.mem_map]
    simp only [beq_iff_eq]
  · rw [nobodyJoins]
    exact .nil
  · intro entity waits
    rw [nobodyJoins] at waits
    cases waits
  · rw [nobodyLeaves]
    exact .nil
  · intro id waits
    rw [nobodyLeaves] at waits
    cases waits
  · exact fun _ => ⟨nobodyJoins, nobodyLeaves⟩

/-- In a tick, registering changes neither who is registered nor the order. -/
theorem registering_of_ticking (running : registry.ticking = true) (entity : Entity) :
    (registry.registering entity).ticking = true ∧
      (registry.registering entity).entities = registry.entities ∧
      (registry.registering entity).order = registry.order := by
  cases taken : registry.willContain entity.id with
  | true =>
    rw [registering_of_taken taken]
    exact ⟨running, rfl, rfl⟩
  | false =>
    rw [registering_of_free taken, if_pos running]
    exact ⟨running, rfl, rfl⟩

/-- In a tick, unregistering changes neither who is registered nor the order. -/
theorem unregister_of_ticking (running : registry.ticking = true) (id : EntityId) :
    (registry.unregister id).2.ticking = true ∧
      (registry.unregister id).2.entities = registry.entities ∧
      (registry.unregister id).2.order = registry.order := by
  cases present : registry.contains id with
  | false =>
    rw [unregister_of_absent present]
    exact ⟨running, rfl, rfl⟩
  | true =>
    rw [unregister_of_present running present]
    exact ⟨running, rfl, rfl⟩

end Registry

end SkillEngine
