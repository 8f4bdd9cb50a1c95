import Mathlib.Data.List.Count
import SkillEngine.Proofs.Session

/-!
# Applications that pile up

The applications of a stacking effect go onto piles: the one of the target, or one for each source.
Here they are counted apart from the world in which they happen. `Piled` says of some instances that
they are the piles of casters who applied one after the other, and `Tallied` which ports were fired
for them meanwhile. An application either begins a pile or raises one, up to the limit; both say so
again of the instances that there are then.
-/

namespace SkillEngine

namespace StackingPolicy

/-- The pile that an application of a source goes onto: the one of the target, or one per source. -/
def pile (policy : StackingPolicy) (source : EntityId) : Option EntityId :=
  match policy.kind with
  | .aggregateByTarget => none
  | .aggregateBySource => some source

/-- How many of the applications of some casters go onto the pile of a source. -/
def share (policy : StackingPolicy) (casters : List EntityId) (source : EntityId) : Nat :=
  match policy.kind with
  | .aggregateByTarget => casters.length
  | .aggregateBySource => casters.count source

/-- How often some applications onto one pile overflow. -/
def overflows (policy : StackingPolicy) (applications : Nat) : Nat :=
  match policy.overflow with
  | .denyApplication => 0
  | .allowOverflowEffect => applications - min applications policy.maxStacks

variable {policy : StackingPolicy} {casters : List EntityId} {caster source : EntityId}

/-- A share is a number of casters with one pile. -/
theorem share_eq (policy : StackingPolicy) (casters : List EntityId) (source : EntityId) :
    policy.share casters source = (casters.map policy.pile).count (policy.pile source) := by
  unfold share pile
  cases policy.kind with
  | aggregateByTarget =>
    dsimp only
    rw [List.map_const', List.count_replicate_self]
  | aggregateBySource =>
    exact (List.count_map_of_injective casters some (fun _ _ => Option.some.inj) source).symm

/-- An application onto another pile leaves a share as it is. -/
theorem share_concat_of_ne (apart : policy.pile source ≠ policy.pile caster) :
    policy.share (casters ++ [caster]) source = policy.share casters source := by
  rw [share_eq, share_eq, List.map_append, List.count_append, List.map_singleton,
    List.count_singleton, beq_eq_false_iff_ne.2 apart.symm]
  rfl

/-- An application onto a pile adds one to its share. -/
theorem share_concat (same : policy.pile source = policy.pile caster) :
    policy.share (casters ++ [caster]) source = policy.share casters source + 1 := by
  rw [share_eq, share_eq, List.map_append, List.count_append, List.map_singleton, same,
    List.count_singleton_self]

/-- At least one stack is allowed. -/
theorem one_le_maxStacks (policy : StackingPolicy) : 1 ≤ policy.maxStacks := Nat.le_max_right _ 1

/-- The first application onto a pile does not overflow. -/
theorem overflows_one (policy : StackingPolicy) : policy.overflows (0 + 1) = 0 := by
  have room := policy.one_le_maxStacks
  unfold overflows
  cases policy.overflow with
  | denyApplication => rfl
  | allowOverflowEffect =>
    dsimp only
    omega

/-- One more application onto a pile overflows where as many as are allowed came before it. -/
theorem overflows_succ (policy : StackingPolicy) (applications : Nat) :
    policy.overflows (applications + 1) = policy.overflows applications +
      if policy.maxStacks ≤ applications ∧ policy.overflow = .allowOverflowEffect
        then 1 else 0 := by
  unfold overflows
  cases policy.overflow with
  | denyApplication => simp
  | allowOverflowEffect =>
    simp only [and_true]
    split <;> omega

end StackingPolicy

/-- Some instances are the piles that the applications of some casters make, one after the other. -/
structure Piled (policy : StackingPolicy) (casters : List EntityId) (instances : List Effect) :
    Prop where
  /-- There is one instance for a pile. -/
  apart : (instances.map fun effect => policy.pile effect.source).Nodup
  /-- There is one for each pile that was applied to, and for no other. -/
  covers : ∀ pile, pile ∈ instances.map (fun effect => policy.pile effect.source) ↔
    pile ∈ casters.map policy.pile
  /-- It has a stack for each application, up to the limit. -/
  counts : ∀ effect ∈ instances,
    effect.stackCount = min (policy.share casters effect.source) policy.maxStacks

namespace Piled

variable {policy : StackingPolicy} {casters : List EntityId} {instances : List Effect}
  {caster : EntityId}

/-- Nothing was applied. -/
theorem nil (policy : StackingPolicy) : Piled policy [] [] where
  apart := .nil
  covers _ := .rfl
  counts _ member := absurd member List.not_mem_nil

/-- Nobody has applied to a pile that there is not yet. -/
theorem share_of_absent (piled : Piled policy casters instances)
    (absent : policy.pile caster ∉ instances.map fun effect => policy.pile effect.source) :
    policy.share casters caster = 0 := by
  rw [StackingPolicy.share_eq]
  exact List.count_eq_zero.2 fun member => absent ((piled.covers _).2 member)

/-- An application onto a pile that there is not yet begins it. -/
theorem begin (piled : Piled policy casters instances)
    (absent : policy.pile caster ∉ instances.map fun effect => policy.pile effect.source)
    {effect : Effect} (source : effect.source = caster) (count : effect.stackCount = 1) :
    Piled policy (casters ++ [caster]) (instances ++ [effect]) where
  apart := by
    rw [List.map_append, List.map_singleton, source]
    exact piled.apart.append (List.nodup_singleton _) (List.disjoint_singleton.2 absent)
  covers pile := by
    rw [List.map_append, List.map_append, List.mem_append, List.mem_append, piled.covers pile,
      List.map_singleton, List.map_singleton, source]
  counts other member := by
    rcases List.mem_append.1 member with before | last
    · have differs : policy.pile other.source ≠ policy.pile caster := fun same =>
        absent (same ▸ List.mem_map_of_mem before)
      rw [StackingPolicy.share_concat_of_ne differs, piled.counts other before]
    · rw [List.mem_singleton.1 last, StackingPolicy.share_concat (congrArg policy.pile source),
        source, piled.share_of_absent absent, count]
      exact (Nat.min_eq_left policy.one_le_maxStacks).symm

/-- An application onto a pile that there is raises it by one, up to the limit. -/
theorem raise (piled : Piled policy casters instances)
    (present : policy.pile caster ∈ instances.map fun effect => policy.pile effect.source)
    {raised : Effect → Effect}
    (source : ∀ effect ∈ instances, (raised effect).source = effect.source)
    (count : ∀ effect ∈ instances, policy.pile effect.source = policy.pile caster →
      (raised effect).stackCount = min (effect.stackCount + 1) policy.maxStacks)
    (spares : ∀ effect ∈ instances, policy.pile effect.source ≠ policy.pile caster →
      (raised effect).stackCount = effect.stackCount) :
    Piled policy (casters ++ [caster]) (instances.map raised) := by
  have same : (instances.map raised).map (fun effect => policy.pile effect.source) =
      instances.map fun effect => policy.pile effect.source := by
    rw [List.map_map]
    exact List.map_congr_left fun effect member => congrArg policy.pile (source effect member)
  refine ⟨same ▸ piled.apart, fun pile => ?_, fun other member => ?_⟩
  · rw [same, piled.covers pile, List.map_append, List.mem_append, List.map_singleton,
      List.mem_singleton]
    refine ⟨.inl, fun either => either.elim (fun before => before) fun last => ?_⟩
    exact last ▸ (piled.covers _).1 present
  · obtain ⟨effect, before, rfl⟩ := List.mem_map.1 member
    rw [source effect before]
    by_cases here : policy.pile effect.source = policy.pile caster
    · rw [count effect before here, StackingPolicy.share_concat here, piled.counts effect before]
      omega
    · rw [spares effect before here, StackingPolicy.share_concat_of_ne here,
        piled.counts effect before]

/-- Where stacks are kept by target, some applications make one instance. -/
theorem of_byTarget (piled : Piled policy casters instances)
    (kind : policy.kind = .aggregateByTarget) (some : casters ≠ []) :
    ∃ effect, instances = [effect] := by
  have none (source : EntityId) : policy.pile source = none := by
    rw [StackingPolicy.pile, kind]
  cases instances with
  | nil =>
    obtain ⟨first, rest, rfl⟩ := List.exists_cons_of_ne_nil some
    exact absurd ((piled.covers _).2 (List.mem_map_of_mem List.mem_cons_self)) List.not_mem_nil
  | cons effect rest =>
    cases rest with
    | nil => exact ⟨effect, rfl⟩
    | cons other rest =>
      have apart := (List.nodup_cons.1 piled.apart).1
      exact absurd (List.mem_cons.2 (.inl ((none _).trans (none _).symm))) apart

/-- Where stacks are kept by source, some applications make one instance for each of their
sources. -/
theorem of_bySource (piled : Piled policy casters instances)
    (kind : policy.kind = .aggregateBySource) : (instances.map (·.source)).Nodup ∧
      ∀ source, source ∈ instances.map (·.source) ↔ source ∈ casters := by
  have some (source : EntityId) : policy.pile source = some source := by
    rw [StackingPolicy.pile, kind]
  have piles : (instances.map fun effect => policy.pile effect.source) =
      (instances.map (·.source)).map Option.some := by
    rw [List.map_map]
    exact List.map_congr_left fun effect _ => some effect.source
  refine ⟨(piles ▸ piled.apart).of_map _, fun source => ?_⟩
  have covers := piled.covers (Option.some source)
  rw [piles, List.map_congr_left fun caster _ => some caster] at covers
  simpa using covers

end Piled

/-- Which ports were fired for the instances that some applications make: the first one once, and
the overflow port for each application beyond the limit. -/
structure Tallied (policy : StackingPolicy) (casters : List EntityId) (target : EntityId)
    (instances : List Effect) (fired : EffectHandle → List String) : Prop where
  /-- The first port was fired once. -/
  initial : ∀ effect ∈ instances,
    (fired ⟨target, effect.id⟩).count EffectPort.initial.name = 1
  /-- The overflow port was fired for each application beyond the limit. -/
  overflow : ∀ effect ∈ instances, (fired ⟨target, effect.id⟩).count EffectPort.overflow.name =
    policy.overflows (policy.share casters effect.source)
  /-- Nothing was fired for any other effect. -/
  elsewhere : ∀ handle : EffectHandle, (∀ effect ∈ instances, handle ≠ ⟨target, effect.id⟩) →
    fired handle = []

namespace Tallied

variable {policy : StackingPolicy} {casters : List EntityId} {instances : List Effect}
  {caster : EntityId} {target : EntityId} {fired ports : EffectHandle → List String}
  {effect : Effect}

/-- Nothing was applied. -/
theorem nil (policy : StackingPolicy) (target : EntityId) :
    Tallied policy [] target [] fun _ => [] where
  initial _ member := absurd member List.not_mem_nil
  overflow _ member := absurd member List.not_mem_nil
  elsewhere _ _ := rfl

/-- An instance that has just taken hold has fired its first port and perhaps pulses. -/
theorem begin (tallied : Tallied policy casters target instances fired)
    (piled : Piled policy casters instances)
    (absent : policy.pile caster ∉ instances.map fun effect => policy.pile effect.source)
    (source : effect.source = caster) (fresh : ∀ other ∈ instances, other.id ≠ effect.id)
    {count : Nat}
    (fires : ∀ handle, ports handle = if handle = ⟨target, effect.id⟩ then
      EffectPort.initial.name :: List.replicate count EffectPort.periodic.name else []) :
    Tallied policy (casters ++ [caster]) target (instances ++ [effect])
      fun handle => fired handle ++ ports handle := by
  have silent : ∀ other ∈ instances, ports ⟨target, other.id⟩ = [] := fun other before => by
    rw [fires, if_neg fun same => fresh other before (congrArg EffectHandle.id same)]
  have first : ports ⟨target, effect.id⟩ =
      EffectPort.initial.name :: List.replicate count EffectPort.periodic.name := by
    rw [fires, if_pos rfl]
  have unfired : fired ⟨target, effect.id⟩ = [] := tallied.elsewhere _ fun other before same =>
    fresh other before (congrArg EffectHandle.id same).symm
  refine ⟨fun other member => ?_, fun other member => ?_, fun handle others => ?_⟩
  · rcases List.mem_append.1 member with before | last
    · rw [silent other before, List.append_nil, tallied.initial other before]
    · rw [List.mem_singleton.1 last, unfired, first, List.nil_append, List.count_cons_self,
        List.count_replicate]
      rfl
  · rcases List.mem_append.1 member with before | last
    · have differs : policy.pile other.source ≠ policy.pile caster := fun same =>
        absent (same ▸ List.mem_map_of_mem before)
      rw [silent other before, List.append_nil, tallied.overflow other before,
        StackingPolicy.share_concat_of_ne differs]
    · rw [List.mem_singleton.1 last, unfired, first, source, StackingPolicy.share_concat rfl,
        piled.share_of_absent absent, StackingPolicy.overflows_one, List.nil_append,
        List.count_cons, List.count_replicate]
      rfl
  · rw [tallied.elsewhere handle fun other before => others other (List.mem_append_left _ before),
      fires, if_neg (others effect (List.mem_append_right _ List.mem_cons_self))]
    rfl

/-- An instance that was restacked has fired its overflow port if it was at its limit. -/
theorem raise (tallied : Tallied policy casters target instances fired)
    (piled : Piled policy casters instances) (member : effect ∈ instances)
    (here : ∀ other ∈ instances, other.id = effect.id ↔
      policy.pile other.source = policy.pile caster)
    {raised : Effect → Effect} (number : ∀ effect ∈ instances, (raised effect).id = effect.id)
    (source : ∀ effect ∈ instances, (raised effect).source = effect.source)
    (fires : ∀ handle, ports handle = if handle = ⟨target, effect.id⟩ ∧
      policy.maxStacks ≤ effect.stackCount ∧ policy.overflow = .allowOverflowEffect
        then [EffectPort.overflow.name] else []) :
    Tallied policy (casters ++ [caster]) target (instances.map raised)
      fun handle => fired handle ++ ports handle := by
  refine ⟨fun other listed => ?_, fun other listed => ?_, fun handle others => ?_⟩
  · obtain ⟨before, stored, rfl⟩ := List.mem_map.1 listed
    rw [number before stored, List.count_append, tallied.initial before stored, fires]
    split <;> rfl
  · obtain ⟨before, stored, rfl⟩ := List.mem_map.1 listed
    rw [number before stored, source before stored, List.count_append,
      tallied.overflow before stored, fires]
    by_cases same : before.id = effect.id
    · have pile := (here before stored).1 same
      have shared : policy.share casters effect.source = policy.share casters before.source := by
        rw [StackingPolicy.share_eq, StackingPolicy.share_eq, pile, (here effect member).1 rfl]
      have full : policy.maxStacks ≤ effect.stackCount ↔
          policy.maxStacks ≤ policy.share casters before.source := by
        rw [piled.counts effect member, shared]
        omega
      rw [StackingPolicy.share_concat pile, StackingPolicy.overflows_succ, same]
      simp only [true_and, full]
      split <;> rfl
    · rw [if_neg fun both => same (congrArg EffectHandle.id both.1),
        StackingPolicy.share_concat_of_ne fun pile => same ((here before stored).2 pile)]
      rfl
  · have apart : ∀ other ∈ instances, handle ≠ ⟨target, other.id⟩ := fun other before =>
      number other before ▸ others _ (List.mem_map_of_mem before)
    rw [tallied.elsewhere handle apart, fires, if_neg fun both => apart effect member both.1]
    rfl

end Tallied

end SkillEngine
