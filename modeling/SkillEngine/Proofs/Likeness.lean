import SkillEngine.Proofs.Session
import Mathlib.Data.List.Nodup

/-!
# Which asset tags stack

An application stacks onto a live effect by its asset tags, and these are compared as the lists that
they are kept in: sets that list the same members in another order are told apart. So the rule of
stacking, read as one of sets, is necessary but not sufficient, and a definition with two asset tags
or more may be passed over for the order in which they were written.
-/

namespace SkillEngine

namespace TagSet

variable {first second : TagSet}

/-- The hashes of the members, in order of first mention. -/
def hashes (set : TagSet) : List UInt64 := set.tags.map (·.hash)

/-- Two sets have the same members, in whatever order they list them. -/
def SameMembers (first second : TagSet) : Prop :=
  ∀ tag, first.contains tag = second.contains tag

/-- Two sets list the same members in the same order. -/
def SameOrder (first second : TagSet) : Prop := first.hashes = second.hashes

/-- A tag is a member if its hash is listed. -/
theorem contains_iff (set : TagSet) (tag : Tag) :
    set.contains tag = true ↔ tag.hash ∈ set.hashes := by
  simp [contains, hashes, List.any_eq_true]

/-- No hash is listed twice. -/
theorem nodup_hashes (set : TagSet) : set.hashes.Nodup := List.pairwise_map.2 set.distinct

/-- Sets are equal as the engine compares them if they list the same members in the same order. -/
theorem beq_iff_sameOrder : (first == second) = true ↔ first.SameOrder second := by
  have lists (left right : List Tag) :
      (left == right) = true ↔ left.map (·.hash) = right.map (·.hash) := by
    induction left generalizing right with
    | nil => cases right <;> simp
    | cons tag rest ih =>
      cases right with
      | nil => simp
      | cons other others =>
        have heads : (tag == other) = true ↔ tag.hash = other.hash :=
          beq_iff_eq (a := tag.hash) (b := other.hash)
        rw [List.cons_beq_cons, Bool.and_eq_true, heads, ih others, List.map_cons, List.map_cons,
          List.cons.injEq]
  exact lists first.tags second.tags

/-- Sets have the same members if one lists a permutation of what the other lists. -/
theorem sameMembers_iff_perm : first.SameMembers second ↔ first.hashes.Perm second.hashes := by
  have listed (set : TagSet) {hash : UInt64} (member : hash ∈ set.hashes) :
      ∃ tag : Tag, tag.hash = hash := by
    obtain ⟨tag, _, same⟩ := List.mem_map.1 member
    exact ⟨tag, same⟩
  rw [List.perm_ext_iff_of_nodup first.nodup_hashes second.nodup_hashes]
  constructor
  · intro same hash
    constructor
    · intro member
      obtain ⟨tag, rfl⟩ := listed first member
      rwa [← contains_iff, ← same, contains_iff]
    · intro member
      obtain ⟨tag, rfl⟩ := listed second member
      rwa [← contains_iff, same, contains_iff]
  · intro same tag
    rw [Bool.eq_iff_iff, contains_iff, contains_iff, same]

/-- Sets that list the same members in the same order have the same members. -/
theorem SameOrder.sameMembers (same : first.SameOrder second) : first.SameMembers second :=
  sameMembers_iff_perm.2 (same ▸ .refl _)

namespace SameMembers

/-- Sets with the same members are empty together. -/
theorem isEmpty (same : first.SameMembers second) : first.isEmpty = second.isEmpty := by
  have length := (sameMembers_iff_perm.1 same).length_eq
  rw [hashes, hashes, List.length_map, List.length_map] at length
  rw [TagSet.isEmpty, TagSet.isEmpty, Bool.eq_iff_iff, List.isEmpty_iff_length_eq_zero,
    List.isEmpty_iff_length_eq_zero, length]

/-- There is one order only in which to list a set of at most one member. -/
theorem sameOrder (same : first.SameMembers second) (few : first.size ≤ 1) :
    first.SameOrder second := by
  have listed := sameMembers_iff_perm.1 same
  have short : first.hashes.length ≤ 1 := by rwa [hashes, List.length_map]
  rw [SameOrder]
  cases hashes : first.hashes with
  | nil => exact (List.nil_perm.1 (hashes ▸ listed)).symm
  | cons hash rest =>
    rw [hashes] at short listed
    obtain rfl : rest = [] :=
      List.length_eq_zero_iff.1 (Nat.le_zero.1 (Nat.le_of_succ_le_succ short))
    exact (List.singleton_perm.1 listed).symm ▸ rfl

end SameMembers

end TagSet

/-- The definition with other asset tags. -/
def EffectDef.withAsset (definition : EffectDef) (asset : TagSet) : EffectDef :=
  { definition with tags := { definition.tags with asset } }

namespace Effect

variable {effect : Effect} {skill : SkillId} {node : NodeId} {definition : EffectDef}
  {source : EntityId} {asset : TagSet}

/-- The instance with other asset tags. -/
def withAsset (effect : Effect) (asset : TagSet) : Effect :=
  { effect with definition := effect.definition.withAsset asset }

/-- The rule of stacking, as one of sets: a live instance fits an application of a stackable
definition if they have the same asset tags, or come from the same node where the definition has
none, and have the same source if stacks are kept by source. -/
structure Fits (effect : Effect) (skill : SkillId) (node : NodeId) (definition : EffectDef)
    (source : EntityId) : Prop where
  /-- The instance is live. -/
  live : effect.isLive = true
  /-- The definition stacks, and if it does so by source the sources are the same. -/
  policy : ∃ policy, definition.stacking = some policy ∧
    (policy.kind = .aggregateBySource → effect.source = source)
  /-- Without asset tags, the nodes are the same. -/
  origin : definition.tags.asset.isEmpty = true → effect.skill = skill ∧ effect.node = node
  /-- The asset tags are the same, where there are any. -/
  asset : definition.tags.asset.isEmpty = false →
    effect.definition.tags.asset.SameMembers definition.tags.asset

/-- The instance lists the asset tags of a definition as the definition does, if there are any. -/
def Lists (effect : Effect) (definition : EffectDef) : Prop :=
  definition.tags.asset.isEmpty = false →
    effect.definition.tags.asset.SameOrder definition.tags.asset

/-- An application stacks onto what fits it and lists the asset tags in the same order. -/
theorem stacksWith_iff_fits : effect.stacksWith skill node definition source = true ↔
    effect.Fits skill node definition source ∧ effect.Lists definition := by
  have tags : (if definition.tags.asset.isEmpty then effect.skill == skill && effect.node == node
      else effect.definition.tags.asset == definition.tags.asset) = true ↔
        (definition.tags.asset.isEmpty = true → effect.skill = skill ∧ effect.node = node) ∧
        effect.Lists definition := by
    rw [Lists]
    cases definition.tags.asset.isEmpty with
    | true => simp
    | false => simp [TagSet.beq_iff_sameOrder]
  constructor
  · intro stacked
    obtain ⟨live, matched⟩ := Bool.and_eq_true_iff.1 stacked
    cases stacking : definition.stacking with
    | none => simp [stacking] at matched
    | some policy =>
      simp only [stacking] at matched
      obtain ⟨same, shared⟩ := Bool.and_eq_true_iff.1 matched
      obtain ⟨origin, lists⟩ := tags.1 same
      exact ⟨⟨live, ⟨policy, stacking, fun kind => by simpa [kind] using shared⟩, origin,
        fun some => (lists some).sameMembers⟩, lists⟩
  · rintro ⟨fits, lists⟩
    obtain ⟨policy, stacking, shared⟩ := fits.policy
    refine Bool.and_eq_true_iff.2 ⟨fits.live, ?_⟩
    simp only [stacking]
    refine Bool.and_eq_true_iff.2 ⟨tags.2 ⟨fits.origin, lists⟩, ?_⟩
    cases kind : policy.kind with
    | aggregateByTarget => rfl
    | aggregateBySource => exact beq_iff_eq.2 (shared kind)

/-- The rule of stacking is one of sets: it does not see the order of the definition's tags. -/
theorem fits_withAsset (same : definition.tags.asset.SameMembers asset) :
    effect.Fits skill node (definition.withAsset asset) source ↔
      effect.Fits skill node definition source := by
  have blank : asset.isEmpty = definition.tags.asset.isEmpty := same.isEmpty.symm
  constructor
  · intro fits
    exact ⟨fits.live, fits.policy, fun none => fits.origin (blank.trans none),
      fun some tag => (fits.asset (blank.trans some) tag).trans (same tag).symm⟩
  · intro fits
    exact ⟨fits.live, fits.policy, fun none => fits.origin (blank.symm.trans none),
      fun some tag => (fits.asset (blank.symm.trans some) tag).trans (same tag)⟩

/-- Nor does it see the order of the instance's own tags. -/
theorem withAsset_fits (same : effect.definition.tags.asset.SameMembers asset) :
    (effect.withAsset asset).Fits skill node definition source ↔
      effect.Fits skill node definition source := by
  constructor
  · intro fits
    exact ⟨fits.live, fits.policy, fits.origin,
      fun some tag => (same tag).trans (fits.asset some tag)⟩
  · intro fits
    exact ⟨fits.live, fits.policy, fits.origin,
      fun some tag => (same tag).symm.trans (fits.asset some tag)⟩

/-- Two definitions with the same asset tags find alike what does not fit, what lists the tags in
the order of both, and what lists them in the order of neither. -/
theorem stacksWith_withAsset (same : definition.tags.asset.SameMembers asset) :
    effect.stacksWith skill node (definition.withAsset asset) source =
        effect.stacksWith skill node definition source ↔
      (effect.Fits skill node definition source →
        (effect.Lists (definition.withAsset asset) ↔ effect.Lists definition)) := by
  rw [Bool.eq_iff_iff, stacksWith_iff_fits, stacksWith_iff_fits, fits_withAsset same]
  exact and_congr_right_iff

/-- Two instances with the same asset tags are found alike by what does not fit them, by what lists
the tags in the order of both, and by what lists them in the order of neither. -/
theorem withAsset_stacksWith (same : effect.definition.tags.asset.SameMembers asset) :
    (effect.withAsset asset).stacksWith skill node definition source =
        effect.stacksWith skill node definition source ↔
      (effect.Fits skill node definition source →
        ((effect.withAsset asset).Lists definition ↔ effect.Lists definition)) := by
  rw [Bool.eq_iff_iff, stacksWith_iff_fits, stacksWith_iff_fits, withAsset_fits same]
  exact and_congr_right_iff

/-- Sets that an instance lists in the order of both are listed in the same order. -/
theorem Lists.sameOrder (same : definition.tags.asset.SameMembers asset)
    (first : effect.Lists definition) (second : effect.Lists (definition.withAsset asset)) :
    definition.tags.asset.SameOrder asset := by
  cases blank : definition.tags.asset.isEmpty with
  | false => exact (first blank).symm.trans (second (same.isEmpty.symm.trans blank))
  | true =>
    refine same.sameOrder ?_
    rw [TagSet.isEmpty, List.isEmpty_iff] at blank
    rw [TagSet.size, blank]
    exact Nat.zero_le 1

/-- An instance lists the tags of a definition in either of two orders that are the same. -/
theorem lists_withAsset (order : definition.tags.asset.SameOrder asset) :
    effect.Lists (definition.withAsset asset) ↔ effect.Lists definition := by
  have blank := order.sameMembers.isEmpty
  have same : definition.tags.asset.hashes = asset.hashes := order
  simp only [Lists, TagSet.SameOrder, EffectDef.withAsset, ← same, ← blank]

end Effect

variable {roster : EffectRoster} {skill : SkillId} {node : NodeId} {definition : EffectDef}
  {source : EntityId} {asset : TagSet}

/-- Two definitions with the same asset tags find the same instance in a roster if they list the
tags in the same order, or if every instance that fits them lists the tags in the order of
neither. -/
theorem EffectRoster.findStackable?_withAsset (distinct : roster.liveIds.Nodup)
    (same : definition.tags.asset.SameMembers asset) :
    roster.findStackable? skill node (definition.withAsset asset) source =
        roster.findStackable? skill node definition source ↔
      definition.tags.asset.SameOrder asset ∨
        ∀ effect ∈ roster.live, effect.Fits skill node definition source →
          ¬ effect.Lists definition ∧ ¬ effect.Lists (definition.withAsset asset) := by
  have listed {effect : Effect} {written : EffectDef}
      (found : roster.live.find? (·.stacksWith skill node written source) = some effect) :
      effect ∈ roster.live ∧ effect.Lists written := by
    have stacked : effect.stacksWith skill node written source = true := by
      simpa using List.find?_some found
    exact ⟨List.mem_of_find?_eq_some found, (Effect.stacksWith_iff_fits.1 stacked).2⟩
  unfold findStackable?
  constructor
  · intro agree
    cases found : roster.live.find? (·.stacksWith skill node definition source) with
    | none =>
      rw [found, Option.map_none, Option.map_eq_none_iff] at agree
      refine .inr fun effect member fits => ⟨fun lists => ?_, fun lists => ?_⟩
      · exact List.find?_eq_none.1 found effect member (Effect.stacksWith_iff_fits.2 ⟨fits, lists⟩)
      · exact List.find?_eq_none.1 agree effect member
          (Effect.stacksWith_iff_fits.2 ⟨(Effect.fits_withAsset same).2 fits, lists⟩)
    | some first =>
      -- Both orders find an instance of one number, so they find one instance, which lists both.
      rw [found, Option.map_some, Option.map_eq_some_iff] at agree
      obtain ⟨second, also, number⟩ := agree
      obtain ⟨stored, lists⟩ := listed found
      obtain ⟨member, listsToo⟩ := listed also
      obtain rfl : second = first := List.inj_on_of_nodup_map distinct member stored number
      exact .inl (lists.sameOrder same listsToo)
  · rintro (order | neither)
    · have alike (effect : Effect) :
          effect.stacksWith skill node (definition.withAsset asset) source =
            effect.stacksWith skill node definition source :=
        (Effect.stacksWith_withAsset same).2 fun _ => Effect.lists_withAsset order
      simp only [alike]
    · have unmatched : roster.live.find? (·.stacksWith skill node definition source) = none := by
        refine List.find?_eq_none.2 fun effect member stacked => ?_
        obtain ⟨fits, lists⟩ := Effect.stacksWith_iff_fits.1 stacked
        exact (neither effect member fits).1 lists
      have others : roster.live.find?
          (·.stacksWith skill node (definition.withAsset asset) source) = none := by
        refine List.find?_eq_none.2 fun effect member stacked => ?_
        obtain ⟨fits, lists⟩ := Effect.stacksWith_iff_fits.1 stacked
        exact (neither effect member ((Effect.fits_withAsset same).1 fits)).2 lists
      rw [unmatched, others]

/-- Stacking identity hangs on the order in which asset tags were written, and in no other way on
how they are written. Take a definition and the same definition with its asset tags in another
order. The rule of stacking, read as one of sets, does not tell them apart, nor an instance from the
same one with its own tags in another order. What the engine asks for besides is that the instance
lists the tags as the definition does, so two orders are answered alike unless what fits lists the
tags in just one of them; a roster finds the same instance for both just if they are one order or no
instance that fits lists the tags in either. With at most one asset tag there is one order. -/
theorem stacking_hangs_on_listed_order (definition : EffectDef) {asset : TagSet}
    (same : definition.tags.asset.SameMembers asset) (skill : SkillId) (node : NodeId)
    (source : EntityId) :
    (∀ effect : Effect,
      (effect.stacksWith skill node definition source = true ↔
        effect.Fits skill node definition source ∧ effect.Lists definition) ∧
      (effect.Fits skill node (definition.withAsset asset) source ↔
        effect.Fits skill node definition source) ∧
      (effect.stacksWith skill node (definition.withAsset asset) source =
          effect.stacksWith skill node definition source ↔
        (effect.Fits skill node definition source →
          (effect.Lists (definition.withAsset asset) ↔ effect.Lists definition)))) ∧
    (∀ (effect : Effect) (own : TagSet), effect.definition.tags.asset.SameMembers own →
      ((effect.withAsset own).Fits skill node definition source ↔
        effect.Fits skill node definition source) ∧
      ((effect.withAsset own).stacksWith skill node definition source =
          effect.stacksWith skill node definition source ↔
        (effect.Fits skill node definition source →
          ((effect.withAsset own).Lists definition ↔ effect.Lists definition)))) ∧
    (∀ roster : EffectRoster, roster.liveIds.Nodup →
      (roster.findStackable? skill node (definition.withAsset asset) source =
          roster.findStackable? skill node definition source ↔
        definition.tags.asset.SameOrder asset ∨
          ∀ effect ∈ roster.live, effect.Fits skill node definition source →
            ¬ effect.Lists definition ∧ ¬ effect.Lists (definition.withAsset asset))) ∧
    (definition.tags.asset.size ≤ 1 → definition.tags.asset.SameOrder asset) :=
  ⟨fun _ => ⟨Effect.stacksWith_iff_fits, Effect.fits_withAsset same,
      Effect.stacksWith_withAsset same⟩,
    fun _ _ alike => ⟨Effect.withAsset_fits alike, Effect.withAsset_stacksWith alike⟩,
    fun _ distinct => EffectRoster.findStackable?_withAsset distinct same,
    same.sameOrder⟩

/-- A lasting effect that stacks onto whatever is wind and rain. -/
def squall : EffectDef where
  durationType := .infinite
  tags := { asset := .ofPaths ["Wind", "Rain"] }
  stacking := some { limit := 3 }

/-- Its asset tags the other way round. -/
def rainFirst : TagSet := .ofPaths ["Rain", "Wind"]

/-- The state after an entity received the squall from one node, and from another one the same
effect with some asset tags. -/
def squalls (asset : TagSet) : Cascade :=
  Cascade.afterEach 20 { world := World.create {} .empty, agenda := [] }
    [.spawn ⟨1⟩, .apply ⟨1⟩ ⟨1⟩ squall ⟨1⟩ { caster := ⟨1⟩ },
      .apply ⟨1⟩ ⟨2⟩ (squall.withAsset asset) ⟨1⟩ { caster := ⟨1⟩ }]

/-- The stacks of the live effects on the entity after that. -/
def squallStacks (asset : TagSet) : Option (List Nat) :=
  ((squalls asset).world.entity? ⟨1⟩).map (·.effects.live.map (·.stackCount))

/-- Wind and rain are rain and wind. -/
theorem sameMembers_rainFirst : squall.tags.asset.SameMembers rainFirst :=
  TagSet.sameMembers_iff_perm.2 (by decide +kernel)

/-- The squall that an entity has received is told from rain and wind by the order alone. -/
theorem squall_hangs_on_order : squall.tags.asset.SameMembers rainFirst ∧
    ∃ entity, (squalls squall.tags.asset).world.entity? ⟨1⟩ = some entity ∧
      entity.effects.liveIds.Nodup ∧
      (∀ effect ∈ entity.effects.live,
        (effect.stacksWith ⟨1⟩ ⟨2⟩ (squall.withAsset rainFirst) ⟨1⟩ =
            effect.stacksWith ⟨1⟩ ⟨2⟩ squall ⟨1⟩ ↔
          (effect.Fits ⟨1⟩ ⟨2⟩ squall ⟨1⟩ →
            (effect.Lists (squall.withAsset rainFirst) ↔ effect.Lists squall)))) ∧
      (entity.effects.findStackable? ⟨1⟩ ⟨2⟩ (squall.withAsset rainFirst) ⟨1⟩ =
          entity.effects.findStackable? ⟨1⟩ ⟨2⟩ squall ⟨1⟩ ↔
        squall.tags.asset.SameOrder rainFirst ∨
          ∀ effect ∈ entity.effects.live, effect.Fits ⟨1⟩ ⟨2⟩ squall ⟨1⟩ →
            ¬ effect.Lists squall ∧ ¬ effect.Lists (squall.withAsset rainFirst)) := by
  have present : ((squalls squall.tags.asset).world.entity? ⟨1⟩).any
      (fun entity => decide entity.effects.liveIds.Nodup) = true := by decide +kernel
  obtain ⟨entity, registered, distinct⟩ := (Option.any_eq_true _ _).1 present
  have apart : entity.effects.liveIds.Nodup := of_decide_eq_true distinct
  obtain ⟨alike, _, finds, _⟩ :=
    stacking_hangs_on_listed_order squall sameMembers_rainFirst ⟨1⟩ ⟨2⟩ ⟨1⟩
  exact ⟨sameMembers_rainFirst, entity, registered, apart, fun effect _ => (alike effect).2.2,
    finds _ apart⟩

/-- Rain and wind do not stack onto wind and rain, nor wind and rain onto rain and wind: where one
instance would have two stacks there are two of one. -/
theorem squall_passes_over : squall.tags.asset.SameMembers rainFirst ∧
    (∃ entity, (squalls squall.tags.asset).world.entity? ⟨1⟩ = some entity ∧
      (∃ effect ∈ entity.effects.live,
        effect.stacksWith ⟨1⟩ ⟨2⟩ squall ⟨1⟩ = true ∧
        effect.stacksWith ⟨1⟩ ⟨2⟩ (squall.withAsset rainFirst) ⟨1⟩ = false ∧
        (effect.withAsset rainFirst).stacksWith ⟨1⟩ ⟨2⟩ squall ⟨1⟩ = false) ∧
      entity.effects.findStackable? ⟨1⟩ ⟨2⟩ squall ⟨1⟩ = some ⟨1⟩ ∧
      entity.effects.findStackable? ⟨1⟩ ⟨2⟩ (squall.withAsset rainFirst) ⟨1⟩ = none) ∧
    squallStacks squall.tags.asset = some [2] ∧ squallStacks rainFirst = some [1, 1] := by
  have found : ((squalls squall.tags.asset).world.entity? ⟨1⟩).any (fun entity =>
      (entity.effects.live.any fun effect =>
        effect.stacksWith ⟨1⟩ ⟨2⟩ squall ⟨1⟩ &&
        !effect.stacksWith ⟨1⟩ ⟨2⟩ (squall.withAsset rainFirst) ⟨1⟩ &&
        !(effect.withAsset rainFirst).stacksWith ⟨1⟩ ⟨2⟩ squall ⟨1⟩) &&
      decide (entity.effects.findStackable? ⟨1⟩ ⟨2⟩ squall ⟨1⟩ = some ⟨1⟩) &&
      decide (entity.effects.findStackable? ⟨1⟩ ⟨2⟩ (squall.withAsset rainFirst) ⟨1⟩ = none)) =
        true := by decide +kernel
  obtain ⟨entity, registered, outcome⟩ := (Option.any_eq_true _ _).1 found
  simp only [Bool.and_eq_true, decide_eq_true_eq, List.any_eq_true, Bool.not_eq_true'] at outcome
  obtain ⟨⟨⟨effect, member, ⟨onto, past⟩, own⟩, finds⟩, misses⟩ := outcome
  exact ⟨sameMembers_rainFirst,
    ⟨entity, registered, ⟨effect, member, onto, past, own⟩, finds, misses⟩,
    by decide +kernel, by decide +kernel⟩

end SkillEngine
