import SkillEngine.Proofs.Mirror

/-!
# What entities bear

When effects take hold of an entity one after the other, what each attaches comes last, and what was
attached before stays in front of it. Stacking onto one of them tells its attachments the new stack
count and renews the tracked magnitudes among them. `Entity.Bears` says so of two forms of an entity
and the effects that took hold in between, each in its present form.
-/

namespace SkillEngine

namespace Attachment

/-- The attachment to an attribute with tracked magnitudes of a source renewed in turn. -/
def renewed (source : SourceId) (attr : AttributeId) (updates : List (Nat × AttributeId × Float32))
    (attachment : Attachment) : Attachment :=
  updates.foldl (fun attachment (slot, named, magnitude) =>
    if attr = named then revalued source slot magnitude attachment else attachment) attachment

variable {source : SourceId} {attr : AttributeId} {updates : List (Nat × AttributeId × Float32)}

/-- The first magnitude is renewed first. -/
theorem renewed_cons (slot : Nat) (named : AttributeId) (magnitude : Float32)
    (rest : List (Nat × AttributeId × Float32)) (attachment : Attachment) :
    attachment.renewed source attr ((slot, named, magnitude) :: rest) =
      (if attr = named then revalued source slot magnitude attachment else attachment).renewed
        source attr rest := rfl

/-- The first magnitude is renewed first, in all of some attachments. -/
theorem map_renewed_cons (slot : Nat) (named : AttributeId) (magnitude : Float32)
    (rest : List (Nat × AttributeId × Float32)) (attachments : List Attachment) :
    attachments.map (renewed source attr ((slot, named, magnitude) :: rest)) =
      (if attr = named then attachments.map (revalued source slot magnitude)
        else attachments).map (renewed source attr rest) := by
  split
  · next same =>
    rw [List.map_map]
    refine List.map_congr_left fun attachment _ => ?_
    rw [renewed_cons, if_pos same]
    rfl
  · next differs =>
    refine List.map_congr_left fun attachment _ => ?_
    rw [renewed_cons, if_neg differs]

/-- The attachments of other sources are not renewed. -/
theorem renewed_of_ne {attachment : Attachment} (other : attachment.source ≠ source) :
    attachment.renewed source attr updates = attachment := by
  induction updates with
  | nil => rfl
  | cons update rest ih =>
    obtain ⟨slot, named, magnitude⟩ := update
    have still : revalued source slot magnitude attachment = attachment :=
      if_neg fun same => other same.1
    rw [renewed_cons, still, ite_self, ih]

/-- Whether a stack count is told before or after magnitudes are renewed does not matter. -/
theorem renewed_restacked (stackCount : Nat) (attachment : Attachment) :
    (attachment.restacked source stackCount).renewed source attr updates =
      (attachment.renewed source attr updates).restacked source stackCount := by
  induction updates generalizing attachment with
  | nil => rfl
  | cons update rest ih =>
    obtain ⟨slot, named, magnitude⟩ := update
    have apart : revalued source slot magnitude (attachment.restacked source stackCount) =
        (revalued source slot magnitude attachment).restacked source stackCount := by
      unfold revalued restacked
      grind
    rw [renewed_cons, renewed_cons, ← ih]
    split
    · rw [apart]
    · rfl

end Attachment

namespace Effect

variable {effect touched : Effect} {updates : List (Nat × AttributeId × Float32)}

/-- An effect with tracked magnitudes renewed attaches what it attached, renewed. -/
theorem attachments_renewed (tracks : effect.Tracks updates) (attr : AttributeId) :
    (effect.renewed updates).attachments attr =
      (effect.attachments attr).map (Attachment.renewed effect.id.source attr updates) := by
  induction updates generalizing effect with
  | nil => exact (List.map_id _).symm
  | cons update rest ih =>
    obtain ⟨slot, named, magnitude⟩ := update
    obtain ⟨modifier, stored, rfl, _⟩ := tracks slot named magnitude List.mem_cons_self
    have onward : (effect.setMagnitude slot magnitude).Tracks rest :=
      fun other attr magnitude later =>
        tracks other attr magnitude (List.mem_cons_of_mem _ later)
    refine (ih onward).trans ?_
    rw [attachments_setMagnitude stored, Attachment.map_renewed_cons]
    rfl

/-- An effect that was touched attaches what it attached, told the new stack count. -/
theorem attachments_touched (retouches : effect.Retouches touched) (attr : AttributeId) :
    touched.attachments attr = (effect.attachments attr).map
      (Attachment.restacked effect.id.source touched.stackCount) := by
  rw [attachments_congr retouches.becomes.id retouches.becomes.definition retouches.magnitudes]
  refine List.map_congr_left fun attachment listed => ?_
  exact (if_pos (of_mem_attachments listed).1).symm

end Effect

namespace Entity

/-- What is attached after tracked magnitudes of an effect were renewed. -/
theorem attachments_tracking {entity : Entity} {key : EffectId}
    {updates : List (Nat × AttributeId × Float32)} {id : AttributeId} {attr : Attribute}
    (found : (entity.tracking key updates).attributes.get? id = some attr) :
    ∃ earlier, entity.attributes.get? id = some earlier ∧
      attr.attachments = earlier.attachments.map (Attachment.renewed key.source id updates) := by
  induction updates generalizing entity with
  | nil => exact ⟨attr, found, (List.map_id _).symm⟩
  | cons update rest ih =>
    obtain ⟨slot, named, magnitude⟩ := update
    obtain ⟨middle, stored, others⟩ := ih found
    obtain ⟨earlier, origin, first⟩ := AttributeSheet.attachments_setMagnitude stored
    exact ⟨earlier, origin, by rw [others, first, Attachment.map_renewed_cons]⟩

/-- What is attached after an effect was stacked onto: what was attached, with the tracked
magnitudes of the effect renewed, told its stack count. -/
theorem attachments_restacking {entity : Entity} {key : EffectId} {touched : Effect}
    {updates : List (Nat × AttributeId × Float32)} {id : AttributeId} {attr : Attribute}
    (found : (entity.restacking key touched updates).attributes.get? id = some attr) :
    ∃ earlier, entity.attributes.get? id = some earlier ∧
      attr.attachments = earlier.attachments.map fun attachment =>
        (attachment.renewed key.source id updates).restacked key.source touched.stackCount := by
  obtain ⟨middle, stored, told⟩ := AttributeSheet.attachments_spreadAll found
  obtain ⟨earlier, origin, renewed⟩ := attachments_tracking stored
  refine ⟨earlier, origin, ?_⟩
  rw [told, renewed, List.map_map]
  rfl

/-- Since an earlier form of an entity some effects have taken hold: every attribute bears what it
bore, changed at most where it comes from one of them, and then what each of them attaches. -/
def Bears (before after : Entity) (effects : List Effect) : Prop :=
  ∀ id attr, after.attributes.get? id = some attr → ∃ earlier retell,
    before.attributes.get? id = some earlier ∧
    (∀ attachment : Attachment, (∀ effect ∈ effects, attachment.source ≠ effect.id.source) →
      retell attachment = attachment) ∧
    attr.attachments = earlier.attachments.map retell ++ effects.flatMap (·.attachments id)

namespace Bears

variable {before after : Entity} {effects : List Effect} {effect touched : Effect}
  {updates : List (Nat × AttributeId × Float32)}

/-- No effect has taken hold. -/
theorem refl (entity : Entity) : entity.Bears entity [] :=
  fun _ attr found => ⟨attr, fun attachment => attachment, found, fun _ _ => rfl, by simp⟩

/-- One more effect takes hold, whose form may then change in what attaches nothing. -/
theorem holding (bears : before.Bears after effects) {final : Effect}
    (attaches : ∀ id, final.attachments id = effect.attachments id) (appliedAt : Float) :
    before.Bears (after.holding effect appliedAt) (effects ++ [final]) := by
  intro id attr found
  obtain ⟨middle, stored, last⟩ := AttributeSheet.attachments_attachAll found
  obtain ⟨earlier, retell, origin, spares, attached⟩ := bears id middle stored
  refine ⟨earlier, retell, origin, fun attachment others => spares attachment fun other member =>
    others other (List.mem_append_left _ member), ?_⟩
  rw [last, attached, Effect.attachments_modifiersOf, List.flatMap_append, List.append_assoc,
    List.flatMap_singleton, attaches]

/-- One of the effects is stacked onto, and its form may then change in what attaches nothing. -/
theorem restacking (bears : before.Bears after effects) (member : effect ∈ effects)
    (alone : ∀ other ∈ effects, other.id = effect.id → other = effect)
    (retouches : effect.Retouches touched) (tracks : touched.Tracks updates) {final : Effect}
    (number : final.id = effect.id)
    (attaches : ∀ id, final.attachments id = (touched.renewed updates).attachments id) :
    before.Bears (after.restacking effect.id touched updates) (effects.map fun other =>
      if other.id = effect.id then final else other) := by
  intro id attr found
  obtain ⟨middle, stored, told⟩ := attachments_restacking found
  obtain ⟨earlier, retell, origin, spares, attached⟩ := bears id middle stored
  refine ⟨earlier, fun attachment => ((retell attachment).renewed effect.id.source id
    updates).restacked effect.id.source touched.stackCount, origin, fun attachment others => ?_, ?_⟩
  · -- An attachment that comes from none of them comes from another source than the one told.
    have none : ∀ other ∈ effects, attachment.source ≠ other.id.source := by
      intro other listed
      have apart := others _ (List.mem_map_of_mem listed)
      split at apart
      · next same =>
        rw [number] at apart
        rwa [same]
      · exact apart
    have other := none effect member
    dsimp only
    rw [spares attachment none, Attachment.renewed_of_ne other]
    exact if_neg other
  · rw [told, attached, List.map_append, List.map_map, List.map_flatMap, List.flatMap_map]
    refine congrArg₂ (· ++ ·) rfl (List.flatMap_congr fun other listed => ?_)
    split
    · next same =>
      rw [alone other listed same, attaches, Effect.attachments_renewed tracks,
        Effect.attachments_touched retouches, List.map_map, retouches.becomes.id]
      exact List.map_congr_left fun attachment _ => (Attachment.renewed_restacked _ attachment).symm
    · next differs =>
      refine (List.map_congr_left fun attachment attaches => ?_).trans (List.map_id _)
      have source := (Effect.of_mem_attachments attaches).1
      have apart : attachment.source ≠ effect.id.source := fun same =>
        differs (EffectId.source_inj (source.symm.trans same))
      rw [Attachment.renewed_of_ne apart]
      exact if_neg apart

end Bears

end Entity

end SkillEngine
