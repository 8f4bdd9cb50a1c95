import SkillEngine.Proofs.Entities

/-!
# What effects attach

An attachment is all that an attached modifier tells about its owner. Each effect makes a list of
them for each attribute, one for each of its slots that names it, and each operation on a sheet does
to the attachments of an attribute what the life of an effect does to these lists.
-/

namespace SkillEngine

/-- What an attached modifier tells about its owner: all but the time. -/
structure Attachment where
  /-- How it combines. -/
  op : ModifierOp
  /-- The resolved number. -/
  magnitude : Float32
  /-- Who attached it. -/
  source : SourceId
  /-- Its position in the owner's definition. -/
  slot : Nat
  /-- The owner's stack count. -/
  stackCount : Nat

namespace Attachment

/-- The attachment with the stack count of its owner, if that is a given source. -/
def restacked (source : SourceId) (stackCount : Nat) (attachment : Attachment) : Attachment :=
  if attachment.source = source then { attachment with stackCount } else attachment

/-- The attachment with another magnitude, if it is in a slot of a given source. -/
def revalued (source : SourceId) (slot : Nat) (magnitude : Float32) (attachment : Attachment) :
    Attachment :=
  if attachment.source = source ∧ attachment.slot = slot then { attachment with magnitude }
  else attachment

end Attachment

/-- What an attached modifier tells about its owner. -/
def ActiveModifier.attachment (active : ActiveModifier Float32) : Attachment :=
  ⟨active.op, active.magnitude, active.source, active.slot, active.stackCount⟩

namespace Attribute

/-- What is attached to an attribute, in order. -/
def attachments (attr : Attribute) : List Attachment := attr.modifiers.map (·.attachment)

/-- Attaching a modifier puts it last. -/
theorem attachments_attach (attr : Attribute) (active : ActiveModifier Float32) :
    (attr.attach active).attachments = attr.attachments ++ [active.attachment] :=
  List.map_append

/-- Detaching a source drops what it attached. -/
theorem attachments_detach (attr : Attribute) (source : SourceId) :
    (attr.detach source).2.attachments =
      attr.attachments.filter fun attachment => attachment.source != source := by
  unfold detach attachments
  rw [List.filter_map]
  rfl

/-- Telling a stack count tells it to what the source attached. -/
theorem attachments_setStacks (attr : Attribute) (source : SourceId) (stackCount : Nat) :
    (attr.setStacks source stackCount).attachments =
      attr.attachments.map (Attachment.restacked source stackCount) := by
  unfold setStacks attachments
  rw [List.map_map, List.map_map]
  refine List.map_congr_left fun active _ => ?_
  by_cases same : active.source = source
  · simp [Attachment.restacked, ActiveModifier.attachment, same]
  · simp [Attachment.restacked, ActiveModifier.attachment, same]

/-- Replacing a magnitude replaces it in the slot of the source. -/
theorem attachments_setMagnitude (attr : Attribute) (source : SourceId) (slot : Nat)
    (magnitude : Float32) : (attr.setMagnitude source slot magnitude).attachments =
      attr.attachments.map (Attachment.revalued source slot magnitude) := by
  unfold setMagnitude attachments
  rw [List.map_map, List.map_map]
  refine List.map_congr_left fun active _ => ?_
  by_cases same : active.source = source ∧ active.slot = slot
  · simp [Attachment.revalued, ActiveModifier.attachment, same]
  · simp [Attachment.revalued, ActiveModifier.attachment, same]

/-- A revalued attribute has the same attached. -/
theorem Revalues.attachments {before after : Attribute} (revalues : before.Revalues after) :
    after.attachments = before.attachments :=
  congrArg (List.map ActiveModifier.attachment) revalues.modifiers

end Attribute

namespace AttributeSheet

variable {sheet : AttributeSheet} {id : AttributeId} {attr : Attribute}

/-- What is attached after some modifiers were attached in turn, the values committed. -/
theorem attachments_attachAll {modifiers : List (AttributeId × ActiveModifier Float32)}
    (found : (Entity.attachAll modifiers sheet).1.get? id = some attr) :
    ∃ earlier, sheet.get? id = some earlier ∧ attr.attachments = earlier.attachments ++
      (modifiers.filter fun entry => decide (entry.1 = id)).map (·.2.attachment) := by
  have attachEach : ∀ (modifiers : List (AttributeId × ActiveModifier Float32))
      (sheet : AttributeSheet) (attr : Attribute), (modifiers.foldl (fun sheet entry =>
        sheet.attach entry.1 entry.2) sheet).get? id = some attr →
      ∃ earlier, sheet.get? id = some earlier ∧ attr.attachments = earlier.attachments ++
        (modifiers.filter fun entry => decide (entry.1 = id)).map (·.2.attachment) := by
    intro modifiers
    induction modifiers with
    | nil => exact fun sheet attr found => ⟨attr, found, (List.append_nil _).symm⟩
    | cons entry rest ih =>
      intro sheet attr found
      obtain ⟨middle, stored, others⟩ := ih (sheet.attach entry.1 entry.2) attr found
      rw [get?_attach] at stored
      by_cases same : id = entry.1
      · rw [if_pos same] at stored
        obtain ⟨earlier, origin, rfl⟩ := Option.map_eq_some_iff.1 stored
        refine ⟨earlier, origin, ?_⟩
        rw [others, Attribute.attachments_attach, List.filter_cons_of_pos (by simp [same])]
        simp
      · rw [if_neg same] at stored
        refine ⟨middle, stored, ?_⟩
        rw [others, List.filter_cons_of_neg (by simpa using fun equal => same equal.symm)]
  obtain ⟨middle, stored, revalues⟩ := revalues_recalculateDirty _ id attr found
  obtain ⟨earlier, origin, attached⟩ := attachEach modifiers sheet middle stored
  exact ⟨earlier, origin, revalues.attachments.trans attached⟩

/-- What is attached after every attribute was changed, the values committed. -/
theorem attachments_mapEach {change : Attribute → Attribute}
    (found : (sheet.mapEach change).recalculateDirty.1.get? id = some attr) :
    ∃ earlier, sheet.get? id = some earlier ∧ attr.attachments = (change earlier).attachments := by
  obtain ⟨middle, stored, revalues⟩ := revalues_recalculateDirty _ id attr found
  rw [get?_mapEach] at stored
  obtain ⟨earlier, origin, rfl⟩ := Option.map_eq_some_iff.1 stored
  exact ⟨earlier, origin, revalues.attachments⟩

/-- What is attached after a source was detached, the values committed. -/
theorem attachments_detachAll {source : SourceId}
    (found : (Entity.detachAll source sheet).1.get? id = some attr) :
    ∃ earlier, sheet.get? id = some earlier ∧ attr.attachments =
      earlier.attachments.filter fun attachment => attachment.source != source := by
  obtain ⟨earlier, origin, same⟩ := attachments_mapEach found
  exact ⟨earlier, origin, same.trans (Attribute.attachments_detach earlier source)⟩

/-- What is attached after a source's stack count was told, the values committed. -/
theorem attachments_spreadAll {source : SourceId} {stackCount : Nat}
    (found : (Entity.spreadAll source stackCount sheet).1.get? id = some attr) :
    ∃ earlier, sheet.get? id = some earlier ∧ attr.attachments =
      earlier.attachments.map (Attachment.restacked source stackCount) := by
  obtain ⟨earlier, origin, same⟩ := attachments_mapEach found
  exact ⟨earlier, origin, same.trans (Attribute.attachments_setStacks earlier source stackCount)⟩

/-- What is attached after a magnitude was replaced. -/
theorem attachments_setMagnitude {target : AttributeId} {source : SourceId} {slot : Nat}
    {magnitude : Float32}
    (found : (sheet.setMagnitude target source slot magnitude).get? id = some attr) :
    ∃ earlier, sheet.get? id = some earlier ∧ attr.attachments = if id = target
      then earlier.attachments.map (Attachment.revalued source slot magnitude)
      else earlier.attachments := by
  rw [get?_setMagnitude] at found
  by_cases same : id = target
  · rw [if_pos same] at found
    obtain ⟨earlier, origin, rfl⟩ := Option.map_eq_some_iff.1 found
    refine ⟨earlier, origin, ?_⟩
    rw [if_pos same, Attribute.attachments_setMagnitude]
  · rw [if_neg same] at found
    exact ⟨attr, found, (if_neg same).symm⟩

end AttributeSheet

namespace Effect

/-- The slots of an effect: its modifiers with their magnitudes and numbers. -/
def slots (effect : Effect) : List ((Modifier × Float32) × Nat) :=
  (effect.definition.modifiers.zip effect.magnitudes).zipIdx

/-- What an effect attaches to an attribute, slot by slot. -/
def attachments (effect : Effect) (attr : AttributeId) : List Attachment :=
  (effect.slots.filter fun entry => decide (entry.1.1.attr = attr)).map
    fun ((modifier, magnitude), slot) =>
      ⟨modifier.op, magnitude, effect.id.source, slot, effect.stackCount⟩

variable {effect : Effect} {attr : AttributeId}

/-- Whatever an effect attaches has the effect as its source and its stack count. -/
theorem of_mem_attachments {attachment : Attachment}
    (member : attachment ∈ effect.attachments attr) :
    attachment.source = effect.id.source ∧ attachment.stackCount = effect.stackCount := by
  obtain ⟨entry, _, rfl⟩ := List.mem_map.1 member
  exact ⟨rfl, rfl⟩

/-- The modifiers that an effect attaches are its attachments. -/
theorem attachments_modifiersOf (effect : Effect) (appliedAt : Float) (attr : AttributeId) :
    ((World.modifiersOf effect appliedAt).filter fun entry => decide (entry.1 = attr)).map
      (·.2.attachment) = effect.attachments attr := by
  unfold World.modifiersOf attachments slots
  rw [List.filter_map, List.map_map]
  rfl

/-- An effect with the same slots attaches the same, with its own stack count. -/
theorem attachments_congr {other : Effect} (id : other.id = effect.id)
    (definition : other.definition = effect.definition)
    (magnitudes : other.magnitudes = effect.magnitudes) (attr : AttributeId) :
    other.attachments attr = (effect.attachments attr).map fun attachment =>
      { attachment with stackCount := other.stackCount } := by
  unfold attachments slots
  rw [id, definition, magnitudes, List.map_map]
  rfl

/-- The slots of modifiers with one magnitude replaced. -/
theorem slots_set (modifiers : List Modifier) (magnitudes : List Float32) (slot start : Nat)
    (magnitude : Float32) : (modifiers.zip (magnitudes.set slot magnitude)).zipIdx start =
      ((modifiers.zip magnitudes).zipIdx start).map fun entry =>
        ((entry.1.1, if entry.2 = start + slot then magnitude else entry.1.2), entry.2) := by
  induction modifiers generalizing magnitudes slot start with
  | nil => rfl
  | cons modifier rest ih =>
    cases magnitudes with
    | nil => rfl
    | cons first others =>
      cases slot with
      | zero =>
        simp only [List.set_cons_zero, List.zip_cons_cons, List.zipIdx_cons, List.map_cons,
          Nat.add_zero, if_true]
        congr 1
        refine ((List.map_congr_left fun entry member => ?_).trans (List.map_id _)).symm
        have later := List.le_snd_of_mem_zipIdx member
        rw [if_neg (by omega)]
        rfl
      | succ slot =>
        simp only [List.set_cons_succ, List.zip_cons_cons, List.zipIdx_cons, List.map_cons]
        rw [if_neg (by omega), ih others slot (start + 1)]
        congr 1
        refine List.map_congr_left fun entry _ => ?_
        rw [Nat.add_assoc start 1 slot, Nat.add_comm 1 slot]

/-- Replacing the magnitude of a slot that names an attribute replaces it in what the effect
attaches to that attribute. -/
theorem attachments_setMagnitude {slot : Nat} {modifier : Modifier}
    (stored : effect.definition.modifiers[slot]? = some modifier) (magnitude : Float32)
    (attr : AttributeId) : (effect.setMagnitude slot magnitude).attachments attr =
      if attr = modifier.attr
        then (effect.attachments attr).map (Attachment.revalued effect.id.source slot magnitude)
        else effect.attachments attr := by
  have entries : (effect.setMagnitude slot magnitude).slots = effect.slots.map fun entry =>
      ((entry.1.1, if entry.2 = slot then magnitude else entry.1.2), entry.2) := by
    have replaced := slots_set effect.definition.modifiers effect.magnitudes slot 0 magnitude
    rw [Nat.zero_add] at replaced
    exact replaced
  unfold attachments
  rw [entries, List.filter_map, List.map_map]
  split
  · rw [List.map_map]
    refine List.map_congr_left fun entry _ => ?_
    simp only [Function.comp, Attachment.revalued, true_and, setMagnitude]
    split <;> rfl
  · next differs =>
    refine List.map_congr_left fun entry member => ?_
    obtain ⟨listed, named⟩ := List.mem_filter.1 member
    have apart : entry.2 ≠ slot := by
      rintro rfl
      have placed := List.mem_zipIdx_iff_getElem?.1 listed
      have zipped := (List.getElem?_zip_eq_some.1 placed).1
      rw [stored] at zipped
      cases zipped
      exact differs (of_decide_eq_true named).symm
    simp only [Function.comp, if_neg apart, setMagnitude]

end Effect

end SkillEngine
