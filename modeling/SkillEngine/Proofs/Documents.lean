import SkillEngine.Proofs.Constants
import SkillEngine.Proofs.Decoding
import SkillEngine.Proofs.Snapshots

/-!
# Exported skills

A skill that was read from a text is written as a text and is read from it again, provided that all
its constants are finite; an infinite constant is written as null, which no constant is read from.
-/

namespace SkillEngine

open Json (Kept required withDefault recordSlots_record)

/-! ## Identifiers, tags and formulas -/

/-- A constant is read back if it is finite. -/
theorem Number.Single.kept (stored : Number.Single) (room : Nat) :
    Kept (Json.Decoder.single room stored.toJson) stored.isFinite stored :=
  stored.decoder_toJson room

/-- An attribute's number is read back. -/
theorem AttributeId.decoder_toJson (id : AttributeId) (room : Nat) :
    AttributeId.decoder room id.toJson = some id := by
  rw [AttributeId.decoder, Json.Decoder.map, toJson, Json.uint16_nat, Option.map_some]

/-- A skill's number is read back. -/
theorem SkillId.decoder_toJson (id : SkillId) (room : Nat) :
    SkillId.decoder room id.toJson = some id := by
  rw [SkillId.decoder, Json.Decoder.map, toJson, Json.uint32_nat, Option.map_some]

/-- A node's number is read back. -/
theorem NodeId.decoder_toJson (id : NodeId) (room : Nat) :
    NodeId.decoder room id.toJson = some id := by
  rw [NodeId.decoder, Json.Decoder.map, toJson, Json.uint32_nat, Option.map_some]

/-- A tag is read back from its path. -/
theorem Tag.decoder_toJson (tag : Tag) (room : Nat) :
    Tag.decoder room tag.toJson = some tag := by
  show (some tag.path).map Tag.ofPath = some tag
  rw [Option.map_some, Tag.ofPath_path]

/-- A list of tags is read as the set of them. -/
theorem TagSet.decoder_array (tags : List Tag) (room : Nat) :
    TagSet.decoder (room + 1) (.array (tags.map Tag.toJson)) = some (ofList tags) := by
  have members := Json.list_map tags fun tag _ => tag.decoder_toJson room
  rw [TagSet.decoder, Json.Decoder.map, members, Option.map_some]

/-- A tag set is read back from its members. -/
theorem TagSet.decoder_toJson (set : TagSet) (room : Nat) :
    TagSet.decoder (room + 1) set.toJson = some set := by
  rw [toJson, decoder_array, ofList_tags]

/-- A tag set can be written. -/
theorem TagSet.isWritten (set : TagSet) : set.toJson.IsWritten :=
  Json.eachWritten_map fun _ _ => rfl

/-- A set of tags is decoded only where an array may be opened. -/
theorem TagSet.room_pos {room : Nat} {json : Json} {set : TagSet}
    (read : TagSet.decoder room json = some set) : 0 < room := by
  obtain ⟨tags, list, _⟩ := Option.map_eq_some_iff.1 read
  exact Json.room_pos_of_list list

/-- A formula that was decoded has not been read yet. -/
theorem Formula.Source.unread_of_decoded {room : Nat} {json : Json} {source : Formula.Source}
    (read : Formula.Source.decoder room json = some source) : source.unread = source := by
  obtain ⟨text, _, rfl⟩ := Option.map_eq_some_iff.1 read
  rfl

/-! ## Effects -/

namespace MagnitudeSource

/-- A magnitude has no constant that is not finite. -/
def isFinite : MagnitudeSource → Bool
  | .fixed value => value.isFinite
  | _ => true

/-- A magnitude can be written. -/
theorem isWritten (source : MagnitudeSource) : source.toJson.IsWritten := by
  cases source with
  | fixed value => exact ⟨rfl, value.isWritten_toJson, trivial⟩
  | formula | computed | setByCaller => exact ⟨rfl, rfl, trivial⟩

/-- A magnitude is read back if it is finite. -/
theorem kept (source : MagnitudeSource) (room : Nat) :
    Kept (MagnitudeSource.decoder (room + 1) source.toJson) source.isFinite source.unread := by
  cases source with
  | fixed value => exact (value.kept room).map MagnitudeSource.fixed
  | formula source => exact .of_some rfl
  | computed name => exact .of_some rfl
  | setByCaller key => exact .of_some rfl

/-- A magnitude that was decoded has a formula that has not been read yet. -/
theorem unread_of_decoded {room : Nat} {json : Json} {source : MagnitudeSource}
    (read : MagnitudeSource.decoder room json = some source) : source.unread = source := by
  unfold MagnitudeSource.decoder at read
  split at read
  · obtain ⟨value, _, rfl⟩ := Option.map_eq_some_iff.1 read
    rfl
  · obtain ⟨formula, found, rfl⟩ := Option.map_eq_some_iff.1 read
    rw [unread, Formula.Source.unread_of_decoded found]
  · obtain ⟨name, _, rfl⟩ := Option.map_eq_some_iff.1 read
    rfl
  · obtain ⟨key, _, rfl⟩ := Option.map_eq_some_iff.1 read
    rfl
  · cases read

end MagnitudeSource

namespace Modifier

/-- A modifier has no constant that is not finite. -/
def isFinite (modifier : Modifier) : Bool := modifier.magnitude.isFinite

/-- A modifier can be written. -/
theorem isWritten (modifier : Modifier) : modifier.toJson.IsWritten :=
  ⟨rfl, Json.isWritten_nat _, rfl, rfl, rfl, modifier.magnitude.isWritten, rfl, rfl, trivial⟩

/-- A modifier is read back if it is finite. -/
theorem kept (modifier : Modifier) (room : Nat) :
    Kept (Modifier.decoder (room + 2) modifier.toJson) modifier.isFinite modifier.unread := by
  have slots : Json.recordSlots ["attribute", "op", "magnitude", "capture"] (room + 2)
      modifier.toJson = some (room + 1, [_, _, _, _]) :=
    recordSlots_record rfl (by decide)
  have attr := modifier.attr.decoder_toJson (room + 1)
  have op := Json.decoder_names ModifierOp.names modifier.op
    (by cases modifier.op <;> rfl) (room + 1)
  have magnitude := modifier.magnitude.kept room
  have capture := Json.decoder_names CaptureMode.names modifier.capture
    (by cases modifier.capture <;> rfl) (room + 1)
  rw [Modifier.decoder, slots]
  exact .after attr (.after op (magnitude.before (Option.bind_eq_some_iff.2 ⟨_, capture, rfl⟩)))

/-- So has a modifier. -/
theorem unread_of_decoded {room : Nat} {json : Json} {modifier : Modifier}
    (read : Modifier.decoder room json = some modifier) : modifier.unread = modifier := by
  unfold Modifier.decoder at read
  split at read
  · obtain ⟨attr, _, read⟩ := Option.bind_eq_some_iff.1 read
    obtain ⟨op, _, read⟩ := Option.bind_eq_some_iff.1 read
    obtain ⟨magnitude, found, read⟩ := Option.bind_eq_some_iff.1 read
    obtain ⟨capture, _, made⟩ := Option.bind_eq_some_iff.1 read
    cases made
    obtain ⟨json, decoded⟩ := Json.exists_of_required found
    rw [unread, MagnitudeSource.unread_of_decoded decoded]
  · cases read

end Modifier

/-- A stacking policy can be written. -/
theorem StackingPolicy.isWritten (policy : StackingPolicy) : policy.toJson.IsWritten :=
  ⟨rfl, rfl, rfl, Json.isWritten_nat _, rfl, trivial, rfl, trivial, rfl, rfl, rfl, rfl, trivial⟩

/-- A stacking policy is read back. -/
theorem StackingPolicy.decoder_toJson (policy : StackingPolicy) (room : Nat) :
    StackingPolicy.decoder (room + 1) policy.toJson = some policy := by
  have slots : Json.recordSlots ["kind", "limit", "refresh_duration_on_stack",
      "reset_period_on_stack", "overflow", "expiration"] (room + 1) policy.toJson =
        some (room, [_, _, _, _, _, _]) :=
    recordSlots_record rfl (by decide)
  have kind := Json.decoder_names StackingKind.names policy.kind
    (by cases policy.kind <;> rfl) room
  have limit := Json.uint32_nat policy.limit room
  have overflow := Json.decoder_names OverflowPolicy.names policy.overflow
    (by cases policy.overflow <;> rfl) room
  have expiration := Json.decoder_names ExpirationPolicy.names policy.expiration
    (by cases policy.expiration <;> rfl) room
  rw [StackingPolicy.decoder, slots]
  simp only [required, withDefault, kind, limit, overflow, expiration]
  rfl

/-- Tag lists can be written. -/
theorem EffectTags.isWritten (tags : EffectTags) : tags.toJson.IsWritten :=
  ⟨rfl, tags.asset.isWritten, rfl, tags.granted.isWritten, rfl, tags.requiredToApply.isWritten,
    rfl, tags.immunity.isWritten, rfl, tags.requiredOngoing.isWritten, rfl,
    tags.removeEffectsWithTags.isWritten, trivial⟩

/-- Tag lists are read back. -/
theorem EffectTags.decoder_toJson (tags : EffectTags) (room : Nat) :
    EffectTags.decoder (room + 2) tags.toJson = some tags := by
  have slots : Json.recordSlots ["asset", "granted", "required_to_apply", "immunity",
      "required_ongoing", "remove_effects_with_tags"] (room + 2) tags.toJson =
        some (room + 1, [_, _, _, _, _, _]) :=
    recordSlots_record rfl (by decide)
  rw [EffectTags.decoder, slots]
  simp only [withDefault, TagSet.decoder_toJson]
  rfl

namespace EffectDef

/-- A definition has no constant that is not finite. -/
def isFinite (definition : EffectDef) : Bool :=
  definition.duration.isFinite &&
    (definition.period.isFinite && definition.modifiers.all Modifier.isFinite)

/-- A definition can be written. -/
theorem isWritten (definition : EffectDef) : definition.toJson.IsWritten := by
  have modifiers := Json.eachWritten_map fun modifier (_ : modifier ∈ definition.modifiers) =>
    modifier.isWritten
  refine ⟨rfl, rfl, rfl, rfl, rfl, definition.duration.isWritten, rfl,
    definition.period.isWritten_toJson, rfl, trivial, rfl, modifiers, rfl,
    definition.tags.isWritten, rfl, ?_, trivial⟩
  cases definition.stacking with
  | none => trivial
  | some policy => exact policy.isWritten

/-- A definition is read back if it is finite. -/
theorem kept (definition : EffectDef) (room : Nat) :
    Kept (EffectDef.decoder (room + 4) definition.toJson) definition.isFinite
      definition.unread := by
  have slots : Json.recordSlots ["name", "duration_type", "duration", "period",
      "execute_periodic_on_application", "modifiers", "tags", "stacking"] (room + 4)
        definition.toJson = some (room + 3, [_, _, _, _, _, _, _, _]) :=
    recordSlots_record rfl (by decide)
  have durationType := Json.decoder_names DurationType.names definition.durationType
    (by cases definition.durationType <;> rfl) (room + 3)
  have duration := definition.duration.kept (room + 2)
  have period := definition.period.kept (room + 3)
  have modifiers : Kept (Json.Decoder.list Modifier.decoder (room + 3)
      (.array (definition.modifiers.map Modifier.toJson)))
      (definition.modifiers.all Modifier.isFinite) (definition.modifiers.map Modifier.unread) :=
    Json.kept_list fun modifier _ => modifier.kept room
  have tags := definition.tags.decoder_toJson (room + 1)
  rw [EffectDef.decoder, slots]
  refine .after rfl (.after durationType (duration.bind (period.bind (.after rfl
    (modifiers.before ?_)))))
  refine Option.bind_eq_some_iff.2 ⟨_, tags, Option.bind_eq_some_iff.2
    ⟨definition.stacking, ?_, rfl⟩⟩
  cases definition.stacking with
  | none => rfl
  | some policy => exact congrArg (Option.map some) (policy.decoder_toJson (room + 2))

/-- A definition that was decoded has formulas that have not been read yet. -/
theorem unread_of_decoded {room : Nat} {json : Json} {definition : EffectDef}
    (read : EffectDef.decoder room json = some definition) : definition.unread = definition := by
  unfold EffectDef.decoder at read
  split at read
  · obtain ⟨name, _, read⟩ := Option.bind_eq_some_iff.1 read
    obtain ⟨durationType, _, read⟩ := Option.bind_eq_some_iff.1 read
    obtain ⟨duration, lasting, read⟩ := Option.bind_eq_some_iff.1 read
    obtain ⟨period, _, read⟩ := Option.bind_eq_some_iff.1 read
    obtain ⟨execute, _, read⟩ := Option.bind_eq_some_iff.1 read
    obtain ⟨modifiers, changing, read⟩ := Option.bind_eq_some_iff.1 read
    obtain ⟨tags, _, read⟩ := Option.bind_eq_some_iff.1 read
    obtain ⟨stacking, _, made⟩ := Option.bind_eq_some_iff.1 read
    cases made
    have same : duration.unread = duration := by
      rcases Json.eq_or_exists_of_withDefault lasting with rfl | ⟨json, decoded⟩
      · rfl
      · exact MagnitudeSource.unread_of_decoded decoded
    have each : modifiers.map Modifier.unread = modifiers := by
      rcases Json.eq_or_exists_of_withDefault changing with rfl | ⟨json, decoded⟩
      · rfl
      · refine (List.map_congr_left fun modifier member => ?_).trans (List.map_id _)
        obtain ⟨_, _, _, found⟩ := Json.exists_of_list decoded member
        exact Modifier.unread_of_decoded found
    rw [unread, same, each]
  · cases read

end EffectDef

/-! ## Conditions -/

namespace ConditionDef

mutual

/-- How many arrays and objects of a condition's document are open at once. -/
def depth : ConditionDef → Nat
  | .hasAllTags _ | .hasAnyTags _ | .attributeCompare .. => 2
  | .chance _ | .contextFlag _ => 1
  | .all conditions | .any conditions => depths conditions + 2
  | .not condition => depth condition + 1
  | .always | .never => 0

/-- How many are open at once in one of some conditions. -/
def depths : List ConditionDef → Nat
  | [] => 0
  | first :: rest => max (depth first) (depths rest)

end

mutual

/-- A condition has no constant that is not finite. -/
def isFinite : ConditionDef → Bool
  | .attributeCompare _ _ value => value.isFinite
  | .chance probability => probability.isFinite
  | .all conditions | .any conditions => areFinite conditions
  | .not condition => isFinite condition
  | _ => true

/-- Some conditions have no constant that is not finite. -/
def areFinite : List ConditionDef → Bool
  | [] => true
  | first :: rest => isFinite first && areFinite rest

end

mutual

/-- A condition can be written. -/
theorem isWritten : (condition : ConditionDef) → condition.toJson.IsWritten
  | .hasAllTags tags | .hasAnyTags tags => ⟨rfl, tags.isWritten, trivial⟩
  | .attributeCompare _ _ value =>
    ⟨rfl, ⟨rfl, Json.isWritten_nat _, rfl, rfl, rfl, value.isWritten_toJson, trivial⟩, trivial⟩
  | .chance probability => ⟨rfl, probability.isWritten_toJson, trivial⟩
  | .contextFlag _ => ⟨rfl, rfl, trivial⟩
  | .all conditions | .any conditions => ⟨rfl, areWritten conditions, trivial⟩
  | .not condition => ⟨rfl, isWritten condition, trivial⟩
  | .always | .never => rfl

/-- Some conditions can be written. -/
theorem areWritten : (conditions : List ConditionDef) → Json.EachWritten (eachToJson conditions)
  | [] => trivial
  | first :: rest => ⟨isWritten first, areWritten rest⟩

end

/-- A comparison is read back if its constant is finite. -/
theorem kept_compare (attr : AttributeId) (op : Comparison) (value : Number.Single) (room : Nat) :
    Kept (compareDecoder (room + 1) (.record [("attribute", attr.toJson),
      ("op", Comparison.names.toJson op), ("value", value.toJson)])) value.isFinite
      (.attributeCompare attr op value) := by
  have slots : Json.recordSlots ["attribute", "op", "value"] (room + 1)
      (.record [("attribute", attr.toJson), ("op", Comparison.names.toJson op),
        ("value", value.toJson)]) = some (room, [_, _, _]) :=
    recordSlots_record rfl (by decide)
  have id := attr.decoder_toJson room
  have comparison := Json.decoder_names Comparison.names op (by cases op <;> rfl) room
  rw [compareDecoder, slots]
  exact .after id (.after comparison ((value.kept room).before rfl))

/-- Items that are conditions are decoded one by one. -/
theorem mapM_decoder (room : Nat) (items : List Json) :
    (items.mapM fun item => decoder room item) = Json.Decoder.each decoder room items := by
  induction items with
  | nil => rfl
  | cons first rest ih =>
    rw [List.mapM_cons, ih]
    rfl

mutual

/-- A condition is read back if it is finite and not too deep. -/
theorem kept : (condition : ConditionDef) → (room : Nat) → condition.depth ≤ room →
    Kept (decoder room condition.toJson) condition.isFinite condition
  | .hasAllTags tags, room + 2, _ =>
    .of_some (congrArg (Option.map hasAllTags) (tags.decoder_toJson room))
  | .hasAnyTags tags, room + 2, _ =>
    .of_some (congrArg (Option.map hasAnyTags) (tags.decoder_toJson room))
  | .attributeCompare attr op value, room + 2, _ => kept_compare attr op value room
  | .chance probability, room + 1, _ => (probability.kept room).map chance
  | .contextFlag key, room + 1, _ => .of_some rfl
  | .all conditions, room + 2, deep => by
    have each := kept_each conditions room (Nat.le_of_succ_le_succ (Nat.le_of_succ_le_succ deep))
    rw [← mapM_decoder] at each
    exact each.map all
  | .any conditions, room + 2, deep => by
    have each := kept_each conditions room (Nat.le_of_succ_le_succ (Nat.le_of_succ_le_succ deep))
    rw [← mapM_decoder] at each
    exact each.map any
  | .not condition, room + 1, deep =>
    (kept condition room (Nat.le_of_succ_le_succ deep)).map ConditionDef.not
  | .always, room, _ => .of_some (by cases room <;> rfl)
  | .never, room, _ => .of_some (by cases room <;> rfl)

/-- Some conditions are read back if they are finite and none is too deep. -/
theorem kept_each : (conditions : List ConditionDef) → (room : Nat) → depths conditions ≤ room →
    Kept (Json.Decoder.each decoder room (eachToJson conditions)) (areFinite conditions)
      conditions
  | [], _, _ => .of_some rfl
  | first :: rest, room, deep => by
    have head := kept first room (Nat.le_trans (Nat.le_max_left _ _) deep)
    have tail := kept_each rest room (Nat.le_trans (Nat.le_max_right _ _) deep)
    exact head.bind (tail.before rfl)

end

/-- A comparison was read from a record. -/
theorem depth_compareDecoder {room : Nat} {json : Json} {condition : ConditionDef}
    (read : compareDecoder room json = some condition) : condition.depth ≤ room + 1 := by
  unfold compareDecoder at read
  split at read
  · next slots =>
    obtain rfl := Json.room_of_recordSlots slots
    obtain ⟨attr, _, read⟩ := Option.bind_eq_some_iff.1 read
    obtain ⟨op, _, read⟩ := Option.bind_eq_some_iff.1 read
    obtain ⟨value, _, made⟩ := Option.bind_eq_some_iff.1 read
    cases made
    simp only [depth]
    omega
  · cases read

/-- Conditions are no deeper than each of them may be. -/
theorem depths_le {conditions : List ConditionDef} {bound : Nat}
    (each : ∀ condition ∈ conditions, condition.depth ≤ bound) : depths conditions ≤ bound := by
  induction conditions with
  | nil => exact Nat.zero_le _
  | cons first rest ih =>
    obtain ⟨head, tail⟩ := List.forall_mem_cons.1 each
    exact Nat.max_le.2 ⟨head, ih tail⟩

/-- A condition that holds no others was read from a document that is as deep. -/
theorem depth_leafDecoder {name : String} {payload : Option Json} {room : Nat}
    {condition : ConditionDef} (read : leafDecoder name payload room = some condition) :
    (payload = none → condition.depth = 0) ∧ condition.depth ≤ room + 1 := by
  unfold leafDecoder at read
  split at read
  · obtain ⟨tags, set, rfl⟩ := Option.map_eq_some_iff.1 read
    have opened := TagSet.room_pos set
    exact ⟨nofun, by simp only [depth]; omega⟩
  · obtain ⟨tags, set, rfl⟩ := Option.map_eq_some_iff.1 read
    have opened := TagSet.room_pos set
    exact ⟨nofun, by simp only [depth]; omega⟩
  · exact ⟨nofun, depth_compareDecoder read⟩
  · obtain ⟨_, _, rfl⟩ := Option.map_eq_some_iff.1 read
    exact ⟨nofun, Nat.le_add_left _ _⟩
  · obtain ⟨_, _, rfl⟩ := Option.map_eq_some_iff.1 read
    exact ⟨nofun, Nat.le_add_left _ _⟩
  · obtain rfl := Json.eq_of_noPayload read
    exact ⟨fun _ => rfl, Nat.zero_le _⟩
  · obtain rfl := Json.eq_of_noPayload read
    exact ⟨fun _ => rfl, Nat.zero_le _⟩
  · cases read

/-- A condition was read from a document that is as deep. -/
theorem depth_le {room : Nat} {json : Json} {condition : ConditionDef}
    (read : decoder room json = some condition) : condition.depth ≤ room := by
  fun_induction decoder room json generalizing condition with
  | case1 room name =>
    have none := (depth_leafDecoder read).1 rfl
    omega
  | case2 room items ih =>
    rw [mapM_decoder] at read
    obtain ⟨conditions, each, rfl⟩ := Option.map_eq_some_iff.1 read
    refine Nat.add_le_add_right (depths_le fun condition member => ?_) 2
    obtain ⟨item, found⟩ := Json.exists_of_each each member
    exact ih item found
  | case3 room items ih =>
    rw [mapM_decoder] at read
    obtain ⟨conditions, each, rfl⟩ := Option.map_eq_some_iff.1 read
    refine Nat.add_le_add_right (depths_le fun condition member => ?_) 2
    obtain ⟨item, found⟩ := Json.exists_of_each each member
    exact ih item found
  | case4 room payload ih =>
    obtain ⟨inner, found, rfl⟩ := Option.map_eq_some_iff.1 read
    exact Nat.succ_le_succ (ih found)
  | case5 room name payload => exact (depth_leafDecoder read).2
  | case6 => cases read

end ConditionDef

/-! ## Cues and tasks -/

namespace CueDef

/-- A cue has no constant that is not finite. -/
def isFinite (definition : CueDef) : Bool :=
  definition.duration.isFinite && definition.params.entries.all fun entry => entry.2.isFinite

/-- A cue can be written. -/
theorem isWritten (definition : CueDef) : definition.toJson.IsWritten := by
  have params : (Json.record (definition.params.entries.map fun entry =>
      (entry.1, entry.2.toJson))).IsWritten := by
    refine Json.isWritten_record fun field member => ?_
    obtain ⟨entry, _, rfl⟩ := List.mem_map.1 member
    exact Number.Single.isWritten_toJson entry.2
  exact ⟨rfl, rfl, rfl, definition.duration.isWritten_toJson, rfl, params, trivial⟩

/-- A cue is read back if it is finite, its parameters being in order of their names. -/
theorem kept {definition : CueDef} (ascending : definition.params.Ascending) (room : Nat) :
    Kept (CueDef.decoder (room + 2) definition.toJson) definition.isFinite definition := by
  have slots : Json.recordSlots ["cue", "duration", "params"] (room + 2) definition.toJson =
      some (room + 1, [_, _, _]) :=
    recordSlots_record rfl (by decide)
  have duration := definition.duration.kept (room + 1)
  have params : Kept (Json.Decoder.entries Json.Decoder.single (room + 1)
      (.record (definition.params.entries.map fun entry => (entry.1, entry.2.toJson))))
      (definition.params.entries.all fun entry => entry.2.isFinite)
      (definition.params.entries.map fun entry => (entry.1, entry.2)) :=
    Json.kept_entries _ _ id fun entry _ => Number.Single.kept entry.2 room
  rw [List.map_id'] at params
  rw [CueDef.decoder, slots]
  refine .after rfl (duration.bind (params.before ?_))
  show some { definition with params := Dict.ofList definition.params.entries } = some definition
  rw [ascending.ofList_entries]

/-- The parameters of a cue that was decoded are in order of their names. -/
theorem ascending_of_decoder {room : Nat} {json : Json} {definition : CueDef}
    (read : CueDef.decoder room json = some definition) : definition.params.Ascending := by
  unfold CueDef.decoder at read
  split at read
  · obtain ⟨cue, _, read⟩ := Option.bind_eq_some_iff.1 read
    obtain ⟨duration, _, read⟩ := Option.bind_eq_some_iff.1 read
    obtain ⟨entries, _, made⟩ := Option.bind_eq_some_iff.1 read
    cases made
    exact Dict.ascending_ofList entries
  · cases read

end CueDef

namespace SearchShape

/-- A region has no constant that is not finite. -/
def isFinite : SearchShape → Bool
  | .sphere radius => radius.isFinite
  | .box x y z => x.isFinite && (y.isFinite && z.isFinite)
  | .cone radius angle => radius.isFinite && angle.isFinite

/-- A region can be written. -/
theorem isWritten (shape : SearchShape) : shape.toJson.IsWritten := by
  cases shape with
  | sphere radius => exact ⟨rfl, ⟨rfl, radius.isWritten_toJson, trivial⟩, trivial⟩
  | box x y z =>
    exact ⟨rfl, ⟨rfl, ⟨x.isWritten_toJson, y.isWritten_toJson, z.isWritten_toJson, trivial⟩,
      trivial⟩, trivial⟩
  | cone radius angle =>
    exact ⟨rfl, ⟨rfl, radius.isWritten_toJson, rfl, angle.isWritten_toJson, trivial⟩, trivial⟩

/-- A region is read back if it is finite. -/
theorem kept (shape : SearchShape) (room : Nat) :
    Kept (SearchShape.decoder (room + 3) shape.toJson) shape.isFinite shape := by
  cases shape with
  | sphere radius => exact (radius.kept (room + 1)).map SearchShape.sphere
  | box x y z => exact (x.kept room).bind ((y.kept room).bind ((z.kept room).before rfl))
  | cone radius angle =>
    exact (radius.kept (room + 1)).bind ((angle.kept (room + 1)).before rfl)

end SearchShape

namespace TaskDef

/-- A task has no constant that is not finite. -/
def isFinite : TaskDef → Bool
  | .searchTargets shape .. => shape.isFinite
  | _ => true

/-- A task can be written. -/
theorem isWritten (task : TaskDef) : task.toJson.IsWritten := by
  cases task with
  | searchTargets shape requireTags excludeTags maxCount excludeCaster =>
    refine ⟨rfl, ⟨rfl, shape.isWritten, rfl, requireTags.isWritten, rfl, excludeTags.isWritten,
      rfl, ?_, rfl, trivial, trivial⟩, trivial⟩
    cases maxCount with
    | none => trivial
    | some count => exact Json.isWritten_nat _
  | setContextValue => exact ⟨rfl, ⟨rfl, rfl, rfl, rfl, trivial⟩, trivial⟩
  | removeEffectsWithTags tags | addLooseTags tags | removeLooseTags tags =>
    exact ⟨rfl, ⟨rfl, tags.isWritten, trivial⟩, trivial⟩
  | captureSnapshot => rfl

/-- A task is read back if it is finite. -/
theorem kept (task : TaskDef) (room : Nat) :
    Kept (TaskDef.decoder (room + 5) task.toJson) task.isFinite task.unread := by
  cases task with
  | searchTargets shape requireTags excludeTags maxCount excludeCaster =>
    have required := requireTags.decoder_toJson (room + 2)
    have excluded := excludeTags.decoder_toJson (room + 2)
    refine (shape.kept room).before (Option.bind_eq_some_iff.2 ⟨_, required,
      Option.bind_eq_some_iff.2 ⟨_, excluded, Option.bind_eq_some_iff.2 ⟨maxCount, ?_, rfl⟩⟩⟩)
    cases maxCount with
    | none => rfl
    | some count => exact congrArg (Option.map some) (Json.uint64_nat count (room + 3))
  | setContextValue key formula => exact .of_some rfl
  | removeEffectsWithTags tags =>
    exact .of_some (congrArg (Option.map removeEffectsWithTags) (tags.decoder_toJson (room + 2)))
  | addLooseTags tags =>
    exact .of_some (congrArg (Option.map addLooseTags) (tags.decoder_toJson (room + 2)))
  | removeLooseTags tags =>
    exact .of_some (congrArg (Option.map removeLooseTags) (tags.decoder_toJson (room + 2)))
  | captureSnapshot => exact .of_some rfl

/-- A task that was decoded has a formula that has not been read yet. -/
theorem unread_of_decoded {room : Nat} {json : Json} {task : TaskDef}
    (read : TaskDef.decoder room json = some task) : task.unread = task := by
  unfold TaskDef.decoder at read
  split at read
  · unfold searchDecoder at read
    split at read
    · obtain ⟨_, _, read⟩ := Option.bind_eq_some_iff.1 read
      obtain ⟨_, _, read⟩ := Option.bind_eq_some_iff.1 read
      obtain ⟨_, _, read⟩ := Option.bind_eq_some_iff.1 read
      obtain ⟨_, _, read⟩ := Option.bind_eq_some_iff.1 read
      obtain ⟨_, _, made⟩ := Option.bind_eq_some_iff.1 read
      cases made
      rfl
    · cases read
  · split at read
    · obtain ⟨key, _, read⟩ := Option.bind_eq_some_iff.1 read
      obtain ⟨formula, found, made⟩ := Option.bind_eq_some_iff.1 read
      cases made
      obtain ⟨json, decoded⟩ := Json.exists_of_required found
      rw [unread, Formula.Source.unread_of_decoded decoded]
    · cases read
  · obtain ⟨_, _, rfl⟩ := Option.map_eq_some_iff.1 read
    rfl
  · obtain ⟨_, _, rfl⟩ := Option.map_eq_some_iff.1 read
    rfl
  · obtain ⟨_, _, rfl⟩ := Option.map_eq_some_iff.1 read
    rfl
  · obtain rfl := Json.eq_of_noPayload read
    rfl
  · cases read

end TaskDef

/-! ## Nodes and connections -/

namespace NodeKind

/-- Content has no constant that is not finite. -/
def isFinite : NodeKind → Bool
  | .effect definition => definition.isFinite
  | .task definition => definition.isFinite
  | .condition definition => definition.isFinite
  | .cue definition => definition.isFinite

/-- How deep a condition is, if content is one. -/
def depth : NodeKind → Nat
  | .condition definition => definition.depth
  | _ => 0

/-- Content can be written. -/
theorem isWritten (kind : NodeKind) : kind.toJson.IsWritten := by
  cases kind with
  | effect definition => exact ⟨rfl, definition.isWritten, trivial⟩
  | task definition => exact ⟨rfl, definition.isWritten, trivial⟩
  | condition definition => exact ⟨rfl, definition.isWritten, trivial⟩
  | cue definition => exact ⟨rfl, definition.isWritten, trivial⟩

/-- Content is read back if it is finite and a condition is not too deep. -/
theorem kept {kind : NodeKind} (ordered : kind.Ordered) {room : Nat}
    (deep : kind.depth ≤ room + 5) :
    Kept (NodeKind.decoder (room + 6) kind.toJson) kind.isFinite kind.unread := by
  cases kind with
  | effect definition => exact (definition.kept (room + 1)).map NodeKind.effect
  | task definition => exact (definition.kept room).map NodeKind.task
  | condition definition => exact (definition.kept _ deep).map NodeKind.condition
  | cue definition => exact (CueDef.kept ordered (room + 3)).map NodeKind.cue

/-- Content as it comes out of a document: formulas have not been read yet, parameters are in order
of their names, and a condition is no deeper than there was room for. -/
structure Fresh (kind : NodeKind) (room : Nat) : Prop where
  /-- Formulas have not been read yet. -/
  unread : kind.unread = kind
  /-- Parameters are in order of their names. -/
  ordered : kind.Ordered
  /-- A condition is not too deep. -/
  shallow : kind.depth < room

/-- Content that was decoded is as it comes out of a document. -/
theorem fresh_of_decoded {room : Nat} {json : Json} {kind : NodeKind}
    (read : NodeKind.decoder room json = some kind) : kind.Fresh room := by
  unfold NodeKind.decoder at read
  split at read
  · next payload inner variant =>
    obtain ⟨definition, found, rfl⟩ := Option.map_eq_some_iff.1 read
    obtain rfl := Json.room_of_variant variant
    exact ⟨congrArg effect (EffectDef.unread_of_decoded found), trivial, Nat.succ_pos _⟩
  · next payload inner variant =>
    obtain ⟨definition, found, rfl⟩ := Option.map_eq_some_iff.1 read
    obtain rfl := Json.room_of_variant variant
    exact ⟨congrArg task (TaskDef.unread_of_decoded found), trivial, Nat.succ_pos _⟩
  · next payload inner variant =>
    obtain ⟨definition, found, rfl⟩ := Option.map_eq_some_iff.1 read
    obtain rfl := Json.room_of_variant variant
    exact ⟨rfl, trivial, Nat.lt_succ_of_le (ConditionDef.depth_le found)⟩
  · next payload inner variant =>
    obtain ⟨definition, found, rfl⟩ := Option.map_eq_some_iff.1 read
    obtain rfl := Json.room_of_variant variant
    exact ⟨rfl, CueDef.ascending_of_decoder found, Nat.succ_pos _⟩
  · cases read

end NodeKind

namespace Node

/-- A node has no constant that is not finite. -/
def isFinite (node : Node) : Bool :=
  node.kind.isFinite && (node.position.1.isFinite && node.position.2.isFinite)

/-- A node can be written. -/
theorem isWritten (node : Node) : node.toJson.IsWritten :=
  ⟨rfl, Json.isWritten_nat _, rfl, node.kind.isWritten, rfl,
    ⟨node.position.1.isWritten_toJson, node.position.2.isWritten_toJson, trivial⟩, rfl, rfl,
    trivial⟩

/-- A node is read back if it is finite and its condition is not too deep. -/
theorem kept {node : Node} (ordered : node.kind.Ordered) {room : Nat}
    (deep : node.kind.depth ≤ room + 5) :
    Kept (Node.decoder (room + 7) node.toJson) node.isFinite node.unread := by
  have slots : Json.recordSlots ["id", "kind", "position", "target"] (room + 7) node.toJson =
      some (room + 6, [_, _, _, _]) :=
    recordSlots_record rfl (by decide)
  have id := node.id.decoder_toJson (room + 6)
  have kind := NodeKind.kept ordered deep
  have position : Kept (positionDecoder (room + 6)
      (.array [node.position.1.toJson, node.position.2.toJson]))
      (node.position.1.isFinite && node.position.2.isFinite) node.position :=
    (node.position.1.kept (room + 5)).bind ((node.position.2.kept (room + 5)).before rfl)
  have target := Json.decoder_names TargetSelector.names node.target
    (by cases node.target <;> rfl) (room + 6)
  rw [Node.decoder, slots]
  exact .after id (kind.bind (position.before (Option.bind_eq_some_iff.2 ⟨_, target, rfl⟩)))

/-- The content of a node that was decoded is as it comes out of a document. -/
theorem fresh_of_decoded {room : Nat} {json : Json} {node : Node}
    (read : Node.decoder (room + 1) json = some node) : node.kind.Fresh room := by
  unfold Node.decoder at read
  split at read
  · next slots =>
    obtain ⟨id, _, read⟩ := Option.bind_eq_some_iff.1 read
    obtain ⟨kind, found, read⟩ := Option.bind_eq_some_iff.1 read
    obtain ⟨position, _, read⟩ := Option.bind_eq_some_iff.1 read
    obtain ⟨target, _, made⟩ := Option.bind_eq_some_iff.1 read
    cases made
    obtain ⟨json, decoded⟩ := Json.exists_of_required found
    cases Json.room_of_recordSlots slots
    exact NodeKind.fresh_of_decoded decoded
  · cases read

end Node

/-- A connection can be written. -/
theorem Connection.isWritten (connection : Connection) : connection.toJson.IsWritten :=
  ⟨rfl, Json.isWritten_nat _, rfl, rfl, rfl, Json.isWritten_nat _, rfl, rfl, trivial⟩

/-- A connection is read back. -/
theorem Connection.decoder_toJson (connection : Connection) (room : Nat) :
    Connection.decoder (room + 1) connection.toJson = some connection := by
  have slots : Json.recordSlots ["from", "from_port", "to", "to_port"] (room + 1)
      connection.toJson = some (room, [_, _, _, _]) :=
    recordSlots_record rfl (by decide)
  have source := connection.source.decoder_toJson room
  have target := connection.target.decoder_toJson room
  rw [Connection.decoder, slots]
  simp only [required, withDefault, source, target]
  rfl

/-! ## Skills -/

namespace SkillGraph

/-- A graph has no constant that is not finite. -/
def isFinite (graph : SkillGraph) : Bool := graph.nodes.all Node.isFinite

/-- A graph that can be read back from its document: parameters are in order of their names, and no
condition is deeper than a document may be. -/
structure Portable (graph : SkillGraph) : Prop where
  /-- Parameters are in order of their names. -/
  ordered : ∀ node ∈ graph.nodes, node.kind.Ordered
  /-- No condition is too deep. -/
  shallow : ∀ node ∈ graph.nodes, node.kind.depth ≤ 123

/-- A graph is read back from its document if it is finite. -/
theorem Portable.kept {graph : SkillGraph} (portable : graph.Portable) :
    Kept (SkillGraph.decoder Json.documentRoom graph.toJson) graph.isFinite graph.unread := by
  have slots : Json.recordSlots ["id", "name", "nodes", "connections"] Json.documentRoom
      graph.toJson = some (126, [_, _, _, _]) :=
    recordSlots_record rfl (by decide)
  have id := graph.id.decoder_toJson 126
  have nodes : Kept (Json.Decoder.list Node.decoder 126 (.array (graph.nodes.map Node.toJson)))
      (graph.nodes.all Node.isFinite) (graph.nodes.map Node.unread) :=
    Json.kept_list fun node member =>
      Node.kept (portable.ordered node member) (portable.shallow node member)
  have connections : Json.Decoder.list Connection.decoder 126
      (.array (graph.connections.map Connection.toJson)) = some graph.connections :=
    Json.list_map graph.connections fun connection _ => connection.decoder_toJson 124
  rw [SkillGraph.decoder, slots]
  exact .after id (.after rfl (nodes.before (Option.bind_eq_some_iff.2 ⟨_, connections, rfl⟩)))

/-- A graph that was decoded can be read back, and has formulas that have not been read yet. -/
theorem portable_of_decoded {json : Json} {graph : SkillGraph}
    (read : SkillGraph.decoder Json.documentRoom json = some graph) :
    graph.Portable ∧ graph.unread = graph := by
  unfold SkillGraph.decoder at read
  split at read
  · next slots =>
    obtain ⟨id, _, read⟩ := Option.bind_eq_some_iff.1 read
    obtain ⟨name, _, read⟩ := Option.bind_eq_some_iff.1 read
    obtain ⟨nodes, found, read⟩ := Option.bind_eq_some_iff.1 read
    obtain ⟨connections, _, made⟩ := Option.bind_eq_some_iff.1 read
    cases made
    obtain ⟨json, decoded⟩ := Json.exists_of_required found
    cases Json.room_of_recordSlots slots
    have fresh : ∀ node ∈ nodes, node.kind.Fresh 124 := by
      intro node member
      obtain ⟨inner, item, same, present⟩ := Json.exists_of_list decoded member
      obtain rfl : inner = 125 := by omega
      exact Node.fresh_of_decoded present
    have unread : nodes.map Node.unread = nodes := by
      refine (List.map_congr_left fun node member => ?_).trans (List.map_id _)
      rw [Node.unread, (fresh node member).unread]
      rfl
    refine ⟨⟨fun node member => (fresh node member).ordered, fun node member => ?_⟩, ?_⟩
    · exact Nat.le_of_lt_succ (fresh node member).shallow
    · rw [SkillGraph.unread, unread]
  · cases read

/-- A graph can be written. -/
theorem isWritten (graph : SkillGraph) : graph.toJson.IsWritten := by
  have nodes := Json.eachWritten_map fun node (_ : node ∈ graph.nodes) => node.isWritten
  have connections := Json.eachWritten_map fun connection (_ : connection ∈ graph.connections) =>
    connection.isWritten
  exact ⟨rfl, Json.isWritten_nat _, rfl, rfl, rfl, nodes, rfl, connections, trivial⟩

/-- What is loaded from the text of a portable graph: the graph with formulas yet to be read if it
is finite, unless it is not valid. -/
theorem Portable.ofJsonText_toJsonText {graph : SkillGraph} (portable : graph.Portable) :
    ofJsonText graph.toJsonText =
      if graph.isFinite then graph.unread.checked else .error .json := by
  have parsed : Json.parse graph.toJsonText = some graph.toJson :=
    Json.parse_pretty graph.isWritten
  have kept := portable.kept
  rw [Kept] at kept
  rw [ofJsonText, parsed]
  dsimp only
  rw [ofJson, kept]
  cases graph.isFinite <;> rfl

/-- A graph that was loaded from a text was decoded from its document and found valid. -/
theorem exists_of_ofJsonText {text : String} {graph : SkillGraph}
    (imported : ofJsonText text = .ok graph) :
    graph.checked = .ok graph ∧
      ∃ json, SkillGraph.decoder Json.documentRoom json = some graph := by
  unfold ofJsonText at imported
  split at imported
  · next json parsed =>
    unfold ofJson at imported
    split at imported
    · next decoded read =>
      have valid := imported
      unfold checked at imported
      split at imported
      · cases imported
        exact ⟨valid, json, read⟩
      · cases imported
    · cases imported
  · cases imported

/-- A skill that was read from a text is written as a text, and from that text comes the same skill,
bit for bit, if every constant of it is finite. If one is not, no skill is read from the text. -/
theorem exported_skills_return {text : String} {graph : SkillGraph}
    (imported : ofJsonText text = .ok graph) :
    ofJsonText graph.toJsonText = if graph.isFinite then .ok graph else .error .json := by
  obtain ⟨valid, json, read⟩ := exists_of_ofJsonText imported
  obtain ⟨portable, unread⟩ := portable_of_decoded read
  rw [portable.ofJsonText_toJsonText, unread, valid]

/-- A text that was found to have finite constants, or not to have, has been loaded. -/
theorem exists_loaded {text : String} {finite : Bool}
    (checked : (ofJsonText text).toOption.map isFinite = some finite) :
    ∃ graph, ofJsonText text = .ok graph ∧ graph.isFinite = finite := by
  obtain ⟨graph, found, same⟩ := Option.map_eq_some_iff.1 checked
  refine ⟨graph, ?_, same⟩
  generalize ofJsonText text = loaded at found
  cases loaded with
  | error fault => cases found
  | ok other => rw [Option.some.inj found]

/-- A skill as an author may write it: records as arrays or with fields left out, a repeated tag,
and constants that no float is exactly. -/
def kindling : String :=
  "\x7b\"id\": 7, \"nodes\": [[1, \x7b\"Effect\": \x7b\"duration\": \x7b\"Fixed\": 0.1\x7d, " ++
  "\"tags\": \x7b\"asset\": [\"Fire\", \"Fire\"]\x7d\x7d\x7d], \x7b\"id\": 2, \"kind\": " ++
  "\x7b\"Condition\": \x7b\"Chance\": 33e-2\x7d\x7d\x7d], " ++
  "\"connections\": [[1, \"complete\", 2]]\x7d"

/-- The skill is loaded with finite constants. -/
theorem isFinite_kindling : (ofJsonText kindling).toOption.map isFinite = some true := by
  decide +kernel

/-- The skill is loaded, all its constants are finite, and its text is read as the same skill. -/
theorem kindling_returns : ∃ graph, ofJsonText kindling = .ok graph ∧ graph.isFinite = true ∧
    ofJsonText graph.toJsonText = .ok graph := by
  obtain ⟨graph, imported, finite⟩ := exists_loaded isFinite_kindling
  have back := exported_skills_return imported
  rw [finite, if_pos rfl] at back
  exact ⟨graph, imported, finite, back⟩

/-- A skill with a duration above the largest finite float. -/
def endless : String :=
  "\x7b\"id\": 1, \"nodes\": [\x7b\"id\": 1, \"kind\": \x7b\"Effect\": \x7b\"name\": \"Curse\", " ++
  "\"duration_type\": \"Duration\", \"duration\": \x7b\"Fixed\": 1e39\x7d\x7d\x7d\x7d]\x7d"

/-- The skill is loaded with a constant that is not finite. -/
theorem isFinite_endless : (ofJsonText endless).toOption.map isFinite = some false := by
  decide +kernel

/-- The skill is loaded, and its text is read as none. -/
theorem endless_lost : ∃ graph, ofJsonText endless = .ok graph ∧
    ofJsonText graph.toJsonText = .error .json := by
  obtain ⟨graph, imported, infinite⟩ := exists_loaded isFinite_endless
  obtain ⟨_, json, read⟩ := exists_of_ofJsonText imported
  refine ⟨graph, imported, ?_⟩
  rw [(portable_of_decoded read).1.ofJsonText_toJsonText, infinite]
  rfl

end SkillGraph

end SkillEngine
