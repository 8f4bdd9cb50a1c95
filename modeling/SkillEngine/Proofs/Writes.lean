import SkillEngine.Proofs.Applications

/-!
# Instant effects

An instant effect is written modifier by modifier, each write reading what the ones before have
left. Its magnitudes are all resolved before the first write, though, and a write reads and changes
one attribute only. So the writes are one batch: each attribute receives its own modifiers in the
order of the definition, as if the others were not there, and a modifier of an attribute that is
missing is passed over. `instant_effects_write_in_batch` says so of attributes that are committed
and ask no hooks, and that in a session what is so when the effect is applied still is when it is
written.
-/

namespace SkillEngine

/-! ## Attributes -/

namespace Attribute

/-- The committed value is not stale, and writes ask no hooks. -/
structure Plain (attr : Attribute) : Prop where
  /-- Not stale. -/
  fresh : attr.dirty = false
  /-- No hooks. -/
  unasked : attr.hooks.listeners = []

instance (attr : Attribute) : Decidable attr.Plain :=
  decidable_of_iff (attr.dirty = false ∧ attr.hooks.listeners.isEmpty = true)
    ⟨fun holds => ⟨holds.1, List.isEmpty_iff.1 holds.2⟩,
      fun plain => ⟨plain.fresh, List.isEmpty_iff.2 plain.unasked⟩⟩

/-- A value after some operations in turn, clamped after each. -/
def fold (attr : Attribute) (value : Float32) (writes : List (ModifierOp × Float32)) : Float32 :=
  writes.foldl (fun value write => attr.clamp (write.1.applyTo value write.2)) value

/-- The attribute after some writes: a channel has its current value folded, any other attribute its
base value, from which its current value is computed; and without writes it stays as it is. -/
def receive (attr : Attribute) (writes : List (ModifierOp × Float32)) : Attribute :=
  if writes.isEmpty then attr
  else if attr.isMeta then { attr with current := attr.fold attr.current writes }
  else
    let written := { attr with base := attr.fold attr.base writes }
    { written with current := written.computed }

variable {attr : Attribute}

/-- A plain attribute stays plain. -/
theorem Plain.receive (plain : attr.Plain) (writes : List (ModifierOp × Float32)) :
    (attr.receive writes).Plain := by
  unfold Attribute.receive
  split
  · exact plain
  · split
    · exact ⟨plain.fresh, plain.unasked⟩
    · exact ⟨plain.fresh, plain.unasked⟩

/-- Without writes an attribute stays as it is. -/
theorem receive_nil (attr : Attribute) : attr.receive [] = attr := rfl

/-- Some writes and then some more. -/
theorem receive_append (attr : Attribute) (first second : List (ModifierOp × Float32)) :
    attr.receive (first ++ second) = (attr.receive first).receive second := by
  cases first with
  | nil => rfl
  | cons write first =>
    cases second with
    | nil => rw [List.append_nil, receive_nil]
    | cons next second =>
      cases channel : attr.isMeta <;> simp [receive, fold, channel, clamp, computed]

/-- Writing the current value of a plain channel. -/
theorem Plain.setCurrent (plain : attr.Plain) (channel : attr.isMeta = true) (op : ModifierOp)
    (magnitude : Float32) :
    (attr.setCurrent (op.applyTo attr.currentValue magnitude)).2.1 =
      attr.receive [(op, magnitude)] := by
  have value : attr.currentValue = attr.current := by simp [currentValue, plain.fresh]
  rw [value]
  simp [Attribute.setCurrent, plain.unasked, consult, Attribute.receive, channel, fold]

/-- Writing the base value of any other plain attribute. -/
theorem Plain.setBase (plain : attr.Plain) (lasting : attr.isMeta = false) (op : ModifierOp)
    (magnitude : Float32) :
    (attr.setBase (op.applyTo attr.base magnitude)).2.1 = attr.receive [(op, magnitude)] := by
  simp [Attribute.setBase, plain.unasked, consult, recalculate, Attribute.receive, lasting, fold,
    plain.fresh]

end Attribute

/-! ## Sheets -/

namespace AttributeSheet

/-- No attribute is stale, and no write asks hooks. -/
def Plain (sheet : AttributeSheet) : Prop := ∀ id attr, sheet.get? id = some attr → attr.Plain

instance (sheet : AttributeSheet) : Decidable sheet.Plain :=
  decidable_of_iff (∀ id ∈ sheet.attributes.keys, ∀ attr ∈ sheet.get? id, attr.Plain)
    ⟨fun holds id attr found =>
      holds id ((Dict.mem_keys_iff _ _).2 (Option.isSome_of_eq_some found)) attr found,
      fun plain id _ attr found => plain id attr found⟩

/-- Every attribute of one sheet has received its own writes in another. -/
def Receives (before after : AttributeSheet) (writes : AttributeId → List (ModifierOp × Float32)) :
    Prop :=
  ∀ id, after.get? id = (before.get? id).map (·.receive (writes id))

variable {sheet first second third : AttributeSheet} {id : AttributeId} {attr : Attribute}
  {writes more : AttributeId → List (ModifierOp × Float32)}

/-- A plain sheet stays plain. -/
theorem Receives.plain (receives : first.Receives second writes) (plain : first.Plain) :
    second.Plain := by
  intro id attr found
  rw [receives id] at found
  obtain ⟨earlier, stored, rfl⟩ := Option.map_eq_some_iff.1 found
  exact (plain id earlier stored).receive _

/-- Some writes and then some more. -/
theorem Receives.append (earlier : first.Receives second writes)
    (later : second.Receives third more) :
    first.Receives third fun id => writes id ++ more id := by
  intro id
  rw [later id, earlier id, Option.map_map]
  refine Option.map_congr fun attr _ => ?_
  exact (attr.receive_append (writes id) (more id)).symm

/-- Nothing is received where nothing is written or the attribute is missing. -/
theorem receives_self (idle : ∀ id, writes id = [] ∨ sheet.get? id = none) :
    sheet.Receives sheet writes := by
  intro id
  rcases idle id with unwritten | missing
  · rw [unwritten]
    exact Option.map_id'.symm
  · rw [missing]
    rfl

/-- One attribute receives a write. -/
theorem receives_replace (stored : sheet.get? id = some attr) (write : ModifierOp × Float32) :
    sheet.Receives (sheet.replace id (attr.receive [write]))
      fun other => if id = other then [write] else [] := by
  intro other
  rw [get?_replace]
  by_cases same : id = other
  · subst same
    simp only [if_true, stored, Option.map_some]
  · simp only [if_neg (Ne.symm same), if_neg same]
    exact Option.map_id'.symm

/-! ### Hooks -/

/-- Every attribute of one sheet has in another the hooks that it had. -/
def KeepsHooks (before after : AttributeSheet) : Prop :=
  ∀ id, (after.get? id).map (·.hooks) = (before.get? id).map (·.hooks)

/-- One change after another. -/
theorem KeepsHooks.trans (earlier : first.KeepsHooks second) (later : second.KeepsHooks third) :
    first.KeepsHooks third :=
  fun id => (later id).trans (earlier id)

/-- A sheet is plain when nothing is stale and its attributes have the hooks that those of a plain
one had. -/
theorem KeepsHooks.plain (keeps : first.KeepsHooks second) (plain : first.Plain)
    (fresh : second.Fresh) : second.Plain := by
  intro id attr found
  have kept := keeps id
  rw [found] at kept
  obtain ⟨earlier, stored, same⟩ := Option.map_eq_some_iff.1 kept.symm
  have same : earlier.hooks = attr.hooks := same
  exact ⟨fresh id attr found, same ▸ (plain id earlier stored).unasked⟩

/-- Changing every attribute and none of its hooks. -/
theorem keepsHooks_mapEach (change : Attribute → Attribute)
    (keeps : ∀ attr, (change attr).hooks = attr.hooks) (sheet : AttributeSheet) :
    sheet.KeepsHooks (sheet.mapEach change) := by
  intro id
  rw [get?_mapEach, Option.map_map]
  exact Option.map_congr fun attr _ => keeps attr

/-- Committing. -/
theorem keepsHooks_recalculateDirty (sheet : AttributeSheet) :
    sheet.KeepsHooks sheet.recalculateDirty.1 := by
  refine keepsHooks_mapEach _ (fun attr => ?_) sheet
  split <;> rfl

/-- Telling modifiers their stack count. -/
theorem keepsHooks_spreadAll (source : SourceId) (stackCount : Nat) (sheet : AttributeSheet) :
    sheet.KeepsHooks (Entity.spreadAll source stackCount sheet).1 :=
  (keepsHooks_mapEach (·.setStacks source stackCount) (fun _ => rfl) sheet).trans
    (keepsHooks_recalculateDirty _)

/-- Detaching modifiers. -/
theorem keepsHooks_detachAll (source : SourceId) (sheet : AttributeSheet) :
    sheet.KeepsHooks (Entity.detachAll source sheet).1 :=
  (keepsHooks_mapEach (·.detach source |>.2) (fun _ => rfl) sheet).trans
    (keepsHooks_recalculateDirty _)

/-- Attaching a modifier. -/
theorem keepsHooks_attach (sheet : AttributeSheet) (id : AttributeId)
    (active : ActiveModifier Float32) : sheet.KeepsHooks (sheet.attach id active) := by
  intro other
  rw [get?_attach]
  split
  · rw [Option.map_map]
    rfl
  · rfl

/-- Attaching modifiers. -/
theorem keepsHooks_attachAll (modifiers : List (AttributeId × ActiveModifier Float32))
    (sheet : AttributeSheet) : sheet.KeepsHooks (Entity.attachAll modifiers sheet).1 := by
  refine KeepsHooks.trans ?_ (keepsHooks_recalculateDirty _)
  induction modifiers generalizing sheet with
  | nil => exact fun _ => rfl
  | cons entry rest ih => exact (keepsHooks_attach sheet entry.1 entry.2).trans (ih _)

/-- Replacing a magnitude. -/
theorem keepsHooks_setMagnitude (sheet : AttributeSheet) (id : AttributeId) (source : SourceId)
    (slot : Nat) (magnitude : Float32) :
    sheet.KeepsHooks (sheet.setMagnitude id source slot magnitude) := by
  intro other
  rw [get?_setMagnitude]
  split
  · rw [Option.map_map]
    rfl
  · rfl

end AttributeSheet

/-- Renewing magnitudes. -/
theorem Entity.keepsHooks_tracking (entity : Entity) (key : EffectId)
    (updates : List (Nat × AttributeId × Float32)) :
    entity.attributes.KeepsHooks (entity.tracking key updates).attributes := by
  induction updates generalizing entity with
  | nil => exact fun _ => rfl
  | cons update rest ih =>
    obtain ⟨slot, attr, magnitude⟩ := update
    exact (AttributeSheet.keepsHooks_setMagnitude _ attr key.source slot magnitude).trans
      (ih (renew key entity (slot, attr, magnitude)))

/-! ## Worlds -/

/-- The writes to an attribute among some modifiers with their magnitudes. -/
def ownWrites (writes : List (Modifier × Float32)) (id : AttributeId) :
    List (ModifierOp × Float32) :=
  (writes.filter fun write => write.1.attr = id).map fun write => (write.1.op, write.2)

namespace World

/-- The writes of an application to an attribute of a target: its modifiers of that attribute in the
order of the definition, with their magnitudes in a world. -/
def writesTo (world : World) (application : Application) (target : EntityId) (id : AttributeId) :
    List (ModifierOp × Float32) :=
  (application.definition.modifiers.filter (·.attr = id)).map fun modifier =>
    (modifier.op, world.resolve modifier.magnitude (.of application.context target 1))

/-- One world is another in which the attributes of an entity have received their own writes. -/
structure Receives (before after : World) (target : EntityId) (holder : Entity)
    (writes : AttributeId → List (ModifierOp × Float32)) : Prop where
  /-- Nothing but the one entity differs. -/
  apart : ∃ change, after = before.modify target change
  /-- It differs in its attributes only. -/
  received : ∃ sheet, after.entity? target = some { holder with attributes := sheet } ∧
    holder.attributes.Receives sheet writes

variable {world : World} {target : EntityId} {holder : Entity}
  {writes : AttributeId → List (ModifierOp × Float32)}

/-- An entity is changed twice. -/
theorem modify_modify (world : World) (id : EntityId) (earlier later : Entity → Entity) :
    (world.modify id earlier).modify id later = world.modify id (later ∘ earlier) := by
  unfold modify withRegistry Registry.modify
  exact congrArg (fun entities => { world with
    scene := { world.scene with registry := { world.registry with entities } } })
    (Dict.modify_modify world.registry.entities id earlier later)

/-- An entity is changed into itself. -/
theorem modify_same (world : World) (id : EntityId) :
    (world.modify id fun entity => entity) = world := by
  unfold modify withRegistry Registry.modify
  rw [Dict.modify_same]
  rfl

/-- Nothing is received where nothing is written or the attribute is missing. -/
theorem receives_self (registered : world.entity? target = some holder)
    (idle : ∀ id, writes id = [] ∨ holder.attributes.get? id = none) :
    world.Receives world target holder writes :=
  ⟨⟨_, (world.modify_same target).symm⟩, _, registered, AttributeSheet.receives_self idle⟩

/-- A sheet receives writes. -/
theorem receives_changeSheet (registered : world.entity? target = some holder)
    {change : AttributeSheet → AttributeSheet × List AttributeSignal}
    (received : holder.attributes.Receives (change holder.attributes).1 writes) :
    world.Receives (world.changeSheet target change).1 target holder writes := by
  have changed := (alters_changeSheet world target change).self registered
  refine ⟨⟨fun entity => { entity with attributes := (change holder.attributes).1 }, ?_⟩, _,
    changed, received⟩
  simp only [changeSheet, registered]

/-- Writing one modifier. -/
theorem receives_writeOne (registered : world.entity? target = some holder)
    (plain : holder.attributes.Plain) (context : Context) (modifier : Modifier)
    (magnitude : Float32) :
    world.Receives (world.writeOne context target modifier magnitude).2.1 target holder
      (ownWrites [(modifier, magnitude)]) := by
  have own : ownWrites [(modifier, magnitude)] =
      fun other => if modifier.attr = other then [(modifier.op, magnitude)] else [] := by
    funext other
    by_cases same : modifier.attr = other <;> simp [ownWrites, same]
  rw [own]
  unfold writeOne
  rw [registered, Option.bind_some]
  cases stored : holder.attributes.get? modifier.attr with
  | none =>
    refine receives_self registered fun other => ?_
    by_cases same : modifier.attr = other
    · exact .inr (same ▸ stored)
    · exact .inl (if_neg same)
  | some attr =>
    have is := plain _ attr stored
    dsimp only
    split
    · next channel =>
      refine receives_changeSheet registered ?_
      simp only [AttributeSheet.setCurrent, stored, is.setCurrent channel]
      exact AttributeSheet.receives_replace stored _
    · next lasting =>
      refine receives_changeSheet registered ?_
      simp only [AttributeSheet.setBase, stored, is.setBase (Bool.eq_false_iff.2 lasting)]
      exact AttributeSheet.receives_replace stored _

/-- Writing some modifiers in turn: each attribute receives its own writes. -/
theorem receives_writeEach (registered : world.entity? target = some holder)
    (plain : holder.attributes.Plain) (context : Context) (writes : List (Modifier × Float32)) :
    world.Receives (world.writeEach context target writes).2.1 target holder
      (ownWrites writes) := by
  induction writes generalizing world holder context with
  | nil => exact receives_self registered fun _ => .inl rfl
  | cons write rest ih =>
    obtain ⟨modifier, magnitude⟩ := write
    obtain ⟨⟨change, written⟩, sheet, changed, received⟩ :=
      receives_writeOne registered plain context modifier magnitude
    -- What is left is written to a sheet that is plain still.
    obtain ⟨⟨later, onward⟩, last, reached, others⟩ :=
      ih changed (received.plain plain) (world.writeOne context target modifier magnitude).1
    have own (id : AttributeId) : ownWrites ((modifier, magnitude) :: rest) id =
        ownWrites [(modifier, magnitude)] id ++ ownWrites rest id := by
      rw [ownWrites, ← List.singleton_append, List.filter_append, List.map_append]
      rfl
    refine ⟨⟨later ∘ change, ?_⟩, last, reached, fun id => ?_⟩
    · rw [← modify_modify, ← written]
      exact onward
    · rw [own]
      exact (received.append others) id

/-- Writing an instant effect: each attribute receives its own writes. -/
theorem receives_write (registered : world.entity? target = some holder)
    (plain : holder.attributes.Plain) (application : Application) :
    world.Receives (world.write application target).world target holder
      (world.writesTo application target) := by
  have own : ownWrites (application.definition.modifiers.zip
      (world.magnitudesOf application.definition application.context target)) =
      world.writesTo application target := by
    funext id
    rw [magnitudesOf, ← List.map_prod_left_eq_zip, ownWrites, List.filter_map, List.map_map]
    rfl
  rw [← own]
  exact receives_writeEach registered plain application.context _

/-- The attributes of an entity are plain, if it is registered. -/
def PlainAt (world : World) (target : EntityId) : Prop :=
  ∀ entity, world.entity? target = some entity → entity.attributes.Plain

variable {after : World} {frame : Frame} {id : EntityId}

/-- A deed that nodes set off leaves plain attributes plain. -/
theorem Deed.plain {change : Entity → Entity} (deed : world.Deed frame id change)
    (inner : frame.isInner = true)
    (unwritten : ∀ application target, frame ≠ .write application target)
    {entity : Entity} (plain : entity.attributes.Plain) : (change entity).attributes.Plain := by
  cases deed with
  | still => exact plain
  | touch _ _ _ ticked =>
    rcases ticked with ⟨rfl, _⟩ | ⟨seconds, rfl⟩
    · exact plain
    · cases inner
  | @restack _ handle _ touched updates =>
    have touching :
        entity.attributes.KeepsHooks (entity.touching handle.id touched updates).attributes :=
      Entity.keepsHooks_tracking (entity.onEffects _) handle.id updates
    exact (touching.trans (AttributeSheet.keepsHooks_spreadAll _ _ _)).plain plain
      (AttributeSheet.fresh_recalculateDirty _)
  | release =>
    exact (AttributeSheet.keepsHooks_detachAll _ _).plain plain
      (AttributeSheet.fresh_recalculateDirty _)
  | begin | finish | sheet => cases inner
  | write => exact absurd rfl (unwritten _ _)

/-- A frame that nodes set off leaves the plain attributes of an entity plain. -/
theorem plainAt_expand (reply : Reply) (sound : world.Sound)
    (admitted : frame.Admitted fun request => request.isLawful = true)
    (inner : frame.isInner = true) (plain : world.PlainAt target) :
    (frame.expand world reply).world.PlainAt target := by
  by_cases written : ∃ application holder, frame = .write application holder
  · obtain ⟨application, holder, rfl⟩ := written
    obtain ⟨change, alters, _⟩ := alters_writeInstant world application holder
    intro entity found
    obtain ⟨earlier, stored, same⟩ := alters.origin found
    have was := plain earlier stored
    by_cases here : target = holder
    · subst here
      obtain ⟨_, sheet, reached, received⟩ := receives_write stored was application
      cases found.symm.trans reached
      exact received.plain was
    · rw [if_neg here] at same
      exact same ▸ was
  · have turn := turn_expand sound reply admitted
    generalize (frame.expand world reply).world = after at turn
    intro entity found
    cases turn with
    | quiet quiet =>
      exact plain entity ((congrArg (Registry.entity? · target) quiet.registry).symm.trans found)
    | drain => exact plain entity found
    | alter alters deed =>
      obtain ⟨earlier, stored, rfl⟩ := alters.origin found
      split
      · exact deed.plain inner (fun application holder same => written ⟨application, holder, same⟩)
          (plain earlier stored)
      · exact plain earlier stored
    | retag _ alters =>
      obtain ⟨earlier, stored, rfl⟩ := alters.origin found
      split <;> exact plain earlier stored
    | hold alters =>
      obtain ⟨earlier, stored, rfl⟩ := alters.origin found
      split
      · exact (AttributeSheet.keepsHooks_attachAll _ _).plain (plain earlier stored)
          (AttributeSheet.fresh_recalculateDirty _)
      · exact plain earlier stored
    | regroup _ enrols => cases (Frame.enrols_of_isInner inner).symm.trans enrols

/-- A target that lets an application in takes it at once: it is instant, or it is timed, stacks
onto nothing there and has no time. -/
def ActsAtOnce (world : World) (application : Application) (target : EntityId) (entity : Entity) :
    Prop :=
  application.definition.durationType = .instant ∨
    application.definition.durationType = .duration ∧
      entity.effects.findStackable? application.skill application.node application.definition
        application.context.caster = none ∧
      world.resolve application.definition.duration (.of application.context target 1) ≤ 0

/-- An application that is let in is written, after the cleansing, exactly if it acts at once. -/
theorem applyTo_eq_instantly_iff {application : Application} {entity : Entity}
    (registered : world.entity? target = some entity)
    (admitted : admits entity application.definition = true) :
    world.applyTo application target = { world, frames := instantly application target } ↔
      world.ActsAtOnce application target entity := by
  have ways := world.applying application target
  generalize world.applyTo application target = progress at ways ⊢
  cases ways with
  | refused shut => cases (shut entity registered).symm.trans admitted
  | written stored _ atOnce =>
    cases registered.symm.trans stored
    exact iff_of_true rfl atOnce
  | @stacked other key stored _ lasts matched =>
    cases registered.symm.trans stored
    refine iff_of_false (fun same => ?_) fun atOnce => ?_
    · obtain ⟨inner, frames, _⟩ := world.frames_stackOnto ⟨target, key⟩ application.context
      have last := congrArg (List.getLast? ∘ Progress.frames) same
      rw [Function.comp, frames, List.getLast?_append] at last
      cases last
    · rcases atOnce with instant | ⟨_, unmatched, _⟩
      · exact lasts instant
      · cases matched.symm.trans unmatched
  | held _ _ lasts _ timed =>
    refine iff_of_false (fun same => by cases same) fun atOnce => ?_
    rcases atOnce with instant | ⟨finite, _, timeless⟩
    · exact lasts instant
    · obtain ⟨time, rfl⟩ := timed finite
      exact time timeless

end World

/-- An application that is about to be written to a target is written in one batch. -/
structure Cascade.WritesBatch (cleansed : Cascade) (application : Application) (target : EntityId)
    (holder : Entity) (rest : List Frame) : Prop where
  /-- After the write its ports fire. -/
  fires : ∃ context, cleansed.step.agenda =
    .fire ⟨application.skill, application.node, "initial", context, none⟩ ::
      .fire ⟨application.skill, application.node, "complete", context, none⟩ ::
        .answer .nothing :: rest
  /-- Each attribute has received its own modifiers, with their magnitudes before the write. -/
  receives : cleansed.world.Receives cleansed.step.world target holder
    (cleansed.world.writesTo application target)
  /-- It does not matter how modifiers of different attributes are ordered. -/
  reordered : ∀ others : List Modifier,
    (∀ id, others.filter (·.attr = id) = application.definition.modifiers.filter (·.attr = id)) →
    ∀ id, ((cleansed.world.write { application with
        definition := { application.definition with modifiers := others } } target).world.entity?
          target).bind (·.attributes.get? id) =
      (cleansed.step.world.entity? target).bind (·.attributes.get? id)

/-- An application that is about to be written to plain attributes is written in one batch. -/
theorem Cascade.writesBatch {cleansed : Cascade} {application : Application} {target : EntityId}
    {holder : Entity} {rest : List Frame}
    (next : cleansed.agenda = .write application target :: .answer .nothing :: rest)
    (registered : cleansed.world.entity? target = some holder) (plain : holder.attributes.Plain) :
    cleansed.WritesBatch application target holder rest where
  fires := ⟨_, agenda_step next rfl⟩
  receives := by
    rw [world_step next]
    exact World.receives_write registered plain application
  reordered := by
    intro others same id
    obtain ⟨_, sheet, reached, received⟩ := World.receives_write registered plain application
    obtain ⟨_, other, arrived, gained⟩ := World.receives_write registered plain { application with
      definition := { application.definition with modifiers := others } }
    have writes : cleansed.world.writesTo { application with
        definition := { application.definition with modifiers := others } } target id =
        cleansed.world.writesTo application target id := by
      simp only [World.writesTo, same]
    have written : cleansed.step.world.entity? target = some { holder with attributes := sheet } :=
      (congrArg (·.entity? target) (world_step next)).trans reached
    rw [arrived, written, Option.bind_some, Option.bind_some, gained id, received id, writes]

/-- An application that is instant, or that has no time and stacks onto nothing, cleanses its target
and then is written: its magnitudes are those between the cleansing and the write, each attribute
receives its own modifiers in the order of the definition, and nothing else changes before the
initial port fires. In a session the target still is registered and its attributes still are plain
when the cleansing is over, unless a roll has no answer. -/
theorem instant_effects_write_in_batch {now : Cascade} {application : Application}
    {target : EntityId} {rest : List Frame} {entity : Entity}
    (next : now.agenda = .apply application target :: rest)
    (registered : now.world.entity? target = some entity)
    (admitted : World.admits entity application.definition = true)
    (atOnce : now.world.ActsAtOnce application target entity) :
    let behind := .write application target :: .answer .nothing :: rest
    now.step.world = now.world ∧
      now.step.agenda =
        .cleanse target application.definition.tags.removeEffectsWithTags :: behind ∧
      (∀ bound holder, now.step.Returns behind bound →
        (now.step.run bound).world.entity? target = some holder → holder.attributes.Plain →
          (now.step.run bound).WritesBatch application target holder rest) ∧
      ∀ start past, start.Calm → Session (fun request => request.isLawful = true) start past now →
        entity.attributes.Plain → (∃ bound, now.step.keeps bound = false) ∨
          ∃ bound holder, now.step.Returns behind bound ∧
            (now.step.run bound).world.entity? target = some holder ∧ holder.attributes.Plain := by
  intro behind
  have applies := (World.applyTo_eq_instantly_iff registered admitted).2 atOnce
  have kept : ((Frame.apply application target).expand now.world now.reply).lost = false := by
    simp [Frame.expand, applies]
  have same : now.step.world = now.world := by
    rw [Cascade.world_step next]
    simp [Frame.expand, applies]
  have agenda : now.step.agenda =
      .cleanse target application.definition.tags.removeEffectsWithTags :: behind := by
    rw [Cascade.agenda_step next kept]
    simp [Frame.expand, applies, World.instantly, behind]
  refine ⟨same, agenda, fun bound holder returns => ?_, fun start past calm session plain => ?_⟩
  · exact Cascade.writesBatch returns.back
  · have onward := session.stepped next kept
    refine (onward.cleanses calm agenda (same ▸ registered)).imp id ?_
    rintro ⟨bound, holder, returns, found⟩
    refine ⟨bound, holder, returns, found, ?_⟩
    have initially : now.step.world.PlainAt target := fun other stored => by
      rw [same, registered] at stored
      cases stored
      exact plain
    have still : (now.step.run bound).world.PlainAt target :=
      onward.holds_of_cleansed (·.PlainAt target) World.plainAt_expand calm agenda returns initially
    exact still holder found

/-- A lasting effect that adds to the shield. -/
def bulwark : EffectDef where
  durationType := .infinite
  modifiers := [{ attr := ⟨1⟩, op := .add, magnitude := .fixed (.ofValue 10) }]
  tags := { asset := .ofPaths ["Bulwark"] }

/-- An instant effect that removes it, and lets health and shield grow by each other. -/
def communion : EffectDef where
  modifiers := [{ attr := ⟨0⟩, op := .add, magnitude := .formula (.ofText "target.Shield") },
    { attr := ⟨2⟩, op := .add, magnitude := .fixed (.ofValue 5) },
    { attr := ⟨9⟩, op := .override, magnitude := .fixed .one },
    { attr := ⟨1⟩, op := .multiply, magnitude := .formula (.ofText "target.Health") },
    { attr := ⟨0⟩, op := .add, magnitude := .fixed (.ofValue 40) }]
  tags := { removeEffectsWithTags := .ofPaths ["Bulwark"] }

/-- A world with health up to a hundred, a shield and a channel for damage. -/
def chapel : World := World.create {} ⟨[
  { id := ⟨0⟩, name := "Health", defaultValue := .ofValue 50, max := some (.ofValue 100) },
  { id := ⟨1⟩, name := "Shield", defaultValue := .ofValue 20 },
  { id := ⟨2⟩, name := "Damage", defaultValue := .zero, isMeta := true }]⟩

/-- An entity receives the first effect. -/
def chapelRequests : List Request :=
  [.spawn ⟨1⟩, .apply ⟨1⟩ ⟨1⟩ bulwark ⟨1⟩ { caster := ⟨1⟩ }]

/-- The state in which it has received it. -/
def bolstered : Cascade := Cascade.afterEach 20 { world := chapel, agenda := [] } chapelRequests

/-- The second effect is applied to it. -/
def communionRequest : Request := .apply ⟨1⟩ ⟨2⟩ communion ⟨1⟩ { caster := ⟨1⟩ }

/-- The state in which that is next. -/
def communing : Cascade := (Cascade.ofRequest bolstered.world communionRequest).run 1

/-- Its application. -/
def communionApplied : Application :=
  ⟨⟨1⟩, ⟨2⟩, communion, bolstered.world.openContext { caster := ⟨1⟩ }⟩

/-- The bulwark is removed first, and then health grows by the shield and the shield by health, each
as it was before the other; health stops at its bound, and what is missing is passed over. -/
theorem communion_in_batch : chapel.Calm ∧
    ∃ past entity, Session (fun request => request.isLawful = true) chapel past communing ∧
      communing.agenda = [.apply communionApplied ⟨1⟩] ∧
      communing.world.entity? ⟨1⟩ = some entity ∧ World.admits entity communion = true ∧
      communing.world.ActsAtOnce communionApplied ⟨1⟩ entity ∧ entity.attributes.Plain ∧
      (∃ bound holder, communing.step.Returns
          [.write communionApplied ⟨1⟩, .answer .nothing] bound ∧
        (communing.step.run bound).world.entity? ⟨1⟩ = some holder ∧
        (communing.step.run bound).WritesBatch communionApplied ⟨1⟩ holder []) ∧
      ((communing.step.run 9).world.entity? ⟨1⟩).map (fun holder =>
        [holder.attributes.baseValue ⟨0⟩, holder.attributes.baseValue ⟨1⟩,
          holder.attributes.currentValue ⟨2⟩].map (·.toBits)) =
        some [(100 : Float32).toBits, (1000 : Float32).toBits, (5 : Float32).toBits] := by
  have calm : chapel.Calm := World.calm_create {} _
  have received : Session (fun request => request.isLawful = true) chapel _ bolstered :=
    .ofRequests 20 chapelRequests (by decide) (by decide +kernel)
  have asked : Session (fun request => request.isLawful = true) chapel _
      (.ofRequest _ communionRequest) := received.asked (List.isEmpty_iff.1 (by decide +kernel)) rfl
  have session : Session (fun request => request.isLawful = true) chapel _ communing :=
    asked.run 1 (by decide +kernel)
  have next : communing.agenda = [.apply communionApplied ⟨1⟩] := rfl
  have lets : (communing.world.entity? ⟨1⟩).any (fun entity =>
      World.admits entity communion && decide entity.attributes.Plain) = true := by decide +kernel
  obtain ⟨entity, registered, holds⟩ := (Option.any_eq_true _ _).1 lets
  obtain ⟨admitted, plain⟩ := Bool.and_eq_true_iff.1 holds
  have atOnce : communing.world.ActsAtOnce communionApplied ⟨1⟩ entity := .inl rfl
  obtain ⟨_, _, batch, ends⟩ := instant_effects_write_in_batch next registered admitted atOnce
  have kept : communing.step.keeps 20 = true := by decide +kernel
  have always (bound : Nat) : communing.step.keeps bound = true :=
    Cascade.keeps_of_isDone kept (by decide +kernel) bound
  have written := (ends chapel _ calm session (of_decide_eq_true plain)).resolve_left
    fun ⟨bound, lost⟩ => by cases (always bound).symm.trans lost
  obtain ⟨bound, holder, returns, found, still⟩ := written
  exact ⟨calm, _, entity, session, next, registered, admitted, atOnce, of_decide_eq_true plain,
    ⟨bound, holder, returns, found, batch bound holder returns found still⟩, by decide +kernel⟩

end SkillEngine
