import SkillEngine.Proofs.Attachment
import SkillEngine.Proofs.Session

/-!
# Effects and modifiers mirror each other

The modifiers of every attribute are exactly what the live effects of its entity attach to it, in
order. While an operation is under way the two sides may differ in what it is about to change, so
the comparison is made through a *view* of attachments: a view that is blind to a stack count does
not see that it has changed on one side, and a view that skips a source does not see the effect that
is about to end. Each step of an operation keeps what is shown under its view.
-/

namespace SkillEngine

/-- Different effects are different sources. -/
theorem EffectId.source_inj {first second : EffectId} (same : first.source = second.source) :
    first = second := by
  cases first
  cases second
  exact congrArg EffectId.mk (congrArg SourceId.raw same)

namespace Attachment

/-- The view that does not see the stack count of a source. -/
def ignoring (source : SourceId) (stackCount : Nat) (attachment : Attachment) : Option Attachment :=
  some (attachment.restacked source stackCount)

/-- The view that does not see a source. -/
def skipping (source : SourceId) (attachment : Attachment) : Option Attachment :=
  if attachment.source = source then none else some attachment

/-- Under the view a source may have any stack count. -/
def Blind (view : Attachment → Option Attachment) (source : SourceId) : Prop :=
  ∀ attachment : Attachment, attachment.source = source → ∀ stackCount,
    view { attachment with stackCount } = view attachment

/-- Under the view a replaced magnitude is seen as such. -/
def Faithful (view : Attachment → Option Attachment) : Prop :=
  ∀ source slot magnitude attachment,
    view (revalued source slot magnitude attachment) =
      (view attachment).map (revalued source slot magnitude)

/-- Ignoring a stack count is being blind to it. -/
theorem blind_ignoring (source : SourceId) (stackCount : Nat) :
    Blind (ignoring source stackCount) source := by
  intro attachment same count
  simp [ignoring, restacked, same]

/-- Skipping a source is being blind to its stack count. -/
theorem blind_skipping (source : SourceId) : Blind (skipping source) source := by
  intro attachment same count
  simp [skipping, same]

/-- Seeing everything is faithful. -/
theorem faithful_some : Faithful some := fun _ _ _ _ => rfl

/-- Ignoring a stack count is faithful. -/
theorem faithful_ignoring (source : SourceId) (stackCount : Nat) :
    Faithful (ignoring source stackCount) := by
  intro other slot magnitude attachment
  simp only [ignoring, restacked, revalued, Option.map_some]
  grind

/-- Skipping a source is faithful. -/
theorem faithful_skipping (source : SourceId) : Faithful (skipping source) := by
  intro other slot magnitude attachment
  have kept : (revalued other slot magnitude attachment).source = attachment.source := by
    unfold revalued
    split <;> rfl
  unfold skipping
  rw [kept]
  split <;> rfl

/-- What is seen of a list with a magnitude replaced. -/
theorem Faithful.filterMap {view : Attachment → Option Attachment} (faithful : Faithful view)
    (source : SourceId) (slot : Nat) (magnitude : Float32) (attachments : List Attachment) :
    (attachments.map (revalued source slot magnitude)).filterMap view =
      (attachments.filterMap view).map (revalued source slot magnitude) := by
  rw [List.filterMap_map, List.map_filterMap]
  exact congrArg (List.filterMap · attachments) (funext (faithful source slot magnitude))

end Attachment

/-- What an effect shows when its stack count alone is touched, under a view that is blind to it. -/
theorem Effect.filterMap_attachments {effect touched : Effect}
    (retouches : effect.Retouches touched) {view : Attachment → Option Attachment}
    (blind : touched.stackCount = effect.stackCount ∨ Attachment.Blind view effect.id.source)
    (attr : AttributeId) :
    (touched.attachments attr).filterMap view = (effect.attachments attr).filterMap view := by
  rw [attachments_congr retouches.becomes.id retouches.becomes.definition retouches.magnitudes,
    List.filterMap_map]
  refine List.filterMap_congr fun attachment member => ?_
  obtain ⟨source, count⟩ := of_mem_attachments member
  rcases blind with same | blind
  · rw [Function.comp, same, ← count]
  · exact blind attachment source _

/-- What is seen without a source. -/
theorem Attachment.filterMap_skipping (source : SourceId) (attachments : List Attachment) :
    attachments.filterMap (skipping source) =
      attachments.filter fun attachment => attachment.source != source := by
  rw [← List.filterMap_eq_filter]
  refine List.filterMap_congr fun attachment _ => ?_
  by_cases same : attachment.source = source
  · simp [skipping, Option.guard, same]
  · simp [skipping, Option.guard, same]

/-- What some effects attach, without one source, is what the others attach. -/
theorem Effect.filter_flatMap_attachments (effects : List Effect) (key : EffectId)
    (attr : AttributeId) : (effects.flatMap (·.attachments attr)).filter (fun attachment =>
        attachment.source != key.source) =
      (effects.filter fun effect => decide (effect.id ≠ key)).flatMap (·.attachments attr) := by
  rw [List.filter_flatMap]
  induction effects with
  | nil => rfl
  | cons effect rest ih =>
    rw [List.flatMap_cons, ih]
    by_cases same : effect.id = key
    · rw [List.filter_cons_of_neg (by simpa using same)]
      refine (congrArg (· ++ _) (List.filter_eq_nil_iff.2 fun attachment listed => ?_)).trans
        (List.nil_append _)
      rw [(of_mem_attachments listed).1, same]
      simp
    · rw [List.filter_cons_of_pos (by simpa using same), List.flatMap_cons]
      refine congrArg (· ++ _) (List.filter_eq_self.2 fun attachment listed => ?_)
      rw [(of_mem_attachments listed).1]
      simpa using fun equal => same (EffectId.source_inj equal)

namespace Entity

/-- The modifiers of every attribute are what the live effects attach to it, in order, and every
slot of a live effect has its magnitude. -/
structure Mirrored (entity : Entity) : Prop where
  /-- Every slot has its magnitude. -/
  full : ∀ effect ∈ entity.effects.live,
    effect.magnitudes.length = effect.definition.modifiers.length
  /-- The modifiers are what the live effects attach. -/
  attached : ∀ id attr, entity.attributes.get? id = some attr →
    attr.attachments = entity.effects.live.flatMap (·.attachments id)

/-- Under a view, the modifiers of every attribute are what the live effects attach to it. -/
def Shows (entity : Entity) (view : Attachment → Option Attachment) : Prop :=
  ∀ id attr, entity.attributes.get? id = some attr → attr.attachments.filterMap view =
    (entity.effects.live.flatMap (·.attachments id)).filterMap view

variable {entity : Entity} {view : Attachment → Option Attachment} {key : EffectId} {next : Nat}
  {owner : EntityId}

/-- What mirrors is so under every view. -/
theorem Mirrored.shows (mirrored : entity.Mirrored) (view : Attachment → Option Attachment) :
    entity.Shows view :=
  fun id attr found => congrArg (List.filterMap view) (mirrored.attached id attr found)

/-- What is so under the view of everything mirrors. -/
theorem Shows.mirrored (shows : entity.Shows some) (sound : entity.effects.Sound next owner) :
    entity.Mirrored where
  full effect live := sound.full effect (List.mem_filter.1 live).1
  attached id attr found := by
    have seen := shows id attr found
    rwa [List.filterMap_some, List.filterMap_some] at seen

/-- A touch that is not seen, if the effect is live at all, keeps what is shown. -/
theorem Shows.touch (sound : entity.effects.Sound next owner) {effect touched : Effect}
    (found : entity.effects.get? key = some effect) (live : touched.isLive = effect.isLive)
    (agrees : effect.isLive = true → ∀ attr,
      (touched.attachments attr).filterMap view = (effect.attachments attr).filterMap view)
    (shows : entity.Shows view) :
    (entity.onEffects (·.modify key fun _ => touched)).Shows view := by
  intro id attr stored
  rw [shows id attr stored]
  have lives : (entity.effects.modify key fun _ => touched).live =
      entity.effects.live.map fun other => if other.id = key then touched else other :=
    EffectRoster.live_modify sound fun other stored => by
      rw [found] at stored
      cases stored
      exact live
  change _ = ((entity.effects.modify key fun _ => touched).live.flatMap _).filterMap view
  rw [lives, List.flatMap_map, List.filterMap_flatMap, List.filterMap_flatMap]
  refine List.flatMap_congr fun other member => ?_
  obtain ⟨kept, alive⟩ := List.mem_filter.1 member
  by_cases same : other.id = key
  · have placed := sound.get?_eq kept
    rw [same, found] at placed
    cases placed
    rw [if_pos same]
    exact (agrees alive id).symm
  · rw [if_neg same]

/-- Renewing a tracked magnitude on both sides keeps what is shown faithfully. -/
theorem Shows.renew (sound : entity.effects.Sound next owner) {effect : Effect}
    (found : entity.effects.get? key = some effect) {slot : Nat} {modifier : Modifier}
    (stored : effect.definition.modifiers[slot]? = some modifier) (magnitude : Float32)
    (faithful : Attachment.Faithful view) (shows : entity.Shows view) :
    (renew key entity (slot, modifier.attr, magnitude)).Shows view := by
  intro id attr holds
  obtain ⟨earlier, origin, attached⟩ := AttributeSheet.attachments_setMagnitude holds
  have lives : (entity.effects.modify key (·.setMagnitude slot magnitude)).live =
      entity.effects.live.map fun other =>
        if other.id = key then other.setMagnitude slot magnitude else other :=
    EffectRoster.live_modify sound fun _ _ => rfl
  change _ = ((entity.effects.modify key (·.setMagnitude slot magnitude)).live.flatMap _).filterMap
    view
  rw [attached, lives, List.flatMap_map]
  -- Only what the one effect attaches to the one attribute changes, in the same way on both sides.
  have renewed : ∀ other ∈ entity.effects.live,
      (if other.id = key then other.setMagnitude slot magnitude else other).attachments id =
        if id = modifier.attr
          then (other.attachments id).map (Attachment.revalued key.source slot magnitude)
          else other.attachments id := by
    intro other member
    by_cases same : other.id = key
    · have placed := sound.get?_eq (List.mem_filter.1 member).1
      rw [same, found] at placed
      cases placed
      rw [if_pos same, Effect.attachments_setMagnitude stored, same]
    · rw [if_neg same]
      split
      · refine ((List.map_congr_left fun attachment listed => ?_).trans (List.map_id _)).symm
        have source := (Effect.of_mem_attachments listed).1
        refine if_neg fun equal => same (EffectId.source_inj ?_)
        rw [← source, equal.1]
      · rfl
  rw [List.flatMap_congr renewed]
  split
  · rw [faithful.filterMap, shows id earlier origin, ← faithful.filterMap, List.map_flatMap]
  · exact shows id earlier origin

/-- Renewing tracked magnitudes on both sides keeps what is shown faithfully. -/
theorem Shows.tracking (faithful : Attachment.Faithful view)
    {updates : List (Nat × AttributeId × Float32)} {effect : Effect}
    (sound : entity.effects.Sound next owner) (found : entity.effects.get? key = some effect)
    (tracks : effect.Tracks updates) (shows : entity.Shows view) :
    (entity.tracking key updates).Shows view := by
  induction updates generalizing entity effect with
  | nil => exact shows
  | cons update rest ih =>
    obtain ⟨slot, attr, magnitude⟩ := update
    obtain ⟨modifier, stored, rfl, tracked⟩ := tracks slot attr magnitude List.mem_cons_self
    have follows :
        entity.effects.Follows (entity.effects.modify key (·.setMagnitude slot magnitude)) :=
      EffectRoster.follows_modify sound fun other placed => by
        rw [found] at placed
        cases placed
        exact .setMagnitude effect stored tracked magnitude
    have placed : (entity.effects.modify key (·.setMagnitude slot magnitude)).get? key =
        some (effect.setMagnitude slot magnitude) := by
      have keeps (other : Effect) : (other.setMagnitude slot magnitude).id = other.id := rfl
      rw [EffectRoster.get?_modify keeps, if_pos rfl, found]
      rfl
    exact ih (follows.sound_of_queued sound rfl) placed
      (fun other attr magnitude member =>
        tracks other attr magnitude (List.mem_cons_of_mem _ member))
      (shows.renew sound found stored magnitude faithful)

/-- A touched effect is found in its touched form, its tracked magnitudes renewed. -/
theorem get?_touching {effect touched : Effect} (found : entity.effects.get? key = some effect)
    (retouches : effect.Retouches touched) {updates : List (Nat × AttributeId × Float32)}
    (tracks : touched.Tracks updates) :
    (entity.touching key touched updates).effects.get? key = some (touched.renewed updates) := by
  have same := retouches.becomes.id.trans (EffectRoster.mem_of_get? found).2
  rw [effects_touching same]
  exact EffectRoster.get?_replace found ((Effect.Becomes.renewed tracks).id.trans same)

/-- Touching an effect and renewing its tracked magnitudes keeps what is shown faithfully, if the
view does not see its stack count change. -/
theorem Shows.touching (sound : entity.effects.Sound next owner) {effect touched : Effect}
    (found : entity.effects.get? key = some effect) (retouches : effect.Retouches touched)
    {updates : List (Nat × AttributeId × Float32)} (tracks : touched.Tracks updates)
    (faithful : Attachment.Faithful view) (blind : effect.isLive = true →
      touched.stackCount = effect.stackCount ∨ Attachment.Blind view key.source)
    (shows : entity.Shows view) : (entity.touching key touched updates).Shows view := by
  have same := (EffectRoster.mem_of_get? found).2
  have follows : entity.effects.Follows (entity.effects.modify key fun _ => touched) :=
    EffectRoster.follows_modify sound fun other stored => by
      rw [found] at stored
      cases stored
      exact retouches.becomes
  have marked := shows.touch sound found retouches.live fun live =>
    Effect.filterMap_attachments retouches (same ▸ blind live)
  have placed := EffectRoster.get?_replace found (retouches.becomes.id.trans same)
  exact marked.tracking faithful (follows.sound_of_queued sound rfl) placed tracks

/-- Once the modifiers are told the stack count of their owner, both sides mirror each other. -/
theorem Shows.spread (sound : entity.effects.Sound next owner) {effect : Effect}
    (found : entity.effects.get? key = some effect)
    (shows : entity.Shows (Attachment.ignoring key.source effect.stackCount)) :
    (entity.onSheet (spreadAll key.source effect.stackCount)).Mirrored where
  full other live := sound.full other (List.mem_filter.1 live).1
  attached id attr holds := by
    obtain ⟨earlier, origin, attached⟩ := AttributeSheet.attachments_spreadAll holds
    have seen := shows id earlier origin
    unfold Attachment.ignoring at seen
    rw [List.filterMap_eq_map'] at seen
    rw [attached, seen, List.map_flatMap]
    refine List.flatMap_congr fun other member => ?_
    refine (List.map_congr_left fun attachment listed => ?_).trans (List.map_id _)
    obtain ⟨source, count⟩ := Effect.of_mem_attachments listed
    by_cases same : other.id = key
    · have placed := sound.get?_eq (List.mem_filter.1 member).1
      rw [same, found] at placed
      cases placed
      rw [Attachment.restacked, if_pos (same ▸ source), ← count]
      rfl
    · refine if_neg fun equal => same (EffectId.source_inj ?_)
      rw [← source, equal]

/-- Releasing an effect leaves what was shown without it. -/
theorem Shows.release (sound : entity.effects.Sound next owner) {effect : Effect}
    (found : entity.effects.get? key = some effect) (live : effect.isLive = true)
    {state : EffectState} (final : state.isTerminal = true) {granted : List Tag}
    (shows : entity.Shows (Attachment.skipping key.source)) :
    (entity.releasing key granted state).Mirrored where
  full other member := (sound.release final found live).full other (List.mem_filter.1 member).1
  attached id attr holds := by
    obtain ⟨earlier, origin, attached⟩ := AttributeSheet.attachments_detachAll holds
    have seen := shows id earlier origin
    rw [Attachment.filterMap_skipping, Attachment.filterMap_skipping,
      Effect.filter_flatMap_attachments] at seen
    change attr.attachments = (entity.effects.release key state).live.flatMap _
    rw [attached, seen, EffectRoster.live_release sound final]

/-- A new effect comes last on both sides. -/
theorem Mirrored.holding (mirrored : entity.Mirrored) {effect : Effect}
    (live : effect.isLive = true)
    (full : effect.magnitudes.length = effect.definition.modifiers.length) (appliedAt : Float) :
    (entity.holding effect appliedAt).Mirrored := by
  have lives :
      (entity.holding effect appliedAt).effects.live = entity.effects.live ++ [effect] := by
    change (entity.effects.insert effect).live = _
    rw [EffectRoster.live, EffectRoster.insert, List.filter_append, List.filter_cons_of_pos live]
    rfl
  refine ⟨fun other member => ?_, fun id attr holds => ?_⟩
  · rw [lives] at member
    rcases List.mem_append.1 member with before | last
    · exact mirrored.full other before
    · rwa [List.mem_singleton.1 last]
  · obtain ⟨earlier, origin, attached⟩ := AttributeSheet.attachments_attachAll holds
    rw [lives, attached, Effect.attachments_modifiersOf, mirrored.attached id earlier origin,
      List.flatMap_append, List.flatMap_cons, List.flatMap_nil, List.append_nil]

/-- Writes of values keep both sides. -/
theorem Mirrored.revalues (mirrored : entity.Mirrored) {after : Entity}
    (attributes : entity.attributes.Revalues after.attributes)
    (effects : after.effects.live = entity.effects.live) : after.Mirrored where
  full effect live := mirrored.full effect (effects ▸ live)
  attached id attr found := by
    obtain ⟨earlier, origin, same⟩ := attributes id attr found
    rw [same.attachments, mirrored.attached id earlier origin, effects]

/-- A newcomer has nothing on either side. -/
theorem IsNewcomer.mirrored {newcomer : Entity} (is : newcomer.IsNewcomer)
    (effects : entity.effects = newcomer.effects)
    (attributes : entity.attributes = newcomer.attributes) : entity.Mirrored := by
  have none : entity.effects.live = [] := by
    rw [effects, is.effects]
    rfl
  refine ⟨fun effect live => ?_, fun id attr found => ?_⟩
  · rw [none] at live
    cases live
  · rw [attributes] at found
    rw [none, Attribute.attachments, is.modifiers id attr found]
    rfl

end Entity

/-- The request leaves the modifiers of an attribute to the engine. -/
def AttributeRequest.keepsModifiers : AttributeRequest → Bool
  | .attach _ | .detach _ | .setStacks .. | .setMagnitude .. => false
  | _ => true

/-- The request reads values, writes them or commits them, and leaves the rest to the engine. -/
def SheetRequest.keepsModifiers : SheetRequest → Bool
  | .put _ | .take _ | .clear | .attach .. | .detach _ | .setStacks .. | .setMagnitude .. => false
  | .one _ (.ok request) => request.keepsModifiers
  | _ => true

/-- The request leaves effects and modifiers to the engine. -/
def Request.keepsModifiers : Request → Bool
  | .attributes _ (.ok request) => request.keepsModifiers
  | request => request.isLawful

/-- Such a request to an attribute revalues it. -/
theorem AttributeRequest.revalues_perform (observer : EntityId) (attr : Attribute)
    {request : AttributeRequest} (keeps : request.keepsModifiers = true) :
    attr.Revalues (request.perform observer attr).state := by
  cases request with
  | setBase value => exact .setBase attr value
  | setCurrent value => exact .setCurrent attr value
  | recalculate => exact .recalculate attr
  | attach | detach | setStacks | setMagnitude => cases keeps
  | _ => exact ⟨rfl, fun fresh => fresh⟩

/-- Such a request to a sheet revalues it. -/
theorem SheetRequest.revalues_perform (observer : EntityId) (sheet : AttributeSheet)
    {request : SheetRequest} (keeps : request.keepsModifiers = true) :
    sheet.Revalues (request.perform observer sheet).state := by
  cases request with
  | setBase id value => exact AttributeSheet.revalues_setBase sheet id value
  | setCurrent id value => exact AttributeSheet.revalues_setCurrent sheet id value
  | recalculate => exact AttributeSheet.revalues_recalculateDirty sheet
  | one id request =>
    unfold perform
    dsimp only
    split
    · exact .refl sheet
    · next attr found =>
      refine AttributeSheet.revalues_replace found ?_
      cases request with
      | error refusal => exact .refl attr
      | ok request => exact AttributeRequest.revalues_perform observer attr keeps
  | put | take | clear | attach | detach | setStacks | setMagnitude => cases keeps
  | _ => exact .refl sheet

/-- A request that leaves modifiers to the engine leaves effects to it. -/
theorem Request.isLawful_of_keepsModifiers {request : Request}
    (keeps : request.keepsModifiers = true) : request.isLawful = true := by
  unfold keepsModifiers at keeps
  split at keeps
  · rfl
  · exact keeps

namespace World

variable {world after : World} {frame : Frame} {id : EntityId} {change : Entity → Entity}

/-- What a deed leaves of a mirrored entity: it is mirrored, unless the last stack of a live effect
is gone, which ends next. -/
theorem Deed.mirrored (deed : world.Deed frame id change) (sound : world.Sound)
    (admitted : frame.Admitted fun request => request.keepsModifiers = true) {entity : Entity}
    (registered : world.entity? id = some entity) (mirrored : entity.Mirrored) :
    (change entity).Mirrored ∨ ∃ handle touched, frame = .expire handle ∧
      (world.expire handle).frames = [.finish handle .expired true] ∧ id = handle.target ∧
      (change entity).effects.get? handle.id = some touched ∧ touched.isLive = true ∧
      (change entity).Shows (Attachment.skipping handle.id.source) := by
  have roster := sound.rosters _ _ registered
  have kept := (deed.keeps sound admitted registered).2.2
  cases deed with
  | still => exact .inl mirrored
  | @touch _ handle effect touched updates found retouches tracks ticked counted =>
    rw [effect?_eq registered] at found
    rcases counted with count | ⟨rfl, frames⟩
    · exact .inl (((mirrored.shows some).touching roster found retouches tracks
        Attachment.faithful_some fun _ => .inl count).mirrored kept)
    · cases live : effect.isLive with
      | false =>
        exact .inl (((mirrored.shows some).touching roster found retouches tracks
          Attachment.faithful_some fun alive => by cases live.symm.trans alive).mirrored kept)
      | true =>
        have shows := (mirrored.shows (Attachment.skipping handle.id.source)).touching roster found
          retouches tracks (Attachment.faithful_skipping _) fun _ =>
            .inr (Attachment.blind_skipping _)
        have alive : (touched.renewed updates).isLive = true := by
          rw [Effect.renewed_eq]
          exact retouches.live.trans live
        exact .inr ⟨handle, _, rfl, frames, rfl, Entity.get?_touching found retouches tracks, alive,
          shows⟩
  | @restack _ handle effect touched updates found retouches tracks context =>
    rw [effect?_eq registered] at found
    have placed := Entity.get?_touching found retouches tracks
    have count : (touched.renewed updates).stackCount = touched.stackCount := by
      rw [Effect.renewed_eq]
    have shows :=
      (mirrored.shows (Attachment.ignoring handle.id.source touched.stackCount)).touching
        roster found retouches tracks (Attachment.faithful_ignoring _ _) fun _ =>
        .inr (Attachment.blind_ignoring _ _)
    have sound : (entity.touching handle.id touched updates).effects.Sound world.nextEffect
        handle.target := kept
    have spread := Entity.Shows.spread sound placed (count ▸ shows)
    rw [count] at spread
    exact .inl spread
  | release found live =>
    rw [effect?_eq registered] at found
    exact .inl ((mirrored.shows _).release roster found live admitted.isTerminal)
  | begin => exact .inl (mirrored.revalues (.refl _) rfl)
  | finish =>
    exact .inl (mirrored.revalues (AttributeSheet.revalues_recalculateDirty _)
      (EffectRoster.live_endTick roster))
  | write revalues =>
    have written := revalues entity
    exact .inl (mirrored.revalues written.attributes (congrArg EffectRoster.live written.effects))
  | @sheet _ request =>
    refine .inl (mirrored.revalues ?_ rfl)
    cases request with
    | error refusal => exact .refl _
    | ok request =>
      exact SheetRequest.revalues_perform id _
        (admitted.resolve_right fun nested => by cases nested)

end World

end SkillEngine
