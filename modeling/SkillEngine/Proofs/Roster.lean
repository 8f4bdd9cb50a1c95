import SkillEngine.Effect.Roster
import Mathlib.Data.List.Basic

/-!
# Instances on a roster

An instance keeps its identity for life: number, origin, source, target and the magnitudes captured
at the application never change, and a state that is over stays as it is. A roster *follows* an
earlier one when every stored instance is a later form of one stored there. A sound roster lists its
instances by strictly ascending number, and only what is over waits to be dropped; each operation on
rosters keeps that. Sound or not, a roster *thins* when numbers find later forms of what they found
and nothing becomes live.
-/

namespace SkillEngine

/-- An attached instance is live exactly as long as it is not over. -/
theorem EffectState.isLive_eq_not_isTerminal {state : EffectState} (attached : state ≠ .pending) :
    state.isLive = !state.isTerminal := by
  cases state with
  | pending => exact absurd rfl attached
  | _ => rfl

/-- A state that is over is not live. -/
theorem EffectState.not_isLive_of_isTerminal {state : EffectState}
    (final : state.isTerminal = true) : state.isLive = false := by
  cases state <;> first | rfl | exact absurd final (by decide)

/-- An instance in its last state, without cues. -/
def Effect.ended (effect : Effect) (state : EffectState) : Effect :=
  { effect with state, cues := [] }

/-- An instance with some magnitudes renewed in turn: slot, attribute and value. -/
def Effect.renewed (effect : Effect) (updates : List (Nat × AttributeId × Float32)) : Effect :=
  updates.foldl (fun effect (slot, _, magnitude) => effect.setMagnitude slot magnitude) effect

/-- Renewing changes magnitudes only. -/
theorem Effect.renewed_eq (effect : Effect) (updates : List (Nat × AttributeId × Float32)) :
    effect.renewed updates = { effect with magnitudes := (effect.renewed updates).magnitudes } := by
  induction updates generalizing effect with
  | nil => rfl
  | cons update rest ih => exact ih (effect.setMagnitude update.1 update.2.2)

/-- Every renewed slot is one that the definition tracks, on its attribute. -/
def Effect.Tracks (effect : Effect) (updates : List (Nat × AttributeId × Float32)) : Prop :=
  ∀ slot attr magnitude, (slot, attr, magnitude) ∈ updates →
    ∃ modifier, effect.definition.modifiers[slot]? = some modifier ∧ modifier.attr = attr ∧
      modifier.capture = .track

/-- No slot at all is renewed. -/
theorem Effect.Tracks.nil (effect : Effect) : effect.Tracks [] :=
  fun _ _ _ member => by cases member

/-- One form of an instance is a later form of another. -/
structure Effect.Becomes (before after : Effect) : Prop where
  /-- The number stays. -/
  id : after.id = before.id
  /-- The skill stays. -/
  skill : after.skill = before.skill
  /-- The node stays. -/
  node : after.node = before.node
  /-- The definition stays. -/
  definition : after.definition = before.definition
  /-- The source stays. -/
  source : after.source = before.source
  /-- The target stays. -/
  target : after.target = before.target
  /-- No slot comes or goes. -/
  slots : after.magnitudes.length = before.magnitudes.length
  /-- A captured magnitude stays. -/
  captured : ∀ (slot : Nat) (modifier : Modifier),
    before.definition.modifiers[slot]? = some modifier → modifier.capture = .snapshot →
    after.magnitudes[slot]? = before.magnitudes[slot]?
  /-- What is over stays so. -/
  final : before.state.isTerminal = true → after.state = before.state
  /-- What is attached never becomes pending. -/
  attached : before.state ≠ .pending → after.state ≠ .pending

namespace Effect.Becomes

/-- Every instance is a form of itself. -/
theorem refl (effect : Effect) : effect.Becomes effect :=
  ⟨rfl, rfl, rfl, rfl, rfl, rfl, rfl, fun _ _ _ _ => rfl, fun _ => rfl, fun attached => attached⟩

/-- Later forms of later forms are later forms. -/
theorem trans {first second third : Effect} (earlier : first.Becomes second)
    (later : second.Becomes third) : first.Becomes third where
  id := later.id.trans earlier.id
  skill := later.skill.trans earlier.skill
  node := later.node.trans earlier.node
  definition := later.definition.trans earlier.definition
  source := later.source.trans earlier.source
  target := later.target.trans earlier.target
  slots := later.slots.trans earlier.slots
  captured slot modifier stored capture :=
    (later.captured slot modifier (earlier.definition ▸ stored) capture).trans
      (earlier.captured slot modifier stored capture)
  final terminal := by
    have same := earlier.final terminal
    exact (later.final (same ▸ terminal)).trans same
  attached attached := later.attached (earlier.attached attached)

/-- Nothing comes back to life. -/
theorem isLive {before after : Effect} (becomes : before.Becomes after)
    (attached : before.state ≠ .pending) (live : after.isLive = true) : before.isLive = true := by
  unfold Effect.isLive at live ⊢
  rw [EffectState.isLive_eq_not_isTerminal attached]
  cases terminal : before.state.isTerminal with
  | false => rfl
  | true =>
    rw [becomes.final terminal, EffectState.isLive_eq_not_isTerminal attached, terminal] at live
    exact live

/-- A change that leaves identity, magnitudes and state alone is a later form. -/
theorem of_eq {before after : Effect} (id : after.id = before.id)
    (skill : after.skill = before.skill) (node : after.node = before.node)
    (definition : after.definition = before.definition)
    (source : after.source = before.source) (target : after.target = before.target)
    (magnitudes : after.magnitudes = before.magnitudes) (state : after.state = before.state) :
    before.Becomes after :=
  ⟨id, skill, node, definition, source, target, by rw [magnitudes],
    fun _ _ _ _ => by rw [magnitudes], fun _ => state, fun attached => by rwa [state]⟩

/-- Replacing the magnitude of a tracked slot gives a later form. -/
theorem setMagnitude (effect : Effect) {slot : Nat} {modifier : Modifier}
    (stored : effect.definition.modifiers[slot]? = some modifier)
    (tracked : modifier.capture = .track) (magnitude : Float32) :
    effect.Becomes (effect.setMagnitude slot magnitude) where
  id := rfl
  skill := rfl
  node := rfl
  definition := rfl
  source := rfl
  target := rfl
  slots := List.length_set
  captured other captured found capture := by
    refine List.getElem?_set_ne fun same => ?_
    rw [← same, stored] at found
    cases found
    rw [tracked] at capture
    cases capture
  final _ := rfl
  attached attached := attached

/-- Renewing tracked magnitudes gives a later form. -/
theorem renewed {effect : Effect} {updates : List (Nat × AttributeId × Float32)}
    (tracks : effect.Tracks updates) : effect.Becomes (effect.renewed updates) := by
  induction updates generalizing effect with
  | nil => exact refl effect
  | cons update rest ih =>
    obtain ⟨slot, attr, magnitude⟩ := update
    obtain ⟨modifier, stored, _, tracked⟩ := tracks slot attr magnitude List.mem_cons_self
    have onward : (effect.setMagnitude slot magnitude).Tracks rest :=
      fun other attr magnitude member => tracks other attr magnitude (List.mem_cons_of_mem _ member)
    exact (setMagnitude effect stored tracked magnitude).trans (ih onward)

/-- An instance that was live and has ended is a later form of itself. -/
theorem ended {effect : Effect} {state : EffectState} (live : effect.isLive = true)
    (final : state.isTerminal = true) : effect.Becomes (effect.ended state) where
  id := rfl
  skill := rfl
  node := rfl
  definition := rfl
  source := rfl
  target := rfl
  slots := rfl
  captured _ _ _ _ := rfl
  final terminal := by
    rw [Effect.isLive, EffectState.isLive_eq_not_isTerminal, terminal] at live
    · exact absurd live (by decide)
    · rintro pending
      rw [pending] at terminal
      exact absurd terminal (by decide)
  attached _ := by
    rintro pending
    rw [show state = .pending from pending] at final
    exact absurd final (by decide)

end Effect.Becomes

namespace EffectRoster

/-- Only the first instance of a number matters to a change of it. -/
theorem changeFirst_congr {key : EffectId} {first second : Effect → Effect} {effects : List Effect}
    (agree : ∀ effect, effects.find? (·.id == key) = some effect → first effect = second effect) :
    changeFirst key first effects = changeFirst key second effects := by
  induction effects with
  | nil => rfl
  | cons effect rest ih =>
    by_cases same : (effect.id == key) = true
    · simp only [changeFirst, same, if_true]
      rw [agree effect (List.find?_cons_of_pos (p := fun other : Effect => other.id == key) same)]
    · simp only [changeFirst, same, Bool.false_eq_true, if_false]
      have skip :=
        List.find?_cons_of_neg (p := fun other : Effect => other.id == key) (l := rest) same
      rw [ih fun other found => agree other (skip.trans found)]

/-- Among instances with different numbers, a change reaches every one of its number. -/
theorem changeFirst_eq_map {key : EffectId} {change : Effect → Effect} {effects : List Effect}
    (distinct : effects.Pairwise (·.id ≠ ·.id)) :
    changeFirst key change effects =
      effects.map fun effect => if effect.id = key then change effect else effect := by
  induction effects with
  | nil => rfl
  | cons effect rest ih =>
    obtain ⟨apart, distinct⟩ := List.pairwise_cons.1 distinct
    by_cases same : effect.id = key
    · have others :
          rest.map (fun other => if other.id = key then change other else other) = rest := by
        refine (List.map_congr_left fun other member => ?_).trans (List.map_id rest)
        exact if_neg fun equal => apart other member (same.trans equal.symm)
      simp [changeFirst, same, others]
    · simp [changeFirst, same, ih distinct]

/-- A roster is sound when its instances are numbered in ascending order below the next number,
act on the roster's owner, are attached, have a magnitude per slot, and are over if they wait to be
dropped. -/
structure Sound (roster : EffectRoster) (next : Nat) (owner : EntityId) : Prop where
  /-- Numbers ascend strictly. -/
  ordered : roster.effects.Pairwise (·.id.raw < ·.id.raw)
  /-- Numbers are below the next one. -/
  below : ∀ effect ∈ roster.effects, effect.id.raw < next
  /-- The instances act on the owner. -/
  placed : ∀ effect ∈ roster.effects, effect.target = owner
  /-- No instance is pending. -/
  attached : ∀ effect ∈ roster.effects, effect.state ≠ .pending
  /-- Every slot has a magnitude. -/
  full : ∀ effect ∈ roster.effects,
    effect.magnitudes.length = effect.definition.modifiers.length
  /-- Queued numbers are below the next one. -/
  queuedBelow : ∀ key ∈ roster.queued, key.raw < next
  /-- What is queued is over. -/
  queuedOver : ∀ effect ∈ roster.effects, effect.id ∈ roster.queued → effect.isLive = false

/-- Every instance of one roster is a later form of one of another, in the same order. -/
def Follows (before after : EffectRoster) : Prop :=
  ∃ change : Effect → Effect, (∀ effect ∈ before.effects, effect.Becomes (change effect)) ∧
    after.effects.Sublist (before.effects.map change)

variable {roster before after : EffectRoster} {next : Nat} {owner : EntityId} {key : EffectId}

/-- An empty roster is sound. -/
theorem Sound.empty : EffectRoster.empty.Sound next owner := by
  constructor <;> simp [EffectRoster.empty]

/-- Instances of a sound roster have different numbers. -/
theorem Sound.distinct (sound : roster.Sound next owner) :
    roster.effects.Pairwise (·.id ≠ ·.id) :=
  sound.ordered.imp fun less same => by rw [same] at less; exact Nat.lt_irrefl _ less

/-- In a sound roster a stored instance is what its number finds. -/
theorem Sound.get?_eq (sound : roster.Sound next owner) {effect : Effect}
    (stored : effect ∈ roster.effects) : roster.get? effect.id = some effect := by
  have distinct := sound.distinct
  unfold get?
  generalize roster.effects = effects at stored distinct
  induction effects with
  | nil => exact absurd stored List.not_mem_nil
  | cons first rest ih =>
    obtain ⟨apart, distinct⟩ := List.pairwise_cons.1 distinct
    rcases List.mem_cons.1 stored with rfl | stored
    · simp
    · rw [List.find?_cons_of_neg (by simpa using apart effect stored)]
      exact ih stored distinct

/-- What a number finds is stored under it. -/
theorem mem_of_get? {effect : Effect} (found : roster.get? key = some effect) :
    effect ∈ roster.effects ∧ effect.id = key :=
  ⟨List.mem_of_find?_eq_some found, by simpa using List.find?_some found⟩

/-- Later numbers keep a roster sound. -/
theorem Sound.mono {later : Nat} (sound : roster.Sound next owner) (le : next ≤ later) :
    roster.Sound later owner :=
  { sound with
    below := fun effect stored => Nat.lt_of_lt_of_le (sound.below effect stored) le
    queuedBelow := fun key queued => Nat.lt_of_lt_of_le (sound.queuedBelow key queued) le }

namespace Follows

/-- A roster follows itself. -/
theorem refl (roster : EffectRoster) : roster.Follows roster :=
  ⟨id, fun effect _ => .refl effect, by simp⟩

/-- A roster that stores the same instances follows. -/
theorem of_eq (same : after.effects = before.effects) : before.Follows after :=
  ⟨id, fun effect _ => .refl effect, by simp [same]⟩

/-- Whoever follows a follower follows. -/
theorem trans {first second third : EffectRoster} (earlier : first.Follows second)
    (later : second.Follows third) : first.Follows third := by
  obtain ⟨change, becomes, sub⟩ := earlier
  obtain ⟨other, onward, rest⟩ := later
  -- Instances that the middle roster has dropped need not change any further.
  classical
  refine ⟨fun effect => if change effect ∈ second.effects then other (change effect)
    else change effect, fun effect stored => ?_, ?_⟩
  · dsimp only
    split
    · next kept => exact (becomes effect stored).trans (onward _ kept)
    · exact becomes effect stored
  · refine rest.trans ?_
    have mapped := sub.map fun effect => if effect ∈ second.effects then other effect else effect
    rw [List.map_map] at mapped
    have left : second.effects.map (fun effect =>
        if effect ∈ second.effects then other effect else effect) = second.effects.map other :=
      List.map_congr_left fun effect stored => if_pos stored
    rw [left] at mapped
    exact mapped

/-- Every stored instance is a later form of a stored one. -/
theorem origin (follows : before.Follows after) {effect : Effect}
    (stored : effect ∈ after.effects) :
    ∃ earlier ∈ before.effects, earlier.Becomes effect := by
  obtain ⟨change, becomes, sub⟩ := follows
  obtain ⟨earlier, member, rfl⟩ := List.mem_map.1 (sub.subset stored)
  exact ⟨earlier, member, becomes earlier member⟩

/-- A number finds a later form of what it found. -/
theorem get? (follows : before.Follows after) (sound : before.Sound next owner) {effect : Effect}
    (found : after.get? key = some effect) :
    ∃ earlier, before.get? key = some earlier ∧ earlier.Becomes effect := by
  obtain ⟨stored, rfl⟩ := mem_of_get? found
  obtain ⟨earlier, member, becomes⟩ := follows.origin stored
  exact ⟨earlier, becomes.id ▸ sound.get?_eq member, becomes⟩

/-- A follower of a sound roster is sound if only what is over waits to be dropped. -/
theorem sound (follows : before.Follows after) (sound : before.Sound next owner)
    (queuedBelow : ∀ key ∈ after.queued, key.raw < next)
    (queuedOver : ∀ effect ∈ after.effects, effect.id ∈ after.queued → effect.isLive = false) :
    after.Sound next owner where
  ordered := by
    obtain ⟨change, becomes, sub⟩ := follows
    refine List.Pairwise.sublist sub (List.pairwise_map.2 ?_)
    refine sound.ordered.imp_of_mem fun first second less => ?_
    rw [(becomes _ first).id, (becomes _ second).id]
    exact less
  below effect stored := by
    obtain ⟨earlier, member, becomes⟩ := follows.origin stored
    rw [becomes.id]
    exact sound.below earlier member
  placed effect stored := by
    obtain ⟨earlier, member, becomes⟩ := follows.origin stored
    rw [becomes.target]
    exact sound.placed earlier member
  attached effect stored := by
    obtain ⟨earlier, member, becomes⟩ := follows.origin stored
    exact becomes.attached (sound.attached earlier member)
  full effect stored := by
    obtain ⟨earlier, member, becomes⟩ := follows.origin stored
    rw [becomes.slots, becomes.definition]
    exact sound.full earlier member
  queuedBelow := queuedBelow
  queuedOver := queuedOver

end Follows

/-- A follower that queues no more than before is sound. -/
theorem Follows.sound_of_queued (follows : before.Follows after) (sound : before.Sound next owner)
    (same : after.queued = before.queued) : after.Sound next owner := by
  refine follows.sound sound (same ▸ sound.queuedBelow) fun effect stored queued => ?_
  obtain ⟨earlier, member, becomes⟩ := follows.origin stored
  rw [same, becomes.id] at queued
  have final := sound.queuedOver earlier member queued
  cases live : effect.isLive with
  | false => rfl
  | true =>
    rw [becomes.isLive (sound.attached earlier member) live] at final
    exact absurd final (by decide)

/-- A change of one instance into a later form of it gives a follower. -/
theorem follows_modify (sound : roster.Sound next owner) {change : Effect → Effect}
    (becomes : ∀ effect, roster.get? key = some effect → effect.Becomes (change effect)) :
    roster.Follows (roster.modify key change) := by
  refine ⟨fun effect => if effect.id = key then change effect else effect,
    fun effect stored => ?_, ?_⟩
  · dsimp only
    split
    · next same => exact becomes effect (same ▸ sound.get?_eq stored)
    · exact .refl effect
  · rw [modify, changeFirst_eq_map sound.distinct]

/-- Changes that agree on the stored instance are the same change. -/
theorem modify_congr {first second : Effect → Effect}
    (agree : ∀ effect, roster.get? key = some effect → first effect = second effect) :
    roster.modify key first = roster.modify key second := by
  unfold modify
  rw [changeFirst_congr agree]

/-- An instance that is stored after a change was stored before it, in its changed form if it has
the number. -/
theorem mem_modify (sound : roster.Sound next owner) {change : Effect → Effect} {effect : Effect}
    (stored : effect ∈ (roster.modify key change).effects) : ∃ earlier ∈ roster.effects,
      effect = if earlier.id = key then change earlier else earlier := by
  rw [modify, changeFirst_eq_map sound.distinct] at stored
  obtain ⟨earlier, member, same⟩ := List.mem_map.1 stored
  exact ⟨earlier, member, same.symm⟩

/-- Changing nothing about an instance changes nothing. -/
theorem modify_same (roster : EffectRoster) (key : EffectId) :
    roster.modify key (fun effect => effect) = roster := by
  obtain ⟨effects, ticking, queued⟩ := roster
  unfold modify
  congr 1
  induction effects with
  | nil => rfl
  | cons effect rest ih =>
    unfold changeFirst
    split
    · rfl
    · exact congrArg (effect :: ·) ih

/-- Changing an instance that is not stored changes nothing. -/
theorem modify_of_missing (missing : roster.get? key = none) (change : Effect → Effect) :
    roster.modify key change = roster :=
  (modify_congr fun _ stored => by cases missing.symm.trans stored).trans (modify_same roster key)

/-- Changing the stored instance replaces it. -/
theorem modify_of_get? {effect : Effect} (found : roster.get? key = some effect)
    (change : Effect → Effect) :
    roster.modify key change = roster.modify key fun _ => change effect :=
  modify_congr fun other stored => by
    cases found.symm.trans stored
    rfl

/-- Two changes of one instance in turn are one. -/
theorem modify_modify {first : Effect → Effect} (keeps : ∀ effect, (first effect).id = effect.id)
    (second : Effect → Effect) : (roster.modify key first).modify key second =
      roster.modify key fun effect => second (first effect) := by
  obtain ⟨effects, ticking, queued⟩ := roster
  unfold modify
  congr 1
  induction effects with
  | nil => rfl
  | cons effect rest ih =>
    by_cases here : (effect.id == key) = true
    · simp only [changeFirst, here, if_true, keeps]
    · simp only [changeFirst, here, Bool.false_eq_true, if_false]
      exact congrArg (effect :: ·) ih

/-- Replacing an instance and then changing it is replacing it by its changed form. -/
theorem replace_modify {effect : Effect} (same : effect.id = key) (change : Effect → Effect) :
    (roster.modify key fun _ => effect).modify key change =
      roster.modify key fun _ => change effect := by
  obtain ⟨effects, ticking, queued⟩ := roster
  unfold modify
  congr 1
  induction effects with
  | nil => rfl
  | cons first rest ih =>
    by_cases here : (first.id == key) = true
    · simp only [changeFirst, here, if_true, same, beq_self_eq_true]
    · simp only [changeFirst, here, Bool.false_eq_true, if_false]
      exact congrArg (first :: ·) ih

/-- A stored instance that was replaced is found in its new form. -/
theorem get?_replace {before after : Effect} (found : roster.get? key = some before)
    (same : after.id = key) : (roster.modify key fun _ => after).get? key = some after := by
  obtain ⟨effects, ticking, queued⟩ := roster
  unfold modify get? at *
  induction effects with
  | nil => cases found
  | cons first rest ih =>
    by_cases here : (first.id == key) = true
    · simp [changeFirst, here, same]
    · have skip :=
        List.find?_cons_of_neg (p := fun other : Effect => other.id == key) (l := rest) here
      have kept := ih (skip.symm.trans found)
      simpa [changeFirst, here] using kept

/-- What is stored after an instance was replaced was stored before, or is in its place. -/
theorem mem_replace {effect after : Effect}
    (stored : effect ∈ (roster.modify key fun _ => after).effects) :
    effect ∈ roster.effects ∨ effect = after := by
  obtain ⟨effects, ticking, queued⟩ := roster
  unfold modify at stored
  induction effects with
  | nil => cases stored
  | cons first rest ih =>
    simp only [changeFirst] at stored
    split at stored
    · rcases List.mem_cons.1 stored with replaced | kept
      · exact .inr replaced
      · exact .inl (List.mem_cons_of_mem _ kept)
    · rcases List.mem_cons.1 stored with same | kept
      · exact .inl (same ▸ List.mem_cons_self)
      · exact (ih kept).imp_left (List.mem_cons_of_mem _)

/-- What is stored after an instance was dropped was stored before. -/
theorem mem_of_mem_remove {effect : Effect} (stored : effect ∈ (roster.remove key).2.effects) :
    effect ∈ roster.effects := by
  unfold remove at stored
  split at stored
  · exact stored
  · split at stored
    · exact stored
    · exact List.mem_of_mem_filter stored

/-- An instance of another number than the dropped one stays. -/
theorem mem_remove_of_ne {effect : Effect} (stored : effect ∈ roster.effects)
    (apart : effect.id ≠ key) : effect ∈ (roster.remove key).2.effects := by
  unfold remove
  split
  · exact stored
  · split
    · exact stored
    · exact List.mem_filter.2 ⟨stored, by simpa using apart⟩

/-- What a number finds after an instance was changed. -/
theorem get?_modify {change : Effect → Effect} (keeps : ∀ effect, (change effect).id = effect.id)
    (other : EffectId) : (roster.modify key change).get? other =
      if other = key then (roster.get? other).map change else roster.get? other := by
  obtain ⟨effects, ticking, queued⟩ := roster
  simp only [modify, get?]
  induction effects with
  | nil => simp [changeFirst]
  | cons effect rest ih =>
    by_cases here : effect.id = key
    · by_cases same : other = key
      · simp [changeFirst, here, same, keeps]
      · have differs : key ≠ other := fun equal => same equal.symm
        simp [changeFirst, here, same, keeps, differs]
    · by_cases first : effect.id = other
      · have differs : other ≠ key := first ▸ here
        simp [changeFirst, first, differs]
      · simpa [changeFirst, here, first] using ih

/-- What a number finds after an instance was replaced. -/
theorem get?_replaced {before touched : Effect} (found : roster.get? key = some before)
    (same : touched.id = key) (other : EffectId) :
    (roster.modify key fun _ => touched).get? other =
      if other = key then some touched else roster.get? other := by
  by_cases here : other = key
  · rw [if_pos here, here]
    exact get?_replace found same
  · -- Only the instance of the number is changed, so every change may keep it.
    have number := (mem_of_get? found).2
    have keeps (effect : Effect) : Effect.id { touched with id := effect.id } = effect.id := rfl
    have replaced : (roster.modify key fun _ => touched) =
        roster.modify key fun effect => { touched with id := effect.id } :=
      modify_congr fun effect stored => by
        rw [found] at stored
        cases stored
        rw [number, ← same]
    rw [if_neg here, replaced, get?_modify keeps, if_neg here]

/-- The live instances after a change that keeps the number and leaves what is live so. -/
theorem live_modify (sound : roster.Sound next owner) {change : Effect → Effect}
    (keeps : ∀ effect, roster.get? key = some effect →
      (change effect).isLive = effect.isLive) :
    (roster.modify key change).live =
      roster.live.map fun effect => if effect.id = key then change effect else effect := by
  rw [live, modify, changeFirst_eq_map sound.distinct, List.filter_map, live]
  congr 1
  refine List.filter_congr fun effect stored => ?_
  simp only [Function.comp]
  split
  · next same => exact keeps effect (same ▸ sound.get?_eq stored)
  · rfl

/-- The roster after an instance has ended in a state. -/
def release (roster : EffectRoster) (key : EffectId) (state : EffectState) : EffectRoster :=
  ((roster.modify key (·.ended state)).remove key).2

/-- Dropping an instance, or queueing that, gives a follower. -/
theorem follows_remove (roster : EffectRoster) (key : EffectId) :
    roster.Follows (roster.remove key).2 := by
  unfold remove
  split
  · exact .refl roster
  · split
    · exact .of_eq rfl
    · exact ⟨id, fun effect _ => .refl effect, by simp⟩

/-- Ending a live instance gives a follower. -/
theorem follows_release (sound : roster.Sound next owner) {state : EffectState}
    (live : ∀ effect, roster.get? key = some effect → effect.isLive = true)
    (final : state.isTerminal = true) : roster.Follows (roster.release key state) :=
  (follows_modify sound fun effect found => Effect.Becomes.ended (live effect found) final).trans
    (follows_remove _ key)

/-- An instance that is stored after one has ended was stored in its ended form or has another
number. -/
theorem mem_release (sound : roster.Sound next owner) {state : EffectState} {effect : Effect}
    (stored : effect ∈ (roster.release key state).effects) :
    ∃ earlier ∈ roster.effects,
      effect = if earlier.id = key then earlier.ended state else earlier := by
  have member : effect ∈ (roster.modify key (·.ended state)).effects := by
    unfold release remove at stored
    split at stored
    · exact stored
    · split at stored
      · exact stored
      · exact List.mem_of_mem_filter stored
  exact mem_modify sound member

/-- After an instance has ended, what has its number is in the last state. -/
theorem state_release (sound : roster.Sound next owner) {state : EffectState} {effect : Effect}
    (stored : effect ∈ (roster.release key state).effects) (same : effect.id = key) :
    effect.state = state := by
  obtain ⟨earlier, _, rfl⟩ := mem_release sound stored
  by_cases equal : earlier.id = key
  · rw [if_pos equal]
    rfl
  · rw [if_neg equal] at same
    exact absurd same equal

/-- The instances that are live after one has ended are the others that were. -/
theorem live_release (sound : roster.Sound next owner) {state : EffectState}
    (final : state.isTerminal = true) :
    (roster.release key state).live =
      roster.live.filter fun effect => decide (effect.id ≠ key) := by
  have ended (effect : Effect) : (effect.ended state).isLive = false :=
    EffectState.not_isLive_of_isTerminal final
  have marked : (roster.modify key (·.ended state)).live =
      roster.live.filter fun effect => decide (effect.id ≠ key) := by
    rw [live, modify, changeFirst_eq_map sound.distinct, List.filter_map, live, List.filter_filter]
    have kept : roster.effects.filter ((fun effect => effect.isLive) ∘ fun effect =>
          if effect.id = key then effect.ended state else effect) =
        roster.effects.filter fun effect => decide (effect.id ≠ key) && effect.isLive := by
      refine List.filter_congr fun effect _ => ?_
      simp only [Function.comp]
      by_cases same : effect.id = key
      · rw [if_pos same, ended]
        simp [same]
      · simp [same]
    rw [kept]
    refine (List.map_congr_left fun effect member => ?_).trans (List.map_id _)
    have both := (List.mem_filter.1 member).2
    simp only [Bool.and_eq_true, decide_eq_true_eq] at both
    exact if_neg both.1
  unfold release remove
  split
  · exact marked
  · split
    · exact marked
    · simp only [live] at marked ⊢
      rw [List.filter_comm, marked, List.filter_filter]
      refine List.filter_congr fun effect _ => ?_
      by_cases same : effect.id = key <;> simp [same]

/-- Ending a live instance keeps a roster sound. -/
theorem Sound.release (sound : roster.Sound next owner) {state : EffectState}
    (final : state.isTerminal = true) {effect : Effect} (found : roster.get? key = some effect)
    (live : effect.isLive = true) : (roster.release key state).Sound next owner := by
  obtain ⟨stored, same⟩ := mem_of_get? found
  have follows : roster.Follows (roster.release key state) :=
    follows_release sound (fun other found' => by rw [found] at found'; cases found'; exact live)
      final
  have queued : ∀ other ∈ (roster.release key state).queued, other ∈ roster.queued ∨
      other = key := by
    intro other member
    unfold EffectRoster.release remove at member
    split at member
    · exact .inl member
    · split at member
      · dsimp only at member
        split at member
        · exact .inl member
        · rcases List.mem_append.1 member with before | last
          · exact .inl before
          · exact .inr (List.mem_singleton.1 last)
      · exact .inl member
  refine follows.sound sound (fun other member => ?_) fun other stored' member => ?_
  · rcases queued other member with before | rfl
    · exact sound.queuedBelow other before
    · exact same ▸ sound.below effect stored
  · rcases queued other.id member with before | equal
    · obtain ⟨earlier, origin, becomes⟩ := follows.origin stored'
      have ended := sound.queuedOver earlier origin (becomes.id ▸ before)
      cases alive : other.isLive with
      | false => rfl
      | true =>
        rw [becomes.isLive (sound.attached earlier origin) alive] at ended
        exact absurd ended (by decide)
    · rw [Effect.isLive, state_release sound stored' equal]
      exact EffectState.not_isLive_of_isTerminal final

/-- A new instance with the next number keeps a roster sound. -/
theorem Sound.insert (sound : roster.Sound next owner) {effect : Effect}
    (numbered : effect.id.raw = next) (placed : effect.target = owner)
    (attached : effect.state ≠ .pending)
    (full : effect.magnitudes.length = effect.definition.modifiers.length) :
    (roster.insert effect).Sound (next + 1) owner where
  ordered := by
    refine List.pairwise_append.2 ⟨sound.ordered, List.pairwise_singleton _ _, ?_⟩
    intro earlier stored last member
    rw [List.mem_singleton.1 member, numbered]
    exact sound.below earlier stored
  below other stored := by
    rcases List.mem_append.1 stored with before | last
    · exact Nat.lt_succ_of_lt (sound.below other before)
    · rw [List.mem_singleton.1 last, numbered]
      exact Nat.lt_succ_self next
  placed other stored := by
    rcases List.mem_append.1 stored with before | last
    · exact sound.placed other before
    · rwa [List.mem_singleton.1 last]
  attached other stored := by
    rcases List.mem_append.1 stored with before | last
    · exact sound.attached other before
    · rwa [List.mem_singleton.1 last]
  full other stored := by
    rcases List.mem_append.1 stored with before | last
    · exact sound.full other before
    · rwa [List.mem_singleton.1 last]
  queuedBelow key queued := Nat.lt_succ_of_lt (sound.queuedBelow key queued)
  queuedOver other stored queued := by
    rcases List.mem_append.1 stored with before | last
    · exact sound.queuedOver other before queued
    · have less := sound.queuedBelow other.id queued
      rw [List.mem_singleton.1 last, numbered] at less
      exact absurd less (Nat.lt_irrefl _)

/-- A new number finds the new instance, and every other number what it found before. -/
theorem Sound.get?_insert (sound : roster.Sound next owner) {effect : Effect}
    (numbered : effect.id.raw = next) (key : EffectId) : (roster.insert effect).get? key =
      if key = effect.id then some effect else roster.get? key := by
  unfold get? EffectRoster.insert
  rw [List.find?_append]
  by_cases same : key = effect.id
  · have absent : roster.effects.find? (·.id == key) = none := by
      refine List.find?_eq_none.2 fun other stored => ?_
      have less := sound.below other stored
      rw [← numbered] at less
      intro equal
      rw [beq_iff_eq.1 equal, same] at less
      exact Nat.lt_irrefl _ less
    subst same
    simp [absent]
  · have differs : effect.id ≠ key := fun equal => same equal.symm
    simp [same, differs]

/-- Ending a tick drops nothing live. -/
theorem live_endTick (sound : roster.Sound next owner) : roster.endTick.live = roster.live := by
  simp only [live, endTick, List.filter_filter]
  refine List.filter_congr fun effect stored => ?_
  cases queued : roster.queued.contains effect.id with
  | false => simp
  | true => simp [sound.queuedOver effect stored (by simpa using queued)]

/-- Ending a tick gives a follower. -/
theorem follows_endTick (roster : EffectRoster) : roster.Follows roster.endTick :=
  ⟨id, fun effect _ => .refl effect, by simp [endTick]⟩

/-- Ending a tick keeps a roster sound. -/
theorem Sound.endTick (sound : roster.Sound next owner) : roster.endTick.Sound next owner :=
  (follows_endTick roster).sound sound (by simp [EffectRoster.endTick])
    (by simp [EffectRoster.endTick])

/-- What a number finds on one roster is a later form of what it found on another, and only what was
live there is live. -/
structure Thins (before after : EffectRoster) : Prop where
  /-- A number finds a later form of what it found. -/
  get? : ∀ key effect, after.get? key = some effect →
    ∃ earlier, before.get? key = some earlier ∧ earlier.Becomes effect
  /-- What is live was live. -/
  liveIds : after.liveIds.Sublist before.liveIds

namespace Thins

/-- A roster that stores the same instances. -/
theorem of_eq (same : after.effects = before.effects) : before.Thins after := by
  obtain ⟨effects, ticking, queued⟩ := after
  subst same
  exact ⟨fun _ effect found => ⟨effect, found, .refl effect⟩, .refl _⟩

/-- One roster after another. -/
theorem trans {first second third : EffectRoster} (earlier : first.Thins second)
    (later : second.Thins third) : first.Thins third := by
  refine ⟨fun key effect found => ?_, later.liveIds.trans earlier.liveIds⟩
  obtain ⟨between, was, onward⟩ := later.get? key effect found
  obtain ⟨first, stored, becomes⟩ := earlier.get? key between was
  exact ⟨first, stored, becomes.trans onward⟩

/-- No more instances are live. -/
theorem length_le (thins : before.Thins after) : after.live.length ≤ before.live.length := by
  have fewer := thins.liveIds.length_le
  rwa [EffectRoster.liveIds, EffectRoster.liveIds, List.length_map, List.length_map] at fewer

/-- A roster from which all instances of some numbers are dropped. -/
theorem of_filter (keep : EffectId → Bool)
    (kept : after.effects = before.effects.filter fun effect => keep effect.id) :
    before.Thins after := by
  refine ⟨fun key effect found => ⟨effect, ?_, .refl effect⟩, ?_⟩
  · have number := (mem_of_get? found).2
    rw [EffectRoster.get?, kept, List.find?_filter] at found
    have stays : keep key = true := by
      have both := List.find?_some found
      rw [decide_eq_true_eq] at both
      exact number ▸ both.1
    rw [← found, EffectRoster.get?]
    congr 1
    funext other
    by_cases same : other.id = key
    · simp [same, stays]
    · simp [same]
  · rw [EffectRoster.liveIds, EffectRoster.liveIds, live, live, kept]
    exact (List.filter_sublist.filter _).map _

end Thins

/-- Only the found instance is changed. -/
theorem exists_changeFirst {effects : List Effect} {effect : Effect}
    (found : effects.find? (·.id == key) = some effect) :
    ∃ left right, effects = left ++ effect :: right ∧
      ∀ change, changeFirst key change effects = left ++ change effect :: right := by
  induction effects with
  | nil => cases found
  | cons first rest ih =>
    by_cases here : (first.id == key) = true
    · simp only [List.find?_cons, here] at found
      cases found
      exact ⟨[], rest, rfl, fun change => by simp [changeFirst, here]⟩
    · simp only [List.find?_cons, here] at found
      obtain ⟨left, right, rfl, changed⟩ := ih found
      exact ⟨first :: left, right, rfl, fun change => by simp [changeFirst, here, changed]⟩

/-- A later form of an instance in its place, live only if it was. -/
theorem thins_modify {change : Effect → Effect}
    (becomes : ∀ effect, roster.get? key = some effect → effect.Becomes (change effect) ∧
      ((change effect).isLive = true → effect.isLive = true)) :
    roster.Thins (roster.modify key change) := by
  cases found : roster.get? key with
  | none =>
    exact .of_eq (congrArg EffectRoster.effects (modify_of_missing found change))
  | some effect =>
    obtain ⟨later, alive⟩ := becomes effect found
    have number := later.id.trans (mem_of_get? found).2
    refine ⟨fun other touched stored => ?_, ?_⟩
    · rw [modify_of_get? found, get?_replaced found number] at stored
      split at stored
      · next same =>
        cases stored
        exact ⟨effect, same ▸ found, later⟩
      · exact ⟨touched, stored, .refl touched⟩
    · obtain ⟨left, right, whole, changed⟩ := exists_changeFirst found
      rw [liveIds, liveIds, live, live, modify, changed, whole]
      simp only [List.filter_append, List.map_append, List.filter_cons]
      refine .append (.refl _) ?_
      by_cases live : (change effect).isLive = true
      · simp [live, alive live, later.id]
      · rw [if_neg live]
        split
        · exact .cons _ (.refl _)
        · exact .refl _

/-- If a live instance ends, fewer are live. -/
theorem length_live_ended {state : EffectState} {effect : Effect}
    (found : roster.get? key = some effect) (live : effect.isLive = true)
    (final : state.isTerminal = true) :
    (roster.modify key (·.ended state)).live.length < roster.live.length := by
  have ended : (effect.ended state).isLive = false := EffectState.not_isLive_of_isTerminal final
  obtain ⟨left, right, whole, changed⟩ := exists_changeFirst found
  rw [EffectRoster.live, EffectRoster.live, modify, changed, whole]
  simp [List.filter_append, live, ended]

/-- Dropping an instance, or queueing that. -/
theorem thins_remove (roster : EffectRoster) (key : EffectId) :
    roster.Thins (roster.remove key).2 := by
  unfold remove
  split
  · exact .of_eq rfl
  · split
    · exact .of_eq rfl
    · exact .of_filter (· != key) rfl

/-- Dropping what is queued. -/
theorem thins_endTick (roster : EffectRoster) : roster.Thins roster.endTick :=
  .of_filter (!roster.queued.contains ·) rfl

end EffectRoster

end SkillEngine
