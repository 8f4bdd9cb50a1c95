import SkillEngine.Proofs.Roster

/-!
# Removals that wait

While a roster is ticked, an instance that ends stays stored until the tick is over. A roster is
*exact* when what waits to be dropped is what has ended. Its *prompt* form stores the live instances
alone and is in no tick, so a removal drops at once there. Whatever is done to a roster and to its
prompt form keeps the two in step, and no look-up of live instances tells them apart.
-/

namespace SkillEngine

namespace EffectRoster

/-- What waits to be dropped is exactly what has ended, each once, and nothing waits outside a
tick. -/
structure Exact (roster : EffectRoster) : Prop where
  /-- A stored instance waits to be dropped if and only if it has ended. -/
  ended : ∀ effect ∈ roster.effects, effect.id ∈ roster.queued ↔ effect.isLive = false
  /-- What waits is stored. -/
  stored : ∀ key ∈ roster.queued, ∃ effect ∈ roster.effects, effect.id = key
  /-- Nothing waits twice. -/
  once : roster.queued.Nodup
  /-- Nothing waits outside a tick. -/
  idle : roster.ticking = false → roster.queued = []

/-- The roster that every removal would have left at once, outside a tick. -/
def prompt (roster : EffectRoster) : EffectRoster := ⟨roster.live, false, []⟩

/-- The roster kept out of its tick. -/
def idled (roster : EffectRoster) : EffectRoster := { roster with ticking := false }

/-- The roster with every instance changed in its place. -/
def update (roster : EffectRoster) (change : Effect → Effect) : EffectRoster :=
  { roster with effects := roster.effects.map change }

/-- No look-up of live instances tells two rosters apart. -/
structure LooksLike (first second : EffectRoster) : Prop where
  /-- The same instances are live, in the same order. -/
  live : first.live = second.live
  /-- As many are live. -/
  size : first.size = second.size
  /-- They have the same numbers. -/
  liveIds : first.liveIds = second.liveIds
  /-- An application stacks onto the same one. -/
  stackable : ∀ skill node definition source,
    first.findStackable? skill node definition source =
      second.findStackable? skill node definition source
  /-- The same ones match some tags. -/
  matching : ∀ tags, first.matching tags = second.matching tags
  /-- The same ones violate their requirement. -/
  violating : ∀ holds, first.violating holds = second.violating holds

variable {roster : EffectRoster} {next : Nat} {owner : EntityId} {key : EffectId}
  {change : Effect → Effect} {effect : Effect} {state : EffectState}

/-- Every look-up passes over what is not live. -/
theorem LooksLike.of_live {first second : EffectRoster} (same : first.live = second.live) :
    first.LooksLike second where
  live := same
  size := congrArg List.length same
  liveIds := by simp only [EffectRoster.liveIds, same]
  stackable skill node definition source := by simp only [findStackable?, same]
  matching tags := by simp only [EffectRoster.matching, same]
  violating holds := by simp only [EffectRoster.violating, same]

/-- A roster looks like its prompt form. -/
theorem looksLike_prompt (roster : EffectRoster) : roster.prompt.LooksLike roster :=
  .of_live (List.filter_eq_self.2 fun _ member => (List.mem_filter.1 member).2)

/-- A roster that is in no tick is kept out of it. -/
theorem idled_of_idle (idle : roster.ticking = false) : roster.idled = roster := by
  unfold idled
  rw [← idle]

/-- A number finds what its instance has become in its place. -/
theorem get?_update (kept : ∀ effect ∈ roster.effects, (change effect).id = effect.id)
    (key : EffectId) : (roster.update change).get? key = (roster.get? key).map change := by
  obtain ⟨effects, ticking, queued⟩ := roster
  simp only [EffectRoster.update, get?] at kept ⊢
  induction effects with
  | nil => rfl
  | cons effect rest ih =>
    have same := kept effect List.mem_cons_self
    have onward := ih fun other member => kept other (List.mem_cons_of_mem _ member)
    by_cases here : effect.id = key
    · simp [same, here]
    · simpa [same, here] using onward

/-- A number finds a live instance in the prompt form if and only if it finds one in the roster. -/
theorem any_isLive_prompt (sound : roster.Sound next owner) (key : EffectId) :
    (roster.prompt.get? key).any (·.isLive) = (roster.get? key).any (·.isLive) := by
  refine Bool.eq_iff_iff.2 ⟨fun lives => ?_, fun lives => ?_⟩
  · obtain ⟨effect, found, live⟩ := (Option.any_eq_true _ _).1 lives
    obtain ⟨member, rfl⟩ := mem_of_get? found
    rw [sound.get?_eq (List.mem_filter.1 member).1]
    exact live
  · obtain ⟨effect, found, live⟩ := (Option.any_eq_true _ _).1 lives
    obtain ⟨stored, same⟩ := mem_of_get? found
    have some : (roster.prompt.get? key).isSome = true :=
      List.find?_isSome.2 ⟨effect, List.mem_filter.2 ⟨stored, live⟩, by simp [same]⟩
    obtain ⟨other, there⟩ := Option.isSome_iff_exists.1 some
    rw [there]
    exact (List.mem_filter.1 (mem_of_get? there).1).2

/-- Nothing waits where nothing is stored. -/
theorem exact_empty : EffectRoster.empty.Exact := by
  constructor <;> simp [EffectRoster.empty]

/-- Nothing waits in a prompt form. -/
theorem exact_prompt (roster : EffectRoster) : roster.prompt.Exact where
  ended effect member := by simp [prompt, (List.mem_filter.1 member).2]
  stored key waits := by cases waits
  once := List.nodup_nil
  idle _ := rfl

namespace Exact

/-- Ending a tick leaves the prompt form: nothing live is dropped, and nothing else is kept. -/
theorem endTick (exact : roster.Exact) : roster.endTick = roster.prompt := by
  have kept : (roster.effects.filter fun effect => !roster.queued.contains effect.id) =
      roster.live := by
    refine List.filter_congr fun effect member => ?_
    have waits := exact.ended effect member
    cases live : effect.isLive with
    | true => simpa [live] using waits
    | false => simpa [live] using waits
  unfold EffectRoster.endTick prompt
  rw [kept]

/-- Outside a tick a roster is its prompt form. -/
theorem prompt_of_idle (exact : roster.Exact) (idle : roster.ticking = false) :
    roster.prompt = roster := by
  rw [← exact.endTick, EffectRoster.endTick, exact.idle idle]
  obtain ⟨effects, ticking, queued⟩ := roster
  cases idle
  cases exact.idle rfl
  simp

/-- Where what waits has ended, a number waits if and only if its instance is in a last state. -/
theorem mem_queued (exact : roster.Exact) (sound : roster.Sound next owner) (key : EffectId) :
    key ∈ roster.queued ↔
      ∃ effect ∈ roster.effects, effect.id = key ∧ effect.state.isTerminal = true := by
  have last {effect : Effect} (stored : effect ∈ roster.effects) :
      effect.isLive = false ↔ effect.state.isTerminal = true := by
    rw [Effect.isLive, EffectState.isLive_eq_not_isTerminal (sound.attached effect stored)]
    simp
  refine ⟨fun waits => ?_, fun listed => ?_⟩
  · obtain ⟨effect, stored, rfl⟩ := exact.stored key waits
    exact ⟨effect, stored, rfl, (last stored).1 ((exact.ended effect stored).1 waits)⟩
  · obtain ⟨effect, stored, same, final⟩ := listed
    exact same ▸ (exact.ended effect stored).2 ((last stored).2 final)

/-- Changes in place that keep numbers and liveness. -/
theorem update (exact : roster.Exact) (kept : ∀ effect ∈ roster.effects,
    (change effect).id = effect.id ∧ (change effect).isLive = effect.isLive) :
    (roster.update change).Exact where
  ended after member := by
    obtain ⟨before, stored, rfl⟩ := List.mem_map.1 member
    obtain ⟨id, live⟩ := kept before stored
    rw [id, live]
    exact exact.ended before stored
  stored key waits := by
    obtain ⟨before, stored, same⟩ := exact.stored key waits
    exact ⟨_, List.mem_map_of_mem stored, (kept before stored).1.trans same⟩
  once := exact.once
  idle := exact.idle

/-- Storing a new live instance. -/
theorem insert (exact : roster.Exact) (sound : roster.Sound next owner)
    (numbered : effect.id.raw = next) (live : effect.isLive = true) :
    (roster.insert effect).Exact where
  ended other member := by
    rcases List.mem_append.1 member with before | last
    · exact exact.ended other before
    · rw [List.mem_singleton.1 last, live]
      have fresh : effect.id ∉ roster.queued := fun waits => by
        have less := sound.queuedBelow effect.id waits
        rw [numbered] at less
        exact Nat.lt_irrefl _ less
      exact iff_of_false fresh (by decide)
  stored key waits := by
    obtain ⟨before, stored, same⟩ := exact.stored key waits
    exact ⟨before, List.mem_append_left _ stored, same⟩
  once := exact.once
  idle := exact.idle

end Exact

/-- A change of the first instance of a number does not matter where the number is left out. -/
theorem filter_changeFirst (key : EffectId) {change : Effect → Effect}
    (keeps : ∀ effect, (change effect).id = effect.id) (effects : List Effect) :
    (changeFirst key change effects).filter (·.id != key) = effects.filter (·.id != key) := by
  induction effects with
  | nil => rfl
  | cons effect rest ih =>
    by_cases here : effect.id = key
    · simp [changeFirst, here, keeps]
    · simp [changeFirst, here, ih]

/-- Outside a tick an instance that ends is dropped. -/
theorem release_of_idle (idle : roster.ticking = false) (key : EffectId) (state : EffectState) :
    roster.release key state =
      { roster with effects := roster.effects.filter (·.id != key) } := by
  have keeps (effect : Effect) : (effect.ended state).id = effect.id := rfl
  have dropped := filter_changeFirst key keeps roster.effects
  unfold release remove
  split
  · next absent =>
    rw [← dropped]
    have none : ∀ effect ∈ (roster.modify key (·.ended state)).effects,
        (effect.id != key) = true := by simpa using absent
    exact congrArg (fun effects => { roster with effects }) (List.filter_eq_self.2 none).symm
  · split
    · next ticks => exact absurd (idle.symm.trans ticks) (by decide)
    · exact congrArg (fun effects => { roster with effects }) dropped

/-- Ending an instance begins and ends no tick. -/
theorem ticking_release (roster : EffectRoster) (key : EffectId) (state : EffectState) :
    (roster.release key state).ticking = roster.ticking := by
  unfold release remove
  split
  · rfl
  · split <;> rfl

/-- In a tick a live instance that ends waits to be dropped. -/
theorem release_of_ticking (exact : roster.Exact) (ticks : roster.ticking = true)
    (found : roster.get? key = some effect) (live : effect.isLive = true) (state : EffectState) :
    roster.release key state =
      ⟨(roster.modify key (·.ended state)).effects, true, roster.queued ++ [key]⟩ := by
  obtain ⟨stored, rfl⟩ := mem_of_get? found
  have waits : effect.id ∉ roster.queued := fun waits =>
    absurd (live.symm.trans ((exact.ended effect stored).1 waits)) (by decide)
  have present :
      (roster.modify effect.id (·.ended state)).effects.any (·.id == effect.id) = true := by
    have placed : (roster.modify effect.id (·.ended state)).get? effect.id =
        some (effect.ended state) := by
      have keeps (other : Effect) : (other.ended state).id = other.id := rfl
      rw [get?_modify keeps, if_pos rfl, found]
      rfl
    exact List.any_eq_true.2 ⟨_, (mem_of_get? placed).1, by simp [Effect.ended]⟩
  have ticking : (roster.modify effect.id (·.ended state)).ticking = true := ticks
  have queued : (roster.modify effect.id (·.ended state)).queued.contains effect.id = false := by
    simpa [modify] using waits
  unfold release remove
  rw [present, ticking, queued]
  rfl

/-- Ending a live instance. -/
theorem Exact.release (exact : roster.Exact) (sound : roster.Sound next owner)
    (found : roster.get? key = some effect) (live : effect.isLive = true)
    (final : state.isTerminal = true) : (roster.release key state).Exact := by
  cases ticks : roster.ticking with
  | false =>
    have nothing := exact.idle ticks
    rw [release_of_idle ticks]
    refine ⟨fun other member => exact.ended other (List.mem_filter.1 member).1, fun key waits => ?_,
      exact.once, exact.idle⟩
    have waits : key ∈ roster.queued := waits
    rw [nothing] at waits
    cases waits
  | true =>
    rw [release_of_ticking exact ticks found live]
    obtain ⟨stored, rfl⟩ := mem_of_get? found
    refine ⟨fun other member => ?_, fun other waits => ?_, ?_, fun idle => ?_⟩
    · obtain ⟨earlier, before, rfl⟩ := mem_modify sound member
      by_cases same : earlier.id = effect.id
      · rw [if_pos same]
        exact iff_of_true (by simp [Effect.ended, same])
          (EffectState.not_isLive_of_isTerminal final)
      · rw [if_neg same, ← exact.ended earlier before]
        simp [same]
    · have kept {earlier : Effect} (before : earlier ∈ roster.effects) :
          ∃ after ∈ (roster.modify effect.id (·.ended state)).effects, after.id = earlier.id := by
        rw [modify, changeFirst_eq_map sound.distinct]
        exact ⟨_, List.mem_map_of_mem before, by split <;> rfl⟩
      rcases List.mem_append.1 waits with before | last
      · obtain ⟨earlier, there, rfl⟩ := exact.stored other before
        exact kept there
      · rw [List.mem_singleton.1 last]
        exact kept stored
    · refine List.nodup_append.2 ⟨exact.once, by simp, fun first before second last same => ?_⟩
      rw [same, List.mem_singleton.1 last] at before
      exact absurd (live.symm.trans ((exact.ended effect stored).1 before)) (by decide)
    · cases idle

/-- Changes in place that keep liveness. -/
theorem prompt_update
    (kept : ∀ effect ∈ roster.effects, (change effect).isLive = effect.isLive) :
    (roster.update change).prompt = roster.prompt.update change := by
  have same : (roster.update change).live = roster.live.map change := by
    unfold live EffectRoster.update
    rw [List.filter_map]
    exact congrArg (List.map change) (List.filter_congr kept)
  rw [prompt, same]
  rfl

/-- Storing a live instance. -/
theorem prompt_insert (live : effect.isLive = true) :
    (roster.insert effect).prompt = roster.prompt.insert effect := by
  have same : (roster.insert effect).live = roster.live ++ [effect] := by
    unfold EffectRoster.live EffectRoster.insert
    rw [List.filter_append, List.filter_cons_of_pos live]
    rfl
  rw [prompt, same]
  rfl

/-- Ending an instance drops it from the prompt form at once. -/
theorem prompt_release (sound : roster.Sound next owner) (final : state.isTerminal = true)
    (key : EffectId) : (roster.release key state).prompt = roster.prompt.release key state := by
  have idle : roster.prompt.ticking = false := rfl
  rw [release_of_idle idle, prompt, live_release sound final]
  refine congrArg (fun effects => (⟨effects, false, []⟩ : EffectRoster)) ?_
  refine List.filter_congr fun effect _ => ?_
  by_cases same : effect.id = key <;> simp [same]

end EffectRoster

end SkillEngine
