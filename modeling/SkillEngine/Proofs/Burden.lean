import SkillEngine.Proofs.Effort
import SkillEngine.Proofs.Session

/-!
# How much work a cascade has left

What remains of a cascade is measured as an amount of work. A frame counts at a level that depends
on its kind and on how many hops its context has left: each hop is worth more levels than all that
can happen between two of them. A live effect counts below the frame that attached it and above the
ports that it may still fire, and a tag change that waits counts above the re-check that it leads
to. What belongs to requests and ticks counts above all walks.
-/

namespace SkillEngine

namespace World

/-- The level at which a context fires ports. -/
def hop (world : World) (context : Context) : ℕ :=
  6 + 8 * (world.config.maxCascadeDepth.toNat - context.depth.toNat)

/-- The level at which an effect fires its ports, the lowest one if there is none. -/
def reach (world : World) (handle : EffectHandle) : ℕ :=
  match world.effect? handle with
  | none => 6
  | some effect => world.hop effect.context

/-- The level of ticks, above all walks. -/
def ceiling (world : World) : ℕ := 14 + 8 * world.config.maxCascadeDepth.toNat

/-- The level of ticks depends on the settings alone. -/
theorem ceiling_congr {world after : World} (config : after.config = world.config) :
    after.ceiling = world.ceiling := by
  rw [ceiling, ceiling, config]

end World

namespace Frame

/-- The frames that belong to requests of the host and to ticks. -/
def isTimed : Frame → Bool
  | .perform request => !request.isNested
  | .tickEntity .. | .tickEffect .. | .endEntityTick _ | .ticks .. | .beginTick _ | .endTick _ =>
    true
  | _ => false

/-- The level of work that a frame is. -/
def level (world : World) : Frame → ℕ
  | .answer _ => 0
  | .finish .. | .script .. | .scripted .. => 1
  | .enforce _ | .removeEach .. => 2
  | .drain | .cleanse .. => 3
  | .expire _ => 4
  | .expireDue _ => 5
  | .fire firing => world.hop firing.context
  | .pulses handle _ => world.reach handle + 1
  | .write application _ | .attach application .. => world.hop application.context + 3
  | .apply application _ => world.hop application.context + 4
  | .applyEach application .. | .applied application .. => world.hop application.context + 5
  | .visit _ _ context => world.hop context + 6
  | .branch _ context _ | .enter _ _ context => world.hop context + 7
  | .tickEffect .. | .endEntityTick _ | .endTick _ => world.ceiling
  | .tickEntity .. => world.ceiling + 1
  | .beginTick _ => world.ceiling + 2
  | .ticks .. => world.ceiling + 3
  | .perform request => if request.isNested then 4 else world.ceiling + 4

/-- How many pieces of work of its level a frame is. -/
def size : Frame → ℕ
  | .branch _ _ nodes => nodes.length + 1
  | .applyEach _ targets _ => 2 * targets.length + 1
  | .applied _ targets _ => 2 * targets.length + 2
  | .removeEach _ ids _ => ids.length + 1
  | .pulses _ count | .ticks _ count => count + 1
  | _ => 1

/-- The work that a frame is. -/
noncomputable def effort (world : World) (frame : Frame) : Effort :=
  .pieces (frame.level world) frame.size

/-- The frames that are replaced by work of lower levels alone. -/
def isPlain : Frame → Bool
  | .branch .. | .applyEach .. | .applied .. | .removeEach .. | .pulses .. | .ticks ..
  | .attach .. | .finish .. | .drain => false
  | _ => true

variable {world after : World} {frame next : Frame}

/-- Hops depend on the depth alone. -/
theorem hop_of_depth (world : World) {first second : Context} (same : first.depth = second.depth) :
    world.hop first = world.hop second := by
  rw [World.hop, World.hop, same]

/-- Hops depend on the depth limit alone. -/
theorem hop_congr (config : after.config = world.config) (context : Context) :
    after.hop context = world.hop context := by
  rw [World.hop, World.hop, config]

/-- Walks are below the level of ticks. -/
theorem hop_le (world : World) (context : Context) : world.hop context + 8 ≤ world.ceiling := by
  unfold World.hop World.ceiling
  omega

/-- The ports of effects are below the level of ticks. -/
theorem reach_le (world : World) (handle : EffectHandle) :
    world.reach handle + 8 ≤ world.ceiling := by
  unfold World.reach
  split
  · unfold World.ceiling
    omega
  · exact hop_le world _

/-- What does not belong to requests and ticks is below their level. -/
theorem level_lt_ceiling (world : World) (untimed : frame.isTimed = false) :
    frame.level world < world.ceiling := by
  have low : 14 ≤ world.ceiling := Nat.le_add_right _ _
  cases frame with
  | fire firing =>
    have walk := hop_le world firing.context
    simp only [level]
    omega
  | pulses handle count =>
    have ports := reach_le world handle
    simp only [level]
    omega
  | write application | attach application | apply application | applyEach application
  | applied application =>
    have walk := hop_le world application.context
    simp only [level]
    omega
  | visit _ _ context | branch _ context | enter _ _ context =>
    have walk := hop_le world context
    simp only [level]
    omega
  | perform request =>
    have nested : request.isNested = true := by simpa [isTimed] using untimed
    simp only [level, nested, if_true]
    omega
  | tickEntity | tickEffect | endEntityTick | ticks | beginTick | endTick => cases untimed
  | _ =>
    simp only [level]
    omega

/-- What belongs to requests and ticks is of their level at least. -/
theorem ceiling_le_level (world : World) (timed : frame.isTimed = true) :
    world.ceiling ≤ frame.level world := by
  cases frame with
  | perform request =>
    have host : request.isNested = false := by simpa [isTimed] using timed
    simp only [level, host]
    exact Nat.le_add_right _ 4
  | tickEntity | tickEffect | endEntityTick | ticks | beginTick | endTick =>
    simp only [level]
    omega
  | _ => cases timed

/-- Everything but an answer is above it. -/
theorem level_pos (world : World) (busy : ∀ reply, frame ≠ .answer reply) :
    0 < frame.level world := by
  cases frame with
  | answer reply => exact absurd rfl (busy reply)
  | perform request =>
    simp only [level]
    split <;> omega
  | fire | pulses | write | attach | apply | applyEach | applied | visit | branch | enter =>
    simp only [level, World.hop, World.reach]
    omega
  | tickEntity | tickEffect | endEntityTick | ticks | beginTick | endTick =>
    simp only [level, World.ceiling]
    omega
  | _ => exact Nat.succ_pos _

/-- One hop further, below a limit. -/
theorem toNat_descend {context : Context} {limit : UInt32} (room : context.depth < limit) :
    context.descend.depth.toNat = context.depth.toNat + 1 := by
  have inside : context.depth.toNat < limit.toNat := UInt32.lt_iff_toNat_lt.1 room
  have bounded := limit.toNat_lt
  have sum : (context.depth + 1).toNat = (context.depth.toNat + 1) % 2 ^ 32 :=
    UInt32.toNat_add _ _
  have small : context.depth.toNat + 1 < 2 ^ 32 := by omega
  exact sum.trans (Nat.mod_eq_of_lt small)

/-- One hop further is lower than all that happens between two hops. -/
theorem hop_descend {context : Context} (room : context.depth < world.config.maxCascadeDepth) :
    world.hop context.descend + 7 < world.hop context := by
  have inside : context.depth.toNat < world.config.maxCascadeDepth.toNat :=
    UInt32.lt_iff_toNat_lt.1 room
  unfold World.hop
  rw [toNat_descend room]
  omega

/-- What a request of the host starts with is below it. -/
theorem level_opening (world : World) (opening : next.isOpening = true) :
    next.level world < world.ceiling + 4 := by
  cases timed : next.isTimed with
  | false => exact Nat.lt_add_right 4 (level_lt_ceiling world timed)
  | true =>
    cases next with
    | tickEntity => exact Nat.add_lt_add_left (by decide) world.ceiling
    | perform | tickEffect | endEntityTick | ticks | beginTick | endTick => cases opening
    | _ => cases timed

/-- What a plain frame leaves is of lower levels. -/
theorem Leaves.lower (leaves : frame.Leaves world next) (plain : frame.isPlain = true)
    (config : after.config = world.config) : next.level after < frame.level world := by
  have ceiling := World.ceiling_congr config
  have timed (untimed : next.isTimed = false) : next.level after < world.ceiling :=
    ceiling ▸ level_lt_ceiling after untimed
  cases leaves with
  | answer busy => exact level_pos world busy
  | branch room =>
    simp only [level, hop_congr config]
    have lower := hop_descend room
    omega
  | enter =>
    simp only [level, hop_congr config]
    omega
  | targets same =>
    simp only [level, hop_congr config, same]
    omega
  | port _ depth =>
    simp only [level, hop_congr config, hop_of_depth world depth]
    omega
  | task nested =>
    simp only [level, nested, if_true, World.hop]
    omega
  | host host opening =>
    have below := level_opening after opening
    simp only [level, host]
    rw [ceiling] at below
    exact below
  | activate => exact Nat.lt_add_right 4 (timed rfl)
  | tick =>
    simp only [level, ceiling, Request.isNested, Bool.false_eq_true, if_false]
    omega
  | cleansing => exact Nat.lt_succ_self 3
  | recheck nested =>
    simp only [level, nested, if_true]
    omega
  | cleanse =>
    simp only [level, World.hop]
    omega
  | write | attach =>
    simp only [level, hop_congr config]
    omega
  | overflow found live =>
    simp only [level, hop_congr config]
    exact Nat.lt_add_of_pos_right (by decide)
  | written _ depth =>
    simp only [level, hop_congr config, hop_of_depth world depth]
    omega
  | due | expired | removeEach | violating =>
    simp only [level]
    omega
  | tickEffect | endEntityTick | tickEntity | endTick =>
    simp only [level, ceiling]
    omega
  | ticked | expireDue => exact timed rfl
  | visit | nodes | apply | applied | applyEach | initial | pulse | attached | periodic | pulses
  | last | ended | remove | removing | changed | drain | ticks | beforeTick | beginTick =>
    cases plain

end Frame

namespace World

/-- Where the live effects on registered entities are found. -/
def liveHandles (world : World) : Finset EffectHandle :=
  world.registry.entities.keys.toFinset.biUnion fun id =>
    ((world.entity? id).toList.flatMap fun entity =>
      entity.effects.live.map fun effect => ⟨id, effect.id⟩).toFinset

/-- The work that live effects may still start. -/
noncomputable def ongoing (world : World) : Effort :=
  ∑ handle ∈ world.liveHandles, .pieces (world.reach handle + 2) 1

/-- The work that waiting tag changes are. -/
noncomputable def queued (world : World) : Effort := .pieces 3 world.tagChanges.length

variable {world after : World} {frame : Frame} {handle : EffectHandle}

/-- The live effects are found where they are live. -/
theorem Sound.mem_liveHandles (sound : world.Sound) :
    handle ∈ world.liveHandles ↔ world.isLive handle = true := by
  unfold liveHandles
  rw [Finset.mem_biUnion]
  constructor
  · rintro ⟨id, _, member⟩
    obtain ⟨entity, found, carried⟩ := List.mem_flatMap.1 (List.mem_toFinset.1 member)
    have registered : world.entity? id = some entity := Option.mem_toList.1 found
    obtain ⟨effect, live, rfl⟩ := List.mem_map.1 carried
    obtain ⟨stored, alive⟩ := List.mem_filter.1 live
    have placed := (sound.rosters _ _ registered).get?_eq stored
    rw [isLive, effect?_eq registered]
    simpa [placed] using alive
  · intro live
    obtain ⟨effect, found, alive⟩ := exists_of_isLive live
    obtain ⟨entity, registered, stored, same⟩ := of_effect? found
    refine ⟨handle.target, List.mem_toFinset.2 ((Dict.mem_keys_iff _ _).2 ?_),
      List.mem_toFinset.2 (List.mem_flatMap.2 ⟨entity, Option.mem_toList.2 registered,
        List.mem_map.2 ⟨effect, List.mem_filter.2
          ⟨(EffectRoster.mem_of_get? stored).1, alive⟩, ?_⟩⟩)⟩
    · exact Option.isSome_iff_exists.2 ⟨entity, registered⟩
    · rw [same]

/-- What is live has a number given before. -/
theorem Sound.live_below (sound : world.Sound) (live : world.isLive handle = true) :
    handle.id.raw < world.nextEffect := by
  obtain ⟨effect, found, _⟩ := exists_of_isLive live
  exact sound.numbered_below found

/-- Every port of an effect fires at the lowest level at least. -/
theorem six_le_hop (world : World) (context : Context) : 6 ≤ world.hop context :=
  Nat.le_add_right _ _

/-- Every port of an effect fires at the lowest level at least, found or not. -/
theorem six_le_reach (world : World) (handle : EffectHandle) : 6 ≤ world.reach handle := by
  unfold reach
  split
  · exact Nat.le_refl 6
  · exact six_le_hop world _

/-- The settings stay in every turn. -/
theorem Turn.config (turn : world.Turn frame after) : after.config = world.config := by
  cases turn with
  | quiet quiet => exact quiet.config
  | drain => rfl
  | alter alters | retag _ alters | hold alters =>
    obtain ⟨_, _, _, rfl⟩ := alters.shape
    rfl
  | regroup regroups => exact regroups.config

/-- Some tag changes at most come to wait in a turn. -/
theorem Turn.queued_le (turn : world.Turn frame after) :
    ∃ count, after.queued ≤ world.queued + .pieces 3 count := by
  have grows : ∃ count, after.tagChanges.length ≤ world.tagChanges.length + count := by
    cases turn with
    | quiet quiet => exact ⟨0, by rw [quiet.tagChanges]; exact Nat.le_refl _⟩
    | drain => exact ⟨0, Nat.zero_le _⟩
    | alter alters | retag _ alters | hold alters =>
      obtain ⟨count, same⟩ := alters.queued
      exact ⟨count, by simp [same]⟩
    | regroup regroups => exact ⟨0, by rw [regroups.tagChanges]; exact Nat.le_refl _⟩
  obtain ⟨count, longer⟩ := grows
  refine ⟨count, ?_⟩
  have more := Effort.pieces_le_pieces 3 longer
  rwa [Effort.pieces_add] at more

/-- What is not found fires at the lowest level. -/
theorem reach_none (missing : world.effect? handle = none) : world.reach handle = 6 := by
  rw [reach, missing]

/-- An effect fires at the level of its context. -/
theorem reach_some {effect : Effect} (found : world.effect? handle = some effect) :
    world.reach handle = world.hop effect.context := by
  rw [reach, found]

/-- In a walk no effect comes to fire at a higher level. -/
theorem Turn.reach_le (turn : world.Turn frame after) (sound : world.Sound)
    (untimed : frame.isTimed = false) (old : handle.id.raw < world.nextEffect) :
    after.reach handle ≤ world.reach handle := by
  have idle : ∀ timed seconds, frame ≠ .tickEffect timed seconds := by
    rintro timed seconds rfl
    cases untimed
  cases found : after.effect? handle with
  | none =>
    rw [reach_none found]
    cases before : world.effect? handle with
    | none => rw [reach_none before]
    | some effect =>
      rw [reach_some before]
      exact six_le_hop world _
  | some effect =>
    rcases turn.origin sound found with ⟨earlier, was, makes⟩ | ⟨_, _, _, rfl⟩
    · rw [reach_some found, reach_some was, makes.context idle, Frame.hop_congr turn.config]
    · obtain ⟨_, _, _, number⟩ := of_effect? found
      rw [← number] at old
      exact absurd old (Nat.lt_irrefl _)

/-- What is live after a turn was live before, or is a new effect. -/
theorem Turn.live (turn : world.Turn frame after) (sound : world.Sound)
    (live : after.isLive handle = true) : world.isLive handle = true ∨
      ∃ application duration, frame = .attach application handle.target duration ∧
        handle.id = ⟨world.nextEffect⟩ ∧
        after.reach handle = world.hop application.context := by
  obtain ⟨effect, found, alive⟩ := exists_of_isLive live
  rcases turn.origin sound found with
    ⟨earlier, was, makes⟩ | ⟨application, duration, same, rfl⟩
  · have before : earlier.isLive = true := by
      rcases makes.live with kept | ⟨live, _⟩
      · exact kept.symm.trans alive
      · exact live
    exact .inl ((isLive_eq was).trans before)
  · obtain ⟨_, _, _, number⟩ := of_effect? found
    refine .inr ⟨application, duration, same, number.symm, ?_⟩
    rw [reach_some found, Frame.hop_congr turn.config]
    rfl

/-- The live effects of a world are among some, at levels that are no higher. -/
theorem Sound.ongoing_le (sound : world.Sound) {handles : Finset EffectHandle}
    {bound : EffectHandle → ℕ} (covers : ∀ handle, world.isLive handle = true → handle ∈ handles)
    (lower : ∀ handle ∈ handles, world.reach handle ≤ bound handle) :
    world.ongoing ≤ ∑ handle ∈ handles, Effort.pieces (bound handle + 2) 1 := by
  have among : world.liveHandles ⊆ handles :=
    fun handle member => covers handle (sound.mem_liveHandles.1 member)
  calc world.ongoing
      ≤ ∑ handle ∈ handles, Effort.pieces (world.reach handle + 2) 1 :=
        Finset.sum_le_sum_of_subset_of_nonneg among fun _ _ _ => zero_le
    _ ≤ ∑ handle ∈ handles, Effort.pieces (bound handle + 2) 1 :=
        Finset.sum_le_sum fun handle member =>
          Effort.pieces_mono (Nat.add_le_add_right (lower handle member) 2) 0

/-- In a walk no live effect is added but by letting one take hold. -/
theorem Turn.ongoing_le (turn : world.Turn frame after) (sound : world.Sound)
    {admits : Request → Prop} (admitted : frame.Admitted admits) (untimed : frame.isTimed = false)
    (holds : ∀ application target duration, frame ≠ .attach application target duration) :
    after.ongoing ≤ world.ongoing := by
  refine (turn.sound sound admitted).ongoing_le (fun handle live => ?_) fun handle member => ?_
  · rcases turn.live sound live with before | ⟨_, _, same, _⟩
    · exact sound.mem_liveHandles.2 before
    · exact absurd same (holds _ _ _)
  · exact turn.reach_le sound untimed (sound.live_below (sound.mem_liveHandles.1 member))

/-- Ending a live effect gives up the work that it may still start. -/
theorem Sound.ongoing_finish (sound : world.Sound) {state : EffectState} {fires : Bool}
    {admits : Request → Prop} (admitted : (Frame.finish handle state fires).Admitted admits)
    (live : world.isLive handle = true) :
    (world.finish handle state fires).world.ongoing + .pieces (world.reach handle + 2) 1 ≤
      world.ongoing := by
  have turn := turn_finish sound handle state fires
  have others : (world.finish handle state fires).world.ongoing ≤
      ∑ other ∈ world.liveHandles.erase handle, Effort.pieces (world.reach other + 2) 1 := by
    refine (turn.sound sound admitted).ongoing_le (fun other alive => ?_) fun other member => ?_
    · refine Finset.mem_erase.2 ⟨?_, ?_⟩
      · rintro rfl
        cases alive.symm.trans (sound.isLive_finish other admitted.isTerminal fires)
      · rcases turn.live sound alive with before | ⟨_, _, same, _⟩
        · exact sound.mem_liveHandles.2 before
        · cases same
    · have before := sound.mem_liveHandles.1 (Finset.mem_of_mem_erase member)
      exact turn.reach_le sound rfl (sound.live_below before)
  calc (world.finish handle state fires).world.ongoing + .pieces (world.reach handle + 2) 1
      ≤ ∑ other ∈ world.liveHandles.erase handle, Effort.pieces (world.reach other + 2) 1 +
          .pieces (world.reach handle + 2) 1 := add_le_add_left others _
    _ = world.ongoing := Finset.sum_erase_add _ _ (sound.mem_liveHandles.2 live)

/-- A new effect fires its ports at the level of its application at most. -/
theorem Sound.reach_attach (sound : world.Sound) (application : Application) (target : EntityId)
    (duration : Float32) :
    (world.attach application target duration).world.reach ⟨target, ⟨world.nextEffect⟩⟩ ≤
      world.hop application.context := by
  have turn := turn_attach sound application target duration
  cases found : (world.attach application target duration).world.effect?
      ⟨target, ⟨world.nextEffect⟩⟩ with
  | none =>
    rw [reach_none found]
    exact six_le_hop world _
  | some effect =>
    rcases turn.origin sound found with ⟨earlier, was, _⟩ | ⟨_, _, same, rfl⟩
    · exact absurd (sound.numbered_below was) (Nat.lt_irrefl _)
    · cases same
      rw [reach_some found, Frame.hop_congr turn.config]
      exact Nat.le_refl _

/-- Letting an effect take hold adds the work that it may start. -/
theorem Sound.ongoing_attach (sound : world.Sound) (application : Application) (target : EntityId)
    (duration : Float32) : (world.attach application target duration).world.ongoing ≤
      world.ongoing + .pieces (world.hop application.context + 2) 1 := by
  have turn := turn_attach sound application target duration
  have admitted : (Frame.attach application target duration).Admitted fun _ => True := trivial
  have fresh : (⟨target, ⟨world.nextEffect⟩⟩ : EffectHandle) ∉ world.liveHandles := fun member =>
    absurd (sound.live_below (sound.mem_liveHandles.1 member)) (Nat.lt_irrefl _)
  have among : (world.attach application target duration).world.ongoing ≤
      ∑ other ∈ insert ⟨target, ⟨world.nextEffect⟩⟩ world.liveHandles,
        Effort.pieces (Function.update world.reach ⟨target, ⟨world.nextEffect⟩⟩
          (world.hop application.context) other + 2) 1 := by
    refine (turn.sound sound admitted).ongoing_le (fun other alive => ?_) fun other member => ?_
    · rcases turn.live sound alive with before | ⟨_, _, same, number, _⟩
      · exact Finset.mem_insert_of_mem (sound.mem_liveHandles.2 before)
      · cases same
        rw [← number]
        exact Finset.mem_insert_self _ _
    · by_cases new : other = ⟨target, ⟨world.nextEffect⟩⟩
      · rw [new, Function.update_self]
        exact sound.reach_attach application target duration
      · rw [Function.update_of_ne new]
        have before := (Finset.mem_insert.1 member).resolve_left new
        exact turn.reach_le sound rfl (sound.live_below (sound.mem_liveHandles.1 before))
  refine among.trans (le_of_eq ?_)
  rw [Finset.sum_insert fresh, Function.update_self, add_comm]
  congr 1
  refine Finset.sum_congr rfl fun other member => ?_
  have apart : other ≠ ⟨target, ⟨world.nextEffect⟩⟩ := fun same => fresh (same ▸ member)
  rw [Function.update_of_ne apart]

end World

end SkillEngine
