import SkillEngine.Proofs.Burden
import Mathlib.Tactic.Abel

/-!
# Every cascade ends

Each step of a cascade takes more work than it brings, counted with the work that live effects may
still start and the tag changes that wait. An effect that is removed fires its last ports at its own
depth, however deep the walk is that removed it; but it was live before, and what it may start was
counted since it took hold. Since no amount of work can shrink for ever, every cascade ends,
whatever the skills lead to.
-/

namespace SkillEngine

/-- The work that some frames are together. -/
noncomputable def Frame.total (world : World) (frames : List Frame) : Effort :=
  (frames.map (Frame.effort world)).sum

/-- The work that is not on the agenda. -/
noncomputable def World.effort (world : World) : Effort := world.ongoing + world.queued

/-- The work that a cascade has left. -/
noncomputable def Cascade.effort (cascade : Cascade) : Effort :=
  Frame.total cascade.world cascade.agenda + cascade.world.effort

namespace Frame

variable {world after : World} {frame next : Frame} {frames rest : List Frame}

/-- The work of frames in a row. -/
theorem total_append (world : World) (frames rest : List Frame) :
    total world (frames ++ rest) = total world frames + total world rest := by
  simp [total]

/-- The work of frames after a first one. -/
theorem total_cons (world : World) (frame : Frame) (rest : List Frame) :
    total world (frame :: rest) = frame.effort world + total world rest := rfl

/-- Frames of lower levels are less work. -/
theorem below_total {level : ℕ} (lower : ∀ next ∈ frames, next.level world < level) :
    Effort.Below level (total world frames) := by
  refine Effort.below_sum fun effort member => ?_
  obtain ⟨next, listed, rfl⟩ := List.mem_map.1 member
  exact Effort.below_pieces (lower next listed) _

/-- A frame is one piece of work of its level at least. -/
theorem size_pos (frame : Frame) : 0 < frame.size := by
  cases frame <;> exact Nat.succ_pos _

/-- A frame takes more work than it brings if that is of lower levels, apart from fewer pieces of
its own level. -/
theorem descends {brought lower rest : Effort} (kept : ℕ)
    (below : Effort.Below (frame.level world) lower) (fewer : kept < frame.size)
    (grows : brought ≤ lower + .pieces (frame.level world) kept + rest) :
    brought < frame.effort world + rest := by
  have less : lower + .pieces (frame.level world) kept < frame.effort world :=
    (below.add_lt_pieces kept).trans_le (Effort.pieces_le_pieces _ fewer)
  exact grows.trans_lt (add_lt_add_left less _)

/-- Work that belongs to no frame is below the level of ticks. -/
theorem below_effort (world : World) : Effort.Below world.ceiling world.effort := by
  refine .add (Effort.below_finset_sum fun handle _ => ?_) (Effort.below_pieces ?_ _)
  · have ports := reach_le world handle
    exact Effort.below_pieces (by omega) 1
  · unfold World.ceiling
    omega

/-- Only pulses depend on the effects of a world. -/
theorem level_congr (config : after.config = world.config)
    (other : ∀ handle count, frame ≠ .pulses handle count) :
    frame.level after = frame.level world := by
  have ceiling := World.ceiling_congr config
  cases frame with
  | pulses handle count => exact absurd rfl (other handle count)
  | _ => simp only [level, hop_congr config, ceiling]

/-- In a walk the remaining frames do not come to be more work. -/
theorem total_le (turn : world.Turn frame after) (sound : world.Sound)
    (untimed : frame.isTimed = false)
    (numbered : ∀ handle count, .pulses handle count ∈ rest → handle.id.raw < world.nextEffect) :
    total after rest ≤ total world rest := by
  refine List.sum_le_sum fun next member => ?_
  cases next with
  | pulses handle count =>
    have lower := turn.reach_le sound untimed (numbered handle count member)
    exact Effort.pieces_mono (Nat.add_le_add_right lower 1) count
  | _ => exact le_of_eq (congrArg (Effort.pieces · _) (level_congr turn.config (by simp)))

/-- In a tick the remaining frames come to be more work, but below the level of ticks. -/
theorem total_le_add (config : after.config = world.config) (rest : List Frame) :
    ∃ rise, Effort.Below world.ceiling rise ∧ total after rest ≤ total world rest + rise := by
  induction rest with
  | nil => exact ⟨0, Effort.below_zero _, by simp [total]⟩
  | cons next others ih =>
    obtain ⟨rise, below, less⟩ := ih
    rw [total_cons, total_cons]
    cases next with
    | pulses handle count =>
      have ceiling := World.ceiling_congr config
      have small : (Frame.pulses handle count).level after < world.ceiling :=
        ceiling ▸ level_lt_ceiling after rfl
      refine ⟨(Frame.pulses handle count).effort after + rise,
        (Effort.below_pieces small _).add below, ?_⟩
      calc (Frame.pulses handle count).effort after + total after others
          ≤ (Frame.pulses handle count).effort after + (total world others + rise) :=
            add_le_add_right less _
        _ = total world others + ((Frame.pulses handle count).effort after + rise) :=
            add_left_comm _ _ _
        _ ≤ (Frame.pulses handle count).effort world +
              (total world others + ((Frame.pulses handle count).effort after + rise)) :=
            le_add_of_nonneg_left zero_le
        _ = _ := (add_assoc _ _ _).symm
    | _ =>
      refine ⟨rise, below, ?_⟩
      rw [add_assoc]
      exact add_le_add (le_of_eq (congrArg (Effort.pieces · _) (level_congr config (by simp)))) less

/-- What a turn in a walk adds to the work that is on no agenda. -/
theorem effort_le (turn : world.Turn frame after) (sound : world.Sound)
    {admits : Request → Prop} (admitted : frame.Admitted admits) (untimed : frame.isTimed = false)
    (holds : ∀ application target duration, frame ≠ .attach application target duration) :
    ∃ count, after.effort ≤ world.effort + .pieces 3 count := by
  obtain ⟨count, more⟩ := turn.queued_le
  refine ⟨count, ?_⟩
  exact (add_le_add (turn.ongoing_le sound admitted untimed holds) more).trans
    (le_of_eq (add_assoc _ _ _).symm)

/-- What a plain frame of a walk brings is less work than it is. -/
theorem descends_plain (sound : world.Sound) (reply : Reply) {admits : Request → Prop}
    (admitted : frame.Admitted admits)
    (lawful : ∀ request, admits request → request.isLawful = true)
    (untimed : frame.isTimed = false) (plain : frame.isPlain = true) :
    total (frame.expand world reply).world (frame.expand world reply).frames +
      (frame.expand world reply).world.effort < frame.effort world + world.effort := by
  have turn := World.turn_expand sound reply (admitted.mono lawful)
  have below : Effort.Below (frame.level world)
      (total (frame.expand world reply).world (frame.expand world reply).frames) :=
    below_total fun next left => (leaves_expand sound reply admitted left).lower plain turn.config
  have still (same : (frame.expand world reply).world = world) :
      total (frame.expand world reply).world (frame.expand world reply).frames +
        (frame.expand world reply).world.effort < frame.effort world + world.effort := by
    refine descends 0 below frame.size_pos ?_
    rw [Effort.pieces_zero, add_zero, same]
  have high (four : 4 ≤ frame.level world)
      (holds : ∀ application target duration, frame ≠ .attach application target duration) :
      total (frame.expand world reply).world (frame.expand world reply).frames +
        (frame.expand world reply).world.effort < frame.effort world + world.effort := by
    obtain ⟨count, more⟩ := effort_le turn sound admitted untimed holds
    refine descends 0 (below.add (Effort.below_pieces four count)) frame.size_pos ?_
    rw [Effort.pieces_zero, add_zero, add_assoc, add_comm (Effort.pieces 3 count)]
    exact add_le_add_right more _
  cases frame with
  | answer | enforce | cleanse => exact still (world_expand_of_plans rfl world _)
  | script | scripted => exact admitted.elim
  | perform request =>
    have nested : request.isNested = true := by simpa [isTimed] using untimed
    exact high (by simp [level, nested]) (by simp)
  | fire | visit | enter | write | apply =>
    refine high ?_ (by simp)
    simp only [level, World.hop]
    omega
  | expire | expireDue => exact high (by simp [level]) (by simp)
  | branch | applyEach | applied | removeEach | pulses | attach | finish | drain => cases plain
  | tickEntity | tickEffect | endEntityTick | ticks | beginTick | endTick => cases untimed

/-- A frame that is done takes work and brings none. -/
theorem descends_done (world : World) (frame : Frame) :
    total world [] + world.effort < frame.effort world + world.effort :=
  descends 0 (Effort.below_zero _) frame.size_pos
    (by rw [Effort.pieces_zero, add_zero]; exact le_rfl)

/-- A frame that goes on takes more work than one frame of a lower level and less of its own. -/
theorem descends_on {other : Frame} (lower : next.level world < frame.level world)
    (level : other.level world = frame.level world) (fewer : other.size < frame.size) :
    total world [next, other] + world.effort < frame.effort world + world.effort := by
  refine descends other.size (Effort.below_pieces lower next.size) fewer ?_
  rw [← level]
  exact le_of_eq (by simp [total, effort])

/-- A firing in progress takes more work than its next node and the others. -/
theorem descends_branch (world : World) (skill : SkillId) (context : Context) (nodes : List Node) :
    total world (world.branch skill context nodes).frames + world.effort <
      (Frame.branch skill context nodes).effort world + world.effort := by
  cases nodes with
  | nil => exact descends_done world _
  | cons node rest => exact descends_on (Nat.lt_succ_self _) rfl (Nat.lt_succ_self _)

/-- Applying an effect to some targets takes more work than applying it to the first one and going
on. -/
theorem descends_applyEach (world : World) (application : Application) (targets : List EntityId)
    (handles : List EffectHandle) :
    total world (world.applyEach application targets handles).frames + world.effort <
      (Frame.applyEach application targets handles).effort world + world.effort := by
  cases targets with
  | nil => exact descends_done world _
  | cons target rest =>
    refine descends_on (Nat.lt_succ_self _) rfl ?_
    simp only [size, List.length_cons]
    omega

/-- Taking down what an application gave takes more work than going on. -/
theorem descends_applied (world : World) (reply : Reply) (application : Application)
    (targets : List EntityId) (handles : List EffectHandle) :
    total world (world.applied reply application targets handles).frames + world.effort <
      (Frame.applied application targets handles).effort world + world.effort := by
  have onward (others : List EffectHandle) :
      total world [.applyEach application targets others] + world.effort <
        (Frame.applied application targets handles).effort world + world.effort := by
    refine descends (2 * targets.length + 1) (Effort.below_zero _) (Nat.lt_succ_self _) ?_
    exact le_of_eq (by simp [total, effort, level, size])
  unfold World.applied
  split
  · exact onward _
  · exact onward _

/-- Removing some effects takes more work than removing the first one and going on. -/
theorem descends_removeEach (world : World) (target : EntityId) (ids : List EffectId)
    (count : Nat) :
    total world (world.removeEach target ids count).frames + world.effort <
      (Frame.removeEach target ids count).effort world + world.effort := by
  cases ids with
  | nil => exact descends_done world _
  | cons id rest => exact descends_on (Nat.lt_succ_self 1) rfl (Nat.lt_succ_self _)

/-- Some pulses of an effect take more work than the first one and the others. -/
theorem descends_pulses (world : World) (handle : EffectHandle) (count : Nat) :
    total world (world.pulses handle count).frames + world.effort <
      (Frame.pulses handle count).effort world + world.effort := by
  cases count with
  | zero => exact descends_done world _
  | succ count =>
    simp only [World.pulses]
    split
    · exact descends_done world _
    · next effect found =>
      split
      · have lower : (Frame.fire (effect.fires handle .periodic effect.context)).level world <
            (Frame.pulses handle (count + 1)).level world := by
          simp only [level, World.reach_some found]
          exact Nat.lt_succ_self _
        have same : (Frame.pulses handle count).level world =
            (Frame.pulses handle (count + 1)).level world := by simp only [level]
        exact descends_on lower same (Nat.lt_succ_self (count + 1))
      · exact descends_done world _

/-- A drain takes more work than the re-checks that it leads to, since the tag changes no longer
wait. -/
theorem descends_drain (world : World) :
    total world.drain.world world.drain.frames + world.drain.world.effort <
      Frame.drain.effort world + world.effort := by
  unfold World.drain
  split
  · exact descends_done world _
  · next some =>
    have waits : 1 ≤ world.tagChanges.length := by
      refine List.length_pos_iff.2 fun none => some ?_
      simp [World.changedEntities, none, Dict.ofList, Dict.keys, Dict.empty]
    have checks : Effort.Below 3 (total { world with tagChanges := [] }
        (world.changedEntities.map fun id => .enforce id)) := by
      refine below_total fun next member => ?_
      obtain ⟨id, _, rfl⟩ := List.mem_map.1 member
      exact Nat.lt_succ_self 2
    have fewer := Effort.pieces_le_pieces 3 waits
    refine descends 0 checks (Nat.lt_succ_self 0) ?_
    rw [Effort.pieces_zero, add_zero, total_append, total_cons, add_assoc]
    refine add_le_add le_rfl ?_
    have emptied : Frame.drain.effort { world with tagChanges := [] } +
        total { world with tagChanges := [] } [] + World.effort { world with tagChanges := [] } =
          Effort.pieces 3 1 + 0 + (world.ongoing + Effort.pieces 3 0) := rfl
    rw [emptied, Effort.pieces_zero, add_zero, add_zero, add_comm]
    exact add_le_add_right fewer _

/-- What ends with an effect is below the level at which it was counted. -/
theorem below_finish (sound : world.Sound) {handle : EffectHandle} (state : EffectState)
    (fires : Bool) (live : world.isLive handle = true) :
    Effort.Below (world.reach handle + 2)
      (total (world.finish handle state fires).world (world.finish handle state fires).frames) := by
  obtain ⟨effect, found, _⟩ := World.exists_of_isLive live
  have config := (World.turn_finish sound handle state fires).config
  have low := World.six_le_reach world handle
  refine below_total fun next left => ?_
  cases leaves_finish left with
  | answer => exact Nat.succ_pos _
  | last stored =>
    cases found.symm.trans stored
    simp only [level, hop_congr config, World.reach_some found, Effect.fires]
    exact Nat.lt_add_of_pos_right (by decide)
  | ended =>
    simp only [level]
    omega

/-- Ending an effect takes more work than its last ports and the re-check, since it no longer is
live. -/
theorem descends_finish (sound : world.Sound) {admits : Request → Prop} {handle : EffectHandle}
    {state : EffectState} {fires : Bool}
    (admitted : (Frame.finish handle state fires).Admitted admits) :
    total (world.finish handle state fires).world (world.finish handle state fires).frames +
      (world.finish handle state fires).world.effort <
        (Frame.finish handle state fires).effort world + world.effort := by
  cases alive : world.isLive handle with
  | false =>
    rw [World.finish_of_not_isLive alive]
    exact descends_done world _
  | true =>
    have turn := World.turn_finish sound handle state fires
    obtain ⟨count, more⟩ := turn.queued_le
    have low := World.six_le_reach world handle
    have ports := below_finish sound state fires alive
    have started : total (world.finish handle state fires).world
        (world.finish handle state fires).frames + .pieces 3 count <
          .pieces (world.reach handle + 2) 1 :=
      (ports.add (Effort.below_pieces (by omega) count)).lt_pieces
    -- What the effect might start was counted while it was live, and pays for its last ports.
    have released := sound.ongoing_finish admitted alive
    generalize total (world.finish handle state fires).world
      (world.finish handle state fires).frames = fired at started ⊢
    calc fired + (world.finish handle state fires).world.effort
        ≤ fired + ((world.finish handle state fires).world.ongoing +
            (world.queued + .pieces 3 count)) :=
          add_le_add le_rfl (add_le_add le_rfl more)
      _ = fired + .pieces 3 count +
            ((world.finish handle state fires).world.ongoing + world.queued) := by abel
      _ < .pieces (world.reach handle + 2) 1 +
            ((world.finish handle state fires).world.ongoing + world.queued) :=
          add_lt_add_left started _
      _ = (world.finish handle state fires).world.ongoing +
            .pieces (world.reach handle + 2) 1 + world.queued := by abel
      _ ≤ world.effort := add_le_add released le_rfl
      _ ≤ (Frame.finish handle state fires).effort world + world.effort :=
          le_add_of_nonneg_left zero_le

/-- What starts with an effect is below the level at which it takes hold. -/
theorem below_attach (sound : world.Sound) (application : Application) (target : EntityId)
    (duration : Float32) :
    Effort.Below (world.hop application.context + 3)
      (total (world.attach application target duration).world
        (world.attach application target duration).frames) := by
  have config := (World.turn_attach sound application target duration).config
  have reached := sound.reach_attach application target duration
  have low := World.six_le_hop world application.context
  refine below_total fun next left => ?_
  cases leaves_attach left with
  | answer => exact Nat.succ_pos _
  | initial new =>
    subst new
    simp only [level, hop_congr config]
    exact Nat.lt_add_of_pos_right (by decide)
  | pulse =>
    simp only [level]
    omega
  | attached =>
    simp only [level]
    omega

/-- Letting an effect take hold takes more work than its first port, a pulse, the re-check and what
it may still start. -/
theorem descends_attach (sound : world.Sound) (application : Application) (target : EntityId)
    (duration : Float32) :
    total (world.attach application target duration).world
        (world.attach application target duration).frames +
      (world.attach application target duration).world.effort <
        (Frame.attach application target duration).effort world + world.effort := by
  have turn := World.turn_attach sound application target duration
  have held := sound.ongoing_attach application target duration
  obtain ⟨count, more⟩ := turn.queued_le
  have low := World.six_le_hop world application.context
  have first := below_attach sound application target duration
  have apart : Effort.Below (world.hop application.context + 3)
      (.pieces (world.hop application.context + 2) 1 + .pieces 3 count) :=
    (Effort.below_pieces (by omega) 1).add (Effort.below_pieces (by omega) count)
  refine descends 0 (first.add apart) (Nat.lt_succ_self 0) ?_
  generalize total (world.attach application target duration).world
    (world.attach application target duration).frames = started
  rw [Effort.pieces_zero]
  calc started + (world.attach application target duration).world.effort
      ≤ started + (world.ongoing + .pieces (world.hop application.context + 2) 1 +
          (world.queued + .pieces 3 count)) := add_le_add le_rfl (add_le_add held more)
    _ = started + (.pieces (world.hop application.context + 2) 1 + .pieces 3 count) + 0 +
          (world.ongoing + world.queued) := by abel

/-- What a frame of a walk brings is less work than it is. -/
theorem descends_untimed (sound : world.Sound) (reply : Reply) {admits : Request → Prop}
    (admitted : frame.Admitted admits)
    (lawful : ∀ request, admits request → request.isLawful = true)
    (untimed : frame.isTimed = false) :
    total (frame.expand world reply).world (frame.expand world reply).frames +
      (frame.expand world reply).world.effort < frame.effort world + world.effort := by
  by_cases plain : frame.isPlain = true
  · exact descends_plain sound reply admitted lawful untimed plain
  · cases frame with
    | branch skill context nodes =>
      rw [world_expand_of_plans rfl]
      exact descends_branch world skill context nodes
    | applyEach application targets handles =>
      rw [world_expand_of_plans rfl]
      exact descends_applyEach world application targets handles
    | applied application targets handles =>
      rw [world_expand_of_plans rfl]
      exact descends_applied world reply application targets handles
    | removeEach target ids count =>
      rw [world_expand_of_plans rfl]
      exact descends_removeEach world target ids count
    | pulses handle count =>
      rw [world_expand_of_plans rfl]
      exact descends_pulses world handle count
    | drain => exact descends_drain world
    | finish handle state fires => exact descends_finish sound admitted
    | attach application target duration => exact descends_attach sound application target duration
    | ticks => cases untimed
    | _ => exact absurd rfl plain

/-- What a frame of a request or a tick brings is of lower levels, apart from fewer ticks. -/
theorem brings_timed (sound : world.Sound) (reply : Reply) {admits : Request → Prop}
    (admitted : frame.Admitted admits)
    (lawful : ∀ request, admits request → request.isLawful = true)
    (timed : frame.isTimed = true) : ∃ lower kept, Effort.Below (frame.level world) lower ∧
      kept < frame.size ∧
      total (frame.expand world reply).world (frame.expand world reply).frames ≤
        lower + .pieces (frame.level world) kept := by
  have config := (World.turn_expand sound reply (admitted.mono lawful)).config
  have once (plain : frame.isPlain = true) : ∃ lower kept,
      Effort.Below (frame.level world) lower ∧ kept < frame.size ∧
      total (frame.expand world reply).world (frame.expand world reply).frames ≤
        lower + .pieces (frame.level world) kept := by
    refine ⟨_, 0, below_total fun next left =>
      (leaves_expand sound reply admitted left).lower plain config, frame.size_pos, ?_⟩
    rw [Effort.pieces_zero, add_zero]
  cases frame with
  | ticks seconds count =>
    cases count with
    | zero =>
      refine ⟨0, 0, Effort.below_zero _, Nat.one_pos, ?_⟩
      rw [Effort.pieces_zero, add_zero]
      exact le_rfl
    | succ count =>
      simp only [expand, World.ticks]
      split
      · refine ⟨0, count + 1, Effort.below_zero _, Nat.lt_succ_self _, ?_⟩
        exact le_of_eq (by simp [total, effort, level, size])
      · refine ⟨Frame.drain.effort world + (Frame.beginTick seconds).effort world, count + 1,
          (Effort.below_pieces ?_ 1).add (Effort.below_pieces ?_ 1), Nat.lt_succ_self _, ?_⟩
        · simp only [level, World.ceiling]
          omega
        · exact Nat.lt_succ_self _
        · exact le_of_eq (by simp [total, effort, level, size, add_assoc])
  | perform | tickEntity | tickEffect | endEntityTick | beginTick | endTick => exact once rfl
  | _ => cases timed

/-- What a frame of a request or a tick brings, and all that it adds to the work below the level of
ticks, is less work than it is. -/
theorem descends_timed (sound : world.Sound) (reply : Reply) {admits : Request → Prop}
    (admitted : frame.Admitted admits)
    (lawful : ∀ request, admits request → request.isLawful = true)
    (timed : frame.isTimed = true) (rest : List Frame) :
    total (frame.expand world reply).world (frame.expand world reply).frames +
      total (frame.expand world reply).world rest + (frame.expand world reply).world.effort <
        frame.effort world + (total world rest + world.effort) := by
  have config := (World.turn_expand sound reply (admitted.mono lawful)).config
  obtain ⟨lower, kept, below, fewer, brings⟩ := brings_timed sound reply admitted lawful timed
  obtain ⟨rise, small, less⟩ := total_le_add config rest
  have high := ceiling_le_level world timed
  have remains : Effort.Below world.ceiling (frame.expand world reply).world.effort :=
    World.ceiling_congr config ▸ below_effort _
  refine descends kept ((below.add (small.mono high)).add (remains.mono high)) fewer ?_
  generalize (frame.expand world reply).world.effort = left
  calc total (frame.expand world reply).world (frame.expand world reply).frames +
        total (frame.expand world reply).world rest + left
      ≤ lower + .pieces (frame.level world) kept + (total world rest + rise) + left :=
        add_le_add (add_le_add brings less) le_rfl
    _ = lower + rise + left + .pieces (frame.level world) kept + total world rest := by abel
    _ ≤ lower + rise + left + .pieces (frame.level world) kept +
          (total world rest + world.effort) :=
        add_le_add le_rfl (le_add_of_nonneg_right zero_le)

/-- Pulses are left for effects with numbers given. -/
theorem Leaves.numbered {handle : EffectHandle} {count : Nat}
    (leaves : frame.Leaves world (.pulses handle count)) (sound : world.Sound) (reply : Reply)
    (onward : world.nextEffect ≤ (frame.expand world reply).world.nextEffect) :
    handle.id.raw < (frame.expand world reply).world.nextEffect := by
  cases leaves with
  | @pulse application target duration =>
    have given := sound.nextEffect_attach application target duration
    exact given ▸ Nat.lt_succ_self world.nextEffect
  | pulses found | ticked found => exact Nat.lt_of_lt_of_le (sound.numbered_below found) onward
  | host _ opening => cases opening

end Frame

namespace Session

variable {admits : Request → Prop} {start : World} {past : List Cascade} {now : Cascade}

variable (calm : start.Calm) (lawful : ∀ request, admits request → request.isLawful = true)

include calm lawful

/-- Pulses remain to be fired for effects with numbers given before. -/
theorem numbered (session : Session admits start past now) {handle : EffectHandle}
    {count : Nat} (remains : .pulses handle count ∈ now.agenda) :
    handle.id.raw < now.world.nextEffect := by
  induction session with
  | opened => cases remains
  | asked => cases List.mem_singleton.1 remains
  | @stepped past now frame rest session next kept ih =>
    rw [Cascade.agenda_step next kept] at remains
    rw [Cascade.world_step next]
    have onward := (session.turn calm lawful next).numbering
    rcases List.mem_append.1 remains with left | stays
    · have sound := session.sound calm lawful
      have leaves := Frame.leaves_expand sound now.reply (session.first calm lawful next) left
      exact leaves.numbered sound now.reply onward
    · exact Nat.lt_of_lt_of_le (ih (next ▸ List.mem_cons_of_mem _ stays)) onward

/-- Every step takes more work than it brings. -/
theorem shrinks (session : Session admits start past now) {frame : Frame}
    {rest : List Frame} (next : now.agenda = frame :: rest)
    (kept : (frame.expand now.world now.reply).lost = false) : now.step.effort < now.effort := by
  have sound := session.sound calm lawful
  have admitted := session.first calm lawful next
  rw [Cascade.effort, Cascade.effort, Cascade.world_step next, Cascade.agenda_step next kept, next,
    Frame.total_append, Frame.total_cons, add_assoc (frame.effort now.world)]
  by_cases timed : frame.isTimed = true
  · -- Pulses may fire at a higher level after a tick, since contexts start afresh, but below ticks.
    exact Frame.descends_timed sound now.reply admitted lawful timed rest
  · have untimed : frame.isTimed = false := Bool.eq_false_iff.2 timed
    have descends := Frame.descends_untimed sound now.reply admitted lawful untimed
    have others : Frame.total (frame.expand now.world now.reply).world rest ≤
        Frame.total now.world rest :=
      Frame.total_le (session.turn calm lawful next) sound untimed fun handle count stays =>
        session.numbered calm lawful (next ▸ List.mem_cons_of_mem _ stays)
    rw [add_right_comm]
    calc _ < frame.effort now.world + now.world.effort +
          Frame.total (frame.expand now.world now.reply).world rest := add_lt_add_left descends _
      _ ≤ frame.effort now.world + now.world.effort + Frame.total now.world rest :=
          add_le_add_right others _
      _ = frame.effort now.world + (Frame.total now.world rest + now.world.effort) := by abel

/-- Whatever lawful requests are admitted, what is left to be done comes to an end. -/
theorem ends (session : Session admits start past now) :
    ∃ bound, (now.run bound).isDone = true := by
  -- The order of work is well-founded, so the induction is on the work that is left.
  induction work : now.effort using WellFoundedLT.induction generalizing past now with
  | ind work ih =>
    subst work
    cases next : now.agenda with
    | nil => exact ⟨0, by simp [Cascade.run, Cascade.isDone, next]⟩
    | cons frame rest =>
      have busy : now.isDone = false := by simp [Cascade.isDone, next]
      have onward {bound : ℕ} (done : (now.step.run bound).isDone = true) :
          (now.run (bound + 1)).isDone = true := by
        rw [Cascade.run, busy]
        exact done
      cases kept : (frame.expand now.world now.reply).lost with
      | true =>
        have dropped : now.step.isDone = true := by
          simp [Cascade.isDone, Cascade.agenda_step_lost next kept]
        exact ⟨1, onward dropped⟩
      | false =>
        have less := session.shrinks calm lawful next kept
        obtain ⟨bound, done⟩ := ih now.step.effort less (session.stepped next kept) rfl
        exact ⟨bound + 1, onward done⟩

end Session

/-- Whatever the skills lead to, every cascade of a session ends. What an elapsed time leaves to
settle is always a finite number of pulses here, since `Clock.catchUp` stops where a pulse would
leave the timer no smaller. A tick in which the loop that settles them never comes to an end is
outside this theorem; `Effect.catching_up_ends_unless_absorbed` says which ticks those are. -/
theorem every_cascade_ends {start : World} (calm : start.Calm) {past : List Cascade} {now : Cascade}
    (session : Session (fun request => request.isLawful = true) start past now) :
    ∃ bound, (now.run bound).isDone = true :=
  session.ends calm fun _ lawful => lawful

/-- A lasting effect that can be cured. -/
def fever : EffectDef where
  durationType := .infinite
  tags := { asset := .ofPaths ["fever"] }

/-- A skill that feeds itself: a fever that is removed sets in again and is removed once more. -/
def relapse : SkillGraph where
  id := ⟨1⟩
  nodes := [{ id := ⟨1⟩, kind := .effect fever, target := .caster },
    { id := ⟨2⟩, kind := .task (.removeEffectsWithTags (.ofPaths ["fever"])), target := .caster }]
  connections := [⟨⟨1⟩, "removed", ⟨1⟩, "input"⟩, ⟨⟨1⟩, "removed", ⟨2⟩, "input"⟩]

/-- A world without entities, in which a walk makes four hops at most. -/
def clinic : World := World.create { maxCascadeDepth := 4 } .empty

/-- An entity joins and falls ill. -/
def patientRequests : List Request :=
  [.register ⟨7⟩ [] .empty, .library (.ok (.insert relapse)), .activate ⟨1⟩ ⟨1⟩ { caster := ⟨7⟩ }]

/-- The entity is cured. -/
def cureRequest : Request := .removeEffectsWithTags ⟨7⟩ (.ofPaths ["fever"])

/-- The state in which the first fever was removed and has set in again. -/
def relapsing : Cascade :=
  let ill := Cascade.afterEach 30 { world := clinic, agenda := [] } patientRequests
  Cascade.run 30 (.ofRequest ill.world cureRequest)

/-- A fever that sets in whenever it is removed does so again and again, but not for ever. -/
theorem relapse_ends : clinic.Calm ∧
    (∃ past, Session (fun request => request.isLawful = true) clinic past relapsing) ∧
    relapsing.isDone = false ∧ relapsing.world.isLive ⟨⟨7⟩, ⟨1⟩⟩ = false ∧
    relapsing.world.nextEffect = 3 ∧ ∃ bound, (relapsing.run bound).isDone = true := by
  have calm : clinic.Calm := World.calm_create _ _
  have initially : Session (fun request => request.isLawful = true) clinic []
      { world := clinic, agenda := [] } := .opened
  have ill := initially.afterEach 30 patientRequests (by decide +kernel) (by decide +kernel)
  have asked : Session (fun request => request.isLawful = true) clinic _
      (.ofRequest _ cureRequest) := ill.asked (List.isEmpty_iff.1 (by decide +kernel)) rfl
  have session := asked.run 30 (by decide +kernel)
  exact ⟨calm, ⟨_, session⟩, by decide +kernel, by decide +kernel, by decide +kernel,
    every_cascade_ends calm session⟩

end SkillEngine
