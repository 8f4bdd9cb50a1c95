import SkillEngine.Proofs.Applications
import SkillEngine.Proofs.Grants
import SkillEngine.Proofs.Requirements

/-!
# What a re-check removes

A call that re-checks a target lists the effects whose ongoing requirement is unmet and then removes
them in turn, whatever the ports of one removal do before the next. So an effect may be removed that
meets its requirement again: `beacon_goes_out` is a case of it. `enforcement_removes_listed` says
that this is the only one. What such a call removes was unmet when it was listed, and if it is met
by the time its turn comes, then the removal of another effect by the same call gave the target
tags.
-/

namespace SkillEngine

/-! ## Tags that are given -/

namespace TagCounts

/-- Taking a tag matches nothing anew. -/
theorem keeps_of_remove (counts : TagCounts) (tag : Tag) : (counts.remove tag).2.Keeps counts := by
  refine .of_subset fun held member => ?_
  unfold remove at member
  split at member
  · exact member
  · obtain ⟨entry, stored, rfl⟩ := List.mem_map.1 member
    exact List.mem_map_of_mem (List.mem_of_mem_filter stored)
  · exact (congrArg (held ∈ ·) (tags_recount counts.held tag (· - 1))).mp member

/-- Taking tags matches nothing anew. -/
theorem keeps_of_removeEach (counts : TagCounts) (tags : List Tag) :
    (counts.removeEach tags).2.Keeps counts := by
  induction tags generalizing counts with
  | nil => exact .refl counts
  | cons tag rest ih => exact (ih _).trans (keeps_of_remove counts tag)

end TagCounts

/-- The request gives tags. -/
def TagRequest.isGift : TagRequest → Bool
  | .add _ | .addAll _ => true
  | _ => false

/-- A request that gives no tags matches nothing anew. -/
theorem TagRequest.keeps_of_perform {request : TagRequest} (plain : request.isGift = false)
    (counts : TagCounts) : (request.perform counts).state.Keeps counts := by
  cases request with
  | add | addAll => cases plain
  | remove tag => exact TagCounts.keeps_of_remove counts tag
  | removeAll tags => exact TagCounts.keeps_of_removeEach counts tags.tags
  | clear => exact fun _ held => by cases held
  | _ => exact .refl counts

/-- The frame gives an entity tags: on request, or those that a new effect grants. -/
def Frame.gives (id : EntityId) : Frame → Bool
  | .perform request => request.tagEdit?.any fun edit => edit.1 == id && edit.2.isGift
  | .attach application target _ =>
    target == id && !application.definition.tags.granted.tags.isEmpty
  | _ => false

namespace World

variable {world : World} {frame : Frame} {id : EntityId} {handle : EffectHandle}

/-- A deed matches no tag anew. -/
theorem Deed.tags_keeps {change : Entity → Entity} (deed : world.Deed frame id change)
    (entity : Entity) : (change entity).tags.Keeps entity.tags := by
  cases deed with
  | still | begin | finish | sheet => exact .refl _
  | touch | restack =>
    have same : ∀ touched key updates, (entity.touching key touched updates).tags = entity.tags :=
      fun _ _ _ => Entity.tags_tracking _ _ _
    exact .of_subset fun tag held => same _ _ _ ▸ held
  | release => exact TagCounts.keeps_of_removeEach _ _
  | write revalues =>
    rw [(revalues entity).tags]
    exact .refl _

/-- A frame that gives an entity no tags matches none anew on it, unless the entity joins. -/
theorem tags_keep_or_joins (sound : world.Sound) (reply : Reply)
    (admitted : frame.Admitted fun request => request.isLawful = true)
    (plain : frame.gives id = false) {entity : Entity}
    (found : (frame.expand world reply).world.entity? id = some entity) :
    (∃ earlier, world.entity? id = some earlier ∧ entity.tags.Keeps earlier.tags) ∨
      entity.effects = .empty := by
  by_cases asked : ∃ request, frame = .perform request ∧ request.tagEdit? ≠ none
  · obtain ⟨request, rfl, some⟩ := asked
    obtain ⟨⟨other, edit⟩, requested⟩ := Option.ne_none_iff_exists'.1 some
    obtain ⟨earlier, stored, rfl⟩ := (alters_edit sound.numbered requested).origin found
    refine .inl ⟨earlier, stored, ?_⟩
    split
    · next same =>
      refine TagRequest.keeps_of_perform ?_ earlier.tags
      simpa [Frame.gives, requested, same] using plain
    · exact .refl _
  · have turn := turn_expand sound reply (admitted.mono fun _ lawful => lawful)
    generalize (frame.expand world reply).world = after at turn found
    cases turn with
    | quiet quiet =>
      have same : after.entity? id = world.entity? id :=
        congrArg (Registry.entity? · id) quiet.registry
      exact .inl ⟨entity, same.symm.trans found, .refl _⟩
    | drain => exact .inl ⟨entity, found, .refl _⟩
    | alter alters deed =>
      obtain ⟨earlier, stored, rfl⟩ := alters.origin found
      refine .inl ⟨earlier, stored, ?_⟩
      split
      · exact deed.tags_keeps earlier
      · exact .refl _
    | @retag request _ _ _ _ _ _ _ edits =>
      refine absurd ⟨request, rfl, fun none => ?_⟩ asked
      rw [none] at edits
      cases edits
    | @hold application target duration _ alters =>
      obtain ⟨earlier, stored, rfl⟩ := alters.origin found
      refine .inl ⟨earlier, stored, ?_⟩
      split
      · next same =>
        have none : application.definition.tags.granted.tags = [] := by
          simpa [Frame.gives, same] using plain
        have kept : (earlier.holding (world.newEffect application target duration)
            world.time).tags = earlier.tags := congrArg (earlier.tags.addEach · |>.2) none
        rw [kept]
        exact .refl _
      · exact .refl _
    | regroup regroups =>
      rcases regroups.entity? id entity found with before | ⟨newcomer, origin, _, joined⟩
      · exact .inl ⟨entity, before, .refl _⟩
      · exact .inr (joined.effects.trans (origin.elim (sound.waiting newcomer) (·.effects)))

/-- If the requirement of an effect that stays live comes to be met, the frame gave its target
tags. -/
theorem gives_of_met (sound : world.Sound) (reply : Reply)
    (admitted : frame.Admitted fun request => request.isLawful = true)
    (unmet : world.Unmet handle)
    (live : (frame.expand world reply).world.isLive handle = true)
    (met : ¬(frame.expand world reply).world.Unmet handle) : frame.gives handle.target = true := by
  by_contra plain
  obtain ⟨effect, found, alive⟩ := exists_of_isLive live
  obtain ⟨entity, registered, stored, _⟩ := of_effect? found
  obtain ⟨before, present, earlier, was, _, fails⟩ := unmet
  rcases tags_keep_or_joins sound reply admitted (Bool.eq_false_iff.2 plain) registered with
    ⟨other, same, keeps⟩ | empty
  · cases present.symm.trans same
    have place := (effect?_eq present).trans was
    have turn := turn_expand sound reply (admitted.mono fun _ lawful => lawful)
    obtain ⟨form, again, becomes⟩ :=
      (turn.evolves sound admitted).origin handle effect (sound.numbered_below place) found
    cases place.symm.trans again
    have holds : entity.tags.hasAll effect.definition.tags.requiredOngoing = true :=
      Bool.of_not_eq_false fun lacks => met ⟨entity, registered, effect, stored, alive, lacks⟩
    rw [becomes.definition] at holds
    cases fails.symm.trans (keeps.hasAll holds)
  · rw [empty] at stored
    cases stored

/-! ## The removals of a call -/

/-- The removals of some effects on a target. -/
def removals (target : EntityId) (keys : List EffectId) : List Frame :=
  keys.map fun key => .finish ⟨target, key⟩ .removed true

/-- A re-check leaves removals alone, each of an effect whose requirement is unmet. -/
theorem frames_enforce (sound : world.Sound) (target : EntityId) :
    ∃ keys, (world.enforce target).frames = removals target keys ∧
      ∀ key ∈ keys, world.Unmet ⟨target, key⟩ := by
  unfold enforce
  cases registered : world.entity? target with
  | none => exact ⟨[], rfl, fun _ member => by cases member⟩
  | some entity =>
    refine ⟨_, rfl, fun key member => ?_⟩
    obtain ⟨effect, violates, rfl⟩ := List.mem_map.1 member
    obtain ⟨live, fails⟩ := List.mem_filter.1 violates
    obtain ⟨stored, alive⟩ := List.mem_filter.1 live
    have lacks := (Bool.and_eq_true_iff.1 fails).2
    exact ⟨entity, registered, effect, (sound.rosters _ _ registered).get?_eq stored, alive,
      Bool.not_eq_true' _ ▸ lacks⟩

end World

namespace Cascade

variable {cascade call : Cascade} {target : EntityId} {rest inner behind : List Frame}
  {key : EffectId} {bound : Nat}

/-- A call that re-checks a target has come to the removal of an effect: that is next, the caller
does not go on before it, and since the call there was always more to do than now. -/
structure ComesTo (call : Cascade) (target : EntityId) (rest : List Frame) (key : EffectId)
    (behind : List Frame) (bound : Nat) : Prop where
  /-- The call is next at first, with what the caller goes on with behind it. -/
  called : call.agenda = .enforce target :: rest
  /-- The removal is next now. -/
  next : (call.run bound).agenda = .finish ⟨target, key⟩ .removed true :: behind
  /-- The caller has to wait. -/
  waiting : rest.length ≤ behind.length
  /-- There was more to do before. -/
  sooner : ∀ earlier < bound, 0 < earlier →
    behind.length + 1 < (call.run earlier).agenda.length

/-- The removals of a call come after the call. -/
theorem ComesTo.pos (comes : call.ComesTo target rest key behind bound) : 0 < bound := by
  refine Nat.pos_of_ne_zero fun zero => ?_
  have next := comes.next
  rw [zero, run, comes.called] at next
  cases next

/-- What a call comes to remove is one of the effects that it listed, and behind it are the removals
of the effects listed later. -/
theorem ComesTo.listed (comes : call.ComesTo target rest key behind bound)
    (kept : call.keeps bound = true) {keys : List EffectId}
    (lists : (call.world.enforce target).frames = World.removals target keys) :
    key ∈ keys ∧ ∃ others, behind = World.removals target others ++ rest := by
  obtain ⟨bound, rfl⟩ := Nat.exists_eq_succ_of_ne_zero comes.pos.ne'
  have called := comes.called
  simp only [keeps, called, Bool.and_eq_true, Bool.not_eq_true'] at kept
  have agenda : call.step.agenda = World.removals target keys ++ rest := by
    rw [agenda_step called kept.1]
    exact congrArg (· ++ rest) lists
  have length : (World.removals target keys).length = keys.length := List.length_map _
  have more : behind.length + 1 ≤ keys.length + rest.length := by
    rw [← length, ← List.length_append, ← agenda]
    cases bound with
    | zero =>
      have next := comes.next
      rw [run_succ called] at next
      exact (congrArg List.length next).ge
    | succ bound =>
      have sooner := comes.sooner 1 (Nat.succ_lt_succ (Nat.succ_pos _)) Nat.one_pos
      rw [run_succ called] at sooner
      exact Nat.le_of_lt sooner
  -- The frames that remain when the removal is next are the last ones of those that the call left.
  have waiting := comes.waiting
  obtain ⟨before, last, rfl, count⟩ : ∃ before last, keys = before ++ last ∧
      last.length = behind.length + 1 - rest.length :=
    ⟨_, _, (List.take_append_drop (keys.length - (behind.length + 1 - rest.length)) keys).symm, by
      rw [List.length_drop]
      omega⟩
  have parts : World.removals target (before ++ last) ++ rest =
      World.removals target before ++ (World.removals target last ++ rest) := by
    rw [World.removals, List.map_append, List.append_assoc]
    rfl
  rw [parts] at agenda
  have size : (World.removals target last ++ rest).length = behind.length + 1 := by
    rw [List.length_append, World.removals, List.length_map, count]
    omega
  obtain ⟨left, same⟩ := exists_agenda_append kept.2 agenda fun earlier within => by
    rw [size, ← run_succ called]
    exact comes.sooner (earlier + 1) (Nat.succ_lt_succ within) (Nat.succ_pos _)
  rw [← run_succ called, comes.next] at same
  have none : left = [] := by
    have lengths := congrArg List.length same
    rw [List.length_append, size] at lengths
    exact List.eq_nil_of_length_eq_zero (by simpa using lengths)
  rw [none, List.nil_append] at same
  cases last with
  | nil => simp [World.removals] at size; omega
  | cons first others =>
    obtain ⟨first, rfl⟩ := List.cons.inj same
    cases first
    exact ⟨List.mem_append_right _ List.mem_cons_self, others, rfl⟩

/-- While the caller waits, one of the removals of the call is under way. -/
theorem exists_comesTo (called : call.agenda = .enforce target :: rest) {keys : List EffectId}
    (lists : (call.world.enforce target).frames = World.removals target keys)
    (kept : call.keeps (bound + 1) = true)
    (waits : ∀ now, 0 < now → now ≤ bound + 1 → rest.length < (call.run now).agenda.length) :
    ∃ begun key behind, begun ≤ bound + 1 ∧ call.ComesTo target rest key behind begun ∧
      ∀ now, begun ≤ now → now ≤ bound + 1 → behind.length < (call.run now).agenda.length := by
  induction bound with
  | zero =>
    have first := waits 1 Nat.one_pos (Nat.le_refl _)
    have lost : ((Frame.enforce target).expand call.world call.reply).lost = false := by
      simpa [keeps, called] using kept
    have agenda : (call.run 1).agenda = World.removals target keys ++ rest := by
      rw [run_succ called]
      exact (agenda_step called lost).trans (congrArg (· ++ rest) lists)
    cases keys with
    | nil =>
      rw [agenda] at first
      exact absurd first (Nat.lt_irrefl _)
    | cons key others =>
      refine ⟨1, key, World.removals target others ++ rest, Nat.le_refl _,
        ⟨called, agenda, by simp, fun earlier before after => by omega⟩, fun now after before => ?_⟩
      rw [Nat.le_antisymm before after, agenda]
      exact Nat.lt_succ_self _
  | succ bound ih =>
    obtain ⟨begun, key, behind, within, comes, under⟩ :=
      ih (keeps_of_le kept (Nat.le_succ _)) fun now after before => waits now after (by omega)
    by_cases more : behind.length < (call.run (bound + 2)).agenda.length
    · refine ⟨begun, key, behind, by omega, comes, fun now after before => ?_⟩
      rcases Nat.lt_or_eq_of_le before with earlier | rfl
      · exact under now after (by omega)
      · exact more
    · -- The removal is over, so the next one is about to begin.
      obtain ⟨left, split⟩ : ∃ left, (call.run (bound + 2)).agenda = left ++ behind := by
        have reached : begun + (bound + 2 - begun) = bound + 2 := by omega
        rw [← reached, run_add]
        refine exists_agenda_append (keeps_run (by rwa [reached]))
          (show _ = [_] ++ behind from comes.next) fun earlier before => ?_
        rw [← run_add]
        exact under (begun + earlier) (Nat.le_add_right _ _) (by omega)
      have none : left = [] := by
        rw [split, List.length_append] at more
        exact List.eq_nil_of_length_eq_zero (by omega)
      rw [none, List.nil_append] at split
      obtain ⟨_, others, rfl⟩ := comes.listed (keeps_of_le kept (by omega)) lists
      have busy := waits (bound + 2) (by omega) (Nat.le_refl _)
      cases others with
      | nil =>
        rw [split] at busy
        exact absurd busy (Nat.lt_irrefl _)
      | cons next others =>
        refine ⟨bound + 2, next, World.removals target others ++ rest, Nat.le_refl _,
          ⟨called, split, by simp, fun earlier before after => ?_⟩, fun now after before => ?_⟩
        · rcases Nat.lt_or_ge earlier begun with sooner | later
          · exact Nat.lt_of_succ_lt (comes.sooner earlier sooner after)
          · exact under earlier later (by omega)
        · rw [Nat.le_antisymm before after, split]
          exact Nat.lt_succ_self _

/-- While a call was removing another effect, a frame gave the target tags that an effect listed
later had lacked, and it has not lacked any since. -/
inductive MetMeanwhile (call : Cascade) (target : EntityId) (rest : List Frame) (key : EffectId)
    (bound : Nat) : Prop where
  /-- The other removal had begun, and was of a live effect. -/
  | given {begun time : Nat} {other : EffectId} {after later : List Frame} {frame : Frame}
      (removes : call.ComesTo target rest other after begun)
      (live : (call.run begun).world.isLive ⟨target, other⟩ = true)
      (earlier : begun < time) (before : time < bound)
      (under : ∀ now, begun ≤ now → now ≤ time → after.length < (call.run now).agenda.length)
      (next : (call.run time).agenda = frame :: later) (gives : frame.gives target = true)
      (unmet : (call.run time).world.Unmet ⟨target, key⟩)
      (met : ∀ now, time < now → now ≤ bound → ¬(call.run now).world.Unmet ⟨target, key⟩) :
      MetMeanwhile call target rest key bound

end Cascade

/-! ## Sessions -/

/-- What holds at first and not at last has a last time. -/
theorem exists_last_time {holds : Nat → Prop} {last : Nat} (start : holds 0) (ends : ¬holds last) :
    ∃ time < last, holds time ∧ ∀ later, time < later → later ≤ last → ¬holds later := by
  induction last with
  | zero => exact absurd start ends
  | succ last ih =>
    by_cases still : holds last
    · refine ⟨last, Nat.lt_succ_self _, still, fun later after before => ?_⟩
      rwa [Nat.le_antisymm before after]
    · obtain ⟨time, before, held, never⟩ := ih still
      refine ⟨time, Nat.lt_succ_of_lt before, held, fun later beyond within => ?_⟩
      rcases Nat.lt_or_eq_of_le within with earlier | rfl
      · exact never later beyond (Nat.le_of_lt_succ earlier)
      · exact ends

namespace Session

variable {admits : Request → Prop} {start : World} {past : List Cascade} {now : Cascade}

/-- The world evolves along a run that loses nothing. -/
theorem evolves_run (calm : start.Calm)
    (lawful : ∀ request, admits request → request.isLawful = true)
    (session : Session admits start past now) {bound : Nat} (kept : now.keeps bound = true) :
    now.world.Evolves (now.run bound).world := by
  cases bound with
  | zero => exact .refl _
  | succ bound =>
    cases next : now.agenda with
    | nil =>
      rw [Cascade.run_of_isDone _ (List.isEmpty_iff.2 next)]
      exact .refl _
    | cons frame rest =>
      refine (session.run (bound + 1) kept).evolves calm lawful now (List.mem_append_right _ ?_)
      simp [Cascade.during, Cascade.isDone, next]

/-- What is live after a run and has a number given before was live before. -/
theorem isLive_earlier (calm : start.Calm)
    (lawful : ∀ request, admits request → request.isLawful = true)
    (session : Session admits start past now) {bound : Nat} (kept : now.keeps bound = true)
    {handle : EffectHandle} (old : handle.id.raw < now.world.nextEffect)
    (live : (now.run bound).world.isLive handle = true) : now.world.isLive handle = true := by
  obtain ⟨effect, found, alive⟩ := World.exists_of_isLive live
  obtain ⟨earlier, stored, becomes⟩ :=
    (session.evolves_run calm lawful kept).origin handle effect old found
  have attached := (session.sound calm lawful).attached stored
  exact (World.isLive_eq stored).trans (becomes.isLive attached alive)

/-- If the requirement of an effect comes to be met along a run and the effect is live in the end,
then a frame gave its target tags when it was unmet for the last time. -/
theorem exists_gift (calm : start.Calm)
    (session : Session (fun request => request.isLawful = true) start past now) {bound : Nat}
    (kept : now.keeps bound = true) {handle : EffectHandle} (unmet : now.world.Unmet handle)
    (live : (now.run bound).world.isLive handle = true)
    (met : ¬(now.run bound).world.Unmet handle) :
    ∃ time frame later, time < bound ∧ (now.run time).agenda = frame :: later ∧
      frame.gives handle.target = true ∧ (now.run time).world.Unmet handle ∧
      ∀ after, time < after → after ≤ bound → ¬(now.run after).world.Unmet handle := by
  have lawful : ∀ request : Request, request.isLawful = true → request.isLawful = true :=
    fun _ lawful => lawful
  have turns : ∃ time < bound, (now.run time).world.Unmet handle ∧
      ∀ after, time < after → after ≤ bound → ¬(now.run after).world.Unmet handle :=
    exists_last_time unmet met
  obtain ⟨time, before, fails, since⟩ := turns
  have ends := since (time + 1) (Nat.lt_succ_self _) before
  rw [Cascade.run_add_one] at ends
  cases next : (now.run time).agenda with
  | nil =>
    rw [Cascade.run_of_isDone 1 (List.isEmpty_iff.2 next)] at ends
    exact absurd fails ends
  | cons frame later =>
    refine ⟨time, frame, later, before, next, ?_, fails, since⟩
    have reached := session.run time (Cascade.keeps_of_le kept before.le)
    have goes : ((now.run time).run 1).world =
        (frame.expand (now.run time).world (now.run time).reply).world := by
      rw [Cascade.run_succ next]
      exact Cascade.world_step next
    -- What is live in the end was live before, since effects do not come back to life.
    have alive : ((now.run time).run 1).world.isLive handle = true := by
      have parts : time + 1 + (bound - (time + 1)) = bound := by omega
      have soon := session.run (time + 1) (Cascade.keeps_of_le kept before)
      have numbers := (session.evolves_run calm lawful
        (Cascade.keeps_of_le kept before)).numbering
      obtain ⟨entity, registered, effect, stored, _⟩ := unmet
      have old := (session.sound calm lawful).numbered_below
        ((World.effect?_eq registered).trans stored)
      rw [← Cascade.run_add_one]
      refine soon.isLive_earlier calm lawful (Cascade.keeps_run (parts.symm ▸ kept))
        (Nat.lt_of_lt_of_le old numbers) ?_
      rwa [← Cascade.run_add, parts]
    rw [goes] at alive ends
    exact World.gives_of_met (reached.sound calm lawful) _ (reached.first calm lawful next) fails
      alive ends

end Session

variable {start : World} {past : List Cascade} {call : Cascade}

/-- A call that re-checks a target removes effects that it listed, whose ongoing requirement was
unmet when it was called. When it comes to such an effect that is still live, the requirement is
unmet, or it is met since a frame gave the target tags while the call was removing another
effect. -/
theorem enforcement_removes_listed (calm : start.Calm)
    (session : Session (fun request => request.isLawful = true) start past call)
    {target : EntityId} {rest behind : List Frame} {key : EffectId} {bound : Nat}
    (comes : call.ComesTo target rest key behind bound) (kept : call.keeps bound = true) :
    call.world.Unmet ⟨target, key⟩ ∧
      ((call.run bound).world.isLive ⟨target, key⟩ = true →
        (call.run bound).world.Unmet ⟨target, key⟩ ∨ call.MetMeanwhile target rest key bound) := by
  have sound := session.sound calm fun _ lawful => lawful
  obtain ⟨keys, lists, unmet⟩ := World.frames_enforce sound target
  have listed := unmet key (comes.listed kept lists).1
  refine ⟨listed, fun live => or_iff_not_imp_left.2 fun met => ?_⟩
  obtain ⟨time, frame, later, before, next, gives, fails, since⟩ :=
    session.exists_gift calm kept listed live met
  have apart {other : Frame} {others : List Frame} (same : (call.run time).agenda = other :: others)
      (plain : other.gives target = false) : False := by
    cases next.symm.trans same
    cases gives.symm.trans plain
  cases time with
  | zero => exact (apart comes.called rfl).elim
  | succ time =>
    obtain ⟨begun, other, after, within, removes, under⟩ :=
      Cascade.exists_comesTo comes.called lists (Cascade.keeps_of_le kept before.le)
        fun now positive within => by
          have more := comes.sooner now (Nat.lt_of_le_of_lt within before) positive
          have less := comes.waiting
          omega
    have earlier : begun < time + 1 := Nat.lt_of_le_of_ne within fun same =>
      apart (same ▸ removes.next) rfl
    refine .given removes (Bool.of_not_eq_false fun dead => ?_) earlier before under next gives
      fails since
    -- The removal of an effect that is not live would have been over at once.
    have more := under (begun + 1) (Nat.le_succ _) earlier
    have finished := World.finish_of_not_isLive dead .removed true
    have agenda : (call.run begun).step.agenda = after :=
      (Cascade.agenda_step removes.next (congrArg Progress.lost finished)).trans
        (congrArg (·.frames ++ after) finished)
    rw [Cascade.run_add_one, Cascade.run_succ removes.next, Cascade.run, agenda] at more
    exact Nat.lt_irrefl _ more

/-- A lasting effect that needs light. -/
def flame : EffectDef where
  durationType := .infinite
  tags := { requiredOngoing := .ofPaths ["Lit"] }

/-- The tag that it needs. -/
def lit : Tag := .ofPath "Lit"

/-- A skill with a lantern and a beacon; a lantern that goes out gives light. -/
def lighthouse : SkillGraph where
  id := ⟨1⟩
  nodes := [{ id := ⟨1⟩, kind := .effect flame }, { id := ⟨2⟩, kind := .effect flame },
    { id := ⟨3⟩, kind := .task (.addLooseTags (.ofPaths ["Lit"])) }]
  connections := [{ source := ⟨1⟩, sourcePort := "removed", target := ⟨3⟩ }]

/-- An entity in the light receives the lantern and the beacon. -/
def lightRequests : List Request :=
  [.library (.ok (.insert lighthouse)), .spawn ⟨1⟩, .addTag ⟨1⟩ lit,
    .activate ⟨1⟩ ⟨1⟩ { caster := ⟨1⟩, edits := [.target ⟨1⟩] },
    .activate ⟨1⟩ ⟨2⟩ { caster := ⟨1⟩, edits := [.target ⟨1⟩] }]

/-- The state that is reached. -/
def alight : Cascade :=
  Cascade.afterEach 40 { world := World.create {} .empty, agenda := [] } lightRequests

/-- The state in which the entity is re-checked, since the light has been taken away. -/
def darkened : Cascade := (Cascade.ofRequest alight.world (.removeTag ⟨1⟩ lit)).run 2

/-- The call comes to the removal of the beacon when that of the lantern is over. -/
theorem darkened_comesTo : darkened.ComesTo ⟨1⟩ [.drain, .answer (.flag true)] ⟨2⟩
    [.drain, .answer (.flag true)] 15 where
  called := rfl
  next := rfl
  waiting := Nat.le_refl _
  sooner := by decide +kernel

/-- That state is reached in a session. -/
theorem session_darkened : ∃ past, Session (fun request => request.isLawful = true)
    (World.create {} .empty) past darkened := by
  have received : Session (fun request => request.isLawful = true) (World.create {} .empty)
      (Cascade.duringEach 40 { world := World.create {} .empty, agenda := [] } lightRequests)
      alight := .ofRequests 40 lightRequests (by decide +kernel) (by decide +kernel)
  have asked : Session (fun request => request.isLawful = true) (World.create {} .empty)
      (_ ++ [alight]) (.ofRequest alight.world (.removeTag ⟨1⟩ lit)) :=
    received.asked (List.isEmpty_iff.1 (by decide +kernel)) rfl
  exact ⟨_, asked.run 2 (by decide +kernel)⟩

/-- When the removal of the beacon is next, its target holds all that it requires. -/
theorem beacon_lit : ∃ entity effect, (darkened.run 15).world.entity? ⟨1⟩ = some entity ∧
    (darkened.run 15).world.effect? ⟨⟨1⟩, ⟨2⟩⟩ = some effect ∧ effect.isLive = true ∧
    entity.tags.hasAll effect.definition.tags.requiredOngoing = true := by
  have holds : ((darkened.run 15).world.entity? ⟨1⟩).any (fun entity =>
      ((darkened.run 15).world.effect? ⟨⟨1⟩, ⟨2⟩⟩).any fun effect =>
        effect.isLive && entity.tags.hasAll effect.definition.tags.requiredOngoing) = true := by
    decide +kernel
  obtain ⟨entity, registered, holds⟩ := (Option.any_eq_true _ _).1 holds
  obtain ⟨effect, found, holds⟩ := (Option.any_eq_true _ _).1 holds
  exact ⟨entity, effect, registered, found, Bool.and_eq_true_iff.1 holds⟩

/-- A call can remove a live effect whose target holds all that it requires: the beacon, in the
light that the lantern gave when it went out. -/
theorem beacon_goes_out : ∃ past call target rest key behind bound,
    Session (fun request => request.isLawful = true) (World.create {} .empty) past call ∧
      call.ComesTo target rest key behind bound ∧ call.keeps bound = true ∧
      (∃ entity effect, (call.run bound).world.entity? target = some entity ∧
        (call.run bound).world.effect? ⟨target, key⟩ = some effect ∧ effect.isLive = true ∧
        entity.tags.hasAll effect.definition.tags.requiredOngoing = true) ∧
      (call.run (bound + 1)).world.isLive ⟨target, key⟩ = false := by
  obtain ⟨past, session⟩ := session_darkened
  exact ⟨past, darkened, ⟨1⟩, _, ⟨2⟩, _, 15, session, darkened_comesTo, by decide +kernel,
    beacon_lit, by decide +kernel⟩

/-- The beacon was listed in the dark, and is removed in the light that the removal of the lantern
has given. -/
theorem lantern_lights_beacon : (World.create {} .empty).Calm ∧
    ∃ past, Session (fun request => request.isLawful = true) (World.create {} .empty) past
        darkened ∧
      darkened.ComesTo ⟨1⟩ [.drain, .answer (.flag true)] ⟨2⟩ [.drain, .answer (.flag true)] 15 ∧
      darkened.keeps 15 = true ∧ darkened.world.Unmet ⟨⟨1⟩, ⟨2⟩⟩ ∧
      (darkened.run 15).world.isLive ⟨⟨1⟩, ⟨2⟩⟩ = true ∧
      ¬(darkened.run 15).world.Unmet ⟨⟨1⟩, ⟨2⟩⟩ ∧
      darkened.MetMeanwhile ⟨1⟩ [.drain, .answer (.flag true)] ⟨2⟩ 15 := by
  have calm := World.calm_create {} .empty
  obtain ⟨past, session⟩ := session_darkened
  have kept : darkened.keeps 15 = true := by decide +kernel
  obtain ⟨listed, outcome⟩ := enforcement_removes_listed calm session darkened_comesTo kept
  obtain ⟨entity, effect, registered, found, alive, holds⟩ := beacon_lit
  have live : (darkened.run 15).world.isLive ⟨⟨1⟩, ⟨2⟩⟩ = true :=
    (World.isLive_eq found).trans alive
  have met : ¬(darkened.run 15).world.Unmet ⟨⟨1⟩, ⟨2⟩⟩ := by
    rintro ⟨same, present, other, stored, _, fails⟩
    cases registered.symm.trans present
    cases found.symm.trans ((World.effect?_eq registered).trans stored)
    cases holds.symm.trans fails
  exact ⟨calm, past, session, darkened_comesTo, kept, listed, live, met,
    (outcome live).resolve_left met⟩

end SkillEngine
