import SkillEngine.Proofs.CueStages
import SkillEngine.Proofs.Magnitudes
import SkillEngine.Proofs.Session

/-!
# Entities left to themselves

When the ports of its effects lead nowhere and its tracked magnitudes read no caster, what a tick
does to an entity is a matter of that entity alone: of its attributes, its tags and its effects,
wherever it is registered. `Surroundings.Ends` says so of frames that are taken to the end, and
`Surroundings.ends_tickEntity` shows it of a whole visit. The depth of it is bounded by the live
effects: an effect that ends can make others end, and none begins.
-/

namespace SkillEngine

/-- The ports of an effect lead nowhere, and what it tracks reads no caster. -/
structure Effect.Secluded (effect : Effect) (library : SkillLibrary) : Prop where
  /-- No port is connected. -/
  ports : ∀ port : EffectPort, library.connected effect.skill effect.node port.name = []
  /-- Tracked magnitudes are no computed ones and read no variable of the caster. -/
  tracked : ∀ modifier ∈ effect.definition.modifiers, modifier.capture = .track →
    modifier.magnitude.avoids ["caster"] = true

/-- Whether an effect is secluded can be computed. -/
instance (effect : Effect) (library : SkillLibrary) : Decidable (effect.Secluded library) :=
  decidable_of_iff
    ((∀ port ∈ [EffectPort.initial, .periodic, .overflow, .removed, .complete],
        (library.connected effect.skill effect.node port.name).isEmpty = true) ∧
      ∀ modifier ∈ effect.definition.modifiers, modifier.capture = .track →
        modifier.magnitude.avoids ["caster"] = true)
    ⟨fun ⟨ports, tracked⟩ =>
      ⟨fun port => List.isEmpty_iff.1 (ports port (by cases port <;> decide)), tracked⟩,
      fun secluded => ⟨fun port _ => List.isEmpty_iff.2 (secluded.ports port), secluded.tracked⟩⟩

/-- A later form of an effect is as secluded. -/
theorem Effect.Secluded.becomes {before after : Effect} {library : SkillLibrary}
    (secluded : before.Secluded library) (becomes : before.Becomes after) :
    after.Secluded library where
  ports port := by
    rw [becomes.skill, becomes.node]
    exact secluded.ports port
  tracked modifier := by
    rw [becomes.definition]
    exact secluded.tracked modifier

/-- How often the engine hears of it when some tags are taken from an entity. -/
def Entity.alarms (entity : Entity) (tags : List Tag) : Nat :=
  ((entity.tags.notices ((entity.tags.removeEach tags).1.map .removed)).filter fun notice =>
    match notice.1 with
    | .requirements => true
    | .named _ => false).length

/-- One form of an entity is a later form of another: its effects are, and tag changes wait only if
one has ended. -/
structure Entity.LeadsTo (before after : Entity) (waiting : Nat) : Prop where
  /-- The effects are later forms. -/
  thins : before.effects.Thins after.effects
  /-- Nothing waits, or fewer effects are live. -/
  wanes : waiting = 0 ∨ after.effects.live.length < before.effects.live.length

/-- An entity is a form of itself. -/
theorem Entity.LeadsTo.refl (entity : Entity) : entity.LeadsTo entity 0 :=
  ⟨.of_eq rfl, .inl rfl⟩

/-- A later form of a later form. -/
theorem Entity.LeadsTo.trans {first second third : Entity} {waiting more : Nat}
    (earlier : first.LeadsTo second waiting) (later : second.LeadsTo third more) :
    first.LeadsTo third (waiting + more) := by
  refine ⟨earlier.thins.trans later.thins, ?_⟩
  rcases earlier.wanes with none | fewer
  · rcases later.wanes with still | fewer
    · exact .inl (by rw [none, still])
    · exact .inr (Nat.lt_of_lt_of_le fewer earlier.thins.length_le)
  · exact .inr (Nat.lt_of_le_of_lt later.thins.length_le fewer)

/-- What the effects on an entity meet, and which of them may be live. -/
structure Surroundings where
  /-- The number of the entity. -/
  id : EntityId
  /-- The loaded skills. -/
  library : SkillLibrary
  /-- The names of attributes. -/
  names : Dict String AttributeId
  /-- The effects that may be live. -/
  keys : List EffectId

namespace World

/-- An entity is registered in a world, in some surroundings. -/
structure Hosts (world : World) (around : Surroundings) (entity : Entity) : Prop where
  /-- Every entity is registered under its own number. -/
  numbered : world.Numbered
  /-- The entity is registered. -/
  registered : world.entity? around.id = some entity
  /-- These skills are loaded. -/
  library : world.library = around.library
  /-- These are the names. -/
  names : world.scene.names = around.names

/-- One world is another with one entity replaced, some cues stopped and as many tag changes of the
entity waiting. -/
structure Moves (before after : World) (id : EntityId) (entity : Entity) (stopped : List CueId)
    (waiting : Nat) : Prop where
  /-- The entity is replaced. -/
  alters : before.Alters after id fun _ => entity
  /-- It keeps its number. -/
  number : entity.id = id
  /-- The cues are stopped. -/
  cues : after.cues = (before.cues.cancelEach stopped).1
  /-- The tag changes wait. -/
  tagChanges : after.tagChanges = before.tagChanges ++ List.replicate waiting id

/-- Some frames are taken one after the other, with what they leave, until none remains; no reply
matters. -/
inductive Settles : World → List Frame → World → Prop
  /-- None remains. -/
  | done {world : World} : Settles world [] world
  /-- The first one is taken. -/
  | step {world after : World} {frame : Frame} {rest : List Frame} {progress : Progress}
      (takes : ∀ reply, frame.expand world reply = progress) (kept : progress.lost = false)
      (onward : Settles progress.world (progress.frames ++ rest) after) :
      Settles world (frame :: rest) after

variable {first second third before after world : World} {id : EntityId} {entity other : Entity}
  {around : Surroundings}

/-- Frames in a row. -/
theorem Settles.append {frames rest : List Frame} (earlier : first.Settles frames second)
    (later : second.Settles rest third) : first.Settles (frames ++ rest) third := by
  induction earlier with
  | done => exact later
  | step takes kept _ ih =>
    refine .step takes kept ?_
    have onward := ih later
    rwa [List.append_assoc] at onward

/-- A cascade with these frames in front comes to what remains behind them. -/
theorem Settles.run {frames : List Frame} (settles : world.Settles frames after) :
    ∀ (cascade : Cascade) (rest : List Frame), cascade.world = world →
      cascade.agenda = frames ++ rest →
        ∃ bound, (cascade.run bound).world = after ∧ (cascade.run bound).agenda = rest := by
  induction settles with
  | done => exact fun cascade rest same agenda => ⟨0, same, agenda⟩
  | @step world after frame others progress takes kept _ ih =>
    intro cascade rest same agenda
    subst same
    have following : cascade.agenda = frame :: (others ++ rest) := agenda
    have taken := takes cascade.reply
    obtain ⟨bound, reached, remains⟩ := ih cascade.step rest
      ((Cascade.world_step following).trans (congrArg Progress.world taken))
      (by rw [Cascade.agenda_step following ((congrArg Progress.lost taken).trans kept), taken,
        List.append_assoc])
    have busy : cascade.isDone = false := by simp [Cascade.isDone, following]
    refine ⟨bound + 1, ?_⟩
    rw [Cascade.run, if_neg (by simp [busy])]
    exact ⟨reached, remains⟩

namespace Moves

variable {stopped later : List CueId} {waiting more : Nat}

/-- Nothing happens. -/
theorem refl (registered : world.entity? id = some entity) (number : entity.id = id) :
    world.Moves world id entity [] 0 where
  alters := (Alters.refl world id).congr fun other stored => by
    cases registered.symm.trans stored
    rfl
  number := number
  cues := rfl
  tagChanges := by simp

/-- One after the other. -/
theorem trans (earlier : first.Moves second id entity stopped waiting)
    (onward : second.Moves third id other later more) :
    first.Moves third id other (stopped ++ later) (waiting + more) where
  alters := earlier.alters.trans onward.alters
  number := onward.number
  cues := by rw [onward.cues, earlier.cues, CueStage.cancelEach_append]
  tagChanges := by
    rw [onward.tagChanges, earlier.tagChanges, List.append_assoc, List.replicate_append_replicate]

end Moves

namespace Hosts

/-- The entity has its number. -/
theorem number (hosts : world.Hosts around entity) : entity.id = around.id :=
  hosts.numbered _ _ hosts.registered

/-- The effects of the entity are found on it. -/
theorem effect? (hosts : world.Hosts around entity) (key : EffectId) :
    world.effect? ⟨around.id, key⟩ = entity.effects.get? key :=
  effect?_eq hosts.registered

/-- Nothing happens. -/
theorem still (hosts : world.Hosts around entity) : world.Moves world around.id entity [] 0 :=
  .refl hosts.registered hosts.number

/-- The changed entity is registered in the same surroundings. -/
theorem alters {change : Entity → Entity} (hosts : world.Hosts around entity)
    (alters : world.Alters after around.id change) (number : (change entity).id = around.id) :
    after.Hosts around (change entity) := by
  obtain ⟨_, _, _, shape⟩ := alters.shape
  refine ⟨fun id stored found => ?_, alters.self hosts.registered, ?_, ?_⟩
  · obtain ⟨earlier, was, rfl⟩ := alters.origin found
    split
    · next same =>
      subst same
      cases hosts.registered.symm.trans was
      exact number
    · exact hosts.numbered id earlier was
  · rw [shape]
    exact hosts.library
  · rw [shape]
    exact hosts.names

/-- A change of the entity, apart from which some cues are stopped and tag changes wait. -/
theorem moves {change : Entity → Entity} {stopped : List CueId} {waiting : Nat}
    (hosts : world.Hosts around entity) (alters : world.Alters after around.id change)
    (number : (change entity).id = entity.id)
    (cues : after.cues = (world.cues.cancelEach stopped).1)
    (tagChanges : after.tagChanges = world.tagChanges ++ List.replicate waiting around.id) :
    world.Moves after around.id (change entity) stopped waiting where
  alters := alters.congr fun other found => by
    cases hosts.registered.symm.trans found
    rfl
  number := number.trans hosts.number
  cues := cues
  tagChanges := tagChanges

end Hosts

/-- Changing attributes makes no tag change wait. -/
@[simp] theorem tagChanges_changeSheet (world : World) (id : EntityId)
    (change : AttributeSheet → AttributeSheet × List AttributeSignal) :
    (world.changeSheet id change).1.tagChanges = world.tagChanges := by
  unfold changeSheet
  split <;> rfl

/-- Nor does renewing tracked magnitudes. -/
@[simp] theorem tagChanges_refreshTracked (world : World) (handle : EffectHandle) :
    (world.refreshTracked handle).tagChanges = world.tagChanges := by
  obtain ⟨_, same⟩ := refreshTracked_withRegistry world handle
  rw [same]
  rfl

/-- Releasing an effect makes tag changes wait as often as the engine hears of its tags. -/
theorem tagChanges_release (hosts : world.Hosts around entity) (key : EffectId) (effect : Effect)
    (state : EffectState) :
    (world.release ⟨around.id, key⟩ effect state).1.tagChanges = world.tagChanges ++
      List.replicate (entity.alarms effect.definition.tags.granted.tags) around.id := by
  have registered := (alters_detached world ⟨around.id, key⟩ effect state).self hosts.registered
  have still : (world.detached ⟨around.id, key⟩ effect state).tagChanges = world.tagChanges :=
    tagChanges_changeSheet _ _ _
  rw [world_release, registered]
  dsimp only [takeTags, changeTags, hear]
  rw [List.map_const']
  exact congrArg₂ (· ++ List.replicate _ ·) still hosts.number

end World

namespace Surroundings

variable {around : Surroundings} {entity middle other : Entity} {frame : Frame}
  {frames rest : List Frame} {stopped later : List CueId} {waiting more : Nat}

/-- Taken wherever an entity is registered, a frame leaves the same and makes the same of it. -/
def Acts (around : Surroundings) (entity : Entity) (frame : Frame) (frames : List Frame)
    (other : Entity) (stopped : List CueId) (waiting : Nat) : Prop :=
  ∀ world : World, world.Hosts around entity → ∃ progress : Progress,
    (∀ reply, frame.expand world reply = progress) ∧ progress.lost = false ∧
      progress.frames = frames ∧ world.Moves progress.world around.id other stopped waiting

/-- Taken to the end wherever an entity is registered, some frames make the same of it. -/
def Settles (around : Surroundings) (entity : Entity) (frames : List Frame) (other : Entity)
    (stopped : List CueId) (waiting : Nat) : Prop :=
  ∀ world : World, world.Hosts around entity → ∃ after, world.Settles frames after ∧
    world.Moves after around.id other stopped waiting

/-- Nothing is done. -/
theorem Settles.nil : around.Settles entity [] entity [] 0 :=
  fun world hosts => ⟨world, .done, hosts.still⟩

/-- Frames in a row. -/
theorem Settles.append (earlier : around.Settles entity frames middle stopped waiting)
    (onward : around.Settles middle rest other later more) :
    around.Settles entity (frames ++ rest) other (stopped ++ later) (waiting + more) := by
  intro world hosts
  obtain ⟨between, settles, moves⟩ := earlier world hosts
  obtain ⟨after, others, further⟩ := onward between (hosts.alters moves.alters moves.number)
  exact ⟨after, settles.append others, moves.trans further⟩

/-- A frame, then what it leaves. -/
theorem Acts.settles (acts : around.Acts entity frame frames middle stopped waiting)
    (onward : around.Settles middle frames other later more) :
    around.Settles entity [frame] other (stopped ++ later) (waiting + more) := by
  intro world hosts
  obtain ⟨progress, takes, kept, left, moves⟩ := acts world hosts
  obtain ⟨after, others, further⟩ := onward progress.world (hosts.alters moves.alters moves.number)
  refine ⟨after, .step takes kept ?_, moves.trans further⟩
  rwa [left, List.append_nil]

/-- What is stored under the number of an effect that may be live acts on the entity and is
secluded. -/
structure Shelters (around : Surroundings) (entity : Entity) : Prop where
  /-- It acts on the entity. -/
  placed : ∀ key ∈ around.keys, ∀ effect, entity.effects.get? key = some effect →
    effect.target = around.id
  /-- It is secluded. -/
  secluded : ∀ key ∈ around.keys, ∀ effect, entity.effects.get? key = some effect →
    effect.Secluded around.library
  /-- What is live may be. -/
  known : ∀ key ∈ entity.effects.liveIds, key ∈ around.keys

/-- A stored effect that is live is secluded. -/
theorem Shelters.of_live (shelters : around.Shelters entity) {key : EffectId} {effect : Effect}
    (found : entity.effects.get? key = some effect) (live : effect.isLive = true) :
    effect.Secluded around.library := by
  obtain ⟨stored, rfl⟩ := EffectRoster.mem_of_get? found
  refine shelters.secluded _ (shelters.known _ ?_) effect found
  exact List.mem_map_of_mem (List.mem_filter.2 ⟨stored, live⟩)

/-- A later form of an entity is sheltered as well. -/
theorem Shelters.leads (shelters : around.Shelters entity) (leads : entity.LeadsTo other waiting) :
    around.Shelters other where
  placed key listed effect found := by
    obtain ⟨earlier, stored, becomes⟩ := leads.thins.get? key effect found
    exact becomes.target.trans (shelters.placed key listed earlier stored)
  secluded key listed effect found := by
    obtain ⟨earlier, stored, becomes⟩ := leads.thins.get? key effect found
    exact (shelters.secluded key listed earlier stored).becomes becomes
  known key live := shelters.known key (leads.thins.liveIds.subset live)

/-- Some frames come to an end and make the same later form of an entity, wherever it is
registered. -/
def Ends (around : Surroundings) (entity : Entity) (frames : List Frame) : Prop :=
  ∃ other stopped waiting, around.Settles entity frames other stopped waiting ∧
    entity.LeadsTo other waiting

namespace Ends

/-- No frame. -/
theorem nil : around.Ends entity [] := ⟨entity, [], 0, .nil, .refl entity⟩

/-- Some frames, then others, which make something of every later form of the entity. -/
theorem append (shelters : around.Shelters entity) (first : around.Ends entity frames)
    (others : ∀ other, around.Shelters other →
      other.effects.live.length ≤ entity.effects.live.length → around.Ends other rest) :
    around.Ends entity (frames ++ rest) := by
  obtain ⟨middle, stopped, waiting, settles, leads⟩ := first
  obtain ⟨other, later, more, onward, further⟩ :=
    others middle (shelters.leads leads) leads.thins.length_le
  exact ⟨other, _, _, settles.append onward, leads.trans further⟩

/-- A frame in front. -/
theorem cons (shelters : around.Shelters entity) (first : around.Ends entity [frame])
    (others : ∀ other, around.Shelters other →
      other.effects.live.length ≤ entity.effects.live.length → around.Ends other rest) :
    around.Ends entity (frame :: rest) :=
  append shelters first others

/-- Frames that each make something of every later form of the entity. -/
theorem each (shelters : around.Shelters entity)
    (ends : ∀ frame ∈ frames, ∀ other, around.Shelters other →
      other.effects.live.length ≤ entity.effects.live.length → around.Ends other [frame]) :
    around.Ends entity frames := by
  induction frames generalizing entity with
  | nil => exact .nil
  | cons frame rest ih =>
    refine cons shelters (ends frame List.mem_cons_self entity shelters (Nat.le_refl _)) ?_
    intro other sheltered fewer
    exact ih sheltered fun next member later still less =>
      ends next (List.mem_cons_of_mem _ member) later still (Nat.le_trans less fewer)

/-- A frame that makes a later form of an entity, and what it leaves. -/
theorem acts (acts : around.Acts entity frame frames middle stopped waiting)
    (leads : entity.LeadsTo middle waiting) (onward : around.Ends middle frames) :
    around.Ends entity [frame] := by
  obtain ⟨other, later, more, settles, further⟩ := onward
  exact ⟨other, _, _, acts.settles settles, leads.trans further⟩

/-- A frame that changes nothing, and what it leaves. -/
theorem still
    (takes : ∀ world : World, world.Hosts around entity → ∃ answer, ∀ reply,
      frame.expand world reply = { world, frames, reply := answer })
    (onward : around.Ends entity frames) : around.Ends entity [frame] := by
  have stays : around.Acts entity frame frames entity [] 0 := fun world hosts => by
    obtain ⟨answer, takes⟩ := takes world hosts
    exact ⟨_, takes, rfl, rfl, hosts.still⟩
  exact acts stays (.refl entity) onward

/-- A frame that changes the entity, stops no cue and makes no tag change wait, and what it
leaves. -/
theorem quietly (change : Entity → Entity)
    (leads : entity.LeadsTo (change entity) 0) (number : (change entity).id = entity.id)
    (takes : ∀ world : World, world.Hosts around entity → ∃ step,
      (∀ reply, frame.expand world reply = .told step frames) ∧
        world.Alters step.1 around.id change ∧ step.1.cues = world.cues ∧
          step.1.tagChanges = world.tagChanges)
    (onward : around.Ends (change entity) frames) : around.Ends entity [frame] := by
  have changes : around.Acts entity frame frames (change entity) [] 0 := fun world hosts => by
    obtain ⟨step, takes, alters, cues, tagChanges⟩ := takes world hosts
    exact ⟨_, takes, rfl, rfl,
      hosts.moves alters number cues (tagChanges.trans (List.append_nil _).symm)⟩
  exact acts changes leads onward

end Ends

variable {key : EffectId} {effect : Effect}

/-- A port that leads nowhere. -/
theorem ends_fire (entity : Entity) (secluded : effect.Secluded around.library)
    (handle : EffectHandle) (port : EffectPort) (context : Context) :
    around.Ends entity [.fire (effect.fires handle port context)] := by
  refine .still (fun world hosts => ⟨none, fun _ => ?_⟩) .nil
  have nowhere := secluded.ports port
  rw [← hosts.library] at nowhere
  simp only [Frame.expand, World.fire, Effect.fires, nowhere]

/-- An answer. -/
theorem ends_answer (around : Surroundings) (entity : Entity) (reply : Reply) :
    around.Ends entity [.answer reply] :=
  .still (fun _ _ => ⟨some reply, fun _ => rfl⟩) .nil

/-- Re-checking requirements, when the removals that it brings come to an end. -/
theorem ends_enforce_of (shelters : around.Shelters entity)
    (removals : ∀ key other, around.Shelters other →
      other.effects.live.length ≤ entity.effects.live.length →
        around.Ends other [.finish ⟨around.id, key⟩ .removed true]) :
    around.Ends entity [.enforce around.id] := by
  refine @Ends.still _ _ _ ((entity.effects.violating entity.tags.hasAll).map fun key =>
    .finish ⟨around.id, key⟩ .removed true)
    (fun world hosts => ⟨none, fun _ => ?_⟩) (.each shelters fun frame member => ?_)
  · simp only [Frame.expand, World.enforce, hosts.registered]
  · obtain ⟨key, _, rfl⟩ := List.mem_map.1 member
    exact removals key

/-- A live effect is released, fires its last ports, and requirements are re-checked. -/
theorem acts_finish (found : entity.effects.get? key = some effect) (live : effect.isLive = true)
    (state : EffectState) : around.Acts entity (.finish ⟨around.id, key⟩ state true)
      [.fire (effect.fires ⟨around.id, key⟩ .removed effect.context),
        .fire (effect.fires ⟨around.id, key⟩ .complete effect.context), .enforce around.id,
        .answer (.flag true)]
      (entity.releasing key effect.definition.tags.granted.tags state) effect.cues
      (entity.alarms effect.definition.tags.granted.tags) := by
  intro world hosts
  have stored := (hosts.effect? key).trans found
  exact ⟨_, fun _ => World.finish_of_live stored live state true, rfl, rfl, hosts.moves
    (World.alters_release hosts.numbered stored state) rfl
    (World.cues_release world ⟨around.id, key⟩ effect state)
    (World.tagChanges_release hosts key effect state)⟩

/-- What is left when a live effect is released. -/
theorem leads_releasing (found : entity.effects.get? key = some effect)
    (live : effect.isLive = true) {state : EffectState} (final : state.isTerminal = true) :
    (entity.releasing key effect.definition.tags.granted.tags state).effects.live.length <
        entity.effects.live.length ∧
      entity.LeadsTo (entity.releasing key effect.definition.tags.granted.tags state)
        (entity.alarms effect.definition.tags.granted.tags) := by
  have ended : entity.effects.Thins (entity.effects.modify key (·.ended state)) :=
    EffectRoster.thins_modify fun other stored => by
      cases found.symm.trans stored
      exact ⟨.ended live final, fun _ => live⟩
  have dropped := EffectRoster.thins_remove (entity.effects.modify key (·.ended state)) key
  have fewer := Nat.lt_of_le_of_lt dropped.length_le
    (EffectRoster.length_live_ended found live final)
  exact ⟨fewer, ended.trans dropped, .inr fewer⟩

/-- Ending an effect. Those that end because it has are fewer than the live ones before. -/
theorem ends_finish (shelters : around.Shelters entity) (key : EffectId) {state : EffectState}
    (final : state.isTerminal = true) :
    around.Ends entity [.finish ⟨around.id, key⟩ state true] := by
  induction size : entity.effects.live.length using Nat.strong_induction_on
    generalizing entity key state with
  | _ size ih =>
    have unmoved (idle : ∀ effect, entity.effects.get? key = some effect → effect.isLive = false) :
        around.Ends entity [.finish ⟨around.id, key⟩ state true] := by
      refine .still (fun world hosts => ⟨some (.flag false), fun _ => ?_⟩) .nil
      simp only [Frame.expand, World.finish, hosts.effect?]
      split
      · rfl
      · next effect found =>
        rw [if_neg (by simp [idle effect found])]
        rfl
    cases found : entity.effects.get? key with
    | none => exact unmoved fun effect stored => by cases found.symm.trans stored
    | some effect =>
      by_cases live : effect.isLive = true
      · obtain ⟨fewer, leads⟩ := leads_releasing found live final
        have secluded := shelters.of_live found live
        refine .acts (acts_finish found live state) leads ?_
        refine .cons (shelters.leads leads) (ends_fire _ secluded _ _ _)
          fun second sheltered less => ?_
        refine .cons sheltered (ends_fire second secluded _ _ _) fun third sheltered further => ?_
        refine .cons sheltered (ends_enforce_of sheltered fun other last sheltered least => ?_)
          fun fourth sheltered _ => ends_answer around fourth _
        exact ih _ (by omega) sheltered other rfl rfl
      · refine unmoved fun other stored => ?_
        cases found.symm.trans stored
        exact Bool.eq_false_iff.2 live

/-- Re-checking requirements. -/
theorem ends_enforce (shelters : around.Shelters entity) :
    around.Ends entity [.enforce around.id] :=
  ends_enforce_of shelters fun key _ sheltered _ => ends_finish sheltered key rfl

/-- Firing pulses. -/
theorem ends_pulses (shelters : around.Shelters entity) (key : EffectId) (count : Nat) :
    around.Ends entity [.pulses ⟨around.id, key⟩ count] := by
  induction count generalizing entity with
  | zero => exact .still (fun _ _ => ⟨none, fun _ => rfl⟩) .nil
  | succ count ih =>
    cases found : entity.effects.get? key with
    | none =>
      refine .still (fun world hosts => ⟨none, fun _ => ?_⟩) .nil
      simp only [Frame.expand, World.pulses, hosts.effect?, found]
    | some effect =>
      by_cases live : effect.isLive = true
      · refine @Ends.still _ _ _ [.fire (effect.fires ⟨around.id, key⟩ .periodic effect.context),
          .pulses ⟨around.id, key⟩ count]
          (fun world hosts => ⟨none, fun _ => ?_⟩) (.cons shelters
            (ends_fire entity (shelters.of_live found live) _ _ _) fun _ sheltered _ =>
              ih sheltered)
        simp only [Frame.expand, World.pulses, hosts.effect?, found, live, if_true]
      · refine .still (fun world hosts => ⟨none, fun _ => ?_⟩) .nil
        simp only [Frame.expand, World.pulses, hosts.effect?, found, if_neg live]

/-- A later form of an effect in its place gives a later form of an entity. -/
theorem leads_touching (found : entity.effects.get? key = some effect) (touched : Effect)
    (retouches : effect.Retouches touched) {updates : List (Nat × AttributeId × Float32)}
    (tracks : touched.Tracks updates) :
    entity.LeadsTo (entity.touching key touched updates) 0 := by
  have same := retouches.becomes.id.trans (EffectRoster.mem_of_get? found).2
  refine ⟨?_, .inl rfl⟩
  rw [Entity.effects_touching same]
  refine EffectRoster.thins_modify fun other stored => ?_
  cases found.symm.trans stored
  refine ⟨World.becomes_renewed retouches tracks, fun live => ?_⟩
  rw [Effect.renewed_eq] at live
  exact retouches.live.symm.trans live

/-- Treating an effect as run out. -/
theorem ends_expire (shelters : around.Shelters entity) (key : EffectId) :
    around.Ends entity [.expire ⟨around.id, key⟩] := by
  cases found : entity.effects.get? key with
  | none =>
    refine .still (fun world hosts => ⟨none, fun _ => ?_⟩) .nil
    simp only [Frame.expand, World.expire, hosts.effect?, found]
  | some effect =>
    have number := (EffectRoster.mem_of_get? found).2
    have ends (other : Entity) (sheltered : around.Shelters other) :
        around.Ends other [.finish ⟨around.id, key⟩ .expired true] := ends_finish sheltered key rfl
    have ended (takes : ∀ world : World, world.Hosts around entity →
        world.expire ⟨around.id, key⟩ =
          { world, frames := [.finish ⟨around.id, key⟩ .expired true] }) :
        around.Ends entity [.expire ⟨around.id, key⟩] :=
      .still (fun world hosts => ⟨none, fun _ => takes world hosts⟩) (ends entity shelters)
    cases policy : (effect.definition.stacking.map (·.expiration)).getD .clearEntireStack with
    | clearEntireStack =>
      refine ended fun world hosts => ?_
      simp only [World.expire, hosts.effect?, found, policy]
    | removeSingleStackAndRefreshDuration =>
      obtain ⟨fewer, lessened⟩ :
          ∃ fewer, { effect with stackCount := effect.stackCount - 1 } = fewer := ⟨_, rfl⟩
      have retouches : effect.Retouches fewer :=
        lessened ▸ .of_eq rfl rfl rfl rfl rfl rfl rfl rfl
      by_cases last : effect.stackCount - 1 = 0
      · have leads := leads_touching found fewer retouches (.nil _)
        refine .quietly (·.touching key fewer []) leads rfl (fun world hosts => ?_)
          (ends _ (shelters.leads leads))
        refine ⟨(_, []), fun _ => ?_, World.alters_touch world ⟨around.id, key⟩ fewer, rfl, rfl⟩
        simp only [Frame.expand, World.expire, hosts.effect?, found, policy, lessened, if_pos last]
        rfl
      · have again : effect.Retouches fewer.restartDuration :=
          lessened ▸ .of_eq rfl rfl rfl rfl rfl rfl rfl rfl
        have touched := leads_touching found fewer.restartDuration again (.nil _)
        have leads : entity.LeadsTo (entity.restacking key fewer.restartDuration []) 0 :=
          ⟨touched.thins, touched.wanes⟩
        refine .quietly (·.restacking key fewer.restartDuration []) leads rfl
          (fun world hosts => ?_) .nil
        refine ⟨_, fun _ => ?_, World.alters_restack
          (World.alters_touch world ⟨around.id, key⟩ fewer.restartDuration)
          (retouches.becomes.id.trans number) rfl, World.cues_changeSheet _ _ _,
          World.tagChanges_changeSheet _ _ _⟩
        simp only [Frame.expand, World.expire, hosts.effect?, found, policy, lessened, if_neg last]
    | refreshDuration =>
      by_cases spent : effect.stackCount = 0
      · refine ended fun world hosts => ?_
        simp only [World.expire, hosts.effect?, found, policy, if_pos spent]
      · have leads := leads_touching found effect.restartDuration
          (.of_eq rfl rfl rfl rfl rfl rfl rfl rfl) (.nil _)
        refine .quietly (·.touching key effect.restartDuration []) leads rfl
          (fun world hosts => ?_) .nil
        have alters :
            world.Alters (world.modifyEffect ⟨around.id, key⟩ (·.restartDuration)) around.id
              (·.touching key effect.restartDuration []) := by
          refine (World.alters_modifyEffect world ⟨around.id, key⟩ _).congr
            fun other registered => ?_
          cases hosts.registered.symm.trans registered
          exact congrArg (fun effects => { entity with effects })
            (EffectRoster.modify_of_get? found (·.restartDuration))
        refine ⟨(_, []), fun _ => ?_, alters, rfl, rfl⟩
        simp only [Frame.expand, World.expire, hosts.effect?, found, policy, if_neg spent]
        rfl

/-- Treating an effect as run out, if it is due. -/
theorem ends_expireDue (shelters : around.Shelters entity) (key : EffectId) :
    around.Ends entity [.expireDue ⟨around.id, key⟩] := by
  cases due : (entity.effects.get? key).any fun effect =>
      effect.isLive && effect.durationElapsed with
  | false =>
    refine .still (fun world hosts => ⟨none, fun _ => ?_⟩) .nil
    simp [Frame.expand, World.expireDue, hosts.effect?, due]
  | true =>
    refine .still (fun world hosts => ⟨none, fun _ => ?_⟩) (ends_expire shelters key)
    simp [Frame.expand, World.expireDue, hosts.effect?, due]

/-- Ending the tick of the entity. -/
theorem ends_endEntityTick (around : Surroundings) (entity : Entity) :
    around.Ends entity [.endEntityTick around.id] := by
  have leads : entity.LeadsTo ((entity.onEffects (·.endTick)).onSheet
      AttributeSheet.recalculateDirty) 0 :=
    ⟨EffectRoster.thins_endTick entity.effects, .inl rfl⟩
  refine .quietly (fun entity => (entity.onEffects (·.endTick)).onSheet
    AttributeSheet.recalculateDirty) leads rfl (fun world hosts => ?_) .nil
  exact ⟨_, fun _ => rfl, (World.alters_modify world around.id (·.onEffects (·.endTick))).trans
    (World.alters_commit _ around.id), World.cues_changeSheet _ _ _,
    World.tagChanges_changeSheet _ _ _⟩

/-- Wherever an entity is registered, what an effect on it tracks has the same magnitudes, if it is
secluded. -/
theorem trackedMagnitudes_congr {first second : World} (here : first.Hosts around entity)
    (there : second.Hosts around entity) (secluded : effect.Secluded around.library)
    (placed : effect.target = around.id) :
    second.trackedMagnitudes effect = first.trackedMagnitudes effect := by
  unfold World.trackedMagnitudes
  refine List.map_congr_left fun entry member => ?_
  obtain ⟨modifier, slot⟩ := entry
  obtain ⟨listed, tracked⟩ := List.mem_filter.1 member
  have reads := secluded.tracked modifier
    (List.mem_of_getElem? (List.mem_zipIdx_iff_getElem?.1 listed)) (by simpa using tracked)
  have names : second.scene.names = first.scene.names := there.names.trans here.names.symm
  have value : second.resolve modifier.magnitude
        (.of effect.context effect.target effect.stackCount) =
      first.resolve modifier.magnitude (.of effect.context effect.target effect.stackCount) := by
    refine Scene.resolve_congr names (.refl _) rfl (.inl (by decide)) (.inr fun key => ?_) reads _ _
    have one : first.scene.entity? effect.target = some entity := placed ▸ here.registered
    have other : second.scene.entity? effect.target = some entity := placed ▸ there.registered
    simp only [MagnitudeRequest.of, Scene.attributeValue?, Scene.attributeId?, names, one, other]
  exact congrArg (slot, modifier.attr, ·) value

/-- So there are magnitudes that it tracks wherever the entity is registered. -/
theorem exists_trackedMagnitudes (around : Surroundings) (entity : Entity)
    (secluded : effect.Secluded around.library) (placed : effect.target = around.id) :
    ∃ updates, effect.Tracks updates ∧ ∀ world : World, world.Hosts around entity →
      world.trackedMagnitudes effect = updates := by
  by_cases somewhere : ∃ world : World, world.Hosts around entity
  · obtain ⟨world, here⟩ := somewhere
    exact ⟨_, World.tracks_trackedMagnitudes world effect,
      fun other there => trackedMagnitudes_congr here there secluded placed⟩
  · exact ⟨[], .nil effect, fun world hosts => absurd ⟨world, hosts⟩ somewhere⟩

/-- Letting time pass for an effect. -/
theorem ends_tickEffect (shelters : around.Shelters entity) (known : key ∈ around.keys)
    (seconds : Float32) : around.Ends entity [.tickEffect ⟨around.id, key⟩ seconds] := by
  cases found : entity.effects.get? key with
  | none =>
    refine .still (fun world hosts => ⟨none, fun _ => ?_⟩) .nil
    simp only [Frame.expand, World.tickEffect, hosts.effect?, found]
  | some effect =>
    have secluded := shelters.secluded key known effect found
    have retouches := Effect.retouches_advance effect { effect.context with depth := 0 } seconds
    generalize result : ({ effect with
      context := { effect.context with depth := 0 } } : Effect).advance seconds = advanced
      at retouches
    obtain ⟨elapse, touched⟩ := advanced
    have number : touched.id = key := retouches.becomes.id.trans (EffectRoster.mem_of_get? found).2
    have ends (other : Entity) (sheltered : around.Shelters other) : around.Ends other
        (.pulses ⟨around.id, key⟩ elapse.pulses ::
          (if elapse.expired then [.expireDue ⟨around.id, key⟩] else [])) := by
      refine .cons sheltered (ends_pulses sheltered key _) fun last sheltered _ => ?_
      split
      · exact ends_expireDue sheltered key
      · exact .nil
    by_cases tracking : effect.definition.tracks = true
    · have placed : touched.target = around.id := retouches.becomes.target.trans
        (shelters.placed key known effect found)
      obtain ⟨updates, tracks, resolved⟩ := exists_trackedMagnitudes around
        (entity.touching key touched []) (secluded.becomes retouches.becomes) placed
      have leads := leads_touching found touched retouches tracks
      refine .quietly (·.touching key touched updates) leads (Entity.id_tracking _ _ _)
        (fun world hosts => ?_) (ends _ (shelters.leads leads))
      have touches := World.alters_touch world ⟨around.id, key⟩ touched
      have ticked : (world.modifyEffect ⟨around.id, key⟩ fun _ => touched).Hosts around
          (entity.touching key touched []) :=
        hosts.alters touches hosts.number
      have renewals : (world.modifyEffect ⟨around.id, key⟩ fun _ => touched).renewals
          ⟨around.id, key⟩ = updates := by
        unfold World.renewals
        rw [World.effect?_modifyEffect ((hosts.effect? key).trans found) number]
        exact resolved _ ticked
      have alters := touches.trans (World.alters_refreshTracked _ ⟨around.id, key⟩)
      rw [renewals] at alters
      refine ⟨(_, []), fun _ => ?_, alters, World.cues_refreshTracked _ _,
        World.tagChanges_refreshTracked _ _⟩
      simp only [Frame.expand, World.tickEffect, hosts.effect?, found, result, if_pos tracking]
      rfl
    · have leads := leads_touching found touched retouches (.nil _)
      refine .quietly (·.touching key touched []) leads rfl (fun world hosts => ?_)
        (ends _ (shelters.leads leads))
      refine ⟨(_, []), fun _ => ?_, World.alters_touch world ⟨around.id, key⟩ touched, rfl, rfl⟩
      simp only [Frame.expand, World.tickEffect, hosts.effect?, found, result, if_neg tracking]
      rfl

/-- The whole tick of the entity. -/
theorem ends_tickEntity (shelters : around.Shelters entity) (seconds : Float32) :
    around.Ends entity [.tickEntity around.id seconds] := by
  have leads : entity.LeadsTo (entity.onEffects fun effects => effects.beginTick.2) 0 :=
    ⟨.of_eq rfl, .inl rfl⟩
  have begun := shelters.leads leads
  refine @Ends.quietly _ _ _ (entity.effects.liveIds.map (fun key =>
      .tickEffect ⟨around.id, key⟩ seconds) ++ [.endEntityTick around.id])
    (·.onEffects fun effects => effects.beginTick.2) leads rfl (fun world hosts => ?_)
      (.append begun (.each begun fun frame member other sheltered _ => ?_)
        fun last _ _ => ends_endEntityTick around last)
  · have alters : world.Alters (world.modify around.id fun other =>
        { other with effects := entity.effects.beginTick.2 }) around.id
          (·.onEffects fun effects => effects.beginTick.2) :=
      (World.alters_modify world around.id _).congr fun other registered => by
        cases hosts.registered.symm.trans registered
        rfl
    refine ⟨(_, []), fun _ => ?_, alters, rfl, rfl⟩
    simp only [Frame.expand, World.tickEntity, hosts.registered]
    rfl
  · obtain ⟨key, live, rfl⟩ := List.mem_map.1 member
    exact ends_tickEffect sheltered (shelters.known key live) seconds

end Surroundings

end SkillEngine
