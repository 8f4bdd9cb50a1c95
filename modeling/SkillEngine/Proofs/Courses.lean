import SkillEngine.Proofs.Applications
import SkillEngine.Proofs.Protocol

/-!
# Frames taken to the end

Frames at the head of an agenda are taken one by one, each with what it leaves, until none of them
remains. `World.Takes` tells which frames are taken on the way, so that the ports which fire can be
read off them. A port that leads to cues alone takes a course of its own: cues start, the effect
that owns the walk takes along those that run, and nothing else happens.
-/

namespace SkillEngine

namespace Cascade

variable {cascade : Cascade} {frame : Frame} {rest : List Frame} {steps bound : Nat}

/-- A run that has come to its end goes no further. -/
theorem run_of_le (done : (cascade.run steps).isDone = true) (enough : steps ≤ bound) :
    cascade.run bound = cascade.run steps := by
  have parts : bound = steps + (bound - steps) := by omega
  rw [parts, run_add, run_of_isDone _ done]

/-- The states of a run whose first frame is taken. -/
theorem during_succ (next : cascade.agenda = frame :: rest) (bound : Nat) :
    cascade.during (bound + 1) = cascade :: cascade.step.during bound := by
  simp [during, isDone, next]

/-- A run that has come to its end goes through no other states. -/
theorem during_of_le (done : (cascade.run steps).isDone = true) (enough : steps ≤ bound) :
    cascade.during bound = cascade.during steps := by
  induction steps generalizing cascade bound with
  | zero =>
    cases bound with
    | zero => rfl
    | succ bound => exact if_pos done
  | succ steps ih =>
    cases bound with
    | zero => cases enough
    | succ bound =>
      cases next : cascade.agenda with
      | nil => simp [during, isDone, next]
      | cons frame rest =>
        rw [run_succ next] at done
        rw [during_succ next, during_succ next, ih done (Nat.le_of_succ_le_succ enough)]

/-- Between two requests no ports are fired. -/
theorem fired_duringEach_cons (done : cascade.agenda = []) (bound : Nat)
    (request : Request) (rest : List Request) (handle : EffectHandle) :
    fired handle (cascade.duringEach bound (request :: rest)) =
      fired handle ((ofRequest cascade.world request).during bound) ++
        fired handle (((ofRequest cascade.world request).run bound).duringEach bound rest) := by
  have silent : cascade.port? handle = none := by
    rw [port?, done]
    rfl
  rw [fired, duringEach, List.cons_append, List.filterMap_cons_none silent, List.filterMap_append]
  rfl

end Cascade

/-- The ports of some frames, the first of which fires a port of an effect. -/
theorem Frame.ports_fires (effect : Effect) (handle : EffectHandle) (port : EffectPort)
    (context : Context) (rest : List Frame) (other : EffectHandle) :
    ports other (.fire (effect.fires handle port context) :: rest) =
      (if other = handle then [port.name] else []) ++ ports other rest := by
  by_cases same : other = handle
  · rw [if_pos same, same]
    exact List.filterMap_cons_some (port?_fires effect handle port context)
  · rw [if_neg same]
    exact List.filterMap_cons_none (port?_fires_of_ne effect (Ne.symm same) port context)

namespace World

/-- Some frames are taken one after the other, with what they leave, until none remains; no reply
matters. All the frames that are taken are listed. -/
inductive Takes : World → List Frame → List Frame → World → Prop
  /-- None remains. -/
  | done {world : World} : Takes world [] [] world
  /-- The first one is taken. -/
  | step {world after : World} {frame : Frame} {rest taken : List Frame} {progress : Progress}
      (takes : ∀ reply, frame.expand world reply = progress) (kept : progress.lost = false)
      (onward : Takes progress.world (progress.frames ++ rest) taken after) :
      Takes world (frame :: rest) (frame :: taken) after

variable {first second third world after : World} {frame : Frame} {request : Request}
  {frames rest taken others : List Frame} {progress : Progress} {owner handle : EffectHandle}

/-- Frames in a row. -/
theorem Takes.append (earlier : first.Takes frames taken second)
    (later : second.Takes rest others third) :
    first.Takes (frames ++ rest) (taken ++ others) third := by
  induction earlier with
  | done => exact later
  | step takes kept _ ih =>
    refine .step takes kept ?_
    have onward := ih later
    rwa [List.append_assoc] at onward

/-- A frame with all that it leaves. -/
theorem Takes.single (takes : ∀ reply, frame.expand world reply = progress)
    (kept : progress.lost = false) (onward : progress.world.Takes progress.frames taken after) :
    world.Takes [frame] (frame :: taken) after :=
  .step takes kept (by rwa [List.append_nil])

/-- A cascade with these frames in front comes to what remains behind them, loses nothing and fires
the ports of the frames taken. -/
theorem Takes.run (takes : world.Takes frames taken after) (cascade : Cascade)
    (same : cascade.world = world) (agenda : cascade.agenda = frames ++ rest) :
    cascade.keeps taken.length = true ∧ (cascade.run taken.length).world = after ∧
      (cascade.run taken.length).agenda = rest ∧
      ∀ handle, Cascade.fired handle (cascade.during taken.length) = Frame.ports handle taken := by
  induction takes generalizing cascade with
  | done => exact ⟨rfl, same, agenda, fun handle => rfl⟩
  | @step world after frame others taken progress takes kept _ ih =>
    subst same
    have next : cascade.agenda = frame :: (others ++ rest) := agenda
    have expands := takes cascade.reply
    have lossless : (frame.expand cascade.world cascade.reply).lost = false :=
      (congrArg Progress.lost expands).trans kept
    have remains : cascade.step.agenda = progress.frames ++ others ++ rest := by
      rw [Cascade.agenda_step next lossless, expands, List.append_assoc]
    obtain ⟨keeps, reached, left, fired⟩ := ih cascade.step
      ((Cascade.world_step next).trans (congrArg Progress.world expands)) remains
    rw [List.length_cons, Cascade.keeps_succ next lossless, Cascade.run_succ next,
      Cascade.during_succ next]
    refine ⟨keeps, reached, left, fun handle => ?_⟩
    have now : cascade.port? handle = frame.port? handle := by
      rw [Cascade.port?, next]
      rfl
    unfold Cascade.fired Frame.ports at fired ⊢
    rw [List.filterMap_cons, List.filterMap_cons, now, fired]

/-- A request whose frames are taken to the end is performed so under every bound that they do not
exceed. -/
theorem Takes.perform (takes : world.Takes [.perform request] taken after) {bound : Nat}
    (enough : taken.length ≤ bound) :
    (Cascade.ofRequest world request).keeps bound = true ∧
      ((Cascade.ofRequest world request).run bound).world = after ∧
      ((Cascade.ofRequest world request).run bound).agenda = [] ∧
      ∀ handle, Cascade.fired handle ((Cascade.ofRequest world request).during bound) =
        Frame.ports handle taken := by
  obtain ⟨keeps, reached, left, fired⟩ :=
    takes.run (.ofRequest world request) rfl (List.append_nil _).symm
  have done : ((Cascade.ofRequest world request).run taken.length).isDone = true :=
    List.isEmpty_iff.2 left
  rw [Cascade.run_of_le done enough, Cascade.during_of_le done enough]
  exact ⟨Cascade.keeps_of_isDone keeps done bound, reached, left, fired⟩

end World

/-! ## Cues -/

/-- The effect with some more cues, if it is live to take them along. -/
def Effect.cued (cues : List CueId) (effect : Effect) : Effect :=
  if effect.isLive then { effect with cues := effect.cues ++ cues } else effect

namespace Effect

/-- Nothing but its cues changes when an effect takes cues along. -/
theorem cued_eq (cues : List CueId) (effect : Effect) :
    effect.cued cues = { effect with cues := (effect.cued cues).cues } := by
  unfold cued
  split <;> rfl

/-- No cue is taken along. -/
theorem cued_nil (effect : Effect) : effect.cued [] = effect := by
  unfold cued
  rw [List.append_nil, ite_self]

/-- Cues are taken along one after the other. -/
theorem cued_cued (cues more : List CueId) (effect : Effect) :
    (effect.cued cues).cued more = effect.cued (cues ++ more) := by
  by_cases live : effect.isLive = true
  · have still : Effect.isLive { effect with cues := effect.cues ++ cues } = true := live
    simp only [cued, if_pos live, if_pos still, List.append_assoc]
  · simp only [cued, if_neg live]

/-- An effect that takes cues along keeps its number. -/
theorem id_cued (cues : List CueId) (effect : Effect) : (effect.cued cues).id = effect.id := by
  rw [cued_eq]

/-- An effect that takes cues along stays as live as it was. -/
theorem isLive_cued (cues : List CueId) (effect : Effect) :
    (effect.cued cues).isLive = effect.isLive := by
  rw [cued_eq]
  rfl

end Effect

namespace World

/-- One world is another in which cues were started and some of them taken along by an effect. -/
def Plays (before after : World) (owner : EffectHandle) : Prop :=
  ∃ cues, before.Alters after owner.target (·.onEffects (·.modify owner.id (·.cued cues)))

variable {first second third world after : World} {owner : EffectHandle}

/-- No cue was started. -/
theorem Plays.refl (world : World) (owner : EffectHandle) : world.Plays world owner := by
  refine ⟨[], (Alters.refl world owner.target).congr fun entity _ => ?_⟩
  have same : (Effect.cued [] : Effect → Effect) = fun effect => effect := funext Effect.cued_nil
  rw [Entity.onEffects, same, EffectRoster.modify_same]

/-- Some cues after others. -/
theorem Plays.trans (earlier : first.Plays second owner) (later : second.Plays third owner) :
    first.Plays third owner := by
  obtain ⟨cues, alters⟩ := earlier
  obtain ⟨more, onward⟩ := later
  refine ⟨cues ++ more, (alters.trans onward).congr fun entity _ => ?_⟩
  simp only [Function.comp, Entity.onEffects, EffectRoster.modify_modify (Effect.id_cued cues),
    Effect.cued_cued]

/-- What else happens to the cues meanwhile does not matter. -/
theorem Plays.withCues (plays : first.Plays second owner) (cues : CueStage) :
    first.Plays { second with cues } owner :=
  plays.imp fun _ alters => alters.withCues cues

/-- The loaded skills, what nodes do and the number of the next effect stay when one entity is
changed. -/
theorem Alters.surroundings {id : EntityId} {change : Entity → Entity}
    (alters : world.Alters after id change) : after.library = world.library ∧
      after.behaviours = world.behaviours ∧ after.nextEffect = world.nextEffect := by
  obtain ⟨_, _, _, rfl⟩ := alters.shape
  exact ⟨rfl, rfl, rfl⟩

/-- Nodes do what their category says after cues were started, if they did before. -/
theorem Plays.standard (plays : world.Plays after owner) (standard : world.Standard) :
    after.Standard := by
  obtain ⟨_, alters⟩ := plays
  intro category
  rw [alters.surroundings.2.1]
  exact standard category

/-- A cue node starts one cue at most. -/
theorem plays_runCue (world : World) (skill : SkillId) (node : Node) {context : Context}
    (owned : context.owner = some owner) (definition : CueDef) :
    world.Plays (world.runCue skill node context definition).world owner := by
  unfold runCue
  dsimp only
  generalize world.cues.spawn definition skill node.id context = spawned
  obtain ⟨cue, stage, events⟩ := spawned
  have started : world.Plays { world with cues := stage } owner :=
    (Plays.refl world owner).withCues _
  rw [owned]
  cases cue with
  | none => exact started
  | some cue => exact started.trans ⟨[cue], alters_modifyEffect _ owner _⟩

/-- The walk through some cue nodes starts cues and fires no ports of effects. -/
theorem takes_branch (standard : world.Standard) (skill : SkillId) {context : Context}
    (owned : context.owner = some owner) {nodes : List Node}
    (cues : ∀ node ∈ nodes, node.category = .cue) :
    ∃ taken after, world.Takes [.branch skill context nodes] taken after ∧
      world.Plays after owner ∧ ∀ handle, Frame.ports handle taken = [] := by
  induction nodes generalizing world with
  | nil => exact ⟨_, _, .single (fun _ => rfl) rfl .done, .refl world owner, fun handle => rfl⟩
  | cons node rest ih =>
    have kind : ∃ definition, node.kind = .cue definition := by
      have category : node.kind.category = .cue := cues node List.mem_cons_self
      cases kind : node.kind with
      | cue definition => exact ⟨definition, rfl⟩
      | _ =>
        rw [kind] at category
        cases category
    obtain ⟨definition, kind⟩ := kind
    have visits (reply : Reply) : (Frame.visit skill node context).expand world reply =
        world.runCue skill node context definition := by
      have category : node.category = .cue := cues node List.mem_cons_self
      simp only [Frame.expand, visit, category, standard .cue, runStandard, kind]
    have played := world.plays_runCue skill node owned definition
    obtain ⟨taken, after, onward, plays, silent⟩ := ih (played.standard standard)
      fun other member => cues other (List.mem_cons_of_mem _ member)
    have walks : world.Takes [.visit skill node context, .branch skill context rest]
        (.visit skill node context :: taken) after := .step visits rfl onward
    exact ⟨_, after, .single (fun _ => rfl) rfl walks, played.trans plays, silent⟩

/-- A port that leads to cues alone starts cues and fires no other ports of effects. -/
theorem takes_fire (standard : world.Standard) (firing : Firing)
    (owned : firing.context.owner = some owner)
    (cues : ∀ node ∈ world.library.connected firing.skill firing.node firing.port,
      node.category = .cue) :
    ∃ taken after, world.Takes [.fire firing] (.fire firing :: taken) after ∧
      world.Plays after owner ∧ ∀ handle, Frame.ports handle taken = [] := by
  cases leads : world.library.connected firing.skill firing.node firing.port with
  | nil =>
    have fires (reply : Reply) : (Frame.fire firing).expand world reply = { world } := by
      simp only [Frame.expand, fire, leads]
    exact ⟨[], world, .single fires rfl .done, .refl world owner, fun handle => rfl⟩
  | cons node rest =>
    by_cases deep : world.config.maxCascadeDepth ≤ firing.context.depth
    · have fires (reply : Reply) : (Frame.fire firing).expand world reply = { world } := by
        simp only [Frame.expand, fire, leads, if_pos deep]
      exact ⟨[], world, .single fires rfl .done, .refl world owner, fun handle => rfl⟩
    · have fires (reply : Reply) : (Frame.fire firing).expand world reply =
          { world, frames := [.branch firing.skill firing.context.descend (node :: rest)] } := by
        simp only [Frame.expand, fire, leads, if_neg deep]
      have descends : firing.context.descend.owner = some owner := owned
      obtain ⟨taken, after, onward, plays, silent⟩ :=
        takes_branch standard firing.skill descends (leads ▸ cues)
      exact ⟨taken, after, .single fires rfl onward, plays, silent⟩

end World

end SkillEngine
