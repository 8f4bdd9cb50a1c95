import SkillEngine.Proofs.Returns

/-!
# What a search fires

A search goes through the host's candidates once, passing over those that do not qualify or were hit
before, and stops at its limit. `hitsFrom_eq_hits` says that this loop finds what a pipeline does:
those who qualify, each once, up to the limit. `searches_fire_per_hit` says what becomes of the
hits. They are settled before the first branch, so nothing that a branch does adds, drops or
reorders one.
-/

namespace SkillEngine

/-- At most as many elements of a list as a limit allows. -/
def atMost {α : Type} (limit : Option Nat) (list : List α) : List α :=
  match limit with
  | none => list
  | some count => list.take count

namespace World

variable {world : World} {caster candidate : EntityId} {requireTags excludeTags : TagSet}
  {excludeCaster : Bool}

/-- The entities that the host finds in a shape around an origin. -/
def candidates (world : World) (origin : EntityId) (shape : SearchShape) : List EntityId :=
  match world.query with
  | none => []
  | some query => query origin shape

/-- A candidate qualifies: it is not a caster that is left out, and it is registered and holds tags
that match all that are required and none that is excluded. -/
def Qualifies (world : World) (caster : EntityId) (requireTags excludeTags : TagSet)
    (excludeCaster : Bool) (candidate : EntityId) : Prop :=
  ¬(excludeCaster = true ∧ candidate = caster) ∧ ∃ entity, world.entity? candidate = some entity ∧
    entity.tags.hasAll requireTags = true ∧ entity.tags.hasAny excludeTags = false

/-- The filters of a search let through who qualifies. -/
theorem passes_iff_qualifies : world.passes requireTags excludeTags
      (if excludeCaster then some caster else none) candidate = true ↔
    world.Qualifies caster requireTags excludeTags excludeCaster candidate := by
  rw [passes, Bool.and_eq_true, Option.any_eq_true]
  refine and_congr ?_ (exists_congr fun entity => and_congr Iff.rfl ?_)
  · cases excludeCaster with
    | false => simp
    | true =>
      simp only [if_true, bne_iff_ne, ne_eq, Option.some.injEq, true_and, @eq_comm _ candidate]
  · rw [Bool.and_eq_true, Bool.not_eq_true']

instance : DecidablePred (world.Qualifies caster requireTags excludeTags excludeCaster) :=
  fun _ => decidable_of_iff _ passes_iff_qualifies

/-- The hits of a search among some candidates: those that qualify, each where it first stands, up
to a limit. -/
def hits (world : World) (caster : EntityId) (requireTags excludeTags : TagSet)
    (excludeCaster : Bool) (limit : Option Nat) (candidates : List EntityId) : List EntityId :=
  atMost limit (candidates.filter fun candidate =>
    decide (world.Qualifies caster requireTags excludeTags excludeCaster candidate)).eraseDups

/-- What is added to earlier hits: who passes and is not among them, up to what is left of the
limit. -/
theorem hitsFrom_eq (passes : EntityId → Bool) (limit : Option Nat)
    (hits candidates : List EntityId) :
    hitsFrom passes limit hits candidates = hits ++
      atMost (limit.map (· - hits.length))
        (candidates.filter fun candidate =>
          passes candidate && !hits.contains candidate).eraseDups := by
  induction candidates generalizing hits with
  | nil => cases limit <;> simp [hitsFrom, atMost]
  | cons candidate rest ih =>
    rw [hitsFrom]
    split
    · next full =>
      obtain ⟨count, rfl, reached⟩ := (Option.any_eq_true _ _).1 full
      have none : count - hits.length = 0 := Nat.sub_eq_zero_of_le (of_decide_eq_true reached)
      simp [atMost, none]
    · next room =>
      split
      · next taken =>
        -- Once the candidate is among the hits, the later ones equal to it are passed over.
        have others : (rest.filter fun other => passes other && !hits.contains other).filter
            (fun other => !other == candidate) =
            rest.filter fun other => passes other && !(hits ++ [candidate]).contains other := by
          rw [List.filter_filter]
          refine List.filter_congr fun other _ => ?_
          simp only [List.contains_append]
          grind
        rw [ih, List.filter_cons, if_pos taken, List.eraseDups_cons, others, List.append_assoc]
        congr 1
        cases limit with
        | none => rfl
        | some count =>
          have fewer : hits.length < count := by simpa using room
          have left : count - hits.length = count - (hits ++ [candidate]).length + 1 := by
            rw [List.length_append, List.length_singleton]
            omega
          simp only [atMost, Option.map_some, left, List.take_succ_cons, List.singleton_append]
      · next passed => rw [ih, List.filter_cons, if_neg passed]

/-- The loop over the candidates finds the hits. -/
theorem hitsFrom_eq_hits (limit : Option Nat) (candidates : List EntityId) :
    hitsFrom (world.passes requireTags excludeTags (if excludeCaster then some caster else none))
        limit [] candidates =
      world.hits caster requireTags excludeTags excludeCaster limit candidates := by
  have whole : limit.map (· - ([] : List EntityId).length) = limit := by cases limit <;> rfl
  rw [hitsFrom_eq, whole, List.nil_append, hits]
  congr 2
  refine List.filter_congr fun candidate _ => ?_
  rw [Bool.eq_iff_iff, decide_eq_true_eq, ← passes_iff_qualifies]
  simp

end World

/-- The firings of a search that has its hits: `for_each` on each, then `complete` on all. -/
def searchFirings (skill : SkillId) (node : NodeId) (context : Context) (hits : List EntityId) :
    List Firing :=
  (hits.map fun hit => ⟨skill, node, "for_each", { context with parentInput := some hit }, none⟩) ++
    [⟨skill, node, "complete", { context with targets := hits }, none⟩]

namespace Cascade

/-- Some ports fire one after the other, each when all that the one before has set off is done, and
nothing else happens until the agenda is back at the rest. -/
inductive FiresInTurn (rest : List Frame) : List Firing → Cascade → Cascade → Prop where
  /-- None is left. -/
  | done {now : Cascade} (back : now.agenda = rest) : FiresInTurn rest [] now now
  /-- The first one fires. -/
  | next {firing : Firing} {firings : List Firing} {now later : Cascade} {bound : Nat}
      (fires : now.agenda = .fire firing :: (firings.map .fire ++ rest))
      (returns : now.Returns (firings.map .fire ++ rest) bound)
      (onward : FiresInTurn rest firings (now.run bound) later) :
      FiresInTurn rest (firing :: firings) now later

variable {now : Cascade} {rest : List Frame} {firings : List Firing} {bound : Nat}

/-- Ports that are next fire in turn until the run returns. -/
theorem Returns.firesInTurn (returns : now.Returns rest bound)
    (agenda : now.agenda = firings.map .fire ++ rest) :
    FiresInTurn rest firings now (now.run bound) := by
  induction firings generalizing now bound with
  | nil =>
    cases returns.eq_zero agenda
    exact .done agenda
  | cons firing firings ih =>
    have fires : now.agenda = [.fire firing] ++ (firings.map .fire ++ rest) := agenda
    obtain ⟨first, fewer, rfl, before, onward⟩ := returns.split fires
    rw [run_add]
    exact .next fires before (ih onward before.back)

end Cascade

namespace World

/-- A search leaves its firings and touches nothing. -/
theorem visit_searchTargets {world : World} {node : Node} {shape : SearchShape}
    {requireTags excludeTags : TagSet} {maxCount : Option UInt64} {excludeCaster : Bool}
    (kind : node.kind = .task (.searchTargets shape requireTags excludeTags maxCount excludeCaster))
    (standard : world.behaviours .task = some (.standard .task)) (skill : SkillId)
    (context : Context) :
    (world.visit skill node context).world = world ∧
      (world.visit skill node context).lost = false ∧
      (world.visit skill node context).frames = (searchFirings skill node.id context
        (world.hits context.caster requireTags excludeTags excludeCaster (maxCount.map UInt64.toNat)
          (world.candidates ((context.resolve node.target).headD context.caster) shape))).map
        .fire := by
  have category : node.category = .task := congrArg NodeKind.category kind
  simp only [visit, category, standard, runStandard, kind]
  refine ⟨rfl, rfl, ?_⟩
  rw [← hitsFrom_eq_hits]
  unfold candidates runTask searchFirings
  cases world.query <;> simp [runTask.fires, NodePort.name, Context.forParentInput, hitsFrom]

end World

/-- A search finds who qualifies among the candidates, each once and in their order, up to its
limit. It fires `for_each` once for each hit in that order, with the hit handed down, and then
`complete` with the hits as targets, each with all that it sets off before the next one. In a
session it comes to the end of that unless a roll has no answer. -/
theorem searches_fire_per_hit {now : Cascade} {skill : SkillId} {node : Node} {context : Context}
    {rest : List Frame} {shape : SearchShape} {requireTags excludeTags : TagSet}
    {maxCount : Option UInt64} {excludeCaster : Bool}
    (next : now.agenda = .visit skill node context :: rest)
    (kind : node.kind = .task (.searchTargets shape requireTags excludeTags maxCount excludeCaster))
    (standard : now.world.behaviours .task = some (.standard .task)) :
    let origin := (context.resolve node.target).headD context.caster
    let hits := now.world.hits context.caster requireTags excludeTags excludeCaster
      (maxCount.map UInt64.toNat) (now.world.candidates origin shape)
    let firings := searchFirings skill node.id context hits
    now.step.world = now.world ∧ now.step.agenda = firings.map .fire ++ rest ∧
      (∀ bound, now.step.Returns rest bound →
        Cascade.FiresInTurn rest firings now.step (now.step.run bound)) ∧
      ∀ start past, start.Calm → Session (fun request => request.isLawful = true) start past now →
        (∃ bound, now.step.keeps bound = false) ∨ ∃ bound, now.step.Returns rest bound := by
  intro origin hits firings
  obtain ⟨still, kept, leaves⟩ := World.visit_searchTargets kind standard skill context
  have agenda : now.step.agenda = firings.map .fire ++ rest := by
    rw [Cascade.agenda_step next kept]
    exact congrArg (· ++ rest) leaves
  refine ⟨(Cascade.world_step next).trans still, agenda, fun bound returns => ?_,
    fun start past calm session => ?_⟩
  · exact returns.firesInTurn agenda
  · exact (session.stepped next kept).returns calm agenda

/-- A search for two entities that are not struck, the caster apart. -/
def sweepNode : Node where
  id := ⟨1⟩
  kind := .task (.searchTargets (.sphere .zero) .empty (.ofPaths ["Struck"]) (some 2) true)

/-- A skill that strikes its targets for each hit of the search, and then the hits. -/
def sweep : SkillGraph where
  id := ⟨1⟩
  nodes := [sweepNode,
    { id := ⟨2⟩, kind := .task (.addLooseTags (.ofPaths ["Struck"])), target := .allTargets }]
  connections := [{ source := ⟨1⟩, sourcePort := "for_each", target := ⟨2⟩ },
    { source := ⟨1⟩, sourcePort := "complete", target := ⟨2⟩ }]

/-- A world whose host finds an entity twice, the caster and one that is not registered. -/
def arena : World :=
  { World.create {} .empty with
    query := some fun _ _ => [⟨2⟩, ⟨1⟩, ⟨2⟩, ⟨9⟩, ⟨3⟩, ⟨4⟩] }

/-- Four entities join. -/
def arenaRequests : List Request :=
  [.library (.ok (.insert sweep)), .spawn ⟨1⟩, .spawn ⟨2⟩, .spawn ⟨3⟩, .spawn ⟨4⟩]

/-- The first one starts the skill with the third one as target. -/
def sweepRequest : Request := .activate ⟨1⟩ ⟨1⟩ { caster := ⟨1⟩, edits := [.targets [⟨3⟩]] }

/-- The state in which the search is next. -/
def sweeping : Cascade :=
  (Cascade.ofRequest (Cascade.afterEach 9 { world := arena, agenda := [] } arenaRequests).world
    sweepRequest).run 3

/-- The context of the walk. -/
def sweepContext : Context := { Context.ofCaster ⟨1⟩ with targets := [⟨3⟩] }

/-- Nobody is registered there at first. -/
theorem calm_arena : arena.Calm where
  standard _ := rfl
  numbered _ _ found := by cases found
  idle _ _ found := by cases found
  waiting _ waits := by cases waits

/-- The search hits two, each in its turn, although the second one is struck meanwhile. -/
theorem sweep_hits_two : arena.Calm ∧
    ∃ past, Session (fun request => request.isLawful = true) arena past sweeping ∧
      sweeping.agenda = [.visit ⟨1⟩ sweepNode sweepContext, .answer .nothing] ∧
      sweepNode.kind = .task (.searchTargets (.sphere .zero) .empty (.ofPaths ["Struck"]) (some 2)
        true) ∧
      sweeping.world.behaviours .task = some (.standard .task) ∧
      ((sweeping.step.run 10).world.entity? ⟨3⟩).any (·.tags.hasAny (.ofPaths ["Struck"])) = true ∧
      (sweeping.step.run 10).agenda =
        (searchFirings ⟨1⟩ ⟨1⟩ sweepContext [⟨2⟩, ⟨3⟩]).tail.map .fire ++ [.answer .nothing] ∧
      ∃ bound, Cascade.FiresInTurn [.answer .nothing]
        (searchFirings ⟨1⟩ ⟨1⟩ sweepContext [⟨2⟩, ⟨3⟩]) sweeping.step
        (sweeping.step.run bound) := by
  have joined : Session (fun request => request.isLawful = true) arena _
      (Cascade.afterEach 9 { world := arena, agenda := [] } arenaRequests) :=
    .ofRequests 9 _ (by decide +kernel) (by decide +kernel)
  have asked : Session (fun request => request.isLawful = true) arena _
      (.ofRequest _ sweepRequest) := joined.asked (List.isEmpty_iff.1 (by decide +kernel)) rfl
  have session := asked.run 3 (by decide +kernel)
  have next : sweeping.agenda = [.visit ⟨1⟩ sweepNode sweepContext, .answer .nothing] := rfl
  obtain ⟨_, _, inTurn, ends⟩ := searches_fire_per_hit next rfl rfl
  have kept : sweeping.step.keeps 32 = true := by decide +kernel
  have always (bound : Nat) : sweeping.step.keeps bound = true :=
    Cascade.keeps_of_isDone kept (by decide +kernel) bound
  have returns : ∃ bound, sweeping.step.Returns [.answer .nothing] bound := by
    refine (ends arena _ calm_arena session).resolve_left ?_
    rintro ⟨bound, lost⟩
    cases (always bound).symm.trans lost
  obtain ⟨bound, returns⟩ := returns
  have hits : sweeping.world.hits sweepContext.caster .empty (.ofPaths ["Struck"]) true
      ((some (2 : UInt64)).map UInt64.toNat) (sweeping.world.candidates
        ((sweepContext.resolve sweepNode.target).headD sweepContext.caster) (.sphere .zero)) =
      [⟨2⟩, ⟨3⟩] := by decide +kernel
  have fires := inTurn bound returns
  rw [hits] at fires
  exact ⟨calm_arena, _, session, next, rfl, rfl, by decide +kernel, rfl, bound, fires⟩

end SkillEngine
