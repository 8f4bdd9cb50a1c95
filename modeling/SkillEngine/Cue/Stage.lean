import SkillEngine.Context
import SkillEngine.Cue.Definition
import SkillEngine.Number.Scalar

/-!
# The cue stage

The stage makes cues by name, starts them, ticks those that run and drops them when they have
finished. A timed cue runs silently for the duration that its definition gives. A reported cue tells
every call made on it and runs as long as it was registered for. Only a cue that runs after its
start gets a number.
-/

namespace SkillEngine

/-- What a reported cue tells. -/
inductive CueEvent where
  /-- It was made from a definition. -/
  | made (definition : CueDef)
  /-- It was bound to a node and a context. -/
  | initialized (name : String) (skill : SkillId) (node : NodeId) (context : Context)
  /-- It was started. -/
  | executed (name : String)
  /-- Time passed for it. -/
  | ticked (name : String) (seconds : Float32)
  /-- It was stopped. -/
  | cancelled (name : String)

/-- How cues of a name are made. -/
inductive CueFactory where
  /-- Silent, for the duration of the definition. -/
  | timed
  /-- Reported under a name: never running without a life, until cancelled with a negative one,
  else for that many seconds. -/
  | reported (name : String) (life : Option Float32)

/-- A silent cue that runs for a duration. -/
structure TimedCue where
  /-- The seconds that it runs. -/
  duration : Float32
  /-- The seconds that it has run. -/
  elapsed : Float32 := 0
  /-- It runs. -/
  running : Bool := false
  deriving Inhabited

namespace TimedCue

/-- The cue bound to a node: nothing has elapsed. -/
def bound (cue : TimedCue) : TimedCue := { cue with elapsed := 0 }

/-- Started: it runs if it has a duration. -/
def execute (cue : TimedCue) : TimedCue := { cue with running := 0 < cue.duration }

/-- Stopped. -/
def cancel (cue : TimedCue) : TimedCue := { cue with running := false }

/-- Some seconds later: it stops at its duration. -/
def tick (cue : TimedCue) (seconds : Float32) : TimedCue :=
  let elapsed := cue.elapsed + seconds
  { cue with elapsed, running := cue.running && !decide (cue.duration ≤ elapsed) }

end TimedCue

/-- A cue on the stage. -/
inductive Cue where
  /-- A timed cue. -/
  | timed (cue : TimedCue)
  /-- A reported cue with its life, the seconds left, and whether it runs. -/
  | reported (name : String) (life : Option Float32) (left : Float32) (running : Bool)

namespace Cue

/-- The cue runs. -/
def isRunning : Cue → Bool
  | .timed cue => cue.running
  | .reported _ _ _ running => running

/-- A cue of a factory, bound and started, and what it tells. -/
def start (factory : CueFactory) (definition : CueDef) (skill : SkillId) (node : NodeId)
    (context : Context) : Cue × List CueEvent :=
  match factory with
  | .timed => (.timed (TimedCue.execute { duration := definition.duration.value }), [])
  | .reported name life =>
    (.reported name life (life.getD 0) life.isSome,
      [.made definition, .initialized name skill node context, .executed name])

/-- The cue some seconds later, and what it tells. -/
def tick (seconds : Float32) : Cue → Cue × List CueEvent
  | .timed cue => (.timed (cue.tick seconds), [])
  | .reported name life left running =>
    match life with
    | some total =>
      if 0 ≤ total then
        (.reported name life (left - seconds) (0 < left - seconds), [.ticked name seconds])
      else (.reported name life left running, [.ticked name seconds])
    | none => (.reported name life left running, [.ticked name seconds])

/-- What the cue tells when it is stopped. -/
def cancel : Cue → List CueEvent
  | .timed _ => []
  | .reported name .. => [.cancelled name]

end Cue

/-- The factories by name, the running cues, and the number that the next one gets. -/
structure CueStage where
  /-- How cues of each name are made. -/
  factories : Dict String CueFactory
  /-- The running cues, in order of their start. -/
  running : List (CueId × Cue)
  /-- The next number. -/
  next : Nat

namespace CueStage

/-- The stage that knows the timed cue alone. -/
def initial : CueStage := ⟨Dict.empty.insert "timed" .timed, [], 0⟩

instance : Inhabited CueStage := ⟨initial⟩

/-- The stage with a factory registered or replaced. -/
def register (stage : CueStage) (name : String) (factory : CueFactory) : CueStage :=
  { stage with factories := stage.factories.insert name factory }

/-- There is a factory of that name. -/
def supports (stage : CueStage) (name : String) : Bool := stage.factories.contains name

/-- Makes and starts a cue: its number, if it then runs, and what it tells. -/
def spawn (stage : CueStage) (definition : CueDef) (skill : SkillId) (node : NodeId)
    (context : Context) : Option CueId × CueStage × List CueEvent :=
  match stage.factories.get? definition.cue with
  | none => (none, stage, [])
  | some factory =>
    let (cue, events) := Cue.start factory definition skill node context
    if cue.isRunning then
      (some ⟨stage.next⟩,
        { stage with running := stage.running ++ [(⟨stage.next⟩, cue)], next := stage.next + 1 },
        events)
    else (none, stage, events)

/-- The cue with that number runs. -/
def isRunning (stage : CueStage) (id : CueId) : Bool := stage.running.any (·.1 == id)

/-- Stops a running cue; tells whether it ran, and what it tells. -/
def cancel (stage : CueStage) (id : CueId) : Bool × CueStage × List CueEvent :=
  match stage.running.lookup id with
  | none => (false, stage, [])
  | some cue =>
    (true, { stage with running := stage.running.filter (·.1 != id) }, cue.cancel)

/-- Stops some cues in turn, and what they tell. -/
def cancelEach (stage : CueStage) : List CueId → CueStage × List CueEvent
  | [] => (stage, [])
  | id :: rest =>
    let (_, stage, events) := stage.cancel id
    let (stage, others) := stage.cancelEach rest
    (stage, events ++ others)

/-- The stage some seconds later: every running cue is ticked, then the finished ones leave. -/
def tick (stage : CueStage) (seconds : Float32) : CueStage × List CueEvent :=
  ({ stage with
      running := (stage.running.map fun entry => (entry.1, (entry.2.tick seconds).1)).filter
        (·.2.isRunning) },
    stage.running.flatMap fun entry => (entry.2.tick seconds).2)

/-- The number of running cues. -/
def size (stage : CueStage) : Nat := stage.running.length

/-- No cue runs. -/
def isEmpty (stage : CueStage) : Bool := stage.running.isEmpty

end CueStage

end SkillEngine
