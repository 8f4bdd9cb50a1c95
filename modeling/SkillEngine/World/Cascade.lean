import SkillEngine.World.Effects
import SkillEngine.World.Perform
import SkillEngine.World.Walk

/-!
# Cascades

A cascade is a world with an agenda: the frames that remain, next one first. Each step takes the
first frame and puts what it leaves in its place, until the agenda is empty; what was told meanwhile
is the trace. `World.run` performs one request as a cascade, to the end.
-/

namespace SkillEngine

/-- Takes a frame in a world, with the reply that the one before it left. -/
def Frame.expand (world : World) (reply : Reply) : Frame → Progress
  | .fire firing => world.fire firing
  | .branch skill context nodes => world.branch skill context nodes
  | .visit skill node context => world.visit skill node context
  | .enter skill node context => world.enter skill node context
  | .script skill node requests => world.script skill node requests
  | .scripted skill node requests => world.scripted reply skill node requests
  | .perform request => world.perform request
  | .answer reply => .answered world reply
  | .applyEach application targets handles => world.applyEach application targets handles
  | .applied application targets handles => world.applied reply application targets handles
  | .apply application target => world.applyTo application target
  | .write application target => world.write application target
  | .attach application target duration => world.attach application target duration
  | .pulses handle count => world.pulses handle count
  | .expireDue handle => world.expireDue handle
  | .expire handle => world.expire handle
  | .finish handle state fires => world.finish handle state fires
  | .cleanse target tags => world.cleanse target tags
  | .removeEach target ids count => world.removeEach target ids count
  | .enforce target => world.enforce target
  | .drain => world.drain
  | .tickEntity entity seconds => world.tickEntity entity seconds
  | .tickEffect handle seconds => world.tickEffect handle seconds
  | .endEntityTick entity => world.endEntityTick entity
  | .ticks seconds count => world.ticks seconds count
  | .beginTick seconds => world.beginTick seconds
  | .endTick seconds => world.endTick seconds

/-- A cascade in progress. -/
structure Cascade where
  /-- The world so far. -/
  world : World
  /-- What remains to be done, the next frame first. -/
  agenda : List Frame
  /-- The last reply. -/
  reply : Reply := .nothing
  /-- What was told, the latest first. -/
  trace : List Event := []

namespace Cascade

/-- The cascade of a request. -/
def ofRequest (world : World) (request : Request) : Cascade :=
  { world, agenda := [.perform request] }

/-- Nothing remains to be done. -/
def isDone (cascade : Cascade) : Bool := cascade.agenda.isEmpty

/-- Takes the first frame. A roll without an answer drops the rest. -/
def step (cascade : Cascade) : Cascade :=
  match cascade.agenda with
  | [] => cascade
  | frame :: rest =>
    let progress := frame.expand cascade.world cascade.reply
    { world := progress.world
      agenda := if progress.lost then [] else progress.frames ++ rest
      reply := if progress.lost then .refused .noAnswer else progress.reply.getD cascade.reply
      trace := progress.events.reverse ++ cascade.trace }

/-- Takes frames until none remains, at most `bound` of them. -/
def run : Nat → Cascade → Cascade
  | 0, cascade => cascade
  | bound + 1, cascade => if cascade.isDone then cascade else run bound cascade.step

/-- A finished cascade has nothing left to run. -/
theorem run_of_isDone (bound : Nat) {cascade : Cascade} (done : cascade.isDone = true) :
    run bound cascade = cascade := by
  cases bound with
  | zero => rfl
  | succ bound => simp [run, done]

/-- A run can be made in two parts. -/
theorem run_add (first second : Nat) (cascade : Cascade) :
    run (first + second) cascade = run second (run first cascade) := by
  induction first generalizing cascade with
  | zero => simp [run]
  | succ first ih =>
    rw [Nat.succ_add]
    by_cases done : cascade.isDone = true
    · rw [run_of_isDone _ done, run_of_isDone _ done, run_of_isDone _ done]
    · simp [run, done, ih]

/-- The answer of a cascade: its last reply, if it is done. -/
def answer (cascade : Cascade) : Reply :=
  if cascade.isDone then cascade.reply else .refused .unfinished

end Cascade

namespace World

/-- The frames that one request may take. -/
def frameLimit : Nat := 1_000_000_000_000

/-- Performs one request to the end: the answer, the world after it, and what was told, in order. -/
def run (world : World) (request : Request) : Reply × World × List Event :=
  let cascade := (Cascade.ofRequest world request).run frameLimit
  (cascade.answer, cascade.world, cascade.trace.reverse)

end World

end SkillEngine
