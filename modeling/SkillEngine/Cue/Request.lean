import SkillEngine.Cue.Stage
import SkillEngine.Reply
import SkillEngine.Text.Quoted

/-!
# Requests to the cue stage
-/

namespace SkillEngine

namespace CueStage

/-- The names that there are factories for, in order, and the number of running cues. -/
def describe (stage : CueStage) : String :=
  "CueManager \x7b factories: [" ++ ", ".intercalate (stage.factories.keys.map Text.quoted)
    ++ "], running: " ++ toString stage.size ++ " \x7d"

end CueStage

/-- What can be asked of the cue stage. -/
inductive CueRequest where
  /-- Registers a reported cue under its name, with a life if it runs at all. -/
  | register (name : String) (life : Option Float32)
  /-- Whether there is a factory of that name. -/
  | supports (name : String)
  /-- Makes and starts a cue; tells its number if it runs. -/
  | spawn (definition : CueDef) (skill : SkillId) (node : NodeId) (context : Context)
  /-- Stops a cue; tells whether it ran. -/
  | cancel (id : CueId)
  /-- Lets time pass. -/
  | tick (seconds : Float32)
  /-- Whether a cue runs. -/
  | isRunning (id : CueId)
  /-- The stage in words. -/
  | describe

/-- Performs a request on the stage. -/
def CueRequest.perform (stage : CueStage) : CueRequest → Outcome CueStage CueEvent
  | .register name life => ⟨.nothing, stage.register name (.reported name life), []⟩
  | .supports name => ⟨.flag (stage.supports name), stage, []⟩
  | .spawn definition skill node context =>
    let (id, after, events) := stage.spawn definition skill node context
    ⟨.optional (fun id => .count id.raw) id, after, events⟩
  | .cancel id =>
    let (ran, after, events) := stage.cancel id
    ⟨.flag ran, after, events⟩
  | .tick seconds =>
    let (after, events) := stage.tick seconds
    ⟨.nothing, after, events⟩
  | .isRunning id => ⟨.flag (stage.isRunning id), stage, []⟩
  | .describe => ⟨.text stage.describe, stage, []⟩

end SkillEngine
