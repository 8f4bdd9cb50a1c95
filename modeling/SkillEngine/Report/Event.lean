import SkillEngine.Report.State

/-!
# Reports of replies and events

How a refusal looks is up to whoever reports. The log holds every event but the changes of
attributes, which are told apart, by entity and attribute.
-/

namespace SkillEngine

open Json (ofSingle ofOption ofList)

namespace Reply

mutual

/-- A reply, with refusals as they are shown by `refusal`. -/
def report (refusal : Refusal → Json) : Reply → Json
  | .nothing => .null
  | .flag value => .bool value
  | .count value => .nat value
  | .number value => ofSingle value
  | .text value => .text value
  | .handle place => place.report
  | .attr found => found.report
  | .mode found => AggregatorMode.names.toJson found
  | .effect found => found.report
  | .definition found => .text found.toJson.compact
  | .context found => found.report
  | .node found => found.report
  | .several replies => .array (reportEach refusal replies)
  | .refused reason => refusal reason

/-- Some replies. -/
def reportEach (refusal : Refusal → Json) : List Reply → List Json
  | [] => []
  | first :: rest => report refusal first :: reportEach refusal rest

end

end Reply

/-- A line that starts with words. -/
def Json.line (words : List String) (rest : List Json) : Json := .array (words.map .text ++ rest)

/-- The shape of a search and its measures. -/
def SearchShape.report : SearchShape → Json
  | .sphere radius => .line ["Sphere"] [ofSingle radius.value]
  | .box x y z => .line ["Box"] [ofSingle x.value, ofSingle y.value, ofSingle z.value]
  | .cone radius angle => .line ["Cone"] [ofSingle radius.value, ofSingle angle.value]

/-- The event of a tag that a listener heard of. -/
def TagEvent.report (listener : String) : TagEvent → Json
  | .added tag => .line ["tag", listener, "added", tag.path] []
  | .removed tag => .line ["tag", listener, "removed", tag.path] []

/-- What a cue tells. -/
def CueEvent.report : CueEvent → Json
  | .made definition =>
    .line ["cue_make", definition.cue] [ofSingle definition.duration.value,
      ofList (fun (key, value) => .array [.text key, ofSingle value.value])
        definition.params.entries]
  | .initialized name skill node context =>
    .line ["cue_init", name] [skill.toJson, node.toJson, context.report]
  | .executed name => .line ["cue_exec", name] []
  | .ticked name seconds => .line ["cue_tick", name] [ofSingle seconds]
  | .cancelled name => .line ["cue_cancel", name] []

namespace Event

/-- The line of an event in the log; the change of an attribute has none. -/
def logLine? (refusal : Refusal → Json) : Event → Option Json
  | .tag listener event => some (event.report listener)
  | .asked hook change =>
    some (.line ["pre", hook] [ValueKind.names.toJson change.kind, ofSingle change.old,
      ofSingle change.new])
  | .changed .. => none
  | .cue event => some event.report
  | .queried origin shape => some (.line ["query"] [origin.toJson, shape.report])
  | .scripted skill node ticking reply =>
    some (.line ["host"] [skill.toJson, node.toJson, .bool ticking, reply.report refusal])

/-- The entity and attribute of a change, and which value went from what to what. -/
def change? : Event → Option ((EntityId × AttributeId) × Json)
  | .changed entity change =>
    some ((entity, change.attr),
      .array [ValueKind.names.toJson change.kind, ofSingle change.old, ofSingle change.new])
  | _ => none

/-- The changes among some events: for each entity and attribute, in the order of their numbers,
the changes in the order in which they were made. -/
def changes (events : List Event) : List Json :=
  let changed := events.filterMap change?
  let before := fun (left right : EntityId × AttributeId) =>
    decide (left.1 < right.1) || (left.1 == right.1 && !decide (right.2 < left.2))
  let keys := ((changed.map (·.1)).eraseDups).mergeSort before
  keys.map fun key =>
    .array [key.1.toJson, key.2.toJson,
      .array ((changed.filter (·.1 == key)).map (·.2))]

end Event

end SkillEngine
