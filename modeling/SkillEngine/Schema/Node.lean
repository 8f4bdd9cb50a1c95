import SkillEngine.Graph.Skill
import SkillEngine.Schema.Condition
import SkillEngine.Schema.Effect

/-!
# Encodings of skills

Cues, tasks, nodes, connections and whole graphs. A graph that is read as a skill is validated;
`SkillGraph.LoadError` tells text or bytes that are no graph from a graph that is not valid.
-/

namespace SkillEngine

open Binary (Format)
open Json (Decoder required withDefault recordSlots variant noPayload)

/-- The names of the target selectors. -/
def TargetSelector.names : Names TargetSelector :=
  ⟨[(.caster, "Caster"), (.mainTarget, "MainTarget"), (.parentInput, "ParentInput"),
    (.allTargets, "AllTargets"), (.parentInputOrMain, "ParentInputOrMain")]⟩

/-- The names of the node categories. -/
def NodeCategory.names : Names NodeCategory :=
  ⟨[(.effect, "Effect"), (.task, "Task"), (.condition, "Condition"), (.cue, "Cue")]⟩

namespace CueDef

/-- A record. -/
def toJson (definition : CueDef) : Json :=
  .record [("cue", .text definition.cue), ("duration", definition.duration.toJson),
    ("params", .record (definition.params.entries.map fun entry => (entry.1, entry.2.toJson)))]

/-- A record. -/
def decoder : Decoder CueDef := fun room json =>
  match recordSlots ["cue", "duration", "params"] room json with
  | some (room, [cue, duration, params]) => do
    some {
      cue := ← required Decoder.string room cue
      duration := ← withDefault Decoder.single .zero room duration
      params := .ofList (← withDefault (Decoder.entries Decoder.single) [] room params) }
  | _ => none

/-- The fields in order. -/
def format : Format CueDef :=
  (Format.string.pair (Number.Single.format.pair
    (Format.list (Format.string.pair Number.Single.format)))).map
    (fun (cue, duration, params) => ⟨cue, duration, .ofList params⟩)
    (fun definition => (definition.cue, definition.duration, definition.params.entries))

end CueDef

namespace SearchShape

/-- A variant with a record. -/
def toJson : SearchShape → Json
  | .sphere radius => .record [("Sphere", .record [("radius", radius.toJson)])]
  | .box x y z =>
    .record [("Box", .record [("half_extents", .array [x.toJson, y.toJson, z.toJson])])]
  | .cone radius angle =>
    .record [("Cone", .record [("radius", radius.toJson), ("angle_degrees", angle.toJson)])]

/-- Three floats. -/
def extentsDecoder : Decoder SearchShape
  | room + 1, .array [x, y, z] => do
    some (.box (← Decoder.single room x) (← Decoder.single room y) (← Decoder.single room z))
  | _, _ => none

/-- A variant with a record. -/
def decoder : Decoder SearchShape := fun room json =>
  match variant room json with
  | some ("Sphere", some payload, room) =>
    match recordSlots ["radius"] room payload with
    | some (room, [radius]) => (required Decoder.single room radius).map .sphere
    | _ => none
  | some ("Box", some payload, room) =>
    match recordSlots ["half_extents"] room payload with
    | some (room, [extents]) => required extentsDecoder room extents
    | _ => none
  | some ("Cone", some payload, room) =>
    match recordSlots ["radius", "angle_degrees"] room payload with
    | some (room, [radius, angle]) => do
      some (.cone (← required Decoder.single room radius) (← required Decoder.single room angle))
    | _ => none
  | _ => none

/-- Three floats in order. -/
def extentsFormat : Format (Number.Single × Number.Single × Number.Single) :=
  Number.Single.format.pair (Number.Single.format.pair Number.Single.format)

/-- The number of the variant, then its fields. -/
def format : Format SearchShape :=
  Format.variant
    (fun shape => match shape with
      | .sphere _ => 0
      | .box .. => 1
      | .cone .. => 2)
    (fun shape => match shape with
      | .sphere radius => Number.Single.format.write radius
      | .box x y z => extentsFormat.write (x, y, z)
      | .cone radius angle =>
        (Number.Single.format.pair Number.Single.format).write (radius, angle))
    (fun number => match number with
      | 0 => some (Number.Single.format.map .sphere fun _ => .zero).read
      | 1 => some (extentsFormat.map (fun (x, y, z) => .box x y z) fun _ => default).read
      | 2 => some ((Number.Single.format.pair Number.Single.format).map
          (fun (radius, angle) => .cone radius angle) fun _ => default).read
      | _ => none)

end SearchShape

namespace TaskDef

/-- A variant with a record, or a name alone. -/
def toJson : TaskDef → Json
  | .searchTargets shape requireTags excludeTags maxCount excludeCaster =>
    .record [("SearchTargets", .record [("shape", shape.toJson),
      ("require_tags", requireTags.toJson), ("exclude_tags", excludeTags.toJson),
      ("max_count", match maxCount with
        | none => .null
        | some count => .nat count.toNat),
      ("exclude_caster", .bool excludeCaster)])]
  | .setContextValue key formula =>
    .record [("SetContextValue", .record [("key", .text key), ("formula", formula.toJson)])]
  | .removeEffectsWithTags tags =>
    .record [("RemoveEffectsWithTags", .record [("tags", tags.toJson)])]
  | .addLooseTags tags => .record [("AddLooseTags", .record [("tags", tags.toJson)])]
  | .removeLooseTags tags => .record [("RemoveLooseTags", .record [("tags", tags.toJson)])]
  | .captureSnapshot => .text "CaptureSnapshot"

/-- A record of tags. -/
def tagsDecoder : Decoder TagSet := fun room json =>
  match recordSlots ["tags"] room json with
  | some (room, [tags]) => required TagSet.decoder room tags
  | _ => none

/-- The record of a search. -/
def searchDecoder : Decoder TaskDef := fun room json =>
  match recordSlots ["shape", "require_tags", "exclude_tags", "max_count", "exclude_caster"]
      room json with
  | some (room, [shape, requireTags, excludeTags, maxCount, excludeCaster]) => do
    some (.searchTargets (← required SearchShape.decoder room shape)
      (← withDefault TagSet.decoder .empty room requireTags)
      (← withDefault TagSet.decoder .empty room excludeTags)
      (← withDefault Decoder.uint64.nullable none room maxCount)
      (← withDefault Decoder.bool false room excludeCaster))
  | _ => none

/-- A variant with a record, or a name alone. -/
def decoder : Decoder TaskDef := fun room json =>
  match variant room json with
  | some ("SearchTargets", some payload, room) => searchDecoder room payload
  | some ("SetContextValue", some payload, room) =>
    match recordSlots ["key", "formula"] room payload with
    | some (room, [key, formula]) => do
      some (.setContextValue (← required Decoder.string room key)
        (← required Formula.Source.decoder room formula))
    | _ => none
  | some ("RemoveEffectsWithTags", some payload, room) =>
    (tagsDecoder room payload).map .removeEffectsWithTags
  | some ("AddLooseTags", some payload, room) => (tagsDecoder room payload).map .addLooseTags
  | some ("RemoveLooseTags", some payload, room) => (tagsDecoder room payload).map .removeLooseTags
  | some ("CaptureSnapshot", payload, _) => noPayload .captureSnapshot payload
  | _ => none

/-- The fields of a search. -/
def searchFormat : Format (SearchShape × TagSet × TagSet × Option UInt64 × Bool) :=
  SearchShape.format.pair (TagSet.format.pair (TagSet.format.pair
    ((Format.option Format.uint64).pair Format.bool)))

/-- The number of the variant, then its fields. -/
def format : Format TaskDef :=
  Format.variant
    (fun task => match task with
      | .searchTargets .. => 0
      | .setContextValue .. => 1
      | .removeEffectsWithTags _ => 2
      | .addLooseTags _ => 3
      | .removeLooseTags _ => 4
      | .captureSnapshot => 5)
    (fun task => match task with
      | .searchTargets shape requireTags excludeTags maxCount excludeCaster =>
        searchFormat.write (shape, requireTags, excludeTags, maxCount, excludeCaster)
      | .setContextValue key formula =>
        (Format.string.pair Formula.Source.format).write (key, formula)
      | .removeEffectsWithTags tags => TagSet.format.write tags
      | .addLooseTags tags => TagSet.format.write tags
      | .removeLooseTags tags => TagSet.format.write tags
      | .captureSnapshot => [])
    (fun number => match number with
      | 0 => some (searchFormat.map
          (fun (shape, requireTags, excludeTags, maxCount, excludeCaster) =>
            .searchTargets shape requireTags excludeTags maxCount excludeCaster)
          fun _ => (default, .empty, .empty, none, false)).read
      | 1 => some ((Format.string.pair Formula.Source.format).map
          (fun (key, formula) => .setContextValue key formula) fun _ => ("", .ofText "")).read
      | 2 => some (TagSet.format.map .removeEffectsWithTags fun _ => .empty).read
      | 3 => some (TagSet.format.map .addLooseTags fun _ => .empty).read
      | 4 => some (TagSet.format.map .removeLooseTags fun _ => .empty).read
      | 5 => some (Format.unit.map (fun _ => .captureSnapshot) fun _ => ()).read
      | _ => none)

end TaskDef

namespace NodeKind

/-- A variant with one payload. -/
def toJson : NodeKind → Json
  | .effect definition => .record [("Effect", definition.toJson)]
  | .task definition => .record [("Task", definition.toJson)]
  | .condition definition => .record [("Condition", definition.toJson)]
  | .cue definition => .record [("Cue", definition.toJson)]

/-- A variant with one payload. -/
def decoder : Decoder NodeKind := fun room json =>
  match variant room json with
  | some ("Effect", some payload, room) => (EffectDef.decoder room payload).map .effect
  | some ("Task", some payload, room) => (TaskDef.decoder room payload).map .task
  | some ("Condition", some payload, room) => (ConditionDef.decoder room payload).map .condition
  | some ("Cue", some payload, room) => (CueDef.decoder room payload).map .cue
  | _ => none

/-- The number of the variant, then its payload. -/
def format : Format NodeKind :=
  Format.variant
    (fun kind => match kind with
      | .effect _ => 0
      | .task _ => 1
      | .condition _ => 2
      | .cue _ => 3)
    (fun kind => match kind with
      | .effect definition => EffectDef.format.write definition
      | .task definition => TaskDef.format.write definition
      | .condition definition => ConditionDef.format.write definition
      | .cue definition => CueDef.format.write definition)
    (fun number => match number with
      | 0 => some (EffectDef.format.map .effect fun _ => {}).read
      | 1 => some (TaskDef.format.map .task fun _ => .captureSnapshot).read
      | 2 => some (ConditionDef.format.map .condition fun _ => .always).read
      | 3 => some (CueDef.format.map .cue fun _ => default).read
      | _ => none)

end NodeKind

namespace Node

/-- A record. -/
def toJson (node : Node) : Json :=
  .record [("id", node.id.toJson), ("kind", node.kind.toJson),
    ("position", .array [node.position.1.toJson, node.position.2.toJson]),
    ("target", TargetSelector.names.toJson node.target)]

/-- Two floats. -/
def positionDecoder : Decoder (Number.Single × Number.Single)
  | room + 1, .array [x, y] => do some (← Decoder.single room x, ← Decoder.single room y)
  | _, _ => none

/-- A record. -/
def decoder : Decoder Node := fun room json =>
  match recordSlots ["id", "kind", "position", "target"] room json with
  | some (room, [id, kind, position, target]) => do
    some {
      id := ← required NodeId.decoder room id
      kind := ← required NodeKind.decoder room kind
      position := ← withDefault positionDecoder (.zero, .zero) room position
      target := ← withDefault TargetSelector.names.decoder .parentInputOrMain room target }
  | _ => none

/-- The fields in order. -/
def format : Format Node :=
  (NodeId.format.pair (NodeKind.format.pair
    ((Number.Single.format.pair Number.Single.format).pair TargetSelector.names.format))).map
    (fun (id, kind, position, target) => ⟨id, kind, position, target⟩)
    (fun node => (node.id, node.kind, node.position, node.target))

end Node

namespace Connection

/-- A record. -/
def toJson (connection : Connection) : Json :=
  .record [("from", connection.source.toJson), ("from_port", .text connection.sourcePort),
    ("to", connection.target.toJson), ("to_port", .text connection.targetPort)]

/-- A record. -/
def decoder : Decoder Connection := fun room json =>
  match recordSlots ["from", "from_port", "to", "to_port"] room json with
  | some (room, [source, sourcePort, target, targetPort]) => do
    some {
      source := ← required NodeId.decoder room source
      sourcePort := ← required Decoder.string room sourcePort
      target := ← required NodeId.decoder room target
      targetPort := ← withDefault Decoder.string "input" room targetPort }
  | _ => none

/-- The fields in order. -/
def format : Format Connection :=
  (NodeId.format.pair (Format.string.pair (NodeId.format.pair Format.string))).map
    (fun (source, sourcePort, target, targetPort) => ⟨source, sourcePort, target, targetPort⟩)
    (fun connection => (connection.source, connection.sourcePort, connection.target,
      connection.targetPort))

end Connection

namespace SkillGraph

/-- A record. -/
def toJson (graph : SkillGraph) : Json :=
  .record [("id", graph.id.toJson), ("name", .text graph.name),
    ("nodes", .array (graph.nodes.map Node.toJson)),
    ("connections", .array (graph.connections.map Connection.toJson))]

/-- A record. -/
def decoder : Decoder SkillGraph := fun room json =>
  match recordSlots ["id", "name", "nodes", "connections"] room json with
  | some (room, [id, name, nodes, connections]) => do
    some {
      id := ← required SkillId.decoder room id
      name := ← withDefault Decoder.string "" room name
      nodes := ← required (Decoder.list Node.decoder) room nodes
      connections := ← withDefault (Decoder.list Connection.decoder) [] room connections }
  | _ => none

/-- The fields in order. -/
def format : Format SkillGraph :=
  (SkillId.format.pair (Format.string.pair
    ((Format.list Node.format).pair (Format.list Connection.format)))).map
    (fun (id, name, nodes, connections) => ⟨id, name, nodes, connections⟩)
    (fun graph => (graph.id, graph.name, graph.nodes, graph.connections))

/-- Why a skill cannot be loaded. -/
inductive LoadError where
  /-- The text is not the JSON form of a graph. -/
  | json
  /-- The bytes are not the binary form of a graph. -/
  | binary (error : Binary.Error)
  /-- The graph is not valid. -/
  | invalid (error : EngineError)
  deriving DecidableEq

/-- The graph, if it is valid. -/
def checked (graph : SkillGraph) : Except LoadError SkillGraph :=
  match graph.validate with
  | .ok () => .ok graph
  | .error error => .error (.invalid error)

/-- The valid graph of a JSON document. -/
def ofJson (json : Json) : Except LoadError SkillGraph :=
  match decoder Json.documentRoom json with
  | some graph => graph.checked
  | none => .error .json

/-- The valid graph of a text. -/
def ofJsonText (text : String) : Except LoadError SkillGraph :=
  match Json.parse text with
  | some json => ofJson json
  | none => .error .json

/-- The text of a graph, in lines. -/
def toJsonText (graph : SkillGraph) : String := graph.toJson.pretty

/-- The binary form of a graph. -/
def toBytes (graph : SkillGraph) : List UInt8 := format.write graph

/-- The valid graph of a binary form, whatever follows it. -/
def ofBytes (bytes : List UInt8) : Except LoadError SkillGraph :=
  match Binary.decode format bytes with
  | .ok graph => graph.checked
  | .error error => .error (.binary error)

end SkillGraph

end SkillEngine
