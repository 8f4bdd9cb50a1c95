import SkillEngine.Schema.Node
import SkillEngine.World.State

/-!
# Reports of state

A report is a JSON document that shows a part of a simulation as it stands, for a log or a debugger.
A float is shown by its bit pattern, so that nothing is lost; all NaNs look alike. What is missing
is null, and what has no order of its own is shown in the order of its keys.
-/

namespace SkillEngine

namespace Json

/-- A number in hexadecimal digits, as many as a width asks for. -/
def hexDigits (width number : Nat) : String :=
  let digits := Nat.toDigits 16 number
  String.ofList (List.replicate (width - digits.length) '0' ++ digits)

/-- A number in hexadecimal. -/
def hex (width number : Nat) : Json := .text (hexDigits width number)

/-- Bytes in hexadecimal. -/
def ofBytes (bytes : List UInt8) : Json :=
  .text (String.join (bytes.map fun byte => hexDigits 2 byte.toNat))

/-- A single-precision float. -/
def ofSingle (value : Float32) : Json :=
  if value.isNaN then .text "NaN" else .hex 8 value.toBits.toNat

/-- A double-precision float. -/
def ofDouble (value : Float) : Json :=
  if value.isNaN then .text "NaN" else .hex 16 value.toBits.toNat

/-- A value, or null without one. -/
def ofOption {α : Type} (view : α → Json) : Option α → Json
  | some value => view value
  | none => .null

/-- A list of values. -/
def ofList {α : Type} (view : α → Json) (values : List α) : Json := .array (values.map view)

end Json

open Json (ofSingle ofDouble ofOption ofList)

/-- Operation, magnitude, source, slot, stacks and time of attachment. -/
def ActiveModifier.report (active : ActiveModifier Float32) : Json :=
  .array [ModifierOp.names.toJson active.op, ofSingle active.magnitude, active.source.toJson,
    .nat active.slot, .nat active.stackCount, ofDouble active.appliedAt.value]

/-- The values of an attribute and its modifiers. -/
def Attribute.report (attr : Attribute) : Json :=
  .record [("id", attr.id.toJson), ("base", ofSingle attr.base),
    ("cur", ofSingle attr.currentValue), ("dirty", .bool attr.dirty),
    ("mods", ofList ActiveModifier.report attr.modifiers)]

/-- The attributes by number. -/
def AttributeSheet.report (sheet : AttributeSheet) : Json :=
  ofList Attribute.report sheet.attributes.values

/-- The columns of a row. -/
def AttributeRow.report (row : AttributeRow) : Json :=
  .array [row.id.toJson, .text row.name, ofSingle row.defaultValue.value,
    ofOption (ofSingle ·.value) row.min, ofOption (ofSingle ·.value) row.max, .bool row.isMeta,
    AggregatorMode.names.toJson row.aggregator]

/-- The rows of a table. -/
def AttributeTable.report (table : AttributeTable) : Json :=
  .record [("rows", ofList AttributeRow.report table.rows), ("len", .nat table.size),
    ("empty", .bool table.isEmpty)]

/-- The held tags, each with its count. -/
def TagCounts.heldReport (counts : TagCounts) : Json :=
  ofList (fun (tag, count) => .array [tag.toJson, .nat count]) counts.held

/-- The held tags and how many they are. -/
def TagCounts.report (counts : TagCounts) : Json :=
  .record [("tags", counts.heldReport), ("len", .nat counts.size), ("empty", .bool counts.isEmpty)]

/-- Target and number. -/
def EffectHandle.report (handle : EffectHandle) : Json :=
  .array [handle.target.toJson, handle.id.toJson]

/-- A value by itself, a number or an entity under its kind. -/
def ContextValue.report : ContextValue Float32 → Json
  | .number value => .record [("n", ofSingle value)]
  | .entity id => .record [("entity", id.toJson)]
  | .flag value => .bool value
  | .text value => .text value

/-- All parts of a context. -/
def Context.report (context : Context) : Json :=
  .record [("caster", context.caster.toJson), ("targets", ofList EntityId.toJson context.targets),
    ("main", ofOption EntityId.toJson context.mainTarget),
    ("parent", ofOption EntityId.toJson context.parentInput),
    ("snapshot", ofList (fun (id, value) => .array [id.toJson, ofSingle value])
      context.snapshot.entries),
    ("custom", ofList (fun (key, value) => .array [.text key, value.report])
      context.custom.entries),
    ("stacks", ofOption (fun count => .nat count.toNat) context.stackOverride),
    ("owner", ofOption EffectHandle.report context.owner), ("depth", .nat context.depth.toNat)]

/-- All parts of an effect but what it does. -/
def Effect.report (effect : Effect) : Json :=
  .record [("id", effect.id.toJson), ("skill", effect.skill.toJson), ("node", effect.node.toJson),
    ("name", .text effect.definition.name), ("source", effect.source.toJson),
    ("target", effect.target.toJson), ("state", EffectState.names.toJson effect.state),
    ("duration", ofSingle effect.clock.duration), ("period", ofSingle effect.clock.period),
    ("elapsed", ofSingle effect.clock.elapsed),
    ("period_timer", ofSingle effect.clock.periodTimer),
    ("remaining", ofOption ofSingle effect.remaining?), ("stacks", .nat effect.stackCount),
    ("done", .bool effect.durationElapsed), ("cues", ofList CueId.toJson effect.cues),
    ("ctx", effect.context.report)]

/-- How many effects are live, whether none is, and whether a tick goes on. -/
def EffectRoster.report (roster : EffectRoster) : Json :=
  .array [.nat roster.size, .bool roster.isEmpty, .bool roster.ticking]

/-- How many cues run, and whether none does. -/
def CueStage.report (stage : CueStage) : Json := .array [.nat stage.size, .bool stage.isEmpty]

/-- How many skills are loaded, and whether none is. -/
def SkillLibrary.report (library : SkillLibrary) : Json :=
  .array [.nat library.size, .bool library.isEmpty]

/-- Number, category, selector and position of a node. -/
def Node.report (node : Node) : Json :=
  .array [node.id.toJson, NodeCategory.names.toJson node.category,
    TargetSelector.names.toJson node.target, ofSingle node.position.1.value,
    ofSingle node.position.2.value]

/-- The two ends of a connection. -/
def Connection.report (connection : Connection) : Json :=
  .array [connection.source.toJson, .text connection.sourcePort, connection.target.toJson,
    .text connection.targetPort]

/-- The attributes, tags and live effects of an entity. -/
def Entity.report (entity : Entity) : Json :=
  .record [("id", entity.id.toJson), ("attrs", entity.attributes.report),
    ("tags", entity.tags.heldReport), ("fx", ofList Effect.report entity.effects.live)]

/-- The time, the number of running cues, and the entities in the order of ticking. -/
def World.report (world : World) : Json :=
  .record [("time", ofDouble world.time), ("cues", .nat world.cues.size),
    ("entities", ofList Entity.report (world.registry.order.filterMap world.entity?))]

end SkillEngine
