import SkillEngine.Proofs.Dict
import SkillEngine.Proofs.Formats
import SkillEngine.Proofs.TagSets
import SkillEngine.Schema.Attribute
import SkillEngine.Schema.Node
import Mathlib.Data.List.Basic
import Mathlib.Data.String.Basic

/-!
# Binary snapshots

What is read from the bytes of a skill is the skill, with every formula yet to be read. The proof
follows the data: each type's format reads its values back, for records field by field, for variants
case by case, and for conditions by induction on the nesting. Formulas are the only values that a
format forgets something of, namely a tree that was kept; `unread` is a value without such trees.
-/

namespace SkillEngine

open Binary (Format Reader)

/-! ## Numbers, names, tags and formulas -/

/-- Stored floats are read back bit for bit. -/
theorem Number.lawful_single : Number.Single.format.Lawful :=
  Format.lawful_map Format.lawful_uint32 fun _ => rfl

/-- Attribute numbers are read back. -/
theorem AttributeId.lawful_format : AttributeId.format.Lawful :=
  Format.lawful_map Format.lawful_uint16 fun _ => rfl

/-- Skill numbers are read back. -/
theorem SkillId.lawful_format : SkillId.format.Lawful :=
  Format.lawful_map Format.lawful_uint32 fun _ => rfl

/-- Node numbers are read back. -/
theorem NodeId.lawful_format : NodeId.format.Lawful :=
  Format.lawful_map Format.lawful_uint32 fun _ => rfl

/-- A listed value is read back from its position. -/
theorem Names.lawfulAt_format {α : Type} [BEq α] [LawfulBEq α] {names : Names α} {value : α}
    (listed : value ∈ names.table.map (·.1)) (short : names.table.length < UInt32.size) :
    names.format.LawfulAt value :=
  Format.lawfulAt_oneOf listed (by rwa [List.length_map])

/-- A tag is read back from its path. -/
theorem Tag.faithful_format (tag : Tag) : Tag.format.Faithful tag :=
  Format.faithful_map (Format.faithful_string _) (Tag.ofPath_path tag)

/-- A path takes bytes. -/
theorem Tag.solid_format : Tag.format.Solid := Format.solid_string.map _ _

/-- A tag set is read back from its members. -/
theorem TagSet.faithful_format (set : TagSet) : TagSet.format.Faithful set :=
  Format.faithful_map (Format.faithful_list (fun tag _ => Tag.solid_format tag)
    fun tag _ => tag.faithful_format) set.ofList_tags

namespace Formula.Source

/-- The formula as if it had not been read yet. -/
def unread (source : Source) : Source := ofText source.text

/-- A formula that has not been read yet is read back from its text. -/
theorem faithful_unread (source : Source) : Source.format.Faithful source.unread :=
  Format.faithful_map (Format.faithful_string _) rfl

end Formula.Source

/-! ## Effects -/

namespace MagnitudeSource

/-- The magnitude with a formula that has not been read yet. -/
def unread : MagnitudeSource → MagnitudeSource
  | .formula source => .formula source.unread
  | other => other

/-- A magnitude is read back from its bytes. -/
theorem faithful_unread (source : MagnitudeSource) :
    MagnitudeSource.format.Faithful source.unread := by
  have fits (number : Nat) (small : number < 4) : number < UInt32.size :=
    Nat.lt_trans small (by decide)
  cases source with
  | fixed value =>
    exact Format.faithful_variant (fits 0 (by decide)) rfl rfl
      (Number.lawful_single value).faithful rfl
  | formula source =>
    exact Format.faithful_variant (fits 1 (by decide)) rfl rfl source.faithful_unread rfl
  | computed name =>
    exact Format.faithful_variant (fits 2 (by decide)) rfl rfl (Format.faithful_string name) rfl
  | setByCaller key =>
    exact Format.faithful_variant (fits 3 (by decide)) rfl rfl (Format.faithful_string key) rfl

/-- A kept tree is not written. -/
theorem write_unread (source : MagnitudeSource) :
    MagnitudeSource.format.write source.unread = MagnitudeSource.format.write source := by
  cases source <;> rfl

end MagnitudeSource

namespace Modifier

/-- The modifier with a formula that has not been read yet. -/
def unread (modifier : Modifier) : Modifier :=
  { modifier with magnitude := modifier.magnitude.unread }

/-- A modifier is read back from its bytes. -/
theorem faithful_unread (modifier : Modifier) : Modifier.format.Faithful modifier.unread := by
  have op : ModifierOp.names.format.LawfulAt modifier.op :=
    Names.lawfulAt_format (by cases modifier.op <;> decide) (by decide)
  have capture : CaptureMode.names.format.LawfulAt modifier.capture :=
    Names.lawfulAt_format (by cases modifier.capture <;> decide) (by decide)
  exact Format.faithful_map (Format.faithful_pair (AttributeId.lawful_format _).faithful
    (Format.faithful_pair op.faithful
      (Format.faithful_pair modifier.magnitude.faithful_unread capture.faithful))) rfl

/-- A modifier takes bytes. -/
theorem solid_format : Modifier.format.Solid :=
  (((Format.solid_word 1).map _ _).map _ _).pair _ |>.map _ _

/-- Kept trees are not written. -/
theorem write_unread (modifier : Modifier) :
    Modifier.format.write modifier.unread = Modifier.format.write modifier := by
  have magnitude := modifier.magnitude.write_unread
  simp only [Modifier.format, Format.map, Format.pair, unread, magnitude]

end Modifier

/-- A stacking policy is read back from its bytes. -/
theorem StackingPolicy.lawfulAt_format (policy : StackingPolicy) :
    StackingPolicy.format.LawfulAt policy := by
  have kind : StackingKind.names.format.LawfulAt policy.kind :=
    Names.lawfulAt_format (by cases policy.kind <;> decide) (by decide)
  have overflow : OverflowPolicy.names.format.LawfulAt policy.overflow :=
    Names.lawfulAt_format (by cases policy.overflow <;> decide) (by decide)
  have expiration : ExpirationPolicy.names.format.LawfulAt policy.expiration :=
    Names.lawfulAt_format (by cases policy.expiration <;> decide) (by decide)
  have flag (value : Bool) : Format.bool.LawfulAt value := Format.lawful_flag _ value
  exact Format.lawfulAt_map (Format.lawfulAt_pair kind (Format.lawfulAt_pair
    (Format.lawful_uint32 _) (Format.lawfulAt_pair (flag _) (Format.lawfulAt_pair (flag _)
      (Format.lawfulAt_pair overflow expiration))))) rfl

/-- Tag lists are read back from their bytes. -/
theorem EffectTags.faithful_format (tags : EffectTags) : EffectTags.format.Faithful tags :=
  Format.faithful_map (Format.faithful_pair (TagSet.faithful_format _)
    (Format.faithful_pair (TagSet.faithful_format _) (Format.faithful_pair
      (TagSet.faithful_format _) (Format.faithful_pair (TagSet.faithful_format _)
        (Format.faithful_pair (TagSet.faithful_format _) (TagSet.faithful_format _)))))) rfl

namespace EffectDef

/-- The definition with formulas that have not been read yet. -/
def unread (definition : EffectDef) : EffectDef :=
  { definition with
    duration := definition.duration.unread
    modifiers := definition.modifiers.map Modifier.unread }

/-- A definition is read back from its bytes. -/
theorem faithful_unread (definition : EffectDef) :
    EffectDef.format.Faithful definition.unread := by
  have durationType : DurationType.names.format.LawfulAt definition.durationType :=
    Names.lawfulAt_format (by cases definition.durationType <;> decide) (by decide)
  have modifiers : (Format.list Modifier.format).Faithful
      (definition.modifiers.map Modifier.unread) := by
    refine Format.faithful_list (fun modifier _ => Modifier.solid_format modifier) ?_
    intro modifier member
    obtain ⟨written, _, rfl⟩ := List.mem_map.1 member
    exact written.faithful_unread
  have stacking : (Format.option StackingPolicy.format).Faithful definition.stacking :=
    Format.faithful_option fun policy _ => policy.lawfulAt_format.faithful
  exact Format.faithful_map (Format.faithful_pair (Format.faithful_string _)
    (Format.faithful_pair durationType.faithful (Format.faithful_pair
      definition.duration.faithful_unread (Format.faithful_pair
        (Number.lawful_single _).faithful (Format.faithful_pair
          (Format.lawful_flag _ _).faithful (Format.faithful_pair modifiers
            (Format.faithful_pair definition.tags.faithful_format stacking))))))) rfl

/-- Kept trees are not written. -/
theorem write_unread (definition : EffectDef) :
    EffectDef.format.write definition.unread = EffectDef.format.write definition := by
  have duration := definition.duration.write_unread
  simp only [EffectDef.format, Format.map, Format.pair, Format.list, unread, duration,
    List.length_map, List.flatMap_map, Modifier.write_unread]

end EffectDef

/-! ## Conditions -/

namespace ConditionDef

/-- The format of the conditions that nest no deeper than a bound. -/
def within (bound : Nat) : Format ConditionDef := ⟨bytes, readNested bound⟩

/-- The bytes of some conditions are those of each. -/
theorem eachBytes_eq (conditions : List ConditionDef) :
    eachBytes conditions = conditions.flatMap bytes := by
  induction conditions with
  | nil => rfl
  | cons first rest ih => rw [eachBytes, ih, List.flatMap_cons]

/-- A condition takes at least the bytes of its variant number. -/
theorem four_le_length_bytes (condition : ConditionDef) : 4 ≤ (bytes condition).length := by
  cases condition <;> simp only [bytes, List.length_append, Format.length_wordBytes] <;> omega

/-- The number of a condition's variant. -/
def number : ConditionDef → Nat
  | .hasAllTags _ => 0
  | .hasAnyTags _ => 1
  | .attributeCompare .. => 2
  | .chance _ => 3
  | .contextFlag _ => 4
  | .all _ => 5
  | .any _ => 6
  | .not _ => 7
  | .always => 8
  | .never => 9

/-- The bytes of a condition behind the number of its variant. -/
def payload : ConditionDef → List UInt8
  | .hasAllTags tags | .hasAnyTags tags => TagSet.format.write tags
  | .attributeCompare attr op value => compareFormat.write (attr, op, value)
  | .chance probability => Number.Single.format.write probability
  | .contextFlag key => Format.string.write key
  | .all conditions | .any conditions =>
    Format.wordBytes 8 conditions.length ++ eachBytes conditions
  | .not condition => bytes condition
  | .always | .never => []

/-- The reader of what a variant's number stands for, where conditions nest no deeper than a
bound. -/
def payloadReader (bound : Nat) : Nat → Option (Reader ConditionDef)
  | 0 => some (TagSet.format.map .hasAllTags fun _ => .empty).read
  | 1 => some (TagSet.format.map .hasAnyTags fun _ => .empty).read
  | 2 => some (compareFormat.map (fun (attr, op, value) => .attributeCompare attr op value)
      fun _ => default).read
  | 3 => some (Number.Single.format.map .chance fun _ => .zero).read
  | 4 => some (Format.string.map .contextFlag fun _ => "").read
  | 5 => some ((Format.list (within bound)).map .all fun _ => []).read
  | 6 => some ((Format.list (within bound)).map .any fun _ => []).read
  | 7 => some ((within bound).map .not fun _ => .always).read
  | 8 => some fun rest => .ok (.always, rest)
  | 9 => some fun rest => .ok (.never, rest)
  | _ => none

/-- The format of nested conditions is a variant over the one of less nested conditions. -/
theorem within_succ (bound : Nat) :
    within (bound + 1) = Format.variant number payload (payloadReader bound) := by
  have write (condition : ConditionDef) :
      bytes condition = Format.wordBytes 4 condition.number ++ condition.payload := by
    cases condition <;> simp [bytes, number, payload, compareFormat, Format.pair]
  have read (bytes : List UInt8) : readNested (bound + 1) bytes =
      (Format.variant number payload (payloadReader bound)).read bytes := by
    simp only [readNested, Format.variant]
    cases Format.readWord 4 bytes with
    | error error => rfl
    | ok found =>
      obtain ⟨number, rest⟩ := found
      match number with
      | 0 | 1 | 2 | 3 | 4 | 5 | 6 | 7 | 8 | 9 => rfl
      | _ + 10 => rfl
  simp only [within, Format.variant, funext write, funext read]

/-- The number of a condition's variant fits its four bytes. -/
theorem number_lt (condition : ConditionDef) : number condition < UInt32.size := by
  have small : number condition < 10 := by
    cases condition <;> (simp only [number]; omega)
  exact Nat.lt_trans small (by decide)

/-- A condition is read back if its number leads to the format of its payload, and the payload is
read back. -/
theorem faithful_payload {α : Type} {format : Format α} {make : α → ConditionDef}
    {take : ConditionDef → α} {part : α} {condition : ConditionDef} {bound : Nat}
    (known : payloadReader bound (number condition) = some (format.map make take).read)
    (written : payload condition = format.write part) (faithful : format.Faithful part)
    (made : make part = condition) : (within (bound + 1)).Faithful condition := by
  rw [within_succ]
  exact Format.faithful_variant condition.number_lt known written faithful made

/-- A condition without payload is read back if its number leads to it. -/
theorem faithful_alone {condition : ConditionDef} {bound : Nat}
    (known : payloadReader bound (number condition) = some fun rest => .ok (condition, rest))
    (written : payload condition = []) : (within (bound + 1)).Faithful condition := by
  rw [within_succ]
  refine (Format.lawfulAt_variant condition.number_lt known fun rest => ?_).faithful
  rw [written]
  rfl

/-- Nested conditions are read back as the list that they are. -/
theorem faithful_list {conditions : List ConditionDef} {bound : Nat}
    (each : ∀ condition ∈ conditions, (within bound).Faithful condition) :
    (Format.list (within bound)).Faithful conditions :=
  Format.faithful_list (fun condition _ => Nat.lt_of_lt_of_le (by decide)
    condition.four_le_length_bytes) each

/-- Nested conditions are written as the list that they are. -/
theorem write_list (conditions : List ConditionDef) (bound : Nat) :
    Format.wordBytes 8 conditions.length ++ eachBytes conditions =
      (Format.list (within bound)).write conditions := by
  rw [eachBytes_eq]
  rfl

mutual

/-- A condition is read back from its bytes, under a bound that is not less than their number. -/
theorem faithful_within : (condition : ConditionDef) → (bound : Nat) →
    (bytes condition).length ≤ bound → (within bound).Faithful condition
  | condition, 0, room => by
    have some := condition.four_le_length_bytes
    omega
  | .hasAllTags tags, _ + 1, _ => faithful_payload rfl rfl tags.faithful_format rfl
  | .hasAnyTags tags, _ + 1, _ => faithful_payload rfl rfl tags.faithful_format rfl
  | .attributeCompare attr op value, _ + 1, _ => by
    have comparison : Comparison.names.format.LawfulAt op :=
      Names.lawfulAt_format (by cases op <;> decide) (by decide)
    have faithful : compareFormat.Faithful (attr, op, value) :=
      Format.faithful_pair (AttributeId.lawful_format attr).faithful
        (Format.faithful_pair comparison.faithful (Number.lawful_single value).faithful)
    exact faithful_payload rfl rfl faithful rfl
  | .chance probability, _ + 1, _ =>
    faithful_payload rfl rfl (Number.lawful_single probability).faithful rfl
  | .contextFlag key, _ + 1, _ => faithful_payload rfl rfl (Format.faithful_string key) rfl
  | .all conditions, bound + 1, room => by
    simp only [bytes, List.length_append, Format.length_wordBytes] at room
    have each := faithful_each conditions bound (by omega)
    exact faithful_payload rfl (write_list conditions bound) (faithful_list each) rfl
  | .any conditions, bound + 1, room => by
    simp only [bytes, List.length_append, Format.length_wordBytes] at room
    have each := faithful_each conditions bound (by omega)
    exact faithful_payload rfl (write_list conditions bound) (faithful_list each) rfl
  | .not condition, bound + 1, room => by
    simp only [bytes, List.length_append, Format.length_wordBytes] at room
    have inner := faithful_within condition bound (by omega)
    exact faithful_payload rfl rfl inner rfl
  | .always, bound + 1, _ => faithful_alone rfl rfl
  | .never, bound + 1, _ => faithful_alone rfl rfl

/-- Under a bound that is not less than the number of their bytes, so is each of some conditions. -/
theorem faithful_each : (conditions : List ConditionDef) → (bound : Nat) →
    (eachBytes conditions).length ≤ bound → ∀ condition ∈ conditions,
      (within bound).Faithful condition
  | [], _, _, _, member => absurd member List.not_mem_nil
  | first :: rest, bound, room, condition, member => by
    simp only [eachBytes, List.length_append] at room
    rcases List.mem_cons.1 member with here | later
    · exact here ▸ faithful_within first bound (by omega)
    · exact faithful_each rest bound (by omega) condition later

end

/-- A condition is read back from its bytes. -/
theorem faithful_format (condition : ConditionDef) : ConditionDef.format.Faithful condition := by
  intro short rest
  have room : (bytes condition).length ≤ (bytes condition ++ rest).length := by
    rw [List.length_append]
    omega
  exact condition.faithful_within _ room short rest

end ConditionDef

/-! ## Cues and tasks -/

/-- A cue is read back from its bytes, its parameters being in order of their names. -/
theorem CueDef.faithful_format {definition : CueDef} (ascending : definition.params.Ascending) :
    CueDef.format.Faithful definition := by
  have params : (Format.list (Format.string.pair Number.Single.format)).Faithful
      definition.params.entries :=
    Format.faithful_list (fun entry _ => Format.solid_string.pair _ entry) fun _ _ =>
      Format.faithful_pair (Format.faithful_string _) (Number.lawful_single _).faithful
  refine Format.faithful_map (Format.faithful_pair (Format.faithful_string _)
    (Format.faithful_pair (Number.lawful_single _).faithful params)) ?_
  change { definition with params := Dict.ofList definition.params.entries } = definition
  rw [ascending.ofList_entries]

/-- A search region is read back from its bytes. -/
theorem SearchShape.faithful_format (shape : SearchShape) : SearchShape.format.Faithful shape := by
  have fits (number : Nat) (small : number < 3) : number < UInt32.size :=
    Nat.lt_trans small (by decide)
  have float (value : Number.Single) : Number.Single.format.Faithful value :=
    (Number.lawful_single value).faithful
  cases shape with
  | sphere radius =>
    exact Format.faithful_variant (fits 0 (by decide)) rfl rfl (float radius) rfl
  | box x y z =>
    have extents : extentsFormat.Faithful (x, y, z) :=
      Format.faithful_pair (float x) (Format.faithful_pair (float y) (float z))
    exact Format.faithful_variant (fits 1 (by decide)) rfl rfl extents rfl
  | cone radius angle =>
    have sizes : (Number.Single.format.pair Number.Single.format).Faithful (radius, angle) :=
      Format.faithful_pair (float radius) (float angle)
    exact Format.faithful_variant (fits 2 (by decide)) rfl rfl sizes rfl

namespace TaskDef

/-- The task with a formula that has not been read yet. -/
def unread : TaskDef → TaskDef
  | .setContextValue key formula => .setContextValue key formula.unread
  | other => other

/-- A task is read back from its bytes. -/
theorem faithful_unread (task : TaskDef) : TaskDef.format.Faithful task.unread := by
  have fits (number : Nat) (small : number < 6) : number < UInt32.size :=
    Nat.lt_trans small (by decide)
  cases task with
  | searchTargets shape requireTags excludeTags maxCount excludeCaster =>
    have count : (Format.option Format.uint64).Faithful maxCount :=
      Format.faithful_option fun limit _ => (Format.lawful_uint64 limit).faithful
    have search :
        searchFormat.Faithful (shape, requireTags, excludeTags, maxCount, excludeCaster) :=
      Format.faithful_pair shape.faithful_format (Format.faithful_pair requireTags.faithful_format
        (Format.faithful_pair excludeTags.faithful_format
          (Format.faithful_pair count (Format.lawful_flag _ _).faithful)))
    exact Format.faithful_variant (fits 0 (by decide)) rfl rfl search rfl
  | setContextValue key formula =>
    have setting : (Format.string.pair Formula.Source.format).Faithful (key, formula.unread) :=
      Format.faithful_pair (Format.faithful_string key) formula.faithful_unread
    exact Format.faithful_variant (fits 1 (by decide)) rfl rfl setting rfl
  | removeEffectsWithTags tags =>
    exact Format.faithful_variant (fits 2 (by decide)) rfl rfl tags.faithful_format rfl
  | addLooseTags tags =>
    exact Format.faithful_variant (fits 3 (by decide)) rfl rfl tags.faithful_format rfl
  | removeLooseTags tags =>
    exact Format.faithful_variant (fits 4 (by decide)) rfl rfl tags.faithful_format rfl
  | captureSnapshot =>
    exact Format.faithful_variant (fits 5 (by decide)) rfl rfl
      (Format.lawful_unit ()).faithful rfl

/-- A kept tree is not written. -/
theorem write_unread (task : TaskDef) :
    TaskDef.format.write task.unread = TaskDef.format.write task := by
  cases task <;> rfl

end TaskDef

/-! ## Nodes and connections -/

namespace NodeKind

/-- The parameters of a cue are in order of their names. -/
def Ordered : NodeKind → Prop
  | .cue definition => definition.params.Ascending
  | _ => True

/-- The content with formulas that have not been read yet. -/
def unread : NodeKind → NodeKind
  | .effect definition => .effect definition.unread
  | .task definition => .task definition.unread
  | other => other

/-- Content is read back from its bytes. -/
theorem faithful_unread {kind : NodeKind} (ordered : kind.Ordered) :
    NodeKind.format.Faithful kind.unread := by
  have fits (number : Nat) (small : number < 4) : number < UInt32.size :=
    Nat.lt_trans small (by decide)
  cases kind with
  | effect definition =>
    exact Format.faithful_variant (fits 0 (by decide)) rfl rfl definition.faithful_unread rfl
  | task definition =>
    exact Format.faithful_variant (fits 1 (by decide)) rfl rfl definition.faithful_unread rfl
  | condition definition =>
    exact Format.faithful_variant (fits 2 (by decide)) rfl rfl definition.faithful_format rfl
  | cue definition =>
    exact Format.faithful_variant (fits 3 (by decide)) rfl rfl (CueDef.faithful_format ordered) rfl

/-- Kept trees are not written. -/
theorem write_unread (kind : NodeKind) :
    NodeKind.format.write kind.unread = NodeKind.format.write kind := by
  cases kind with
  | effect definition =>
    have same := definition.write_unread
    simp only [NodeKind.format, Format.variant, unread, same]
  | task definition =>
    have same := definition.write_unread
    simp only [NodeKind.format, Format.variant, unread, same]
  | condition definition => rfl
  | cue definition => rfl

end NodeKind

namespace Node

/-- The node with formulas that have not been read yet. -/
def unread (node : Node) : Node := { node with kind := node.kind.unread }

/-- A node is read back from its bytes. -/
theorem faithful_unread {node : Node} (ordered : node.kind.Ordered) :
    Node.format.Faithful node.unread := by
  have position : (Number.Single.format.pair Number.Single.format).Faithful node.position :=
    Format.faithful_pair (Number.lawful_single _).faithful (Number.lawful_single _).faithful
  have target : TargetSelector.names.format.LawfulAt node.target :=
    Names.lawfulAt_format (by cases node.target <;> decide) (by decide)
  exact Format.faithful_map (Format.faithful_pair (NodeId.lawful_format _).faithful
    (Format.faithful_pair (NodeKind.faithful_unread ordered)
      (Format.faithful_pair position target.faithful))) rfl

/-- A node takes bytes. -/
theorem solid_format : Node.format.Solid :=
  (((Format.solid_word 3).map _ _).map _ _).pair _ |>.map _ _

/-- Kept trees are not written. -/
theorem write_unread (node : Node) :
    Node.format.write node.unread = Node.format.write node := by
  have kind := node.kind.write_unread
  simp only [Node.format, Format.map, Format.pair, unread, kind]

end Node

namespace Connection

/-- A connection is read back from its bytes. -/
theorem faithful_format (connection : Connection) : Connection.format.Faithful connection :=
  Format.faithful_map (Format.faithful_pair (NodeId.lawful_format _).faithful
    (Format.faithful_pair (Format.faithful_string _)
      (Format.faithful_pair (NodeId.lawful_format _).faithful (Format.faithful_string _)))) rfl

/-- A connection takes bytes. -/
theorem solid_format : Connection.format.Solid :=
  (((Format.solid_word 3).map _ _).map _ _).pair _ |>.map _ _

end Connection

/-! ## Skills and attribute tables -/

namespace SkillGraph

/-- The graph with formulas that have not been read yet. -/
def unread (graph : SkillGraph) : SkillGraph :=
  { graph with nodes := graph.nodes.map Node.unread }

/-- A graph that memory can hold with its snapshot: maps are in order of their keys, and the number
of bytes is a 64-bit one. -/
structure Storable (graph : SkillGraph) : Prop where
  /-- The parameters of cues are in order of their names. -/
  ordered : ∀ node ∈ graph.nodes, node.kind.Ordered
  /-- The number of bytes is a 64-bit number. -/
  short : graph.toBytes.length < UInt64.size

/-- Kept trees are not written. -/
theorem toBytes_unread (graph : SkillGraph) : graph.unread.toBytes = graph.toBytes := by
  simp only [toBytes, SkillGraph.format, Format.map, Format.pair, Format.list, unread,
    List.length_map, List.flatMap_map, Node.write_unread]

/-- Whether a graph is valid does not depend on kept trees. -/
theorem validate_unread (graph : SkillGraph) : graph.unread.validate = graph.validate := by
  have ids : graph.unread.nodeIds = graph.nodeIds := by
    simp only [nodeIds, unread, List.map_map]
    rfl
  simp only [validate, ids]
  rfl

/-- A graph is read back from its bytes. -/
theorem faithful_unread {graph : SkillGraph}
    (ordered : ∀ node ∈ graph.nodes, node.kind.Ordered) :
    SkillGraph.format.Faithful graph.unread := by
  have nodes : (Format.list Node.format).Faithful (graph.nodes.map Node.unread) := by
    refine Format.faithful_list (fun node _ => Node.solid_format node) ?_
    intro node member
    obtain ⟨written, stored, rfl⟩ := List.mem_map.1 member
    exact Node.faithful_unread (ordered written stored)
  have connections : (Format.list Connection.format).Faithful graph.connections :=
    Format.faithful_list (fun connection _ => Connection.solid_format connection)
      fun connection _ => connection.faithful_format
  exact Format.faithful_map (Format.faithful_pair (SkillId.lawful_format _).faithful
    (Format.faithful_pair (Format.faithful_string _)
      (Format.faithful_pair nodes connections))) rfl

/-- The bytes of a graph are those of a graph, whatever follows them. -/
theorem Storable.decode {graph : SkillGraph} (storable : graph.Storable) (rest : List UInt8) :
    Binary.decode SkillGraph.format (graph.toBytes ++ rest) = .ok graph.unread := by
  have same : SkillGraph.format.write graph.unread = graph.toBytes := graph.toBytes_unread
  have back := faithful_unread storable.ordered (same ▸ storable.short) rest
  rw [same] at back
  rw [Binary.decode, back]

end SkillGraph

namespace AttributeTable

/-- A row is read back from its bytes. -/
theorem faithful_row (row : AttributeRow) : AttributeRow.format.Faithful row := by
  have bound (limit : Option Number.Single) :
      (Format.option Number.Single.format).Faithful limit :=
    Format.faithful_option fun _ _ => (Number.lawful_single _).faithful
  have aggregator : AggregatorMode.names.format.LawfulAt row.aggregator :=
    Names.lawfulAt_format (by cases row.aggregator <;> decide) (by decide)
  exact Format.faithful_map (Format.faithful_pair (AttributeId.lawful_format _).faithful
    (Format.faithful_pair (Format.faithful_string _)
      (Format.faithful_pair (Number.lawful_single _).faithful
        (Format.faithful_pair (bound row.min) (Format.faithful_pair (bound row.max)
          (Format.faithful_pair (Format.lawful_flag _ _).faithful aggregator.faithful)))))) rfl

/-- A row takes bytes. -/
theorem solid_row : AttributeRow.format.Solid :=
  (((Format.solid_word 1).map _ _).map _ _).pair _ |>.map _ _

/-- A table is read back from its bytes. -/
theorem faithful_format (table : AttributeTable) : AttributeTable.format.Faithful table :=
  Format.faithful_map (Format.faithful_list (fun row _ => solid_row row)
    fun row _ => faithful_row row) rfl

end AttributeTable

/-- Snapshots are read back. From the bytes of a graph, and whatever follows them, comes the graph
with every float, tag, condition and text as it was and every formula to be read anew, provided that
the graph is valid; if it is not, what comes is the fault that its validation finds, and never a
fault of the bytes. From the bytes of an attribute table comes the table. -/
theorem snapshots_round_trip (graph : SkillGraph) (storable : graph.Storable)
    (table : AttributeTable) (short : table.toBytes.length < UInt64.size) (rest : List UInt8) :
    SkillGraph.ofBytes (graph.toBytes ++ rest) =
        (match graph.validate with
          | .ok () => .ok graph.unread
          | .error fault => .error (.invalid fault)) ∧
      AttributeTable.ofBytes (table.toBytes ++ rest) = .ok table := by
  constructor
  · rw [SkillGraph.ofBytes, storable.decode rest]
    change SkillGraph.checked graph.unread = _
    cases valid : graph.validate with
    | ok nothing => rw [SkillGraph.checked, graph.validate_unread, valid]
    | error fault => rw [SkillGraph.checked, graph.validate_unread, valid]
  · have back := table.faithful_format short rest
    rw [AttributeTable.ofBytes, Binary.decode, AttributeTable.toBytes, back]

/-- A skill with a node of each kind: a search leads to a nested condition, and that to an effect
and to a cue. -/
def ambush : SkillGraph where
  id := ⟨1⟩
  name := "Ambush"
  nodes := [
    { id := ⟨1⟩, kind := .task (.searchTargets (.cone ⟨0x40000000⟩ ⟨0x42B40000⟩)
        (.ofList [.ofPath "Unit.Foe"]) .empty (some 3) true) },
    { id := ⟨2⟩, kind := .condition (.all [.not (.hasAnyTags (.ofList [.ofPath "State.Hidden"])),
        .any [.chance ⟨0x3F000000⟩, .always]]), target := .parentInput },
    { id := ⟨3⟩, kind := .effect {
        name := "Bleed"
        durationType := .duration
        duration := .formula (.ofText "2 * level")
        modifiers := [⟨⟨4⟩, .add, .formula (.ofText "0 - power"), .track⟩]
        stacking := some { limit := 3 } } },
    { id := ⟨4⟩, kind := .cue {
        cue := "Slash"
        params := .ofList [("volume", ⟨0x3F800000⟩), ("pitch", ⟨0x7FC00001⟩)] } }]
  connections := [⟨⟨1⟩, "found", ⟨2⟩, "input"⟩, ⟨⟨2⟩, "true", ⟨3⟩, "input"⟩,
    ⟨⟨2⟩, "true", ⟨4⟩, "input"⟩]

/-- A table of one attribute. -/
def vitals : AttributeTable where
  rows := [{ id := ⟨4⟩, name := "Health", defaultValue := ⟨0x42C80000⟩, min := some .zero }]

/-- The skill and the table are read back, and so they are if a byte follows them. -/
theorem ambush_round_trips :
    ambush.Storable ∧ vitals.toBytes.length < UInt64.size ∧ ambush.validate = .ok () ∧
      SkillGraph.ofBytes (ambush.toBytes ++ [7]) = .ok ambush.unread ∧
      AttributeTable.ofBytes (vitals.toBytes ++ [7]) = .ok vitals := by
  have storable : ambush.Storable := by
    refine ⟨?_, by decide +kernel⟩
    have last := Dict.ascending_ofList
      [("volume", (⟨0x3F800000⟩ : Number.Single)), ("pitch", ⟨0x7FC00001⟩)]
    simp only [ambush, List.forall_mem_cons]
    exact ⟨trivial, trivial, trivial, last, fun _ none => absurd none List.not_mem_nil⟩
  have short : vitals.toBytes.length < UInt64.size := by decide +kernel
  have valid : ambush.validate = .ok () := by decide +kernel
  have back := snapshots_round_trip ambush storable vitals short [7]
  rw [valid] at back
  exact ⟨storable, short, valid, back⟩

end SkillEngine
