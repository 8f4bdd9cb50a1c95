import SkillEngine.Attribute.Table

/-!
# Attribute sheets

A sheet holds the attributes of one entity, at most one of each kind, by ascending number. Asking
for an attribute that it lacks answers zero or `false`, and writing to one changes nothing.
-/

namespace SkillEngine

/-- The attributes of one entity. -/
structure AttributeSheet where
  /-- The attributes by number. -/
  attributes : Dict AttributeId Attribute
  deriving Inhabited

namespace AttributeSheet

/-- The sheet without attributes. -/
def empty : AttributeSheet := ⟨.empty⟩

/-- The sheet with an attribute added or replaced. -/
def put (sheet : AttributeSheet) (attr : Attribute) : AttributeSheet :=
  ⟨sheet.attributes.insert attr.id attr⟩

/-- A sheet with one fresh attribute per row; of rows for one attribute the last counts. -/
def ofTable (table : AttributeTable) : AttributeSheet :=
  table.rows.foldl (fun sheet row => sheet.put row.build) empty

/-- The attribute of a kind. -/
def get? (sheet : AttributeSheet) (id : AttributeId) : Option Attribute := sheet.attributes.get? id

/-- The sheet has the attribute. -/
def contains (sheet : AttributeSheet) (id : AttributeId) : Bool := sheet.attributes.contains id

/-- Takes an attribute out, its callbacks dropped. -/
def take (sheet : AttributeSheet) (id : AttributeId) : Option Attribute × AttributeSheet :=
  ((sheet.get? id).map (·.clearCallbacks), ⟨sheet.attributes.erase id⟩)

/-- The base value, zero if the attribute is missing. -/
def baseValue (sheet : AttributeSheet) (id : AttributeId) : Float32 :=
  match sheet.get? id with
  | some attr => attr.base
  | none => 0

/-- The current value, zero if the attribute is missing. -/
def currentValue (sheet : AttributeSheet) (id : AttributeId) : Float32 :=
  match sheet.get? id with
  | some attr => attr.currentValue
  | none => 0

/-- The sheet with one attribute in place of the one of its number. -/
def replace (sheet : AttributeSheet) (id : AttributeId) (attr : Attribute) : AttributeSheet :=
  ⟨sheet.attributes.modify id fun _ => attr⟩

/-- The sheet with every attribute changed. -/
def mapEach (sheet : AttributeSheet) (change : Attribute → Attribute) : AttributeSheet :=
  ⟨sheet.attributes.mapValues fun _ attr => change attr⟩

/-- Writes a base value; a missing attribute is a failed write. -/
def setBase (sheet : AttributeSheet) (id : AttributeId) (value : Float32) :
    Bool × AttributeSheet × List AttributeSignal :=
  match sheet.get? id with
  | none => (false, sheet, [])
  | some attr =>
    let (written, attr, signals) := attr.setBase value
    (written, sheet.replace id attr, signals)

/-- Writes a current value; a missing attribute is a failed write. -/
def setCurrent (sheet : AttributeSheet) (id : AttributeId) (value : Float32) :
    Bool × AttributeSheet × List AttributeSignal :=
  match sheet.get? id with
  | none => (false, sheet, [])
  | some attr =>
    let (written, attr, signals) := attr.setCurrent value
    (written, sheet.replace id attr, signals)

/-- Attaches a modifier, if the attribute is there. -/
def attach (sheet : AttributeSheet) (id : AttributeId) (active : ActiveModifier Float32) :
    AttributeSheet :=
  ⟨sheet.attributes.modify id (·.attach active)⟩

/-- Detaches every modifier of a source from every attribute, and counts them. -/
def detach (sheet : AttributeSheet) (source : SourceId) : Nat × AttributeSheet :=
  ((sheet.attributes.values.map fun attr => (attr.detach source).1).foldr (· + ·) 0,
    sheet.mapEach fun attr => (attr.detach source).2)

/-- Tells every modifier of a source its new stack count. -/
def setStacks (sheet : AttributeSheet) (source : SourceId) (stackCount : Nat) : AttributeSheet :=
  sheet.mapEach fun attr => attr.setStacks source stackCount

/-- Replaces the magnitude of a source's modifier in one slot of one attribute. -/
def setMagnitude (sheet : AttributeSheet) (id : AttributeId) (source : SourceId) (slot : Nat)
    (magnitude : Float32) : AttributeSheet :=
  ⟨sheet.attributes.modify id fun attr => attr.setMagnitude source slot magnitude⟩

/-- Commits the computed value of every stale attribute. -/
def recalculateDirty (sheet : AttributeSheet) : AttributeSheet × List AttributeSignal :=
  (sheet.mapEach fun attr => if attr.dirty then attr.recalculate.1 else attr,
    sheet.attributes.values.flatMap fun attr => if attr.dirty then attr.recalculate.2 else [])

/-- The current values of all attributes. -/
def snapshot (sheet : AttributeSheet) : Dict AttributeId Float32 :=
  sheet.attributes.mapValues fun _ attr => attr.currentValue

/-- The number of attributes. -/
def size (sheet : AttributeSheet) : Nat := sheet.attributes.size

/-- The sheet has no attributes. -/
def isEmpty (sheet : AttributeSheet) : Bool := sheet.attributes.entries.isEmpty

end AttributeSheet

end SkillEngine
