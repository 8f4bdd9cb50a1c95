import SkillEngine.Attribute.Basic
import SkillEngine.Dict

/-!
# Attribute tables

A table configures the attributes that an entity starts with, one row each. A table built row by row
has one row per attribute; a table that was read from data has the rows that the data had. A name
finds the first row that has it, the name index the last.
-/

namespace SkillEngine

/-- The configuration of one attribute. -/
structure AttributeRow where
  /-- Which attribute it is. -/
  id : AttributeId
  /-- The name that formulas use. -/
  name : String
  /-- The starting value. -/
  defaultValue : Number.Single
  /-- The lower bound. -/
  min : Option Number.Single := none
  /-- The upper bound. -/
  max : Option Number.Single := none
  /-- The attribute is a channel whose current value instant effects write. -/
  isMeta : Bool := false
  /-- Which additive modifiers take part. -/
  aggregator : AggregatorMode := .default
  deriving DecidableEq, Inhabited

/-- A fresh attribute as a row configures it. -/
def AttributeRow.build (row : AttributeRow) : Attribute :=
  .create row.id row.defaultValue.value (row.min.map (·.value)) (row.max.map (·.value))
    row.aggregator row.isMeta

/-- The rows of every attribute that an entity is set up with. -/
structure AttributeTable where
  /-- The rows, in order. -/
  rows : List AttributeRow
  deriving DecidableEq, Inhabited

namespace AttributeTable

/-- The table without rows. -/
def empty : AttributeTable := ⟨[]⟩

/-- A table of values alone; each row is named after its number. -/
def ofPairs (pairs : List (AttributeId × Float32)) : AttributeTable :=
  ⟨pairs.map fun (id, value) =>
    ⟨id, "Attr" ++ toString id.raw, .ofValue value, none, none, false, .default⟩⟩

/-- The row of an attribute. -/
def get? (table : AttributeTable) (id : AttributeId) : Option AttributeRow :=
  table.rows.find? (·.id == id)

/-- Some rows with one more: it replaces the first row of its attribute, or goes last. -/
def replaceRow (row : AttributeRow) : List AttributeRow → List AttributeRow
  | [] => [row]
  | first :: rest => if first.id == row.id then row :: rest else first :: replaceRow row rest

/-- The table with a row replaced or added. -/
def insert (table : AttributeTable) (row : AttributeRow) : AttributeTable :=
  ⟨replaceRow row table.rows⟩

/-- The attribute of the first row with a name. -/
def idOf? (table : AttributeTable) (name : String) : Option AttributeId :=
  (table.rows.find? (·.name == name)).map (·.id)

/-- The attribute of every name, of rows with one name the last. -/
def nameIndex (table : AttributeTable) : Dict String AttributeId :=
  .ofList (table.rows.map fun row => (row.name, row.id))

/-- The number of rows. -/
def size (table : AttributeTable) : Nat := table.rows.length

/-- The table has no rows. -/
def isEmpty (table : AttributeTable) : Bool := table.rows.isEmpty

end AttributeTable

end SkillEngine
