import SkillEngine.Attribute.Request
import SkillEngine.Proofs.Dict

/-!
# What happens to a sheet

Every operation on a sheet is read attribute by attribute: which modifiers an attribute has after it
and whether its committed value may be stale. Writes only *revalue*: they leave every list of
modifiers alone and make nothing stale. Committing leaves nothing stale at all.
-/

namespace SkillEngine

/-- One form of an attribute differs from another in values and callbacks at most, and is stale only
if that one is. -/
structure Attribute.Revalues (before after : Attribute) : Prop where
  /-- The modifiers stay. -/
  modifiers : after.modifiers = before.modifiers
  /-- Nothing becomes stale. -/
  fresh : before.dirty = false → after.dirty = false

namespace Attribute.Revalues

variable {attr : Attribute}

/-- Nothing has happened. -/
theorem refl (attr : Attribute) : attr.Revalues attr := ⟨rfl, fun fresh => fresh⟩

/-- One write after another. -/
theorem trans {first second third : Attribute} (earlier : first.Revalues second)
    (later : second.Revalues third) : first.Revalues third :=
  ⟨later.modifiers.trans earlier.modifiers, fun fresh => later.fresh (earlier.fresh fresh)⟩

/-- Writing the base value. -/
theorem setBase (attr : Attribute) (value : Float32) : attr.Revalues (attr.setBase value).2.1 := by
  unfold Attribute.setBase
  split
  · exact .refl attr
  · exact ⟨rfl, fun _ => rfl⟩

/-- Writing the current value. -/
theorem setCurrent (attr : Attribute) (value : Float32) :
    attr.Revalues (attr.setCurrent value).2.1 := by
  unfold Attribute.setCurrent
  split
  · exact .refl attr
  · exact ⟨rfl, fun fresh => fresh⟩

/-- Committing. -/
theorem recalculate (attr : Attribute) : attr.Revalues attr.recalculate.1 := ⟨rfl, fun _ => rfl⟩

end Attribute.Revalues

namespace AttributeSheet

/-- Every attribute of one sheet is a revalued one of another. -/
def Revalues (before after : AttributeSheet) : Prop :=
  ∀ id attr, after.get? id = some attr →
    ∃ earlier, before.get? id = some earlier ∧ earlier.Revalues attr

/-- No attribute of the sheet is stale. -/
def Fresh (sheet : AttributeSheet) : Prop :=
  ∀ id attr, sheet.get? id = some attr → attr.dirty = false

variable {sheet : AttributeSheet} {id other : AttributeId}

/-- Nothing has happened. -/
theorem Revalues.refl (sheet : AttributeSheet) : sheet.Revalues sheet :=
  fun _ attr found => ⟨attr, found, .refl attr⟩

/-- One write after another. -/
theorem Revalues.trans {first second third : AttributeSheet} (earlier : first.Revalues second)
    (later : second.Revalues third) : first.Revalues third := by
  intro id attr found
  obtain ⟨middle, stored, after⟩ := later id attr found
  obtain ⟨first, origin, before⟩ := earlier id middle stored
  exact ⟨first, origin, before.trans after⟩

/-- Revalued attributes are fresh if they were. -/
theorem Revalues.fresh {before after : AttributeSheet} (revalues : before.Revalues after)
    (fresh : before.Fresh) : after.Fresh := by
  intro id attr found
  obtain ⟨earlier, stored, same⟩ := revalues id attr found
  exact same.fresh (fresh id earlier stored)

/-- An attribute after one was replaced. -/
theorem get?_replace (sheet : AttributeSheet) (id other : AttributeId) (attr : Attribute) :
    (sheet.replace id attr).get? other =
      if other = id then (sheet.get? other).map fun _ => attr else sheet.get? other :=
  Dict.get?_modify sheet.attributes id other fun _ => attr

/-- An attribute after all were changed. -/
theorem get?_mapEach (sheet : AttributeSheet) (change : Attribute → Attribute) (id : AttributeId) :
    (sheet.mapEach change).get? id = (sheet.get? id).map change :=
  Dict.get?_mapValues sheet.attributes (fun _ attr => change attr) id

/-- An attribute after a modifier was attached. -/
theorem get?_attach (sheet : AttributeSheet) (id other : AttributeId)
    (active : ActiveModifier Float32) : (sheet.attach id active).get? other =
      if other = id then (sheet.get? other).map (·.attach active) else sheet.get? other :=
  Dict.get?_modify sheet.attributes id other (·.attach active)

/-- An attribute after a magnitude was replaced. -/
theorem get?_setMagnitude (sheet : AttributeSheet) (id other : AttributeId) (source : SourceId)
    (slot : Nat) (magnitude : Float32) : (sheet.setMagnitude id source slot magnitude).get? other =
      if other = id then (sheet.get? other).map (·.setMagnitude source slot magnitude)
      else sheet.get? other :=
  Dict.get?_modify sheet.attributes id other _

/-- Replacing an attribute by a revalued form of it. -/
theorem revalues_replace {attr after : Attribute} (found : sheet.get? id = some attr)
    (revalues : attr.Revalues after) : sheet.Revalues (sheet.replace id after) := by
  intro other changed stored
  rw [get?_replace] at stored
  by_cases same : other = id
  · rw [if_pos same, same, found] at stored
    cases stored
    exact ⟨attr, same ▸ found, revalues⟩
  · rw [if_neg same] at stored
    exact ⟨changed, stored, .refl changed⟩

/-- Writing a base value. -/
theorem revalues_setBase (sheet : AttributeSheet) (id : AttributeId) (value : Float32) :
    sheet.Revalues (sheet.setBase id value).2.1 := by
  unfold setBase
  split
  · exact .refl sheet
  · next attr found => exact revalues_replace found (.setBase attr value)

/-- Writing a current value. -/
theorem revalues_setCurrent (sheet : AttributeSheet) (id : AttributeId) (value : Float32) :
    sheet.Revalues (sheet.setCurrent id value).2.1 := by
  unfold setCurrent
  split
  · exact .refl sheet
  · next attr found => exact revalues_replace found (.setCurrent attr value)

/-- Committing. -/
theorem revalues_recalculateDirty (sheet : AttributeSheet) :
    sheet.Revalues sheet.recalculateDirty.1 := by
  intro id attr found
  rw [recalculateDirty, get?_mapEach] at found
  obtain ⟨earlier, stored, rfl⟩ := Option.map_eq_some_iff.1 found
  refine ⟨earlier, stored, ?_⟩
  split
  · exact .recalculate earlier
  · exact .refl earlier

/-- After committing nothing is stale. -/
theorem fresh_recalculateDirty (sheet : AttributeSheet) : sheet.recalculateDirty.1.Fresh := by
  intro id attr found
  rw [recalculateDirty, get?_mapEach] at found
  obtain ⟨earlier, stored, rfl⟩ := Option.map_eq_some_iff.1 found
  split
  · rfl
  · next fresh => simpa using fresh

/-- A sheet holds what the rows of its table configure, in the place of earlier ones. -/
theorem attributes_ofTable (table : AttributeTable) : (ofTable table).attributes =
    .ofList (table.rows.map fun row => (row.id, row.build)) := by
  have fill : ∀ (rows : List AttributeRow) (sheet : AttributeSheet),
      (rows.foldl (fun sheet row => sheet.put row.build) sheet).attributes =
        (rows.map fun row => (row.id, row.build)).foldl
          (fun dict entry => dict.insert entry.1 entry.2) sheet.attributes := by
    intro rows
    induction rows with
    | nil => exact fun _ => rfl
    | cons row rest ih => exact fun sheet => ih (sheet.put row.build)
  exact fill table.rows empty

/-- Every attribute of a new sheet is as its row configures it. -/
theorem get?_ofTable {table : AttributeTable} {attr : Attribute}
    (found : (ofTable table).get? id = some attr) : ∃ row : AttributeRow, attr = row.build := by
  rw [get?, attributes_ofTable, Dict.get?_ofList] at found
  obtain ⟨entry, last, rfl⟩ := Option.map_eq_some_iff.1 found
  obtain ⟨row, _, rfl⟩ := List.mem_map.1 (List.mem_filter.1 (List.mem_of_getLast? last)).1
  exact ⟨row, rfl⟩

end AttributeSheet

end SkillEngine
