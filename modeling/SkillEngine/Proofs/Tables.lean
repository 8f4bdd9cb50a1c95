import Mathlib.Data.List.Nodup
import SkillEngine.Proofs.Sheet
import SkillEngine.Schema.Attribute
import SkillEngine.World.State

/-!
# What a table tells

A table is asked in two ways for the same thing. A name finds the first row that has it, but the
index keeps the last one (`name_lookups_find_ends`). An attribute's row is the first one, but a
sheet that is set up from the table has the attribute as the last one configures it
(`sheets_take_last_rows`). So the two answers may part where several rows have one key. A table that
is built row by row lists no attribute twice; one that is made from pairs or read from data may do
so, and nothing at all keeps two attributes from having one name.
-/

namespace SkillEngine

/-- What is seen of the last element of a list is what is seen of the first one exactly if that is
so whenever there are any. -/
theorem map_getLast?_eq_map_head?_iff {α β : Type} (view : α → β) (list : List α) :
    list.getLast?.map view = list.head?.map view ↔
      ∀ first last, list.head? = some first → list.getLast? = some last →
        view last = view first := by
  cases list with
  | nil => simp
  | cons first rest => simp [List.getLast?_cons]

namespace AttributeTable

/-- The rows with a name, in order. -/
def rowsNamed (table : AttributeTable) (name : String) : List AttributeRow :=
  table.rows.filter fun row => row.name == name

/-- The rows of an attribute, in order. -/
def rowsOf (table : AttributeTable) (id : AttributeId) : List AttributeRow :=
  table.rows.filter fun row => row.id == id

section Ends

variable (table : AttributeTable)

/-- A name finds the first row that has it. -/
theorem idOf?_eq (name : String) : table.idOf? name = (table.rowsNamed name).head?.map (·.id) := by
  rw [idOf?, rowsNamed, List.head?_filter]

/-- The index keeps the last row that has a name. -/
theorem get?_nameIndex (name : String) :
    table.nameIndex.get? name = (table.rowsNamed name).getLast?.map (·.id) := by
  rw [nameIndex, Dict.get?_ofList, List.filter_map, List.getLast?_map, Option.map_map]
  rfl

/-- Some row has a name. -/
theorem rowsNamed_ne_nil_iff (name : String) :
    table.rowsNamed name ≠ [] ↔ ∃ row ∈ table.rows, row.name = name := by
  simp [rowsNamed]

/-- An attribute's row is the first one. -/
theorem get?_eq (id : AttributeId) : table.get? id = (table.rowsOf id).head? := by
  rw [get?, rowsOf, List.head?_filter]

/-- A sheet has an attribute as the last row of the attribute configures it. -/
theorem get?_ofTable_eq (id : AttributeId) :
    (AttributeSheet.ofTable table).get? id = (table.rowsOf id).getLast?.map (·.build) := by
  rw [AttributeSheet.get?, AttributeSheet.attributes_ofTable, Dict.get?_ofList, List.filter_map,
    List.getLast?_map, Option.map_map]
  rfl

end Ends

/-! ## Rows of one key -/

/-- Replacing or adding a row keeps the attributes that are listed, or adds the one of the row. -/
theorem ids_replaceRow (row : AttributeRow) (rows : List AttributeRow) :
    (replaceRow row rows).map (·.id) =
      if row.id ∈ rows.map (·.id) then rows.map (·.id) else rows.map (·.id) ++ [row.id] := by
  induction rows with
  | nil => rfl
  | cons first rest ih =>
    rw [replaceRow]
    by_cases same : first.id = row.id
    · simp [same]
    · have apart : row.id ≠ first.id := Ne.symm same
      rw [if_neg (by simpa using same), List.map_cons, ih, List.map_cons]
      simp only [List.mem_cons, apart, false_or]
      split <;> rfl

/-- A table that is built row by row lists no attribute twice. -/
theorem nodup_ids_built (rows : List AttributeRow) :
    ((rows.foldl insert empty).rows.map (·.id)).Nodup := by
  have fill : ∀ (rows : List AttributeRow) (table : AttributeTable),
      (table.rows.map (·.id)).Nodup → ((rows.foldl insert table).rows.map (·.id)).Nodup := by
    intro rows
    induction rows with
    | nil => exact fun _ distinct => distinct
    | cons row rest ih =>
      intro table distinct
      refine ih (table.insert row) ?_
      rw [insert, ids_replaceRow]
      split
      · exact distinct
      · next fresh =>
        rw [← List.concat_eq_append]
        exact (List.nodup_concat _ _).2 ⟨fresh, distinct⟩
  exact fill rows empty List.nodup_nil

/-- If a table lists no attribute twice, the first row of an attribute is the last one. -/
theorem head?_eq_of_nodup {table : AttributeTable} (distinct : (table.rows.map (·.id)).Nodup)
    {id : AttributeId} {first last : AttributeRow} (begins : (table.rowsOf id).head? = some first)
    (ends : (table.rowsOf id).getLast? = some last) : last = first := by
  obtain ⟨early, here⟩ := List.mem_filter.1 (List.mem_of_head? begins)
  obtain ⟨late, there⟩ := List.mem_filter.1 (List.mem_of_getLast? ends)
  refine List.inj_on_of_nodup_map distinct late early ?_
  exact (beq_iff_eq.1 there).trans (beq_iff_eq.1 here).symm

/-- Attributes that are named after their numbers have different names. -/
theorem id_eq_of_name_eq {first second : AttributeId}
    (same : "Attr" ++ toString first.raw = "Attr" ++ toString second.raw) : first = second := by
  have digits : Nat.toDigits 10 first.raw.toNat = Nat.toDigits 10 second.raw.toNat := by
    have texts :
        ("Attr" ++ first.raw.toNat.repr).toList = ("Attr" ++ second.raw.toNat.repr).toList :=
      congrArg String.toList same
    rw [String.toList_append, String.toList_append, Nat.toList_repr, Nat.toList_repr] at texts
    exact List.append_cancel_left texts
  have number := congrArg (Nat.ofDigitChars 10 · 0) digits
  simp only [Nat.ofDigitChars_ten_toDigits] at number
  cases first
  cases second
  exact congrArg AttributeId.mk (UInt16.toNat_inj.1 number)

/-- A table of pairs finds every name in both ways alike. -/
theorem get?_nameIndex_ofPairs (pairs : List (AttributeId × Float32)) (name : String) :
    (ofPairs pairs).nameIndex.get? name = (ofPairs pairs).idOf? name := by
  rw [get?_nameIndex, idOf?_eq, map_getLast?_eq_map_head?_iff]
  intro first last begins ends
  obtain ⟨early, here⟩ := List.mem_filter.1 (List.mem_of_head? begins)
  obtain ⟨late, there⟩ := List.mem_filter.1 (List.mem_of_getLast? ends)
  obtain ⟨_, _, rfl⟩ := List.mem_map.1 early
  obtain ⟨_, _, rfl⟩ := List.mem_map.1 late
  exact id_eq_of_name_eq ((beq_iff_eq.1 there).trans (beq_iff_eq.1 here).symm)

/-- A name finds the attribute of the first row that has it, and the index, with which a world
resolves names, that of the last one. Both find one exactly if some row has the name, and they find
the same exactly if these two rows are of one attribute, as they are in a table of pairs. -/
theorem name_lookups_find_ends (table : AttributeTable) (name : String) :
    table.idOf? name = (table.rowsNamed name).head?.map (·.id) ∧
    table.nameIndex.get? name = (table.rowsNamed name).getLast?.map (·.id) ∧
    (∀ config, (World.create config table).scene.attributeId? name = table.nameIndex.get? name) ∧
    ((table.idOf? name).isSome ↔ ∃ row ∈ table.rows, row.name = name) ∧
    ((table.nameIndex.get? name).isSome ↔ ∃ row ∈ table.rows, row.name = name) ∧
    (table.nameIndex.get? name = table.idOf? name ↔
      ∀ first last, (table.rowsNamed name).head? = some first →
        (table.rowsNamed name).getLast? = some last → last.id = first.id) ∧
    ∀ pairs, (ofPairs pairs).nameIndex.get? name = (ofPairs pairs).idOf? name := by
  have first := table.idOf?_eq name
  have last := table.get?_nameIndex name
  refine ⟨first, last, fun _ => rfl, ?_, ?_, ?_, fun pairs => get?_nameIndex_ofPairs pairs name⟩
  · rw [first, Option.isSome_map, List.isSome_head?, rowsNamed_ne_nil_iff]
  · rw [last, Option.isSome_map, List.getLast?_isSome, rowsNamed_ne_nil_iff]
  · rw [first, last, map_getLast?_eq_map_head?_iff]

/-- Two attributes of one name. -/
def twoArmors : AttributeTable :=
  (empty.insert { id := ⟨0⟩, name := "Armor", defaultValue := .one }).insert
    { id := ⟨1⟩, name := "Armor", defaultValue := .one }

/-- Their name finds the one, and in the index the other. -/
theorem armors_found_apart : twoArmors.idOf? "Armor" = some ⟨0⟩ ∧
    twoArmors.nameIndex.get? "Armor" = some ⟨1⟩ ∧
    twoArmors.nameIndex.get? "Armor" ≠ twoArmors.idOf? "Armor" := by
  decide

/-- A sheet that is set up from a table has the attributes that the table has a row of. The row is
the first one of the attribute, but the attribute is as the last one configures it, which is the
same exactly if the two configure the same; so it is in a table that was built row by row. -/
theorem sheets_take_last_rows (table : AttributeTable) (id : AttributeId) :
    (AttributeSheet.ofTable table).contains id = (table.get? id).isSome ∧
    table.get? id = (table.rowsOf id).head? ∧
    (AttributeSheet.ofTable table).get? id = (table.rowsOf id).getLast?.map (·.build) ∧
    ((AttributeSheet.ofTable table).get? id = (table.get? id).map (·.build) ↔
      ∀ first last, (table.rowsOf id).head? = some first →
        (table.rowsOf id).getLast? = some last → last.build = first.build) ∧
    ∀ rows : List AttributeRow, (AttributeSheet.ofTable (rows.foldl insert empty)).get? id =
      ((rows.foldl insert empty).get? id).map (·.build) := by
  have first := table.get?_eq id
  have last := table.get?_ofTable_eq id
  refine ⟨?_, first, last, ?_, fun rows => ?_⟩
  · have held : (AttributeSheet.ofTable table).contains id =
        ((AttributeSheet.ofTable table).get? id).isSome := rfl
    rw [held, first, last, Option.isSome_map, Bool.eq_iff_iff, List.getLast?_isSome,
      List.isSome_head?]
  · rw [first, last, map_getLast?_eq_map_head?_iff]
  · rw [get?_ofTable_eq, get?_eq, map_getLast?_eq_map_head?_iff]
    intro first last begins ends
    rw [head?_eq_of_nodup (nodup_ids_built rows) begins ends]

/-- A table with two rows of one attribute. -/
def relisted : String :=
  "\x7b\"rows\": [\x7b\"id\": 0, \"name\": \"Health\", \"default_value\": 1\x7d, " ++
  "\x7b\"id\": 0, \"name\": \"Shield\", \"default_value\": 2\x7d]\x7d"

/-- The table is read; its row of the attribute is named after the first, and the attribute starts
as the second says. -/
theorem health_starts_as_shield : ∃ table, ofJsonText? relisted = some table ∧
    (table.get? ⟨0⟩).map (·.name) = some "Health" ∧
    (AttributeSheet.ofTable table).get? ⟨0⟩ ≠ (table.get? ⟨0⟩).map (·.build) := by
  have read : (ofJsonText? relisted).map (fun table => (table.get? ⟨0⟩).map (·.name)) =
      some (some "Health") := by decide +kernel
  have starts : (ofJsonText? relisted).map (fun table =>
      ((AttributeSheet.ofTable table).get? ⟨0⟩).map (·.base.toBits)) =
        some (some 0x40000000) := by decide +kernel
  have configured : (ofJsonText? relisted).map (fun table =>
      (table.get? ⟨0⟩).map (·.build.base.toBits)) = some (some 0x3f800000) := by decide +kernel
  obtain ⟨table, loaded, named⟩ := Option.map_eq_some_iff.1 read
  rw [loaded] at starts configured
  refine ⟨table, loaded, named, fun same => ?_⟩
  have bits := congrArg (Option.map (·.base.toBits)) same
  rw [Option.map_map] at bits
  cases (Option.some.inj starts).symm.trans (bits.trans (Option.some.inj configured))

end AttributeTable

end SkillEngine
