import SkillEngine.Json.Decode
import SkillEngine.Proofs.JsonText
import SkillEngine.Schema.Basic

/-!
# Decoding what was encoded

A value whose floats are all finite is decoded from the document that it is written as; one with a
float that is not finite is not decoded at all. `Kept` says that of one result, and each combinator
of decoders carries it from the parts to the whole.
-/

namespace SkillEngine.Json

variable {α β : Type}

/-- A result is a value if that is finite, and nothing otherwise. -/
def Kept (result : Option α) (finite : Bool) (value : α) : Prop :=
  result = if finite then some value else none

namespace Kept

variable {result : Option α} {finite : Bool} {value : α}

/-- A result that is there is of a finite value. -/
theorem of_some (found : result = some value) : Kept result true value := found

/-- A result is made into another. -/
theorem map (kept : Kept result finite value) (make : α → β) :
    Kept (result.map make) finite (make value) := by
  rw [Kept] at kept ⊢
  rw [kept]
  cases finite <;> rfl

/-- A result is followed by another that is taken from it. -/
theorem bind {next : α → Option β} {others : Bool} {made : β}
    (kept : Kept result finite value) (rest : Kept (next value) others made) :
    Kept (result.bind next) (finite && others) made := by
  rw [Kept] at kept rest ⊢
  rw [kept]
  cases finite with
  | false => rfl
  | true => exact rest

/-- A result that is there is followed by another. -/
theorem after {next : α → Option β} {made : β} (found : result = some value)
    (rest : Kept (next value) finite made) : Kept (result.bind next) finite made := by
  rw [found]
  exact rest

/-- A result is followed by another that is there. -/
theorem before {next : α → Option β} {made : β} (kept : Kept result finite value)
    (found : next value = some made) : Kept (result.bind next) finite made := by
  rw [Kept] at kept ⊢
  rw [kept]
  cases finite with
  | false => rfl
  | true => exact found

end Kept

/-! ## Numbers, names and texts -/

/-- A number below a bound is decoded from its numeral. -/
theorem natBelow_nat {number bound : Nat} (small : number < bound) (room : Nat) :
    Decoder.natBelow bound room (.nat number) = some number := by
  show (Number.Numeral.ofNat number).toNat? bound = some number
  rw [Number.Numeral.toNat?, Number.Numeral.ofNat, decide_eq_true small]
  rfl

/-- A 16-bit number is decoded from its numeral. -/
theorem uint16_nat (number : UInt16) (room : Nat) :
    Decoder.uint16 room (.nat number.toNat) = some number := by
  rw [Decoder.uint16, Decoder.map, natBelow_nat number.toNat_lt, Option.map_some,
    UInt16.ofNat_toNat]

/-- A 32-bit number is decoded from its numeral. -/
theorem uint32_nat (number : UInt32) (room : Nat) :
    Decoder.uint32 room (.nat number.toNat) = some number := by
  rw [Decoder.uint32, Decoder.map, natBelow_nat number.toNat_lt, Option.map_some,
    UInt32.ofNat_toNat]

/-- A 64-bit number is decoded from its numeral. -/
theorem uint64_nat (number : UInt64) (room : Nat) :
    Decoder.uint64 room (.nat number.toNat) = some number := by
  rw [Decoder.uint64, Decoder.map, natBelow_nat number.toNat_lt, Option.map_some,
    UInt64.ofNat_toNat]

/-- A numeral of a natural number can be written. -/
theorem isWritten_nat (number : Nat) : (nat number).IsWritten :=
  fun _ none => absurd none List.not_mem_nil

/-- A name alone is a variant without payload. -/
theorem variant_text (room : Nat) (name : String) :
    variant room (.text name) = some (name, none, room) := by
  cases room <;> rfl

/-- A variant without payload is found in its table. -/
theorem unitVariant_text (table : List (String × α)) (room : Nat) (name : String) :
    unitVariant table room (.text name) = table.lookup name := by
  simp only [unitVariant, variant_text, noPayload]
  exact Option.bind_fun_some _

/-- A value is decoded from its name if the table leads back from the name. -/
theorem decoder_names [BEq α] (names : Names α) (value : α)
    (back : (names.table.map fun entry => (entry.2, entry.1)).lookup
      ((names.table.lookup value).getD "") = some value) (room : Nat) :
    names.decoder room (names.toJson value) = some value := by
  rw [Names.decoder, Names.toJson, unitVariant_text, back]

/-! ## Lists and objects -/

section Items

variable {decoder : Decoder α} {write : β → Json} {finite : β → Bool} {read : β → α} {room : Nat}

/-- Items are decoded if each is. -/
theorem kept_each {values : List β}
    (each : ∀ value ∈ values, Kept (decoder room (write value)) (finite value) (read value)) :
    Kept (Decoder.each decoder room (values.map write)) (values.all finite) (values.map read) := by
  induction values with
  | nil => exact .of_some rfl
  | cons first rest ih =>
    obtain ⟨head, tail⟩ := List.forall_mem_cons.1 each
    exact head.bind ((ih tail).before rfl)

/-- A list is decoded if each of its items is. -/
theorem kept_list {values : List β}
    (each : ∀ value ∈ values, Kept (decoder room (write value)) (finite value) (read value)) :
    Kept (Decoder.list decoder (room + 1) (.array (values.map write))) (values.all finite)
      (values.map read) := kept_each each

/-- A list is decoded if all of its items are there. -/
theorem list_map {write : α → Json} (values : List α)
    (each : ∀ value ∈ values, decoder room (write value) = some value) :
    Decoder.list decoder (room + 1) (.array (values.map write)) = some values := by
  have kept : Kept _ (values.all fun _ => true) (values.map id) :=
    kept_list fun value member => .of_some (each value member)
  have all : (values.all fun _ => true) = true := List.all_eq_true.2 fun _ _ => rfl
  rw [all, List.map_id] at kept
  exact kept

/-- An object is decoded if each of its values is. -/
theorem kept_entries (write : β → Json) (finite : β → Bool) (read : β → α)
    {entries : List (String × β)} (each : ∀ entry ∈ entries,
      Kept (decoder room (write entry.2)) (finite entry.2) (read entry.2)) :
    Kept (Decoder.entries decoder (room + 1)
        (.record (entries.map fun entry => (entry.1, write entry.2))))
      (entries.all fun entry => finite entry.2)
      (entries.map fun entry => (entry.1, read entry.2)) := by
  show Kept (Decoder.eachField decoder room
    ((entries.map fun entry => (entry.1, write entry.2)).map fun field => (some field.1, field.2)))
    _ _
  induction entries with
  | nil => exact .of_some rfl
  | cons first rest ih =>
    obtain ⟨head, tail⟩ := List.forall_mem_cons.1 each
    exact head.bind ((ih tail).before rfl)

end Items

/-- Items that can be written one by one. -/
theorem eachWritten_map {values : List α} {write : α → Json}
    (each : ∀ value ∈ values, (write value).IsWritten) : EachWritten (values.map write) := by
  induction values with
  | nil => trivial
  | cons first rest ih =>
    obtain ⟨head, tail⟩ := List.forall_mem_cons.1 each
    exact ⟨head, ih tail⟩

/-- A record can be written if each of its values can. -/
theorem isWritten_record {fields : List (String × Json)}
    (each : ∀ field ∈ fields, field.2.IsWritten) : (record fields).IsWritten := by
  show EachFieldWritten (fields.map fun field => (some field.1, field.2))
  induction fields with
  | nil => trivial
  | cons first rest ih =>
    obtain ⟨head, tail⟩ := List.forall_mem_cons.1 each
    exact ⟨rfl, head, ih tail⟩

/-! ## Records -/

/-- A field with a new name fills the first empty slot of that name. -/
theorem fillSlot_append {earlier : List String} {filled : Slots}
    (same : filled.length = earlier.length) {name : String} (fresh : name ∉ earlier) (json : Json)
    (later : List String) (rest : Slots) :
    fillSlot name json (earlier ++ name :: later) (filled ++ none :: rest) =
      some (filled ++ some json :: rest) := by
  induction earlier generalizing filled with
  | nil =>
    obtain rfl := List.length_eq_zero_iff.1 same
    simp [fillSlot]
  | cons other others ih =>
    cases filled with
    | nil => cases same
    | cons slot slots =>
      obtain ⟨apart, fresh⟩ := not_or.1 (mt List.mem_cons.2 fresh)
      have onward := ih (Nat.succ.inj same) fresh
      simp only [List.cons_append, fillSlot, if_neg (Ne.symm apart), onward, Option.map_some]

/-- The slots of a record are filled in order. -/
theorem fillSlots_zip (earlier : List String) (filled : Slots)
    (same : filled.length = earlier.length) {names : List String} {jsons : List Json}
    (lengths : names.length = jsons.length) (distinct : (earlier ++ names).Nodup) :
    fillSlots (earlier ++ names) ((names.zip jsons).map fun field => (some field.1, field.2))
      (filled ++ names.map fun _ => none) = some (filled ++ jsons.map some) := by
  induction names generalizing earlier filled jsons with
  | nil =>
    obtain rfl := List.length_eq_zero_iff.1 lengths.symm
    rfl
  | cons name names ih =>
    cases jsons with
    | nil => cases lengths
    | cons json jsons =>
      have fresh : name ∉ earlier := fun member =>
        (List.nodup_append.1 distinct).2.2 name member name List.mem_cons_self rfl
      have first := fillSlot_append same fresh json names (names.map fun _ => none)
      have longer : (filled ++ [some json]).length = (earlier ++ [name]).length := by
        rw [List.length_append, List.length_append, same]
        rfl
      have onward := ih _ _ longer (Nat.succ.inj lengths) (by rwa [List.append_assoc])
      rw [List.append_assoc, List.append_assoc, List.append_assoc] at onward
      show (fillSlot name json _ _).bind _ = _
      rw [List.map_cons, first]
      exact onward

/-- A record with distinct names has its values in its slots. -/
theorem recordSlots_record {names : List String} {fields : List (String × Json)} {room : Nat}
    (same : fields.map Prod.fst = names) (distinct : names.Nodup) :
    recordSlots names (room + 1) (record fields) =
      some (room, fields.map fun field => some field.2) := by
  subst same
  have lengths : (fields.map Prod.fst).length = (fields.map Prod.snd).length := by
    rw [List.length_map, List.length_map]
  have filled := fillSlots_zip [] [] rfl lengths distinct
  have pairs : (fields.map Prod.fst).zip (fields.map Prod.snd) = fields :=
    (List.zip_of_prod rfl rfl).symm
  have values : (fields.map Prod.snd).map some = fields.map fun field => some field.2 :=
    List.map_map
  rw [pairs, values] at filled
  exact congrArg (Option.map fun slots => (room, slots)) filled

/-! ## What was decoded -/

/-- What is decoded from items is decoded from one of them. -/
theorem exists_of_each {decoder : Decoder α} {room : Nat} {items : List Json} {values : List α}
    (read : Decoder.each decoder room items = some values) {value : α} (member : value ∈ values) :
    ∃ item, decoder room item = some value := by
  induction items generalizing values with
  | nil =>
    cases read
    cases member
  | cons first rest ih =>
    obtain ⟨head, found, onward⟩ := Option.bind_eq_some_iff.1 read
    obtain ⟨tail, others, made⟩ := Option.bind_eq_some_iff.1 onward
    cases made
    rcases List.mem_cons.1 member with rfl | later
    · exact ⟨first, found⟩
    · exact ih others later

/-- What is decoded from an array is decoded from one of its items. -/
theorem exists_of_list {decoder : Decoder α} {room : Nat} {json : Json} {values : List α}
    (read : Decoder.list decoder room json = some values) {value : α} (member : value ∈ values) :
    ∃ inner item, room = inner + 1 ∧ decoder inner item = some value := by
  unfold Decoder.list at read
  split at read
  · obtain ⟨item, found⟩ := exists_of_each read member
    exact ⟨_, item, rfl, found⟩
  · cases read

/-- A field that must be there was decoded. -/
theorem exists_of_required {decoder : Decoder α} {room : Nat} {slot : Option Json} {value : α}
    (read : required decoder room slot = some value) :
    ∃ json, decoder room json = some value := by
  cases slot with
  | none => cases read
  | some json => exact ⟨json, read⟩

/-- A field with a default is the default or was decoded. -/
theorem eq_or_exists_of_withDefault {decoder : Decoder α} {fallback value : α} {room : Nat}
    {slot : Option Json} (read : withDefault decoder fallback room slot = some value) :
    value = fallback ∨ ∃ json, decoder room json = some value := by
  cases slot with
  | none => exact .inl (Option.some.inj read).symm
  | some json => exact .inr ⟨json, read⟩

/-- A payload was decoded inside its variant. -/
theorem room_of_variant {room inner : Nat} {json payload : Json} {name : String}
    (read : variant room json = some (name, some payload, inner)) : room = inner + 1 := by
  unfold variant at read
  split at read
  · cases read
  · cases read
    rfl
  · cases read

/-- A variant without payload gives its value. -/
theorem eq_of_noPayload {value other : α} {payload : Option Json}
    (read : noPayload value payload = some other) : value = other := by
  unfold noPayload at read
  split at read
  · exact Option.some.inj read
  · exact Option.some.inj read
  · cases read

/-- An array is decoded only where one may be opened. -/
theorem room_pos_of_list {decoder : Decoder α} {room : Nat} {json : Json} {values : List α}
    (read : Decoder.list decoder room json = some values) : 0 < room := by
  cases room with
  | zero => cases read
  | succ room => exact Nat.succ_pos room

/-- The fields of a record were decoded inside it. -/
theorem room_of_recordSlots {names : List String} {room inner : Nat} {json : Json} {slots : Slots}
    (read : recordSlots names room json = some (inner, slots)) : room = inner + 1 := by
  unfold recordSlots at read
  split at read
  · obtain ⟨_, _, made⟩ := Option.map_eq_some_iff.1 read
    cases made
    rfl
  · split at read
    · cases read
      rfl
    · cases read
  · cases read

end SkillEngine.Json
