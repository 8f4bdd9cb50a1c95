import SkillEngine.Binary.Format

/-!
# Formats within the range of a length

A list and a text write their length in eight bytes, so a value is read back only if no length in it
overflows. It is enough to ask that of the value as a whole, provided that every member of a list
takes bytes: `Faithful` is the law of a format under that condition, and `Solid` says that no value
is written as nothing. Each combinator keeps both.
-/

namespace SkillEngine.Binary.Format

variable {α β : Type} {format : Format α}

/-- The format reads a value back if the number of its bytes can be written in eight bytes. -/
def Faithful (format : Format α) (value : α) : Prop :=
  (format.write value).length < UInt64.size → format.LawfulAt value

/-- The format writes no value as nothing. -/
def Solid (format : Format α) : Prop := ∀ value, 0 < (format.write value).length

/-- A number takes the bytes of its width. -/
@[simp] theorem length_wordBytes (width number : Nat) :
    (wordBytes width number).length = width := by
  induction width generalizing number with
  | zero => rfl
  | succ width ih => rw [wordBytes, List.length_cons, ih]

/-- A value that is read back at all is read back within the range. -/
theorem LawfulAt.faithful {value : α} (lawful : format.LawfulAt value) : format.Faithful value :=
  fun _ => lawful

/-- Another representation is read back where it is faithful and what it stands for is. -/
theorem faithful_map {make : α → β} {take : β → α} {value : β}
    (faithful : format.Faithful (take value)) (same : make (take value) = value) :
    (format.map make take).Faithful value :=
  fun short => lawfulAt_map (faithful short) same

/-- Two values that are read back are read back in order. -/
theorem faithful_pair {second : Format β} {left : α} {right : β} (head : format.Faithful left)
    (tail : second.Faithful right) : (format.pair second).Faithful (left, right) := by
  intro short
  have total : ((format.pair second).write (left, right)).length =
      (format.write left).length + (second.write right).length := List.length_append
  exact lawfulAt_pair (head (by omega)) (tail (by omega))

/-- A member of a list takes no more bytes than the list does. -/
theorem length_flatMap_of_mem (write : α → List UInt8) {values : List α} {value : α}
    (member : value ∈ values) : (write value).length ≤ (values.flatMap write).length := by
  obtain ⟨before, after, rfl⟩ := List.append_of_mem member
  simp only [List.flatMap_append, List.flatMap_cons, List.length_append]
  omega

/-- Members that take bytes are no more than the bytes of their list. -/
theorem length_le_flatMap {write : α → List UInt8} {values : List α}
    (solid : ∀ value ∈ values, 0 < (write value).length) :
    values.length ≤ (values.flatMap write).length := by
  induction values with
  | nil => exact Nat.zero_le _
  | cons first rest ih =>
    have head := solid first List.mem_cons_self
    have tail := ih fun value member => solid value (List.mem_cons_of_mem _ member)
    rw [List.flatMap_cons, List.length_append, List.length_cons]
    omega

/-- A list whose members take bytes and are read back is read back. -/
theorem faithful_list {values : List α}
    (solid : ∀ value ∈ values, 0 < (format.write value).length)
    (each : ∀ value ∈ values, format.Faithful value) : (list format).Faithful values := by
  intro short
  have total : ((list format).write values).length =
      8 + (values.flatMap format.write).length := by
    simp only [list, List.length_append, length_wordBytes]
  have count := length_le_flatMap solid
  refine lawfulAt_list (by omega) fun value member => each value member ?_
  have part := length_flatMap_of_mem format.write member
  omega

/-- A text is read back. -/
theorem faithful_string (text : String) : string.Faithful text := by
  intro short
  have total : (string.write text).length = 8 + (textBytes text).length := by
    simp only [string, List.length_append, length_wordBytes]
  exact lawfulAt_string (by omega)

/-- A value that may be missing is read back if it is, once present. -/
theorem faithful_option {value : Option α} (each : ∀ present ∈ value, format.Faithful present) :
    (option format).Faithful value := by
  intro short
  refine lawfulAt_option fun present here => each present here ?_
  cases here
  have total : ((option format).write (some present)).length =
      (format.write present).length + 1 := List.length_cons
  omega

/-- A payload that is read back gives its variant. -/
theorem read_map {make : α → β} {take : β → α} {part : α} (lawful : format.LawfulAt part)
    (rest : List UInt8) :
    (format.map make take).read (format.write part ++ rest) = .ok (make part, rest) := by
  simp only [map]
  rw [lawful rest]

/-- A variant is read back if its number leads to the format of its payload, and the payload is read
back. -/
theorem faithful_variant {number : β → Nat} {payload : β → List UInt8}
    {read : Nat → Option (Reader β)} {make : α → β} {take : β → α} {part : α} {value : β}
    (fits : number value < UInt32.size)
    (known : read (number value) = some (format.map make take).read)
    (written : payload value = format.write part) (faithful : format.Faithful part)
    (made : make part = value) : (variant number payload read).Faithful value := by
  intro short
  have total : ((variant number payload read).write value).length =
      4 + (format.write part).length := by
    simp only [variant, List.length_append, length_wordBytes, written]
  refine lawfulAt_variant fits known fun rest => ?_
  rw [written, ← made]
  exact read_map (faithful (by omega)) rest

/-- Another representation takes as many bytes. -/
theorem Solid.map (solid : format.Solid) (make : α → β) (take : β → α) :
    (format.map make take).Solid :=
  fun value => solid (take value)

/-- Two values take bytes if the first one does. -/
theorem Solid.pair (solid : format.Solid) (second : Format β) : (format.pair second).Solid := by
  intro value
  have head := solid value.1
  simp only [Format.pair, List.length_append]
  omega

/-- A number takes bytes. -/
theorem solid_word (width : Nat) : (word (width + 1)).Solid := by
  intro value
  simp only [word, length_wordBytes]
  omega

/-- A text takes bytes. -/
theorem solid_string : string.Solid := by
  intro text
  simp only [string, List.length_append, length_wordBytes]
  omega

end SkillEngine.Binary.Format
