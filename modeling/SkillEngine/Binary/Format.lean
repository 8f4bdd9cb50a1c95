/-!
# Binary formats

A format writes a value as bytes and reads one off the front of some bytes, or says why it cannot.
Numbers are little-endian of fixed width, a length is eight bytes, an option is a flag byte and the
value, a variant is its number in four bytes and its payload. `Lawful` is the law of a format:
reading what was written, whatever follows it, gives the value and what follows. Each combinator
keeps it.
-/

namespace SkillEngine.Binary

/-- Why bytes are no value. -/
inductive Error where
  /-- The bytes end too early. -/
  | truncated
  /-- The bytes of a text are not UTF-8. -/
  | invalidText
  /-- A truth value is neither zero nor one. -/
  | invalidBool
  /-- The flag of an option is neither zero nor one. -/
  | invalidFlag
  /-- A variant has no such number. -/
  | unknownVariant
  deriving DecidableEq, Repr

/-- Reads a value off the front of some bytes. -/
abbrev Reader (α : Type) := List UInt8 → Except Error (α × List UInt8)

/-- A writer and a reader of one type. -/
structure Format (α : Type) where
  /-- The bytes of a value. -/
  write : α → List UInt8
  /-- The value at the front of some bytes, and what follows it. -/
  read : Reader α

namespace Format

variable {α β : Type}

/-- The format reads one value back, whatever follows it. -/
def LawfulAt (format : Format α) (value : α) : Prop :=
  ∀ rest, format.read (format.write value ++ rest) = .ok (value, rest)

/-- The format reads every value back, whatever follows it. -/
def Lawful (format : Format α) : Prop := ∀ value, format.LawfulAt value

/-- The little-endian bytes of a number, in a given count. -/
def wordBytes : Nat → Nat → List UInt8
  | 0, _ => []
  | width + 1, number => UInt8.ofNat number :: wordBytes width (number / 256)

/-- A number off a given count of little-endian bytes. -/
def readWord : Nat → Reader Nat
  | 0, bytes => .ok (0, bytes)
  | _ + 1, [] => .error .truncated
  | width + 1, byte :: bytes =>
    match readWord width bytes with
    | .error error => .error error
    | .ok (high, rest) => .ok (byte.toNat + 256 * high, rest)

/-- A number is read back if it fits the width. -/
theorem readWord_wordBytes (width number : Nat) (fits : number < Nat.pow 256 width)
    (rest : List UInt8) : readWord width (wordBytes width number ++ rest) = .ok (number, rest) := by
  induction width generalizing number with
  | zero => simp [readWord, wordBytes, Nat.lt_one_iff.1 fits]
  | succ width ih =>
    have high : number / 256 < Nat.pow 256 width := by
      rw [Nat.pow_eq, Nat.pow_succ] at fits
      exact Nat.div_lt_of_lt_mul (by rwa [Nat.mul_comm] at fits)
    simp only [wordBytes, List.cons_append, readWord, ih _ high]
    have low : (UInt8.ofNat number).toNat = number % 256 := by simp
    rw [low]
    congr 2
    omega

/-- A value in another representation. -/
def map (format : Format α) (make : α → β) (take : β → α) : Format β where
  write value := format.write (take value)
  read bytes :=
    match format.read bytes with
    | .error error => .error error
    | .ok (value, rest) => .ok (make value, rest)

/-- Another representation is read back where it is faithful and what it stands for is. -/
theorem lawfulAt_map {format : Format α} {make : α → β} {take : β → α} {value : β}
    (lawful : format.LawfulAt (take value)) (faithful : make (take value) = value) :
    (format.map make take).LawfulAt value := by
  intro rest
  simp only [map]
  rw [lawful rest]
  simp [faithful]

/-- Another representation keeps the law if it is faithful. -/
theorem lawful_map {format : Format α} {make : α → β} {take : β → α} (lawful : format.Lawful)
    (faithful : ∀ value, make (take value) = value) : (format.map make take).Lawful :=
  fun value => lawfulAt_map (lawful (take value)) (faithful value)

/-- Two values in order. -/
def pair (first : Format α) (second : Format β) : Format (α × β) where
  write value := first.write value.1 ++ second.write value.2
  read bytes :=
    match first.read bytes with
    | .error error => .error error
    | .ok (left, bytes) =>
      match second.read bytes with
      | .error error => .error error
      | .ok (right, rest) => .ok ((left, right), rest)

/-- Two values that are read back are read back in order. -/
theorem lawfulAt_pair {first : Format α} {second : Format β} {left : α} {right : β}
    (head : first.LawfulAt left) (tail : second.LawfulAt right) :
    (first.pair second).LawfulAt (left, right) := by
  intro rest
  have last := tail rest
  simp only [pair, List.append_assoc]
  rw [head]
  simp [last]

/-- No bytes. -/
def unit : Format Unit where
  write _ := []
  read bytes := .ok ((), bytes)

/-- No bytes are read back. -/
theorem lawful_unit : unit.Lawful := fun _ _ => rfl

/-- A number of a given width; a larger one loses its high bytes. -/
def word (width : Nat) : Format Nat where
  write := wordBytes width
  read := readWord width

/-- A 16-bit number. -/
def uint16 : Format UInt16 := (word 2).map UInt16.ofNat UInt16.toNat

/-- A 32-bit number. -/
def uint32 : Format UInt32 := (word 4).map UInt32.ofNat UInt32.toNat

/-- A 64-bit number. -/
def uint64 : Format UInt64 := (word 8).map UInt64.ofNat UInt64.toNat

/-- 16-bit numbers are read back. -/
theorem lawful_uint16 : uint16.Lawful := fun value =>
  lawfulAt_map (readWord_wordBytes 2 value.toNat value.toNat_lt) (by simp)

/-- 32-bit numbers are read back. -/
theorem lawful_uint32 : uint32.Lawful := fun value =>
  lawfulAt_map (readWord_wordBytes 4 value.toNat value.toNat_lt) (by simp)

/-- 64-bit numbers are read back. -/
theorem lawful_uint64 : uint64.Lawful := fun value =>
  lawfulAt_map (readWord_wordBytes 8 value.toNat value.toNat_lt) (by simp)

/-- One of two values by a flag byte; any other byte is an error. -/
def flag (error : Error) : Format Bool where
  write value := [if value then 1 else 0]
  read
    | [] => .error .truncated
    | byte :: rest =>
      if byte = 0 then .ok (false, rest)
      else if byte = 1 then .ok (true, rest)
      else .error error

/-- Flags are read back. -/
theorem lawful_flag (error : Error) : (flag error).Lawful := by
  intro value rest
  cases value <;> simp [flag]

/-- A truth value. -/
def bool : Format Bool := flag .invalidBool

/-- The values of a count, in order. -/
def readEach (format : Format α) : Nat → Reader (List α)
  | 0, bytes => .ok ([], bytes)
  | count + 1, bytes =>
    match format.read bytes with
    | .error error => .error error
    | .ok (value, bytes) =>
      match readEach format count bytes with
      | .error error => .error error
      | .ok (values, rest) => .ok (value :: values, rest)

/-- A list: its length, then its members. -/
def list (format : Format α) : Format (List α) where
  write values := wordBytes 8 values.length ++ values.flatMap format.write
  read bytes :=
    match readWord 8 bytes with
    | .error error => .error error
    | .ok (count, bytes) => readEach format count bytes

/-- Members that are read back are read back in order. -/
theorem readEach_flatMap {format : Format α} {values : List α}
    (lawful : ∀ value ∈ values, format.LawfulAt value) (rest : List UInt8) :
    readEach format values.length (values.flatMap format.write ++ rest) = .ok (values, rest) := by
  induction values with
  | nil => rfl
  | cons first others ih =>
    have tail := ih fun value member => lawful value (List.mem_cons_of_mem _ member)
    simp only [List.flatMap_cons, List.length_cons, List.append_assoc, readEach]
    rw [lawful first List.mem_cons_self]
    simp [tail]

/-- A list whose members are read back is read back, unless its length overflows. -/
theorem lawfulAt_list {format : Format α} {values : List α} (short : values.length < UInt64.size)
    (lawful : ∀ value ∈ values, format.LawfulAt value) : (list format).LawfulAt values := by
  intro rest
  simp only [list, List.append_assoc]
  rw [readWord_wordBytes 8 values.length (by simpa using short)]
  exact readEach_flatMap lawful rest

/-- Some bytes as they are: their number, then themselves. -/
def readBytes : Reader (List UInt8) := fun bytes =>
  match readWord 8 bytes with
  | .error error => .error error
  | .ok (count, bytes) =>
    if count ≤ bytes.length then .ok (bytes.take count, bytes.drop count) else .error .truncated

/-- The bytes of a text. -/
def textBytes (text : String) : List UInt8 := text.toByteArray.data.toList

/-- The text that some bytes are. -/
def text? (bytes : List UInt8) : Option String := String.fromUTF8? ⟨bytes.toArray⟩

/-- A text: its length in bytes, then its bytes. -/
def string : Format String where
  write text := wordBytes 8 (textBytes text).length ++ textBytes text
  read bytes :=
    match readBytes bytes with
    | .error error => .error error
    | .ok (bytes, rest) =>
      match text? bytes with
      | none => .error .invalidText
      | some text => .ok (text, rest)

/-- The bytes of a text are that text. -/
theorem text?_textBytes (text : String) : text? (textBytes text) = some text := by
  have same : (⟨(textBytes text).toArray⟩ : ByteArray) = text.toByteArray := by simp [textBytes]
  simp only [text?, same, String.fromUTF8?, dif_pos text.isValidUTF8]
  rfl

/-- A text is read back, unless its length overflows. -/
theorem lawfulAt_string {text : String} (short : (textBytes text).length < UInt64.size) :
    string.LawfulAt text := by
  intro rest
  simp only [string, readBytes, List.append_assoc]
  rw [readWord_wordBytes 8 (textBytes text).length (by simpa using short)]
  simp [text?_textBytes]

/-- A value that may be missing: a flag byte, then the value if there is one. -/
def option (format : Format α) : Format (Option α) where
  write
    | none => [0]
    | some value => 1 :: format.write value
  read bytes :=
    match (flag .invalidFlag).read bytes with
    | .error error => .error error
    | .ok (false, rest) => .ok (none, rest)
    | .ok (true, bytes) =>
      match format.read bytes with
      | .error error => .error error
      | .ok (value, rest) => .ok (some value, rest)

/-- A missing value is read back, and a present one if it is by itself. -/
theorem lawfulAt_option {format : Format α} {value : Option α}
    (lawful : ∀ present ∈ value, format.LawfulAt present) : (option format).LawfulAt value := by
  intro rest
  cases value with
  | none => simp [option, flag]
  | some present =>
    have back := lawful present rfl rest
    simp [option, flag, back]

/-- A variant: its number, then what its number says. -/
def variant (number : α → Nat) (payload : α → List UInt8) (read : Nat → Option (Reader α)) :
    Format α where
  write value := wordBytes 4 (number value) ++ payload value
  read bytes :=
    match readWord 4 bytes with
    | .error error => .error error
    | .ok (number, bytes) =>
      match read number with
      | none => .error .unknownVariant
      | some reader => reader bytes

/-- A variant is read back if the reader of its number reads its payload back. -/
theorem lawfulAt_variant {number : α → Nat} {payload : α → List UInt8}
    {read : Nat → Option (Reader α)} {value : α} {reader : Reader α}
    (fits : number value < UInt32.size) (known : read (number value) = some reader)
    (back : ∀ rest, reader (payload value ++ rest) = .ok (value, rest)) :
    (variant number payload read).LawfulAt value := by
  intro rest
  simp only [variant, List.append_assoc]
  rw [readWord_wordBytes 4 _ (by simpa using fits)]
  simp [known, back rest]

/-- A variant without payload, its number its position in a list. -/
def oneOf [BEq α] (values : List α) : Format α :=
  variant values.idxOf (fun _ => []) fun number =>
    values[number]?.map fun value bytes => .ok (value, bytes)

/-- A listed value is read back. -/
theorem lawfulAt_oneOf [BEq α] [LawfulBEq α] {values : List α} {value : α}
    (listed : value ∈ values) (short : values.length < UInt32.size) :
    (oneOf values).LawfulAt value := by
  have inside : values.idxOf value < values.length := List.idxOf_lt_length_of_mem listed
  have found : values[values.idxOf value]? = some value := by
    rw [List.getElem?_eq_getElem inside, List.getElem_idxOf]
  exact lawfulAt_variant (by omega) (by rw [found]; rfl) fun _ => rfl

end Format

/-- The value at the front of some bytes; what follows it does not matter. -/
def decode {α : Type} (format : Format α) (bytes : List UInt8) : Except Error α :=
  match format.read bytes with
  | .error error => .error error
  | .ok (value, _) => .ok value

end SkillEngine.Binary
