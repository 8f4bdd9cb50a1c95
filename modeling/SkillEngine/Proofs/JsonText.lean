import SkillEngine.Json.Printer
import SkillEngine.Json.Reader

/-!
# Reading back what was written

A document that was written in lines is read back as it is: the blanks between its parts are passed
over, escapes stand for the characters that they were written for, and the digits of a number are
those of its numeral. Only a string without a text cannot be written.
-/

namespace SkillEngine

namespace Number

/-- The value of a decimal digit is written as that digit. -/
theorem Numeral.digitChar_sub {digit : Char} (decimal : digit.isDigit = true) :
    Numeral.digitChar (digit.toNat - '0'.toNat) = digit := by
  have least : '0'.toNat ≤ digit.toNat := (Char.isDigit_iff_toNat.1 decimal).1
  rw [Numeral.digitChar, Nat.add_sub_cancel' least, Char.ofNat_toNat]

/-- What is written as a digit has that value. -/
theorem Numeral.toNat_digitChar {digit : Nat} (small : digit < 10) :
    (Numeral.digitChar digit).isDigit = true ∧
      (Numeral.digitChar digit).toNat - '0'.toNat = digit := by
  have all : ∀ digit < 10, (Numeral.digitChar digit).isDigit = true ∧
      (Numeral.digitChar digit).toNat - '0'.toNat = digit := by decide
  exact all digit small

/-- The characters of a number's digits. -/
theorem map_digitChar_digitsOf (number : Nat) :
    (digitsOf number).map Numeral.digitChar = Nat.toDigits 10 number := by
  rw [digitsOf, List.map_map]
  have same : ∀ digit ∈ Nat.toDigits 10 number,
      (Numeral.digitChar ∘ fun digit => digit.toNat - '0'.toNat) digit = digit :=
    fun digit member => Numeral.digitChar_sub
      (Nat.isDigit_of_mem_toDigits (by decide) (by decide) member)
  rw [List.map_congr_left same, List.map_id']

/-- A numeral that can be written: what stands behind the point are digits. -/
def Numeral.IsWritten (numeral : Numeral) : Prop := ∀ digit ∈ numeral.fraction, digit < 10

/-- The text of a fraction, with its point. -/
def Numeral.fractionText (digits : List Nat) : List Char :=
  if digits.isEmpty then [] else '.' :: digits.map digitChar

/-- The text of an exponent, if there is one. -/
def Numeral.exponentText : Option Int → List Char
  | none => []
  | some power => exponentChars true power

/-- A number is written part by part. -/
theorem Numeral.chars_eq (numeral : Numeral) : numeral.chars true =
    (if numeral.negative then ['-'] else []) ++ (Nat.toDigits 10 numeral.whole ++
      (fractionText numeral.fraction ++ exponentText numeral.exponent)) := by
  rw [← map_digitChar_digitsOf, ← List.append_assoc, ← List.append_assoc]
  unfold Numeral.chars exponentText
  cases numeral.exponent <;> rfl

end Number

namespace Json

open Number (Numeral digitsOf)

/-- No digit comes next. -/
def NoDigit (text : List Char) : Prop := ∀ next ∈ text.head?, next.isDigit = false

/-- Nothing comes next that a number could go on with. -/
def Ends (text : List Char) : Prop :=
  ∀ next ∈ text.head?, next.isDigit = false ∧ next ≠ '.' ∧ next ≠ 'e' ∧ next ≠ 'E'

variable {digits rest : List Char}

/-- Where a number ends there is no digit. -/
theorem Ends.noDigit (ends : Ends rest) : NoDigit rest := fun next first => (ends next first).1

/-- A run of digits ends where no digit comes next. -/
theorem digitRun_append (all : ∀ digit ∈ digits, digit.isDigit = true) (stops : NoDigit rest) :
    digitRun (digits ++ rest) = (digits, rest) := by
  have none : rest.takeWhile Char.isDigit = [] ∧ rest.dropWhile Char.isDigit = rest := by
    cases rest with
    | nil => exact ⟨rfl, rfl⟩
    | cons next others =>
      have other := stops next rfl
      exact ⟨by simp [other], by simp [other]⟩
  rw [digitRun, List.takeWhile_append_of_pos all, List.dropWhile_append_of_pos all, none.1, none.2,
    List.append_nil]

/-- The digits of a number have its value. -/
theorem numberOf_toDigits (number : Nat) : numberOf (Nat.toDigits 10 number) = number := by
  have value : Nat.ofDigitChars 10 (Nat.toDigits 10 number) 0 = number :=
    Nat.ofDigitChars_ten_toDigits
  simpa only [numberOf, Nat.ofDigitChars, Nat.mul_comm 10] using value

/-- Only zero begins with the digit zero. -/
theorem exists_toDigits {number : Nat} (positive : 0 < number) :
    ∃ first others, Nat.toDigits 10 number = first :: others ∧ first ≠ '0' := by
  induction number using Nat.base_induction 10 (by decide) with
  | single digit small =>
    refine ⟨digit.digitChar, [], Nat.toDigits_of_lt_base small, fun zero => ?_⟩
    exact absurd (Nat.digitChar_eq_zero.1 zero) (Nat.pos_iff_ne_zero.1 positive)
  | digit leading last small some ih =>
    obtain ⟨first, others, same, nonzero⟩ := ih some
    refine ⟨first, others ++ Nat.toDigits 10 last, ?_, nonzero⟩
    rw [← Nat.toDigits_append_toDigits (by decide) some small, same]
    rfl

/-- The whole part of a number is read back. -/
theorem wholePart?_toDigits (number : Nat) (stops : NoDigit rest) :
    wholePart? (Nat.toDigits 10 number ++ rest) = some (number, rest) := by
  rcases Nat.eq_zero_or_pos number with rfl | positive
  · cases rest with
    | nil => rfl
    | cons next others =>
      have other := stops next rfl
      simp [wholePart?, other]
  · obtain ⟨first, others, same, nonzero⟩ := exists_toDigits positive
    have digits : ∀ digit ∈ Nat.toDigits 10 number, digit.isDigit = true :=
      fun digit member => Nat.isDigit_of_mem_toDigits (by decide) (by decide) member
    have run := digitRun_append digits stops
    have value := numberOf_toDigits number
    rw [same] at run value ⊢
    rw [List.cons_append] at run ⊢
    unfold wholePart?
    split
    · next equal => exact absurd (List.cons.inj equal).1 nonzero
    · simp only [run]
      rw [value]
      rfl

/-- The characters of digits have their values. -/
theorem map_digitChar {values : List Nat} (small : ∀ digit ∈ values, digit < 10) :
    (∀ digit ∈ values.map Numeral.digitChar, digit.isDigit = true) ∧
      (values.map Numeral.digitChar).map (fun digit => digit.toNat - '0'.toNat) = values := by
  refine ⟨fun digit member => ?_, ?_⟩
  · obtain ⟨value, stands, rfl⟩ := List.mem_map.1 member
    exact (Numeral.toNat_digitChar (small value stands)).1
  · rw [List.map_map]
    have same : ∀ digit ∈ values,
        ((fun digit => digit.toNat - '0'.toNat) ∘ Numeral.digitChar) digit = digit :=
      fun digit member => (Numeral.toNat_digitChar (small digit member)).2
    rw [List.map_congr_left same, List.map_id']

/-- The fraction of a number is read back. -/
theorem fractionPart?_append {values : List Nat} (small : ∀ digit ∈ values, digit < 10)
    (stops : NoDigit rest) (point : ∀ next ∈ rest.head?, next ≠ '.') :
    fractionPart? (Numeral.fractionText values ++ rest) = some (values, rest) := by
  cases values with
  | nil =>
    cases rest with
    | nil => rfl
    | cons next others =>
      have other := point next rfl
      show fractionPart? (next :: others) = _
      unfold fractionPart?
      split
      · next equal => exact absurd (List.cons.inj equal).1 other
      · rfl
  | cons first others =>
    obtain ⟨digits, values⟩ := map_digitChar small
    have run := digitRun_append digits stops
    show fractionPart? ('.' :: ((first :: others).map Numeral.digitChar ++ rest)) = _
    simp only [fractionPart?, run, values]
    rfl

/-- The digits of an exponent are read back. -/
theorem exponentDigits?_toDigits (negative : Bool) (size : Nat) (stops : NoDigit rest) :
    exponentDigits? negative (Nat.toDigits 10 size ++ rest) =
      some (some (if negative then -(size : Int) else size), rest) := by
  have digits : ∀ digit ∈ Nat.toDigits 10 size, digit.isDigit = true :=
    fun digit member => Nat.isDigit_of_mem_toDigits (by decide) (by decide) member
  have some : (Nat.toDigits 10 size).isEmpty = false := by
    simp [Nat.toDigits_ne_nil]
  simp [exponentDigits?, digitRun_append digits stops, some, numberOf_toDigits]

/-- The exponent of a number is read back. -/
theorem exponentPart?_exponentChars (power : Int) (stops : NoDigit rest) :
    exponentPart? (Numeral.exponentChars true power ++ rest) = some (some power, rest) := by
  by_cases positive : 0 ≤ power
  · have digits : power.repr.toList = Nat.toDigits 10 power.toNat := by
      rw [Int.repr_eq_if, if_pos positive, Nat.toList_repr]
    have size : (power.toNat : Int) = power := Int.toNat_of_nonneg positive
    have signed : Numeral.exponentChars true power ++ rest =
        'e' :: '+' :: (Nat.toDigits 10 power.toNat ++ rest) := by
      simp [Numeral.exponentChars, digits, positive]
    rw [signed]
    simp only [exponentPart?, true_or, if_true]
    rw [exponentDigits?_toDigits false _ stops, if_neg Bool.false_ne_true, size]
  · have digits : power.repr.toList = '-' :: Nat.toDigits 10 (-power).toNat := by
      rw [Int.repr_eq_if, if_neg positive, String.toList_append, Nat.toList_repr]
      rfl
    have size : ((-power).toNat : Int) = -power := Int.toNat_of_nonneg (by omega)
    have signed : Numeral.exponentChars true power ++ rest =
        'e' :: '-' :: (Nat.toDigits 10 (-power).toNat ++ rest) := by
      simp [Numeral.exponentChars, digits, positive]
    rw [signed]
    simp only [exponentPart?, true_or, if_true]
    rw [exponentDigits?_toDigits true _ stops, if_pos rfl, size, Int.neg_neg]

/-- Where a number ends there is no exponent. -/
theorem exponentPart?_of_ends (ends : Ends rest) : exponentPart? rest = some (none, rest) := by
  cases rest with
  | nil => rfl
  | cons next others =>
    obtain ⟨_, _, small, large⟩ := ends next rfl
    exact if_neg (not_or_intro small large)

/-- What is behind the fraction of a number goes on with no digit and no point. -/
theorem head_exponentText (exponent : Option Int) (ends : Ends rest) :
    ∀ next ∈ (Numeral.exponentText exponent ++ rest).head?, next.isDigit = false ∧ next ≠ '.' := by
  intro next first
  cases exponent with
  | none => exact ⟨(ends next first).1, (ends next first).2.1⟩
  | some power =>
    cases first
    exact ⟨rfl, by decide⟩

/-- What is behind the whole part of a number goes on with no digit. -/
theorem noDigit_fractionText (fraction : List Nat) (stops : NoDigit rest) :
    NoDigit (Numeral.fractionText fraction ++ rest) := by
  cases fraction with
  | nil => exact stops
  | cons =>
    intro next first
    cases first
    rfl

/-- A number without its sign is read back. -/
theorem unsigned?_chars {numeral : Numeral} (written : numeral.IsWritten) (ends : Ends rest) :
    unsigned? numeral.negative (Nat.toDigits 10 numeral.whole ++
      (Numeral.fractionText numeral.fraction ++
        (Numeral.exponentText numeral.exponent ++ rest))) = some (numeral, rest) := by
  have behind := head_exponentText numeral.exponent ends
  have stops : NoDigit (Numeral.exponentText numeral.exponent ++ rest) :=
    fun next first => (behind next first).1
  have whole := wholePart?_toDigits numeral.whole (noDigit_fractionText numeral.fraction stops)
  have fraction := fractionPart?_append written stops fun next first => (behind next first).2
  have exponent : exponentPart? (Numeral.exponentText numeral.exponent ++ rest) =
      some (numeral.exponent, rest) := by
    cases numeral.exponent with
    | none => exact exponentPart?_of_ends ends
    | some power => exact exponentPart?_exponentChars power ends.noDigit
  simp only [unsigned?, whole, fraction, exponent, Option.bind_eq_bind, Option.bind_some]

/-- A number is read back. -/
theorem numeral?_chars {numeral : Numeral} (written : numeral.IsWritten) (ends : Ends rest) :
    numeral? (numeral.chars true ++ rest) = some (numeral, rest) := by
  have unsigned := unsigned?_chars written ends
  have some : Nat.toDigits 10 numeral.whole ≠ [] := Nat.toDigits_ne_nil
  obtain ⟨first, others, same⟩ := List.exists_cons_of_ne_nil some
  have digit : first.isDigit = true :=
    Nat.isDigit_of_mem_toDigits (by decide) (by decide) (same ▸ List.mem_cons_self)
  rw [Numeral.chars_eq]
  simp only [List.append_assoc]
  rw [same] at unsigned ⊢
  cases sign : numeral.negative with
  | true =>
    rw [sign] at unsigned
    exact unsigned
  | false =>
    rw [sign] at unsigned
    show numeral? (first :: _) = _
    unfold numeral?
    split
    · next equal =>
      rw [(List.cons.inj equal).1] at digit
      exact absurd digit (by decide)
    · exact unsigned

/-- A hexadecimal digit is read back. -/
theorem hexValue?_hexDigit {digit : Nat} (small : digit < 16) :
    hexValue? (hexDigit digit) = some digit := by
  have all : ∀ digit < 16, hexValue? (hexDigit digit) = some digit := by decide
  exact all digit small

/-- A character of a string literal is read back, and takes one of the units that may be read. -/
theorem stringUnits_escape (bound : Nat) (units : List Unit16) (character : Char)
    (rest : List Char) : stringUnits (bound + 1) units (escape character ++ rest) =
      stringUnits bound (.character character :: units) rest := by
  unfold escape
  split
  · next same => rw [same]; rfl
  · next quote =>
    split
    · next same => rw [same]; rfl
    · next backslash =>
      split
      · next same => rw [same]; rfl
      · split
        · next same => rw [same]; rfl
        · split
          · next same => rw [same]; rfl
          · split
            · next same => rw [same]; rfl
            · split
              · next same => rw [same]; rfl
              · split
                · next control =>
                  have high : hexValue? (hexDigit (character.toNat / 16)) =
                      some (character.toNat / 16) := hexValue?_hexDigit (by omega)
                  have low : hexValue? (hexDigit (character.toNat % 16)) =
                      some (character.toNat % 16) := hexValue?_hexDigit (by omega)
                  have word : (character.toNat / 16) * 16 + character.toNat % 16 =
                      character.toNat := by omega
                  have zero : hexValue? '0' = some 0 := rfl
                  have unit : Unit16.ofWord character.toNat = .character character := by
                    unfold Unit16.ofWord
                    rw [if_neg (by omega), if_neg (by omega), Char.ofNat_toNat]
                  simp [stringUnits, escaped?, hexWord?, high, low, zero, word, unit]
                · next plain => simp [stringUnits, quote, backslash, plain]

/-- The units of a literal are the characters that it was written for. -/
theorem stringUnits_flatMap (text rest : List Char) (units : List Unit16) {bound : Nat}
    (enough : text.length < bound) :
    stringUnits bound units (text.flatMap escape ++ '"' :: rest) =
      some (units.reverse ++ text.map .character, rest) := by
  induction text generalizing units bound with
  | nil =>
    obtain ⟨bound, rfl⟩ := Nat.exists_eq_succ_of_ne_zero (Nat.ne_of_gt enough)
    simp [stringUnits]
  | cons character others ih =>
    obtain ⟨bound, rfl⟩ := Nat.exists_eq_succ_of_ne_zero (Nat.ne_of_gt (Nat.zero_lt_of_lt enough))
    have fewer : others.length < bound := Nat.lt_of_succ_lt_succ enough
    rw [List.flatMap_cons, List.append_assoc, Nat.succ_eq_add_one, stringUnits_escape, ih _ fewer]
    simp

/-- Characters have a text. -/
theorem textOf_map_character (text : List Char) : textOf (text.map .character) = some text := by
  induction text with
  | nil => rfl
  | cons character others ih => simp [textOf, ih]

/-- Escapes are no shorter than what they stand for. -/
theorem length_le_flatMap_escape (text : List Char) :
    text.length ≤ (text.flatMap escape).length := by
  induction text with
  | nil => exact Nat.le_refl _
  | cons character others ih =>
    have some : 1 ≤ (escape character).length := by
      unfold escape
      repeat' split
      all_goals exact Nat.succ_le_succ (Nat.zero_le _)
    rw [List.flatMap_cons, List.length_append, List.length_cons]
    omega

/-- A string literal is read back. -/
theorem stringLiteral_quoted (text : String) (rest : List Char) :
    stringLiteral (text.toList.flatMap escape ++ '"' :: rest) = some (some text, rest) := by
  have enough : text.toList.length <
      (text.toList.flatMap escape ++ '"' :: rest).length + 1 := by
    have short := length_le_flatMap_escape text.toList
    rw [List.length_append]
    omega
  rw [stringLiteral, stringUnits_flatMap _ _ _ enough]
  simp [textOf_map_character]

mutual

/-- A document that can be written: every string has a text, and numbers are made of digits. -/
def IsWritten : Json → Prop
  | .null | .bool _ => True
  | .number numeral => numeral.IsWritten
  | .string text => text.isSome = true
  | .array items => EachWritten items
  | .object fields => EachFieldWritten fields

/-- Items that can be written. -/
def EachWritten : List Json → Prop
  | [] => True
  | first :: rest => IsWritten first ∧ EachWritten rest

/-- Fields that can be written. -/
def EachFieldWritten : List (Option String × Json) → Prop
  | [] => True
  | (key, value) :: rest => key.isSome = true ∧ IsWritten value ∧ EachFieldWritten rest

end

/-- Indentation is passed over. -/
theorem skipBlanks_newline (level : Nat) (rest : List Char) :
    skipBlanks (newline level ++ rest) = skipBlanks rest := by
  refine List.dropWhile_append_of_pos fun blank member => ?_
  rcases List.mem_cons.1 member with rfl | space
  · rfl
  · rw [List.eq_of_mem_replicate space]
    rfl

/-- Blanks before a document are passed over. -/
theorem value?_of_skipBlanks {text other : List Char} (same : skipBlanks text = skipBlanks other)
    (bound : Nat) : value? bound text = value? bound other := by
  cases bound with
  | zero => rfl
  | succ bound => rw [value?, value?, same]

/-- Blanks before an item are passed over. -/
theorem items?_of_skipBlanks {text other : List Char} (same : skipBlanks text = skipBlanks other)
    (bound : Nat) (items : List Json) : items? bound items text = items? bound items other := by
  cases bound with
  | zero => rfl
  | succ bound => rw [items?, items?, value?_of_skipBlanks same]

/-- Blanks before a field are passed over. -/
theorem fields?_of_skipBlanks {text other : List Char} (same : skipBlanks text = skipBlanks other)
    (bound : Nat) (fields : List (Option String × Json)) :
    fields? bound fields text = fields? bound fields other := by
  cases bound with
  | zero => rfl
  | succ bound => rw [fields?, fields?, same]

/-- What follows an item is no part of a number. -/
theorem ends_prettyItems (level : Nat) (items : List Json) (rest : List Char) :
    Ends (prettyItems level items ++ rest) := by
  intro next first
  cases items <;> cases first <;> decide

/-- What follows a field is no part of a number. -/
theorem ends_prettyFields (level : Nat) (fields : List (Option String × Json)) (rest : List Char) :
    Ends (prettyFields level fields ++ rest) := by
  intro next first
  cases fields with
  | nil => cases first; decide
  | cons field => obtain ⟨key, value⟩ := field; cases first; decide

/-- A character that a number begins with. -/
def BeginsNumber (first : Char) : Prop := first = '-' ∨ first.isDigit = true

/-- A number begins with a digit or a minus sign. -/
theorem exists_chars (numeral : Numeral) :
    ∃ first others, numeral.chars true = first :: others ∧ BeginsNumber first := by
  have some : Nat.toDigits 10 numeral.whole ≠ [] := Nat.toDigits_ne_nil
  obtain ⟨first, others, same⟩ := List.exists_cons_of_ne_nil some
  have digit : first.isDigit = true :=
    Nat.isDigit_of_mem_toDigits (by decide) (by decide) (same ▸ List.mem_cons_self)
  rw [Numeral.chars_eq, same]
  cases numeral.negative with
  | true => exact ⟨_, _, rfl, .inl rfl⟩
  | false => exact ⟨_, _, rfl, .inr digit⟩

/-- No other character begins a number. -/
theorem BeginsNumber.ne {first next : Char} (begins : BeginsNumber first)
    (other : next ≠ '-' ∧ next.isDigit = false) : first ≠ next := by
  rintro rfl
  rcases begins with minus | digit
  · exact other.1 minus
  · exact absurd (other.2.symm.trans digit) Bool.false_ne_true

/-- A number begins with no blank. -/
theorem BeginsNumber.isBlank {first : Char} (begins : BeginsNumber first) :
    isBlank first = false := by
  have space : first ≠ ' ' := begins.ne (by decide)
  have tab : first ≠ '\t' := begins.ne (by decide)
  have line : first ≠ '\n' := begins.ne (by decide)
  have carriage : first ≠ '\r' := begins.ne (by decide)
  simp [Json.isBlank, space, tab, line, carriage]

/-- Without blanks nothing is passed over. -/
theorem skipBlanks_cons {first : Char} (plain : isBlank first = false) (rest : List Char) :
    skipBlanks (first :: rest) = first :: rest :=
  List.dropWhile_cons_of_neg (by simp [plain])

/-- A number is read back as a document. -/
theorem value?_chars {numeral : Numeral} (written : numeral.IsWritten) (bound : Nat)
    {rest : List Char} (ends : Ends rest) :
    value? (bound + 1) (numeral.chars true ++ rest) = some (.number numeral, rest) := by
  have read := numeral?_chars written ends
  obtain ⟨first, others, same, begins⟩ := exists_chars numeral
  rw [same, List.cons_append] at read ⊢
  rw [value?, skipBlanks_cons begins.isBlank]
  split
  · next equal => exact absurd (List.cons.inj equal).1 (begins.ne (by decide))
  · next equal => exact absurd (List.cons.inj equal).1 (begins.ne (by decide))
  · next equal => exact absurd (List.cons.inj equal).1 (begins.ne (by decide))
  · next equal => exact absurd (List.cons.inj equal).1 (begins.ne (by decide))
  · next equal => exact absurd (List.cons.inj equal).1 (begins.ne (by decide))
  · next equal => exact absurd (List.cons.inj equal).1 (begins.ne (by decide))
  · rw [read]
    rfl

section Lines

variable (level : Nat)

/-- The null value in a line. -/
theorem prettyChars_null : prettyChars level .null = ['n', 'u', 'l', 'l'] := rfl

/-- The true value in a line. -/
theorem prettyChars_true : prettyChars level (.bool true) = ['t', 'r', 'u', 'e'] := rfl

/-- The false value in a line. -/
theorem prettyChars_false : prettyChars level (.bool false) = ['f', 'a', 'l', 's', 'e'] := rfl

/-- A number in a line. -/
theorem prettyChars_number (numeral : Numeral) :
    prettyChars level (.number numeral) = numeral.chars true := rfl

/-- A string in a line. -/
theorem prettyChars_string (text : String) : prettyChars level (.string (some text)) =
    '"' :: (text.toList.flatMap escape ++ ['"']) := rfl

/-- An array without items in a line. -/
theorem prettyChars_array_nil : prettyChars level (.array []) = ['[', ']'] := rfl

/-- An object without fields in a line. -/
theorem prettyChars_object_nil : prettyChars level (.object []) = ['\x7b', '\x7d'] := rfl

/-- An array with items in lines. -/
theorem prettyChars_array_cons (item : Json) (items : List Json) :
    prettyChars level (.array (item :: items)) = '[' :: (newline (level + 1) ++
      (prettyChars (level + 1) item ++ prettyItems level items)) := by
  show '[' :: newline (level + 1) ++ prettyChars (level + 1) item ++ prettyItems level items = _
  rw [List.append_assoc]
  rfl

/-- Further items in lines. -/
theorem prettyItems_cons (item : Json) (items : List Json) :
    prettyItems level (item :: items) = ',' :: (newline (level + 1) ++
      (prettyChars (level + 1) item ++ prettyItems level items)) := by
  show ',' :: newline (level + 1) ++ prettyChars (level + 1) item ++ prettyItems level items = _
  rw [List.append_assoc]
  rfl

/-- An object with fields in lines. -/
theorem prettyChars_object_cons (key : String) (value : Json)
    (fields : List (Option String × Json)) :
    prettyChars level (.object ((some key, value) :: fields)) =
      '\x7b' :: (newline (level + 1) ++ ('"' :: (key.toList.flatMap escape ++ ('"' :: ':' :: ' ' ::
        (prettyChars (level + 1) value ++ prettyFields level fields))))) := by
  show '\x7b' :: newline (level + 1) ++ literal (some key) ++ ':' :: ' ' ::
    prettyChars (level + 1) value ++ prettyFields level fields = _
  simp [literal, quoted]

/-- Further fields in lines. -/
theorem prettyFields_cons (key : String) (value : Json) (fields : List (Option String × Json)) :
    prettyFields level ((some key, value) :: fields) =
      ',' :: (newline (level + 1) ++ ('"' :: (key.toList.flatMap escape ++ ('"' :: ':' :: ' ' ::
        (prettyChars (level + 1) value ++ prettyFields level fields))))) := by
  show ',' :: newline (level + 1) ++ literal (some key) ++ ':' :: ' ' ::
    prettyChars (level + 1) value ++ prettyFields level fields = _
  simp [literal, quoted]

end Lines

/-- What is written begins neither with a blank nor with the end of an array. -/
theorem exists_prettyChars (level : Nat) (json : Json) (written : json.IsWritten) :
    ∃ first others, prettyChars level json = first :: others ∧ isBlank first = false ∧
      first ≠ ']' := by
  cases json with
  | null => exact ⟨_, _, prettyChars_null level, rfl, by decide⟩
  | bool value =>
    cases value with
    | true => exact ⟨_, _, prettyChars_true level, rfl, by decide⟩
    | false => exact ⟨_, _, prettyChars_false level, rfl, by decide⟩
  | number numeral =>
    obtain ⟨first, others, same, begins⟩ := exists_chars numeral
    exact ⟨first, others, (prettyChars_number level numeral).trans same, begins.isBlank,
      begins.ne (by decide)⟩
  | string text =>
    rw [IsWritten] at written
    obtain ⟨text, rfl⟩ := Option.isSome_iff_exists.1 written
    exact ⟨_, _, prettyChars_string level text, rfl, by decide⟩
  | array items =>
    cases items with
    | nil => exact ⟨_, _, prettyChars_array_nil level, rfl, by decide⟩
    | cons item items => exact ⟨_, _, prettyChars_array_cons level item items, rfl, by decide⟩
  | object fields =>
    cases fields with
    | nil => exact ⟨_, _, prettyChars_object_nil level, rfl, by decide⟩
    | cons field fields =>
      obtain ⟨key, value⟩ := field
      rw [IsWritten, EachFieldWritten] at written
      obtain ⟨key, rfl⟩ := Option.isSome_iff_exists.1 written.1
      exact ⟨_, _, prettyChars_object_cons level key value fields, rfl, by decide⟩

mutual

/-- A document is read back, whatever follows it that is no part of a number. -/
theorem value?_prettyChars (json : Json) (level bound : Nat) {rest : List Char}
    (written : json.IsWritten) (enough : (prettyChars level json).length ≤ bound)
    (ends : Ends rest) : value? bound (prettyChars level json ++ rest) = some (json, rest) := by
  obtain ⟨bound, rfl⟩ : ∃ less, bound = less + 1 := by
    obtain ⟨first, others, same, _⟩ := exists_prettyChars level json written
    rw [same, List.length_cons] at enough
    exact Nat.exists_eq_add_of_le' (Nat.le_trans (Nat.succ_le_succ (Nat.zero_le _)) enough)
  cases json with
  | null =>
    rw [prettyChars_null]
    rfl
  | bool value =>
    cases value with
    | true =>
      rw [prettyChars_true]
      rfl
    | false =>
      rw [prettyChars_false]
      rfl
  | number numeral =>
    rw [IsWritten] at written
    rw [prettyChars_number]
    exact value?_chars written bound ends
  | string text =>
    rw [IsWritten] at written
    obtain ⟨text, rfl⟩ := Option.isSome_iff_exists.1 written
    have read := stringLiteral_quoted text rest
    rw [prettyChars_string, List.cons_append, List.append_assoc]
    show (stringLiteral (text.toList.flatMap escape ++ '"' :: rest)).map _ = _
    rw [read]
    rfl
  | array items =>
    cases items with
    | nil =>
      rw [prettyChars_array_nil]
      rfl
    | cons item items =>
      rw [IsWritten] at written
      obtain ⟨first, others, begins, plain, apart⟩ :=
        exists_prettyChars (level + 1) item written.1
      rw [prettyChars_array_cons, List.length_cons, List.length_append,
        List.length_append] at enough
      have read := items?_prettyItems item items level [] rest bound written.1 written.2
        (by omega)
      have indented : skipBlanks (newline (level + 1) ++
          (prettyChars (level + 1) item ++ (prettyItems level items ++ rest))) =
          prettyChars (level + 1) item ++ (prettyItems level items ++ rest) := by
        rw [skipBlanks_newline, begins]
        exact skipBlanks_cons plain _
      rw [prettyChars_array_cons, List.cons_append, List.append_assoc, List.append_assoc]
      simp only [value?, skipBlanks_cons (show isBlank '[' = false from rfl), indented]
      split
      · next closed =>
        rw [begins] at closed
        exact absurd (List.cons.inj closed).1 apart
      · rw [read]
        rfl
  | object fields =>
    match shape : fields with
    | [] =>
      rw [prettyChars_object_nil]
      rfl
    | (none, _) :: _ =>
      rw [IsWritten, EachFieldWritten] at written
      cases written.1
    | (some key, value) :: fields =>
      rw [IsWritten, EachFieldWritten] at written
      obtain ⟨_, first, others⟩ := written
      rw [prettyChars_object_cons] at enough ⊢
      simp only [List.length_cons, List.length_append] at enough
      have read := fields?_prettyFields key value fields level [] rest bound first others
        (by omega)
      rw [List.cons_append, List.append_assoc]
      simp only [value?, skipBlanks_cons (show isBlank '\x7b' = false from rfl),
        skipBlanks_newline, List.cons_append, skipBlanks_cons (show isBlank '"' = false from rfl)]
      simp only [List.append_assoc, List.cons_append]
      show Option.map _ (fields? bound [] ('"' :: _)) = _
      rw [read]
      rfl
termination_by sizeOf json

/-- Items behind others are read back. -/
theorem items?_prettyItems (item : Json) (items : List Json) (level : Nat) (earlier : List Json)
    (rest : List Char) (bound : Nat) (first : item.IsWritten) (others : EachWritten items)
    (enough : (prettyChars (level + 1) item).length + (prettyItems level items).length ≤ bound) :
    items? bound earlier (prettyChars (level + 1) item ++ (prettyItems level items ++ rest)) =
      some (earlier.reverse ++ item :: items, rest) := by
  have longer : 1 ≤ (prettyItems level items).length := by
    cases items <;> simp [prettyItems, newline]
  obtain ⟨bound, rfl⟩ : ∃ less, bound = less + 1 := ⟨bound - 1, by omega⟩
  have read := value?_prettyChars item (level + 1) bound first (by omega)
    (ends_prettyItems level items rest)
  rw [items?, read]
  cases items with
  | nil =>
    have closed : skipBlanks (prettyItems level [] ++ rest) = ']' :: rest := by
      rw [prettyItems, List.append_assoc, skipBlanks_newline]
      rfl
    simp only [closed, List.reverse_cons]
  | cons next items =>
    rw [EachWritten] at others
    rw [prettyItems_cons, List.length_cons, List.length_append, List.length_append] at enough
    have onward := items?_prettyItems next items level (item :: earlier) rest bound others.1
      others.2 (by omega)
    have indented := skipBlanks_newline (level + 1)
      (prettyChars (level + 1) next ++ (prettyItems level items ++ rest))
    have comma : skipBlanks (prettyItems level (next :: items) ++ rest) =
        ',' :: (newline (level + 1) ++
          (prettyChars (level + 1) next ++ (prettyItems level items ++ rest))) := by
      rw [prettyItems_cons]
      simp [skipBlanks_cons (show isBlank ',' = false from rfl)]
    simp only [comma]
    rw [items?_of_skipBlanks indented, onward]
    simp
termination_by sizeOf (item :: items)

/-- Fields behind others are read back. -/
theorem fields?_prettyFields (key : String) (value : Json) (fields : List (Option String × Json))
    (level : Nat) (earlier : List (Option String × Json)) (rest : List Char) (bound : Nat)
    (first : value.IsWritten) (others : EachFieldWritten fields)
    (enough : (prettyChars (level + 1) value).length + (prettyFields level fields).length ≤
      bound) :
    fields? bound earlier ('"' :: (key.toList.flatMap escape ++ ('"' :: ':' :: ' ' ::
        (prettyChars (level + 1) value ++ (prettyFields level fields ++ rest))))) =
      some (earlier.reverse ++ (some key, value) :: fields, rest) := by
  have longer : 1 ≤ (prettyFields level fields).length := by
    cases fields <;> simp [prettyFields, newline]
  obtain ⟨bound, rfl⟩ : ∃ less, bound = less + 1 := ⟨bound - 1, by omega⟩
  have read := value?_prettyChars value (level + 1) bound first (by omega)
    (ends_prettyFields level fields rest)
  have spaced : value? bound (' ' :: (prettyChars (level + 1) value ++
      (prettyFields level fields ++ rest))) =
      value? bound (prettyChars (level + 1) value ++ (prettyFields level fields ++ rest)) :=
    value?_of_skipBlanks (List.dropWhile_cons_of_pos rfl) bound
  simp only [fields?, skipBlanks_cons (show isBlank '"' = false from rfl), stringLiteral_quoted,
    skipBlanks_cons (show isBlank ':' = false from rfl), spaced, read]
  match shape : fields with
  | [] =>
    have closed : skipBlanks (prettyFields level [] ++ rest) = '\x7d' :: rest := by
      rw [prettyFields, List.append_assoc, skipBlanks_newline]
      rfl
    simp only [closed, List.reverse_cons]
  | (none, _) :: _ =>
    rw [EachFieldWritten] at others
    cases others.1
  | (some name, next) :: fields =>
    rw [EachFieldWritten] at others
    obtain ⟨_, second, others⟩ := others
    rw [prettyFields_cons] at enough
    simp only [List.length_cons, List.length_append] at enough
    have onward := fields?_prettyFields name next fields level ((some key, value) :: earlier) rest
      bound second others (by omega)
    have comma : skipBlanks (prettyFields level ((some name, next) :: fields) ++ rest) =
        ',' :: (newline (level + 1) ++ ('"' :: (name.toList.flatMap escape ++
          ('"' :: ':' :: ' ' :: (prettyChars (level + 1) next ++
            (prettyFields level fields ++ rest)))))) := by
      rw [prettyFields_cons]
      simp [skipBlanks_cons (show isBlank ',' = false from rfl)]
    simp only [comma]
    rw [fields?_of_skipBlanks (skipBlanks_newline (level + 1) _), onward]
    simp
termination_by sizeOf ((some key, value) :: fields)

end

/-- A document that was written in lines is read back. -/
theorem parse_pretty {json : Json} (written : json.IsWritten) : parse json.pretty = some json := by
  have enough : (prettyChars 0 json).length ≤ 2 * (prettyChars 0 json).length + 2 := by omega
  have ends : Ends [] := fun _ none => by cases none
  have read := value?_prettyChars json 0 _ written enough ends
  rw [List.append_nil] at read
  rw [parse, pretty, String.toList_ofList, parseChars, read]
  rfl

end Json

end SkillEngine
