import Mathlib.Data.List.TakeWhile
import SkillEngine.Formula.Token

/-!
# Tokens by maximal munch

`Lexes` says which tokens a text is made of: blanks separate, a mark is a token by itself, and a
number or a name reaches as far as the characters do that it may be made of. A numeral is some
digits with at most one dot among them. `tokenizeFrom_eq_ok_iff` says that reading gives exactly
these tokens, so a text that is made of no tokens is refused.
-/

namespace SkillEngine.Formula

/-- The number that some digits write, the first one first. -/
def digitsNumber (digits : List Char) : Nat :=
  digits.foldl (fun number digit => number * 10 + (digit.toNat - '0'.toNat)) 0

/-- The text is a numeral for the nearest float: some digits, or some digits around one dot. -/
inductive IsNumeral : List Char → Float32 → Prop
  /-- Digits alone. -/
  | whole {digits : List Char} (some : digits ≠ [])
      (only : ∀ digit ∈ digits, digit.isDigit = true) :
    IsNumeral digits (Float32.ofScientific (digitsNumber digits) true 0)
  /-- A dot, with digits before or after it. -/
  | pointed {whole fraction : List Char} (some : whole ++ fraction ≠ [])
    (only : ∀ digit ∈ whole ++ fraction, digit.isDigit = true) :
    IsNumeral (whole ++ '.' :: fraction)
      (Float32.ofScientific (digitsNumber (whole ++ fraction)) true fraction.length)

/-- The text is made of some tokens, each as long as its characters allow. -/
inductive Lexes : List Char → List Token → Prop
  /-- No text, no tokens. -/
  | nil : Lexes [] []
  /-- A blank is no token. -/
  | blank {first : Char} {rest : List Char} {tokens : List Token} (isOne : isBlank first = true)
    (lexes : Lexes rest tokens) : Lexes (first :: rest) tokens
  /-- A mark is a token. -/
  | mark {first : Char} {rest : List Char} {token : Token} {tokens : List Token}
    (isOne : mark? first = some token) (lexes : Lexes rest tokens) :
    Lexes (first :: rest) (token :: tokens)
  /-- A number ends where neither a digit nor a dot comes next. -/
  | number {run rest : List Char} {value : Float32} {tokens : List Token}
    (isOne : IsNumeral run value) (ends : ∀ next ∈ rest.head?, inNumber next = false)
    (lexes : Lexes rest tokens) : Lexes (run ++ rest) (.number value :: tokens)
  /-- A name ends where no character of a name comes next. -/
  | name {first : Char} {run rest : List Char} {tokens : List Token}
    (starts : startsName first = true) (goesOn : ∀ next ∈ run, inName next = true)
    (ends : ∀ next ∈ rest.head?, inName next = false) (lexes : Lexes rest tokens) :
    Lexes (first :: run ++ rest) (.name (String.ofList (first :: run)) :: tokens)

/-! ## Numerals -/

/-- A digit is no dot. -/
theorem ne_dot_of_isDigit {digit : Char} (isDigit : digit.isDigit = true) : digit ≠ '.' := by
  rintro rfl
  cases isDigit

/-- Digits alone are read as what they write. -/
theorem readNumber?_whole {digits : List Char} (only : ∀ digit ∈ digits, digit.isDigit = true) :
    readNumber? digits = if digits = [] then none else
      some (Float32.ofScientific (digitsNumber digits) true 0) := by
  have all : digits.filter Char.isDigit = digits := List.filter_eq_self.2 only
  have dotless : '.' ∉ digits := fun member => ne_dot_of_isDigit (only _ member) rfl
  have none : digits.dropWhile (· != '.') = [] :=
    List.dropWhile_eq_nil_iff.2 fun digit member =>
      bne_iff_ne.2 (ne_dot_of_isDigit (only digit member))
  simp [readNumber?, all, none, List.count_eq_zero.2 dotless, digitsNumber]

/-- Digits around a dot are read as what they write. -/
theorem readNumber?_pointed {whole fraction : List Char}
    (only : ∀ digit ∈ whole ++ fraction, digit.isDigit = true) :
    readNumber? (whole ++ '.' :: fraction) = if whole ++ fraction = [] then none else
      some (Float32.ofScientific (digitsNumber (whole ++ fraction)) true fraction.length) := by
  have all : (whole ++ '.' :: fraction).filter Char.isDigit = whole ++ fraction := by
    rw [List.filter_append, List.filter_cons_of_neg (by decide), ← List.filter_append]
    exact List.filter_eq_self.2 only
  have dotless : '.' ∉ whole ++ fraction := fun member => ne_dot_of_isDigit (only _ member) rfl
  have once : (whole ++ '.' :: fraction).count '.' = 1 := by
    have none := List.count_eq_zero.2 dotless
    rw [List.count_append] at none
    simp only [List.count_append, List.count_cons_self]
    omega
  have rest : (whole ++ '.' :: fraction).dropWhile (· != '.') = '.' :: fraction := by
    rw [List.dropWhile_append_of_pos fun digit member =>
      bne_iff_ne.2 (ne_dot_of_isDigit (only digit (List.mem_append_left _ member)))]
    rfl
  simp [readNumber?, all, once, rest, digitsNumber]

/-- A run of digits and dots is read exactly if it is a numeral. -/
theorem readNumber?_eq_some_iff {run : List Char} (only : ∀ next ∈ run, inNumber next = true)
    {value : Float32} : readNumber? run = some value ↔ IsNumeral run value := by
  have isDigit {next : Char} (member : next ∈ run) (apart : next ≠ '.') : next.isDigit = true := by
    have inside := only next member
    unfold inNumber at inside
    rwa [beq_false_of_ne apart, Bool.or_false] at inside
  constructor
  · intro reads
    by_cases dotted : '.' ∈ run
    · obtain ⟨whole, fraction, rfl⟩ := List.append_of_mem dotted
      -- With a second dot nothing is read.
      have once : ¬ (whole ++ '.' :: fraction).count '.' > 1 := fun twice => by
        have none : readNumber? (whole ++ '.' :: fraction) = none :=
          if_pos (Bool.or_eq_true_iff.2 (.inr (decide_eq_true twice)))
        cases none.symm.trans reads
      have dotless : (whole ++ fraction).count '.' = 0 := by
        simp only [List.count_append, List.count_cons_self] at once ⊢
        omega
      have digits : ∀ digit ∈ whole ++ fraction, digit.isDigit = true := by
        intro digit member
        refine isDigit ?_ fun same => List.count_eq_zero.1 dotless (same ▸ member)
        rcases List.mem_append.1 member with before | after
        · exact List.mem_append_left _ before
        · exact List.mem_append_right _ (List.mem_cons_of_mem _ after)
      rw [readNumber?_pointed digits] at reads
      split at reads
      · cases reads
      · next some =>
        cases reads
        exact .pointed some digits
    · have digits : ∀ digit ∈ run, digit.isDigit = true :=
        fun digit member => isDigit member fun same => dotted (same ▸ member)
      rw [readNumber?_whole digits] at reads
      split at reads
      · cases reads
      · next some =>
        cases reads
        exact .whole some digits
  · intro numeral
    cases numeral with
    | whole some digits => rw [readNumber?_whole digits, if_neg some]
    | pointed some digits => rw [readNumber?_pointed digits, if_neg some]

/-- A numeral has a first character, and is made of digits and dots. -/
theorem IsNumeral.inNumber {run : List Char} {value : Float32} (numeral : IsNumeral run value) :
    run ≠ [] ∧ ∀ next ∈ run, inNumber next = true := by
  have digit {next : Char} (isDigit : next.isDigit = true) : Formula.inNumber next = true :=
    Bool.or_eq_true_iff.2 (.inl isDigit)
  cases numeral with
  | whole some digits => exact ⟨some, fun next member => digit (digits next member)⟩
  | pointed some digits =>
    refine ⟨by simp, fun next member => ?_⟩
    rcases List.mem_append.1 member with before | after
    · exact digit (digits next (List.mem_append_left _ before))
    · rcases List.mem_cons.1 after with rfl | later
      · rfl
      · exact digit (digits next (List.mem_append_right _ later))

/-! ## Classes of characters -/

/-- A mark is no blank. -/
theorem isBlank_of_mark? {first : Char} {token : Token} (isOne : mark? first = some token) :
    isBlank first = false := by
  unfold mark? at isOne
  split at isOne <;> first | rfl | cases isOne

/-- What a number is made of is no blank and no mark. -/
theorem plain_of_inNumber {first : Char} (inside : inNumber first = true) :
    isBlank first = false ∧ mark? first = none := by
  constructor
  · refine Bool.eq_false_iff.2 fun blank => ?_
    simp only [isBlank, Bool.or_eq_true, beq_iff_eq] at blank
    rcases blank with ((rfl | rfl) | rfl) | rfl <;> cases inside
  · unfold mark?
    split <;> first | rfl | cases inside

/-- What a name starts with is no blank, no mark, and not what a number is made of. -/
theorem plain_of_startsName {first : Char} (starts : startsName first = true) :
    isBlank first = false ∧ mark? first = none ∧ inNumber first = false := by
  refine ⟨?_, ?_, ?_⟩
  · refine Bool.eq_false_iff.2 fun blank => ?_
    simp only [isBlank, Bool.or_eq_true, beq_iff_eq] at blank
    rcases blank with ((rfl | rfl) | rfl) | rfl <;> cases starts
  · unfold mark?
    split <;> first | rfl | cases starts
  · refine Bool.eq_false_iff.2 fun inside => ?_
    rcases Bool.or_eq_true_iff.1 inside with digit | dot
    · have range := Char.isDigit_iff_toNat.1 digit
      rcases Bool.or_eq_true_iff.1 starts with letter | underscore
      · rcases Bool.or_eq_true_iff.1 letter with upper | lower
        · have above : 65 ≤ first.toNat := (of_decide_eq_true upper).1
          have below : first.toNat ≤ 57 := range.2
          omega
        · have above : 97 ≤ first.toNat := of_decide_eq_true (Bool.and_eq_true_iff.1 lower).1
          have below : first.toNat ≤ 57 := range.2
          omega
      · rw [beq_iff_eq.1 underscore] at digit
        cases digit
    · rw [beq_iff_eq.1 dot] at starts
      cases starts

/-! ## Tokens -/

/-- What is made of an answer comes from that answer. -/
theorem exists_of_map_eq_ok {α β : Type} {make : α → β} {result : Except Error α} {made : β}
    (same : result.map make = .ok made) : ∃ answer, result = .ok answer ∧ make answer = made := by
  cases result with
  | error => cases same
  | ok answer => exact ⟨answer, rfl, Except.ok.inj same⟩

/-- What is left behind a run does not go on with it. -/
theorem head?_dropWhile {inRun : Char → Bool} {text : List Char} :
    ∀ next ∈ (text.dropWhile inRun).head?, inRun next = false := by
  intro next first
  have stops := List.head?_dropWhile_not inRun text
  rw [Option.mem_def.1 first] at stops
  exact stops

/-- A run that ends is taken off whole. -/
theorem span_run {inRun : Char → Bool} {run rest : List Char}
    (goesOn : ∀ next ∈ run, inRun next = true) (ends : ∀ next ∈ rest.head?, inRun next = false) :
    (run ++ rest).takeWhile inRun = run ∧ (run ++ rest).dropWhile inRun = rest := by
  rw [List.takeWhile_append_of_pos goesOn, List.dropWhile_append_of_pos goesOn]
  cases rest with
  | nil => simp
  | cons next rest =>
    have stops := ends next rfl
    simp [stops]

/-- Reading gives exactly the tokens that the text is made of. -/
theorem tokenizeFrom_eq_ok_iff (text : List Char) (position : Nat) (tokens : List Token) :
    tokenizeFrom position text = .ok tokens ↔ Lexes text tokens := by
  constructor
  · intro reads
    fun_induction tokenizeFrom position text generalizing tokens with
    | case1 =>
      cases reads
      exact .nil
    | case2 position first rest blank ih => exact .blank blank (ih tokens reads)
    | case3 position first rest _ token mark ih =>
      obtain ⟨others, onward, rfl⟩ := exists_of_map_eq_ok reads
      exact .mark mark (ih others onward)
    | case4 => cases reads
    | case5 position first rest _ inside run value numeral _ _ ih =>
      obtain ⟨others, onward, rfl⟩ := exists_of_map_eq_ok reads
      have only : ∀ next ∈ run, inNumber next = true := by
        intro next member
        rcases List.mem_cons.1 member with rfl | later
        · exact inside
        · exact List.mem_takeWhile_imp later
      have munched := Lexes.number ((readNumber?_eq_some_iff only).1 numeral) head?_dropWhile
        (ih others onward)
      rwa [List.cons_append, List.takeWhile_append_dropWhile] at munched
    | case6 position first rest _ _ starts run _ _ ih =>
      obtain ⟨others, onward, rfl⟩ := exists_of_map_eq_ok reads
      have goesOn : ∀ next ∈ rest.takeWhile inName, inName next = true :=
        fun _ => List.mem_takeWhile_imp
      have munched := Lexes.name starts goesOn head?_dropWhile (ih others onward)
      rwa [List.cons_append, List.takeWhile_append_dropWhile] at munched
    | case7 => cases reads
  · intro lexes
    induction lexes generalizing position with
    | nil => rw [tokenizeFrom]
    | blank isOne lexes ih => rw [tokenizeFrom, if_pos isOne, ih]
    | mark isOne lexes ih =>
      rw [tokenizeFrom, if_neg (by simp [isBlank_of_mark? isOne])]
      simp [isOne, ih, Except.map]
    | @number run rest value tokens numeral ends lexes ih =>
      obtain ⟨some, only⟩ := numeral.inNumber
      obtain ⟨first, run, rfl⟩ := List.exists_cons_of_ne_nil some
      have inside := only first List.mem_cons_self
      obtain ⟨blank, mark⟩ := plain_of_inNumber inside
      obtain ⟨taken, left⟩ :=
        span_run (fun next member => only next (List.mem_cons_of_mem _ member)) ends
      have reads := (readNumber?_eq_some_iff only).2 numeral
      rw [List.cons_append, tokenizeFrom]
      simp [blank, mark, inside, taken, left, reads, ih, Except.map]
    | @name first run rest tokens starts goesOn ends lexes ih =>
      obtain ⟨blank, mark, number⟩ := plain_of_startsName starts
      obtain ⟨taken, left⟩ := span_run goesOn ends
      rw [List.cons_append, tokenizeFrom]
      simp [blank, mark, number, starts, taken, left, ih, Except.map]

end SkillEngine.Formula
