import Mathlib.Tactic.Choose
import SkillEngine.Formula.Parser
import SkillEngine.Proofs.Lexing

/-!
# The grammar of formulas

`Derives` is the grammar: which tokens are a sum, a product, a signed factor or an atom, with how
many levels of nesting. `Means` gives the trees: an operation binds its operands less tightly than
they bind theirs, and of two operations that bind alike the left one comes first. Both say the same
of which tokens are a formula, and the readers find a tree exactly where there is one: what they
take off the front is a phrase (`level_sound`), and a phrase is taken off whole where nothing goes
on with it (`Means.reads`). So every formula has one tree.
-/

namespace SkillEngine.Formula

/-- The phrases of the grammar. -/
inductive Phrase where
  /-- Products joined by `+` and `-`. -/
  | sum
  /-- Signed factors joined by `*` and `/`. -/
  | product
  /-- An atom, or a minus sign and a signed factor. -/
  | signed
  /-- A number, a variable, a call or a group. -/
  | atom

/-- The tokens are a phrase with at most so many levels of nesting, its own one included. -/
inductive Derives : Phrase → Nat → List Token → Prop
  /-- `sum := product (('+' | '-') product)*` -/
  | sum {levels : Nat} {first : List Token} {rest : List (Token × List Token)}
    (head : Derives .product levels first)
    (signs : ∀ part ∈ rest, part.1 = .plus ∨ part.1 = .minus)
    (others : ∀ part ∈ rest, Derives .product levels part.2) :
    Derives .sum levels (first ++ rest.flatMap fun part => part.1 :: part.2)
  /-- `product := signed (('*' | '/') signed)*` -/
  | product {levels : Nat} {first : List Token} {rest : List (Token × List Token)}
    (head : Derives .signed levels first)
    (signs : ∀ part ∈ rest, part.1 = .star ∨ part.1 = .slash)
    (others : ∀ part ∈ rest, Derives .signed levels part.2) :
    Derives .product levels (first ++ rest.flatMap fun part => part.1 :: part.2)
  /-- `signed := '-' signed`, one level deeper. -/
  | minus {levels : Nat} {operand : List Token} (inner : Derives .signed levels operand) :
    Derives .signed (levels + 1) (.minus :: operand)
  /-- `signed := atom` -/
  | unsigned {levels : Nat} {tokens : List Token} (atom : Derives .atom levels tokens) :
    Derives .signed levels tokens
  /-- `atom := number` -/
  | number {levels : Nat} {value : Float32} : Derives .atom (levels + 1) [.number value]
  /-- `atom := name` -/
  | name {levels : Nat} {text : String} : Derives .atom (levels + 1) [.name text]
  /-- `atom := name '(' sum (',' sum)* ')'`, each argument one level deeper. -/
  | call {levels : Nat} {text : String} {first : List Token} {rest : List (List Token)}
    (known : text = "min" ∨ text = "max" ∨ text = "abs") (head : Derives .sum levels first)
    (others : ∀ part ∈ rest, Derives .sum levels part) :
    Derives .atom (levels + 1)
      (.name text :: .opening :: (first ++ rest.flatMap (.comma :: ·)) ++ [.closing])
  /-- `atom := '(' sum ')'`, one level deeper. -/
  | group {levels : Nat} {tokens : List Token} (inner : Derives .sum levels tokens) :
    Derives .atom (levels + 1) (.opening :: tokens ++ [.closing])

/-- The mark of an operation. -/
def BinaryOp.token : BinaryOp → Token
  | .add => .plus
  | .sub => .minus
  | .mul => .star
  | .div => .slash

/-- How tightly an operation binds its operands. -/
def BinaryOp.strength : BinaryOp → Nat
  | .add | .sub => 1
  | .mul | .div => 2

/-- How tightly a minus sign binds its operand: more tightly than any operation. -/
def signStrength : Nat := 3

/-- What stands alone holds together more tightly than a minus sign binds. -/
def atomStrength : Nat := 4

/-- A part of a formula: its tokens, its tree, and how tightly its outermost operation binds. -/
structure Part where
  /-- The tokens. -/
  tokens : List Token
  /-- The tree. -/
  tree : Expr
  /-- How tightly the outermost operation binds. -/
  strength : Nat

/-- The part of a formula means its tree, with at most so many levels of nesting, its own one
included. -/
inductive Means : Nat → Part → Prop
  /-- A number. -/
  | number {levels : Nat} {value : Float32} :
    Means (levels + 1) ⟨[.number value], .number value, atomStrength⟩
  /-- A variable. -/
  | name {levels : Nat} {text : String} :
    Means (levels + 1) ⟨[.name text], .variable text, atomStrength⟩
  /-- A call. -/
  | call {levels : Nat} {text : String} {function : Function} {first : Part} {rest : List Part}
    (known : function? text = some function) (head : Means levels first)
    (others : ∀ part ∈ rest, Means levels part) :
    Means (levels + 1)
      ⟨.name text :: .opening :: (first.tokens ++ rest.flatMap (.comma :: ·.tokens)) ++ [.closing],
        .call function (first.tree :: rest.map (·.tree)), atomStrength⟩
  /-- A group means what is in it. -/
  | group {levels : Nat} {part : Part} (inner : Means levels part) :
    Means (levels + 1) ⟨.opening :: part.tokens ++ [.closing], part.tree, atomStrength⟩
  /-- The operand of a minus sign holds together at least as tightly as the sign binds. -/
  | neg {levels : Nat} {part : Part} (inner : Means levels part)
    (tight : signStrength ≤ part.strength) :
    Means (levels + 1) ⟨.minus :: part.tokens, .neg part.tree, signStrength⟩
  /-- The left operand of an operation holds together at least as tightly as the operation binds,
  and the right one more tightly. -/
  | binary {levels : Nat} {left right : Part} (op : BinaryOp) (first : Means levels left)
    (second : Means levels right) (tight : op.strength ≤ left.strength)
    (tighter : op.strength < right.strength) :
    Means levels
      ⟨left.tokens ++ op.token :: right.tokens, .binary op left.tree right.tree, op.strength⟩

/-! ## What is read is a phrase -/

/-- What the reader takes off the front is a part that holds together at least so tightly. -/
def Sound (levels strength : Nat) (reader : Reader) : Prop :=
  ∀ {tokens tree rest}, reader tokens = .ok (tree, rest) →
    ∃ used found, tokens = used ++ rest ∧ strength ≤ found ∧ Means levels ⟨used, tree, found⟩

/-- The operations that the reader joins by are those of a strength. -/
def Joins (op? : Token → Option BinaryOp) (strength : Nat) : Prop :=
  ∀ token op, op? token = some op ↔ op.token = token ∧ op.strength = strength

/-- Sums are joined by the operations that bind least tightly. -/
theorem joins_sum : Joins sumOp? 1 := by
  intro token op
  cases token <;> cases op <;> simp [sumOp?, BinaryOp.token, BinaryOp.strength]

/-- Products are joined by the others. -/
theorem joins_product : Joins productOp? 2 := by
  intro token op
  cases token <;> cases op <;> simp [productOp?, BinaryOp.token, BinaryOp.strength]

section Sound

variable {levels strength : Nat} {op? : Token → Option BinaryOp} {operand : Reader}

/-- Operands that are joined to a part make up a part with it. -/
theorem joinFrom_sound (joins : Joins op? strength) (sound : Sound levels (strength + 1) operand)
    {bound : Nat} {left : Part} {tokens rest : List Token} {tree : Expr}
    (means : Means levels left) (tight : strength ≤ left.strength)
    (reads : joinFrom op? operand bound left.tree tokens = .ok (tree, rest)) :
    ∃ used found, tokens = used ++ rest ∧ strength ≤ found ∧
      Means levels ⟨left.tokens ++ used, tree, found⟩ := by
  have alone {left : Part} (means : Means levels left) :
      Means levels ⟨left.tokens ++ [], left.tree, left.strength⟩ := by rwa [List.append_nil]
  induction bound generalizing left tokens with
  | zero =>
    cases reads
    exact ⟨[], _, rfl, tight, alone means⟩
  | succ bound ih =>
    cases tokens with
    | nil =>
      cases reads
      exact ⟨[], _, rfl, tight, alone means⟩
    | cons token tokens =>
      unfold joinFrom at reads
      cases joined : op? token with
      | none =>
        simp only [joined] at reads
        cases reads
        exact ⟨[], _, rfl, tight, alone means⟩
      | some op =>
        obtain ⟨rfl, same⟩ := (joins token op).1 joined
        cases next : operand tokens with
        | error => simp [joined, next] at reads
        | ok answer =>
          obtain ⟨right, behind⟩ := answer
          simp only [joined, next] at reads
          obtain ⟨taken, found, rfl, tighter, second⟩ := sound next
          have both := Means.binary op means second (same ▸ tight) (same ▸ tighter)
          obtain ⟨used, last, rfl, enough, whole⟩ := ih both same.ge reads
          refine ⟨op.token :: taken ++ used, last, ?_, enough, ?_⟩
          · simp only [List.cons_append, List.append_assoc]
          · rwa [List.append_assoc] at whole

/-- Operands that are joined from the left make up a part. -/
theorem joined_sound (joins : Joins op? strength) (sound : Sound levels (strength + 1) operand) :
    Sound levels strength (joined op? operand) := by
  intro tokens tree rest reads
  unfold joined at reads
  cases first : operand tokens with
  | error => simp [first] at reads
  | ok answer =>
    obtain ⟨left, behind⟩ := answer
    simp only [first] at reads
    obtain ⟨taken, found, rfl, tighter, means⟩ := sound first
    obtain ⟨used, last, rfl, enough, whole⟩ :=
      joinFrom_sound joins sound means (Nat.le_of_succ_le tighter) reads
    exact ⟨taken ++ used, last, (List.append_assoc ..).symm, enough, whole⟩

/-- A parenthesis that is taken off was there. -/
theorem close_sound {tokens rest : List Token} (closes : close tokens = .ok rest) :
    tokens = .closing :: rest := by
  unfold close at closes
  split at closes <;> cases closes
  rfl

/-- Arguments that are taken off are parts, each after a comma. -/
theorem argumentsFrom_sound {argument : Reader} {least : Nat} (sound : Sound levels least argument)
    {bound : Nat} {tokens rest : List Token} {trees : List Expr}
    (reads : argumentsFrom argument bound tokens = .ok (trees, rest)) :
    ∃ parts : List Part, tokens = parts.flatMap (.comma :: ·.tokens) ++ rest ∧
      trees = parts.map (·.tree) ∧ ∀ part ∈ parts, Means levels part := by
  induction bound generalizing tokens trees with
  | zero =>
    unfold argumentsFrom at reads
    cases reads
    exact ⟨[], rfl, rfl, fun _ member => by cases member⟩
  | succ bound ih =>
    unfold argumentsFrom at reads
    split at reads
    · next more tokens same =>
      cases same
      cases first : argument tokens with
      | error => simp [first] at reads
      | ok answer =>
        obtain ⟨tree, behind⟩ := answer
        simp only [first] at reads
        obtain ⟨⟨others, behind⟩, onward, same⟩ := exists_of_map_eq_ok reads
        cases same
        obtain ⟨used, found, rfl, _, means⟩ := sound first
        obtain ⟨parts, rfl, rfl, meaning⟩ := ih onward
        refine ⟨⟨used, tree, found⟩ :: parts, ?_, rfl, fun part member => ?_⟩
        · simp only [List.flatMap_cons, List.cons_append, List.append_assoc]
        · rcases List.mem_cons.1 member with rfl | later
          · exact means
          · exact meaning part later
    · cases reads
      exact ⟨[], rfl, rfl, fun _ member => by cases member⟩

/-- So are the arguments of a call. -/
theorem arguments_sound {argument : Reader} {least : Nat} (sound : Sound levels least argument)
    {tokens rest : List Token} {trees : List Expr}
    (reads : arguments argument tokens = .ok (trees, rest)) :
    ∃ (first : Part) (parts : List Part),
      tokens = first.tokens ++ parts.flatMap (.comma :: ·.tokens) ++ rest ∧
      trees = first.tree :: parts.map (·.tree) ∧ Means levels first ∧
      ∀ part ∈ parts, Means levels part := by
  unfold arguments at reads
  cases first : argument tokens with
  | error => simp [first] at reads
  | ok answer =>
    obtain ⟨tree, behind⟩ := answer
    simp only [first] at reads
    obtain ⟨⟨others, behind⟩, onward, same⟩ := exists_of_map_eq_ok reads
    cases same
    obtain ⟨used, found, rfl, _, means⟩ := sound first
    obtain ⟨parts, rfl, rfl, meaning⟩ := argumentsFrom_sound sound onward
    exact ⟨⟨used, tree, found⟩, parts, (List.append_assoc ..).symm, rfl, means, meaning⟩

/-- An atom that is taken off stands alone. -/
theorem atom_sound {inner : Level} {least : Nat} (sound : Sound levels least inner.sum) :
    Sound (levels + 1) atomStrength (atom inner) := by
  intro tokens tree rest reads
  unfold atom at reads
  split at reads
  · cases reads
  · cases reads
    exact ⟨[_], atomStrength, rfl, Nat.le_refl _, .number⟩
  · next text behind =>
    cases known : function? text with
    | none => simp [known] at reads
    | some function =>
      simp only [known] at reads
      cases args : arguments inner.sum behind with
      | error => simp [args] at reads
      | ok answer =>
        obtain ⟨trees, behind⟩ := answer
        simp only [args] at reads
        obtain ⟨behind, closes, same⟩ := exists_of_map_eq_ok reads
        cases same
        obtain ⟨first, parts, rfl, rfl, means, meaning⟩ := arguments_sound sound args
        obtain rfl := close_sound closes
        exact ⟨_, atomStrength, by simp, Nat.le_refl _, .call known means meaning⟩
  · cases reads
    exact ⟨[_], atomStrength, rfl, Nat.le_refl _, .name⟩
  · next behind =>
    cases first : inner.sum behind with
    | error => simp [first] at reads
    | ok answer =>
      obtain ⟨tree, behind⟩ := answer
      simp only [first] at reads
      obtain ⟨behind, closes, same⟩ := exists_of_map_eq_ok reads
      cases same
      obtain ⟨used, found, rfl, _, means⟩ := sound first
      obtain rfl := close_sound closes
      refine ⟨.opening :: used ++ [.closing], atomStrength, ?_, Nat.le_refl _, .group means⟩
      simp
  · cases reads

/-- A signed factor that is taken off holds together as tightly as a minus sign binds. -/
theorem signed_sound {inner : Level} {least : Nat} (sound : Sound levels least inner.sum)
    (soundSigned : Sound levels signStrength inner.signed) :
    Sound (levels + 1) signStrength (signed inner) := by
  intro tokens tree rest reads
  unfold signed at reads
  split at reads
  · next behind =>
    obtain ⟨⟨operand, behind⟩, onward, same⟩ := exists_of_map_eq_ok reads
    cases same
    obtain ⟨used, found, rfl, tight, means⟩ := soundSigned onward
    exact ⟨.minus :: used, signStrength, rfl, Nat.le_refl _, .neg means tight⟩
  · obtain ⟨used, found, same, tight, means⟩ := atom_sound sound reads
    exact ⟨used, found, same, Nat.le_of_succ_le tight, means⟩

end Sound

/-- At every level, a sum and a signed factor that are taken off the front are phrases. -/
theorem level_sound (levels : Nat) : Sound levels 1 (level levels).sum ∧
    Sound levels signStrength (level levels).signed := by
  induction levels with
  | zero =>
    constructor <;> intro tokens tree rest reads <;> cases reads
  | succ levels ih =>
    have signed : Sound (levels + 1) signStrength (signed (level levels)) :=
      signed_sound ih.1 ih.2
    exact ⟨joined_sound joins_sum (joined_sound joins_product signed), signed⟩

/-! ## A phrase is read whole -/

/-- No operation that binds so tightly goes on with what was read, and no call does. -/
def Ends (strength : Nat) (rest : List Token) : Prop :=
  ∀ next ∈ rest.head?, next ≠ .opening ∧ ∀ op : BinaryOp, op.token = next → op.strength < strength

/-- An end stays one for operations that bind more tightly. -/
theorem Ends.tighter {strength : Nat} {rest : List Token} (ends : Ends strength rest) :
    Ends (strength + 1) rest := fun next first =>
  ⟨(ends next first).1, fun op same => Nat.lt_succ_of_lt ((ends next first).2 op same)⟩

/-- Nothing goes on after the last token. -/
theorem ends_nil {strength : Nat} : Ends strength [] := fun _ first => by cases first

/-- Nothing goes on over a closing parenthesis. -/
theorem ends_closing {strength : Nat} {rest : List Token} : Ends strength (.closing :: rest) := by
  rintro _ ⟨⟩
  exact ⟨nofun, fun op same => by cases op <;> cases same⟩

/-- Nothing goes on over a comma. -/
theorem ends_comma {strength : Nat} {rest : List Token} : Ends strength (.comma :: rest) := by
  rintro _ ⟨⟩
  exact ⟨nofun, fun op same => by cases op <;> cases same⟩

/-- An operation ends what binds more tightly. -/
theorem ends_token {strength : Nat} {op : BinaryOp} {rest : List Token}
    (looser : op.strength < strength) : Ends strength (op.token :: rest) := by
  rintro _ ⟨⟩
  refine ⟨by cases op <;> nofun, fun other same => ?_⟩
  rwa [show other = op by cases other <;> cases op <;> first | rfl | cases same]

/-- The reader takes the part off the front where nothing goes on with it. -/
def ReadsAt (reader : Reader) (strength : Nat) (part : Part) : Prop :=
  ∀ rest, Ends strength rest → reader (part.tokens ++ rest) = .ok (part.tree, rest)

/-- The reader of joined operands comes to the end of the part with its tree, and may go on. -/
def Continues (op? : Token → Option BinaryOp) (operand : Reader) (strength : Nat) (part : Part) :
    Prop :=
  ∀ rest, Ends (strength + 1) rest → ∃ bound, rest.length ≤ bound ∧
    joined op? operand (part.tokens ++ rest) = joinFrom op? operand bound part.tree rest

section Join

variable {op? : Token → Option BinaryOp} {operand : Reader} {strength : Nat}

/-- Where nothing goes on, the reader stops. -/
theorem Continues.readsAt (joins : Joins op? strength) {part : Part}
    (continues : Continues op? operand strength part) :
    ReadsAt (joined op? operand) strength part := by
  intro rest ends
  obtain ⟨bound, -, same⟩ := continues rest ends.tighter
  rw [same]
  cases bound with
  | zero => rfl
  | succ bound =>
    cases rest with
    | nil => rfl
    | cons next rest =>
      have stops : op? next = none := Option.eq_none_iff_forall_ne_some.2 fun op some => by
        obtain ⟨token, equal⟩ := (joins next op).1 some
        exact ((ends next rfl).2 op token).ne equal
      simp only [joinFrom, stops]

/-- The first operand is a start. -/
theorem ReadsAt.continues {part : Part} (reads : ReadsAt operand (strength + 1) part) :
    Continues op? operand strength part := fun rest ends =>
  ⟨(part.tokens ++ rest).length, by simp, by rw [joined, reads rest ends]⟩

/-- A further operand is joined to what stands on its left. -/
theorem Continues.binary (joins : Joins op? strength) {op : BinaryOp} (own : op.strength = strength)
    {left right : Part} (first : Continues op? operand strength left)
    (second : ReadsAt operand (strength + 1) right) :
    Continues op? operand strength
      ⟨left.tokens ++ op.token :: right.tokens, .binary op left.tree right.tree, op.strength⟩ := by
  intro rest ends
  have some : op? op.token = some op := (joins _ op).2 ⟨rfl, own⟩
  obtain ⟨bound, enough, same⟩ :=
    first (op.token :: (right.tokens ++ rest)) (ends_token (own ▸ Nat.lt_succ_self _))
  simp only [List.length_cons, List.length_append] at enough
  obtain ⟨bound, rfl⟩ := Nat.exists_eq_succ_of_ne_zero (Nat.ne_zero_of_lt enough)
  refine ⟨bound, by omega, ?_⟩
  rw [List.append_assoc, List.cons_append, same]
  simp only [joinFrom, some, second rest ends]

end Join

/-- The part is read whole by every reader that reads what binds no more tightly. -/
structure Reads (inner : Level) (part : Part) : Prop where
  /-- Every part is a sum. -/
  sum : Continues sumOp? (product inner) 1 part
  /-- What binds as tightly as `*` is a product. -/
  product : 2 ≤ part.strength → Continues productOp? (signed inner) 2 part
  /-- What binds as tightly as a minus sign is a signed factor. -/
  signed : signStrength ≤ part.strength → ReadsAt (signed inner) signStrength part
  /-- What stands alone is an atom. -/
  atom : atomStrength ≤ part.strength → ReadsAt (atom inner) atomStrength part

namespace Reads

variable {inner : Level} {part : Part}

/-- A sum is nothing else. -/
theorem of_sum (strength : part.strength = 1)
    (continues : Continues sumOp? (Formula.product inner) 1 part) : Reads inner part where
  sum := continues
  product tight := absurd (strength ▸ tight) (by decide)
  signed tight := absurd (strength ▸ tight) (by decide)
  atom tight := absurd (strength ▸ tight) (by decide)

/-- A product is a sum. -/
theorem of_product (strength : part.strength = 2)
    (continues : Continues productOp? (Formula.signed inner) 2 part) : Reads inner part where
  sum := (continues.readsAt joins_product).continues
  product _ := continues
  signed tight := absurd (strength ▸ tight) (by decide)
  atom tight := absurd (strength ▸ tight) (by decide)

/-- A signed factor is a product. -/
theorem of_signed (strength : part.strength = signStrength)
    (reads : ReadsAt (Formula.signed inner) signStrength part) : Reads inner part where
  sum := (reads.continues.readsAt joins_product).continues
  product _ := reads.continues
  signed _ := reads
  atom tight := absurd (strength ▸ tight) (by decide)

/-- An atom is a signed factor. -/
theorem of_atom (reads : ReadsAt (Formula.atom inner) atomStrength part) : Reads inner part :=
  have signed : ReadsAt (Formula.signed inner) signStrength part := fun rest ends => by
    have same := reads rest ends.tighter
    unfold Formula.signed
    split
    · next minus => cases minus ▸ same
    · exact same
  { sum := (signed.continues.readsAt joins_product).continues
    product := fun _ => signed.continues
    signed := fun _ => signed
    atom := fun _ => reads }

end Reads

/-- A comma or the closing parenthesis comes after each argument. -/
theorem ends_arguments {strength : Nat} {parts : List Part} {rest : List Token} :
    Ends strength (parts.flatMap (.comma :: ·.tokens) ++ .closing :: rest) := by
  cases parts with
  | nil => exact ends_closing
  | cons => exact ends_comma

/-- Arguments that are each read whole are read up to the parenthesis. -/
theorem argumentsFrom_reads {argument : Reader} {parts : List Part}
    (reads : ∀ part ∈ parts, ReadsAt argument 1 part) (bound : Nat) (enough : parts.length ≤ bound)
    (rest : List Token) :
    argumentsFrom argument bound (parts.flatMap (.comma :: ·.tokens) ++ .closing :: rest) =
      .ok (parts.map (·.tree), .closing :: rest) := by
  induction parts generalizing bound with
  | nil => cases bound <;> rfl
  | cons part parts ih =>
    obtain ⟨bound, rfl⟩ := Nat.exists_eq_succ_of_ne_zero (Nat.ne_zero_of_lt enough)
    have others := ih (fun part member => reads part (List.mem_cons_of_mem _ member)) bound
      (Nat.le_of_succ_le_succ enough)
    have ends : Ends 1 (parts.flatMap (.comma :: ·.tokens) ++ .closing :: rest) := ends_arguments
    have first := reads part List.mem_cons_self _ ends
    simp only [List.flatMap_cons, List.cons_append, List.append_assoc, argumentsFrom, first, others]
    rfl

/-- So are the arguments of a call. -/
theorem arguments_reads {argument : Reader} {first : Part} {parts : List Part}
    (reads : ReadsAt argument 1 first) (others : ∀ part ∈ parts, ReadsAt argument 1 part)
    (rest : List Token) :
    arguments argument
        (first.tokens ++ (parts.flatMap (.comma :: ·.tokens) ++ .closing :: rest)) =
      .ok (first.tree :: parts.map (·.tree), .closing :: rest) := by
  have commas : parts.length ≤ (parts.flatMap (.comma :: ·.tokens)).length := by
    induction parts with
    | nil => exact Nat.zero_le _
    | cons part parts ih =>
      have fewer := ih fun part member => others part (List.mem_cons_of_mem _ member)
      simp only [List.flatMap_cons, List.length_append, List.length_cons]
      omega
  have onward := argumentsFrom_reads others
    (first.tokens ++ (parts.flatMap (.comma :: ·.tokens) ++ .closing :: rest)).length
    (by simp only [List.length_append]; omega) rest
  simp only [arguments, reads _ ends_arguments, onward]
  rfl

/-- Every part of a formula binds at least as tightly as a sum. -/
theorem Means.one_le {levels : Nat} {part : Part} (means : Means levels part) :
    1 ≤ part.strength := by
  cases means with
  | binary op => cases op <;> exact Nat.succ_pos _
  | _ => exact Nat.succ_pos _

/-- A part of a formula is read whole, one level of nesting being its own. -/
theorem Means.reads {levels : Nat} {part : Part} (means : Means levels part) :
    ∃ left, levels = left + 1 ∧ Reads (level left) part := by
  induction means with
  | number => exact ⟨_, rfl, .of_atom fun rest _ => rfl⟩
  | name =>
    refine ⟨_, rfl, .of_atom fun rest ends => ?_⟩
    cases rest with
    | nil => rfl
    | cons next rest =>
      have plain := (ends next rfl).1
      cases next <;> first | rfl | exact absurd rfl plain
  | @call levels text function first parts known _ _ head others =>
    obtain ⟨left, rfl, head⟩ := head
    refine ⟨_, rfl, .of_atom fun rest _ => ?_⟩
    have sums : ∀ part ∈ parts, ReadsAt (level (left + 1)).sum 1 part := fun part member => by
      obtain ⟨_, same, reads⟩ := others part member
      cases same
      exact reads.sum.readsAt joins_sum
    have args : arguments (level (left + 1)).sum (first.tokens ++
        (parts.flatMap (.comma :: ·.tokens) ++ .closing :: rest)) =
        .ok (first.tree :: parts.map (·.tree), .closing :: rest) :=
      arguments_reads (head.sum.readsAt joins_sum) sums rest
    simp only [List.cons_append, List.append_assoc, List.nil_append, atom, known, args]
    rfl
  | @group levels part _ inner =>
    obtain ⟨left, rfl, inner⟩ := inner
    refine ⟨_, rfl, .of_atom fun rest _ => ?_⟩
    have sum : (level (left + 1)).sum (part.tokens ++ .closing :: rest) =
        .ok (part.tree, .closing :: rest) := inner.sum.readsAt joins_sum _ ends_closing
    simp only [List.cons_append, List.append_assoc, List.nil_append, atom, sum]
    rfl
  | @neg levels part _ tight inner =>
    obtain ⟨left, rfl, inner⟩ := inner
    refine ⟨_, rfl, .of_signed rfl fun rest ends => ?_⟩
    have operand : (level (left + 1)).signed (part.tokens ++ rest) = .ok (part.tree, rest) :=
      inner.signed tight rest ends
    simp only [List.cons_append, signed, operand]
    rfl
  | @binary levels left right op _ _ tight tighter first second =>
    obtain ⟨levels, rfl, first⟩ := first
    obtain ⟨_, same, second⟩ := second
    cases same
    refine ⟨levels, rfl, ?_⟩
    have own : op.strength = 1 ∨ op.strength = 2 := by cases op <;> decide
    rcases own with own | own
    · have right := (second.product (own.symm.trans_lt tighter)).readsAt joins_product
      exact .of_sum own (first.sum.binary joins_sum own right)
    · have right := second.signed (own.symm.trans_lt tighter)
      exact .of_product own ((first.product (own ▸ tight)).binary joins_product own right)

/-- What fits some levels of nesting fits more of them. -/
theorem Means.mono {levels more : Nat} {part : Part} (means : Means levels part)
    (fewer : levels ≤ more) : Means more part := by
  induction means generalizing more with
  | binary op _ _ tight tighter first second =>
    exact .binary op (first fewer) (second fewer) tight tighter
  | number =>
    obtain ⟨more, rfl⟩ := Nat.exists_eq_succ_of_ne_zero (Nat.ne_zero_of_lt fewer)
    exact .number
  | name =>
    obtain ⟨more, rfl⟩ := Nat.exists_eq_succ_of_ne_zero (Nat.ne_zero_of_lt fewer)
    exact .name
  | call known _ _ head others =>
    obtain ⟨more, rfl⟩ := Nat.exists_eq_succ_of_ne_zero (Nat.ne_zero_of_lt fewer)
    have inside := Nat.le_of_succ_le_succ fewer
    exact .call known (head inside) fun part member => others part member inside
  | group _ inner =>
    obtain ⟨more, rfl⟩ := Nat.exists_eq_succ_of_ne_zero (Nat.ne_zero_of_lt fewer)
    exact .group (inner (Nat.le_of_succ_le_succ fewer))
  | neg _ tight inner =>
    obtain ⟨more, rfl⟩ := Nat.exists_eq_succ_of_ne_zero (Nat.ne_zero_of_lt fewer)
    exact .neg (inner (Nat.le_of_succ_le_succ fewer)) tight

/-- The same tokens have the same tree, however much nesting is allowed. -/
theorem Means.tree_unique {levels others strength otherStrength : Nat} {tokens : List Token}
    {tree other : Expr} (means : Means levels ⟨tokens, tree, strength⟩)
    (meansOther : Means others ⟨tokens, other, otherStrength⟩) : other = tree := by
  obtain ⟨left, same, reads⟩ := (means.mono (Nat.le_max_left levels others)).reads
  obtain ⟨_, again, readsOther⟩ := (meansOther.mono (Nat.le_max_right levels others)).reads
  obtain rfl : left = _ := Nat.succ.inj (same.symm.trans again)
  have read := reads.sum.readsAt joins_sum [] ends_nil
  have readOther := readsOther.sum.readsAt joins_sum [] ends_nil
  cases read.symm.trans readOther
  rfl

/-! ## The grammar and the trees agree -/

/-- How tightly a phrase holds together at least. -/
def Phrase.strength : Phrase → Nat
  | .sum => 1
  | .product => 2
  | .signed => signStrength
  | .atom => atomStrength

/-- The names of functions are the three of the grammar. -/
theorem function?_isSome {text : String} :
    (∃ function, function? text = some function) ↔ text = "min" ∨ text = "max" ∨ text = "abs" := by
  unfold function?
  constructor
  · rintro ⟨function, known⟩
    split at known
    · exact .inl rfl
    · exact .inr (.inl rfl)
    · exact .inr (.inr rfl)
    · cases known
  · rintro (rfl | rfl | rfl) <;> exact ⟨_, rfl⟩

/-- A sum goes on with a product. -/
theorem Derives.sum_snoc {levels : Nat} {left right : List Token} {sign : Token}
    (isSign : sign = .plus ∨ sign = .minus) (first : Derives .sum levels left)
    (second : Derives .product levels right) : Derives .sum levels (left ++ sign :: right) := by
  cases first with
  | @sum _ head rest first signs others =>
    have longer := @Derives.sum _ _ (rest ++ [(sign, right)]) first
      (by simpa [or_imp, forall_and] using ⟨fun a b => signs (a, b), isSign⟩)
      (by simpa [or_imp, forall_and] using ⟨fun a b => others (a, b), second⟩)
    simpa using longer

/-- A product goes on with a signed factor. -/
theorem Derives.product_snoc {levels : Nat} {left right : List Token} {sign : Token}
    (isSign : sign = .star ∨ sign = .slash) (first : Derives .product levels left)
    (second : Derives .signed levels right) :
    Derives .product levels (left ++ sign :: right) := by
  cases first with
  | @product _ head rest first signs others =>
    have longer := @Derives.product _ _ (rest ++ [(sign, right)]) first
      (by simpa [or_imp, forall_and] using ⟨fun a b => signs (a, b), isSign⟩)
      (by simpa [or_imp, forall_and] using ⟨fun a b => others (a, b), second⟩)
    simpa using longer

/-- A phrase is also one that may hold together less tightly. -/
theorem Derives.looser {levels : Nat} {tokens : List Token} {phrase looser : Phrase}
    (derives : Derives phrase levels tokens) (loose : looser.strength ≤ phrase.strength) :
    Derives looser levels tokens := by
  have sum (derives : Derives .product levels tokens) : Derives .sum levels tokens := by
    simpa using @Derives.sum _ _ [] derives nofun nofun
  have product (derives : Derives .signed levels tokens) : Derives .product levels tokens := by
    simpa using @Derives.product _ _ [] derives nofun nofun
  cases phrase <;> cases looser
  case atom.signed => exact .unsigned derives
  case atom.product => exact product (.unsigned derives)
  case atom.sum => exact sum (product (.unsigned derives))
  case signed.product => exact product derives
  case signed.sum => exact sum (product derives)
  case product.sum => exact sum derives
  all_goals first | exact derives | exact absurd loose (by decide)

/-- What has a tree is a phrase, of every kind that holds together no more tightly. -/
theorem Means.derives {levels : Nat} {part : Part} (means : Means levels part) {phrase : Phrase}
    (loose : phrase.strength ≤ part.strength) : Derives phrase levels part.tokens := by
  induction means generalizing phrase with
  | number => exact Derives.number.looser loose
  | name => exact Derives.name.looser loose
  | @call levels text function first parts known means meaning head others =>
    have args : ∀ tokens ∈ parts.map (·.tokens), Derives .sum levels tokens := by
      intro tokens found
      obtain ⟨part, member, rfl⟩ := List.mem_map.1 found
      exact others part member (meaning part member).one_le
    have call := Derives.call (function?_isSome.1 ⟨_, known⟩) (head means.one_le) args
    rw [List.flatMap_map] at call
    exact call.looser loose
  | group means inner => exact (Derives.group (inner means.one_le)).looser loose
  | neg _ tight inner => exact (Derives.minus (inner tight)).looser loose
  | binary op first second tight tighter left right =>
    have sums : Derives .sum _ _ := left first.one_le
    cases op with
    | add => exact (sums.sum_snoc (.inl rfl) (right tighter)).looser loose
    | sub => exact (sums.sum_snoc (.inr rfl) (right tighter)).looser loose
    | mul =>
      have products : Derives .product _ _ := left tight
      exact (products.product_snoc (.inl rfl) (right tighter)).looser loose
    | div =>
      have products : Derives .product _ _ := left tight
      exact (products.product_snoc (.inr rfl) (right tighter)).looser loose

/-- Signed parts that are joined from the left have a tree. -/
theorem Means.join {levels strength : Nat} {left : Part} (means : Means levels left)
    (tight : strength ≤ left.strength) {rest : List (Token × List Token)}
    (others : ∀ part ∈ rest, (∃ op : BinaryOp, op.token = part.1 ∧ op.strength = strength) ∧
      ∃ tree found, strength < found ∧ Means levels ⟨part.2, tree, found⟩) :
    ∃ tree found, strength ≤ found ∧
      Means levels ⟨left.tokens ++ rest.flatMap fun part => part.1 :: part.2, tree, found⟩ := by
  induction rest generalizing left with
  | nil => exact ⟨left.tree, left.strength, tight, by simpa using means⟩
  | cons part rest ih =>
    obtain ⟨⟨op, token, rfl⟩, tree, found, tighter, second⟩ := others part List.mem_cons_self
    obtain ⟨whole, last, enough, meaning⟩ := ih (.binary op means second tight tighter) Nat.le.refl
      fun part member => others part (List.mem_cons_of_mem _ member)
    refine ⟨whole, last, enough, ?_⟩
    simpa [token] using meaning

/-- A phrase has a tree that holds together as tightly as the phrase. -/
theorem Derives.means {levels : Nat} {tokens : List Token} {phrase : Phrase}
    (derives : Derives phrase levels tokens) :
    ∃ tree found, phrase.strength ≤ found ∧ Means levels ⟨tokens, tree, found⟩ := by
  induction derives with
  | sum head signs others first rest =>
    obtain ⟨tree, found, tight, means⟩ := first
    refine means.join (Nat.le_of_succ_le tight) fun part member => ⟨?_, rest part member⟩
    rcases signs part member with same | same
    · exact ⟨.add, same.symm, rfl⟩
    · exact ⟨.sub, same.symm, rfl⟩
  | product head signs others first rest =>
    obtain ⟨tree, found, tight, means⟩ := first
    refine means.join (Nat.le_of_succ_le tight) fun part member => ⟨?_, rest part member⟩
    rcases signs part member with same | same
    · exact ⟨.mul, same.symm, rfl⟩
    · exact ⟨.div, same.symm, rfl⟩
  | minus _ inner =>
    obtain ⟨tree, found, tight, means⟩ := inner
    exact ⟨_, _, Nat.le_refl _, .neg means tight⟩
  | unsigned _ atom =>
    obtain ⟨tree, found, tight, means⟩ := atom
    exact ⟨tree, found, Nat.le_of_succ_le tight, means⟩
  | number => exact ⟨_, _, Nat.le_refl _, .number⟩
  | name => exact ⟨_, _, Nat.le_refl _, .name⟩
  | @call levels text first rest known _ _ head others =>
    obtain ⟨function, known⟩ := function?_isSome.2 known
    obtain ⟨tree, found, -, means⟩ := head
    have : Nonempty Expr := ⟨tree⟩
    choose! trees founds _ meaning using others
    let part (tokens : List Token) : Part := ⟨tokens, trees tokens, founds tokens⟩
    have call := Means.call known means (List.forall_mem_map.2 meaning : ∀ one ∈ rest.map part, _)
    rw [List.flatMap_map] at call
    exact ⟨_, _, Nat.le_refl _, call⟩
  | group _ inner =>
    obtain ⟨tree, found, -, means⟩ := inner
    exact ⟨_, _, Nat.le_refl _, .group means⟩

/-! ## Formulas -/

/-- Some tokens are read exactly as the tree that they mean. -/
theorem parseTokens_eq_ok_iff {tokens : List Token} {tree : Expr} :
    parseTokens tokens = .ok tree ↔ ∃ strength, Means maxNesting ⟨tokens, tree, strength⟩ := by
  constructor
  · intro reads
    unfold parseTokens at reads
    split at reads
    · cases reads
    · next found sum =>
      cases reads
      obtain ⟨used, strength, rfl, -, means⟩ := (level_sound maxNesting).1 sum
      exact ⟨strength, by rwa [List.append_nil]⟩
    · cases reads
  · rintro ⟨strength, means⟩
    obtain ⟨left, same, reads⟩ := means.reads
    have sum : (level maxNesting).sum (tokens ++ []) = .ok (tree, []) := by
      rw [same]
      exact reads.sum.readsAt joins_sum [] ends_nil
    rw [List.append_nil] at sum
    simp only [parseTokens, sum]

/-- A text is read exactly as the tree that its tokens mean, if they are not too many. -/
theorem parse_eq_ok_iff {source : String} {tree : Expr} :
    parse source = .ok tree ↔ ∃ tokens, Lexes source.toList tokens ∧ tokens.length ≤ maxTokens ∧
      ∃ strength, Means maxNesting ⟨tokens, tree, strength⟩ := by
  constructor
  · intro reads
    unfold parse at reads
    cases made : tokenize source with
    | error => simp only [made] at reads; cases reads
    | ok tokens =>
      rw [made] at reads
      replace reads : (if tokens.length > maxTokens then .error .tooLong
        else parseTokens tokens) = .ok tree := reads
      split at reads
      · cases reads
      · next few =>
        exact ⟨tokens, (tokenizeFrom_eq_ok_iff _ 0 _).1 made, Nat.le_of_not_gt few,
          parseTokens_eq_ok_iff.1 reads⟩
  · rintro ⟨tokens, lexes, few, means⟩
    have made : tokenize source = .ok tokens := (tokenizeFrom_eq_ok_iff _ 0 _).2 lexes
    unfold parse
    rw [made]
    exact (if_neg (Nat.not_lt_of_le few)).trans (parseTokens_eq_ok_iff.2 means)

/-- Reading accepts exactly the texts whose tokens, by maximal munch, are not too many and make up a
sum of the grammar with no more nesting than allowed. What it then gives is a tree that these tokens
have, and they have no other, however much nesting is allowed. -/
theorem parse_accepts_grammar (source : String) :
    ((∃ tree, parse source = .ok tree) ↔
      ∃ tokens, Lexes source.toList tokens ∧ tokens.length ≤ maxTokens ∧
        Derives .sum maxNesting tokens) ∧
    ∀ tree, parse source = .ok tree → ∀ tokens, Lexes source.toList tokens →
      (∃ strength, Means maxNesting ⟨tokens, tree, strength⟩) ∧
      ∀ levels other strength, Means levels ⟨tokens, other, strength⟩ → other = tree := by
  refine ⟨⟨?_, ?_⟩, ?_⟩
  · rintro ⟨tree, reads⟩
    obtain ⟨tokens, lexes, few, strength, means⟩ := parse_eq_ok_iff.1 reads
    exact ⟨tokens, lexes, few, means.derives means.one_le⟩
  · rintro ⟨tokens, lexes, few, derives⟩
    obtain ⟨tree, strength, -, means⟩ := derives.means
    exact ⟨tree, parse_eq_ok_iff.2 ⟨tokens, lexes, few, strength, means⟩⟩
  · intro tree reads tokens lexes
    obtain ⟨found, same, -, strength, means⟩ := parse_eq_ok_iff.1 reads
    have made := (tokenizeFrom_eq_ok_iff _ 0 _).2 lexes
    cases made.symm.trans ((tokenizeFrom_eq_ok_iff _ 0 _).2 same)
    exact ⟨⟨strength, means⟩, fun levels other otherStrength meansOther =>
      means.tree_unique meansOther⟩

/-- A minus sign binds more tightly than a product, a product more tightly than a difference, and of
two differences the left one comes first. -/
theorem parse_difference : parse "a-b*-c-d" = .ok
    (.binary .sub
      (.binary .sub (.variable "a") (.binary .mul (.variable "b") (.neg (.variable "c"))))
      (.variable "d")) := by
  have letter {first : Char} {rest : List Char} {tokens : List Token}
      (starts : startsName first = true) (ends : rest.head?.all (!inName ·) = true)
      (lexes : Lexes rest tokens) :
      Lexes (first :: rest) (.name (String.ofList [first]) :: tokens) :=
    @Lexes.name _ [] _ _ starts nofun (by simpa [Option.all_eq_true] using ends) lexes
  have lexes : Lexes "a-b*-c-d".toList
      [.name "a", .minus, .name "b", .star, .minus, .name "c", .minus, .name "d"] :=
    letter rfl rfl <| .mark rfl <| letter rfl rfl <| .mark rfl <| .mark rfl <| letter rfl rfl <|
      .mark rfl <| letter rfl rfl .nil
  have sign : Means maxNesting ⟨[.minus, .name "c"], .neg (.variable "c"), 3⟩ :=
    .neg (@Means.name 62 "c") (by decide)
  have name (text : String) : Means maxNesting ⟨[.name text], .variable text, 4⟩ := .name
  have product := Means.binary .mul (name "b") sign (by decide) (by decide)
  have difference := Means.binary .sub (name "a") product (by decide) (by decide)
  have means := Means.binary .sub difference (name "d") (by decide) (by decide)
  obtain ⟨⟨-, accepts⟩, unique⟩ := parse_accepts_grammar "a-b*-c-d"
  obtain ⟨tree, reads⟩ := accepts ⟨_, lexes, by decide, means.derives means.one_le⟩
  rw [reads, (unique tree reads _ lexes).2 _ _ _ means]

end SkillEngine.Formula
