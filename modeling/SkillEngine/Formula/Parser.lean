import SkillEngine.Formula.Expr
import SkillEngine.Formula.Token

/-!
# Reading formulas

```text
sum     := product (('+' | '-') product)*
product := signed (('*' | '/') signed)*
signed  := '-' signed | atom
atom    := number | name | name '(' sum (',' sum)* ')' | '(' sum ')'
```

The whole formula is one level of nesting; each parenthesised group, each argument and each minus
sign opens one more on its branch. A `Level` holds the two readers that an inner level offers, so
the readers of one level are written over those of the next and `level` is plain recursion on the
number of levels left.
-/

namespace SkillEngine.Formula

/-- Reads a tree off the front of some tokens. -/
abbrev Reader := List Token → Except Error (Expr × List Token)

/-- What the next level of nesting reads. -/
structure Level where
  /-- A sum. -/
  sum : Reader
  /-- The operand of a minus sign. -/
  signed : Reader

/-- The operation that a token joins products by. -/
def sumOp? : Token → Option BinaryOp
  | .plus => some .add
  | .minus => some .sub
  | _ => none

/-- The operation that a token joins factors by. -/
def productOp? : Token → Option BinaryOp
  | .star => some .mul
  | .slash => some .div
  | _ => none

/-- The function that a name calls. -/
def function? : String → Option Function
  | "min" => some .min
  | "max" => some .max
  | "abs" => some .abs
  | _ => none

/-- Joins further operands to a tree from the left, at most `bound` of them. -/
def joinFrom (op? : Token → Option BinaryOp) (operand : Reader) : Nat → Expr → Reader
  | 0, left, tokens => .ok (left, tokens)
  | _ + 1, left, [] => .ok (left, [])
  | bound + 1, left, token :: rest =>
    match op? token with
    | none => .ok (left, token :: rest)
    | some op =>
      match operand rest with
      | .error error => .error error
      | .ok (right, rest) => joinFrom op? operand bound (.binary op left right) rest

/-- Operands joined from the left; every join takes a token, so their number bounds the joins. -/
def joined (op? : Token → Option BinaryOp) (operand : Reader) : Reader := fun tokens =>
  match operand tokens with
  | .error error => .error error
  | .ok (left, rest) => joinFrom op? operand tokens.length left rest

/-- Takes a closing parenthesis off the front. -/
def close : List Token → Except Error (List Token)
  | [] => .error .unexpectedEnd
  | .closing :: rest => .ok rest
  | token :: _ => .error (.unexpectedToken token)

/-- Further arguments, at most `bound` of them. -/
def argumentsFrom (argument : Reader) :
    Nat → List Token → Except Error (List Expr × List Token)
  | bound + 1, .comma :: rest =>
    match argument rest with
    | .error error => .error error
    | .ok (first, rest) => (argumentsFrom argument bound rest).map fun (others, rest) =>
      (first :: others, rest)
  | _, tokens => .ok ([], tokens)

/-- The arguments of a call. -/
def arguments (argument : Reader) : List Token → Except Error (List Expr × List Token) :=
  fun tokens =>
    match argument tokens with
    | .error error => .error error
    | .ok (first, rest) => (argumentsFrom argument tokens.length rest).map fun (others, rest) =>
      (first :: others, rest)

/-- A number, a variable, a call or a group. -/
def atom (inner : Level) : Reader
  | [] => .error .unexpectedEnd
  | .number value :: rest => .ok (.number value, rest)
  | .name text :: .opening :: rest =>
    match function? text with
    | none => .error (.unknownFunction text)
    | some function =>
      match arguments inner.sum rest with
      | .error error => .error error
      | .ok (args, rest) => (close rest).map fun rest => (.call function args, rest)
  | .name text :: rest => .ok (.variable text, rest)
  | .opening :: rest =>
    match inner.sum rest with
    | .error error => .error error
    | .ok (tree, rest) => (close rest).map fun rest => (tree, rest)
  | token :: _ => .error (.unexpectedToken token)

/-- An atom, or a minus sign and its operand. -/
def signed (inner : Level) : Reader
  | .minus :: rest => (inner.signed rest).map fun (tree, rest) => (.neg tree, rest)
  | tokens => atom inner tokens

/-- Signed factors joined by `*` and `/`. -/
def product (inner : Level) : Reader := joined productOp? (signed inner)

/-- Products joined by `+` and `-`. -/
def sum (inner : Level) : Reader := joined sumOp? (product inner)

/-- The readers of a level that has the given number of levels left, itself included. -/
def level : Nat → Level
  | 0 => ⟨fun _ => .error .tooDeep, fun _ => .error .tooDeep⟩
  | left + 1 => ⟨sum (level left), signed (level left)⟩

/-- The tree of some tokens: a sum that takes them all. -/
def parseTokens (tokens : List Token) : Except Error Expr :=
  match (level maxNesting).sum tokens with
  | .error error => .error error
  | .ok (tree, []) => .ok tree
  | .ok (_, token :: _) => .error (.unexpectedToken token)

/-- The tree of a formula. -/
def parse (source : String) : Except Error Expr := do
  let tokens ← tokenize source
  if tokens.length > maxTokens then .error .tooLong else parseTokens tokens

/-- The value of a formula; a malformed one is worth zero. -/
def evaluate (source : String) (vars : String → Option Float32) : Float32 :=
  match parse source with
  | .ok tree => tree.eval vars
  | .error _ => 0

end SkillEngine.Formula
