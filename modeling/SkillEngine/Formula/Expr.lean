import SkillEngine.Number.Scalar

/-!
# Formula trees

The tree of a formula and its value. A variable without a value reads as zero, and a division by a
value near zero leaves the left operand as it is. `Expr.reads` lists the variables that evaluation
looks up, in order.
-/

namespace SkillEngine.Formula

/-- The four binary operations. -/
inductive BinaryOp where
  /-- Sum. -/
  | add
  /-- Difference. -/
  | sub
  /-- Product. -/
  | mul
  /-- Quotient. -/
  | div
  deriving DecidableEq, Repr

/-- The functions of the formula language. -/
inductive Function where
  /-- The smallest argument. -/
  | min
  /-- The largest argument. -/
  | max
  /-- The distance of the first argument from zero. -/
  | abs
  deriving DecidableEq, Repr

/-- The tree of a formula. -/
inductive Expr where
  /-- A constant. -/
  | number (value : Float32)
  /-- A variable. -/
  | variable (name : String)
  /-- A negation. -/
  | neg (inner : Expr)
  /-- A binary operation. -/
  | binary (op : BinaryOp) (left right : Expr)
  /-- A function call. -/
  | call (function : Function) (args : List Expr)

/-- The value of a binary operation. -/
def BinaryOp.apply (op : BinaryOp) (left right : Float32) : Float32 :=
  match op with
  | .add => left + right
  | .sub => left - right
  | .mul => left * right
  | .div => if Number.Scalar.magnitude right < Number.Scalar.nearZero then left else left / right

/-- The value of a function call. -/
def Function.apply (function : Function) (args : List Float32) : Float32 :=
  match function with
  | .min => args.foldl Number.smaller Number.infinity
  | .max => args.foldl Number.larger Number.negativeInfinity
  | .abs => match args with
    | [] => 0
    | first :: _ => first.abs

namespace Expr

mutual

/-- The value of a tree. -/
def eval (vars : String → Option Float32) : Expr → Float32
  | .number value => value
  | .variable name => (vars name).getD 0
  | .neg inner => -(eval vars inner)
  | .binary op left right => op.apply (eval vars left) (eval vars right)
  | .call function args => function.apply (evalEach vars args)

/-- The values of some trees. -/
def evalEach (vars : String → Option Float32) : List Expr → List Float32
  | [] => []
  | first :: rest => eval vars first :: evalEach vars rest

end

mutual

/-- The variables that evaluation looks up, in order. -/
def reads : Expr → List String
  | .number _ => []
  | .variable name => [name]
  | .neg inner => reads inner
  | .binary _ left right => reads left ++ reads right
  | .call .abs args => readsFirst args
  | .call _ args => readsEach args

/-- The variables of the first of some trees. -/
def readsFirst : List Expr → List String
  | [] => []
  | first :: _ => reads first

/-- The variables of some trees. -/
def readsEach : List Expr → List String
  | [] => []
  | first :: rest => reads first ++ readsEach rest

end

end Expr

end SkillEngine.Formula
