import SkillEngine.Ident
import SkillEngine.Number.Scalar
import SkillEngine.Number.Stored
import SkillEngine.Tag.Set

/-!
# Conditions

A condition asks about a subject's tags and attributes, about the context, or for luck, and
conditions combine. `and` and `or` extend a conjunction or disjunction in place.
-/

namespace SkillEngine

/-- A comparison of two numbers. -/
inductive Comparison where
  /-- Smaller. -/
  | less
  /-- Smaller or the same. -/
  | lessOrEqual
  /-- The same but for a tolerance. -/
  | equal
  /-- Different beyond a tolerance. -/
  | notEqual
  /-- Larger or the same. -/
  | greaterOrEqual
  /-- Larger. -/
  | greater
  deriving DecidableEq, Inhabited, Repr

/-- The comparison holds. -/
def Comparison.test (comparison : Comparison) (left right : Float32) : Bool :=
  match comparison with
  | .less => left < right
  | .lessOrEqual => left ≤ right
  | .equal => Number.Scalar.magnitude (left - right) < Number.Scalar.nearZero
  | .notEqual => Number.Scalar.nearZero ≤ Number.Scalar.magnitude (left - right)
  | .greaterOrEqual => right ≤ left
  | .greater => right < left

/-- The static description of a condition. -/
inductive ConditionDef where
  /-- The subject matches every tag. -/
  | hasAllTags (tags : TagSet)
  /-- The subject matches some tag. -/
  | hasAnyTags (tags : TagSet)
  /-- An attribute of the subject compares to a constant. -/
  | attributeCompare (attr : AttributeId) (op : Comparison) (value : Number.Single)
  /-- A roll succeeds. -/
  | chance (probability : Number.Single)
  /-- A flag of the context is set. -/
  | contextFlag (key : String)
  /-- Every condition holds. -/
  | all (conditions : List ConditionDef)
  /-- Some condition holds. -/
  | any (conditions : List ConditionDef)
  /-- The condition fails. -/
  | not (condition : ConditionDef)
  /-- It holds. -/
  | always
  /-- It fails. -/
  | never
  deriving Inhabited

namespace ConditionDef

/-- A conjunction; a conjunction takes one more condition at its end. -/
def and (condition other : ConditionDef) : ConditionDef :=
  match condition with
  | .all conditions => .all (conditions ++ [other])
  | _ => .all [condition, other]

/-- A disjunction; a disjunction takes one more condition at its end. -/
def or (condition other : ConditionDef) : ConditionDef :=
  match condition with
  | .any conditions => .any (conditions ++ [other])
  | _ => .any [condition, other]

/-- The negation. -/
def negate (condition : ConditionDef) : ConditionDef := .not condition

end ConditionDef

end SkillEngine
