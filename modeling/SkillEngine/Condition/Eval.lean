import SkillEngine.Condition.Basic
import SkillEngine.Dice
import SkillEngine.World.Entity

/-!
# Evaluating conditions

A condition is evaluated for a subject, which may be missing, and a context, left to right and no
further than needed. Only the dice change. A roll without an answer leaves the whole condition
without one, the draws before it made.
-/

namespace SkillEngine.ConditionDef

mutual

/-- The answer to a condition, if it has one, and the dice after it. -/
def evaluate (subject : Option Entity) (context : Context) :
    ConditionDef → Dice → Option Bool × Dice
  | .hasAllTags tags, dice => (some (subject.any (·.tags.hasAll tags)), dice)
  | .hasAnyTags tags, dice => (some (subject.any (·.tags.hasAny tags)), dice)
  | .attributeCompare attr op value, dice =>
    (some (((subject.bind (·.attributes.get? attr)).map fun attr =>
      op.test attr.currentValue value.value).getD false), dice)
  | .chance probability, dice =>
    match dice.roll probability.value with
    | some (outcome, dice) => (some outcome, dice)
    | none => (none, dice)
  | .contextFlag key, dice => (some (context.flag key), dice)
  | .all conditions, dice => evaluateAll subject context conditions dice
  | .any conditions, dice => evaluateAny subject context conditions dice
  | .not condition, dice =>
    let (answer, dice) := evaluate subject context condition dice
    (answer.map (!·), dice)
  | .always, dice => (some true, dice)
  | .never, dice => (some false, dice)

/-- Whether all of some conditions hold, asked up to the first that fails. -/
def evaluateAll (subject : Option Entity) (context : Context) :
    List ConditionDef → Dice → Option Bool × Dice
  | [], dice => (some true, dice)
  | first :: rest, dice =>
    match evaluate subject context first dice with
    | (some true, dice) => evaluateAll subject context rest dice
    | (answer, dice) => (answer, dice)

/-- Whether any of some conditions holds, asked up to the first that does. -/
def evaluateAny (subject : Option Entity) (context : Context) :
    List ConditionDef → Dice → Option Bool × Dice
  | [], dice => (some false, dice)
  | first :: rest, dice =>
    match evaluate subject context first dice with
    | (some false, dice) => evaluateAny subject context rest dice
    | (answer, dice) => (answer, dice)

end

/-- A negation is answered the other way, with the same dice. -/
theorem evaluate_not (subject : Option Entity) (context : Context) (condition : ConditionDef)
    (dice : Dice) : evaluate subject context (.not condition) dice =
      (evaluate subject context condition dice).map (Option.map (!·)) id := by
  rw [evaluate]
  rfl

end SkillEngine.ConditionDef
