import SkillEngine.World.Perform
import SkillEngine.World.Walk

/-!
# Laws of conditions

Conditions are asked left to right and no further than needed, so which of them are asked decides
how far the stream of rolls has moved. The laws of the combinators hold of the answer and of the
dice together: negation turns a conjunction into a disjunction of negations, and the builders ask a
second condition exactly when the first one leaves it open, whether or not they extend a list in
place. A conjunction and a disjunction ask alike, up to the answer that decides, so each law is
proved of both at once.
-/

namespace SkillEngine

/-- The dice later in the same stream. -/
def Dice.Leads (dice later : Dice) : Prop :=
  ∃ draws, later = { dice with drawn := dice.drawn + draws }

namespace Dice

variable {dice middle later : Dice}

/-- Dice that are not rolled stay where they are. -/
theorem Leads.refl (dice : Dice) : dice.Leads dice := ⟨0, rfl⟩

/-- What is later than something later is later. -/
theorem Leads.trans (first : dice.Leads middle) (second : middle.Leads later) :
    dice.Leads later := by
  obtain ⟨draws, rfl⟩ := first
  obtain ⟨more, rfl⟩ := second
  exact ⟨draws + more, by rw [Nat.add_assoc]⟩

/-- A roll moves the dice on in their stream, if at all. -/
theorem leads_roll {chance : Float32} {outcome : Bool}
    (rolled : dice.roll chance = some (outcome, later)) : dice.Leads later := by
  unfold roll at rolled
  split at rolled
  · cases rolled
  · split at rolled
    · cases rolled
      exact .refl dice
    · cases rolled
      exact ⟨1, rfl⟩

end Dice

namespace ConditionDef

/-- The condition is made of others. -/
def isCombined : ConditionDef → Bool
  | .all _ | .any _ | .not _ => true
  | _ => false

/-- What holds of plain conditions, and of those made of others if it holds of these, holds of every
condition. -/
@[elab_as_elim]
theorem nesting {motive : ConditionDef → Prop}
    (plain : ∀ condition, condition.isCombined = false → motive condition)
    (all : ∀ conditions, (∀ condition ∈ conditions, motive condition) → motive (.all conditions))
    (any : ∀ conditions, (∀ condition ∈ conditions, motive condition) → motive (.any conditions))
    (not : ∀ condition, motive condition → motive (.not condition)) :
    ∀ condition, motive condition
  | .all conditions => all conditions fun condition _ => nesting plain all any not condition
  | .any conditions => any conditions fun condition _ => nesting plain all any not condition
  | .not condition => not condition (nesting plain all any not condition)
  | .hasAllTags _ | .hasAnyTags _ | .attributeCompare _ _ _ | .chance _ | .contextFlag _ | .always
  | .never => plain _ rfl

variable {subject : Option Entity} {context : Context}

/-- Asks some conditions up to the first whose answer decides. -/
def askUntil (subject : Option Entity) (context : Context) (decisive : Bool) :
    List ConditionDef → Dice → Option Bool × Dice
  | [], dice => (some !decisive, dice)
  | first :: rest, dice =>
    match evaluate subject context first dice with
    | (some answer, dice) =>
      if answer = decisive then (some answer, dice) else askUntil subject context decisive rest dice
    | (none, dice) => (none, dice)

/-- A conjunction is asked up to the first condition that fails. -/
theorem evaluateAll_eq_askUntil (conditions : List ConditionDef) (dice : Dice) :
    evaluateAll subject context conditions dice =
      askUntil subject context false conditions dice := by
  induction conditions generalizing dice with
  | nil => rfl
  | cons first rest ih =>
    rw [evaluateAll, askUntil]
    rcases evaluate subject context first dice with ⟨_ | _ | _, after⟩
    · rfl
    · rfl
    · exact ih after

/-- A disjunction is asked up to the first condition that holds. -/
theorem evaluateAny_eq_askUntil (conditions : List ConditionDef) (dice : Dice) :
    evaluateAny subject context conditions dice =
      askUntil subject context true conditions dice := by
  induction conditions generalizing dice with
  | nil => rfl
  | cons first rest ih =>
    rw [evaluateAny, askUntil]
    rcases evaluate subject context first dice with ⟨_ | _ | _, after⟩
    · rfl
    · exact ih after
    · rfl

/-- Asking negations up to the opposite answer gives the opposite answer, with the same dice. -/
theorem askUntil_map_not (decisive : Bool) (conditions : List ConditionDef) (dice : Dice) :
    askUntil subject context (!decisive) (conditions.map .not) dice =
      (askUntil subject context decisive conditions dice).map (Option.map (!·)) id := by
  induction conditions generalizing dice with
  | nil => rfl
  | cons first rest ih =>
    rw [List.map_cons, askUntil, askUntil, evaluate_not]
    rcases evaluate subject context first dice with ⟨_ | answer, after⟩
    · rfl
    · by_cases decides : answer = decisive
      · simp [decides]
      · simpa [decides] using ih after

/-- More conditions at the end are asked if none before them decides. -/
theorem askUntil_append (decisive : Bool) (front back : List ConditionDef) (dice : Dice) :
    askUntil subject context decisive (front ++ back) dice =
      match askUntil subject context decisive front dice with
      | (some answer, after) =>
        if answer = decisive then (some answer, after)
        else askUntil subject context decisive back after
      | (none, after) => (none, after) := by
  induction front generalizing dice with
  | nil => cases decisive <;> rfl
  | cons first rest ih =>
    rw [List.cons_append, askUntil, askUntil]
    rcases evaluate subject context first dice with ⟨_ | answer, after⟩
    · rfl
    · by_cases decides : answer = decisive
      · simp [decides]
      · simpa [decides] using ih after

/-- Asking one condition is evaluating it. -/
theorem askUntil_singleton (decisive : Bool) (condition : ConditionDef) (dice : Dice) :
    askUntil subject context decisive [condition] dice =
      evaluate subject context condition dice := by
  rw [askUntil]
  rcases evaluate subject context condition dice with ⟨_ | answer, after⟩
  · rfl
  · cases answer <;> cases decisive <;> rfl

/-- Asking some conditions moves the dice on in their stream if each of them does. -/
theorem leads_askUntil (decisive : Bool) {conditions : List ConditionDef}
    (each : ∀ condition ∈ conditions, ∀ dice : Dice,
      dice.Leads (evaluate subject context condition dice).2) (dice : Dice) :
    dice.Leads (askUntil subject context decisive conditions dice).2 := by
  induction conditions generalizing dice with
  | nil => exact .refl dice
  | cons first rest ih =>
    have leads := each first List.mem_cons_self dice
    rw [askUntil]
    rcases asked : evaluate subject context first dice with ⟨_ | answer, after⟩
    · rwa [asked] at leads
    · rw [asked] at leads
      dsimp only
      split
      · exact leads
      · exact leads.trans (ih (fun condition member =>
          each condition (List.mem_cons_of_mem _ member)) after)

/-- Evaluating a condition moves the dice on in their stream, if at all. -/
theorem leads_evaluate (condition : ConditionDef) (dice : Dice) :
    dice.Leads (evaluate subject context condition dice).2 := by
  induction condition using nesting generalizing dice with
  | plain condition single =>
    cases condition with
    | all | any | not => cases single
    | hasAllTags | hasAnyTags | attributeCompare | contextFlag | always | never =>
      simp only [evaluate]
      exact .refl dice
    | chance probability =>
      rw [evaluate]
      split
      · next rolled => exact Dice.leads_roll rolled
      · exact .refl dice
  | all conditions each =>
    rw [evaluate, evaluateAll_eq_askUntil]
    exact leads_askUntil false each dice
  | any conditions each =>
    rw [evaluate, evaluateAny_eq_askUntil]
    exact leads_askUntil true each dice
  | not condition ih =>
    rw [evaluate_not]
    exact ih dice

/-- The negation of a conjunction is the disjunction of the negations. -/
theorem evaluate_not_all (conditions : List ConditionDef) :
    evaluate subject context (.not (.all conditions)) =
      evaluate subject context (.any (conditions.map .not)) := by
  funext dice
  rw [evaluate_not, evaluate, evaluate, evaluateAll_eq_askUntil, evaluateAny_eq_askUntil]
  exact (askUntil_map_not false conditions dice).symm

/-- The negation of a disjunction is the conjunction of the negations. -/
theorem evaluate_not_any (conditions : List ConditionDef) :
    evaluate subject context (.not (.any conditions)) =
      evaluate subject context (.all (conditions.map .not)) := by
  funext dice
  rw [evaluate_not, evaluate, evaluate, evaluateAll_eq_askUntil, evaluateAny_eq_askUntil]
  exact (askUntil_map_not true conditions dice).symm

/-- What is added with `and` is asked if the condition before it holds. -/
theorem evaluate_and (first second : ConditionDef) (dice : Dice) :
    evaluate subject context (first.and second) dice =
      match evaluate subject context first dice with
      | (some true, after) => evaluate subject context second after
      | undecided => undecided := by
  unfold and
  split
  · next conditions =>
    rw [evaluate, evaluate, evaluateAll_eq_askUntil, evaluateAll_eq_askUntil, askUntil_append]
    rcases askUntil subject context false conditions dice with ⟨_ | _ | _, after⟩
    · rfl
    · rfl
    · exact askUntil_singleton false second after
  · rw [evaluate, evaluateAll]
    rcases evaluate subject context first dice with ⟨_ | _ | _, after⟩
    · rfl
    · rfl
    · exact (evaluateAll_eq_askUntil _ _).trans (askUntil_singleton false second after)

/-- What is added with `or` is asked if the condition before it fails. -/
theorem evaluate_or (first second : ConditionDef) (dice : Dice) :
    evaluate subject context (first.or second) dice =
      match evaluate subject context first dice with
      | (some false, after) => evaluate subject context second after
      | undecided => undecided := by
  unfold or
  split
  · next conditions =>
    rw [evaluate, evaluate, evaluateAny_eq_askUntil, evaluateAny_eq_askUntil, askUntil_append]
    rcases askUntil subject context true conditions dice with ⟨_ | _ | _, after⟩
    · rfl
    · exact askUntil_singleton true second after
    · rfl
  · rw [evaluate, evaluateAny]
    rcases evaluate subject context first dice with ⟨_ | _ | _, after⟩
    · rfl
    · exact (evaluateAny_eq_askUntil _ _).trans (askUntil_singleton true second after)
    · rfl

end ConditionDef

namespace World

/-- A condition asked in a world about a subject, which may be missing or not be registered, in a
context: its answer, if there is one, and the world after it. -/
def ask (world : World) (condition : ConditionDef) (subject : Option EntityId) (context : Context) :
    Option Bool × World :=
  (condition.evaluate (subject.bind world.entity?) context world.dice).map id
    fun dice => { world with dice }

/-- A request for a condition asks it and answers. -/
theorem perform_condition (world : World) (condition : ConditionDef) (subject : Option EntityId)
    (opening : Opening) : world.perform (.condition condition subject opening) =
      match world.ask condition subject (world.openContext opening) with
      | (some passed, after) => .answered after (.flag passed)
      | (none, after) => .noAnswer after := by
  simp only [perform, ask]
  rcases condition.evaluate _ _ _ with ⟨_ | _, _⟩ <;> rfl

/-- A condition node asks its condition about its first target and fires the port of the answer. -/
theorem runCondition_eq (world : World) (skill : SkillId) (node : Node) (context : Context)
    (condition : ConditionDef) : world.runCondition skill node context condition =
      match world.ask condition (context.resolve node.target).head? context with
      | (some passed, after) =>
        let port := if passed then NodePort.holds else NodePort.fails
        { world := after, frames := [.fire ⟨skill, node.id, port.name, context, none⟩] }
      | (none, after) => .noAnswer after := by
  simp only [runCondition, ask]
  rcases condition.evaluate _ _ _ with ⟨_ | _, _⟩ <;> rfl

/-- Conditions combine lawfully, dice included. Whatever rolls are nested in them: the negation of a
conjunction is the disjunction of the negations and the other way round; what is added with `and` is
asked if what is before it holds, and what is added with `or` if that fails; a condition changes
nothing in the world but how far the stream of rolls has moved; and all this is said of what
requests and nodes do. -/
theorem conditions_combine_lawfully (world : World) (subject : Option EntityId)
    (context : Context) :
    (∀ conditions,
      world.ask (.not (.all conditions)) subject context =
          world.ask (.any (conditions.map .not)) subject context ∧
        world.ask (.not (.any conditions)) subject context =
          world.ask (.all (conditions.map .not)) subject context) ∧
    (∀ first second : ConditionDef,
      world.ask (first.and second) subject context =
          (match world.ask first subject context with
          | (some true, after) => after.ask second subject context
          | undecided => undecided) ∧
        world.ask (first.or second) subject context =
          match world.ask first subject context with
          | (some false, after) => after.ask second subject context
          | undecided => undecided) ∧
    (∀ condition : ConditionDef, ∃ draws,
      (world.ask condition subject context).2 =
        { world with dice := { world.dice with drawn := world.dice.drawn + draws } }) ∧
    (∀ condition opening, (world.perform (.condition condition subject opening)).world =
      (world.ask condition subject (world.openContext opening)).2) ∧
    ∀ skill node condition, (world.runCondition skill node context condition).world =
      (world.ask condition (context.resolve node.target).head? context).2 := by
  refine ⟨fun conditions => ⟨?_, ?_⟩, fun first second => ⟨?_, ?_⟩, fun condition => ?_,
    fun condition opening => ?_, fun skill node condition => ?_⟩
  · simp only [ask, ConditionDef.evaluate_not_all]
  · simp only [ask, ConditionDef.evaluate_not_any]
  · simp only [ask, ConditionDef.evaluate_and]
    rcases first.evaluate _ _ _ with ⟨_ | _ | _, after⟩ <;> rfl
  · simp only [ask, ConditionDef.evaluate_or]
    rcases first.evaluate _ _ _ with ⟨_ | _ | _, after⟩ <;> rfl
  · obtain ⟨draws, later⟩ := condition.leads_evaluate world.dice
    exact ⟨draws, congrArg (fun dice => { world with dice }) later⟩
  · rw [perform_condition]
    rcases world.ask condition subject _ with ⟨_ | _, _⟩ <;> rfl
  · rw [runCondition_eq]
    rcases world.ask condition _ context with ⟨_ | _, _⟩ <;> rfl

-- Conjunction does not commute: a condition that fails in front saves the roll behind it.
example :
    ((create {} .empty).ask (.all [.never, .chance .zero]) none default).2.dice.drawn = 0 ∧
      ((create {} .empty).ask (.all [.chance .zero, .never]) none default).2.dice.drawn = 1 := by
  decide +kernel

end World

end SkillEngine
