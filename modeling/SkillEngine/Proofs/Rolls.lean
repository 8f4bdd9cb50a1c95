import SkillEngine.Proofs.Combinators
import SkillEngine.Proofs.Session
import SkillEngine.Proofs.Snapshots
import SkillEngine.Proofs.Widening

/-!
# Conditions without an answer

A roll limits its chance to the unit interval before it tosses a coin, so no chance of an authored
skill is too small or too large. A NaN passes the limits, and there is no coin for it. So evaluating
a condition has an answer unless it comes to a roll whose chance is a NaN, which the binary form of
a skill lets in like every other bit pattern.
-/

namespace SkillEngine

namespace ConditionDef

mutual

/-- The chances that are rolled anywhere in a condition. -/
def chances : ConditionDef → List Number.Single
  | .chance probability => [probability]
  | .all conditions | .any conditions => chancesOfEach conditions
  | .not condition => chances condition
  | .hasAllTags _ | .hasAnyTags _ | .attributeCompare _ _ _ | .contextFlag _ | .always | .never =>
      []

/-- The chances that are rolled anywhere in some conditions. -/
def chancesOfEach : List ConditionDef → List Number.Single
  | [] => []
  | first :: rest => chances first ++ chancesOfEach rest

end

variable {subject : Option Entity} {context : Context} {condition : ConditionDef}
  {probability : Number.Single} {dice rolled : Dice}

/-- Evaluating a condition comes to the roll of a chance: it is asked for, with whatever dice are
left by what is asked before it. -/
inductive RollsAt (subject : Option Entity) (context : Context) :
    ConditionDef → Dice → Number.Single → Dice → Prop where
  /-- A chance is rolled at once. -/
  | chance (probability : Number.Single) (dice : Dice) :
      RollsAt subject context (.chance probability) dice probability dice
  /-- A negation comes to what its condition comes to. -/
  | not {condition : ConditionDef} {dice rolled : Dice} {probability : Number.Single}
      (rolls : RollsAt subject context condition dice probability rolled) :
      RollsAt subject context (.not condition) dice probability rolled
  /-- A conjunction comes to a condition if all before it hold. -/
  | all {front back : List ConditionDef} {condition : ConditionDef} {dice middle rolled : Dice}
      {probability : Number.Single}
      (hold : evaluateAll subject context front dice = (some true, middle))
      (rolls : RollsAt subject context condition middle probability rolled) :
      RollsAt subject context (.all (front ++ condition :: back)) dice probability rolled
  /-- A disjunction comes to a condition if all before it fail. -/
  | any {front back : List ConditionDef} {condition : ConditionDef} {dice middle rolled : Dice}
      {probability : Number.Single}
      (fail : evaluateAny subject context front dice = (some false, middle))
      (rolls : RollsAt subject context condition middle probability rolled) :
      RollsAt subject context (.any (front ++ condition :: back)) dice probability rolled

/-- The chances of one of some conditions are among those of all. -/
theorem mem_chancesOfEach (front back : List ConditionDef)
    (member : probability ∈ condition.chances) :
    probability ∈ chancesOfEach (front ++ condition :: back) := by
  induction front with
  | nil => exact List.mem_append_left _ member
  | cons first rest ih => exact List.mem_append_right _ ih

/-- What is rolled is a chance of the condition. -/
theorem RollsAt.mem_chances (rolls : RollsAt subject context condition dice probability rolled) :
    probability ∈ condition.chances := by
  induction rolls with
  | chance => exact List.mem_singleton_self _
  | not _ ih => exact ih
  | all _ _ ih | any _ _ ih => exact mem_chancesOfEach _ _ ih

/-- Asking conditions in a row has no answer if one that is reached has none. -/
theorem askUntil_eq_none_iff {decisive : Bool} {conditions : List ConditionDef} :
    (askUntil subject context decisive conditions dice).1 = none ↔
      ∃ front condition back middle, conditions = front ++ condition :: back ∧
        askUntil subject context decisive front dice = (some !decisive, middle) ∧
        (evaluate subject context condition middle).1 = none := by
  induction conditions generalizing dice with
  | nil => simp [askUntil]
  | cons first rest ih =>
    rw [askUntil]
    rcases asked : evaluate subject context first dice with ⟨_ | answer, after⟩
    · exact iff_of_true rfl ⟨[], first, rest, dice, rfl, rfl, by rw [asked]⟩
    · by_cases decides : answer = decisive
      · refine iff_of_false (by simp [decides]) ?_
        rintro ⟨_ | ⟨_, front⟩, condition, back, middle, split, front, none⟩
        · obtain ⟨rfl, rfl⟩ := List.cons.inj split
          cases front
          rw [asked] at none
          cases none
        · obtain ⟨rfl, rfl⟩ := List.cons.inj split
          rw [askUntil, asked] at front
          simp [decides] at front
      · dsimp only
        rw [if_neg decides, ih]
        constructor
        · rintro ⟨front, condition, back, middle, rfl, passed, none⟩
          exact ⟨first :: front, condition, back, middle, rfl, by
            rw [askUntil, asked]
            simpa [decides] using passed, none⟩
        · rintro ⟨_ | ⟨_, front⟩, condition, back, middle, split, passed, none⟩
          · obtain ⟨rfl, rfl⟩ := List.cons.inj split
            cases passed
            rw [asked] at none
            cases none
          · obtain ⟨rfl, rfl⟩ := List.cons.inj split
            rw [askUntil, asked] at passed
            exact ⟨front, condition, back, middle, rfl, by simpa [decides] using passed, none⟩

/-- Evaluating a condition has no answer if it comes to the roll of a chance that is no number. -/
theorem evaluate_eq_none_iff : (evaluate subject context condition dice).1 = none ↔
    ∃ probability rolled, RollsAt subject context condition dice probability rolled ∧
      probability.value.isNaN = true := by
  induction condition using nesting generalizing dice with
  | plain condition single =>
    cases condition with
    | all | any | not => cases single
    | hasAllTags | hasAnyTags | attributeCompare | contextFlag | always | never =>
      refine iff_of_false ?_ ?_
      · simp [evaluate]
      · rintro ⟨_, _, rolls, _⟩
        cases rolls
    | chance probability =>
      have unanswered : (evaluate subject context (.chance probability) dice).1 = none ↔
          dice.roll probability.value = none := by
        rw [evaluate]
        cases dice.roll probability.value <;> simp
      rw [unanswered, Dice.roll_eq_none_iff]
      constructor
      · intro none
        exact ⟨probability, dice, .chance probability dice, none⟩
      · rintro ⟨_, _, rolls, none⟩
        cases rolls
        exact none
  | all conditions each =>
    rw [evaluate, evaluateAll_eq_askUntil, askUntil_eq_none_iff]
    constructor
    · rintro ⟨front, condition, back, middle, rfl, hold, none⟩
      obtain ⟨probability, rolled, rolls, isNaN⟩ :=
        (each condition (List.mem_append_right _ List.mem_cons_self)).1 none
      exact ⟨probability, rolled, .all ((evaluateAll_eq_askUntil _ _).trans hold) rolls, isNaN⟩
    · rintro ⟨probability, rolled, rolls, isNaN⟩
      cases rolls with
      | @all front back condition _ middle _ _ hold rolls =>
        exact ⟨front, condition, back, middle, rfl, (evaluateAll_eq_askUntil _ _).symm.trans hold,
          (each condition (List.mem_append_right _ List.mem_cons_self)).2
            ⟨probability, rolled, rolls, isNaN⟩⟩
  | any conditions each =>
    rw [evaluate, evaluateAny_eq_askUntil, askUntil_eq_none_iff]
    constructor
    · rintro ⟨front, condition, back, middle, rfl, fail, none⟩
      obtain ⟨probability, rolled, rolls, isNaN⟩ :=
        (each condition (List.mem_append_right _ List.mem_cons_self)).1 none
      exact ⟨probability, rolled, .any ((evaluateAny_eq_askUntil _ _).trans fail) rolls, isNaN⟩
    · rintro ⟨probability, rolled, rolls, isNaN⟩
      cases rolls with
      | @any front back condition _ middle _ _ fail rolls =>
        exact ⟨front, condition, back, middle, rfl, (evaluateAny_eq_askUntil _ _).symm.trans fail,
          (each condition (List.mem_append_right _ List.mem_cons_self)).2
            ⟨probability, rolled, rolls, isNaN⟩⟩
  | not condition ih =>
    rw [evaluate_not, Prod.map_fst, Option.map_eq_none_iff, ih]
    constructor
    · rintro ⟨probability, rolled, rolls, isNaN⟩
      exact ⟨probability, rolled, .not rolls, isNaN⟩
    · rintro ⟨probability, rolled, rolls, isNaN⟩
      cases rolls with
      | not rolls => exact ⟨probability, rolled, rolls, isNaN⟩

end ConditionDef

/-- A skill of one node, which asks for luck. -/
def gamble (probability : Number.Single) : SkillGraph where
  id := ⟨3⟩
  name := "Gamble"
  nodes := [{ id := ⟨1⟩, kind := .condition (.chance probability) }]

/-- Whatever the bits of the chance, such a skill is read back from its bytes and accepted. -/
theorem gamble_accepted (probability : Number.Single) :
    SkillGraph.ofBytes (gamble probability).toBytes = .ok (gamble probability) := by
  have short : (gamble probability).toBytes.length = 62 := rfl
  have storable : (gamble probability).Storable := by
    refine ⟨fun node member => ?_, short ▸ by decide⟩
    obtain rfl := List.mem_singleton.1 member
    trivial
  have read := storable.decode []
  rw [List.append_nil] at read
  rw [SkillGraph.ofBytes, read]
  rfl

namespace World

/-- A condition has an answer, in every world and about every subject, unless its evaluation comes
to the roll of a NaN, and so in any case if none of the chances nested in it is one. A roll is the
toss of a coin that falls with the chance limited to the unit interval, and for every chance but a
NaN there is such a coin. A request for a condition and a condition node are cut short just if the
condition has no answer. And no bit pattern of a chance keeps a skill from being accepted in its
binary form. -/
theorem conditions_answer_unless_nan (world : World) (subject : Option EntityId)
    (context : Context) :
    (∀ condition : ConditionDef,
      ((world.ask condition subject context).1 = none ↔
        ∃ probability rolled, ConditionDef.RollsAt (subject.bind world.entity?) context condition
            world.dice probability rolled ∧ probability.value.isNaN = true) ∧
      ((∃ passed, (world.ask condition subject context).1 = some passed) ∨
        ∃ probability ∈ condition.chances, probability.value.isNaN = true)) ∧
    (∀ (dice : Dice) (probability : Number.Single),
      dice.roll probability.value = dice.toss? (Dice.limit (Number.widen probability.value)) ∧
      (dice.toss? (Dice.limit (Number.widen probability.value)) = none ↔
        probability.value.isNaN = true)) ∧
    (∀ condition opening, (world.perform (.condition condition subject opening)).lost = true ↔
      (world.ask condition subject (world.openContext opening)).1 = none) ∧
    (∀ skill node condition, (world.runCondition skill node context condition).lost = true ↔
      (world.ask condition (context.resolve node.target).head? context).1 = none) ∧
    ∀ probability, SkillGraph.ofBytes (gamble probability).toBytes = .ok (gamble probability) := by
  have unanswered (condition : ConditionDef) : (world.ask condition subject context).1 = none ↔
      ∃ probability rolled, ConditionDef.RollsAt (subject.bind world.entity?) context condition
        world.dice probability rolled ∧ probability.value.isNaN = true :=
    ConditionDef.evaluate_eq_none_iff
  refine ⟨fun condition => ⟨unanswered condition, ?_⟩, fun dice probability => ?_,
    fun condition opening => ?_, fun skill node condition => ?_, gamble_accepted⟩
  · cases answer : (world.ask condition subject context).1 with
    | some passed => exact .inl ⟨passed, rfl⟩
    | none =>
      obtain ⟨probability, _, rolls, isNaN⟩ := (unanswered condition).1 answer
      exact .inr ⟨probability, rolls.mem_chances, isNaN⟩
  · rw [← Dice.roll_eq_toss?]
    exact ⟨rfl, Dice.roll_eq_none_iff⟩
  · rw [perform_condition]
    rcases world.ask condition subject _ with ⟨_ | _, _⟩
    · exact iff_of_true rfl rfl
    · exact iff_of_false nofun nofun
  · rw [runCondition_eq]
    rcases world.ask condition _ context with ⟨_ | _, _⟩
    · exact iff_of_true rfl rfl
    · exact iff_of_false nofun nofun

/-- A NaN, as a stored constant. -/
def noChance : Number.Single := ⟨0x7fc00000⟩

/-- The state after a skill that asks for luck was loaded and activated. -/
def gambled (probability : Number.Single) : Cascade :=
  Cascade.afterEach 20 { world := create {} .empty, agenda := [] }
    [.spawn ⟨1⟩, .library (.ok (.insert (gamble probability))),
      .activate ⟨3⟩ ⟨1⟩ { caster := ⟨1⟩ }]

/-- A skill that is accepted in its binary form has a condition without an answer, and activating it
is cut short. -/
theorem gamble_has_no_answer :
    SkillGraph.ofBytes (gamble noChance).toBytes = .ok (gamble noChance) ∧
    ((create {} .empty).ask (.chance noChance) none default).1 = none ∧
    (gambled noChance).answer = .refused .noAnswer := by
  have cut : (match (gambled noChance).answer with
      | .refused .noAnswer => true
      | _ => false) = true := by decide +kernel
  refine ⟨gamble_accepted noChance, by decide +kernel, ?_⟩
  split at cut
  · next answer => exact answer
  · cases cut

end World

end SkillEngine
