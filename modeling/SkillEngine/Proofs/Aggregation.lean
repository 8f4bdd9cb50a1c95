import Mathlib.Algebra.BigOperators.Group.List.Basic
import Mathlib.Tactic.Linarith
import Mathlib.Tactic.Ring
import SkillEngine.Attribute.Aggregation
import SkillEngine.Number.Exact

/-!
# Aggregation over exact numbers

Over exact numbers the sums that make up a current value have a closed form. It looks at each kind
of modifier apart: what the additive ones add under a mode is a sum, an extreme value or both, the
multiplying and dividing ones make one quotient of products, and the last override is the one that
counts. So the value depends on the modifiers up to their order, that of the overrides apart. A
divisor near zero is never divided by: the value stays the same whatever such quotients were.
-/

namespace SkillEngine

namespace ActiveModifier

/-- What an additive modifier adds: its magnitude for every stack, and for one at least. -/
def addition (active : ActiveModifier ℚ) : ℚ :=
  active.magnitude * (max active.stackCount 1 : ℕ)

/-- What a multiplying modifier multiplies by: one, and what its magnitude is above one for every
stack, and for one at least. -/
def scaling (active : ActiveModifier ℚ) : ℚ :=
  1 + (active.magnitude - 1) * (max active.stackCount 1 : ℕ)

/-- A dividing modifier divides: neither its magnitude nor its factor is near zero. -/
def Divides (active : ActiveModifier ℚ) : Prop :=
  Number.Scalar.nearZero ≤ |active.magnitude| ∧ Number.Scalar.nearZero ≤ |active.scaling|

instance (active : ActiveModifier ℚ) : Decidable active.Divides :=
  inferInstanceAs (Decidable (_ ∧ _))

end ActiveModifier

namespace Aggregation

/-- What the additive modifiers of a list add, one by one. -/
def additions (modifiers : List (ActiveModifier ℚ)) : List ℚ :=
  (modifiers.filter (·.op = .add)).map (·.addition)

/-- What the multiplying modifiers of a list multiply by. -/
def scalings (modifiers : List (ActiveModifier ℚ)) : List ℚ :=
  (modifiers.filter (·.op = .multiply)).map (·.scaling)

/-- What the dividing modifiers of a list divide by. -/
def divisors (modifiers : List (ActiveModifier ℚ)) : List ℚ :=
  (modifiers.filter fun active => active.op = .divide ∧ active.Divides).map (·.scaling)

/-- The overriding modifiers of a list. -/
def overrides {S : Type} (modifiers : List (ActiveModifier S)) : List (ActiveModifier S) :=
  modifiers.filter (·.op = .override)

/-- What some additions come to under a mode. -/
def total (mode : AggregatorMode) (additions : List ℚ) : ℚ :=
  match mode with
  | .default => additions.sum
  | .mostNegative => additions.min?.getD 0
  | .mostPositive => additions.max?.getD 0
  | .mostNegativeWithAllPositive =>
    (additions.filter (0 ≤ ·)).sum + (additions.filter (· < 0)).min?.getD 0

/-- The sums that modifiers make up under a mode. -/
def closedForm (modifiers : List (ActiveModifier ℚ)) (mode : AggregatorMode) : Aggregation ℚ where
  additive := total mode (additions modifiers)
  multiplicative := (scalings modifiers).prod / (divisors modifiers).prod
  override := (overrides modifiers).getLast?.map (·.magnitude)

/-! ## The first best candidate -/

section Best

variable {candidate : ActiveModifier ℚ → Bool} {better : ℚ → ℚ → Bool}

/-- Values are chosen by a strict order in which only equal values are alike. -/
structure Chooses (better : ℚ → ℚ → Bool) : Prop where
  /-- No value is better than itself. -/
  irrefl : ∀ value, better value value = false
  /-- Better than a better one is better. -/
  trans : ∀ {first second third}, better first second = true → better second third = true →
    better first third = true
  /-- What beats a value beats all that do not beat it. -/
  beats : ∀ {first second third}, better first third = true → better second third = false →
    better first second = true

/-- The lesser value is a choice. -/
theorem chooses_lesser : Chooses fun new old => decide (new < old) where
  irrefl value := decide_eq_false (lt_irrefl value)
  trans less lesser := decide_eq_true ((of_decide_eq_true less).trans (of_decide_eq_true lesser))
  beats less more :=
    decide_eq_true ((of_decide_eq_true less).trans_le (not_lt.1 (of_decide_eq_false more)))

/-- The greater value is a choice. -/
theorem chooses_greater : Chooses fun new old => decide (old < new) where
  irrefl value := decide_eq_false (lt_irrefl value)
  trans more greater := decide_eq_true ((of_decide_eq_true greater).trans (of_decide_eq_true more))
  beats more less :=
    decide_eq_true ((not_lt.1 (of_decide_eq_false less)).trans_lt (of_decide_eq_true more))

/-- The first best candidate of a list, with what stands before and after it. -/
structure FirstBest (candidate : ActiveModifier ℚ → Bool) (better : ℚ → ℚ → Bool)
    (before : List (ActiveModifier ℚ)) (active : ActiveModifier ℚ)
    (after : List (ActiveModifier ℚ)) : Prop where
  /-- It is a candidate. -/
  chosen : candidate active = true
  /-- It is better than the candidates before it. -/
  before : ∀ other ∈ before, candidate other = true →
    better active.contribution other.contribution = true
  /-- No candidate after it is better. -/
  after : ∀ other ∈ after, candidate other = true →
    better other.contribution active.contribution = false

/-- The next modifier is the best so far if it is a candidate that beats the best one before it. -/
theorem bestFrom_cons (active : ActiveModifier ℚ) (rest : List (ActiveModifier ℚ)) (position : Nat)
    (best : Option (Nat × ℚ)) :
    bestFrom candidate better position best (active :: rest) =
      bestFrom candidate better (position + 1)
        (if candidate active && best.all fun entry => better active.contribution entry.2 then
          some (position, active.contribution) else best) rest := by
  cases best <;> rfl

/-- Counting on from an earlier best one, the position found is that one's if no candidate beats it,
and otherwise that of the first best candidate. -/
theorem bestFrom_cases (chooses : Chooses better) (modifiers : List (ActiveModifier ℚ))
    (position : Nat) (best : Option (Nat × ℚ)) :
    (bestFrom candidate better position best modifiers = best.map (·.1) ∧
      ∀ other ∈ modifiers, candidate other = true →
        ∃ entry ∈ best, better other.contribution entry.2 = false) ∨
    ∃ before active after, modifiers = before ++ active :: after ∧
      bestFrom candidate better position best modifiers = some (position + before.length) ∧
      FirstBest candidate better before active after ∧
      ∀ entry ∈ best, better active.contribution entry.2 = true := by
  induction modifiers generalizing position best with
  | nil => exact .inl ⟨rfl, fun _ member => by cases member⟩
  | cons first rest ih =>
    rw [bestFrom_cons]
    cases taken : candidate first && best.all fun entry => better first.contribution entry.2 with
    | true =>
      rw [if_pos rfl]
      obtain ⟨chosen, beats⟩ := Bool.and_eq_true_iff.1 taken
      rw [Option.all_eq_true] at beats
      rcases ih (position + 1) (some (position, first.contribution)) with
        ⟨same, none⟩ | ⟨before, active, after, rfl, found, least, beyond⟩
      · refine .inr ⟨[], first, rest, rfl, same, ⟨chosen, fun _ none => (by cases none), ?_⟩, beats⟩
        intro other member isOne
        obtain ⟨entry, stored, worse⟩ := none other member isOne
        cases stored
        exact worse
      · have ahead := beyond _ rfl
        refine .inr ⟨first :: before, active, after, rfl, ?_, ⟨least.chosen, ?_, least.after⟩, ?_⟩
        · rw [found, List.length_cons, Nat.add_right_comm, Nat.add_assoc]
        · intro other member isOne
          rcases List.mem_cons.1 member with rfl | later
          · exact ahead
          · exact least.before other later isOne
        · exact fun entry member => chooses.trans ahead (beats entry member)
    | false =>
      -- A candidate that is passed over does not beat the best one so far.
      have unbeaten (isOne : candidate first = true) :
          ∃ entry ∈ best, better first.contribution entry.2 = false := by
        rw [isOne, Bool.true_and] at taken
        cases best with
        | none => cases taken
        | some entry => exact ⟨entry, rfl, taken⟩
      rw [if_neg Bool.false_ne_true]
      rcases ih (position + 1) best with
        ⟨same, none⟩ | ⟨before, active, after, rfl, found, least, beyond⟩
      · refine .inl ⟨same, fun other member isOne => ?_⟩
        rcases List.mem_cons.1 member with rfl | later
        · exact unbeaten isOne
        · exact none other later isOne
      · refine .inr ⟨first :: before, active, after, rfl, ?_, ⟨least.chosen, ?_, least.after⟩,
          beyond⟩
        · rw [found, List.length_cons, Nat.add_right_comm, Nat.add_assoc]
        · intro other member isOne
          rcases List.mem_cons.1 member with rfl | later
          · obtain ⟨entry, stored, worse⟩ := unbeaten isOne
            exact chooses.beats (beyond entry stored) worse
          · exact least.before other later isOne

/-- The position found is that of the first best candidate, if there is any candidate. -/
theorem best?_cases (chooses : Chooses better) (modifiers : List (ActiveModifier ℚ)) :
    (best? candidate better modifiers = none ∧
      ∀ other ∈ modifiers, candidate other = false) ∨
    ∃ before active after, modifiers = before ++ active :: after ∧
      best? candidate better modifiers = some before.length ∧
      FirstBest candidate better before active after := by
  rcases @bestFrom_cases candidate _ chooses modifiers 0 none with
    ⟨same, others⟩ | ⟨before, active, after, split, found, least, _⟩
  · refine .inl ⟨same, fun other member => Bool.eq_false_iff.2 fun isOne => ?_⟩
    obtain ⟨entry, stored, _⟩ := others other member isOne
    cases stored
  · rw [Nat.zero_add] at found
    exact .inr ⟨before, active, after, split, found, least⟩

end Best

/-! ## The modifiers that take part -/

section Participants

variable {candidate plain : ActiveModifier ℚ → Bool} {better : ℚ → ℚ → Bool}

/-- Modifiers in a row are kept part by part. -/
theorem keepFrom_append (keeps : Nat → ActiveModifier ℚ → Bool) (position : Nat)
    (first second : List (ActiveModifier ℚ)) :
    keepFrom keeps position (first ++ second) =
      keepFrom keeps position first ++ keepFrom keeps (position + first.length) second := by
  induction first generalizing position with
  | nil => rfl
  | cons active rest ih =>
    have onward := ih (position + 1)
    rw [Nat.add_right_comm, Nat.add_assoc] at onward
    simp only [List.cons_append, keepFrom, onward, List.length_cons]
    split <;> rfl

/-- Where the position makes no difference, keeping is filtering. -/
theorem keepFrom_eq_filter {keeps : Nat → ActiveModifier ℚ → Bool} {position : Nat}
    {modifiers : List (ActiveModifier ℚ)}
    (same : ∀ place, position ≤ place → place < position + modifiers.length →
      ∀ active, keeps place active = plain active) :
    keepFrom keeps position modifiers = modifiers.filter plain := by
  induction modifiers generalizing position with
  | nil => rfl
  | cons active rest ih =>
    have here := same position (Nat.le_refl _) (by simp) active
    have onward := @ih (position + 1) fun place after before =>
      same place (by omega) (by simp only [List.length_cons]; omega)
    rw [keepFrom, onward, here, List.filter_cons]

/-- What is kept of a list besides its plain modifiers is the first best candidate. -/
theorem keepFrom_best (chooses : Chooses better) (modifiers : List (ActiveModifier ℚ)) :
    (keepFrom (fun position active =>
        plain active || some position == best? candidate better modifiers) 0 modifiers =
        modifiers.filter plain ∧
      ∀ other ∈ modifiers, candidate other = false) ∨
    ∃ before active after, modifiers = before ++ active :: after ∧
      keepFrom (fun position active =>
        plain active || some position == best? candidate better modifiers) 0 modifiers =
        before.filter plain ++ active :: after.filter plain ∧
      FirstBest candidate better before active after := by
  rcases @best?_cases candidate _ chooses modifiers with
    ⟨none, others⟩ | ⟨before, active, after, split, found, least⟩
  · refine .inl ⟨keepFrom_eq_filter fun place _ _ active => ?_, others⟩
    rw [none]
    exact Bool.or_false _
  · refine .inr ⟨before, active, after, split, ?_, least⟩
    rw [found, split, keepFrom_append, keepFrom]
    have apart {place : Nat} (other : place ≠ before.length) (active : ActiveModifier ℚ) :
        (plain active || some place == some before.length) = plain active := by simp [other]
    simp only [Nat.zero_add, beq_self_eq_true, Bool.or_true, if_true]
    rw [keepFrom_eq_filter fun place _ ahead => apart (by omega),
      keepFrom_eq_filter fun place behind _ => apart (by omega)]

/-- No candidate of the list is better than the best one. -/
theorem FirstBest.unbeaten (chooses : Chooses better) {before after : List (ActiveModifier ℚ)}
    {active other : ActiveModifier ℚ} (best : FirstBest candidate better before active after)
    (member : other ∈ before ++ active :: after) (isOne : candidate other = true) :
    better other.contribution active.contribution = false := by
  rcases List.mem_append.1 member with earlier | here
  · refine Bool.eq_false_iff.2 fun wins => ?_
    have itself := chooses.trans wins (best.before other earlier isOne)
    cases (chooses.irrefl _).symm.trans itself
  · rcases List.mem_cons.1 here with rfl | later
    · exact chooses.irrefl _
    · exact best.after other later isOne

/-- The modifiers that are not additive. -/
def others (modifiers : List (ActiveModifier ℚ)) : List (ActiveModifier ℚ) :=
  modifiers.filter fun active => !isAdditive active

/-- The additions of a list are those of its additive modifiers. -/
theorem mem_additions {modifiers : List (ActiveModifier ℚ)} {value : ℚ} :
    value ∈ additions modifiers ↔
      ∃ active ∈ modifiers, isAdditive active = true ∧ active.addition = value := by
  simp [additions, isAdditive, and_assoc]

/-- Additive modifiers that add what is kept are kept, and so are all others. -/
theorem additions_filter (keeps : ℚ → Bool) (modifiers : List (ActiveModifier ℚ)) :
    additions (modifiers.filter fun active => !isAdditive active || keeps active.contribution) =
      (additions modifiers).filter keeps := by
  unfold additions
  rw [List.filter_map, List.filter_filter, List.filter_filter]
  congr 1
  refine List.filter_congr fun active _ => ?_
  by_cases add : active.op = .add
  · simp only [isAdditive, add, Function.comp]
    exact Bool.and_comm _ _
  · simp [isAdditive, add]

/-- What takes part besides the modifiers that are kept for what they add is the first best
candidate: so its addition is added to theirs, and the modifiers that are not additive all stay. -/
theorem additions_best (chooses : Chooses better) (keeps : ℚ → Bool)
    (apart : ∀ active, candidate active = true →
      isAdditive active = true ∧ keeps active.addition = false)
    (modifiers : List (ActiveModifier ℚ)) :
    let kept := keepFrom (fun position active =>
      (!isAdditive active || keeps active.contribution)
        || some position == best? candidate better modifiers) 0 modifiers
    others kept = others modifiers ∧
      ((additions kept = (additions modifiers).filter keeps ∧
          ∀ other ∈ modifiers, candidate other = false) ∨
        ∃ active ∈ modifiers, candidate active = true ∧
          (additions kept).sum = ((additions modifiers).filter keeps).sum + active.addition ∧
          ∀ other ∈ modifiers, candidate other = true →
            better other.addition active.addition = false) := by
  intro kept
  have plain (list : List (ActiveModifier ℚ)) :
      others (list.filter fun active => !isAdditive active || keeps active.contribution) =
        others list := by
    unfold others
    rw [List.filter_filter]
    exact List.filter_congr fun active _ => by cases isAdditive active <;> rfl
  rcases @keepFrom_best candidate
      (fun active => !isAdditive active || keeps active.contribution) _ chooses modifiers with
    ⟨same, none⟩ | ⟨before, active, after, split, same, best⟩
  · refine ⟨?_, .inl ⟨?_, none⟩⟩
    · exact (congrArg others same).trans (plain modifiers)
    · exact (congrArg additions same).trans (additions_filter keeps modifiers)
  · obtain ⟨additive, dropped⟩ := apart active best.chosen
    have cons (rest : List (ActiveModifier ℚ)) :
        additions (active :: rest) = active.addition :: additions rest := by
      have add : active.op = .add := of_decide_eq_true additive
      simp [additions, add]
    have append (first second : List (ActiveModifier ℚ)) :
        additions (first ++ second) = additions first ++ additions second := by
      simp [additions]
    refine ⟨?_,
      .inr ⟨active, split ▸ List.mem_append_right _ List.mem_cons_self, best.chosen, ?_, ?_⟩⟩
    · have part (first second : List (ActiveModifier ℚ)) :
          others (first ++ active :: second) = others first ++ others second := by
        simp [others, additive]
      calc others kept = _ := congrArg others same
        _ = others before ++ others after := by rw [part, plain, plain]
        _ = others modifiers := by rw [split, part]
    · have added : additions kept = _ := congrArg additions same
      rw [added, split, append, cons, additions_filter, additions_filter, append, cons,
        List.filter_append, List.filter_cons_of_neg (by simp [dropped]), List.sum_append,
        List.sum_append, List.sum_cons]
      ring
    · intro other member isOne
      exact best.unbeaten chooses (split ▸ member) isOne

/-- Where only the best addition takes part, it is their sum, which is zero if there is none. -/
theorem sum_additions_best (chooses : Chooses better) (modifiers : List (ActiveModifier ℚ)) :
    let kept := keepFrom (fun position active =>
      !isAdditive active || some position == best? isAdditive better modifiers) 0 modifiers
    others kept = others modifiers ∧
      (additions modifiers = [] ∧ (additions kept).sum = 0 ∨
        (additions kept).sum ∈ additions modifiers ∧
          ∀ value ∈ additions modifiers, better value (additions kept).sum = false) := by
  obtain ⟨same, ends⟩ := @additions_best isAdditive _ chooses (fun _ => false)
    (fun _ additive => ⟨additive, rfl⟩) modifiers
  simp only [Bool.or_false, List.filter_false, List.sum_nil, zero_add] at same ends
  refine ⟨same, ?_⟩
  rcases ends with ⟨nothing, none⟩ | ⟨active, member, additive, sum, best⟩
  · refine .inl ⟨List.eq_nil_iff_forall_not_mem.2 fun value stored => ?_, by rw [nothing]; rfl⟩
    obtain ⟨other, among, also, _⟩ := mem_additions.1 stored
    cases (none other among).symm.trans also
  · refine .inr ⟨sum ▸ mem_additions.2 ⟨active, member, additive, rfl⟩, fun value stored => ?_⟩
    obtain ⟨other, among, also, rfl⟩ := mem_additions.1 stored
    exact sum ▸ best other among also

/-- A value of a list that is at most any other is the least. -/
theorem getD_min?_eq {values : List ℚ} {least : ℚ} (member : least ∈ values)
    (le : ∀ value ∈ values, least ≤ value) : values.min?.getD 0 = least := by
  rw [List.min?_eq_some_iff.2 ⟨member, le⟩]
  rfl

/-- A value of a list that is at least any other is the greatest. -/
theorem getD_max?_eq {values : List ℚ} {greatest : ℚ} (member : greatest ∈ values)
    (ge : ∀ value ∈ values, value ≤ greatest) : values.max?.getD 0 = greatest := by
  rw [List.max?_eq_some_iff.2 ⟨member, ge⟩]
  rfl

/-- The modifiers that take part under a mode add up to the total of all additions, and only
additive ones are left out. -/
theorem additions_participants (mode : AggregatorMode) (modifiers : List (ActiveModifier ℚ)) :
    others (participants mode modifiers) = others modifiers ∧
      (additions (participants mode modifiers)).sum = total mode (additions modifiers) := by
  have added {active : ActiveModifier ℚ} (member : active ∈ modifiers)
      (additive : isAdditive active = true) : active.addition ∈ additions modifiers :=
    mem_additions.2 ⟨active, member, additive, rfl⟩
  cases mode with
  | default => exact ⟨rfl, rfl⟩
  | mostNegative =>
    obtain ⟨same, ends⟩ := sum_additions_best chooses_lesser modifiers
    refine ⟨same, ?_⟩
    rcases ends with ⟨empty, zero⟩ | ⟨stored, least⟩
    · rw [total, empty]
      exact zero
    · exact (getD_min?_eq stored fun value also =>
        not_lt.1 (of_decide_eq_false (least value also))).symm
  | mostPositive =>
    obtain ⟨same, ends⟩ := sum_additions_best chooses_greater modifiers
    refine ⟨same, ?_⟩
    rcases ends with ⟨empty, zero⟩ | ⟨stored, greatest⟩
    · rw [total, empty]
      exact zero
    · exact (getD_max?_eq stored fun value also =>
        not_lt.1 (of_decide_eq_false (greatest value also))).symm
  | mostNegativeWithAllPositive =>
    obtain ⟨same, ends⟩ := @additions_best
      (fun active => isAdditive active && !decide (0 ≤ active.contribution)) _
      chooses_lesser (fun value => decide (0 ≤ value))
      (fun active negative => (Bool.and_eq_true_iff.1 negative).imp id (Bool.not_eq_true' _ ▸ ·))
      modifiers
    refine ⟨same, ?_⟩
    rcases ends with ⟨nonnegative, none⟩ | ⟨active, member, negative, sum, least⟩
    · have alone : (additions modifiers).filter (· < 0) = [] := by
        refine List.filter_eq_nil_iff.2 fun value stored below => ?_
        obtain ⟨other, among, also, rfl⟩ := mem_additions.1 stored
        have passed := none other among
        rw [also, Bool.true_and, Bool.not_eq_false'] at passed
        exact absurd (of_decide_eq_true passed) (not_le.2 (of_decide_eq_true below))
      rw [participants, nonnegative, total, alone]
      exact (add_zero _).symm
    · rw [Bool.and_eq_true, Bool.not_eq_true'] at negative
      have below : active.addition < 0 := not_le.1 (of_decide_eq_false negative.2)
      have stored : active.addition ∈ (additions modifiers).filter (· < 0) :=
        List.mem_filter.2 ⟨added member negative.1, decide_eq_true below⟩
      rw [participants, sum, total, getD_min?_eq stored]
      intro value among
      obtain ⟨inside, less⟩ := List.mem_filter.1 among
      obtain ⟨other, listed, also, rfl⟩ := mem_additions.1 inside
      refine not_lt.1 (of_decide_eq_false (least other listed ?_))
      rw [also, Bool.true_and, Bool.not_eq_true']
      exact decide_eq_false (not_le.2 (of_decide_eq_true less))

end Participants

/-! ## The sums -/

/-- A divisor is passed over if its magnitude or its factor is near zero. -/
theorem isNearZero_or (active : ActiveModifier ℚ) :
    (isNearZero active.magnitude || isNearZero active.factor) = !decide active.Divides := by
  have side (value : ℚ) :
      isNearZero value = !decide (Number.Scalar.nearZero ≤ |value|) := by
    rw [← decide_not, isNearZero, decide_eq_decide]
    exact not_le.symm
  rw [side, side, ← Bool.not_and, ← Bool.decide_and]
  rfl

/-- What one modifier is taken in for. -/
theorem takeIn_eq (sums : Aggregation ℚ) (active : ActiveModifier ℚ) :
    takeIn sums active = match active.op with
      | .add => { sums with additive := sums.additive + active.addition }
      | .multiply => { sums with multiplicative := sums.multiplicative * active.scaling }
      | .divide => if active.Divides then
          { sums with multiplicative := sums.multiplicative / active.scaling } else sums
      | .override => { sums with override := some active.magnitude } := by
  unfold takeIn
  cases active.op with
  | divide =>
    simp only [isNearZero_or]
    by_cases divides : active.Divides
    · simp only [divides, decide_true, Bool.not_true, Bool.false_eq_true, if_false, if_true]
      rfl
    · simp only [divides, decide_false, Bool.not_false, if_true, if_false]
  | _ => rfl

/-- Taking in some modifiers adds their additions, multiplies by their scalings, divides by their
divisors, and keeps the last override. -/
theorem foldl_takeIn (modifiers : List (ActiveModifier ℚ)) (sums : Aggregation ℚ) :
    modifiers.foldl takeIn sums =
      { additive := sums.additive + (additions modifiers).sum
        multiplicative :=
          sums.multiplicative * ((scalings modifiers).prod / (divisors modifiers).prod)
        override := ((overrides modifiers).getLast?.map (·.magnitude)).or sums.override } := by
  induction modifiers generalizing sums with
  | nil => simp [additions, scalings, divisors, overrides]
  | cons active rest ih =>
    rw [List.foldl_cons, ih, takeIn_eq]
    cases op : active.op with
    | add => simp [additions, scalings, divisors, overrides, op, add_assoc]
    | multiply =>
      simp [additions, scalings, divisors, overrides, op, mul_assoc, mul_div_assoc]
    | divide =>
      by_cases divides : active.Divides
      · simp [additions, scalings, divisors, overrides, op, divides, mul_div_assoc']
        rw [div_mul_eq_mul_div, div_div]
      · simp [additions, scalings, divisors, overrides, op, divides]
    | override =>
      simp [additions, scalings, divisors, overrides, op, List.getLast?_cons]

/-- Modifiers that are not additive are the same as among those that take part. -/
theorem others_filter (among : ActiveModifier ℚ → Bool)
    (apart : ∀ active, among active = true → isAdditive active = false)
    (modifiers : List (ActiveModifier ℚ)) :
    (others modifiers).filter among = modifiers.filter among := by
  unfold others
  rw [List.filter_filter]
  refine List.filter_congr fun active _ => ?_
  cases member : among active with
  | false => rfl
  | true => simp [apart active member]

/-- The sums have the closed form. -/
theorem collect_eq_closedForm (modifiers : List (ActiveModifier ℚ)) (mode : AggregatorMode) :
    collect modifiers mode = closedForm modifiers mode := by
  obtain ⟨same, sum⟩ := additions_participants mode modifiers
  have stays (among : ActiveModifier ℚ → Bool)
      (apart : ∀ active, among active = true → isAdditive active = false) :
      (participants mode modifiers).filter among = modifiers.filter among := by
    rw [← others_filter among apart, same, others_filter among apart]
  have multiplying : scalings (participants mode modifiers) = scalings modifiers := by
    unfold scalings
    rw [stays _ fun active multiplies => by simp_all [isAdditive]]
  have dividing : divisors (participants mode modifiers) = divisors modifiers := by
    unfold divisors
    rw [stays _ fun active divides => by simp_all [isAdditive]]
  have overriding : overrides (participants mode modifiers) = overrides modifiers :=
    stays _ fun active overrides => by simp_all [isAdditive]
  have folded := foldl_takeIn (participants mode modifiers) neutral
  rw [sum, multiplying, dividing, overriding] at folded
  refine folded.trans ?_
  simp only [neutral, closedForm, Option.or_none]
  congr 1
  · exact zero_add _
  · exact one_mul _

/-! ## The order of the modifiers -/

/-- The total of some additions does not depend on their order. -/
theorem total_perm (mode : AggregatorMode) {first second : List ℚ} (perm : first.Perm second) :
    total mode first = total mode second := by
  have least {first second : List ℚ} (perm : first.Perm second) : first.min? = second.min? :=
    Option.ext fun value => by simp only [List.min?_eq_some_iff, perm.mem_iff]
  have greatest : first.max? = second.max? :=
    Option.ext fun value => by simp only [List.max?_eq_some_iff, perm.mem_iff]
  cases mode with
  | default => exact perm.sum_eq
  | mostNegative => exact congrArg (·.getD 0) (least perm)
  | mostPositive => exact congrArg (·.getD 0) greatest
  | mostNegativeWithAllPositive =>
    exact congrArg₂ (· + ·) (perm.filter _).sum_eq (congrArg (·.getD 0) (least (perm.filter _)))

/-- The closed form does not depend on the order of the modifiers, that of the overrides apart. -/
theorem closedForm_perm (mode : AggregatorMode) {first second : List (ActiveModifier ℚ)}
    (perm : first.Perm second) (same : overrides first = overrides second) :
    closedForm first mode = closedForm second mode := by
  have adding : (additions first).Perm (additions second) := (perm.filter _).map _
  have multiplying : (scalings first).Perm (scalings second) := (perm.filter _).map _
  have dividing : (divisors first).Perm (divisors second) := (perm.filter _).map _
  rw [closedForm, closedForm, total_perm mode adding, multiplying.prod_eq, dividing.prod_eq, same]

end Aggregation

/-! ## Quotients by values near zero -/

/-- Exact arithmetic in which a quotient by a value near zero is whatever it is said to be. -/
abbrev Number.exactBut (quotient : ℚ → ℚ → ℚ) : Number.Scalar ℚ :=
  { Number.instScalarRat with
    div := fun value divisor =>
      if Number.Scalar.nearZero ≤ |divisor| then value / divisor else quotient value divisor }

namespace Aggregation

variable (quotient : ℚ → ℚ → ℚ)

/-- No quotient by a value near zero is taken in. -/
theorem takeIn_exactBut (sums : Aggregation ℚ) (active : ActiveModifier ℚ) :
    @takeIn ℚ (Number.exactBut quotient) sums active = takeIn sums active := by
  rw [takeIn_eq]
  unfold takeIn
  cases active.op with
  | divide =>
    have passed : (@isNearZero ℚ (Number.exactBut quotient) active.magnitude
        || @isNearZero ℚ (Number.exactBut quotient)
          (@ActiveModifier.factor ℚ (Number.exactBut quotient) active)) = !decide active.Divides :=
      isNearZero_or active
    simp only [passed]
    by_cases divides : active.Divides
    · simp only [divides, decide_true, Bool.not_true, Bool.false_eq_true, if_false, if_true]
      congr 1
      exact if_pos divides.2
    · simp only [divides, decide_false, Bool.not_false, if_true, if_false]
  | _ => rfl

/-- The best candidate is chosen without division. -/
theorem bestFrom_exactBut (candidate : ActiveModifier ℚ → Bool) (better : ℚ → ℚ → Bool)
    (modifiers : List (ActiveModifier ℚ)) (position : Nat) (best : Option (Nat × ℚ)) :
    @bestFrom ℚ (Number.exactBut quotient) candidate better position best modifiers =
      bestFrom candidate better position best modifiers := by
  induction modifiers generalizing position best with
  | nil => rfl
  | cons active rest ih => exact ih (position + 1) _

/-- So the sums are the same whatever such quotients are. -/
theorem collect_exactBut (modifiers : List (ActiveModifier ℚ)) (mode : AggregatorMode) :
    @collect ℚ (Number.exactBut quotient) modifiers mode = collect modifiers mode := by
  have same : @participants ℚ (Number.exactBut quotient) mode modifiers =
      participants mode modifiers := by
    cases mode with
    | default => rfl
    | mostNegative | mostPositive => simp only [participants, best?, bestFrom_exactBut]
    | mostNegativeWithAllPositive =>
      simp only [participants, best?, bestFrom_exactBut]
      rfl
  unfold collect
  rw [same]
  exact List.foldl_ext _ _ _ fun sums active _ => takeIn_exactBut quotient sums active

end Aggregation

/-- The sums have their closed form and the value is the one it makes of the base value, unless an
override replaces it. So the value is the same for any permutation that keeps the overrides in
order, and the same whatever a quotient by a value near zero is. -/
theorem aggregate_closed_form (base : ℚ) (modifiers : List (ActiveModifier ℚ))
    (mode : AggregatorMode) :
    Aggregation.collect modifiers mode = Aggregation.closedForm modifiers mode ∧
      aggregate base modifiers mode =
        ((Aggregation.overrides modifiers).getLast?.map (·.magnitude)).getD
          ((base + Aggregation.total mode (Aggregation.additions modifiers)) *
            ((Aggregation.scalings modifiers).prod / (Aggregation.divisors modifiers).prod)) ∧
      (∀ permuted : List (ActiveModifier ℚ), modifiers.Perm permuted →
        Aggregation.overrides modifiers = Aggregation.overrides permuted →
          aggregate base permuted mode = aggregate base modifiers mode) ∧
      ∀ quotient : ℚ → ℚ → ℚ,
        @aggregate ℚ (Number.exactBut quotient) base modifiers mode =
          aggregate base modifiers mode := by
  have closed := Aggregation.collect_eq_closedForm modifiers mode
  refine ⟨closed, ?_, fun permuted perm same => ?_, fun quotient => ?_⟩
  · unfold aggregate
    rw [closed]
    unfold Aggregation.apply Aggregation.closedForm
    cases (Aggregation.overrides modifiers).getLast? <;> rfl
  · unfold aggregate
    rw [closed, Aggregation.collect_eq_closedForm permuted mode,
      Aggregation.closedForm_perm mode perm same]
  · unfold aggregate
    rw [Aggregation.collect_exactBut]
    rfl

/-- A modifier of one stack. -/
def ActiveModifier.once (op : ModifierOp) (magnitude : ℚ) : ActiveModifier ℚ :=
  { op, magnitude, source := ⟨1⟩, slot := 0, stackCount := 1, appliedAt := ⟨0⟩ }

/-- Two buffs, two debuffs that are equally strong and a weaker one, a divisor that two stacks make
zero, and a doubling. -/
def skirmish : List (ActiveModifier ℚ) :=
  [.once .add 5, .once .add (-30), .once .divide 0, .once .add (-10), .once .multiply 2,
    { ActiveModifier.once .divide (1 / 2) with stackCount := 2 }, .once .add (-30), .once .add 12]

/-- In whatever order they come, the buffs and one of the strongest debuffs count, twofold, and
nothing is divided by. -/
theorem skirmish_aggregates : skirmish.Perm skirmish.reverse ∧
    Aggregation.overrides skirmish = Aggregation.overrides skirmish.reverse ∧
    aggregate 100 skirmish .mostNegativeWithAllPositive = 174 ∧
    aggregate 100 skirmish.reverse .mostNegativeWithAllPositive = 174 ∧
    ∀ quotient : ℚ → ℚ → ℚ, @aggregate ℚ (Number.exactBut quotient) 100 skirmish
      .mostNegativeWithAllPositive = 174 := by
  have perm : skirmish.Perm skirmish.reverse := (List.reverse_perm _).symm
  have same : Aggregation.overrides skirmish = Aggregation.overrides skirmish.reverse := rfl
  have value : aggregate 100 skirmish .mostNegativeWithAllPositive = 174 := by decide +kernel
  obtain ⟨_, _, permuted, undivided⟩ :=
    aggregate_closed_form 100 skirmish .mostNegativeWithAllPositive
  exact ⟨perm, same, value, (permuted _ perm same).trans value,
    fun quotient => (undivided quotient).trans value⟩

end SkillEngine
