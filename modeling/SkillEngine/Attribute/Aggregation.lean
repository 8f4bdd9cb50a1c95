import SkillEngine.Attribute.Modifier
import SkillEngine.Number.Scalar

/-!
# Aggregation

The current value of an attribute is its base plus the sum of what the additive modifiers add,
times the product of the multiplying ones over the dividing ones, unless an override replaces it.
The mode of the attribute first thins out the additive modifiers; of equally extreme ones the first
stays. A divisor near zero is passed over.
-/

namespace SkillEngine

/-- Which additive modifiers take part. -/
inductive AggregatorMode where
  /-- All. -/
  | default
  /-- The single most negative one. -/
  | mostNegative
  /-- The single most positive one. -/
  | mostPositive
  /-- Every one that is not negative, and the single most negative one. -/
  | mostNegativeWithAllPositive
  deriving DecidableEq, Inhabited, Repr

/-- The three sums that make up a current value. -/
structure Aggregation (S : Type) where
  /-- What the additive modifiers add up to. -/
  additive : S
  /-- The product of the factors over the product of the divisors. -/
  multiplicative : S
  /-- The magnitude of the last override. -/
  override : Option S
  deriving Inhabited

namespace Aggregation

variable {S : Type} [Number.Scalar S]

/-- The position of the first best candidate among modifiers counted on from `position`, when
`best` is the best before them. -/
def bestFrom (candidate : ActiveModifier S → Bool) (better : S → S → Bool) (position : Nat)
    (best : Option (Nat × S)) : List (ActiveModifier S) → Option Nat
  | [] => best.map (·.1)
  | active :: rest =>
    let beaten := match best with
      | none => true
      | some (_, value) => better active.contribution value
    bestFrom candidate better (position + 1)
      (if candidate active && beaten then some (position, active.contribution) else best) rest

/-- The position of the first best candidate. -/
def best? (candidate : ActiveModifier S → Bool) (better : S → S → Bool)
    (modifiers : List (ActiveModifier S)) : Option Nat :=
  bestFrom candidate better 0 none modifiers

/-- The modifier is additive. -/
def isAdditive (active : ActiveModifier S) : Bool := active.op == .add

/-- The modifiers for which `keeps` holds of position and modifier, counted on from `position`. -/
def keepFrom (keeps : Nat → ActiveModifier S → Bool) (position : Nat) :
    List (ActiveModifier S) → List (ActiveModifier S)
  | [] => []
  | active :: rest =>
    if keeps position active then active :: keepFrom keeps (position + 1) rest
    else keepFrom keeps (position + 1) rest

/-- The modifiers that take part under a mode. -/
def participants (mode : AggregatorMode) (modifiers : List (ActiveModifier S)) :
    List (ActiveModifier S) :=
  match mode with
  | .default => modifiers
  | .mostNegative =>
    let chosen := best? isAdditive (fun new old => new < old) modifiers
    keepFrom (fun position active => !isAdditive active || some position == chosen) 0 modifiers
  | .mostPositive =>
    let chosen := best? isAdditive (fun new old => old < new) modifiers
    keepFrom (fun position active => !isAdditive active || some position == chosen) 0 modifiers
  | .mostNegativeWithAllPositive =>
    let chosen := best? (fun active => isAdditive active && !decide (0 ≤ active.contribution))
      (fun new old => new < old) modifiers
    keepFrom (fun position active =>
      !isAdditive active || decide (0 ≤ active.contribution) || some position == chosen) 0 modifiers

/-- The sums over no modifiers. -/
def neutral : Aggregation S := ⟨0, 1, none⟩

/-- Values near zero are no divisors. -/
def isNearZero (value : S) : Bool := Number.Scalar.magnitude value < Number.Scalar.nearZero

/-- Takes in one more modifier. -/
def takeIn (sums : Aggregation S) (active : ActiveModifier S) : Aggregation S :=
  match active.op with
  | .add => { sums with additive := sums.additive + active.contribution }
  | .multiply => { sums with multiplicative := sums.multiplicative * active.factor }
  | .divide =>
    if isNearZero active.magnitude || isNearZero active.factor then sums
    else { sums with multiplicative := sums.multiplicative / active.factor }
  | .override => { sums with override := some active.magnitude }

/-- The sums over a modifier list. -/
def collect (modifiers : List (ActiveModifier S)) (mode : AggregatorMode) : Aggregation S :=
  (participants mode modifiers).foldl takeIn neutral

/-- The value that the sums make of a base value. -/
def apply (sums : Aggregation S) (base : S) : S :=
  match sums.override with
  | some value => value
  | none => (base + sums.additive) * sums.multiplicative

end Aggregation

/-- The value, not yet clamped, that modifiers make of a base value. -/
def aggregate {S : Type} [Number.Scalar S] (base : S) (modifiers : List (ActiveModifier S))
    (mode : AggregatorMode) : S :=
  (Aggregation.collect modifiers mode).apply base

end SkillEngine
