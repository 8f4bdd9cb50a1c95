import SkillEngine.Attribute.Request
import SkillEngine.Proofs.Floats

/-!
# Values within bounds

Whatever is asked of an attribute, its values end up within its bounds. A hook may put any value in
the place of the one that was written, and modifiers may make infinity or no number of it, so each
way to a value ends in a clamp; and a clamp is right for what is no number too, since that gives way
to the bound. The bounds themselves never change.
-/

namespace SkillEngine

namespace Single

variable {low high value : Float32}

/-- No float is below itself. -/
theorem lt_irrefl (value : Float32) : ¬ value < value := by
  intro less
  exact not_le_of_lt less (le_of_lt less)

/-- What is raised to a number is not below it. -/
theorem not_larger_lt (number : low.isNaN = false) : ¬ Number.larger value low < low := by
  unfold Number.larger
  split
  · exact lt_irrefl low
  · rw [number, if_neg (by decide)]
    split
    · exact lt_irrefl low
    · next above => exact above

/-- What is lowered to a number is not above it. -/
theorem not_lt_smaller (number : high.isNaN = false) : ¬ high < Number.smaller value high := by
  unfold Number.smaller
  split
  · exact lt_irrefl high
  · rw [number, if_neg (by decide)]
    split
    · exact lt_irrefl high
    · next below => exact below

/-- What is lowered is one of the two. -/
theorem smaller_cases (left right : Float32) :
    Number.smaller left right = left ∨ Number.smaller left right = right := by
  unfold Number.smaller
  split
  · exact .inr rfl
  · split
    · exact .inl rfl
    · split
      · exact .inr rfl
      · exact .inl rfl

end Single

namespace Attribute

/-- Two optional bounds are numbers, and the lower one is not above the upper one. -/
structure ProperBounds (min max : Option Float32) : Prop where
  /-- The lower bound is a number. -/
  low : ∀ low, min = some low → low.isNaN = false
  /-- The upper bound is a number. -/
  high : ∀ high, max = some high → high.isNaN = false
  /-- They are in order. -/
  ordered : ∀ low high, min = some low → max = some high → low ≤ high

/-- A value is not below the one bound and not above the other, as far as there are bounds. -/
structure Within (min max : Option Float32) (value : Float32) : Prop where
  /-- It is not below the lower bound. -/
  above : ∀ low, min = some low → ¬ value < low
  /-- It is not above the upper bound. -/
  below : ∀ high, max = some high → ¬ high < value

variable {min max : Option Float32}

/-- A clamped value is within proper bounds, whatever it was. -/
theorem within_clampTo (proper : ProperBounds min max) (value : Float32) :
    Within min max (clampTo min max value) where
  above low bound := by
    subst bound
    have raised : ¬ Number.larger value low < low := Single.not_larger_lt (proper.low low rfl)
    cases max with
    | none => exact raised
    | some high =>
      have apart : ¬ high < low := fun less =>
        Single.not_le_of_lt less (proper.ordered low high rfl rfl)
      simp only [clampTo]
      rcases Single.smaller_cases (Number.larger value low) high with same | same
      · rwa [same]
      · rwa [same]
  below high bound := by
    subst bound
    exact Single.not_lt_smaller (proper.high high rfl)

/-- The attribute has some bounds, and its base value and its committed value are within them. -/
structure Keeps (min max : Option Float32) (attr : Attribute) : Prop where
  /-- The lower bound. -/
  low : attr.min = min
  /-- The upper bound. -/
  high : attr.max = max
  /-- The base value is within them. -/
  base : Within min max attr.base
  /-- The committed value is within them. -/
  current : Within min max attr.current

variable {attr : Attribute}

/-- An attribute starts within its bounds. -/
theorem keeps_create (proper : ProperBounds min max) (id : AttributeId) (value : Float32)
    (mode : AggregatorMode) (isMeta : Bool) : (create id value min max mode isMeta).Keeps min max :=
  ⟨rfl, rfl, within_clampTo proper value, within_clampTo proper value⟩

namespace Keeps

/-- A clamped value is within the bounds. -/
theorem clamp (keeps : attr.Keeps min max) (proper : ProperBounds min max) (value : Float32) :
    Within min max (attr.clamp value) := by
  rw [Attribute.clamp, keeps.low, keeps.high]
  exact within_clampTo proper value

/-- The current value is within the bounds, stale or not. -/
theorem currentValue (keeps : attr.Keeps min max) (proper : ProperBounds min max) :
    Within min max attr.currentValue := by
  unfold Attribute.currentValue
  split
  · exact keeps.clamp proper _
  · exact keeps.current

/-- Committing. -/
theorem recalculate (keeps : attr.Keeps min max) (proper : ProperBounds min max) :
    attr.recalculate.1.Keeps min max :=
  ⟨keeps.low, keeps.high, keeps.base, keeps.clamp proper _⟩

/-- Writing the base value, whatever the hooks make of it. -/
theorem setBase (keeps : attr.Keeps min max) (proper : ProperBounds min max) (value : Float32) :
    (attr.setBase value).2.1.Keeps min max := by
  unfold Attribute.setBase
  split
  · exact keeps
  · next proposed asked _ =>
    have written : Keeps min max { attr with base := attr.clamp proposed } :=
      { keeps with base := keeps.clamp proper proposed }
    exact written.recalculate proper

/-- Writing the current value, whatever the hooks make of it. -/
theorem setCurrent (keeps : attr.Keeps min max) (proper : ProperBounds min max)
    (value : Float32) : (attr.setCurrent value).2.1.Keeps min max := by
  unfold Attribute.setCurrent
  split
  · exact keeps
  · next proposed asked _ => exact { keeps with current := keeps.clamp proper proposed }

/-- Whatever is asked of an attribute. -/
theorem perform (keeps : attr.Keeps min max) (proper : ProperBounds min max)
    (observer : EntityId) (request : AttributeRequest) :
    (request.perform observer attr).state.Keeps min max := by
  cases request with
  | setBase value => exact keeps.setBase proper value
  | setCurrent value => exact keeps.setCurrent proper value
  | recalculate => exact keeps.recalculate proper
  | clamp | info => exact keeps
  -- Modifiers, hooks and observers come and go without a write.
  | _ => exact { keeps with }

end Keeps

/-- The attribute after some operations in turn, each answered by hooks of its own: what a hook says
may have changed since it was asked before. -/
def afterEach (observer : EntityId) (attr : Attribute)
    (operations : List (Subscribers Hook × AttributeRequest)) : Attribute :=
  operations.foldl (fun attr (hooks, request) =>
    (request.perform observer { attr with hooks }).state) attr

/-- Operations in turn keep an attribute within its bounds. -/
theorem Keeps.afterEach (keeps : attr.Keeps min max) (proper : ProperBounds min max)
    (observer : EntityId) (operations : List (Subscribers Hook × AttributeRequest)) :
    (attr.afterEach observer operations).Keeps min max := by
  induction operations generalizing attr with
  | nil => exact keeps
  | cons operation rest ih =>
    obtain ⟨hooks, request⟩ := operation
    have asked : Keeps min max { attr with hooks } := { keeps with }
    exact ih (asked.perform proper observer request)

end Attribute

/-- The bounds that a row sets are numbers and in order. -/
def AttributeRow.Bounded (row : AttributeRow) : Prop :=
  Attribute.ProperBounds (row.min.map (·.value)) (row.max.map (·.value))

/-- An attribute that is made from a row with proper bounds has its base value and its current
value within them after any operations. -/
theorem values_within_bounds {row : AttributeRow} (bounded : row.Bounded) (observer : EntityId)
    (operations : List (Subscribers Hook × AttributeRequest)) :
    let attr := row.build.afterEach observer operations
    Attribute.Within (row.min.map (·.value)) (row.max.map (·.value)) attr.base ∧
      Attribute.Within (row.min.map (·.value)) (row.max.map (·.value)) attr.currentValue := by
  have started : row.build.Keeps (row.min.map (·.value)) (row.max.map (·.value)) :=
    Attribute.keeps_create bounded row.id row.defaultValue.value row.aggregator row.isMeta
  have keeps := started.afterEach bounded observer operations
  exact ⟨keeps.base, keeps.currentValue bounded⟩

/-- A row with both bounds, which starts above the upper one. -/
def fury : AttributeRow where
  id := ⟨1⟩
  name := "Fury"
  defaultValue := .ofValue (Float32.ofBits 0x43160000)
  min := some (.ofValue 0)
  max := some (.ofValue (Float32.ofBits 0x42c80000))

/-- A hook that writes infinity instead. -/
def enraged : Subscribers Hook :=
  (Subscribers.empty.subscribe (.ofRule "enraged" (.replace Number.infinity) none)).2

/-- A modifier that puts what is no number in the place of a value. -/
def senseless : ActiveModifier Float32 where
  op := .override
  magnitude := Float32.ofBits 0x7fc00000
  source := ⟨1⟩
  slot := 0
  stackCount := 0
  appliedAt := .ofValue (Float.ofBits 0)

/-- The attribute is raised to infinity by a hook, and then a modifier makes no number of it. -/
def outburst : List (Subscribers Hook × AttributeRequest) :=
  [(enraged, .setBase 0), (.empty, .attach senseless)]

/-- Stale and no number at that, it reads as its lower bound, and its base value as its upper
one. -/
theorem fury_within_bounds : fury.Bounded ∧
    (let attr := fury.build.afterEach ⟨1⟩ outburst
    (Attribute.Within (fury.min.map (·.value)) (fury.max.map (·.value)) attr.base ∧
      Attribute.Within (fury.min.map (·.value)) (fury.max.map (·.value)) attr.currentValue) ∧
    attr.dirty = true ∧ (aggregate attr.base attr.modifiers attr.mode).isNaN = true ∧
    attr.base.toBits = 0x42c80000 ∧ attr.currentValue.toBits = 0) := by
  have bounded : fury.Bounded :=
    { low := by rintro _ ⟨⟩; decide +kernel
      high := by rintro _ ⟨⟩; decide +kernel
      ordered := by rintro _ _ ⟨⟩ ⟨⟩; decide +kernel }
  exact ⟨bounded, values_within_bounds bounded ⟨1⟩ outburst, by decide +kernel⟩

end SkillEngine
