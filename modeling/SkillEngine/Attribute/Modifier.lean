import SkillEngine.Formula.Source
import SkillEngine.Ident
import SkillEngine.Number.Stored

/-!
# Modifiers

A modifier declares how an effect changes an attribute: the operation, and where its magnitude
comes from. An active modifier is one that has been resolved to a number and attached; it remembers
who attached it, in which slot, and how many stacks its owner has.
-/

namespace SkillEngine

/-- How a modifier combines with a base value. -/
inductive ModifierOp where
  /-- Summed, scaled by the stack count. -/
  | add
  /-- Multiplied in as `1 + (magnitude - 1) * stacks`. -/
  | multiply
  /-- Divided out as `1 + (magnitude - 1) * stacks`. -/
  | divide
  /-- Replaces the computed value; the last one wins. -/
  | override
  deriving DecidableEq, Inhabited, Repr

/-- Where a magnitude comes from. -/
inductive MagnitudeSource where
  /-- A constant. -/
  | fixed (value : Number.Single)
  /-- A formula over caster, target, snapshot and context. -/
  | formula (source : Formula.Source)
  /-- A calculation that the host registered under this name. -/
  | computed (name : String)
  /-- A number that the caller put into the context under this key. -/
  | setByCaller (key : String)
  deriving BEq

instance : Inhabited MagnitudeSource := ⟨.fixed .zero⟩

/-- When a magnitude is resolved. -/
inductive CaptureMode where
  /-- Once, when the effect is applied. -/
  | snapshot
  /-- On every tick and whenever the stack changes. -/
  | track
  deriving DecidableEq, Inhabited, Repr

/-- A declared change of an attribute. -/
structure Modifier where
  /-- The attribute of the target. -/
  attr : AttributeId
  /-- How it combines. -/
  op : ModifierOp
  /-- Where the number comes from. -/
  magnitude : MagnitudeSource
  /-- When the number is resolved. -/
  capture : CaptureMode := .snapshot
  deriving BEq, Inhabited

/-- A resolved modifier that is attached to an attribute. -/
structure ActiveModifier (S : Type) where
  /-- How it combines. -/
  op : ModifierOp
  /-- The resolved number. -/
  magnitude : S
  /-- Who attached it. -/
  source : SourceId
  /-- Its position in the owner's definition. -/
  slot : Nat
  /-- The owner's stack count. -/
  stackCount : Nat
  /-- The world time at which it was attached. -/
  appliedAt : Number.Double
  deriving Inhabited

namespace ActiveModifier

variable {S : Type} [Number.Scalar S]

/-- The stack count as a value, at least one. -/
def stackValue (active : ActiveModifier S) : S := Number.Scalar.ofCount (max active.stackCount 1)

/-- What an additive modifier adds. -/
def contribution (active : ActiveModifier S) : S := active.magnitude * active.stackValue

/-- What a multiplying modifier multiplies by, and a dividing one divides by. -/
def factor (active : ActiveModifier S) : S := 1 + (active.magnitude - 1) * active.stackValue

end ActiveModifier

/-- One operation applied to a value at once, as an instant effect does. -/
def ModifierOp.applyTo (op : ModifierOp) (value magnitude : Float32) : Float32 :=
  match op with
  | .add => value + magnitude
  | .multiply => value * magnitude
  | .divide =>
    if Number.Scalar.magnitude magnitude < Number.Scalar.nearZero then value else value / magnitude
  | .override => magnitude

end SkillEngine
