import SkillEngine.Attribute.Modifier
import SkillEngine.Tag.Set

/-!
# Effect definitions

What an effect modifies, how long it lasts, how applications stack and which tags gate it. A
definition never changes; every activation makes an instance that refers to it.
-/

namespace SkillEngine

/-- How long an effect lasts. -/
inductive DurationType where
  /-- It writes values once and is over. -/
  | instant
  /-- It lasts for a number of seconds. -/
  | duration
  /-- It lasts until it is removed. -/
  | infinite
  deriving DecidableEq, Inhabited, Repr

/-- Which live instance a new application stacks onto. -/
inductive StackingKind where
  /-- The one of the target, whoever applied it. -/
  | aggregateByTarget
  /-- The one that the same source applied to the target. -/
  | aggregateBySource
  deriving DecidableEq, Inhabited, Repr

/-- What an application at the stack limit does besides restarting the duration. -/
inductive OverflowPolicy where
  /-- Nothing. -/
  | denyApplication
  /-- It fires the overflow port. -/
  | allowOverflowEffect
  deriving DecidableEq, Inhabited, Repr

/-- What happens to a stack whose duration has run out. -/
inductive ExpirationPolicy where
  /-- It ends. -/
  | clearEntireStack
  /-- It loses one stack and starts over, and ends with the last. -/
  | removeSingleStackAndRefreshDuration
  /-- It starts over. -/
  | refreshDuration
  deriving DecidableEq, Inhabited, Repr

/-- How applications of a lasting effect stack. -/
structure StackingPolicy where
  /-- Which instance an application stacks onto. -/
  kind : StackingKind := .aggregateByTarget
  /-- The stack limit as authored. -/
  limit : UInt32
  /-- A new stack restarts the duration. -/
  refreshDurationOnStack : Bool := true
  /-- A new stack restarts the period. -/
  resetPeriodOnStack : Bool := false
  /-- What happens at the limit. -/
  overflow : OverflowPolicy := .denyApplication
  /-- What happens when the duration runs out. -/
  expiration : ExpirationPolicy := .clearEntireStack
  deriving DecidableEq, Inhabited

/-- The stack limit, at least one. -/
def StackingPolicy.maxStacks (policy : StackingPolicy) : Nat := max policy.limit.toNat 1

/-- The six tag lists of an effect. -/
structure EffectTags where
  /-- What the effect is; also what stacks with it. -/
  asset : TagSet := .empty
  /-- Given to the target while the effect lasts. -/
  granted : TagSet := .empty
  /-- The target must match all of these to receive the effect. -/
  requiredToApply : TagSet := .empty
  /-- A target that matches any of these is immune. -/
  immunity : TagSet := .empty
  /-- The target must go on matching all of these. -/
  requiredOngoing : TagSet := .empty
  /-- Effects on the target whose asset tags match any of these are removed first. -/
  removeEffectsWithTags : TagSet := .empty
  deriving BEq, Inhabited

/-- The static description of an effect. -/
structure EffectDef where
  /-- The name. -/
  name : String := ""
  /-- How long it lasts. -/
  durationType : DurationType := .instant
  /-- The seconds that a timed effect lasts. -/
  duration : MagnitudeSource := .fixed .zero
  /-- The seconds between pulses; zero means none. -/
  period : Number.Single := .zero
  /-- The application itself fires a pulse. -/
  executePeriodicOnApplication : Bool := false
  /-- The changes of attributes, by slot. -/
  modifiers : List Modifier := []
  /-- The tag lists. -/
  tags : EffectTags := {}
  /-- How applications stack; without a policy each is an instance of its own. -/
  stacking : Option StackingPolicy := none
  deriving BEq, Inhabited

namespace EffectDef

/-- The effect pulses. -/
def isPeriodic (definition : EffectDef) : Bool := 0 < definition.period.value

/-- Some modifier is resolved again and again. -/
def tracks (definition : EffectDef) : Bool := definition.modifiers.any (·.capture == .track)

end EffectDef

/-- The output ports that effects fire. -/
inductive EffectPort where
  /-- The effect has taken hold. -/
  | initial
  /-- A period has elapsed. -/
  | periodic
  /-- The effect was applied again at its stack limit. -/
  | overflow
  /-- The effect was removed or has expired. -/
  | removed
  /-- The last port of any effect. -/
  | complete
  deriving DecidableEq, Inhabited, Repr

/-- The name of an output port. -/
def EffectPort.name : EffectPort → String
  | .initial => "initial"
  | .periodic => "periodic"
  | .overflow => "overflow"
  | .removed => "removed"
  | .complete => "complete"

end SkillEngine
