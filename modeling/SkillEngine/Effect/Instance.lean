import SkillEngine.Context
import SkillEngine.Effect.Clock
import SkillEngine.Effect.Definition

/-!
# Effect instances

An instance is one activation of an effect on one target. It goes from pending to applied; while it
is live it may be refreshed and ticked, and it ends expired, removed or cancelled for good.
-/

namespace SkillEngine

/-- The state of an effect instance. -/
inductive EffectState where
  /-- Made, but not yet attached. -/
  | pending
  /-- Attached. -/
  | applied
  /-- Attached and stacked again. -/
  | refreshing
  /-- Attached and ticked. -/
  | ticking
  /-- Its duration ran out. -/
  | expired
  /-- It was removed. -/
  | removed
  /-- It was cancelled. -/
  | cancelled
  deriving DecidableEq, Inhabited, Repr

/-- Attached to its target. -/
def EffectState.isLive : EffectState → Bool
  | .applied | .refreshing | .ticking => true
  | _ => false

/-- Over for good. -/
def EffectState.isTerminal : EffectState → Bool
  | .expired | .removed | .cancelled => true
  | _ => false

/-- One activation of an effect. -/
structure Effect where
  /-- Its number. -/
  id : EffectId
  /-- The skill that it comes from. -/
  skill : SkillId
  /-- The node that it comes from. -/
  node : NodeId
  /-- What it does. -/
  definition : EffectDef
  /-- Who applied it. -/
  source : EntityId
  /-- Whom it acts on. -/
  target : EntityId
  /-- Its timers. -/
  clock : Clock Float32
  /-- How often it is stacked. -/
  stackCount : Nat
  /-- Its state. -/
  state : EffectState
  /-- The context of the activation; its ports fire with it. -/
  context : Context
  /-- The resolved magnitude of each modifier, by slot. -/
  magnitudes : List Float32
  /-- The cues started under it. -/
  cues : List CueId
  deriving Inhabited

namespace Effect

/-- A pending instance with one stack and fresh timers. -/
def pending (id : EffectId) (skill : SkillId) (node : NodeId) (definition : EffectDef)
    (source target : EntityId) (duration : Float32) (context : Context) : Effect where
  id := id
  skill := skill
  node := node
  definition := definition
  source := source
  target := target
  clock :=
    { finite := definition.durationType == .duration
      duration := duration
      period := Number.larger definition.period.value 0
      elapsed := 0
      periodTimer := 0 }
  stackCount := 1
  state := .pending
  context := context
  magnitudes := []
  cues := []

/-- Attached to its target. -/
def isLive (effect : Effect) : Bool := effect.state.isLive

/-- Where the instance is found. -/
def handle (effect : Effect) : EffectHandle := ⟨effect.target, effect.id⟩

/-- The seconds left of a timed effect. -/
def remaining? (effect : Effect) : Option Float32 :=
  if effect.definition.durationType == .duration then
    some (Number.larger (effect.clock.duration - effect.clock.elapsed) 0)
  else none

/-- A new application of a node by a source stacks onto this instance: the definitions' asset tags
agree, or without any the nodes do, and if stacks are kept by source, so do the sources. -/
def stacksWith (effect : Effect) (skill : SkillId) (node : NodeId) (definition : EffectDef)
    (source : EntityId) : Bool :=
  effect.isLive && match definition.stacking with
    | none => false
    | some policy =>
      (if definition.tags.asset.isEmpty then effect.skill == skill && effect.node == node
        else effect.definition.tags.asset == definition.tags.asset)
      && match policy.kind with
        | .aggregateByTarget => true
        | .aggregateBySource => effect.source == source

/-- The timers restarted as a new stack of the definition restarts them. -/
def refresh (effect : Effect) : Effect :=
  let (duration, period) := match effect.definition.stacking with
    | none => (true, false)
    | some policy => (policy.refreshDurationOnStack, policy.resetPeriodOnStack)
  { effect with clock :=
    { effect.clock with
      elapsed := if duration then 0 else effect.clock.elapsed
      periodTimer := if period then 0 else effect.clock.periodTimer } }

/-- The duration timer restarted. -/
def restartDuration (effect : Effect) : Effect :=
  { effect with clock := { effect.clock with elapsed := 0 } }

/-- The instance has as many stacks as its policy allows. -/
def atLimit (effect : Effect) (policy : StackingPolicy) : Bool :=
  decide (policy.maxStacks ≤ effect.stackCount)

/-- The instance after another application: one stack more, or at the limit just the duration
restarted. -/
def restack (effect : Effect) (policy : StackingPolicy) : Effect :=
  let grown := if effect.atLimit policy then effect.restartDuration
    else { effect with stackCount := effect.stackCount + 1 }.refresh
  { grown with state := .refreshing }

/-- The duration has run out. -/
def durationElapsed (effect : Effect) : Bool := effect.clock.isOver

/-- Advances the timers of a live instance; without time to pass nothing happens. -/
def advance (effect : Effect) (seconds : Float32) : Elapse × Effect :=
  if !effect.isLive || seconds ≤ 0 then (⟨0, false⟩, effect)
  else
    let (elapse, clock) := effect.clock.advance seconds
    (elapse, { effect with clock, state := .ticking })

/-- The instance with the magnitude of one slot replaced. -/
def setMagnitude (effect : Effect) (slot : Nat) (magnitude : Float32) : Effect :=
  { effect with magnitudes := effect.magnitudes.set slot magnitude }

end Effect

end SkillEngine
