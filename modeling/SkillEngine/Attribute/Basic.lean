import SkillEngine.Attribute.Aggregation
import SkillEngine.Number.Stored
import SkillEngine.Subscribers

/-!
# Attributes

An attribute has a base value, which only explicit writes change, and a current value, which is the
clamped aggregate of the base value and the attached modifiers. Attaching and detaching only mark
the attribute stale; the current value is committed when it is recalculated, and reading a stale
attribute computes it on the fly.

A write first asks the hooks in order, each seeing the value proposed so far; one of them may
replace the value or veto the write. What remains is clamped, stored and told to the observers.
Every operation answers with the signals that it gave off, in order.
-/

namespace SkillEngine

/-- Which value of an attribute changes. -/
inductive ValueKind where
  /-- The permanent value. -/
  | base
  /-- The derived value. -/
  | current
  deriving DecidableEq, Inhabited, Repr

/-- A change of an attribute, proposed or made. -/
structure AttributeChange (S : Type) where
  /-- The attribute. -/
  attr : AttributeId
  /-- Which of its values. -/
  kind : ValueKind
  /-- The value before. -/
  old : S
  /-- The value after. -/
  new : S
  deriving Inhabited

/-- What a hook says to a proposed change. -/
inductive Verdict where
  /-- The proposed value stands. -/
  | accept
  /-- Another value takes its place. -/
  | replace (value : Float32)
  /-- The write is dropped. -/
  | veto

/-- A hook that is asked before a write, under the name by which it reports. -/
structure Hook where
  /-- The reported name. -/
  name : String
  /-- The answer to a proposed change. -/
  judge : AttributeChange Float32 → Verdict

/-- What an attribute gives off while it works. -/
inductive AttributeSignal where
  /-- A hook was asked. -/
  | asked (hook : String) (change : AttributeChange Float32)
  /-- An observer that reports for an entity heard of a change. -/
  | changed (observer : EntityId) (change : AttributeChange Float32)

/-- A scalar gameplay value. -/
structure Attribute where
  /-- Which attribute it is. -/
  id : AttributeId
  /-- The permanent value. -/
  base : Float32
  /-- The value committed last. -/
  current : Float32
  /-- The lower bound. -/
  min : Option Float32
  /-- The upper bound. -/
  max : Option Float32
  /-- The attribute is a channel whose current value instant effects write. -/
  isMeta : Bool
  /-- Which additive modifiers take part. -/
  mode : AggregatorMode
  /-- The attached modifiers, in order of attachment. -/
  modifiers : List (ActiveModifier Float32)
  /-- The committed value may be stale. -/
  dirty : Bool
  /-- The hooks that writes ask. -/
  hooks : Subscribers Hook
  /-- The observers, each by the entity that it reports for. -/
  observers : Subscribers EntityId
  deriving Inhabited

namespace Attribute

/-- A value within optional bounds: raised to the lower one, then lowered to the upper one. -/
def clampTo (min max : Option Float32) (value : Float32) : Float32 :=
  let raised := match min with
    | some bound => Number.larger value bound
    | none => value
  match max with
  | some bound => Number.smaller raised bound
  | none => raised

/-- An attribute without modifiers whose values start at the clamped value. -/
def create (id : AttributeId) (value : Float32) (min max : Option Float32) (mode : AggregatorMode)
    (isMeta : Bool) : Attribute :=
  let start := clampTo min max value
  ⟨id, start, start, min, max, isMeta, mode, [], false, .empty, .empty⟩

/-- A value within the attribute's bounds. -/
def clamp (attr : Attribute) (value : Float32) : Float32 :=
  clampTo attr.min attr.max value

/-- The current value as base and modifiers make it. -/
def computed (attr : Attribute) : Float32 :=
  attr.clamp (aggregate attr.base attr.modifiers attr.mode)

/-- The current value: the committed one, or the computed one while that may be stale. -/
def currentValue (attr : Attribute) : Float32 :=
  if attr.dirty then attr.computed else attr.current

/-- What the observers hear of a change. -/
def announce (attr : Attribute) (kind : ValueKind) (old new : Float32) :
    List AttributeSignal :=
  attr.observers.listeners.map fun observer => .changed observer ⟨attr.id, kind, old, new⟩

/-- Asks hooks in turn about a proposed value: the value that remains, if none vetoes, and the
signals of those that were asked. -/
def consult (id : AttributeId) (kind : ValueKind) (old : Float32) :
    List Hook → Float32 → Option Float32 × List AttributeSignal
  | [], proposed => (some proposed, [])
  | hook :: rest, proposed =>
    let change := ⟨id, kind, old, proposed⟩
    let asked := AttributeSignal.asked hook.name change
    match hook.judge change with
    | .veto => (none, [asked])
    | .accept =>
      let (value, signals) := consult id kind old rest proposed
      (value, asked :: signals)
    | .replace value =>
      let (value, signals) := consult id kind old rest value
      (value, asked :: signals)

/-- Commits the computed value. -/
def recalculate (attr : Attribute) : Attribute × List AttributeSignal :=
  let value := attr.computed
  ({ attr with current := value, dirty := false },
    attr.announce .current attr.current value)

/-- Writes the base value and commits the current one; tells whether no hook vetoed. -/
def setBase (attr : Attribute) (value : Float32) :
    Bool × Attribute × List AttributeSignal :=
  match consult attr.id .base attr.base attr.hooks.listeners value with
  | (none, asked) => (false, attr, asked)
  | (some proposed, asked) =>
    let written := { attr with base := attr.clamp proposed }
    let (committed, signals) := written.recalculate
    (true, committed, asked ++ signals ++ committed.announce .base attr.base committed.base)

/-- Writes the current value until the next commit; tells whether no hook vetoed. -/
def setCurrent (attr : Attribute) (value : Float32) :
    Bool × Attribute × List AttributeSignal :=
  match consult attr.id .current attr.current attr.hooks.listeners value with
  | (none, asked) => (false, attr, asked)
  | (some proposed, asked) =>
    let written := { attr with current := attr.clamp proposed }
    (true, written, asked ++ written.announce .current attr.current written.current)

/-- Attaches a modifier. -/
def attach (attr : Attribute) (active : ActiveModifier Float32) : Attribute :=
  { attr with modifiers := attr.modifiers ++ [active], dirty := true }

/-- Detaches every modifier of a source, and counts them. -/
def detach (attr : Attribute) (source : SourceId) : Nat × Attribute :=
  let kept := attr.modifiers.filter fun active => active.source != source
  let removed := attr.modifiers.length - kept.length
  (removed, { attr with modifiers := kept, dirty := attr.dirty || removed != 0 })

/-- Tells the modifiers of a source its new stack count. -/
def setStacks (attr : Attribute) (source : SourceId) (stackCount : Nat) : Attribute :=
  let affected := attr.modifiers.any fun active =>
    active.source == source && active.stackCount != stackCount
  { attr with
    modifiers := attr.modifiers.map fun active =>
      if active.source == source then { active with stackCount } else active
    dirty := attr.dirty || affected }

/-- Replaces the magnitude of a source's modifier in one slot. -/
def setMagnitude (attr : Attribute) (source : SourceId) (slot : Nat) (magnitude : Float32) :
    Attribute :=
  let matching := fun (active : ActiveModifier Float32) =>
    active.source == source && active.slot == slot
  let affected := attr.modifiers.any fun active =>
    matching active && active.magnitude.toBits != magnitude.toBits
  { attr with
    modifiers := attr.modifiers.map fun active =>
      if matching active then { active with magnitude := magnitude } else active
    dirty := attr.dirty || affected }

/-- Adds a hook behind the others. -/
def addHook (attr : Attribute) (hook : Hook) : SubscriptionId × Attribute :=
  let (id, hooks) := attr.hooks.subscribe hook
  (id, { attr with hooks })

/-- Drops a hook, and tells whether it was there. -/
def removeHook (attr : Attribute) (id : SubscriptionId) : Bool × Attribute :=
  (attr.hooks.subscribed id, { attr with hooks := attr.hooks.unsubscribe id })

/-- Adds an observer that reports for an entity. -/
def observe (attr : Attribute) (observer : EntityId) : SubscriptionId × Attribute :=
  let (id, observers) := attr.observers.subscribe observer
  (id, { attr with observers })

/-- Drops an observer, and tells whether it was there. -/
def unobserve (attr : Attribute) (id : SubscriptionId) : Bool × Attribute :=
  (attr.observers.subscribed id,
    { attr with observers := attr.observers.unsubscribe id })

/-- Drops every hook and observer. -/
def clearCallbacks (attr : Attribute) : Attribute :=
  { attr with hooks := attr.hooks.clear, observers := attr.observers.clear }

end Attribute

end SkillEngine
