import SkillEngine.Dict
import SkillEngine.Graph.Node
import SkillEngine.Ident

/-!
# Execution contexts

A context travels down a skill with every walk: who started it, on whom it acts, the captured
attribute values and the values that nodes pass on. A branch works on its own copy, so nothing that
it writes is seen by its siblings.
-/

namespace SkillEngine

/-- A value that nodes pass on. -/
inductive ContextValue (S : Type) where
  /-- A number. -/
  | number (value : S)
  /-- An entity. -/
  | entity (id : EntityId)
  /-- A flag. -/
  | flag (value : Bool)
  /-- A text. -/
  | text (value : String)
  deriving BEq, Inhabited

namespace ContextValue

variable {S : Type}

/-- The number, if it is one. -/
def number? : ContextValue S → Option S
  | .number value => some value
  | _ => none

/-- The entity, if it is one. -/
def entity? : ContextValue S → Option EntityId
  | .entity id => some id
  | _ => none

/-- The flag, if it is one. -/
def flag? : ContextValue S → Option Bool
  | .flag value => some value
  | _ => none

/-- The text, if it is one. -/
def text? : ContextValue S → Option String
  | .text value => some value
  | _ => none

end ContextValue

/-- The data of one walk through a skill. -/
structure Context where
  /-- Who started it. -/
  caster : EntityId
  /-- The explicit targets. -/
  targets : List EntityId := []
  /-- The main target. -/
  mainTarget : Option EntityId := none
  /-- The target handed down by the enclosing branch. -/
  parentInput : Option EntityId := none
  /-- The captured attribute values. -/
  snapshot : Dict AttributeId Float32 := .empty
  /-- The values that nodes pass on. -/
  custom : Dict String (ContextValue Float32) := .empty
  /-- The stack count that formulas see instead of the real one. -/
  stackOverride : Option UInt32 := none
  /-- The effect whose port is being walked; it owns the cues started below. -/
  owner : Option EffectHandle := none
  /-- The number of hops from the start. -/
  depth : UInt32 := 0
  deriving Inhabited

namespace Context

/-- A fresh context. -/
def ofCaster (caster : EntityId) : Context := { caster }

/-- The context with a main target, which joins the explicit targets. -/
def withTarget (context : Context) (target : EntityId) : Context :=
  { context with
    mainTarget := some target
    targets := if context.targets.contains target then context.targets
      else context.targets ++ [target] }

/-- The context with a value written. -/
def set (context : Context) (key : String) (value : ContextValue Float32) : Context :=
  { context with custom := context.custom.insert key value }

/-- The value under a key. -/
def get? (context : Context) (key : String) : Option (ContextValue Float32) :=
  context.custom.get? key

/-- The number under a key. -/
def number? (context : Context) (key : String) : Option Float32 :=
  (context.get? key).bind ContextValue.number?

/-- The flag under a key; anything else there reads as `false`. -/
def flag (context : Context) (key : String) : Bool :=
  ((context.get? key).bind ContextValue.flag?).getD false

/-- The captured value of an attribute. -/
def snapshotValue? (context : Context) (attr : AttributeId) : Option Float32 :=
  context.snapshot.get? attr

/-- The copy for a node one hop further. -/
def descend (context : Context) : Context := { context with depth := context.depth + 1 }

/-- The copy for a branch that acts on a target. -/
def forParentInput (context : Context) (target : EntityId) : Context :=
  { context with parentInput := some target }

/-- The entities that a selector picks. -/
def resolve (context : Context) : TargetSelector → List EntityId
  | .caster => [context.caster]
  | .mainTarget => context.mainTarget.toList
  | .parentInput => context.parentInput.toList
  | .allTargets => context.targets
  | .parentInputOrMain => (context.parentInput.or context.mainTarget).toList

/-- The values that an edit of a context may write. -/
inductive Edit where
  /-- Sets the main target, which joins the explicit targets. -/
  | target (id : EntityId)
  /-- Replaces the explicit targets. -/
  | targets (ids : List EntityId)
  /-- Writes a value. -/
  | value (key : String) (value : ContextValue Float32)
  /-- Forces the stack count. -/
  | stackCount (count : UInt32)
  /-- Hands a target down. -/
  | parentInput (target : EntityId)
  /-- Names the owning effect. -/
  | owner (handle : EffectHandle)
  /-- Sets the number of hops. -/
  | depth (hops : UInt32)
  /-- Replaces the captured attribute values. -/
  | snapshot (values : Dict AttributeId Float32)

/-- The context after an edit. -/
def edit (context : Context) : Edit → Context
  | .target id => context.withTarget id
  | .targets ids => { context with targets := ids }
  | .value key value => context.set key value
  | .stackCount count => { context with stackOverride := some count }
  | .parentInput target => context.forParentInput target
  | .owner handle => { context with owner := some handle }
  | .depth hops => { context with depth := hops }
  | .snapshot values => { context with snapshot := values }

/-- The context after some edits in turn. -/
def editAll (context : Context) (edits : List Edit) : Context := edits.foldl edit context

/-- Contexts are equal when all their parts are; numbers are compared as numbers. -/
instance : BEq Context := ⟨fun left right =>
  left.caster == right.caster && left.targets == right.targets
    && left.mainTarget == right.mainTarget && left.parentInput == right.parentInput
    && left.snapshot.entries == right.snapshot.entries
    && left.custom.entries == right.custom.entries
    && left.stackOverride == right.stackOverride && left.owner == right.owner
    && left.depth == right.depth⟩

end Context

end SkillEngine
