import SkillEngine.Condition.Basic
import SkillEngine.Cue.Definition
import SkillEngine.Effect.Definition

/-!
# Nodes of a skill graph

A node is an effect, a task, a condition or a cue, with the selector of the entities that it acts
on. A connection leads from a port of one node to another node.
-/

namespace SkillEngine

/-- The region of a target search, around its origin. -/
inductive SearchShape where
  /-- A ball. -/
  | sphere (radius : Number.Single)
  /-- A box by half its extents. -/
  | box (x y z : Number.Single)
  /-- A cone. -/
  | cone (radius angleDegrees : Number.Single)
  deriving DecidableEq, Inhabited

/-- The static description of a task. -/
inductive TaskDef where
  /-- Asks the host for entities and runs a branch for each that passes the filters. -/
  | searchTargets (shape : SearchShape) (requireTags excludeTags : TagSet)
      (maxCount : Option UInt64) (excludeCaster : Bool)
  /-- Writes the value of a formula into the context. -/
  | setContextValue (key : String) (formula : Formula.Source)
  /-- Removes effects by asset tags from each target. -/
  | removeEffectsWithTags (tags : TagSet)
  /-- Gives loose tags to each target. -/
  | addLooseTags (tags : TagSet)
  /-- Takes loose tags from each target. -/
  | removeLooseTags (tags : TagSet)
  /-- Captures the caster's attributes anew. -/
  | captureSnapshot
  deriving Inhabited

/-- Which entities a node acts on. -/
inductive TargetSelector where
  /-- The one that started the activation. -/
  | caster
  /-- The main target. -/
  | mainTarget
  /-- The target handed down by the enclosing branch. -/
  | parentInput
  /-- Every explicit target. -/
  | allTargets
  /-- The handed-down target if there is one, else the main target. -/
  | parentInputOrMain
  deriving DecidableEq, Repr

instance : Inhabited TargetSelector := ⟨.parentInputOrMain⟩

/-- The broad kind of a node. -/
inductive NodeCategory where
  /-- Effects. -/
  | effect
  /-- Tasks. -/
  | task
  /-- Conditions. -/
  | condition
  /-- Cues. -/
  | cue
  deriving DecidableEq, Inhabited, Repr

/-- What a node does. -/
inductive NodeKind where
  /-- Applies an effect. -/
  | effect (definition : EffectDef)
  /-- Runs a task. -/
  | task (definition : TaskDef)
  /-- Branches on a condition. -/
  | condition (definition : ConditionDef)
  /-- Plays a cue. -/
  | cue (definition : CueDef)
  deriving Inhabited

/-- The category of a node kind. -/
def NodeKind.category : NodeKind → NodeCategory
  | .effect _ => .effect
  | .task _ => .task
  | .condition _ => .condition
  | .cue _ => .cue

/-- One node of a graph. -/
structure Node where
  /-- Its number. -/
  id : NodeId
  /-- What it does. -/
  kind : NodeKind
  /-- Its place in the editor, which the engine never reads. -/
  position : Number.Single × Number.Single := (.zero, .zero)
  /-- Which entities it acts on. -/
  target : TargetSelector := .parentInputOrMain
  deriving Inhabited

/-- The category of a node. -/
def Node.category (node : Node) : NodeCategory := node.kind.category

/-- A connection from a port of one node to an input of another. -/
structure Connection where
  /-- The node whose port it leaves. -/
  source : NodeId
  /-- The port that it leaves. -/
  sourcePort : String
  /-- The node that it leads to. -/
  target : NodeId
  /-- The input that it leads to. -/
  targetPort : String := "input"
  deriving DecidableEq, Inhabited

end SkillEngine
