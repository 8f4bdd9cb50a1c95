import SkillEngine.World.Registry

/-!
# Magnitudes

A magnitude is resolved for one application: a constant is itself, a formula is evaluated over
caster, target, snapshot and context, a computed one is asked of the host, and one set by the
caller is read from the context. Whatever is missing reads as zero. A `Scene` is all that
magnitudes may depend on besides the request.
-/

namespace SkillEngine

/-- The registered entities and the configured attributes. -/
structure Scene where
  /-- The entities. -/
  registry : Registry
  /-- The configured attributes. -/
  table : AttributeTable
  /-- The attribute of each configured name. -/
  names : Dict String AttributeId
  deriving Inhabited

/-- What a magnitude is resolved for. -/
structure MagnitudeRequest where
  /-- Who applies. -/
  caster : EntityId
  /-- Whom it is applied to. -/
  target : EntityId
  /-- The context of the walk. -/
  context : Context
  /-- The stack count that formulas see. -/
  stackCount : Nat
  deriving Inhabited

/-- A request for a target; the context names the caster and may force the stack count. -/
def MagnitudeRequest.of (context : Context) (target : EntityId) (stackCount : Nat) :
    MagnitudeRequest :=
  ⟨context.caster, target, context,
    match context.stackOverride with
    | some forced => forced.toNat
    | none => stackCount⟩

/-- A magnitude that the host computes. -/
abbrev Calculation := Scene → MagnitudeRequest → Float32

namespace Scene

/-- The registered entity of a number. -/
def entity? (scene : Scene) (id : EntityId) : Option Entity := scene.registry.entity? id

/-- The attribute of a configured name. -/
def attributeId? (scene : Scene) (name : String) : Option AttributeId := scene.names.get? name

/-- The configured name of an attribute, or its display form. -/
def attributeName (scene : Scene) (id : AttributeId) : String :=
  match scene.table.get? id with
  | some row => row.name
  | none => id.display

/-- The current value of a named attribute of an entity. -/
def attributeValue? (scene : Scene) (entity : EntityId) (name : String) : Option Float32 := do
  let id ← scene.attributeId? name
  let entity ← scene.entity? entity
  let attr ← entity.attributes.get? id
  some attr.currentValue

/-- A text at its first dot: what comes before and what comes after. -/
def splitAtDot (name : String) : Option (String × String) :=
  match name.toList.dropWhile (· != '.') with
  | _ :: rest => some (String.ofList (name.toList.takeWhile (· != '.')), String.ofList rest)
  | [] => none

/-- The value of a formula variable: the stack count, or a name in one of four scopes. -/
def valueOf? (scene : Scene) (request : MagnitudeRequest) (name : String) : Option Float32 :=
  if name = "stack" then some (Number.Scalar.ofCount request.stackCount)
  else
    match splitAtDot name with
    | some ("caster", key) => scene.attributeValue? request.caster key
    | some ("target", key) => scene.attributeValue? request.target key
    | some ("snapshot", key) => (scene.attributeId? key).bind request.context.snapshotValue?
    | some ("ctx", key) => request.context.number? key
    | _ => none

/-- The value of a formula for a request. -/
def evaluateFormula (scene : Scene) (source : Formula.Source) (request : MagnitudeRequest) :
    Float32 :=
  source.evaluate (scene.valueOf? request)

/-- The value of a magnitude for a request. -/
def resolve (scene : Scene) (calculations : Dict String Calculation) (source : MagnitudeSource)
    (request : MagnitudeRequest) : Float32 :=
  match source with
  | .fixed value => value.value
  | .formula source => scene.evaluateFormula source request
  | .computed name =>
    match calculations.get? name with
    | some calculation => calculation scene request
    | none => 0
  | .setByCaller key => (request.context.number? key).getD 0

end Scene

namespace Calculation

/-- A multiple of the stack count. -/
def perStack (factor : Float32) : Calculation := fun _ request =>
  factor * Number.Scalar.ofCount request.stackCount

/-- A multiple of an attribute of an entity, zero for an unknown one. -/
def attributeOf (factor : Float32) (attr : AttributeId) (entity : MagnitudeRequest → EntityId) :
    Calculation := fun scene request =>
  factor * match scene.entity? (entity request) with
    | some entity => entity.attributes.currentValue attr
    | none => 0

/-- A number of the context, minus one without it. -/
def contextNumber (key : String) : Calculation := fun _ request =>
  (request.context.number? key).getD (-1)

/-- A multiple of a formula for the same request. -/
def formula (factor : Float32) (source : Formula.Source) : Calculation := fun scene request =>
  factor * scene.evaluateFormula source request

/-- A constant. -/
def constant (value : Float32) : Calculation := fun _ _ => value

end Calculation

end SkillEngine
