import SkillEngine.Attribute.Table
import SkillEngine.Binary.Format
import SkillEngine.Effect.Instance
import SkillEngine.Graph.Skill

/-!
# Replies

Everything that a host asks for is answered by a reply: nothing, a plain value, a part of the
simulation as it stands, several replies, or a refusal with its cause. An `Outcome` is a reply with
what the request made of the thing asked, and what was told on the way.
-/

namespace SkillEngine

/-- Why a request is refused. -/
inductive Refusal where
  /-- The request cannot be understood. -/
  | malformed
  /-- A text is not the JSON form of what it should be. -/
  | json
  /-- Some bytes are not the binary form of what they should be. -/
  | binary (error : Binary.Error)
  /-- The engine does not accept it. -/
  | engine (error : EngineError)
  /-- A roll has no answer. -/
  | noAnswer
  /-- The steps set aside for it did not suffice. -/
  | unfinished

/-- The answer to a request. -/
inductive Reply where
  /-- Nothing to tell. -/
  | nothing
  /-- A truth value. -/
  | flag (value : Bool)
  /-- A whole number. -/
  | count (value : Nat)
  /-- A number. -/
  | number (value : Float32)
  /-- A text. -/
  | text (value : String)
  /-- Where an effect is found. -/
  | handle (handle : EffectHandle)
  /-- An attribute as it stands. -/
  | attr (attr : Attribute)
  /-- How an attribute aggregates. -/
  | mode (mode : AggregatorMode)
  /-- An effect as it stands. -/
  | effect (effect : Effect)
  /-- What an effect does. -/
  | definition (definition : EffectDef)
  /-- A context. -/
  | context (context : Context)
  /-- A node. -/
  | node (node : Node)
  /-- Several replies. -/
  | several (replies : List Reply)
  /-- A refusal. -/
  | refused (refusal : Refusal)

instance : Inhabited Reply := ⟨.nothing⟩

namespace Reply

/-- A value if there is one. -/
def optional {α : Type} (make : α → Reply) : Option α → Reply
  | some value => make value
  | none => .nothing

/-- A list of values. -/
def list {α : Type} (make : α → Reply) (values : List α) : Reply := .several (values.map make)

/-- The paths of some tags. -/
def paths (tags : List Tag) : Reply := list (fun tag => .text tag.path) tags

/-- The numbers of some effects. -/
def effectIds (ids : List EffectId) : Reply := list (fun id => .count id.raw) ids

end Reply

/-- What a request brings. -/
structure Outcome (σ ε : Type) where
  /-- The answer. -/
  reply : Reply
  /-- The thing asked, afterwards. -/
  state : σ
  /-- What was told on the way, in order. -/
  events : List ε := []

/-- The outcome of a request that may have been refused before it was made. -/
def Outcome.unlessRefused {ρ σ ε : Type} (request : Except Refusal ρ) (state : σ)
    (perform : ρ → Outcome σ ε) : Outcome σ ε :=
  match request with
  | .ok request => perform request
  | .error refusal => ⟨.refused refusal, state, []⟩

end SkillEngine
