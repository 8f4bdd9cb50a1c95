import SkillEngine.Proofs.Enrolment

/-!
# What a magnitude depends on

A formula reads the variables that its tree lists, and each of them stands for the stack count, for
the context of the effect, or for an attribute of the caster or of the target. A magnitude that
reads nothing of an entity is the same wherever the names of attributes are the same, and no frame
changes those.
-/

namespace SkillEngine

namespace Formula

namespace Expr

mutual

/-- The value of a tree depends on the variables that it reads. -/
theorem eval_congr {first second : String → Option Float32} :
    (tree : Expr) → (∀ name ∈ tree.reads, first name = second name) →
      tree.eval first = tree.eval second
  | .number _, _ => rfl
  | .variable name, agree => by
    rw [eval, eval, agree name List.mem_cons_self]
  | .neg inner, agree => by rw [eval, eval, eval_congr inner agree]
  | .binary op left right, agree => by
    rw [eval, eval, eval_congr left fun name read => agree name (List.mem_append_left _ read),
      eval_congr right fun name read => agree name (List.mem_append_right _ read)]
  | .call .min args, agree => by rw [eval, eval, evalEach_congr args agree]
  | .call .max args, agree => by rw [eval, eval, evalEach_congr args agree]
  | .call .abs [], _ => rfl
  | .call .abs (tree :: rest), agree => by
    -- Only the first argument counts.
    simp only [eval, evalEach, Function.apply]
    rw [eval_congr tree agree]

/-- The values of some trees depend on the variables that they read. -/
theorem evalEach_congr {first second : String → Option Float32} :
    (trees : List Expr) → (∀ name ∈ readsEach trees, first name = second name) →
      evalEach first trees = evalEach second trees
  | [], _ => rfl
  | tree :: rest, agree => by
    rw [evalEach, evalEach,
      eval_congr tree fun name read => agree name (List.mem_append_left _ read),
      evalEach_congr rest fun name read => agree name (List.mem_append_right _ read)]

end

end Expr

/-- The variables that a formula reads. -/
def Source.reads (source : Source) : List String :=
  match source.expr? with
  | some tree => tree.reads
  | none => []

/-- The value of a formula depends on the variables that it reads. -/
theorem Source.evaluate_congr {source : Source} {first second : String → Option Float32}
    (agree : ∀ name ∈ source.reads, first name = second name) :
    source.evaluate first = source.evaluate second := by
  unfold Source.evaluate
  unfold Source.reads at agree
  split
  · next tree parsed =>
    rw [parsed] at agree
    exact tree.eval_congr agree
  · rfl

end Formula

/-- The variable is in none of some scopes. -/
def Scene.isOutside (scopes : List String) (name : String) : Bool :=
  match Scene.splitAtDot name with
  | some (scope, _) => !scopes.contains scope
  | none => true

/-- The magnitude is no computed one, and reads no variable in some scopes. -/
def MagnitudeSource.avoids (source : MagnitudeSource) (scopes : List String) : Bool :=
  match source with
  | .fixed _ | .setByCaller _ => true
  | .formula source => source.reads.all (Scene.isOutside scopes)
  | .computed _ => false

/-- Two contexts give magnitudes the same: captured values, values passed on and the forced stack
count. -/
structure Context.Agrees (first second : Context) : Prop where
  /-- The captured values. -/
  snapshot : second.snapshot = first.snapshot
  /-- The values that nodes pass on. -/
  custom : second.custom = first.custom
  /-- The forced stack count. -/
  stackOverride : second.stackOverride = first.stackOverride

/-- A context agrees with itself. -/
theorem Context.Agrees.refl (context : Context) : context.Agrees context := ⟨rfl, rfl, rfl⟩

namespace Scene

variable {first second : Scene} {request other : MagnitudeRequest} {scopes : List String}

/-- A variable has the same value for two requests wherever they agree, the entities in some scopes
apart, if it is in none of these. -/
theorem valueOf?_congr (names : second.names = first.names)
    (context : request.context.Agrees other.context)
    (count : other.stackCount = request.stackCount)
    (caster : scopes.contains "caster" = true ∨
      ∀ key, second.attributeValue? other.caster key = first.attributeValue? request.caster key)
    (target : scopes.contains "target" = true ∨
      ∀ key, second.attributeValue? other.target key = first.attributeValue? request.target key)
    {name : String} (outside : isOutside scopes name = true) :
    second.valueOf? other name = first.valueOf? request name := by
  unfold isOutside at outside
  unfold valueOf?
  rw [count]
  split
  · rfl
  · split
    · next key placed =>
      rw [placed] at outside
      rcases caster with among | same
      · change (!scopes.contains "caster") = true at outside
        rw [among] at outside
        cases outside
      · exact same key
    · next key placed =>
      rw [placed] at outside
      rcases target with among | same
      · change (!scopes.contains "target") = true at outside
        rw [among] at outside
        cases outside
      · exact same key
    · unfold attributeId? Context.snapshotValue?
      rw [names, context.snapshot]
    · unfold Context.number? Context.get?
      rw [context.custom]
    · rfl

/-- So has a magnitude that reads no variable in these scopes. -/
theorem resolve_congr (names : second.names = first.names)
    (context : request.context.Agrees other.context)
    (count : other.stackCount = request.stackCount)
    (caster : scopes.contains "caster" = true ∨
      ∀ key, second.attributeValue? other.caster key = first.attributeValue? request.caster key)
    (target : scopes.contains "target" = true ∨
      ∀ key, second.attributeValue? other.target key = first.attributeValue? request.target key)
    {source : MagnitudeSource} (avoids : source.avoids scopes = true)
    (calculations others : Dict String Calculation) :
    second.resolve others source other = first.resolve calculations source request := by
  cases source with
  | fixed => rfl
  | formula source =>
    refine Formula.Source.evaluate_congr fun name read => ?_
    exact valueOf?_congr names context count caster target (List.all_eq_true.1 avoids name read)
  | computed => cases avoids
  | setByCaller key =>
    simp only [resolve, Context.number?, Context.get?]
    rw [context.custom]

end Scene

/-- The magnitude reads nothing of an entity: the stack count and the context of its effect
alone. -/
def MagnitudeSource.isOwn (source : MagnitudeSource) : Bool := source.avoids ["caster", "target"]

namespace World

variable {world after : World} {frame : Frame}

/-- Such a magnitude is the same for contexts that agree, wherever the names are the same. -/
theorem resolve_own (names : after.scene.names = world.scene.names) {source : MagnitudeSource}
    (own : source.isOwn = true) {before context : Context} (agrees : before.Agrees context)
    (target : EntityId) (count : Nat) :
    after.resolve source (.of context target count) =
      world.resolve source (.of before target count) := by
  refine Scene.resolve_congr names agrees ?_ (.inl (by decide)) (.inl (by decide)) own _ _
  unfold MagnitudeRequest.of
  rw [agrees.stackOverride]

end World

end SkillEngine
