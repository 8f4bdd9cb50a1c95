import SkillEngine.Attribute.Basic

/-!
# Standard hooks

Rules by which a hook judges a proposed change. A hook may be limited to one of the two values of an
attribute; a change of the other it accepts.
-/

namespace SkillEngine

/-- How a standard hook judges a change. -/
inductive HookRule where
  /-- It drops every write. -/
  | veto
  /-- It drops writes below a bound. -/
  | vetoBelow (bound : Float32)
  /-- It writes another value instead. -/
  | replace (value : Float32)
  /-- It multiplies the value. -/
  | scale (factor : Float32)
  /-- It lets half of the change through. -/
  | halveDelta
  /-- It lets every write through. -/
  | accept

/-- The verdict of a rule. -/
def HookRule.judge (rule : HookRule) (change : AttributeChange Float32) : Verdict :=
  match rule with
  | .veto => .veto
  | .vetoBelow bound => if change.new < bound then .veto else .accept
  | .replace value => .replace value
  | .scale factor => .replace (change.new * factor)
  | .halveDelta => .replace (change.old + (change.new - change.old) * Float32.ofBits 0x3f000000)
  | .accept => .accept

/-- A hook that reports under a name and follows a rule, for one value of the attribute or for
both. -/
def Hook.ofRule (name : String) (rule : HookRule) (only : Option ValueKind) : Hook where
  name := name
  judge change :=
    match only with
    | none => rule.judge change
    | some kind => if change.kind = kind then rule.judge change else .accept

end SkillEngine
