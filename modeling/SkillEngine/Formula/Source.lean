import SkillEngine.Formula.Parser

/-!
# Formulas as authored

A definition holds a formula as text. The tree is made when it is first needed and kept from then
on; two sources are equal when their texts are.
-/

namespace SkillEngine.Formula

/-- The tree of a text, if it is a formula. -/
def tree? (text : String) : Option Expr := (parse text).toOption

/-- A formula's text, with its tree once it has been asked for. -/
structure Source where
  /-- The text as authored. -/
  text : String
  /-- The kept answer. -/
  kept : Option (Option Expr)
  /-- A kept answer is the text's. -/
  kept_eq : ∀ answer, kept = some answer → answer = tree? text

namespace Source

/-- A source that has not been read yet. -/
def ofText (text : String) : Source := ⟨text, none, fun _ impossible => nomatch impossible⟩

instance : Inhabited Source := ⟨ofText ""⟩

/-- Sources are equal when their texts are. -/
instance : BEq Source := ⟨fun left right => left.text == right.text⟩

/-- The tree has been made. -/
def isParsed (source : Source) : Bool := source.kept.isSome

/-- The tree, if the text is a formula. -/
def expr? (source : Source) : Option Expr :=
  match source.kept with
  | some answer => answer
  | none => tree? source.text

/-- The source with its tree kept. -/
def parsed (source : Source) : Source :=
  match source.kept with
  | some _ => source
  | none => ⟨source.text, some (tree? source.text), fun _ same => (Option.some.inj same).symm⟩

/-- The value of a source; malformed text is worth zero. -/
def evaluate (source : Source) (vars : String → Option Float32) : Float32 :=
  match source.expr? with
  | some tree => tree.eval vars
  | none => 0

end Source

end SkillEngine.Formula
