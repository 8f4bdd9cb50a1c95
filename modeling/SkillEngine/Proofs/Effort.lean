import Mathlib.Algebra.Order.BigOperators.Group.Finset
import Mathlib.Data.Finsupp.Lex
import Mathlib.Data.Finsupp.WellFounded

/-!
# Amounts of work

An amount of work tells how many pieces of each level there are. Of two amounts the larger is the
one that has more pieces of the highest level in which they differ. So one piece is worth more than
any number of pieces of lower levels, and yet no amount can shrink for ever.
-/

namespace SkillEngine

/-- How many pieces of work of each level there are, ordered by the highest level that differs. -/
abbrev Effort := Colex (ℕ →₀ ℕ)

namespace Effort

/-- Some pieces of work of one level. -/
noncomputable def pieces (level count : ℕ) : Effort := toColex (Finsupp.single level count)

/-- Every piece is of a level below one. -/
def Below (level : ℕ) (effort : Effort) : Prop := ∀ other, level ≤ other → ofColex effort other = 0

variable {level other : ℕ} {effort more : Effort}

/-- Pieces of one level are counted together. -/
theorem pieces_add (level first second : ℕ) :
    pieces level (first + second) = pieces level first + pieces level second :=
  congrArg toColex (Finsupp.single_add level first second)

/-- No work is below every level. -/
theorem below_zero (level : ℕ) : Below level 0 := fun _ _ => rfl

/-- Pieces of a lower level are below. -/
theorem below_pieces (lower : other < level) (count : ℕ) : Below level (pieces other count) := by
  intro place above
  have differs : other ≠ place := by omega
  exact Finsupp.single_eq_of_ne differs.symm

/-- What is below is so together. -/
theorem Below.add (first : Below level effort) (second : Below level more) :
    Below level (effort + more) := by
  intro place above
  have none : ofColex effort place + ofColex more place = 0 := by
    rw [first place above, second place above]
  exact none

/-- What is below a level is below every higher one. -/
theorem Below.mono (below : Below level effort) (higher : level ≤ other) : Below other effort :=
  fun place above => below place (higher.trans above)

/-- A list of amounts below a level is so together. -/
theorem below_sum {efforts : List Effort} (below : ∀ effort ∈ efforts, Below level effort) :
    Below level efforts.sum := by
  induction efforts with
  | nil => exact below_zero level
  | cons effort rest ih =>
    rw [List.sum_cons]
    exact (below effort List.mem_cons_self).add
      (ih fun later member => below later (List.mem_cons_of_mem _ member))

/-- Finitely many amounts below a level are so together. -/
theorem below_finset_sum {ι : Type} {items : Finset ι} {amount : ι → Effort}
    (below : ∀ item ∈ items, Below level (amount item)) :
    Below level (∑ item ∈ items, amount item) :=
  Finset.sum_induction amount (Below level) (fun _ _ first second => first.add second)
    (below_zero level) below

/-- One piece is worth more than everything below its level. -/
theorem Below.lt_pieces (below : Below level effort) : effort < pieces level 1 := by
  refine Finsupp.Colex.lt_iff.2 ⟨level, fun place above => ?_, ?_⟩
  · rw [below place above.le]
    exact (Finsupp.single_eq_of_ne above.ne').symm
  · rw [below level le_rfl]
    have one : ofColex (pieces level 1) level = 1 := Finsupp.single_eq_same
    rw [one]
    exact Nat.one_pos

/-- One piece more is worth more than everything below its level. -/
theorem Below.add_lt_pieces (below : Below level effort) (count : ℕ) :
    effort + pieces level count < pieces level (count + 1) := by
  rw [Nat.add_comm count 1, pieces_add]
  exact add_lt_add_left below.lt_pieces _

/-- No pieces are no work. -/
theorem pieces_zero (level : ℕ) : pieces level 0 = 0 := congrArg toColex (Finsupp.single_zero level)

/-- More pieces of a level are worth at least as much. -/
theorem pieces_le_pieces (level : ℕ) {few many : ℕ} (fewer : few ≤ many) :
    pieces level few ≤ pieces level many := by
  obtain ⟨more, rfl⟩ := Nat.exists_eq_add_of_le fewer
  rw [pieces_add]
  exact le_add_of_nonneg_right zero_le

/-- Pieces of a higher level are worth at least as much. -/
theorem pieces_mono (higher : level ≤ other) (count : ℕ) :
    pieces level (count + 1) ≤ pieces other (count + 1) := by
  rcases higher.lt_or_eq with lower | rfl
  · have less := (below_pieces lower (count + 1)).add_lt_pieces count
    exact (le_add_of_nonneg_right zero_le).trans less.le
  · exact le_rfl

end Effort

end SkillEngine
