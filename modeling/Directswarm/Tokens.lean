import Mathlib.Algebra.BigOperators.Group.Finset.Piecewise
import Mathlib.Algebra.Order.BigOperators.Group.Finset
import Mathlib.Data.Fintype.Basic

/-!
Items that move between places. A marking says how many copies of an item lie at
each place, and a step moves some of them from one place to another. The copies of
an item are conserved (`sum_moved`), so an item that exists is somewhere
(`exists_of_sum`).
-/
namespace Directswarm.Tokens

universe u v
variable {A : Type u} {P : Type v} [DecidableEq A] [DecidableEq P]

abbrev Marking (A : Type u) (P : Type v) := A → P → Nat

/-- Some items move from a place to another. -/
def Moved (before after : Marking A P) (items : List A) (p q : P) : Prop :=
  ∀ a x, after a x + (if x = p then items.count a else 0) = before a x + (if x = q then items.count a else 0)

variable {before after : Marking A P} {items : List A} {p q : P}

theorem moved_nothing (same : ∀ a x, after a x = before a x) (p q : P) : Moved before after [] p q := by
  intro a x
  simp [same a x]

theorem moved_source (moved : Moved before after items p q) (differ : p ≠ q) (a : A) :
    after a p + items.count a = before a p := by
  simpa [differ] using moved a p

theorem moved_target (moved : Moved before after items p q) (differ : p ≠ q) (a : A) :
    after a q = before a q + items.count a := by
  simpa [differ.symm] using moved a q

/-- What is at a place was there, or has come. -/
theorem moved_gain (moved : Moved before after items p q) {a : A} {x : P} (there : 0 < after a x) :
    0 < before a x ∨ x = q ∧ a ∈ items := by
  have here := moved a x
  by_cases target : x = q
  · by_cases member : a ∈ items
    · exact .inr ⟨target,member⟩
    · rw [List.count_eq_zero_of_not_mem member] at here
      simp only [ite_self] at here
      exact .inl (by omega)
  · rw [if_neg target] at here
    exact .inl (by omega)

/-- What a place may gain. -/
theorem le_moved (moved : Moved before after items p q) {x : P} (source : x ≠ p) (a : A) : before a x ≤ after a x := by
  have here := moved a x
  rw [if_neg source] at here
  omega

variable [Fintype P]

/-- Nothing is lost and nothing is gained. -/
theorem sum_moved (moved : Moved before after items p q) (a : A) : ∑ x, after a x = ∑ x, before a x := by
  have both : ∑ x, (after a x + if x = p then items.count a else 0) =
      ∑ x, (before a x + if x = q then items.count a else 0) := Finset.sum_congr rfl fun x _ => moved a x
  simpa [Finset.sum_add_distrib] using both

omit [DecidableEq A] [DecidableEq P] in
/-- An item that exists is somewhere. -/
theorem exists_of_sum {m : Marking A P} {a : A} (there : 0 < ∑ x, m a x) : ∃ x, 0 < m a x := by
  obtain ⟨x,-,positive⟩ := Finset.exists_ne_zero_of_sum_ne_zero there.ne'
  exact ⟨x,Nat.pos_of_ne_zero positive⟩

end Directswarm.Tokens
