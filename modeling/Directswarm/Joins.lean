import Mathlib.Data.Multiset.Lattice
import Mathlib.Order.WithBot
import Mathlib.Order.Lattice

/-!
Stores that are merged into. A store is looked at through a view in a semilattice,
and to take an item in is to join its part to the view; then what a list of items
makes of the store is the join of their parts (`view_foldl`), whatever their order
and however often they come (`view_foldl_same`). A map is joined key by key, an
`entry` being the smallest map that has something under its key.
-/
namespace Directswarm.Joins

universe u v w

section Views
variable {S : Type u} {A : Type v} {L : Type w} [SemilatticeSup L] [OrderBot L]
variable {take : S → A → S} {view : S → L} {part : A → L}

theorem view_foldl (joins : ∀ s a, view (take s a) = view s ⊔ part a) (s : S) (items : List A) :
    view (items.foldl take s) = view s ⊔ (Multiset.map part items).sup := by
  induction items generalizing s with
  | nil => simp
  | cons a rest ih =>
    have parts : Multiset.map part ((a :: rest : List A) : Multiset A) = part a ::ₘ Multiset.map part (rest : Multiset A) := by
      rw [← Multiset.cons_coe,Multiset.map_cons]
    calc view (rest.foldl take (take s a))
        = view s ⊔ part a ⊔ (Multiset.map part rest).sup := by rw [ih,joins]
      _ = view s ⊔ (Multiset.map part ((a :: rest : List A) : Multiset A)).sup := by
          rw [parts,Multiset.sup_cons,sup_assoc]

/-- Lists of the same items make the same of a store. -/
theorem view_foldl_same (joins : ∀ s a, view (take s a) = view s ⊔ part a) (s : S) {items others : List A}
    (inside : items ⊆ others) (back : others ⊆ items) : view (items.foldl take s) = view (others.foldl take s) := by
  have same : (Multiset.map part items).sup = (Multiset.map part others).sup := by
    apply le_antisymm
    · exact Multiset.sup_mono (Multiset.map_subset_map (Multiset.coe_subset.mpr inside))
    · exact Multiset.sup_mono (Multiset.map_subset_map (Multiset.coe_subset.mpr back))
  rw [view_foldl joins,view_foldl joins,same]

end Views

section Keyed
variable {K : Type u} {L : Type v} [DecidableEq K] [SemilatticeSup L]

/-- Something under one key. -/
def entry (k : K) (x : L) : K → WithBot L := Function.update ⊥ k x

theorem sup_entry_self (m : K → WithBot L) (k : K) (x : L) : (m ⊔ entry k x) k = m k ⊔ x := by
  rw [Pi.sup_apply,entry,Function.update_self]

theorem sup_entry_ne (m : K → WithBot L) {k other : K} (differ : other ≠ k) (x : L) :
    (m ⊔ entry k x) other = m other := by
  rw [Pi.sup_apply,entry,Function.update_of_ne differ,Pi.bot_apply,sup_bot_eq]

end Keyed

end Directswarm.Joins
