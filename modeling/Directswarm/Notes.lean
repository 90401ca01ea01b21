import Mathlib
import Directswarm.Interleaving

/-!
Notes on a run that no step reads: they are kept beside the run, whose steps are those
that it would take without them (`noted_some`). Notes on each party of a system are a
list that goes in step with the parties.
-/
namespace Directswarm.Notes
open Directswarm.Runs Directswarm.Interleaving

universe u v w
variable {S : Type u} {A : Type v} {N : Type w}

/-- A step, and what is noted of it. -/
def noted (step : S → A → Option S) (note : S → A → S → N → N) (st : S × N) (a : A) : Option (S × N) :=
  (step st.1 a).map fun next => (next,note st.1 a next st.2)

section Runs
variable {step : S → A → Option S} {note : S → A → S → N → N}

theorem noted_some {st next : S × N} {a : A} : noted step note st a = some next ↔
    step st.1 a = some next.1 ∧ next.2 = note st.1 a next.1 st.2 := by
  unfold noted
  rw [Option.map_eq_some_iff]
  constructor
  · rintro ⟨s,taken,rfl⟩
    exact ⟨taken,rfl⟩
  · rintro ⟨taken,same⟩
    exact ⟨next.1,taken,by rw [← same]⟩

end Runs

/-! ### A list in step with the parties -/

section Lists
variable {L : Type u} {R R' : L → N → Prop}

/-- One party moves, its notes with it, and the others keep what they had. -/
theorem forall₂_modify (note : N → N) (l' : L) {parties : List L} {notes : List N} (all : List.Forall₂ R parties notes) {i : Nat}
    {l : L} (found : parties[i]? = some l) (moved : ∀ n, R l n → R' l' (note n)) (others : ∀ l n, R l n → R' l n) :
    List.Forall₂ R' (parties.set i l') (notes.modify i note) := by
  induction all generalizing i with
  | nil => simp at found
  | @cons head n rest ns first later ih =>
    cases i with
    | zero =>
      have same : head = l := by simpa using found
      exact .cons (moved n (same ▸ first)) (later.imp others)
    | succ i => exact .cons (others head n first) (ih (by simpa using found))

theorem forall₂_append {parties : List L} {notes : List N} {l : L} {n : N} (all : List.Forall₂ R parties notes) (new : R l n) :
    List.Forall₂ R (parties ++ [l]) (notes ++ [n]) :=
  List.rel_append all (.cons new .nil)

/-- What each party is within the notes on it, all are in sum. -/
theorem total_le_notes {f : L → Nat} {g : N → Nat} {parties : List L} {notes : List N}
    (all : List.Forall₂ (fun l n => g n ≤ f l) parties notes) : total g notes ≤ total f parties := by
  induction all with
  | nil => exact le_rfl
  | cons first later ih =>
    rw [total_cons,total_cons]
    omega

end Lists

end Directswarm.Notes
