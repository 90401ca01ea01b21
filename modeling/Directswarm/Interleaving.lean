import Mathlib.Data.List.Basic
import Mathlib.Algebra.BigOperators.Group.List.Basic
import Mathlib.Algebra.Order.Ring.Nat
import Directswarm.Runs

/-!
Systems of many parties: one shared part, and a list of local parts of which each
step moves one. What such a step does to a sum over the parties is said once
(`total_set`, `total_append`), and so is what it does to a property of every
party (`forall_set`).
-/
namespace Directswarm.Interleaving
open Directswarm.Runs

universe u v w
variable {S : Type u} {L : Type v} {A : Type w}

/-- A shared part and the parties around it. -/
structure Shared (S : Type u) (L : Type v) where
  common : S
  parties : List L

/-- The step of the party at a position. -/
def stepAt (one : S → L → A → Option (S × L)) (sys : Shared S L) (i : Nat) (a : A) : Option (Shared S L) :=
  match sys.parties[i]? with
  | none => none
  | some l => (one sys.common l a).map fun moved => ⟨moved.1,sys.parties.set i moved.2⟩

theorem stepAt_some {one : S → L → A → Option (S × L)} {sys next : Shared S L} {i : Nat} {a : A} :
    stepAt one sys i a = some next ↔
      ∃ l s' l', sys.parties[i]? = some l ∧ one sys.common l a = some (s',l') ∧
        next = ⟨s',sys.parties.set i l'⟩ := by
  unfold stepAt
  cases found : sys.parties[i]? with
  | none => simp
  | some l =>
    simp only [Option.map_eq_some_iff,Option.some.injEq,Prod.exists]
    constructor
    · rintro ⟨s',l',moved,rfl⟩; exact ⟨l,s',l',rfl,moved,rfl⟩
    · rintro ⟨_,s',l',rfl,moved,rfl⟩; exact ⟨s',l',moved,rfl⟩

/-- What one party can reach alone, the system can, when its condition allows each
    of the actions whatever that party and the shared part have become. -/
theorem leads_party {one : S → L → A → Option (S × L)} {B : Type w} {step : Shared S L → B → Option (Shared S L)}
    {condition : Shared S L → B → Prop} {wrap : A → B} {i : Nat} (agrees : ∀ sys a, step sys (wrap a) = stepAt one sys i a) :
    ∀ {acts : List A} {sys : Shared S L} {l l' : L} {s' : S}, sys.parties[i]? = some l →
      (∀ s m, ∀ a ∈ acts, condition ⟨s,sys.parties.set i m⟩ (wrap a)) →
      run (fun state a => one state.1 state.2 a) (sys.common,l) acts = some (s',l') →
      Leads step condition sys ⟨s',sys.parties.set i l'⟩ := by
  intro acts
  induction acts with
  | nil =>
    intro sys l l' s' found _ reached
    cases reached
    obtain ⟨inside,rfl⟩ := List.getElem?_eq_some_iff.mp found
    rw [List.set_getElem_self]
    exact leads_refl sys
  | cons a rest ih =>
    intro sys l l' s' found allowed reached
    obtain ⟨⟨s,moved⟩,taken,onward⟩ := run_cons_some.mp reached
    obtain ⟨inside,here⟩ := List.getElem?_eq_some_iff.mp found
    have now : condition sys (wrap a) := by
      have this_ := allowed sys.common l a List.mem_cons_self
      rwa [← here,List.set_getElem_self] at this_
    refine leads_cons (wrap a) now (by rw [agrees,stepAt_some]; exact ⟨l,s,moved,found,taken,rfl⟩) ?_
    have there : (sys.parties.set i moved)[i]? = some moved := by simp [inside]
    have later := @ih ⟨s,sys.parties.set i moved⟩ moved l' s' there
      (fun t m b member => by simpa using allowed t m b (List.mem_cons_of_mem _ member)) onward
    simpa using later

/-- What happens as one party sees it: it moves, or the others leave the shared
    part in some state. -/
inductive Seen (S : Type u) (A : Type w)
  | own (a : A)
  | others (s : S)

/-- One party in a world that does what it likes with the shared part. -/
def seenStep (one : S → L → A → Option (S × L)) (state : S × L) : Seen S A → Option (S × L)
  | .own a => one state.1 state.2 a
  | .others s => some (s,state.2)

/-- The sum of a measure over the parties. -/
def total (f : L → Nat) (parties : List L) : Nat := (parties.map f).sum

@[simp] theorem total_nil (f : L → Nat) : total f [] = 0 := rfl
@[simp] theorem total_cons (f : L → Nat) (l : L) (rest : List L) :
    total f (l :: rest) = f l + total f rest := by simp [total]
@[simp] theorem total_append (f : L → Nat) (left right : List L) :
    total f (left ++ right) = total f left + total f right := by simp [total]

/-- Moving one party changes a sum by what it changes at that party. -/
theorem total_set (f : L → Nat) {parties : List L} {i : Nat} {l : L} (l' : L) (found : parties[i]? = some l) :
    total f (parties.set i l') + f l = total f parties + f l' := by
  induction parties generalizing i with
  | nil => simp at found
  | cons head rest ih =>
    cases i with
    | zero =>
      have same : head = l := by simpa using found
      simp only [List.set_cons_zero,total_cons,same]; omega
    | succ i =>
      have later := ih (i := i) (by simpa using found)
      simp only [List.set_cons_succ,total_cons]; omega

/-- A party that leaves takes its share out of a sum. -/
theorem total_eraseIdx (f : L → Nat) {parties : List L} {k : Nat} {l : L} (found : parties[k]? = some l) :
    total f (parties.eraseIdx k) + f l = total f parties := by
  induction parties generalizing k with
  | nil => simp at found
  | cons head rest ih =>
    cases k with
    | zero =>
      have same : head = l := by simpa using found
      rw [List.eraseIdx_cons_zero,total_cons,same]
      omega
    | succ k =>
      have later := ih (k := k) (by simpa using found)
      rw [List.eraseIdx_cons_succ,total_cons,total_cons]
      omega

/-- Each party's share is at most the sum. -/
theorem le_total (f : L → Nat) {parties : List L} {l : L} (member : l ∈ parties) : f l ≤ total f parties := by
  induction parties with
  | nil => simp at member
  | cons head rest ih =>
    rw [total_cons]
    rcases List.mem_cons.mp member with rfl | later
    · omega
    · have := ih later; omega

theorem total_mono {f g : L → Nat} {parties : List L} (le : ∀ l ∈ parties, f l ≤ g l) :
    total f parties ≤ total g parties := by
  induction parties with
  | nil => simp
  | cons head rest ih =>
    have first := le head List.mem_cons_self
    have later := ih fun l member => le l (List.mem_cons_of_mem _ member)
    simp only [total_cons]; omega

/-- A sum of shares of at most `bound` is at most `bound` for each party. -/
theorem total_le_mul {f : L → Nat} {bound : Nat} {parties : List L} (le : ∀ l ∈ parties, f l ≤ bound) :
    total f parties ≤ parties.length * bound := by
  induction parties with
  | nil => simp
  | cons head rest ih =>
    have first := le head List.mem_cons_self
    have later := ih fun l member => le l (List.mem_cons_of_mem _ member)
    simp only [total_cons,List.length_cons,Nat.add_mul]; omega

theorem mem_of_found {parties : List L} {i : Nat} {l : L} (found : parties[i]? = some l) : l ∈ parties :=
  List.mem_of_getElem? found

/-- A property of every party survives the move of one to a state that has it. -/
theorem forall_set {P : L → Prop} {parties : List L} {i : Nat} {l' : L} (all : ∀ l ∈ parties, P l) (moved : P l') :
    ∀ l ∈ parties.set i l', P l := by
  intro l member
  rcases List.mem_or_eq_of_mem_set member with old | rfl
  · exact all l old
  · exact moved

theorem forall_append {P : L → Prop} {parties : List L} {fresh : L} (all : ∀ l ∈ parties, P l) (new : P fresh) :
    ∀ l ∈ parties ++ [fresh], P l := by
  intro l member
  rcases List.mem_append.mp member with old | same
  · exact all l old
  · rw [List.mem_singleton.mp same]; exact new

/-- A party is still there after a move, unless it is the one that moved. -/
theorem mem_set_or_moved {parties : List L} {i : Nat} {l old : L} (l' : L) (member : l ∈ parties)
    (found : parties[i]? = some old) : l = old ∨ l ∈ parties.set i l' := by
  obtain ⟨j,there⟩ := List.mem_iff_getElem?.mp member
  by_cases same : i = j
  · subst same; exact .inl (Option.some.inj (there.symm.trans found))
  · refine .inr (List.mem_iff_getElem?.mpr ⟨j,?_⟩)
    rw [List.getElem?_set_ne same,there]

/-- The party that moved is there. -/
theorem mem_set_moved {parties : List L} {i : Nat} {old : L} (l' : L) (found : parties[i]? = some old) :
    l' ∈ parties.set i l' := by
  have inside : i < parties.length := (List.getElem?_eq_some_iff.mp found).1
  exact List.mem_iff_getElem?.mpr ⟨i,by simp [inside]⟩

/-- The other parties stay where they were. -/
theorem getElem?_set_other {parties : List L} {i j : Nat} {l' : L} (other : i ≠ j) :
    (parties.set i l')[j]? = parties[j]? := List.getElem?_set_ne other

theorem getElem?_set_moved {parties : List L} {i : Nat} {l l' : L} (found : parties[i]? = some l) :
    (parties.set i l')[i]? = some l' := by
  have inside : i < parties.length := (List.getElem?_eq_some_iff.mp found).1
  simp [inside]

end Directswarm.Interleaving
