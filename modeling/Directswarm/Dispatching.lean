import Directswarm.Routing

/-!
`Dispatch` (`schedule.rs`): which member of which bucket is dialed next. The maps
are gone through in the order that the hash map happens to have, and a bucket is
read while others empty it, so `next` is given the order and what was read.
-/
namespace Directswarm.Dispatching
open Directswarm.Words Directswarm.Routing

variable {M A : Type}

structure Dispatch (M A : Type) where
  cands : AList fun _ : Nat => List (Member M A)
  used : AList fun _ : Nat => List (Member M A)
  recycles : AList fun _ : Nat => Nat
  activeRate : AList fun _ : Nat => Nat
  activeN : AList fun _ : Nat => Nat

def Dispatch.new (cands : AList fun _ : Nat => List (Member M A)) : Dispatch M A := ⟨cands,∅,∅,∅,∅⟩

namespace Dispatch

/-- Unused members of a bucket. -/
def unused (d : Dispatch M A) (p : Nat) : List (Member M A) := (d.cands.lookup p).getD []

def dialed (d : Dispatch M A) (p : Nat) : List (Member M A) := (d.used.lookup p).getD []

/-- The buckets whose members are tried once more. -/
def refill (early : Nat → Nat) (d : Dispatch M A) : List Nat :=
  d.used.keys.filter fun p => !(d.dialed p).isEmpty && (d.unused p).isEmpty && (d.activeN.lookup p).getD 0 == 0 &&
    30 ≤ early p && (d.recycles.lookup p).getD 0 < 3

def recycle (d : Dispatch M A) (p : Nat) : Dispatch M A :=
  { d with
    used := d.used.erase p
    cands := d.cands.insert p (d.dialed p)
    recycles := d.recycles.insert p ((d.recycles.lookup p).getD 0 + 1) }

def u128Max : Nat := 2 ^ 128 - 1

def criticality (rem rate : Nat) : Nat := if rate = 0 then u128Max / 2 + rem else min (rem * 10000) u128Max / rate

/-- One turn of the loop that looks for the most critical bucket. -/
def better (late : Nat → Nat) (d : Dispatch M A) (best : Option (Nat × Nat)) (p : Nat) : Option (Nat × Nat) :=
  if (d.unused p).isEmpty then best else
  let rem := late p
  if rem = 0 then best else
  if rem < 30 ∧ 0 < (d.activeN.lookup p).getD 0 then best else
  let crit := criticality rem ((d.activeRate.lookup p).getD 0)
  match best with
  | some (c,_) => if c < crit then some (crit,p) else best
  | none => some (crit,p)

/-- The best unused member of a bucket is dialed. -/
def dial (d : Dispatch M A) (p : Nat) : Option (Member M A × Dispatch M A) :=
  match d.unused p with
  | [] => none
  | m :: rest => some (m,{ d with
      cands := d.cands.insert p rest
      used := d.used.insert p (d.dialed p ++ [m])
      activeRate := d.activeRate.insert p (wrapAdd ((d.activeRate.lookup p).getD 0) (max m.2 1))
      activeN := d.activeN.insert p ((d.activeN.lookup p).getD 0 + 1) })

/-- `next`, with what `remaining` returned early and late in the call, and the
    order in which the buckets are compared. -/
def next (early late : Nat → Nat) (order : List Nat) (d : Dispatch M A) : Option (Member M A) × Dispatch M A :=
  let d := (d.refill early).foldl recycle d
  match (order.foldl (better late d) none).bind fun best => d.dial best.2 with
  | some (m,d') => (some m,d')
  | none => (none,d)

/-- `done`. -/
def done (d : Dispatch M A) (p rate : Nat) : Dispatch M A :=
  { d with
    activeRate := match d.activeRate.lookup p with
      | some r => d.activeRate.insert p (r - max rate 1)
      | none => d.activeRate
    activeN := match d.activeN.lookup p with
      | some n => d.activeN.insert p (n - 1)
      | none => d.activeN }

/-! ### Members stay in their buckets -/

/-- Every member of every bucket, dialed or not. -/
def All (P : Nat → Member M A → Prop) (d : Dispatch M A) : Prop := ∀ p, ∀ m ∈ d.unused p ++ d.dialed p, P p m

variable {P : Nat → Member M A → Prop} {d : Dispatch M A}

theorem all_new {cands : AList fun _ : Nat => List (Member M A)}
    (all : ∀ p members, cands.lookup p = some members → ∀ m ∈ members, P p m) : All P (Dispatch.new cands) := by
  intro p m member
  cases found : cands.lookup p with
  | none => simp [unused,dialed,Dispatch.new,found] at member
  | some members => exact all p members found m (by simpa [unused,dialed,Dispatch.new,found] using member)

theorem all_recycle (p : Nat) (all : All P d) : All P (d.recycle p) := by
  intro q m member
  by_cases same : q = p
  · subst same
    have there : m ∈ d.dialed q := by simpa [recycle,unused,dialed] using member
    exact all q m (List.mem_append_right _ there)
  · have unmoved : (d.recycle p).unused q ++ (d.recycle p).dialed q = d.unused q ++ d.dialed q := by
      simp [recycle,unused,dialed,AList.lookup_insert_ne same,AList.lookup_erase_ne same]
    exact all q m (unmoved ▸ member)

theorem all_refilled (ps : List Nat) (all : All P d) : All P (ps.foldl recycle d) := by
  induction ps generalizing d with
  | nil => exact all
  | cons p rest ih => exact ih (all_recycle p all)

theorem all_dial {p : Nat} {m : Member M A} {d' : Dispatch M A} (all : All P d) (dials : d.dial p = some (m,d')) :
    P p m ∧ All P d' := by
  unfold dial at dials
  split at dials
  · cases dials
  · next head rest free =>
    cases dials
    have own : P p m := all p m (by rw [free]; exact List.mem_append_left _ List.mem_cons_self)
    refine ⟨own,fun q x member => ?_⟩
    by_cases same : q = p
    · subst same
      simp only [unused,dialed,AList.lookup_insert,Option.getD_some,List.mem_append,List.mem_singleton] at member
      rcases member with later | before | rfl
      · exact all q x (by rw [free]; exact List.mem_append_left _ (List.mem_cons_of_mem _ later))
      · exact all q x (List.mem_append_right _ before)
      · exact own
    · refine all q x ?_
      simpa only [unused,dialed,AList.lookup_insert_ne same] using member

theorem all_next {early late : Nat → Nat} {order : List Nat} {result : Option (Member M A)} {d' : Dispatch M A}
    (all : All P d) (chosen : d.next early late order = (result,d')) : (∀ m ∈ result, ∃ p, P p m) ∧ All P d' := by
  unfold next at chosen
  simp only at chosen
  split at chosen
  · next m after found =>
    cases chosen
    obtain ⟨best,-,dials⟩ := Option.bind_eq_some_iff.mp found
    obtain ⟨own,kept⟩ := all_dial (all_refilled _ all) dials
    exact ⟨fun x same => ⟨best.2,by cases same; exact own⟩,kept⟩
  · cases chosen
    exact ⟨nofun,all_refilled _ all⟩

end Dispatch

end Directswarm.Dispatching
