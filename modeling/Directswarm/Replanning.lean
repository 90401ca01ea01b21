import Mathlib.Algebra.Order.BigOperators.Group.Finset
import Mathlib.Algebra.Order.Ring.Nat
import Mathlib.Algebra.Order.BigOperators.Group.List
import Mathlib.Data.List.Perm.Subperm
import Directswarm.Dispatching
import Directswarm.Runs

/-!
The dispatcher over whole runs (`schedule.rs`): `next` and `done` in any order,
each connection reported done once, while the pool shrinks. Its counters are the
connections in flight and the sum of their rates, as long as that sum is one
(`books`; `overflown` is what happens beyond 64 bits), a member is dialed at most
four times, and `next` returns the bucket that the finish time waits for
(`work_conserving`).
-/
namespace Directswarm.Replanning
open Directswarm.Runs Directswarm.Words Directswarm.Routing Directswarm.Dispatching

variable {M A : Type}

/-- The candidates of each bucket. Each names the bucket it is for. -/
structure Candidates (M A : Type) where
  map : AList fun _ : Nat => List (Member M A)
  own : ∀ p, ∀ m ∈ (map.lookup p).getD [], m.1.prefix_ = p

namespace Candidates

def members (c : Candidates M A) (p : Nat) : List (Member M A) := (c.map.lookup p).getD []

/-- All members of all buckets. -/
def all (c : Candidates M A) : List (Member M A) := c.map.entries.flatMap fun e => e.2

/-- No overlay occurs twice. -/
def Distinct (c : Candidates M A) : Prop := (c.all.map fun m => m.1.overlay).Nodup

/-- The rates of a bucket's members, as `next` counts them, have a 64-bit sum. -/
def Fits (c : Candidates M A) : Prop := ∀ p, ((c.members p).map fun m => max m.2 1).sum < 2 ^ 64

end Candidates

/-- The candidates that `select_storers` finds. -/
def selected (parse : List Char → Option M) (peers : PeerTable.PeerMap) (cache : TopologyCache) (needed : List Proximity.SwarmAddress)
    (depth : Nat) : Candidates M Proximity.SwarmAddress where
  map := selectStorers parse peers cache needed depth
  own := by
    intro p m member
    cases found : (selectStorers parse peers cache needed depth).lookup p with
    | none =>
      rw [found] at member
      cases member
    | some members =>
      rw [found,Option.getD_some] at member
      have from_ : some m ∈ members.map some := List.mem_map_of_mem member
      rw [selectStorers_bucket found] at from_
      obtain ⟨record,-,made⟩ := List.mem_map.mp from_
      obtain ⟨underlay,-,rfl⟩ := Option.map_eq_some_iff.mp made
      rfl

/-- The work pool by the lengths of its buckets. -/
abbrev Pool := AList fun _ : Nat => Fin (2 ^ 64)

/-- `remaining`. -/
def remaining (pool : Pool) (p : Nat) : Nat := ((pool.lookup p).map Fin.val).getD 0

/-- Buckets only lost chunks. -/
def Shrinks (after before : Pool) : Prop := ∀ p ∈ after.keys, remaining after p ≤ remaining before p

instance (after before : Pool) : Decidable (Shrinks after before) :=
  inferInstanceAs (Decidable (∀ p ∈ after.keys, remaining after p ≤ remaining before p))

/-- The dispatcher, the pool as it was read last, the members whose connections are
    not reported done, and all that `next` returned. -/
structure Planning (M A : Type) where
  dispatch : Dispatch M A
  pool : Pool
  inflight : List (Member M A)
  dialed : List (Member M A)

inductive PlanAct
  /-- `next`, with the pool as it reads it early and late, and the order in which the
      buckets are compared. -/
  | next (early late : Pool) (order : List Nat)
  /-- `done` for a connection in flight. -/
  | done (i : Nat)
  deriving DecidableEq

/-- The dispatcher after the recycling of `next`. -/
def recycled (early : Pool) (d : Dispatch M A) : Dispatch M A := (d.refill (remaining early)).foldl Dispatch.recycle d

/-- What `next` reads of the pool, and the order of the buckets, can be so. -/
def Allowed (s : Planning M A) (early late : Pool) (order : List Nat) : Prop :=
  Shrinks early s.pool ∧ Shrinks late early ∧ order.Perm (recycled early s.dispatch).cands.keys

instance (s : Planning M A) (early late : Pool) (order : List Nat) : Decidable (Allowed s early late order) :=
  inferInstanceAs (Decidable (_ ∧ _ ∧ _))

def planStep (s : Planning M A) : PlanAct → Option (Planning M A)
  | .next early late order =>
    if Allowed s early late order then
      let chosen := s.dispatch.next (remaining early) (remaining late) order
      some ⟨chosen.2,late,s.inflight ++ chosen.1.toList,s.dialed ++ chosen.1.toList⟩
    else none
  | .done i => s.inflight[i]?.map fun m =>
    { s with dispatch := s.dispatch.done m.1.prefix_ m.2, inflight := s.inflight.eraseIdx i }

def planned (c : Candidates M A) (pool : Pool) : Planning M A := ⟨Dispatch.new c.map,pool,[],[]⟩

/-- The connections of a bucket that are in flight. -/
def Planning.active (s : Planning M A) (p : Nat) : List (Member M A) := s.inflight.filter fun m => m.1.prefix_ = p

/-- The sum of rates, each at least one. -/
def rates (members : List (Member M A)) : Nat := (members.map fun m => max m.2 1).sum

def thirty : Pool := AList.insert 0 30 ∅

/-- Members of the bucket 0, each of the largest 32-bit rate. -/
def largest (first n : Nat) : List (Member Unit Nat) := (List.range' first n).map fun i => (⟨(),i,0⟩,2 ^ 32 - 1)

/-- One bucket of `n` such members. -/
def crowd (n : Nat) : Candidates Unit Nat where
  map := AList.insert 0 (largest 0 n) ∅
  own := by
    intro p m member
    by_cases zero : p = 0
    · subst zero
      rw [AList.lookup_insert,Option.getD_some] at member
      obtain ⟨i,-,rfl⟩ := List.mem_map.mp member
      rfl
    · rw [AList.lookup_insert_ne zero,AList.lookup_empty] at member
      cases member

theorem rates_largest (first n : Nat) : (largest first n).map (fun m => max m.2 1) = List.replicate n (2 ^ 32 - 1) := by
  refine List.eq_replicate_iff.mpr ⟨by simp [largest],fun x member => ?_⟩
  obtain ⟨m,inside,rfl⟩ := List.mem_map.mp member
  obtain ⟨i,-,rfl⟩ := List.mem_map.mp inside
  rfl

theorem rates_crowd (n : Nat) : ((crowd n).members 0).map (fun m => max m.2 1) = List.replicate n (2 ^ 32 - 1) := by
  rw [Candidates.members,crowd,AList.lookup_insert,Option.getD_some,rates_largest]

/-- The members of two buckets. -/
theorem lookup_two (xs ys : List (Member M A)) (p : Nat) :
    ((AList.insert 0 xs (AList.insert 1 ys (∅ : AList fun _ : Nat => List (Member M A)))).lookup p).getD [] =
      if p = 0 then xs else if p = 1 then ys else [] := by
  by_cases zero : p = 0
  · subst zero
    rw [AList.lookup_insert,if_pos rfl]
    rfl
  · rw [AList.lookup_insert_ne zero,if_neg zero]
    by_cases one : p = 1
    · subst one
      rw [AList.lookup_insert,if_pos rfl]
      rfl
    · rw [AList.lookup_insert_ne one,AList.lookup_empty,if_neg one]
      rfl

theorem own_two {xs ys : List (Member M A)} (zero : ∀ m ∈ xs, m.1.prefix_ = 0) (one : ∀ m ∈ ys, m.1.prefix_ = 1) (p : Nat) :
    ∀ m ∈ ((AList.insert 0 xs (AList.insert 1 ys (∅ : AList fun _ : Nat => List (Member M A)))).lookup p).getD [],
      m.1.prefix_ = p := by
  intro m member
  rw [lookup_two] at member
  split_ifs at member with first second
  · exact (zero m member).trans first.symm
  · exact (one m member).trans second.symm
  · cases member

theorem fits_crowd {n : Nat} (small : n * (2 ^ 32 - 1) < 2 ^ 64) : (crowd n).Fits := by
  intro p
  by_cases zero : p = 0
  · subst zero
    rw [rates_crowd,List.sum_replicate_nat]
    exact small
  · rw [Candidates.members,crowd,AList.lookup_insert_ne zero,AList.lookup_empty]
    decide

theorem remaining_le {after before : Pool} (shrinks : Shrinks after before) (p : Nat) :
    remaining after p ≤ remaining before p := by
  by_cases key : p ∈ after
  · exact shrinks p (AList.mem_keys.mp key)
  · rw [remaining,AList.lookup_eq_none.mpr key]
    exact Nat.zero_le _

theorem remaining_lt (pool : Pool) (p : Nat) : remaining pool p < 2 ^ 64 := by
  unfold remaining
  cases pool.lookup p with
  | none => decide
  | some n => exact n.isLt

/-! ### What `next` does to a bucket -/

section Buckets
variable {d : Dispatch M A}

theorem unused_recycle (p q : Nat) : (d.recycle p).unused q = if q = p then d.dialed q else d.unused q := by
  by_cases same : q = p
  · subst same
    simp [Dispatch.recycle,Dispatch.unused]
  · simp [Dispatch.recycle,Dispatch.unused,AList.lookup_insert_ne same,same]

theorem dialed_recycle (p q : Nat) : (d.recycle p).dialed q = if q = p then [] else d.dialed q := by
  by_cases same : q = p
  · subst same
    simp [Dispatch.recycle,Dispatch.dialed]
  · simp [Dispatch.recycle,Dispatch.dialed,AList.lookup_erase_ne same,same]

/-- The counters of a bucket. -/
def number (d : Dispatch M A) (p : Nat) : Nat := (d.activeN.lookup p).getD 0

def rate (d : Dispatch M A) (p : Nat) : Nat := (d.activeRate.lookup p).getD 0

/-- How often a bucket was recycled. -/
def recycles (d : Dispatch M A) (p : Nat) : Nat := (d.recycles.lookup p).getD 0

theorem recycles_recycle (p q : Nat) : recycles (d.recycle p) q = if q = p then recycles d q + 1 else recycles d q := by
  by_cases same : q = p
  · subst same
    simp [Dispatch.recycle,recycles]
  · simp [Dispatch.recycle,recycles,AList.lookup_insert_ne same,same]

/-- The buckets of a list without repetition are recycled, and no other. -/
theorem recycle_all {ps : List Nat} (once : ps.Nodup) (q : Nat) :
    (ps.foldl Dispatch.recycle d).unused q = (if q ∈ ps then d.dialed q else d.unused q) ∧
      (ps.foldl Dispatch.recycle d).dialed q = (if q ∈ ps then [] else d.dialed q) ∧
      recycles (ps.foldl Dispatch.recycle d) q = (if q ∈ ps then recycles d q + 1 else recycles d q) ∧
      (ps.foldl Dispatch.recycle d).activeN = d.activeN ∧ (ps.foldl Dispatch.recycle d).activeRate = d.activeRate := by
  induction ps generalizing d with
  | nil => simp
  | cons p rest ih =>
    obtain ⟨fresh_,later⟩ := List.nodup_cons.mp once
    obtain ⟨unused,dialed,count,number,rate⟩ := @ih (d.recycle p) later
    rw [List.foldl_cons]
    by_cases same : q = p
    · subst same
      rw [if_neg fresh_,unused_recycle,if_pos rfl] at unused
      rw [if_neg fresh_,dialed_recycle,if_pos rfl] at dialed
      rw [if_neg fresh_,recycles_recycle,if_pos rfl] at count
      have here : q ∈ q :: rest := List.mem_cons_self
      rw [if_pos here,if_pos here,if_pos here]
      exact ⟨unused,dialed,count,number,rate⟩
    · have there : q ∈ p :: rest ↔ q ∈ rest := by simp [same]
      rw [unused_recycle,dialed_recycle,if_neg same,if_neg same] at unused
      rw [dialed_recycle,if_neg same] at dialed
      rw [recycles_recycle,if_neg same] at count
      simp only [there]
      exact ⟨unused,dialed,count,number,rate⟩

/-- A bucket that `next` recycles. -/
def Exhausted (early : Pool) (d : Dispatch M A) (p : Nat) : Prop :=
  d.dialed p ≠ [] ∧ d.unused p = [] ∧ number d p = 0 ∧ 30 ≤ remaining early p ∧ recycles d p < 3

theorem mem_refill {early : Pool} {p : Nat} : p ∈ d.refill (remaining early) ↔ Exhausted early d p := by
  simp only [Dispatch.refill,List.mem_filter,Exhausted,recycles,number]
  have key : d.dialed p ≠ [] → p ∈ d.used.keys := by
    intro some_
    rw [← AList.mem_keys,← AList.lookup_isSome]
    by_contra none_
    rw [Option.not_isSome_iff_eq_none] at none_
    exact some_ (by rw [Dispatch.dialed,none_]; rfl)
  constructor
  · rintro ⟨-,exhausted⟩
    simpa [and_assoc] using exhausted
  · intro exhausted
    exact ⟨key exhausted.1,by simpa [and_assoc] using exhausted⟩

theorem recycled_spec (early : Pool) (q : Nat) [Decidable (Exhausted early d q)] :
    (recycled early d).unused q = (if Exhausted early d q then d.dialed q else d.unused q) ∧
      (recycled early d).dialed q = (if Exhausted early d q then [] else d.dialed q) ∧
      recycles (recycled early d) q = (if Exhausted early d q then recycles d q + 1 else recycles d q) ∧
      number (recycled early d) q = number d q ∧ rate (recycled early d) q = rate d q := by
  have once : (d.refill (remaining early)).Nodup := d.used.keys_nodup.filter _
  obtain ⟨unused,dialed,count,numbers,rates⟩ := @recycle_all M A d _ once q
  simp only [mem_refill] at unused dialed count
  refine ⟨?_,?_,?_,?_,?_⟩
  · rw [recycled,unused]
  · rw [recycled,dialed]
  · rw [recycled,count]
  · rw [number,recycled,numbers]
    rfl
  · rw [rate,recycled,rates]
    rfl

/-- What a dial does to a bucket. -/
theorem dial_spec {p : Nat} {m : Member M A} {d' : Dispatch M A} (dials : d.dial p = some (m,d')) :
    ∃ rest, d.unused p = m :: rest ∧ ∀ q,
      d'.unused q = (if q = p then rest else d.unused q) ∧
      d'.dialed q = (if q = p then d.dialed q ++ [m] else d.dialed q) ∧
      number d' q = (if q = p then number d q + 1 else number d q) ∧
      rate d' q = (if q = p then wrapAdd (rate d q) (max m.2 1) else rate d q) ∧ recycles d' q = recycles d q := by
  unfold Dispatch.dial at dials
  split at dials
  · cases dials
  · next head rest free =>
    cases dials
    refine ⟨rest,free,fun q => ?_⟩
    by_cases same : q = p
    · subst same
      simp [Dispatch.unused,Dispatch.dialed,number,rate,recycles]
    · simp [Dispatch.unused,Dispatch.dialed,number,rate,recycles,AList.lookup_insert_ne same,same]

/-- What a report does to the counters of a bucket. -/
theorem done_spec (p r q : Nat) : number (d.done p r) q = (if q = p then number d q - 1 else number d q) ∧
    rate (d.done p r) q = (if q = p then rate d q - max r 1 else rate d q) := by
  unfold Dispatch.done number rate
  by_cases same : q = p
  · subst same
    cases n : d.activeN.lookup q <;> cases r : d.activeRate.lookup q <;> simp [n,r]
  · cases n : d.activeN.lookup p <;> cases r : d.activeRate.lookup p <;> simp [AList.lookup_insert_ne same,same]

/-- `next` recycles, and then dials the bucket that it finds the most critical. -/
theorem next_cases {early late : Pool} {order : List Nat} {result : Option (Member M A)} {d' : Dispatch M A}
    (chosen : d.next (remaining early) (remaining late) order = (result,d')) :
    (result = none ∧ d' = recycled early d ∧
      (order.foldl (Dispatch.better (remaining late) (recycled early d)) none).bind
        (fun best => (recycled early d).dial best.2) = none) ∨
    ∃ m best, result = some m ∧ order.foldl (Dispatch.better (remaining late) (recycled early d)) none = some best ∧
      (recycled early d).dial best.2 = some (m,d') := by
  unfold Dispatch.next at chosen
  simp only at chosen
  split at chosen
  · next m after found =>
    cases chosen
    obtain ⟨best,first,dials⟩ := Option.bind_eq_some_iff.mp found
    exact .inr ⟨m,best,rfl,first,dials⟩
  · next found =>
    cases chosen
    exact .inl ⟨rfl,rfl,found⟩

end Buckets

/-! ### The most critical bucket -/

section Best
variable {d : Dispatch M A}

/-- A bucket that the loop of `next` considers. -/
def Considered (late : Pool) (d : Dispatch M A) (p : Nat) : Prop :=
  d.unused p ≠ [] ∧ (30 ≤ remaining late p ∨ 0 < remaining late p ∧ number d p = 0)

/-- How critical the loop takes a bucket to be. -/
def urgency (late : Pool) (d : Dispatch M A) (p : Nat) : Nat := Dispatch.criticality (remaining late p) (rate d p)

theorem better_skip {late : Pool} {best : Option (Nat × Nat)} {p : Nat} (out : ¬Considered late d p) :
    d.better (remaining late) best p = best := by
  unfold Dispatch.better
  simp only
  split
  · rfl
  · next some_ =>
    split
    · rfl
    · split
      · rfl
      · next more less =>
        refine absurd ⟨fun none_ => some_ (by rw [none_]; rfl),?_⟩ out
        unfold number
        omega

theorem better_take {late : Pool} {best : Option (Nat × Nat)} {p : Nat} (considered : Considered late d p) :
    d.better (remaining late) best p =
      match best with
      | some (c,_) => if c < urgency late d p then some (urgency late d p,p) else best
      | none => some (urgency late d p,p) := by
  obtain ⟨some_,chunks⟩ := considered
  have positive : ¬remaining late p = 0 := by omega
  have helps : ¬(remaining late p < 30 ∧ 0 < (d.activeN.lookup p).getD 0) := by
    unfold number at chunks
    omega
  simp only [Dispatch.better,List.isEmpty_iff,some_,positive,helps,↓reduceIte]
  rfl

/-- The loop of `next` finds the first of the most critical buckets that it considers. -/
theorem best_spec (late : Pool) (order : List Nat) (best : Option (Nat × Nat)) :
    (order.foldl (d.better (remaining late)) best = none ↔ best = none ∧ ∀ q ∈ order, ¬Considered late d q) ∧
    ∀ c p, order.foldl (d.better (remaining late)) best = some (c,p) →
      (best = some (c,p) ∨ p ∈ order ∧ Considered late d p ∧ c = urgency late d p) ∧
      (∀ q ∈ order, Considered late d q → urgency late d q ≤ c) ∧ ∀ b q, best = some (b,q) → b ≤ c := by
  induction order generalizing best with
  | nil =>
    refine ⟨by simp,fun c p same => ⟨.inl same,nofun,?_⟩⟩
    rintro b q here
    cases here.symm.trans same
    exact le_rfl
  | cons a rest ih =>
    rw [List.foldl_cons]
    obtain ⟨nothing,something⟩ := ih (d.better (remaining late) best a)
    by_cases considered : Considered late d a
    · -- The best so far after this bucket, which is at least as critical as it.
      obtain ⟨b,q,now,either,above,most⟩ : ∃ b q, d.better (remaining late) best a = some (b,q) ∧
          (best = some (b,q) ∨ q = a ∧ b = urgency late d a) ∧ urgency late d a ≤ b ∧
          ∀ b' q', best = some (b',q') → b' ≤ b := by
        rw [better_take considered]
        cases best with
        | none => exact ⟨_,_,rfl,.inr ⟨rfl,rfl⟩,le_rfl,nofun⟩
        | some old =>
          obtain ⟨b,q⟩ := old
          by_cases less : b < urgency late d a
          · refine ⟨_,_,if_pos less,.inr ⟨rfl,rfl⟩,le_rfl,?_⟩
            rintro b' q' here
            cases here
            exact less.le
          · refine ⟨b,q,if_neg less,.inl rfl,by omega,?_⟩
            rintro b' q' here
            cases here
            exact le_rfl
      refine ⟨?_,?_⟩
      · rw [nothing,now]
        simp [considered]
      · intro c p found
        obtain ⟨origin,others,kept⟩ := something c p found
        have least := kept b q now
        refine ⟨?_,?_,?_⟩
        · rcases origin with same | ⟨member,considered_,value⟩
          · rcases either with old | ⟨rfl,value⟩
            · exact .inl (old.trans (now.symm.trans same))
            · cases now.symm.trans same
              exact .inr ⟨List.mem_cons_self,considered,value⟩
          · exact .inr ⟨List.mem_cons_of_mem _ member,considered_,value⟩
        · intro x member considered_
          rcases List.mem_cons.mp member with rfl | later
          · exact above.trans least
          · exact others x later considered_
        · intro b' q' here
          exact (most b' q' here).trans least
    · rw [better_skip considered] at nothing something ⊢
      refine ⟨?_,?_⟩
      · rw [nothing]
        simp [considered]
      · intro c p found
        obtain ⟨origin,others,kept⟩ := something c p found
        refine ⟨?_,?_,kept⟩
        · exact origin.imp_right fun there => ⟨List.mem_cons_of_mem _ there.1,there.2⟩
        · intro x member considered_
          rcases List.mem_cons.mp member with rfl | later
          · exact absurd considered_ considered
          · exact others x later considered_

theorem unused_key {p : Nat} (some_ : d.unused p ≠ []) : p ∈ d.cands.keys := by
  rw [← AList.mem_keys,← AList.lookup_isSome]
  by_contra none_
  rw [Option.not_isSome_iff_eq_none] at none_
  exact some_ (by rw [Dispatch.unused,none_]; rfl)

theorem dial_some {p : Nat} (some_ : d.unused p ≠ []) : ∃ m d', d.dial p = some (m,d') := by
  unfold Dispatch.dial
  split
  · next none_ => exact absurd none_ some_
  · exact ⟨_,_,rfl⟩

/-- When nothing is to be recycled, `next` dials a bucket that is more critical than all
    others that it considers. -/
theorem next_dials {early late : Pool} {order : List Nat} {p : Nat} (fresh : ∀ q, ¬Exhausted early d q) (listed : p ∈ order)
    (considered : Considered late d p)
    (first : ∀ q ∈ order, q ≠ p → Considered late d q → urgency late d q < urgency late d p) :
    recycled early d = d ∧
      ∃ m d', d.dial p = some (m,d') ∧ d.next (remaining early) (remaining late) order = (some m,d') := by
  have nothing : d.refill (remaining early) = [] :=
    List.eq_nil_iff_forall_not_mem.mpr fun q member => fresh q (mem_refill.mp member)
  obtain ⟨m,d',dials⟩ := dial_some considered.1
  obtain ⟨unfound,found⟩ := best_spec (d := d) late order none
  cases best : order.foldl (d.better (remaining late)) none with
  | none => exact absurd considered ((unfound.mp best).2 p listed)
  | some most =>
    obtain ⟨crit,q⟩ := most
    obtain ⟨origin,above,-⟩ := found crit q best
    obtain ⟨member,able,rfl⟩ := origin.resolve_left (by simp)
    have one : q = p := by
      by_contra other
      exact absurd (above p listed considered) (first q member other able).not_ge
    subst one
    refine ⟨by rw [recycled,nothing]; rfl,m,d',dials,?_⟩
    simp only [Dispatch.next,nothing,List.foldl_nil,best,Option.bind_some,dials]

end Best

/-! ### The books -/

/-- The members of a bucket are its candidates, dialed or not, and what is in flight
    is dialed; the counter is the number of connections in flight. -/
structure Books (c : Candidates M A) (s : Planning M A) : Prop where
  members : ∀ p, (s.dispatch.unused p ++ s.dispatch.dialed p).Perm (c.members p)
  flying : ∀ p, (s.active p).Subperm (s.dispatch.dialed p)
  number : ∀ p, number s.dispatch p = (s.active p).length
  recycles : ∀ p, recycles s.dispatch p ≤ 3
  known : ∀ m ∈ s.dialed, m ∈ c.members m.1.prefix_

section Books
variable {c : Candidates M A} {s : Planning M A}

theorem Books.own (books : Books c s) {p : Nat} {m : Member M A} (member : m ∈ s.dispatch.unused p ++ s.dispatch.dialed p) :
    m.1.prefix_ = p := c.own p m ((books.members p).mem_iff.mp member)

/-- An exhausted bucket has nothing in flight. -/
theorem Books.idle (books : Books c s) {early : Pool} {p : Nat} (exhausted : Exhausted early s.dispatch p) : s.active p = [] := by
  have none_ := books.number p
  rw [exhausted.2.2.1] at none_
  exact List.length_eq_zero_iff.mp none_.symm

theorem books_recycled (early pool : Pool) (books : Books c s) :
    Books c { s with dispatch := recycled early s.dispatch, pool := pool } := by
  classical
  have spec := fun p => recycled_spec (d := s.dispatch) early p
  refine ⟨fun p => ?_,fun p => ?_,fun p => ?_,fun p => ?_,books.known⟩
  · have all := books.members p
    show (Dispatch.unused (recycled early s.dispatch) p ++ Dispatch.dialed (recycled early s.dispatch) p).Perm _
    rw [(spec p).1,(spec p).2.1]
    split
    · next exhausted =>
      rw [exhausted.2.1,List.nil_append] at all
      rwa [List.append_nil]
    · exact all
  · show (s.active p).Subperm (Dispatch.dialed (recycled early s.dispatch) p)
    rw [(spec p).2.1]
    split
    · next exhausted => rw [books.idle exhausted]
    · exact books.flying p
  · exact (spec p).2.2.2.1.trans (books.number p)
  · show recycles (recycled early s.dispatch) p ≤ 3
    rw [(spec p).2.2.1]
    split
    · next exhausted => exact exhausted.2.2.2.2
    · exact books.recycles p

theorem active_append (m : Member M A) (p : Nat) :
    (s.inflight ++ [m]).filter (fun m => m.1.prefix_ = p) = if p = m.1.prefix_ then s.active p ++ [m] else s.active p := by
  rw [List.filter_append,List.filter_singleton]
  by_cases same : p = m.1.prefix_
  · simp [same,Planning.active]
  · simp [same,Ne.symm same,Planning.active]

theorem books_dial {p : Nat} {m : Member M A} {d' : Dispatch M A} (books : Books c s) (dials : s.dispatch.dial p = some (m,d')) :
    Books c ⟨d',s.pool,s.inflight ++ [m],s.dialed ++ [m]⟩ := by
  obtain ⟨rest,free,spec⟩ := dial_spec dials
  have first : m ∈ s.dispatch.unused p ++ s.dispatch.dialed p := by
    rw [free]
    exact List.mem_append_left _ List.mem_cons_self
  have own : m.1.prefix_ = p := books.own first
  refine ⟨fun q => ?_,fun q => ?_,fun q => ?_,fun q => ?_,?_⟩
  · obtain ⟨unused,dialed,-⟩ := spec q
    show (d'.unused q ++ d'.dialed q).Perm _
    rw [unused,dialed]
    by_cases same : q = p
    · subst same
      have all := books.members q
      rw [free] at all
      rw [if_pos rfl,if_pos rfl,← List.append_assoc]
      exact List.perm_append_comm.trans all
    · rw [if_neg same,if_neg same]
      exact books.members q
  · show ((s.inflight ++ [m]).filter fun m => m.1.prefix_ = q).Subperm (d'.dialed q)
    rw [active_append,(spec q).2.1,own]
    split
    · exact List.Subperm.append (books.flying q) (List.Subperm.refl [m])
    · exact books.flying q
  · show number d' q = ((s.inflight ++ [m]).filter fun m => m.1.prefix_ = q).length
    rw [active_append,(spec q).2.2.1,own]
    split
    · rw [List.length_append,books.number]; rfl
    · exact books.number q
  · exact (spec q).2.2.2.2.trans_le (books.recycles q)
  · intro x member
    rcases List.mem_append.mp member with before | here
    · exact books.known x before
    · rw [List.mem_singleton.mp here,own]
      exact (books.members p).mem_iff.mp first

/-- A connection that is reported is no longer in flight. -/
theorem active_erase {i : Nat} {m : Member M A} (at_ : s.inflight[i]? = some m) (p : Nat) :
    (s.active p).Perm (if p = m.1.prefix_ then m :: (s.inflight.eraseIdx i).filter (fun m => m.1.prefix_ = p)
      else (s.inflight.eraseIdx i).filter fun m => m.1.prefix_ = p) := by
  obtain ⟨inside,rfl⟩ := List.getElem?_eq_some_iff.mp at_
  have split := ((List.getElem_cons_eraseIdx_perm inside).filter fun m => m.1.prefix_ = p).symm
  rw [List.filter_cons] at split
  refine split.trans (List.Perm.of_eq ?_)
  by_cases same : p = s.inflight[i].1.prefix_
  · simp [same]
  · simp [same,Ne.symm same]

theorem books_done {i : Nat} {m : Member M A} (books : Books c s) (at_ : s.inflight[i]? = some m) :
    Books c { s with dispatch := s.dispatch.done m.1.prefix_ m.2, inflight := s.inflight.eraseIdx i } := by
  refine ⟨books.members,fun q => ?_,fun q => ?_,books.recycles,books.known⟩
  · have fewer := ((List.eraseIdx_sublist s.inflight i).filter fun m => m.1.prefix_ = q).subperm
    exact fewer.trans (books.flying q)
  · have length := (active_erase at_ q).length_eq
    show number (s.dispatch.done m.1.prefix_ m.2) q = ((s.inflight.eraseIdx i).filter fun m => m.1.prefix_ = q).length
    rw [(done_spec m.1.prefix_ m.2 q).1,books.number,length]
    split
    · rw [List.length_cons,Nat.add_sub_cancel]
    · rfl

end Books

/-! ### Runs -/

section Runs
variable {c : Candidates M A} {s : Planning M A}

/-- What every recycling, every dial and every report keeps, every step keeps. -/
theorem plan_step {Inv : Planning M A → Prop}
    (recycles : ∀ (s : Planning M A) (early pool : Pool), Books c s → Inv s →
      Inv { s with dispatch := recycled early s.dispatch, pool := pool })
    (dials : ∀ (s : Planning M A) (p : Nat) (m : Member M A) (d' : Dispatch M A), Books c s → Inv s →
      s.dispatch.dial p = some (m,d') → Inv ⟨d',s.pool,s.inflight ++ [m],s.dialed ++ [m]⟩)
    (reports : ∀ (s : Planning M A) (i : Nat) (m : Member M A), Books c s → Inv s → s.inflight[i]? = some m →
      Inv { s with dispatch := s.dispatch.done m.1.prefix_ m.2, inflight := s.inflight.eraseIdx i })
    (s : Planning M A) (act : PlanAct) (next : Planning M A) (inv : Books c s ∧ Inv s) (taken : planStep s act = some next) :
    Books c next ∧ Inv next := by
  obtain ⟨books,inv⟩ := inv
  cases act with
  | next early late order =>
    simp only [planStep] at taken
    split at taken
    · obtain ⟨result,d',chosen⟩ : ∃ result d', s.dispatch.next (remaining early) (remaining late) order = (result,d') :=
        ⟨_,_,rfl⟩
      rw [chosen] at taken
      cases taken
      have books' := books_recycled early late books
      have inv' := recycles s early late books inv
      rcases next_cases chosen with ⟨rfl,rfl,-⟩ | ⟨m,best,rfl,-,dialed⟩
      · simp only [Option.toList_none,List.append_nil]
        exact ⟨books',inv'⟩
      · exact ⟨books_dial books' dialed,dials _ best.2 m d' books' inv' dialed⟩
    · cases taken
  | done i =>
    obtain ⟨m,at_,rfl⟩ := Option.map_eq_some_iff.mp taken
    exact ⟨books_done books at_,reports s i m books inv at_⟩

theorem books_planned (c : Candidates M A) (pool : Pool) : Books c (planned c pool) := by
  refine ⟨fun p => ?_,fun p => List.nil_subperm,fun p => rfl,fun p => Nat.zero_le 3,nofun⟩
  show ((c.map.lookup p).getD [] ++ []).Perm _
  rw [List.append_nil]
  exact List.Perm.refl _

theorem rates_append (xs ys : List (Member M A)) : rates (xs ++ ys) = rates xs + rates ys := by
  simp [rates]

theorem rates_perm {xs ys : List (Member M A)} (perm : xs.Perm ys) : rates xs = rates ys := (perm.map _).sum_eq

theorem rates_subperm {xs ys : List (Member M A)} (part : xs.Subperm ys) : rates xs ≤ rates ys := by
  obtain ⟨zs,perm,sub⟩ := part
  rw [← rates_perm perm]
  exact (sub.map fun m => max m.2 1).sum_le_sum (fun _ _ => Nat.zero_le _)

/-- The sum of the rates in flight. -/
def Rated (s : Planning M A) : Prop := ∀ p, rate s.dispatch p = rates (s.active p)

theorem rated_dial {p : Nat} {m : Member M A} {d' : Dispatch M A} (fits : c.Fits) (books : Books c s) (rated : Rated s)
    (dials : s.dispatch.dial p = some (m,d')) : Rated (Planning.mk d' s.pool (s.inflight ++ [m]) (s.dialed ++ [m])) := by
  have books' := books_dial books dials
  obtain ⟨rest,free,spec⟩ := dial_spec dials
  have own : m.1.prefix_ = p := books.own (by rw [free]; exact List.mem_append_left _ List.mem_cons_self)
  intro q
  have flying := books'.flying q
  have below : (d'.dialed q).Subperm (c.members q) :=
    (List.sublist_append_right _ _).subperm.trans (books'.members q).subperm
  have small := (rates_subperm (flying.trans below)).trans_lt (fits q)
  show rate d' q = rates ((s.inflight ++ [m]).filter fun m => m.1.prefix_ = q)
  rw [Planning.active,active_append,own] at small
  rw [active_append,(spec q).2.2.2.1,own]
  split
  · next same =>
    rw [if_pos same,rates_append] at small
    rw [rated q,rates_append]
    exact wrapAdd_exact small
  · exact rated q

theorem rated_step (fits : c.Fits) (s : Planning M A) (act : PlanAct) (next : Planning M A) (inv : Books c s ∧ Rated s)
    (taken : planStep s act = some next) : Books c next ∧ Rated next := by
  refine plan_step ?_ ?_ ?_ s act next inv taken
  · intro s early pool books rated p
    classical
    exact (recycled_spec early p).2.2.2.2.trans (rated p)
  · intro s p m d' books rated dials
    exact rated_dial fits books rated dials
  · intro s i m books rated at_ q
    have sum := rates_perm (active_erase at_ q)
    show rate (s.dispatch.done m.1.prefix_ m.2) q = rates ((s.inflight.eraseIdx i).filter fun m => m.1.prefix_ = q)
    rw [(done_spec m.1.prefix_ m.2 q).2,rated q,sum]
    split
    · simp [rates]
    · rfl

/-! ### Distinct overlays -/

theorem member_all {p : Nat} {m : Member M A} (member : m ∈ c.members p) : m ∈ c.all := by
  cases found : c.map.lookup p with
  | none => simp [Candidates.members,found] at member
  | some members =>
    rw [Candidates.members,found,Option.getD_some] at member
    exact List.mem_flatMap.mpr ⟨⟨p,members⟩,AList.mem_lookup_iff.mp found,member⟩

theorem overlay_inj (distinct : c.Distinct) {m n : Member M A} (inM : m ∈ c.all) (inN : n ∈ c.all)
    (same : m.1.overlay = n.1.overlay) : m = n := List.inj_on_of_nodup_map distinct inM inN same

theorem nodup_members (distinct : c.Distinct) (p : Nat) : ((c.members p).map fun m => m.1.overlay).Nodup := by
  cases found : c.map.lookup p with
  | none => simp [Candidates.members,found]
  | some members =>
    rw [Candidates.members,found,Option.getD_some]
    have part : members.Sublist c.all :=
      List.sublist_flatten_of_mem (List.mem_map.mpr ⟨⟨p,members⟩,AList.mem_lookup_iff.mp found,rfl⟩)
    exact distinct.sublist (part.map _)

/-- No member is in flight twice. -/
def Apart (s : Planning M A) : Prop := (s.inflight.map fun m => m.1.overlay).Nodup

/-- Where overlays are distinct, so are they in a bucket's two lists. -/
theorem nodup_bucket (distinct : c.Distinct) (books : Books c s) (p : Nat) :
    ((s.dispatch.unused p ++ s.dispatch.dialed p).map fun m => m.1.overlay).Nodup :=
  ((books.members p).map _).nodup_iff.mpr (nodup_members distinct p)

theorem mem_flying (books : Books c s) {m : Member M A} (member : m ∈ s.inflight) : m ∈ s.dispatch.dialed m.1.prefix_ :=
  (books.flying m.1.prefix_).subset (List.mem_filter.mpr ⟨member,by simp⟩)

theorem mem_members (books : Books c s) {p : Nat} {m : Member M A}
    (member : m ∈ s.dispatch.unused p ++ s.dispatch.dialed p) : m ∈ c.members p := (books.members p).mem_iff.mp member

theorem apart_step (distinct : c.Distinct) (s : Planning M A) (act : PlanAct) (next : Planning M A)
    (inv : Books c s ∧ Apart s) (taken : planStep s act = some next) : Books c next ∧ Apart next := by
  refine plan_step ?_ ?_ ?_ s act next inv taken
  · intro s early pool books apart
    exact apart
  · intro s p m d' books apart dials
    obtain ⟨rest,free,-⟩ := dial_spec dials
    have first : m ∈ s.dispatch.unused p := by rw [free]; exact List.mem_cons_self
    have inM := mem_members books (List.mem_append_left _ first)
    show ((s.inflight ++ [m]).map fun m => m.1.overlay).Nodup
    rw [List.map_append,List.nodup_append]
    refine ⟨apart,List.nodup_singleton _,?_⟩
    -- A member in flight is dialed, and this one is not.
    intro a before b here same
    obtain ⟨n,flies,rfl⟩ := List.mem_map.mp before
    rw [List.map_singleton,List.mem_singleton] at here
    have dialed := mem_flying books flies
    have inN := mem_members books (List.mem_append_right _ dialed)
    have equal := overlay_inj distinct (member_all inN) (member_all inM) (same.trans here)
    rw [equal,c.own p m inM] at dialed
    have once := nodup_bucket distinct books p
    rw [List.map_append,List.nodup_append] at once
    exact once.2.2 _ (List.mem_map_of_mem first) _ (List.mem_map_of_mem dialed) rfl
  · intro s i m books apart at_
    exact apart.sublist ((List.eraseIdx_sublist s.inflight i).map _)

section Counts
variable [DecidableEq A]

/-- How often an overlay occurs. -/
def occurs (a : A) (members : List (Member M A)) : Nat := (members.map fun m => m.1.overlay).count a

/-- A member was dialed once in every round of its bucket before this one, and in
    this one if it is among the dialed. -/
def Rounds (c : Candidates M A) (s : Planning M A) : Prop := ∀ p, ∀ m ∈ c.members p,
  occurs m.1.overlay s.dialed = recycles s.dispatch p + occurs m.1.overlay (s.dispatch.dialed p)

theorem occurs_append (a : A) (xs ys : List (Member M A)) : occurs a (xs ++ ys) = occurs a xs + occurs a ys := by
  simp [occurs]

theorem rounds_step (distinct : c.Distinct) (s : Planning M A) (act : PlanAct) (next : Planning M A)
    (inv : Books c s ∧ Rounds c s) (taken : planStep s act = some next) : Books c next ∧ Rounds c next := by
  refine plan_step ?_ ?_ ?_ s act next inv taken
  · intro s early pool books rounds p m member
    classical
    obtain ⟨-,dialed,count,-⟩ := recycled_spec (d := s.dispatch) early p
    show occurs m.1.overlay s.dialed =
      recycles (recycled early s.dispatch) p + occurs m.1.overlay ((recycled early s.dispatch).dialed p)
    rw [dialed,count,rounds p m member]
    split
    · next exhausted =>
      -- All members of the bucket were dialed once.
      have all := books.members p
      rw [exhausted.2.1,List.nil_append] at all
      have once : occurs m.1.overlay (s.dispatch.dialed p) = 1 := by
        rw [occurs,(all.map _).count_eq]
        exact List.count_eq_one_of_mem (nodup_members distinct p) (List.mem_map_of_mem member)
      rw [once]
      rfl
    · rfl
  · intro s p m d' books rounds dials q n member
    obtain ⟨rest,free,spec⟩ := dial_spec dials
    have inM := mem_members books (p := p) (m := m) (by rw [free]; exact List.mem_append_left _ List.mem_cons_self)
    show occurs n.1.overlay (s.dialed ++ [m]) = recycles d' q + occurs n.1.overlay (d'.dialed q)
    rw [occurs_append,rounds q n member,(spec q).2.2.2.2,(spec q).2.1]
    split
    · rw [occurs_append,Nat.add_assoc]
    · next other =>
      have apart : m.1.overlay ≠ n.1.overlay := by
        intro same
        have equal := overlay_inj distinct (member_all inM) (member_all member) same
        exact other (by rw [← c.own q n member,← equal,c.own p m inM])
      have none_ : occurs n.1.overlay [m] = 0 := List.count_eq_zero_of_not_mem (by simpa using Ne.symm apart)
      rw [none_,Nat.add_zero]
  · intro s i m books rounds at_
    exact rounds

/-- A list whose elements are of a set, none of them more than `k` times. -/
theorem length_le_of_count {xs ys : List A} {k : Nat} (within : ∀ x ∈ xs, x ∈ ys) (most : ∀ x, xs.count x ≤ k) :
    xs.length ≤ k * ys.length := by
  calc xs.length = ∑ x ∈ xs.toFinset, xs.count x := (List.sum_toFinset_count_eq_length xs).symm
    _ ≤ ∑ _x ∈ xs.toFinset, k := Finset.sum_le_sum fun x _ => most x
    _ = xs.toFinset.card * k := Finset.sum_const_nat fun _ _ => rfl
    _ ≤ ys.toFinset.card * k :=
      Nat.mul_le_mul_right k (Finset.card_le_card fun x member => List.mem_toFinset.mpr (within x (List.mem_toFinset.mp member)))
    _ ≤ k * ys.length := by rw [Nat.mul_comm]; exact Nat.mul_le_mul_left k ys.toFinset_card_le

/-- In every run in which each connection is reported once, a member is on exactly
    one of the two lists of its bucket and in flight at most once, the counters of a
    bucket are its connections in flight and the sum of their rates, no member is
    dialed more than four times, and `next` returns at most four times as many
    members as there are. -/
theorem exact_books (c : Candidates M A) (distinct : c.Distinct) (fits : c.Fits) (pool : Pool) (acts : List PlanAct)
    (s : Planning M A) (reached : run planStep (planned c pool) acts = some s) :
    (∀ p, (s.dispatch.unused p ++ s.dispatch.dialed p).Perm (c.members p) ∧
      ∀ m ∈ c.members p, Xor (m ∈ s.dispatch.unused p) (m ∈ s.dispatch.dialed p)) ∧
    (s.inflight.map fun m => m.1.overlay).Nodup ∧
    (∀ p, (s.dispatch.activeN.lookup p).getD 0 = (s.active p).length ∧
      (s.dispatch.activeRate.lookup p).getD 0 = ((s.active p).map fun m => max m.2 1).sum) ∧
    (∀ a, (s.dialed.map fun m => m.1.overlay).count a ≤ 4) ∧ s.dialed.length ≤ 4 * c.all.length := by
  have start := books_planned c pool
  obtain ⟨books,rated⟩ := run_invariant (rated_step fits) ⟨start,fun p => rfl⟩ reached
  obtain ⟨-,apart⟩ := run_invariant (apart_step distinct) ⟨start,List.nodup_nil⟩ reached
  obtain ⟨-,rounds⟩ := run_invariant (rounds_step distinct) ⟨start,fun p m member => rfl⟩ reached
  have once := fun p => nodup_bucket distinct books p
  have four : ∀ a, (s.dialed.map fun m => m.1.overlay).count a ≤ 4 := by
    intro a
    by_cases here : a ∈ s.dialed.map fun m => m.1.overlay
    · obtain ⟨m,member,rfl⟩ := List.mem_map.mp here
      have most : occurs m.1.overlay (s.dispatch.dialed m.1.prefix_) ≤ 1 := by
        have part := once m.1.prefix_
        rw [List.map_append] at part
        exact List.nodup_iff_count_le_one.mp (part.sublist (List.sublist_append_right _ _)) _
      have count := rounds m.1.prefix_ m (books.known m member)
      have rounds_ := books.recycles m.1.prefix_
      rw [occurs] at count
      omega
    · rw [List.count_eq_zero_of_not_mem here]
      exact Nat.zero_le 4
  refine ⟨fun p => ⟨books.members p,fun m member => ?_⟩,apart,fun p => ⟨books.number p,rated p⟩,four,?_⟩
  · have either := List.mem_append.mp ((books.members p).mem_iff.mpr member)
    have part := once p
    rw [List.map_append,List.nodup_append] at part
    have both : ¬(m ∈ s.dispatch.unused p ∧ m ∈ s.dispatch.dialed p) := fun both =>
      part.2.2 _ (List.mem_map_of_mem both.1) _ (List.mem_map_of_mem both.2) rfl
    rw [xor_iff_or_and_not_and]
    exact ⟨either,both⟩
  · have within : ∀ x ∈ s.dialed.map (fun m => m.1.overlay), x ∈ c.all.map fun m => m.1.overlay := by
      intro x member
      obtain ⟨m,dialed,rfl⟩ := List.mem_map.mp member
      exact List.mem_map_of_mem (member_all (books.known m dialed))
    have length := length_le_of_count within four
    simpa using length

/-- Two members, the first of them reported. -/
theorem exact_books_two : ∃ s, run planStep (planned (crowd 2) thirty)
      [.next thirty thirty [0],.next thirty thirty [0],.done 0] = some s ∧
    (s.inflight.map fun m => m.1.overlay).Nodup ∧ s.dialed.length ≤ 4 * (crowd 2).all.length := by
  have distinct : (crowd 2).Distinct := by unfold Candidates.Distinct; decide
  have fits : (crowd 2).Fits := fits_crowd (by decide)
  have runs : (run planStep (planned (crowd 2) thirty)
      [.next thirty thirty [0],.next thirty thirty [0],.done 0]).isSome = true := by decide +kernel
  obtain ⟨s,reached⟩ := Option.isSome_iff_exists.mp runs
  obtain ⟨-,apart,-,-,most⟩ := exact_books (crowd 2) distinct fits thirty _ s reached
  exact ⟨s,reached,apart,most⟩

end Counts
end Runs

/-! ### A sum of more than 64 bits -/

/-- A dial keeps the buckets of the map. -/
theorem dial_keys {d d' : Dispatch M A} {p : Nat} {m : Member M A} (dials : d.dial p = some (m,d')) :
    d'.cands.keys.Perm d.cands.keys := by
  obtain ⟨rest,free,-⟩ := dial_spec dials
  have key : p ∈ d.cands.keys := unused_key (by rw [free]; exact List.cons_ne_nil _ _)
  unfold Dispatch.dial at dials
  rw [free] at dials
  cases dials
  rw [AList.keys_insert]
  exact (List.perm_cons_erase key).symm

/-- A call of `next` that dials a bucket. -/
theorem plan_next {s : Planning M A} {order : List Nat} {p : Nat} (keys : order.Perm s.dispatch.cands.keys)
    (fresh : ∀ q, ¬Exhausted s.pool s.dispatch q) (considered : Considered s.pool s.dispatch p)
    (first : ∀ q, q ≠ p → Considered s.pool s.dispatch q → urgency s.pool s.dispatch q < urgency s.pool s.dispatch p) :
    ∃ m d', s.dispatch.dial p = some (m,d') ∧
      planStep s (.next s.pool s.pool order) = some ⟨d',s.pool,s.inflight ++ [m],s.dialed ++ [m]⟩ := by
  obtain ⟨same,m,d',dials,chosen⟩ := next_dials fresh (keys.mem_iff.mpr (unused_key considered.1)) considered
    fun q _ => first q
  have allowed : Allowed s s.pool s.pool order := ⟨fun p _ => le_rfl,fun p _ => le_rfl,by rw [same]; exact keys⟩
  exact ⟨m,d',dials,by simp only [planStep,if_pos allowed,chosen,Option.toList_some]⟩

/-- The other buckets are left as they are. -/
def SameElsewhere (p : Nat) (d d' : Dispatch M A) : Prop := ∀ q, q ≠ p →
  d'.unused q = d.unused q ∧ d'.dialed q = d.dialed q ∧ number d' q = number d q ∧ rate d' q = rate d q ∧
    recycles d' q = recycles d q

/-- The first member of a bucket is in flight. -/
structure Dials (p : Nat) (m : Member M A) (left : List (Member M A)) (s next : Planning M A) : Prop where
  pool : next.pool = s.pool
  keys : next.dispatch.cands.keys.Perm s.dispatch.cands.keys
  unused : next.dispatch.unused p = left
  inflight : next.inflight = s.inflight ++ [m]
  number : number next.dispatch p = number s.dispatch p + 1
  rate : rate next.dispatch p = wrapAdd (rate s.dispatch p) (max m.2 1)
  same : SameElsewhere p s.dispatch next.dispatch

theorem dials_next {s : Planning M A} {order : List Nat} {p : Nat} {m : Member M A} {left : List (Member M A)}
    (keys : order.Perm s.dispatch.cands.keys) (free : s.dispatch.unused p = m :: left)
    (chunks : 30 ≤ remaining s.pool p ∨ 0 < remaining s.pool p ∧ number s.dispatch p = 0)
    (fresh : ∀ q, q ≠ p → ¬Exhausted s.pool s.dispatch q)
    (first : ∀ q, q ≠ p → Considered s.pool s.dispatch q → urgency s.pool s.dispatch q < urgency s.pool s.dispatch p) :
    ∃ next, planStep s (.next s.pool s.pool order) = some next ∧ Dials p m left s next := by
  have some_ : s.dispatch.unused p ≠ [] := by rw [free]; exact List.cons_ne_nil _ _
  have all : ∀ q, ¬Exhausted s.pool s.dispatch q := by
    intro q exhausted
    by_cases here : q = p
    · subst here; exact some_ exhausted.2.1
    · exact fresh q here exhausted
  obtain ⟨n,d',dials,taken⟩ := plan_next keys all ⟨some_,chunks⟩ first
  obtain ⟨rest,free',spec⟩ := dial_spec dials
  cases free.symm.trans free'
  obtain ⟨unused,-,count,sum,-⟩ := spec p
  rw [if_pos rfl] at unused count sum
  refine ⟨_,taken,rfl,dial_keys dials,unused,rfl,count,sum,fun q other => ?_⟩
  obtain ⟨unused,dialed,count,sum,rounds⟩ := spec q
  rw [if_neg other] at unused dialed count sum
  exact ⟨unused,dialed,count,sum,rounds⟩

/-- Some members of the bucket 0 are left, with chunks for each, and no other bucket is
    dialed or recycled. -/
structure Lone (order : List Nat) (left : List (Member M A)) (s : Planning M A) : Prop where
  keys : order.Perm s.dispatch.cands.keys
  chunks : 30 ≤ remaining s.pool 0
  unused : s.dispatch.unused 0 = left
  others : ∀ q, q ≠ 0 → ¬Considered s.pool s.dispatch q ∧ ¬Exhausted s.pool s.dispatch q

theorem lone_step {order : List Nat} {m : Member M A} {left : List (Member M A)} {s : Planning M A}
    (lone : Lone order (m :: left) s) :
    ∃ next, planStep s (.next s.pool s.pool order) = some next ∧ Dials 0 m left s next ∧ Lone order left next := by
  obtain ⟨keys,chunks,unused,others⟩ := lone
  obtain ⟨next,taken,dials⟩ := dials_next keys unused (.inl chunks) (fun q other => (others q other).2)
    fun q other able => absurd able (others q other).1
  refine ⟨next,taken,dials,⟨keys.trans dials.keys.symm,by rw [dials.pool]; exact chunks,dials.unused,fun q other => ?_⟩⟩
  obtain ⟨unused,dialed,count,-,rounds⟩ := dials.same q other
  simp only [Considered,Exhausted,unused,dialed,count,rounds,dials.pool]
  exact others q other

/-- Members are dialed one after the other. -/
theorem lone_run {order : List Nat} {left rest : List (Member M A)} {s : Planning M A} (lone : Lone order (left ++ rest) s)
    (word : rate s.dispatch 0 < 2 ^ 64) :
    ∃ final, run planStep s (List.replicate left.length (.next s.pool s.pool order)) = some final ∧ final.pool = s.pool ∧
      Lone order rest final ∧ final.inflight = s.inflight ++ left ∧
      rate final.dispatch 0 = (rate s.dispatch 0 + rates left) % 2 ^ 64 ∧ SameElsewhere 0 s.dispatch final.dispatch := by
  induction left generalizing s with
  | nil =>
    exact ⟨s,rfl,rfl,lone,(List.append_nil _).symm,(Nat.mod_eq_of_lt word).symm,fun q _ => ⟨rfl,rfl,rfl,rfl,rfl⟩⟩
  | cons m left ih =>
    obtain ⟨next,taken,dials,lone'⟩ := lone_step lone
    obtain ⟨final,reached,last,ends,flies,all,stays⟩ := ih lone' (by rw [dials.rate]; exact wrapAdd_lt _ _)
    refine ⟨final,?_,last.trans dials.pool,ends,?_,?_,fun q other => ?_⟩
    · rw [List.length_cons,List.replicate_succ,run_cons,taken]
      rwa [dials.pool] at reached
    · rw [flies,dials.inflight,List.append_assoc]
      rfl
    · have more : rates (m :: left) = max m.2 1 + rates left := by simp [rates]
      rw [all,dials.rate,wrapAdd,more,Nat.mod_add_mod,Nat.add_assoc]
    · obtain ⟨unused,dialed,count,sum,rounds⟩ := dials.same q other
      obtain ⟨unused',dialed',count',sum',rounds'⟩ := stays q other
      exact ⟨unused'.trans unused,dialed'.trans dialed,count'.trans count,sum'.trans sum,rounds'.trans rounds⟩

theorem crowd_run (n : Nat) : (crowd n).Distinct ∧ (∀ p, ∀ m ∈ (crowd n).members p, m.2 = 2 ^ 32 - 1) ∧
    ∃ s, run planStep (planned (crowd n) thirty) (List.replicate n (.next thirty thirty [0])) = some s ∧
      (s.dispatch.activeRate.lookup 0).getD 0 = n * (2 ^ 32 - 1) % 2 ^ 64 ∧
      ((s.active 0).map fun m => max m.2 1).sum = n * (2 ^ 32 - 1) := by
  have members : (crowd n).members 0 = largest 0 n := by
    rw [Candidates.members,crowd,AList.lookup_insert,Option.getD_some]
  have others : ∀ p, p ≠ 0 → (crowd n).members p = [] := by
    intro p other
    rw [Candidates.members,crowd,AList.lookup_insert_ne other,AList.lookup_empty]
    rfl
  have top : ∀ p, ∀ m ∈ (crowd n).members p, m.2 = 2 ^ 32 - 1 := by
    intro p m member
    by_cases zero : p = 0
    · subst zero
      rw [members] at member
      obtain ⟨i,-,rfl⟩ := List.mem_map.mp member
      rfl
    · rw [others p zero] at member
      cases member
  have lone : Lone [0] ((crowd n).members 0 ++ []) (planned (crowd n) thirty) :=
    ⟨List.Perm.refl _,le_rfl,(List.append_nil _).symm,fun q other =>
      ⟨fun able => able.1 (others q other),fun exhausted => exhausted.1 rfl⟩⟩
  obtain ⟨s,reached,-,-,flies,sum,-⟩ := lone_run lone (by decide : (0 : Nat) < 2 ^ 64)
  have length : ((crowd n).members 0).length = n := by simp [members,largest]
  have total_ : rates ((crowd n).members 0) = n * (2 ^ 32 - 1) := by rw [rates,rates_crowd,List.sum_replicate_nat]
  rw [length] at reached
  refine ⟨?_,top,s,reached,?_,?_⟩
  · have all : ((crowd n).all.map fun m => m.1.overlay) = List.range' 0 n := by
      simp [Candidates.all,crowd,largest,Function.comp_def]
    rw [Candidates.Distinct,all]
    exact List.nodup_range'
  · refine Eq.trans sum ?_
    rw [total_,show rate (planned (crowd n) thirty).dispatch 0 = 0 from rfl,Nat.zero_add]
  · have everything : s.active 0 = (crowd n).members 0 := by
      rw [Planning.active,flies]
      exact List.filter_eq_self.mpr fun m member => by simpa using (crowd n).own 0 m member
    rw [everything]
    exact total_

/-- Two members more than there are 32-bit numbers, all in flight: the sum of their
    rates is not what the counter says. -/
theorem overflown : (crowd (2 ^ 32 + 2)).Distinct ∧ (∀ p, ∀ m ∈ (crowd (2 ^ 32 + 2)).members p, m.2 < 2 ^ 32) ∧
    ∃ s, run planStep (planned (crowd (2 ^ 32 + 2)) thirty) (List.replicate (2 ^ 32 + 2) (.next thirty thirty [0])) = some s ∧
      (s.dispatch.activeRate.lookup 0).getD 0 ≠ ((s.active 0).map fun m => max m.2 1).sum := by
  obtain ⟨distinct,top,s,reached,counter,sum⟩ := crowd_run (2 ^ 32 + 2)
  refine ⟨distinct,fun p m member => ?_,s,reached,?_⟩
  · rw [top p m member]
    decide
  · rw [counter,sum]
    decide

/-! ### The critical path -/

section CriticalPath
variable {c : Candidates M A} {s : Planning M A}

/-- The state after the recycling of `next`. -/
def recycling (early : Pool) (s : Planning M A) : Planning M A := { s with dispatch := recycled early s.dispatch }

/-- A bucket that has an unused candidate and work for one more connection. -/
def Eligible (late : Pool) (s : Planning M A) (p : Nat) : Prop :=
  s.dispatch.unused p ≠ [] ∧ (30 ≤ remaining late p ∨ 0 < remaining late p ∧ s.active p = [])

instance [DecidableEq M] [DecidableEq A] (late : Pool) (s : Planning M A) (p : Nat) : Decidable (Eligible late s p) :=
  inferInstanceAs (Decidable (_ ∧ _))

theorem idle_iff (books : Books c s) (p : Nat) : number s.dispatch p = 0 ↔ s.active p = [] := by
  rw [books.number,List.length_eq_zero_iff]

theorem considered_iff (books : Books c s) (late : Pool) (p : Nat) : Considered late s.dispatch p ↔ Eligible late s p := by
  rw [Considered,Eligible,idle_iff books]

theorem rates_pos {members : List (Member M A)} (some_ : members ≠ []) : 0 < rates members := by
  obtain ⟨m,rest,rfl⟩ := List.exists_cons_of_ne_nil some_
  simp only [rates,List.map_cons,List.sum_cons]
  omega

/-- An idle bucket is infinitely critical, the largest first. -/
theorem urgency_idle (rated : Rated s) {p : Nat} (late : Pool) (idle : s.active p = []) :
    urgency late s.dispatch p = Dispatch.u128Max / 2 + remaining late p := by
  rw [urgency,rated,idle]
  rfl

/-- A bucket that is served is critical by the time that its work takes. -/
theorem urgency_busy (rated : Rated s) {p : Nat} (late : Pool) (busy : s.active p ≠ []) :
    urgency late s.dispatch p = remaining late p * 10000 / rates (s.active p) := by
  have small : remaining late p * 10000 ≤ Dispatch.u128Max := by
    have word := remaining_lt late p
    unfold Dispatch.u128Max
    omega
  rw [urgency,rated,Dispatch.criticality,if_neg (rates_pos busy).ne',Nat.min_eq_left small]

/-- Whatever is served is less critical than what is not. -/
theorem urgency_busy_lt (rated : Rated s) {p q : Nat} (late : Pool) (busy : s.active p ≠ []) (idle : s.active q = []) :
    urgency late s.dispatch p < urgency late s.dispatch q := by
  rw [urgency_busy rated late busy,urgency_idle rated late idle]
  have word := remaining_lt late p
  have whole := Nat.div_le_self (remaining late p * 10000) (rates (s.active p))
  unfold Dispatch.u128Max
  omega

/-- In every reachable state `next` returns nothing exactly when no bucket is
    eligible after its recycling, and else the first candidate of an eligible bucket:
    one of the idle ones with the most chunks, if any is idle, and one that takes the
    longest otherwise. A bucket that has members, chunks for one of them, nothing in
    flight and rounds left does not come away empty. -/
theorem work_conserving (c : Candidates M A) (fits : c.Fits) (pool : Pool) (acts : List PlanAct) (s : Planning M A)
    (reached : run planStep (planned c pool) acts = some s) (early late : Pool) (order : List Nat)
    (allowed : Allowed s early late order) (result : Option (Member M A)) (d' : Dispatch M A)
    (chosen : s.dispatch.next (remaining early) (remaining late) order = (result,d')) :
    (result = none ↔ ∀ p, ¬Eligible late (recycling early s) p) ∧
    (∀ m ∈ result, ∃ p rest, Eligible late (recycling early s) p ∧
      (recycled early s.dispatch).unused p = m :: rest ∧
      ((∃ q, Eligible late (recycling early s) q ∧ s.active q = []) → s.active p = [] ∧
        ∀ q, Eligible late (recycling early s) q → s.active q = [] →
          remaining late q ≤ remaining late p) ∧
      ((∀ q, Eligible late (recycling early s) q → s.active q ≠ []) →
        ∀ q, Eligible late (recycling early s) q →
          remaining late q * 10000 / rates (s.active q) ≤ remaining late p * 10000 / rates (s.active p))) ∧
    ∀ p, c.members p ≠ [] → 30 ≤ remaining late p → s.active p = [] → recycles s.dispatch p < 3 → result ≠ none := by
  obtain ⟨books,rated⟩ := run_invariant (rated_step fits) ⟨books_planned c pool,fun p => rfl⟩ reached
  have books' : Books c (recycling early s) := books_recycled early s.pool books
  have rated' : Rated (recycling early s) := by
    intro p
    classical
    exact (recycled_spec early p).2.2.2.2.trans (rated p)
  obtain ⟨nothing,something⟩ := best_spec (d := recycled early s.dispatch) late order none
  have eligible : ∀ p, Considered late (recycled early s.dispatch) p ↔ Eligible late (recycling early s) p :=
    considered_iff books' late
  have listed : ∀ p, Eligible late (recycling early s) p → p ∈ order := fun p able =>
    allowed.2.2.mem_iff.mpr (unused_key able.1)
  have none_iff : result = none ↔ ∀ p, ¬Eligible late (recycling early s) p := by
    constructor
    · rintro rfl p able
      rcases next_cases chosen with ⟨-,-,unfound⟩ | ⟨m,best,same,-⟩
      · cases found : order.foldl (Dispatch.better (remaining late) (recycled early s.dispatch)) none with
        | none => exact (nothing.mp found).2 p (listed p able) ((eligible p).mpr able)
        | some best =>
          obtain ⟨origin,-⟩ := something best.1 best.2 found
          obtain ⟨-,considered,-⟩ := origin.resolve_left nofun
          obtain ⟨m,after,dials⟩ := dial_some considered.1
          rw [found,Option.bind_some,dials] at unfound
          cases unfound
      · cases same
    · intro none_
      rcases next_cases chosen with ⟨empty,-⟩ | ⟨m,best,-,found,-⟩
      · exact empty
      · obtain ⟨origin,-⟩ := something best.1 best.2 found
        obtain ⟨-,considered,-⟩ := origin.resolve_left nofun
        exact absurd ((eligible best.2).mp considered) (none_ best.2)
  refine ⟨none_iff,?_,?_⟩
  · intro m taken
    rcases next_cases chosen with ⟨empty,-⟩ | ⟨n,⟨crit,p⟩,same,found,dials⟩
    · rw [empty] at taken
      cases taken
    · rw [same] at taken
      cases taken
      obtain ⟨origin,most,-⟩ := something crit p found
      obtain ⟨-,considered,rfl⟩ := origin.resolve_left nofun
      obtain ⟨rest,free,-⟩ := dial_spec dials
      have above : ∀ q, Eligible late (recycling early s) q →
          urgency late (recycling early s).dispatch q ≤ urgency late (recycling early s).dispatch p :=
        fun q able => most q (listed q able) ((eligible q).mpr able)
      refine ⟨p,rest,(eligible p).mp considered,free,?_,?_⟩
      · rintro ⟨q,able,idle⟩
        have here : s.active p = [] := by
          by_contra busy
          exact absurd (above q able) (urgency_busy_lt rated' late busy idle).not_ge
        refine ⟨here,fun x ableX idleX => ?_⟩
        have larger := above x ableX
        rw [urgency_idle rated' late here,urgency_idle rated' late idleX] at larger
        omega
      · intro busy q able
        have larger := above q able
        rwa [urgency_busy rated' late (busy q able),urgency_busy rated' late (busy p ((eligible p).mp considered))] at larger
  · intro p members chunks idle rounds empty
    have free : (recycled early s.dispatch).unused p ≠ [] := by
      classical
      rw [(recycled_spec early p).1]
      by_cases exhausted : Exhausted early s.dispatch p
      · rw [if_pos exhausted]
        exact exhausted.1
      · rw [if_neg exhausted]
        intro unused
        -- Every member is dialed, so the bucket would have been recycled.
        have all := books.members p
        rw [unused,List.nil_append] at all
        have dialed : s.dispatch.dialed p ≠ [] := fun none_ => members (List.nil_perm.mp (none_ ▸ all))
        have before := remaining_le allowed.2.1 p
        exact exhausted ⟨dialed,unused,(idle_iff books p).mpr idle,by omega,rounds⟩
    exact none_iff.mp empty p ⟨free,.inl chunks⟩

end CriticalPath

/-- Two members of the bucket 0 and two of the bucket 1. -/
def pairs : Candidates Unit Nat where
  map := AList.insert 0 [(⟨(),0,0⟩,140),(⟨(),1,0⟩,140)] (AList.insert 1 [(⟨(),2,1⟩,140),(⟨(),3,1⟩,140)] ∅)
  own := own_two (by decide) (by decide)

/-- A hundred chunks, and twenty. -/
def uneven : Pool := AList.insert 0 100 (AList.insert 1 20 ∅)

/-- With a member of the larger bucket in flight the first member of the other one is
    next, which nothing serves yet. -/
theorem work_conserving_two : ∃ s d', run planStep (planned pairs uneven) [.next uneven uneven [0,1]] = some s ∧
    s.active 0 = [(⟨(),0,0⟩,140)] ∧
    s.dispatch.next (remaining uneven) (remaining uneven) [1,0] = (some (⟨(),2,1⟩,140),d') ∧
    ∃ p rest, Eligible uneven (recycling uneven s) p ∧
      (recycled uneven s.dispatch).unused p = (⟨(),2,1⟩,140) :: rest ∧ s.active p = [] := by
  have fits : pairs.Fits := by
    intro p
    rw [Candidates.members,pairs,lookup_two]
    split_ifs <;> decide
  have facts : (run planStep (planned pairs uneven) [.next uneven uneven [0,1]]).any (fun s =>
      decide (s.active 0 = [(⟨(),0,0⟩,140)] ∧ Allowed s uneven uneven [1,0] ∧
        (s.dispatch.next (remaining uneven) (remaining uneven) [1,0]).1 = some (⟨(),2,1⟩,140) ∧
        Eligible uneven (recycling uneven s) 1 ∧ s.active 1 = [])) = true := by decide +kernel
  obtain ⟨s,reached,holds⟩ := (Option.any_eq_true _ _).mp facts
  obtain ⟨busy,allowed,chosen,able,idle⟩ := of_decide_eq_true holds
  obtain ⟨-,choice,-⟩ := work_conserving pairs fits uneven _ s reached uneven uneven [1,0] allowed _ _ rfl
  obtain ⟨p,rest,here,free,infinite,-⟩ := choice _ chosen
  exact ⟨s,_,reached,busy,Prod.ext chosen rfl,p,rest,here,free,(infinite ⟨1,able,idle⟩).1⟩

/-- Members of the bucket 0 of the largest 32-bit rate and two of the smallest, and two
    members of the bucket 1. -/
def wide (n : Nat) : Candidates Unit Nat where
  map := AList.insert 0 (largest 0 (n + 1) ++ [(⟨(),n + 1,0⟩,1),(⟨(),n + 2,0⟩,1)])
    (AList.insert 1 [(⟨(),n + 3,1⟩,5),(⟨(),n + 4,1⟩,5)] ∅)
  own := by
    refine own_two (fun m member => ?_) (by simp)
    rcases List.mem_append.mp member with high | low
    · obtain ⟨i,-,rfl⟩ := List.mem_map.mp high
      rfl
    · simp only [List.mem_cons,List.not_mem_nil,or_false] at low
      rcases low with rfl | rfl <;> rfl

/-- The larger bucket is dialed first, and then the other one. -/
theorem wide_begins (n : Nat) : ∃ s, run planStep (planned (wide n) uneven) (List.replicate 2 (.next uneven uneven [0,1])) = some s ∧
    s.pool = uneven ∧ s.inflight = [(⟨(),0,0⟩,2 ^ 32 - 1),(⟨(),n + 3,1⟩,5)] ∧
    Lone [0,1] (largest 1 n ++ [(⟨(),n + 1,0⟩,1)] ++ [(⟨(),n + 2,0⟩,1)]) s ∧ rate s.dispatch 0 = 2 ^ 32 - 1 ∧
    s.dispatch.unused 1 = [(⟨(),n + 4,1⟩,5)] ∧ number s.dispatch 1 = 1 ∧ rate s.dispatch 1 = 5 ∧
    ∀ q, q ≠ 0 → q ≠ 1 → s.dispatch.dialed q = [] := by
  let start := planned (wide n) uneven
  have unused : ∀ q, start.dispatch.unused q = _ := lookup_two _ _
  have zero : start.dispatch.unused 0 =
      (⟨(),0,0⟩,2 ^ 32 - 1) :: (largest 1 n ++ [(⟨(),n + 1,0⟩,1)] ++ [(⟨(),n + 2,0⟩,1)]) := by
    rw [unused,if_pos rfl,List.append_assoc]
    rfl
  have one : start.dispatch.unused 1 = [(⟨(),n + 3,1⟩,5),(⟨(),n + 4,1⟩,5)] := unused 1
  have none_ : ∀ q, q ≠ 0 → q ≠ 1 → start.dispatch.unused q = [] := by
    intro q first second
    rw [unused,if_neg first,if_neg second]
  -- Both buckets are idle, and the larger one goes first.
  obtain ⟨s,taken,dials⟩ := dials_next (List.Perm.refl [0,1] : [0,1].Perm start.dispatch.cands.keys) zero
    (.inl (by decide : 30 ≤ remaining uneven 0)) (fun q _ exhausted => exhausted.1 rfl) (by
      intro q other able
      by_cases second : q = 1
      · subst second
        show Dispatch.criticality 20 0 < Dispatch.criticality 100 0
        decide
      · exact absurd (none_ q other second) able.1)
  have served : rate s.dispatch 0 = 2 ^ 32 - 1 := by
    rw [dials.rate,show rate start.dispatch 0 = 0 from rfl]
    decide
  have pool : s.pool = uneven := dials.pool
  obtain ⟨unused1,-,number1,rate1,-⟩ := dials.same 1 (by decide)
  have idle : number s.dispatch 1 = 0 ∧ rate s.dispatch 1 = 0 := ⟨number1,rate1⟩
  -- Now only the other one is idle.
  obtain ⟨s',taken',dials'⟩ := dials_next dials.keys.symm (unused1.trans one)
    (.inr ⟨by rw [pool]; decide,idle.1⟩) (by
      intro q other exhausted
      by_cases first : q = 0
      · subst first
        have empty := dials.unused.symm.trans exhausted.2.1
        simp at empty
      · exact exhausted.1 (dials.same q first).2.1) (by
      intro q other able
      by_cases first : q = 0
      · subst first
        rw [urgency,urgency,served,idle.2,pool]
        show Dispatch.criticality 100 (2 ^ 32 - 1) < Dispatch.criticality 20 0
        decide
      · exact absurd ((dials.same q first).1.trans (none_ q first other)) able.1)
  have first : planStep start (.next uneven uneven [0,1]) = some s := taken
  have second : planStep s (.next uneven uneven [0,1]) = some s' := pool ▸ taken'
  have busy : number s'.dispatch 1 = 1 := by rw [dials'.number,idle.1]
  obtain ⟨unused0,-,-,rate0,-⟩ := dials'.same 0 (by decide)
  have outside : ∀ q, q ≠ 0 → q ≠ 1 → s'.dispatch.unused q = [] ∧ s'.dispatch.dialed q = [] := by
    intro q first second
    obtain ⟨unused,dialed,-⟩ := dials.same q first
    obtain ⟨unused',dialed',-⟩ := dials'.same q second
    exact ⟨(unused'.trans unused).trans (none_ q first second),dialed'.trans dialed⟩
  refine ⟨s',?_,dials'.pool.trans pool,by rw [dials'.inflight,dials.inflight]; rfl,
    ⟨(dials'.keys.trans dials.keys).symm,by rw [dials'.pool,pool]; decide,unused0.trans dials.unused,fun q other => ?_⟩,
    rate0.trans served,dials'.unused,busy,by rw [dials'.rate,idle.2]; rfl,fun q first second => (outside q first second).2⟩
  · rw [List.replicate_succ,run_cons,first,Option.bind_some,List.replicate_succ,run_cons,second]
    rfl
  · by_cases here : q = 1
    · subst here
      refine ⟨fun able => ?_,fun exhausted => ?_⟩
      · have chunks := able.2
        rw [dials'.pool,pool,busy] at chunks
        revert chunks
        decide
      · have empty := dials'.unused.symm.trans exhausted.2.1
        cases empty
    · obtain ⟨unused,dialed⟩ := outside q other here
      exact ⟨fun able => able.1 unused,fun exhausted => exhausted.1 dialed⟩

/-- All members but the last ones of the two buckets are dialed. -/
theorem wide_run (n : Nat) : ∃ s, run planStep (planned (wide n) uneven)
      (List.replicate (n + 3) (.next uneven uneven [0,1])) = some s ∧ s.pool = uneven ∧
    s.inflight = (⟨(),0,0⟩,2 ^ 32 - 1) :: (⟨(),n + 3,1⟩,5) :: (largest 1 n ++ [(⟨(),n + 1,0⟩,1)]) ∧
    Lone [0,1] [(⟨(),n + 2,0⟩,1)] s ∧ rate s.dispatch 0 = ((n + 1) * (2 ^ 32 - 1) + 1) % 2 ^ 64 ∧
    s.dispatch.unused 1 = [(⟨(),n + 4,1⟩,5)] ∧ number s.dispatch 1 = 1 ∧ rate s.dispatch 1 = 5 ∧
    ∀ q, q ≠ 0 → q ≠ 1 → s.dispatch.dialed q = [] := by
  obtain ⟨s,begins,pool,flies,lone,served,unused,count,sum,outside⟩ := wide_begins n
  obtain ⟨final,reached,last,ends,all,total_,same⟩ := lone_run lone (by rw [served]; decide)
  have length : (largest 1 n ++ [((⟨(),n + 1,0⟩,1) : Member Unit Nat)]).length = n + 1 := by simp [largest]
  have low : rates (largest 1 n ++ [((⟨(),n + 1,0⟩,1) : Member Unit Nat)]) = n * (2 ^ 32 - 1) + 1 := by
    rw [rates,List.map_append,rates_largest,List.sum_append,List.sum_replicate_nat]
    rfl
  rw [length,pool] at reached
  obtain ⟨unused',dialed',count',sum',-⟩ := same 1 (by decide)
  refine ⟨final,?_,last.trans pool,by rw [all,flies]; rfl,ends,?_,unused'.trans unused,count'.trans count,sum'.trans sum,
    fun q first second => (same q first).2.1.trans (outside q first second)⟩
  · rw [Nat.add_comm n 3,show 3 + n = 2 + (n + 1) by omega,List.replicate_add]
    exact run_append_some.mpr ⟨s,begins,reached⟩
  · have more : 2 ^ 32 - 1 + (n * (2 ^ 32 - 1) + 1) = (n + 1) * (2 ^ 32 - 1) + 1 := by omega
    rw [total_,served,low,more]

theorem prefix_largest {first n : Nat} {m : Member Unit Nat} (member : m ∈ largest first n) : m.1.prefix_ = 0 ∧ m.2 < 2 ^ 32 := by
  obtain ⟨i,-,rfl⟩ := List.mem_map.mp member
  exact ⟨rfl,(by decide : 2 ^ 32 - 1 < 2 ^ 32)⟩

theorem wide_rates (n p : Nat) : ∀ m ∈ (wide n).members p, m.2 < 2 ^ 32 := by
  intro m member
  rw [Candidates.members,wide,lookup_two] at member
  split_ifs at member
  · rcases List.mem_append.mp member with high | low
    · exact (prefix_largest high).2
    · simp only [List.mem_cons,List.not_mem_nil,or_false] at low
      rcases low with rfl | rfl <;> exact (by decide : 1 < 2 ^ 32)
  · simp only [List.mem_cons,List.not_mem_nil,or_false] at member
    rcases member with rfl | rfl <;> exact (by decide : 5 < 2 ^ 32)
  · cases member

/-- With all but the last members of two buckets in flight, and the one of the smaller
    bucket reported, the rates of the other bucket sum to 2^64. The counter says zero,
    and the bucket goes before the one that nothing serves. -/
theorem served_first : (∀ p, ∀ m ∈ (wide (2 ^ 32)).members p, m.2 < 2 ^ 32) ∧
    ∃ s, run planStep (planned (wide (2 ^ 32)) uneven)
      (List.replicate (2 ^ 32 + 3) (.next uneven uneven [0,1]) ++ ([.done 1] : List PlanAct)) = some s ∧
    Allowed s uneven uneven [0,1] ∧
    (s.dispatch.next (remaining uneven) (remaining uneven) [0,1]).1 = some (⟨(),2 ^ 32 + 2,0⟩,1) ∧ s.active 0 ≠ [] ∧
    Eligible uneven (recycling uneven s) 1 ∧ s.active 1 = [] := by
  obtain ⟨s,reached,pool,flies,lone,total_,unused,count,sum,outside⟩ := wide_run (2 ^ 32)
  have wrapped : rate s.dispatch 0 = 0 := by
    rw [total_]
    decide
  have reported : planStep s (.done 1) = some ⟨s.dispatch.done 1 5,s.pool,s.inflight.eraseIdx 1,s.dialed⟩ := by
    rw [planStep,show s.inflight[1]? = some (⟨(),2 ^ 32 + 3,1⟩,5) by rw [flies]; rfl]
    rfl
  have served : s.inflight.eraseIdx 1 = (⟨(),0,0⟩,2 ^ 32 - 1) :: (largest 1 (2 ^ 32) ++ [(⟨(),2 ^ 32 + 1,0⟩,1)]) := by
    rw [flies]
    rfl
  have zero := done_spec (d := s.dispatch) 1 5 0
  have one := done_spec (d := s.dispatch) 1 5 1
  rw [if_neg (by decide),if_neg (by decide),wrapped] at zero
  rw [if_pos rfl,if_pos rfl,count,sum] at one
  have fresh : ∀ q, ¬Exhausted uneven (s.dispatch.done 1 5) q := by
    intro q exhausted
    by_cases first : q = 0
    · subst first
      cases lone.unused.symm.trans exhausted.2.1
    · by_cases second : q = 1
      · subst second
        cases unused.symm.trans exhausted.2.1
      · exact exhausted.1 (outside q first second)
  have first : ∀ q ∈ [0,1], q ≠ 0 → Considered uneven (s.dispatch.done 1 5) q →
      urgency uneven (s.dispatch.done 1 5) q < urgency uneven (s.dispatch.done 1 5) 0 := by
    intro q member other _
    obtain rfl : q = 1 := by simpa [other] using member
    rw [urgency,urgency,zero.2,one.2]
    decide
  have some_ : (s.dispatch.done 1 5).unused 0 ≠ [] := by
    rw [show (s.dispatch.done 1 5).unused 0 = _ from lone.unused]
    exact List.cons_ne_nil _ _
  obtain ⟨same,m,d',dials,chosen⟩ := next_dials fresh (List.mem_cons_self : 0 ∈ [0,1])
    ⟨some_,.inl (by decide : 30 ≤ remaining uneven 0)⟩ first
  obtain ⟨rest,free,-⟩ := dial_spec dials
  cases lone.unused.symm.trans free
  have idle : (s.inflight.eraseIdx 1).filter (fun m => decide (m.1.prefix_ = 1)) = [] := by
    refine List.filter_eq_nil_iff.mpr fun m member => ?_
    rw [served] at member
    simp only [List.mem_cons,List.mem_append,List.not_mem_nil,or_false] at member
    rcases member with rfl | high | rfl
    · simp
    · simp [(prefix_largest high).1]
    · simp
  refine ⟨wide_rates _,_,run_append_some.mpr ⟨s,reached,run_one reported⟩,⟨?_,fun p _ => le_rfl,?_⟩,by rw [chosen],?_,?_,idle⟩
  · rw [pool]
    exact fun p _ => le_rfl
  · rw [same]
    exact lone.keys
  · rw [Planning.active,served,List.filter_cons_of_pos (by simp)]
    exact List.cons_ne_nil _ _
  · refine ⟨?_,.inr ⟨by decide,idle⟩⟩
    show (recycled uneven (s.dispatch.done 1 5)).unused 1 ≠ []
    rw [same,show (s.dispatch.done 1 5).unused 1 = _ from unused]
    exact List.cons_ne_nil _ _

end Directswarm.Replanning
