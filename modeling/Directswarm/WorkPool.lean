import Mathlib.Data.List.AList

/-!
`WorkPool` (`schedule.rs`): the buckets of addresses that the connections take
their work from. A bucket is a vector used at its end, and is kept here with that
end first. The order in which `drain_all` goes through the buckets is that of the
hash map, so what is said about it is said up to order.
-/
namespace Directswarm.WorkPool

variable {A : Type}

/-- The buckets by their prefix. -/
abbrev Buckets (A : Type) := AList fun _ : Nat => List A

/-- `pop`: the last address of a bucket. -/
def pop (pool : Buckets A) (bucket : Nat) : Option (A × Buckets A) :=
  match pool.lookup bucket with
  | some (addr :: rest) => some (addr,pool.insert bucket rest)
  | _ => none

def remaining (pool : Buckets A) (bucket : Nat) : Nat := ((pool.lookup bucket).map List.length).getD 0

/-- What `drain_all` collects. -/
def drainAll (pool : Buckets A) : List A := pool.entries.flatMap fun entry => entry.2

/-- `buckets.entry(bucket).or_default().push(addr)`. -/
def push (pool : Buckets A) (bucket : Nat) (addr : A) : Buckets A :=
  pool.insert bucket (addr :: (pool.lookup bucket).getD [])

/-- The contents of one bucket and of the others. -/
theorem drainAll_split {pool : Buckets A} {bucket : Nat} {addrs : List A} (found : pool.lookup bucket = some addrs) :
    (drainAll pool).Perm (addrs ++ drainAll (pool.erase bucket)) := by
  have member : bucket ∈ pool.entries.keys := by
    have := AList.mem_lookup_iff.mp (Option.mem_def.mpr found)
    exact List.mem_keys_of_mem this
  obtain ⟨held,before,after,-,whole,erased⟩ := List.exists_of_kerase member
  have same : held = addrs := by
    have there : (⟨bucket,held⟩ : Sigma fun _ : Nat => List A) ∈ pool.entries := by rw [whole]; simp
    have := AList.mem_lookup_iff.mpr there
    rw [found] at this
    exact (Option.some.inj this).symm
  subst same
  have rest : (pool.erase bucket).entries = before ++ after := erased
  unfold drainAll
  rw [rest,whole]
  simp only [List.flatMap_append,List.flatMap_cons]
  rw [← List.append_assoc,← List.append_assoc]
  exact List.perm_append_comm.append_right _

theorem drainAll_insert (pool : Buckets A) (bucket : Nat) (addrs : List A) :
    drainAll (pool.insert bucket addrs) = addrs ++ drainAll (pool.erase bucket) := by
  unfold drainAll
  rw [AList.entries_insert,List.flatMap_cons]
  rfl

/-- What `pop` returns leaves the pool, and nothing else does. -/
theorem pop_some {pool pool' : Buckets A} {bucket : Nat} {addr : A} (popped : pop pool bucket = some (addr,pool')) :
    (drainAll pool).Perm (addr :: drainAll pool') := by
  unfold pop at popped
  split at popped
  · next found =>
    cases popped
    rw [drainAll_insert]
    exact drainAll_split found
  · cases popped

/-- What is pushed is in the pool, and nothing else enters it. -/
theorem push_perm (pool : Buckets A) (bucket : Nat) (addr : A) :
    (drainAll (push pool bucket addr)).Perm (addr :: drainAll pool) := by
  unfold push
  rw [drainAll_insert]
  cases found : pool.lookup bucket with
  | some addrs => exact List.Perm.cons addr (drainAll_split found).symm
  | none =>
    have absent : bucket ∉ pool.entries.keys := by
      intro member
      exact AList.lookup_eq_none.mp found (AList.mem_keys.mpr member)
    have same : (pool.erase bucket).entries = pool.entries := List.kerase_of_notMem_keys absent
    unfold drainAll
    rw [same]
    simp

end Directswarm.WorkPool
