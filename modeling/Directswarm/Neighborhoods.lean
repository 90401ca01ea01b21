import Mathlib.Algebra.BigOperators.Group.Finset.Basic
import Directswarm.Routing

/-!
Neighborhoods as the planner sees them (`swarm.rs`, `topology.rs`): the 32-bit
prefix of an address, which records store a chunk, and how much of a list of chunks
a cache covers. Proximity, neighborhood and bucket key are one partition of the
addresses, by their leading bits, and so the figures of `coverage` add up.
-/
namespace Directswarm.Neighborhoods
open Directswarm.Text Directswarm.Proximity Directswarm.Routing

/-! ### Leading bits -/

/-- The bits of a byte, the most significant first. -/
def bits (b : Byte) : List Bool := (List.range 8).map fun i => b.val.testBit (7 - i)

def addressBits (a : SwarmAddress) : List Bool := a.toList.flatMap bits

/-- The number of equal leading bits. -/
def equalBits : List Bool → List Bool → Nat
  | x :: xs, y :: ys => if x = y then equalBits xs ys + 1 else 0
  | _, _ => 0

theorem le_equalBits_iff {n : Nat} {xs ys : List Bool} (inX : n ≤ xs.length) (inY : n ≤ ys.length) :
    n ≤ equalBits xs ys ↔ xs.take n = ys.take n := by
  induction n generalizing xs ys with
  | zero => simp
  | succ n ih =>
    obtain _ | ⟨x,xs⟩ := xs
    · cases inX
    obtain _ | ⟨y,ys⟩ := ys
    · cases inY
    simp only [List.length_cons,Nat.add_le_add_iff_right] at inX inY
    rw [equalBits,List.take_succ_cons,List.take_succ_cons,List.cons.injEq,← ih inX inY]
    by_cases same : x = y
    · simp [same]
    · simp [same]

theorem take_bits {n : Nat} (inside : n ≤ 8) (b : Byte) : (bits b).take n = (List.range n).map fun i => b.val.testBit (7 - i) := by
  rw [bits,← List.map_take,List.take_range,Nat.min_eq_left inside]

/-- The high part of a byte is its first bits. -/
theorem high_iff_bits {x y : Byte} {n : Nat} (inside : n ≤ 8) :
    x.val / 2 ^ (8 - n) = y.val / 2 ^ (8 - n) ↔ (bits x).take n = (bits y).take n := by
  rw [take_bits inside,take_bits inside,List.map_inj_left]
  constructor
  · intro same i member
    have before := List.mem_range.mp member
    have bit := congrArg (fun v => v.testBit (n - 1 - i)) same
    simp only [Nat.testBit_div_two_pow] at bit
    rwa [show n - 1 - i + (8 - n) = 7 - i by omega] at bit
  · intro same
    refine Nat.eq_of_testBit_eq fun i => ?_
    rw [Nat.testBit_div_two_pow,Nat.testBit_div_two_pow]
    by_cases before : i < n
    · have bit := same (n - 1 - i) (List.mem_range.mpr (by omega))
      rwa [show 7 - (n - 1 - i) = i + (8 - n) by omega] at bit
    · have large : 2 ^ 8 ≤ 2 ^ (i + (8 - n)) := Nat.pow_le_pow_right (by decide) (by omega)
      rw [Nat.testBit_lt_two_pow (x.isLt.trans_le large),Nat.testBit_lt_two_pow (y.isLt.trans_le large)]

theorem agrees_iff_bits {n : Nat} {xs ys : List Byte} (same : xs.length = ys.length) (inside : n ≤ 8 * xs.length) :
    Agrees n xs ys ↔ (xs.flatMap bits).take n = (ys.flatMap bits).take n := by
  induction xs generalizing n ys with
  | nil =>
    have none_ : ys = [] := List.length_eq_zero_iff.mp same.symm
    simp [none_,Agrees]
  | cons x xs ih =>
    obtain _ | ⟨y,ys⟩ := ys
    · simp at same
    have tails : xs.length = ys.length := by simpa using same
    have eight : ∀ b : Byte, (bits b).length = 8 := fun b => by simp [bits]
    simp only [List.length_cons] at inside
    rw [Agrees,List.flatMap_cons,List.flatMap_cons,List.take_append,List.take_append,eight,eight]
    split
    · next short =>
      rw [high_iff_bits short,Nat.sub_eq_zero_of_le short,List.take_zero,List.append_nil,List.take_zero,List.append_nil]
    · next long =>
      have whole : ∀ b : Byte, (bits b).take n = bits b := fun b => List.take_of_length_le (by rw [eight]; omega)
      have own : x = y ↔ bits x = bits y := by
        have high := @high_iff_bits x y 8 le_rfl
        rw [List.take_of_length_le (eight x).le,List.take_of_length_le (eight y).le] at high
        rw [← high]
        simp [Fin.ext_iff]
      rw [whole,whole,ih tails (by omega),own]
      constructor
      · rintro ⟨head,rest⟩
        rw [head,rest]
      · intro all
        exact List.append_inj all ((eight x).trans (eight y).symm)

/-! ### Three notions of neighborhood -/

/-- `neighborhood`: it panics for a depth past 32. -/
def neighborhood (addr : SwarmAddress) (depth : Nat) : Option Nat :=
  if 32 < depth then none
  else if depth = 0 then some 0
  else some (beWord (addr.toList.take 4) >>> (32 - depth))

theorem proximity_le (a b : SwarmAddress) : proximity a b ≤ maxPo := by
  have loop : ∀ (xs ys : List Byte) (i : Nat), proximityFrom i xs ys ≤ maxPo := by
    intro xs
    induction xs with
    | nil => intro ys i; simp [proximityFrom]
    | cons x xs ih =>
      intro ys i
      obtain _ | ⟨y,ys⟩ := ys
      · simp [proximityFrom]
      · simp only [proximityFrom]
        split
        · exact Nat.min_le_right _ _
        · exact ih ys (i + 1)
  exact loop _ _ 0

theorem le_proximity_iff_agrees {a b : SwarmAddress} {depth : Nat} (inside : depth ≤ maxPo) :
    depth ≤ proximity a b ↔ Agrees depth a.toList b.toList := by
  have loop := @le_proximityFrom_iff 0 depth a.toList b.toList (by omega)
  rwa [Nat.zero_mul,Nat.zero_add] at loop

theorem le_proximity_iff_neighborhood {a b : SwarmAddress} {depth : Nat} (inside : depth ≤ maxPo) :
    depth ≤ proximity a b ↔ neighborhood a depth = neighborhood b depth := by
  have lengthA : (a.toList.take 4).length = 4 := by simp
  have lengthB : (b.toList.take 4).length = 4 := by simp
  have low : ¬32 < depth := by unfold maxPo at inside; omega
  rw [le_proximity_iff_agrees inside,← agrees_take depth _ _ 4 (by omega),
    agrees_iff_beWord (lengthA.trans lengthB.symm) (by omega),lengthA,lengthB,neighborhood,neighborhood,if_neg low,if_neg low]
  by_cases zero : depth = 0
  · subst zero
    have a32 := beWord_lt (a.toList.take 4)
    have b32 := beWord_lt (b.toList.take 4)
    rw [lengthA] at a32
    rw [lengthB] at b32
    rw [Nat.sub_zero,Nat.div_eq_of_lt a32,Nat.div_eq_of_lt b32]
    simp
  · rw [if_neg zero,if_neg zero,Option.some.injEq,Nat.shiftRight_eq_div_pow,Nat.shiftRight_eq_div_pow]

/-- The proximity order is the number of equal leading bits, capped. -/
theorem proximity_eq (a b : SwarmAddress) : proximity a b = min (equalBits (addressBits a) (addressBits b)) maxPo := by
  have long : ∀ c : SwarmAddress, (addressBits c).length = 256 := fun c => by simp [addressBits,bits,List.length_flatMap]
  have each : ∀ n, n ≤ proximity a b ↔ n ≤ min (equalBits (addressBits a) (addressBits b)) maxPo := by
    intro n
    by_cases inside : n ≤ maxPo
    · have fits : n ≤ 256 := inside.trans (by decide)
      rw [le_proximity_iff_agrees inside,agrees_iff_bits (by simp) (by simpa using fits),
        Nat.le_min,le_equalBits_iff (by rwa [long]) (by rwa [long])]
      simp [inside,addressBits]
    · have most := proximity_le a b
      constructor <;> intro <;> omega
  exact Nat.le_antisymm ((each _).mp le_rfl) ((each _).mpr le_rfl)

/-- Up to the cap, proximity, neighborhood and bucket key agree on who is near whom,
    and proximity is an ultrametric: the number of equal leading bits, capped. -/
theorem neighborhoods_agree (a b c : SwarmAddress) : (∀ depth ≤ maxPo,
      (depth ≤ proximity a b ↔ neighborhood a depth = neighborhood b depth) ∧
      (neighborhood a depth = neighborhood b depth ↔ bucketPrefix a depth = bucketPrefix b depth)) ∧
    min (proximity a b) (proximity b c) ≤ proximity a c ∧
    proximity a b = min (equalBits (addressBits a) (addressBits b)) maxPo := by
  refine ⟨fun depth inside => ?_,?_,proximity_eq a b⟩
  · have near := le_proximity_iff_neighborhood (a := a) (b := b) inside
    exact ⟨near,near.symm.trans (le_proximity_iff inside)⟩
  · have inside : min (proximity a b) (proximity b c) ≤ maxPo := (Nat.min_le_left _ _).trans (proximity_le a b)
    have first := (le_proximity_iff inside).mp (Nat.min_le_left (proximity a b) (proximity b c))
    have second := (le_proximity_iff inside).mp (Nat.min_le_right (proximity a b) (proximity b c))
    exact (le_proximity_iff inside).mpr (first.trans second)

/-! ### Coverage -/

/-- `storers_for`. -/
def storersFor (cache : TopologyCache) (chunk : SwarmAddress) (depth : Nat) : List NodeRecord :=
  (cache.records.filter fun n => depth ≤ proximity n.overlay chunk).mergeSort fun n m =>
    decide ((n.rtt_ms.map Fin.val).getD u32Max ≤ (m.rtt_ms.map Fin.val).getD u32Max)

/-- `Coverage`. -/
structure Coverage where
  chunks_covered : Nat
  chunks_total : Nat
  neighborhoods_total : Nat
  neighborhoods_covered : Nat
  deriving DecidableEq

/-- Whether some record stores a chunk, as `coverage` asks. -/
def covered (cache : TopologyCache) (depth : Nat) (chunk : SwarmAddress) : Bool :=
  cache.records.any fun n => depth ≤ proximity n.overlay chunk

/-- One turn of the loop of `coverage`: the flags by neighborhood, and the count. -/
def cover (cache : TopologyCache) (depth : Nat) (state : (AList fun _ : Nat => Bool) × Nat) (chunk : SwarmAddress) :
    Option ((AList fun _ : Nat => Bool) × Nat) :=
  (neighborhood chunk depth).map fun nbhd =>
    let covered := covered cache depth chunk
    (state.1.insert nbhd ((state.1.lookup nbhd).getD false || covered),if covered then state.2 + 1 else state.2)

/-- `coverage`. -/
def coverage (cache : TopologyCache) (chunks : List SwarmAddress) (depth : Nat) : Option Coverage :=
  (chunks.foldlM (cover cache depth) (∅,0)).map fun state =>
    ⟨state.2,chunks.length,state.1.entries.length,(state.1.entries.filter fun e => e.2).length⟩

/-- The neighborhood of an address, at a depth at which it has one. -/
def prefixOf (depth : Nat) (addr : SwarmAddress) : Nat := (neighborhood addr depth).getD 0

section Coverage
variable {cache : TopologyCache} {depth : Nat}

theorem covered_iff (chunk : SwarmAddress) : covered cache depth chunk = true ↔ storersFor cache chunk depth ≠ [] := by
  rw [storersFor,covered,List.any_eq_true]
  constructor
  · rintro ⟨n,member,close⟩
    exact List.ne_nil_of_mem ((List.mergeSort_perm _ _).mem_iff.mpr (List.mem_filter.mpr ⟨member,close⟩))
  · intro some_
    obtain ⟨n,member⟩ := List.exists_mem_of_ne_nil _ some_
    obtain ⟨inside,close⟩ := List.mem_filter.mp ((List.mergeSort_perm _ _).mem_iff.mp member)
    exact ⟨n,inside,close⟩

theorem neighborhood_prefixOf (inside : depth ≤ maxPo) (addr : SwarmAddress) : neighborhood addr depth = some (prefixOf depth addr) := by
  have low : ¬32 < depth := by unfold maxPo at inside; omega
  rw [prefixOf,neighborhood,if_neg low]
  split <;> rfl

/-- A neighborhood is covered as a whole. -/
theorem covered_uniform (inside : depth ≤ maxPo) {a b : SwarmAddress} (same : prefixOf depth a = prefixOf depth b) :
    covered cache depth a = covered cache depth b := by
  unfold covered
  congr 1
  funext n
  congr 1
  rw [le_proximity_iff_neighborhood inside,le_proximity_iff_neighborhood inside,neighborhood_prefixOf inside a,
    neighborhood_prefixOf inside b,same]

/-- The flags of the neighborhoods met so far, and how many chunks were covered. -/
structure Flags (cache : TopologyCache) (depth : Nat) (seen : List SwarmAddress)
    (state : (AList fun _ : Nat => Bool) × Nat) : Prop where
  keys : ∀ p, p ∈ state.1 ↔ ∃ a ∈ seen, prefixOf depth a = p
  flags : ∀ p, state.1.lookup p = some true ↔ ∃ a ∈ seen, prefixOf depth a = p ∧ covered cache depth a = true
  count : state.2 = (seen.filter (covered cache depth)).length

theorem flags_cover (inside : depth ≤ maxPo) {seen : List SwarmAddress} {state : (AList fun _ : Nat => Bool) × Nat}
    (flags : Flags cache depth seen state) (chunk : SwarmAddress) :
    ∃ state', cover cache depth state chunk = some state' ∧ Flags cache depth (seen ++ [chunk]) state' := by
  refine ⟨_,by rw [cover,neighborhood_prefixOf inside]; rfl,?_,?_,?_⟩
  · intro p
    simp only [AList.mem_insert,flags.keys,List.mem_append,List.mem_singleton]
    constructor
    · rintro (rfl | ⟨a,member,own⟩)
      · exact ⟨chunk,.inr rfl,rfl⟩
      · exact ⟨a,.inl member,own⟩
    · rintro ⟨a,member | rfl,own⟩
      · exact .inr ⟨a,member,own⟩
      · exact .inl own.symm
  · intro p
    by_cases here : p = prefixOf depth chunk
    · subst here
      have old := flags.flags (prefixOf depth chunk)
      simp only [AList.lookup_insert,Option.some.injEq,Bool.or_eq_true,List.mem_append,List.mem_singleton]
      have flag : (state.1.lookup (prefixOf depth chunk)).getD false = true ↔
          state.1.lookup (prefixOf depth chunk) = some true := by
        cases state.1.lookup (prefixOf depth chunk) <;> simp
      rw [flag,old]
      constructor
      · rintro (⟨a,member,own⟩ | now)
        · exact ⟨a,.inl member,own⟩
        · exact ⟨chunk,.inr rfl,rfl,now⟩
      · rintro ⟨a,member | rfl,own⟩
        · exact .inl ⟨a,member,own⟩
        · exact .inr own.2
    · simp only [AList.lookup_insert_ne here,flags.flags,List.mem_append,List.mem_singleton]
      constructor
      · rintro ⟨a,member,own⟩
        exact ⟨a,.inl member,own⟩
      · rintro ⟨a,member | rfl,own⟩
        · exact ⟨a,member,own⟩
        · exact absurd own.1.symm here
  · simp only [flags.count,List.filter_append,List.length_append]
    cases now : covered cache depth chunk <;> simp [now]

theorem flags_all (inside : depth ≤ maxPo) (chunks : List SwarmAddress) :
    ∀ {seen : List SwarmAddress} {state : (AList fun _ : Nat => Bool) × Nat}, Flags cache depth seen state →
      ∃ state', chunks.foldlM (cover cache depth) state = some state' ∧ Flags cache depth (seen ++ chunks) state' := by
  induction chunks with
  | nil => exact fun flags => ⟨_,rfl,by rwa [List.append_nil]⟩
  | cons chunk rest ih =>
    intro seen state flags
    obtain ⟨next,taken,kept⟩ := flags_cover inside flags chunk
    obtain ⟨last,reached,all⟩ := ih kept
    refine ⟨last,?_,by rwa [List.append_assoc] at all⟩
    rw [List.foldlM_cons,taken]
    exact reached

/-- The keys of the entries that satisfy a test are counted by their set. -/
theorem card_keys (map : AList fun _ : Nat => Bool) (test : Sigma (fun _ : Nat => Bool) → Bool) (keys : Finset Nat)
    (same : ∀ p, p ∈ keys ↔ ∃ e ∈ map.entries, test e = true ∧ e.1 = p) :
    (map.entries.filter test).length = keys.card := by
  have nodup : ((map.entries.filter test).map Sigma.fst).Nodup := map.keys_nodup.sublist (List.filter_sublist.map _)
  have equal : keys = ((map.entries.filter test).map Sigma.fst).toFinset := by
    ext p
    simp only [same,List.mem_toFinset,List.mem_map,List.mem_filter]
    constructor
    · rintro ⟨e,member,passes,own⟩
      exact ⟨e,⟨member,passes⟩,own⟩
    · rintro ⟨e,⟨member,passes⟩,own⟩
      exact ⟨e,member,passes,own⟩
  rw [equal,List.toFinset_card_of_nodup nodup,List.length_map]

/-- The neighborhoods of a list of chunks, and those of them that are covered. -/
def neighborhoods (chunks : List SwarmAddress) (depth : Nat) : Finset Nat := (chunks.map (prefixOf depth)).toFinset

def coveredNeighborhoods (cache : TopologyCache) (chunks : List SwarmAddress) (depth : Nat) : Finset Nat :=
  neighborhoods (chunks.filter (covered cache depth)) depth

/-- The covered chunks, neighborhood by neighborhood. -/
theorem covered_sum (inside : depth ≤ maxPo) (chunks : List SwarmAddress) :
    (chunks.filter (covered cache depth)).length =
      ∑ p ∈ coveredNeighborhoods cache chunks depth, (chunks.filter fun a => prefixOf depth a = p).length := by
  have each : ∀ p ∈ coveredNeighborhoods cache chunks depth,
      ((chunks.filter (covered cache depth)).map (prefixOf depth)).count p =
        (chunks.filter fun a => prefixOf depth a = p).length := by
    intro p member
    obtain ⟨b,inB,own⟩ := List.mem_map.mp (List.mem_toFinset.mp member)
    have flag := (List.mem_filter.mp inB).2
    rw [List.count,List.countP_map,List.countP_filter,← List.countP_eq_length_filter]
    refine List.countP_congr fun a _ => ?_
    simp only [Function.comp_apply,Bool.and_eq_true,beq_iff_eq,decide_eq_true_eq]
    constructor
    · exact And.left
    · intro here
      exact ⟨here,(covered_uniform inside (here.trans own.symm)).trans flag⟩
  rw [← Finset.sum_congr rfl each,coveredNeighborhoods,neighborhoods,List.sum_toFinset_count_eq_length,List.length_map]

/-- The figures of `coverage` are those of the partition into neighborhoods. -/
theorem coverage_exact (cache : TopologyCache) (chunks : List SwarmAddress) (depth : Nat) (inside : depth ≤ maxPo) :
    ∃ figures, coverage cache chunks depth = some figures ∧
      figures.chunks_covered = (chunks.filter fun a => storersFor cache a depth ≠ []).length ∧
      figures.chunks_total = chunks.length ∧ figures.neighborhoods_total = (neighborhoods chunks depth).card ∧
      (∀ a ∈ chunks, ∀ b ∈ chunks, neighborhood a depth = neighborhood b depth →
        (storersFor cache a depth ≠ [] ↔ storersFor cache b depth ≠ [])) ∧
      figures.neighborhoods_covered = (coveredNeighborhoods cache chunks depth).card ∧
      figures.chunks_covered =
        ∑ p ∈ coveredNeighborhoods cache chunks depth, (chunks.filter fun a => prefixOf depth a = p).length := by
  have start : Flags cache depth [] (∅,0) := ⟨by simp,by simp,rfl⟩
  obtain ⟨state,reached,flags⟩ := flags_all inside chunks start
  rw [List.nil_append] at flags
  have asked : (chunks.filter fun a => storersFor cache a depth ≠ []) = chunks.filter (covered cache depth) :=
    List.filter_congr fun a _ => by rw [Bool.eq_iff_iff,decide_eq_true_eq,covered_iff]
  refine ⟨_,by rw [coverage,reached]; rfl,?_,rfl,?_,?_,?_,?_⟩
  · rw [asked]
    exact flags.count
  · have all := card_keys state.1 (fun _ => true) (neighborhoods chunks depth) fun p => by
      rw [neighborhoods,List.mem_toFinset,List.mem_map,← flags.keys]
      change p ∈ state.1.entries.map Sigma.fst ↔ _
      rw [List.mem_map]
      simp
    simpa using all
  · intro a _ b _ same
    rw [neighborhood_prefixOf inside,neighborhood_prefixOf inside,Option.some.injEq] at same
    rw [← covered_iff,← covered_iff,covered_uniform inside same]
  · refine card_keys state.1 (fun e => e.2) _ fun p => ?_
    have flag := flags.flags p
    rw [← Option.mem_def,AList.mem_lookup_iff] at flag
    simp only [coveredNeighborhoods,neighborhoods,List.mem_toFinset,List.mem_map,List.mem_filter]
    constructor
    · rintro ⟨a,⟨member,now⟩,own⟩
      exact ⟨⟨p,true⟩,flag.mpr ⟨a,member,own,now⟩,rfl,rfl⟩
    · rintro ⟨⟨q,set⟩,member,now,own⟩
      cases now
      cases own
      obtain ⟨a,inside_,own,now⟩ := flag.mp member
      exact ⟨a,⟨inside_,now⟩,own⟩
  · rw [← covered_sum inside]
    exact flags.count

end Coverage

/-- Two chunks of the neighborhood of a node, and one of another. -/
theorem coverage_exact_tied : coverage tied [(node 1 none).overlay,(node 2 none).overlay,⟨List.replicate 32 255,rfl⟩] 9 =
      some ⟨2,3,2,1⟩ ∧
    ∃ figures, coverage tied [(node 1 none).overlay,(node 2 none).overlay,⟨List.replicate 32 255,rfl⟩] 9 = some figures ∧
      figures.neighborhoods_total = (neighborhoods [(node 1 none).overlay,(node 2 none).overlay,⟨List.replicate 32 255,rfl⟩] 9).card := by
  obtain ⟨figures,same,-,-,total_,-⟩ := coverage_exact tied
    [(node 1 none).overlay,(node 2 none).overlay,⟨List.replicate 32 255,rfl⟩] 9 (by decide)
  exact ⟨by decide +kernel,figures,same,total_⟩

end Directswarm.Neighborhoods
