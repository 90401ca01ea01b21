import Mathlib.Data.Prod.Lex
import Mathlib.Data.List.Infix
import Directswarm.PeerTable
import Directswarm.Proximity
import Directswarm.Words
import Directswarm.WorkPool

/-!
Which peers serve which bucket: the cache of known nodes (`topology.rs`), and
`select_storers` and the routing of the chunks (`schedule.rs`). Maps are kept with
the order in which they are gone through, so that a statement about every map is
one about every order. Parsing a multiaddress is left to `parse`.
-/
namespace Directswarm.Routing
open Directswarm.Text Directswarm.Words Directswarm.Maps Directswarm.PeerTable Directswarm.Proximity
  Directswarm.WorkPool

/-! ### The cache -/

/-- `NodeRecord`. -/
structure NodeRecord where
  overlay : SwarmAddress
  underlays : List (List Char)
  rtt_ms : Option Half
  last_seen_tick : Word
  dialed_ok : Bool
  deriving DecidableEq

/-- What `upsert` makes of a record that is there. -/
def NodeRecord.refresh (existing record : NodeRecord) : NodeRecord :=
  { existing with
    last_seen_tick := max existing.last_seen_tick record.last_seen_tick
    dialed_ok := existing.dialed_ok || record.dialed_ok
    rtt_ms := if record.rtt_ms.isSome then record.rtt_ms else existing.rtt_ms
    underlays := record.underlays.foldl (fun known u => if u ∈ known then known else known ++ [u]) existing.underlays }

/-- `TopologyCache`, without its reference: every record is under its own overlay. -/
structure TopologyCache where
  nodes : AList fun _ : SwarmAddress => NodeRecord
  keyed : ∀ e ∈ nodes.entries, e.2.overlay = e.1

def TopologyCache.new : TopologyCache := ⟨∅,nofun⟩

def TopologyCache.records (cache : TopologyCache) : List NodeRecord := cache.nodes.entries.map Sigma.snd

theorem keyed_insert {nodes : AList fun _ : SwarmAddress => NodeRecord} (keyed : ∀ e ∈ nodes.entries, e.2.overlay = e.1)
    (record : NodeRecord) : ∀ e ∈ (nodes.insert record.overlay record).entries, e.2.overlay = e.1 := by
  intro e member
  rw [AList.entries_insert] at member
  rcases List.mem_cons.mp member with rfl | old
  · rfl
  · exact keyed e ((List.kerase_sublist _ _).subset old)

def TopologyCache.upsert (cache : TopologyCache) (record : NodeRecord) : TopologyCache :=
  match found : cache.nodes.lookup record.overlay with
  | some existing => ⟨cache.nodes.insert record.overlay (existing.refresh record),by
      have own : existing.overlay = record.overlay := cache.keyed _ (AList.mem_lookup_iff.mp found)
      have kept := keyed_insert cache.keyed (existing.refresh record)
      rwa [show (existing.refresh record).overlay = record.overlay from own] at kept⟩
  | none => ⟨cache.nodes.insert record.overlay record,keyed_insert cache.keyed record⟩

/-- No node is recorded twice. -/
theorem TopologyCache.nodup (cache : TopologyCache) : (cache.records.map NodeRecord.overlay).Nodup := by
  have same : cache.records.map NodeRecord.overlay = cache.nodes.keys := by
    rw [TopologyCache.records,List.map_map]
    exact List.map_congr_left cache.keyed
  rw [same]
  exact cache.nodes.keys_nodup

/-! ### Ranking -/

variable {M : Type} (parse : List Char → Option M)

/-- `public_dialable`. -/
def publicDialable (u : List Char) : Option M :=
  if "/ip4/".toList <+: u ∧ ¬"/ip4/10.".toList <+: u ∧ ¬"/ip4/192.168".toList <+: u ∧ ¬"/ip4/172.".toList <+: u ∧
      ¬"/ws".toList <:+: u then parse u
  else none

/-- The first underlay that can be dialed. -/
def dialable (record : NodeRecord) : Option M := record.underlays.findSome? (publicDialable parse)

/-- `Selected`. -/
structure Selected (M A : Type) where
  underlay : M
  overlay : A
  prefix_ : Nat
  deriving DecidableEq

/-- `Candidate`. -/
structure Candidate (M : Type) where
  slowness : Nat
  cls : Nat
  strictness : Nat
  rtt : Nat
  underlay : M
  overlay : SwarmAddress
  deriving DecidableEq

/-- `ASSUMED_CPS_X10`. -/
def assumedCpsX10 : Nat := 140

def u32Max : Nat := 2 ^ 32 - 1

variable (peers : PeerMap)

def peerState (overlay : SwarmAddress) : PeerState := (peers.lookup overlay).getD PeerState.default

/-- Measured fast, unknown, measured slow. -/
def lambdaClass : Option Word → Nat
  | some l => if l.val ≤ 2500 then 0 else 2
  | none => 1

/-- The measured rate, or the assumed one. -/
def effRate (overlay : SwarmAddress) : Nat :=
  let cps := (peerState peers overlay).service_cps_x10.val
  if 0 < cps then cps else assumedCpsX10

def candidate (record : NodeRecord) (underlay : M) : Candidate M where
  slowness := u64Max - effRate peers record.overlay
  cls := lambdaClass (peerState peers record.overlay).lambda_ms
  strictness := u64Max - (peerState peers record.overlay).threshold_last.val
  rtt := (record.rtt_ms.map Fin.val).getD u32Max
  underlay := underlay
  overlay := record.overlay

/-- The part of a candidate that is sorted by. -/
def Candidate.key (c : Candidate M) : Nat ×ₗ Nat ×ₗ Nat ×ₗ Nat :=
  toLex (c.slowness,toLex (c.cls,toLex (c.strictness,c.rtt)))

def Candidate.le (c d : Candidate M) : Bool := decide (c.key ≤ d.key)

/-! ### Selection -/

/-- What a record contributes. -/
def contribution (needed : List SwarmAddress) (depth : Nat) (record : NodeRecord) : Option (Nat × Candidate M) :=
  let p := bucketPrefix record.overlay depth
  if p ∈ needed.map fun a => bucketPrefix a depth then
    (dialable parse record).map fun underlay => (p,candidate peers record underlay)
  else none

/-- `per_bucket`, before it is sorted. -/
def perBucket (cache : TopologyCache) (needed : List SwarmAddress) (depth : Nat) :
    AList fun _ : Nat => List (Candidate M) :=
  pushAll (cache.records.filterMap (contribution parse peers needed depth)) ∅

/-- A member of a bucket, with its rate. -/
abbrev Member (M A : Type) := Selected M A × Nat

def member (p : Nat) (c : Candidate M) : Member M SwarmAddress := (⟨c.underlay,c.overlay,p⟩,u64Max - c.slowness)

/-- `select_storers`. -/
def selectStorers (cache : TopologyCache) (needed : List SwarmAddress) (depth : Nat) :
    AList fun _ : Nat => List (Member M SwarmAddress) :=
  mapValues (fun p cands => (cands.mergeSort Candidate.le).map (member p)) (perBucket parse peers cache needed depth)

/-! ### What is selected -/

section Selection
variable {parse : List Char → Option M} {peers : PeerMap} {cache : TopologyCache} {needed : List SwarmAddress} {depth : Nat}

/-- A record is dialable and in the bucket. -/
def Serves (parse : List Char → Option M) (depth p : Nat) (record : NodeRecord) : Prop :=
  (dialable parse record).isSome ∧ bucketPrefix record.overlay depth = p

instance (p : Nat) (record : NodeRecord) : Decidable (Serves parse depth p record) :=
  inferInstanceAs (Decidable (_ ∧ _))

theorem contribution_some {record : NodeRecord} {p : Nat} {c : Candidate M} :
    contribution parse peers needed depth record = some (p,c) ↔
      (∃ a ∈ needed, bucketPrefix a depth = p) ∧ bucketPrefix record.overlay depth = p ∧
        ∃ underlay, dialable parse record = some underlay ∧ candidate peers record underlay = c := by
  simp only [contribution,List.mem_map]
  split
  · next there =>
    simp only [Option.map_eq_some_iff,Prod.mk.injEq]
    constructor
    · rintro ⟨underlay,found,rfl,rfl⟩
      exact ⟨there,rfl,underlay,found,rfl⟩
    · rintro ⟨-,rfl,underlay,found,rfl⟩
      exact ⟨underlay,found,rfl,rfl⟩
  · next absent =>
    constructor
    · intro none_; cases none_
    · rintro ⟨there,rfl,-⟩
      exact absurd there absent

/-- The buckets are those of the needed chunks that a dialable record is close to. -/
theorem mem_selectStorers_iff (inside : depth ≤ maxPo) (p : Nat) :
    p ∈ selectStorers parse peers cache needed depth ↔ ∃ chunk ∈ needed, bucketPrefix chunk depth = p ∧
      ∃ record ∈ cache.records, (dialable parse record).isSome ∧ depth ≤ proximity record.overlay chunk := by
  rw [← AList.lookup_isSome,selectStorers,lookup_mapValues,Option.isSome_map,AList.lookup_isSome,perBucket,mem_pushAll]
  simp only [List.mem_filterMap,contribution_some,AList.notMem_empty,false_or]
  constructor
  · rintro ⟨c,record,member,⟨chunk,need,rfl⟩,own,underlay,found,-⟩
    exact ⟨chunk,need,rfl,record,member,by rw [found]; rfl,(le_proximity_iff inside).mpr own⟩
  · rintro ⟨chunk,need,rfl,record,member,dials,close⟩
    obtain ⟨underlay,found⟩ := Option.isSome_iff_exists.mp dials
    exact ⟨_,record,member,⟨chunk,need,rfl⟩,(le_proximity_iff inside).mp close,underlay,found,rfl⟩

/-- Whether one record comes before another, given how round-trip times compare. -/
def Before (peers : PeerMap) (sooner : Option Half → Option Half → Prop) (r s : NodeRecord) : Prop :=
  let rate (r : NodeRecord) := effRate peers r.overlay
  let cls (r : NodeRecord) := lambdaClass (peerState peers r.overlay).lambda_ms
  let threshold (r : NodeRecord) := (peerState peers r.overlay).threshold_last
  rate s < rate r ∨ rate r = rate s ∧ (cls r < cls s ∨ cls r = cls s ∧
    (threshold s < threshold r ∨ threshold r = threshold s ∧ sooner r.rtt_ms s.rtt_ms))

/-- A time that was not measured counts as the largest. -/
def orLargest (a b : Option Half) : Prop := (a.map Fin.val).getD u32Max ≤ (b.map Fin.val).getD u32Max

/-- The candidates are compared without their underlays. -/
def sortKey (peers : PeerMap) (record : NodeRecord) : Nat ×ₗ Nat ×ₗ Nat ×ₗ Nat := (candidate peers record ()).key

theorem effRate_le (peers : PeerMap) (overlay : SwarmAddress) : effRate peers overlay ≤ u64Max := by
  have word := (peerState peers overlay).service_cps_x10.isLt
  unfold effRate assumedCpsX10 u64Max
  dsimp only
  split <;> omega

theorem sortKey_le_iff (r s : NodeRecord) : sortKey peers r ≤ sortKey peers s ↔ Before peers orLargest r s := by
  have rateR := effRate_le peers r.overlay
  have rateS := effRate_le peers s.overlay
  have thresholdR := (peerState peers r.overlay).threshold_last.isLt
  have thresholdS := (peerState peers s.overlay).threshold_last.isLt
  have last := u64Max_succ
  simp only [sortKey,Candidate.key,candidate,Prod.Lex.toLex_le_toLex,Before,orLargest,Fin.lt_def,Fin.ext_iff]
  omega

/-- The records of a bucket, as they are sorted. -/
def sortedRecords (parse : List Char → Option M) (peers : PeerMap) (cache : TopologyCache) (depth p : Nat) : List NodeRecord :=
  (cache.records.filter fun record => Serves parse depth p record).mergeSort fun r s => decide (sortKey peers r ≤ sortKey peers s)

/-- The candidates of a needed bucket are its records, in their order. -/
theorem candidates_eq {p : Nat} (need : ∃ a ∈ needed, bucketPrefix a depth = p) (records : List NodeRecord) :
    (((records.filterMap (contribution parse peers needed depth)).filter fun e => e.1 = p).map Prod.snd).map some =
      (records.filter fun record => Serves parse depth p record).map fun record =>
        (dialable parse record).map (candidate peers record) := by
  induction records with
  | nil => rfl
  | cons record rest ih =>
    cases made : contribution parse peers needed depth record with
    | none =>
      rw [List.filterMap_cons_none made,ih]
      have outside : ¬Serves parse depth p record := by
        rintro ⟨dials,own⟩
        obtain ⟨underlay,found⟩ := Option.isSome_iff_exists.mp dials
        have gives : contribution parse peers needed depth record = some (p,candidate peers record underlay) :=
          contribution_some.mpr ⟨need,own,underlay,found,rfl⟩
        rw [made] at gives
        cases gives
      simp [outside]
    | some e =>
      obtain ⟨q,c⟩ := e
      obtain ⟨-,own,underlay,found,rfl⟩ := contribution_some.mp made
      rw [List.filterMap_cons_some made]
      by_cases same : q = p
      · have inside : Serves parse depth p record := ⟨by rw [found]; rfl,own.trans same⟩
        simp only [same,inside,found,List.filter_cons_of_pos,decide_true,List.map_cons,ih,Option.map_some]
      · have outside : ¬Serves parse depth p record := fun serves => same (own.symm.trans serves.2)
        simpa [same,outside] using ih

theorem mergeSort_some {α : Type} (le : α → α → Bool) (xs : List α) :
    (xs.mergeSort le).map some = (xs.map some).mergeSort fun a b => a.elim false fun a => b.elim false (le a) :=
  List.map_mergeSort fun _ _ _ _ => rfl

theorem sortedRecords_perm (p : Nat) :
    (sortedRecords parse peers cache depth p).Perm (cache.records.filter fun record => Serves parse depth p record) :=
  List.mergeSort_perm _ _

theorem sortedRecords_before (p : Nat) : (sortedRecords parse peers cache depth p).Pairwise (Before peers orLargest) := by
  have sorted := @List.pairwise_mergeSort _ (fun r s => decide (sortKey peers r ≤ sortKey peers s))
    (fun r s t first second => by simpa using (of_decide_eq_true first).trans (of_decide_eq_true second))
    (fun r s => by simpa using le_total (sortKey peers r) (sortKey peers s))
    (cache.records.filter fun record => Serves parse depth p record)
  exact sorted.imp fun le => (sortKey_le_iff _ _).mp (of_decide_eq_true le)

/-- What a record of a bucket becomes. -/
def memberOf (parse : List Char → Option M) (peers : PeerMap) (p : Nat) (record : NodeRecord) :
    Option (Member M SwarmAddress) :=
  (dialable parse record).map fun underlay => (⟨underlay,record.overlay,p⟩,effRate peers record.overlay)

theorem memberOf_eq (p : Nat) (record : NodeRecord) :
    ((dialable parse record).map (candidate peers record)).map (member p) = memberOf parse peers p record := by
  have rate := effRate_le peers record.overlay
  rw [Option.map_map,memberOf]
  congr 1
  funext underlay
  simp only [Function.comp_apply,member,candidate,Prod.mk.injEq,true_and]
  omega

/-- The members of a bucket are its records, sorted. -/
theorem selectStorers_bucket {p : Nat} {members : List (Member M SwarmAddress)}
    (found : (selectStorers parse peers cache needed depth).lookup p = some members) :
    members.map some = (sortedRecords parse peers cache depth p).map (memberOf parse peers p) := by
  rw [selectStorers,lookup_mapValues] at found
  obtain ⟨cands,there,rfl⟩ := Option.map_eq_some_iff.mp found
  have need : ∃ a ∈ needed, bucketPrefix a depth = p := by
    have key : p ∈ perBucket parse peers cache needed depth := AList.lookup_isSome.mp (by rw [there]; rfl)
    rw [perBucket,mem_pushAll] at key
    obtain empty | ⟨c,made⟩ := key
    · exact absurd empty (AList.notMem_empty p)
    · obtain ⟨record,-,made⟩ := List.mem_filterMap.mp made
      exact (contribution_some.mp made).1
  have held : cands = ((cache.records.filterMap (contribution parse peers needed depth)).filter fun e => e.1 = p).map
      Prod.snd := by
    have all := lookup_pushAll p (cache.records.filterMap (contribution parse peers needed depth)) ∅
    rw [← perBucket,there] at all
    simpa using all
  have unsorted : cands.map some = (cache.records.filter fun record => Serves parse depth p record).map fun record =>
      (dialable parse record).map (candidate peers record) := by
    rw [held]
    exact candidates_eq need cache.records
  -- Both sides are sorted by the same keys.
  have sorted : (cands.mergeSort Candidate.le).map some = (sortedRecords parse peers cache depth p).map fun record =>
      (dialable parse record).map (candidate peers record) := by
    rw [mergeSort_some,unsorted,sortedRecords]
    refine (List.map_mergeSort fun r memberR s memberS => ?_).symm
    obtain ⟨u,dialsR⟩ := Option.isSome_iff_exists.mp (of_decide_eq_true (List.mem_filter.mp memberR).2).1
    obtain ⟨v,dialsS⟩ := Option.isSome_iff_exists.mp (of_decide_eq_true (List.mem_filter.mp memberS).2).1
    rw [dialsR,dialsS]
    rfl
  calc ((cands.mergeSort Candidate.le).map (member p)).map some
      = ((cands.mergeSort Candidate.le).map some).map (Option.map (member p)) := by simp [Function.comp_def]
    _ = (sortedRecords parse peers cache depth p).map (memberOf parse peers p) := by
      rw [sorted,List.map_map]
      exact List.map_congr_left fun record _ => memberOf_eq p record

/-- The overlays of a bucket's members are those of its records. -/
theorem overlays_eq {p : Nat} {members : List (Member M SwarmAddress)} {records : List NodeRecord}
    (same : members.map some = records.map (memberOf parse peers p)) :
    (members.map fun m => m.1.overlay) = records.map NodeRecord.overlay := by
  induction records generalizing members with
  | nil => simpa using same
  | cons record rest ih =>
    obtain _ | ⟨m,members⟩ := members
    · simp at same
    simp only [List.map_cons,List.cons.injEq] at same ⊢
    refine ⟨?_,ih same.2⟩
    obtain ⟨underlay,-,made⟩ := Option.map_eq_some_iff.mp same.1.symm
    rw [← made]

/-- The selection is exactly what it should be, given how round-trip times compare:
    the buckets, and in each bucket every record of it once, in order. -/
def Selects (sooner : Option Half → Option Half → Prop) (parse : List Char → Option M) (peers : PeerMap)
    (cache : TopologyCache) (needed : List SwarmAddress) (depth : Nat) : Prop :=
  (∀ p, p ∈ selectStorers parse peers cache needed depth ↔ ∃ chunk ∈ needed, bucketPrefix chunk depth = p ∧
    ∃ record ∈ cache.records, (dialable parse record).isSome ∧ depth ≤ proximity record.overlay chunk) ∧
  ∀ p members, (selectStorers parse peers cache needed depth).lookup p = some members →
    (members.map fun m => m.1.overlay).Nodup ∧ ∃ records : List NodeRecord,
      records.Perm (cache.records.filter fun record => Serves parse depth p record) ∧
      records.Pairwise (Before peers sooner) ∧ members.map some = records.map (memberOf parse peers p)

theorem selects (inside : depth ≤ maxPo) : Selects orLargest parse peers cache needed depth := by
  refine ⟨mem_selectStorers_iff inside,fun p members found => ?_⟩
  have same := selectStorers_bucket found
  refine ⟨?_,sortedRecords parse peers cache depth p,sortedRecords_perm p,sortedRecords_before p,same⟩
  rw [overlays_eq same,((sortedRecords_perm p).map NodeRecord.overlay).nodup_iff]
  exact cache.nodup.sublist (List.filter_sublist.map NodeRecord.overlay)

end Selection

/-! ### A sentinel that is a value -/

/-- A time that was not measured comes after every one that was. -/
def unmeasuredLast : Option Half → Option Half → Prop
  | some a, some b => a ≤ b
  | none, some _ => False
  | _, none => True

/-- A node that can be dialed. -/
def node (last : Byte) (rtt : Option Half) : NodeRecord :=
  ⟨⟨List.replicate 31 0 ++ [last],by simp⟩,["/ip4/1.2.3.4/tcp/1634".toList],rtt,0,true⟩

/-- One node without a round-trip time, and one with the largest. -/
def tied : TopologyCache where
  nodes := ⟨[⟨(node 1 none).overlay,node 1 none⟩,⟨(node 2 (some (Fin.last _))).overlay,node 2 (some (Fin.last _))⟩],
    by unfold List.NodupKeys; decide⟩
  keyed := by decide

theorem peerState_unknown (overlay : SwarmAddress) : peerState ∅ overlay = PeerState.default := by
  rw [peerState,Finmap.lookup_empty]
  rfl

/-- Among peers that nothing is known of, only the times count. -/
theorem before_unknown {sooner : Option Half → Option Half → Prop} {r s : NodeRecord} (before : Before ∅ sooner r s) :
    sooner r.rtt_ms s.rtt_ms := by
  have rate : ∀ overlay, effRate ∅ overlay = assumedCpsX10 := by
    intro overlay
    rw [effRate,peerState_unknown]
    rfl
  simp only [Before,rate,peerState_unknown] at before
  simpa using before

theorem tied_sorted : sortedRecords some ∅ tied 0 0 = [node 1 none,node 2 (some (Fin.last _))] := by
  have kept : (tied.records.filter fun record => Serves some 0 0 record) = [node 1 none,node 2 (some (Fin.last _))] := by
    decide
  rw [sortedRecords,kept]
  refine List.mergeSort_of_pairwise ?_
  decide

/-- The node without a time comes first. -/
theorem unmeasured_first : ¬Selects unmeasuredLast some ∅ tied [(node 1 none).overlay] 0 := by
  rintro ⟨buckets,sorted⟩
  have key : 0 ∈ selectStorers some ∅ tied [(node 1 none).overlay] 0 := by
    refine (buckets 0).mpr ⟨_,List.mem_cons_self,rfl,node 1 none,?_,?_,Nat.zero_le _⟩
    · decide
    · decide
  obtain ⟨members,found⟩ := Option.isSome_iff_exists.mp (AList.lookup_isSome.mpr key)
  obtain ⟨-,records,perm,ordered,same⟩ := sorted 0 members found
  have overlays : records.map NodeRecord.overlay = [(node 1 none).overlay,(node 2 (some (Fin.last _))).overlay] := by
    rw [← overlays_eq same,overlays_eq (selectStorers_bucket found),tied_sorted]
    rfl
  have member : ∀ record ∈ records, record = node 1 none ∨ record = node 2 (some (Fin.last _)) := by
    intro record inside
    have there : record ∈ sortedRecords some ∅ tied 0 0 := (sortedRecords_perm 0).symm.subset (perm.subset inside)
    rw [tied_sorted] at there
    simpa using there
  obtain ⟨first,rest,rfl,here,later⟩ := List.map_eq_cons_iff.mp overlays
  obtain ⟨second,none_,rfl,there,last⟩ := List.map_eq_cons_iff.mp later
  have one : first = node 1 none := by
    rcases member first (by simp) with same | same
    · exact same
    · rw [same] at here; exact absurd here (by decide)
  have two : second = node 2 (some (Fin.last _)) := by
    rcases member second (by simp) with same | same
    · rw [same] at there; exact absurd there (by decide)
    · exact same
  have before := (List.pairwise_cons.mp ordered).1 second (by simp)
  rw [one,two] at before
  exact before_unknown before

end Directswarm.Routing
