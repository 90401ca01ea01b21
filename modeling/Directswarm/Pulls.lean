import Directswarm.Scheduler

/-!
Where the work of a connection comes from. The pool is keyed by the prefix of its
addresses, the members of a bucket are records of that prefix, and a connection
stands only with the overlay that the cache promised, or that it was parked under.
So what it pulls is as close to that overlay as the depth asks, over all runs.
-/
namespace Directswarm.Pulls
open Directswarm.Words Directswarm.Runs Directswarm.Interleaving Directswarm.Maps Directswarm.PeerTable Directswarm.Proximity
  Directswarm.Routing Directswarm.Dispatching Directswarm.WorkPool Directswarm.Connection Directswarm.Scheduler

variable {M A B : Type}

/-! ### The pool -/

/-- Every address is under its own prefix. -/
def Filed (bucketOf : A → Nat) (pool : Buckets A) : Prop :=
  ∀ p addrs, pool.lookup p = some addrs → ∀ a ∈ addrs, bucketOf a = p

variable {bucketOf : A → Nat} {pool pool' : Buckets A} {bucket : Nat} {addr : A}

theorem filed_insert {addrs : List A} (filed : Filed bucketOf pool) (own : ∀ a ∈ addrs, bucketOf a = bucket) :
    Filed bucketOf (pool.insert bucket addrs) := by
  intro p held found
  by_cases same : p = bucket
  · subst same
    rw [AList.lookup_insert] at found
    cases found
    exact own
  · rw [AList.lookup_insert_ne same] at found
    exact filed p held found

theorem filed_push (filed : Filed bucketOf pool) (addr : A) : Filed bucketOf (push pool (bucketOf addr) addr) := by
  refine filed_insert filed fun a member => ?_
  rcases List.mem_cons.mp member with rfl | old
  · rfl
  · cases found : pool.lookup (bucketOf addr) with
    | none => simp [found] at old
    | some addrs =>
      rw [found] at old
      exact filed _ addrs found a old

theorem filed_pop (filed : Filed bucketOf pool) (popped : pop pool bucket = some (addr,pool')) :
    bucketOf addr = bucket ∧ Filed bucketOf pool' := by
  unfold pop at popped
  split at popped
  · next found =>
    cases popped
    have own := filed bucket _ found
    exact ⟨own addr List.mem_cons_self,filed_insert filed fun a member => own a (List.mem_cons_of_mem _ member)⟩
  · cases popped

/-! ### The connections -/

section Connections
variable [DecidableEq A] [DecidableEq B] {plan : Plan A} {c c' : Common A B} {s s' : Session A B} {act : Act}

/-- A step of a connection leaves the pool, or pops from its own bucket. -/
theorem moves_pool (moves : Moves plan c s act c' s') : c'.pool = c.pool ∨
    act = .go ∧ ((∃ m, s.phase = .measuring m) ∨ s.phase = .admitting) ∧
      ∃ addr, pop c.pool s.bucket = some (addr,c'.pool) := by
  cases moves with
  | measurePop at_ popped => exact .inr ⟨rfl,.inl ⟨_,at_⟩,_,popped⟩
  | take at_ onward room free popped => exact .inr ⟨rfl,.inr at_,_,popped⟩
  | _ => exact .inl rfl

/-- Where a connection stands that has met no one: the dial is out, or it failed. -/
def unmet : Phase A B → Bool
  | .dialing | .closed 0 none false => true
  | _ => false

/-- Until the dial ends nothing moves it on, and nothing does after it has failed. -/
theorem unmet_step (alone : unmet s.phase = true) (standing : s.phase = .dialing → ∀ ok, act ≠ .answer ok)
    (moves : Moves plan c s act c' s') : s'.phase = s.phase := by
  cases moves with
  | hungUp | announced t | taskServed at_ | taskFailed at_ | taskStored at_ | taskSent at_ => rfl
  | dialed at_ | undialed at_ => exact absurd rfl (standing at_ _)
  | settled at_ | calling at_ taken | called at_ ended | uncalled at_ ended => rw [at_] at alone; cases alone
  | _ => simp_all [unmet]

end Connections

/-! ### Runs of a fetch -/

variable [DecidableEq B] {parse : List Char → Option M} {peers : PeerMap} {cache : TopologyCache} {depth : Nat}

/-- The fetch whose chunks are routed by their prefixes and served by the members
    that `select_storers` finds. -/
def routed (parse : List Char → Option M) (peers : PeerMap) (cache : TopologyCache) (depth : Nat)
    (job : Job M SwarmAddress) : Job M SwarmAddress :=
  { job with
    bucketOf := fun a => bucketPrefix a depth
    select := fun needed => selectStorers parse peers cache needed depth }

/-- The connection is with a peer of its bucket. -/
structure Paired (depth : Nat) (actor : Actor SwarmAddress B) : Prop where
  own : bucketPrefix actor.session.overlay depth = actor.session.bucket
  met : unmet actor.session.phase = true ∨ actor.remote = some actor.session.overlay

/-- Everything is in the bucket of its prefix. -/
structure Placed (depth : Nat) (r : Run M SwarmAddress B) : Prop where
  members : r.dispatch.All fun _ m => bucketPrefix m.1.overlay depth = m.1.prefix_
  actors : ∀ actor ∈ r.actors, Paired depth actor
  pool : Filed (fun a => bucketPrefix a depth) r.common.pool

/-- Every member of a selection is in the bucket of its own prefix. -/
theorem selected_own {needed : List SwarmAddress} {p : Nat} {members : List (Member M SwarmAddress)}
    (found : (selectStorers parse peers cache needed depth).lookup p = some members) :
    ∀ m ∈ members, bucketPrefix m.1.overlay depth = m.1.prefix_ := by
  intro m inside
  have same : some m ∈ (sortedRecords parse peers cache depth p).map (memberOf parse peers p) := by
    rw [← selectStorers_bucket found]
    exact List.mem_map_of_mem inside
  obtain ⟨record,there,made⟩ := List.mem_map.mp same
  have serves := of_decide_eq_true (List.mem_filter.mp ((sortedRecords_perm p).subset there)).2
  obtain ⟨underlay,-,rfl⟩ := Option.map_eq_some_iff.mp made
  exact serves.2

section Steps
variable {job : Job M SwarmAddress} {needed : List SwarmAddress} {r r' : Run M SwarmAddress B} {move : Move SwarmAddress B}

omit [DecidableEq B] in
theorem placed_route (placed : Placed depth r) (covered : AList fun _ : Nat => List (Member M SwarmAddress)) (addr : SwarmAddress) :
    Placed depth (route (routed parse peers cache depth job) covered r addr) := by
  unfold route
  simp only
  split
  · exact ⟨placed.members,placed.actors,filed_push placed.pool addr⟩
  · split
    · exact ⟨placed.members,placed.actors,placed.pool⟩
    · exact ⟨placed.members,placed.actors,placed.pool⟩

omit [DecidableEq B] in
theorem placed_launch (opening : Opening SwarmAddress B) : Placed depth (launch (routed parse peers cache depth job) opening) := by
  have empty : ∀ stored main, Placed depth (blank opening stored ∅ main : Run M SwarmAddress B) := fun stored main =>
    ⟨Dispatch.all_new (fun p members found => by simp at found),by simp [blank],fun p addrs found => by simp [blank] at found⟩
  have selected : ∀ stored needed main,
      Placed depth (blank opening stored (selectStorers parse peers cache needed depth) main : Run M SwarmAddress B) :=
    fun stored needed main => ⟨Dispatch.all_new fun p members found => selected_own found,by simp [blank],
      fun p addrs found => by simp [blank] at found⟩
  unfold launch
  split
  · exact empty _ _
  · simp only
    split
    · exact empty _ _
    · split
      · exact empty _ _
      · split
        · exact selected _ _ _
        · split
          · exact selected _ _ _
          · exact List.foldlRecOn _ _ (selected _ _ _) fun r placed addr _ => placed_route placed _ addr

/-- One connection moves. -/
theorem paired_step {plan : Plan SwarmAddress} {c c' : Common SwarmAddress B} {actor : Actor SwarmAddress B} {act : Act}
    {session : Session SwarmAddress B} (paired : Paired depth actor)
    (standing : actor.session.phase = .dialing → ∀ ok, act ≠ .answer ok) (moves : Moves plan c actor.session act c' session) :
    Paired depth { actor with session := session } := by
  obtain ⟨overlay,bucket,-,-⟩ := identity_step moves
  refine ⟨?_,?_⟩
  · rw [overlay,bucket]
    exact paired.own
  · rcases paired.met with alone | remote
    · exact .inl (by rw [unmet_step alone standing moves]; exact alone)
    · exact .inr (remote.trans (by rw [overlay]))

/-- A dial ends: the connection stands with the overlay it was promised, or is closed. -/
theorem paired_shaken {plan : Plan SwarmAddress} {c c' : Common SwarmAddress B} {actor : Actor SwarmAddress B}
    {remote : Option SwarmAddress} {session : Session SwarmAddress B} (paired : Paired depth actor)
    (dialing : actor.session.phase = .dialing)
    (moves : Moves plan c actor.session (.answer (decide (remote = some actor.session.overlay))) c' session) :
    Paired depth { actor with
      session := session
      remote := if decide (remote = some actor.session.overlay) then remote else none } := by
  obtain ⟨overlay,bucket,-,-⟩ := identity_step moves
  refine ⟨?_,?_⟩
  · rw [overlay,bucket]
    exact paired.own
  · by_cases same : remote = some actor.session.overlay
    · exact .inr (by simp [same,overlay])
    · rw [decide_eq_false same] at moves
      left
      cases moves with
      | undialed at_ => rfl
      | measureFail at_ | measureStore at_ => rw [dialing] at at_; cases at_

omit [DecidableEq B] in
theorem placed_connect (placed : Placed depth r) (storer : Selected M SwarmAddress) (rate : Nat) (known : Option Known)
    (beneficiary : B) (own : bucketPrefix storer.overlay depth = storer.prefix_) :
    Placed depth (connect (routed parse peers cache depth job) r storer rate known beneficiary) := by
  unfold connect
  split
  · next conn looked =>
    -- A parked connection is under its own overlay.
    have found : r.conns.conns.lookup storer.overlay = some conn := by
      split at looked
      · exact looked
      · cases looked
    have same := r.conns.keyed _ _ found
    simp only
    split
    · exact ⟨placed.members,forall_append placed.actors ⟨by rw [← own,← same]; rfl,.inr rfl⟩,placed.pool⟩
    · exact ⟨placed.members,forall_append placed.actors ⟨own,.inl rfl⟩,placed.pool⟩
  · exact ⟨placed.members,forall_append placed.actors ⟨own,.inl rfl⟩,placed.pool⟩

theorem placed_step (placed : Placed depth r)
    (taken : step (routed parse peers cache depth job) needed r move = some r') : Placed depth r' := by
  obtain ⟨members,actors,pool⟩ := placed
  have filed : ∀ {plan : Plan SwarmAddress} {c : Common SwarmAddress B} {s s' : Session SwarmAddress B} {act : Act},
      Moves plan r.common s act c s' → Filed (fun a => bucketPrefix a depth) c.pool := fun moves => by
    rcases moves_pool moves with same | ⟨-,-,addr,popped⟩
    · rw [same]
      exact pool
    · exact (filed_pop pool popped).2
  cases step_steps taken with
  | acted at_ standing moves =>
    exact ⟨members,forall_set actors (paired_step (actors _ (mem_of_found at_)) standing moves),filed moves⟩
  | shaken at_ dialing moves =>
    exact ⟨members,forall_set actors (paired_shaken (actors _ (mem_of_found at_)) dialing moves),filed moves⟩
  | exhausted at_ chosen => exact ⟨(Dispatch.all_next members chosen).2,actors,pool⟩
  | @dispatched early late order known beneficiary dispatch storer rate at_ chosen =>
    obtain ⟨own,kept⟩ := Dispatch.all_next members chosen
    obtain ⟨-,own⟩ := own _ rfl
    have placed : Placed depth { r with dispatch := dispatch } := ⟨kept,actors,pool⟩
    exact placed_connect placed _ _ _ _ own
  | joined at_ there closed =>
    have paired := actors _ (mem_of_found there)
    exact ⟨members,forall_set actors ⟨paired.own,paired.met⟩,pool⟩
  | dropped | stranded => exact ⟨members,actors,fun p addrs found => by simp [send] at found⟩
  | _ => exact ⟨members,actors,pool⟩

/-- A step takes an address out of the pool. -/
def Pulled (r r' : Run M SwarmAddress B) (addr : SwarmAddress) : Prop :=
  (drainAll r.common.pool).Perm (addr :: drainAll r'.common.pool)

/-- The connection that pulls an address has met a peer that is close to it. -/
theorem pulled_close (placed : Placed depth r) (inside : depth ≤ maxPo) {i : Nat} {act : Act} {addr : SwarmAddress}
    (taken : step (routed parse peers cache depth job) needed r (.session i act) = some r') (pulled : Pulled r r' addr) :
    ∃ actor overlay, r.actors[i]? = some actor ∧ actor.remote = some overlay ∧ depth ≤ proximity overlay addr := by
  cases step_steps taken with
  | @acted i actor act common session at_ standing moves =>
    rcases moves_pool moves with same | ⟨-,busy,a,popped⟩
    · have short := pulled.length_eq
      simp [same] at short
    · have both : (a :: drainAll common.pool).Perm (addr :: drainAll common.pool) := (pop_some popped).symm.trans pulled
      have one : a = addr := by
        have here := both.count_eq a
        simp only [List.count_cons_self,List.count_cons] at here
        by_contra other
        simp [Ne.symm other] at here
      subst one
      have paired := placed.actors _ (mem_of_found at_)
      have remote := paired.met.resolve_left (by rcases busy with ⟨m,here⟩ | here <;> rw [here] <;> simp [unmet])
      refine ⟨actor,_,at_,remote,(le_proximity_iff inside).mpr ?_⟩
      exact paired.own.trans (filed_pop placed.pool popped).1.symm
  | parkedChange =>
    have short := pulled.length_eq
    simp at short

end Steps

/-- Routing: what `select_storers` selects is exactly what it should be, with a time
    that was not measured counted as the largest, and what a connection pulls is
    close to the peer that it has met. -/
theorem routing_sound (parse : List Char → Option M) (peers : PeerMap) (cache : TopologyCache) (depth : Nat)
    (inside : depth ≤ maxPo) :
    (∀ needed, Selects orLargest parse peers cache needed depth) ∧
    ∀ (job : Job M SwarmAddress) (opening : Opening SwarmAddress B) (needed : List SwarmAddress)
      (moves : List (Move SwarmAddress B)) (r : Run M SwarmAddress B),
      run (step (routed parse peers cache depth job) needed) (launch (routed parse peers cache depth job) opening) moves = some r →
      ∀ i act r' addr, step (routed parse peers cache depth job) needed r (.session i act) = some r' → Pulled r r' addr →
        ∃ actor overlay, r.actors[i]? = some actor ∧ actor.remote = some overlay ∧ depth ≤ proximity overlay addr := by
  refine ⟨fun needed => selects inside,fun job opening needed moves r reached i act r' addr taken pulled => ?_⟩
  have placed : Placed depth r :=
    run_invariant (fun s move next placed taken => placed_step placed taken) (placed_launch opening) reached
  exact pulled_close placed inside taken pulled

/-! ### Two nodes of two buckets -/

/-- A node far from every one of `node`. -/
def farNode (last : Text.Byte) : NodeRecord :=
  ⟨⟨0x80 :: List.replicate 30 0 ++ [last],by simp⟩,["/ip4/1.2.3.5/tcp/1634".toList],none,0,true⟩

/-- A cache with two nodes, and a fetch of two chunks close to one of them and of one
    chunk close to the other. -/
def two : TopologyCache where
  nodes := ⟨[⟨(node 1 none).overlay,node 1 none⟩,⟨(farNode 1).overlay,farNode 1⟩],by unfold List.NodupKeys; decide⟩
  keyed := by decide

def chunks : List SwarmAddress := [(node 2 none).overlay,(node 3 none).overlay,(farNode 2).overlay]

def double : Job (List Char) SwarmAddress where
  plan := ⟨⟨1000000000000,10 ^ 12,Cheques.trillion_fits⟩,8,false,false,false,fun _ _ => 300000,fun _ _ => by decide⟩
  chunkAddrs := chunks
  bucketOf := fun _ => 0
  select := fun _ => ∅
  directOnly := false
  stallExit := false
  connections := 2
  hex := fun _ => []

def opened : Opening SwarmAddress Nat := ⟨some ∅,true,true,∅,ConnPool.empty,0⟩

/-- Both buckets are dispatched while all of their chunks remain. -/
def dispatched : List (Move SwarmAddress Nat) :=
  let left := fun p => if p = 0 then 2 else 1
  [.refill,.dispatch left left [0,128] none 2,.refill,.dispatch left left [0,128] none 3]

/-- Both nodes are dialed. -/
def dialed : List (Move SwarmAddress Nat) :=
  dispatched ++ [.refill,.handshake 0 (some (node 1 none).overlay),.handshake 1 (some (farNode 1).overlay)]

omit [DecidableEq B] in
/-- A connection goes on by itself. -/
def goes {A : Type} (i n : Nat) : List (Move A B) := List.replicate n (.session i .go)

/-- The first connection has its chunks under way, and the second one is about to pull. -/
def aboutToPull : List (Move SwarmAddress Nat) := dialed ++ goes 0 9 ++ goes 1 4

theorem routing_sound_two : Selects orLargest some ∅ two chunks 8 ∧
    ∃ r r' actor overlay, run (step (routed some ∅ two 8 double) chunks) (launch (routed some ∅ two 8 double) opened)
        aboutToPull = some r ∧
      step (routed some ∅ two 8 double) chunks r (.session 1 .go) = some r' ∧ Pulled r r' (farNode 2).overlay ∧
      r.actors[1]? = some actor ∧ actor.remote = some overlay ∧ 8 ≤ proximity overlay (farNode 2).overlay := by
  obtain ⟨selects_,pulls⟩ := @routing_sound (List Char) Nat _ some ∅ two 8 (by decide)
  have ends : (run (step (routed some ∅ two 8 double) chunks) (launch (routed some ∅ two 8 double) opened) aboutToPull).bind
      (fun r => (step (routed some ∅ two 8 double) chunks r (.session 1 .go)).map fun r' =>
        (drainAll r.common.pool,drainAll r'.common.pool)) = some ([(farNode 2).overlay],[]) := by decide +kernel
  obtain ⟨r,reached,taken⟩ := Option.bind_eq_some_iff.mp ends
  obtain ⟨r',taken,same⟩ := Option.map_eq_some_iff.mp taken
  simp only [Prod.mk.injEq] at same
  have pulled : Pulled r r' (farNode 2).overlay := by
    rw [Pulled,same.1,same.2]
  obtain ⟨actor,overlay,at_,remote,close⟩ := pulls double opened chunks aboutToPull r reached 1 .go r' _ taken pulled
  exact ⟨selects_ chunks,r,r',actor,overlay,reached,taken,pulled,at_,remote,close⟩

end Directswarm.Pulls
