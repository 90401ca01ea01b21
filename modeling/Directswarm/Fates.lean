import Directswarm.Ownership

/-!
What becomes of every chunk of a fetch, over all runs of the scheduler: that none is
lost, that the fallback makes up for every failure, that the report counts right,
and that nothing is paid for twice. Each holds under a condition, and a short run
shows what happens without it.
-/
namespace Directswarm.Fates
open Directswarm.Words Directswarm.Runs Directswarm.Interleaving Directswarm.Pacing Directswarm.WorkPool
  Directswarm.Connection Directswarm.Errands Directswarm.Scheduler Directswarm.Tokens Directswarm.Ownership

variable {M A B : Type} [DecidableEq A] [DecidableEq B]
variable {job : Job M A} {opening : Opening A B} {needed : List A} {r r' : Run M A B} {move : Move A B}

/-- The chunks that a fetch needs. -/
def wanted (job : Job M A) (opening : Opening A B) : List A := Scheduler.needed job (opening.store.getD ∅)

/-- The report of a fetch that needs nothing. -/
def nothingNeeded (job : Job M A) : ScheduleReport := ⟨0,job.chunkAddrs.length,0,0,0,0,0,[]⟩

/-- Every copy of a needed address is somewhere. -/
def Conserved (needed : List A) (r : Run M A B) : Prop := ∀ a, ∑ x, places r a x = needed.count a

/-- No address has more copies than were needed. -/
def Scarce (needed : List A) (r : Run M A B) : Prop := ∀ a, ∑ x, places r a x ≤ needed.count a

/-- A fetch that failed before it routed anything. -/
def Failed (job : Job M A) (opening : Opening A B) (r : Run M A B) : Prop :=
  ∃ why, r.main = .returned (.error why) ∧
    (opening.store.isSome = true → opening.chainRead = true → opening.forwarder = true → job.directOnly = true)

/-- Where a fetch begins: it may have failed already, or need no chunk. -/
structure Started (job : Job M A) (opening : Opening A B) (r : Run M A B) : Prop where
  fresh : ∃ main, Fresh job (opening.store.getD ∅) main r
  scarce : Scarce (wanted job opening) r
  main : Failed job opening r ∨ Conserved (wanted job opening) r ∧
    (r.main = .refilling ∨ wanted job opening = [] ∧ r.main = .returned (.ok (nothingNeeded job)))

omit [DecidableEq B] in
theorem sum_blank (opening : Opening A B) (stored : Finset A) (selected : AList fun _ : Nat => List (Routing.Member M A))
    (main : Main) (a : A) : ∑ x, places (blank opening stored selected main) a x = 0 := by
  rw [sum_places]
  rfl

omit [DecidableEq B] in
/-- A fetch that ends before it routes anything. -/
theorem blank_started {stored : Finset A} (held : opening.store.getD ∅ = stored)
    (selected : AList fun _ : Nat => List (Routing.Member M A)) {result : Except FetchError ScheduleReport}
    (ended : Failed job opening (blank opening stored selected (.returned result) : Run M A B) ∨
      wanted job opening = [] ∧ result = .ok (nothingNeeded job)) :
    Standing (blank opening stored selected (.returned result) : Run M A B) ∧
      Started job opening (blank opening stored selected (.returned result) : Run M A B) := by
  have fresh : Fresh job stored (.returned result) (blank opening stored selected (.returned result) : Run M A B) :=
    fresh_blank opening selected
  refine ⟨fresh_standing fresh (.inr ⟨rfl,rfl⟩),⟨_,by rw [held]; exact fresh⟩,fun a => ?_,?_⟩
  · rw [sum_blank]
    exact Nat.zero_le _
  · refine ended.imp_right fun ⟨none_,fine⟩ => ⟨fun a => ?_,.inr ⟨none_,by rw [fine]; rfl⟩⟩
    rw [sum_blank,none_]
    rfl

omit [DecidableEq B] in
theorem launch_started (job : Job M A) (opening : Opening A B) :
    Standing (launch job opening) ∧ Started job opening (launch job opening) := by
  unfold launch
  cases some_ : opening.store with
  | none =>
    refine blank_started (by rw [some_]; rfl) _ (.inl ⟨_,rfl,fun opened => ?_⟩)
    rw [some_] at opened
    cases opened
  | some stored =>
    have held : opening.store.getD ∅ = stored := by rw [some_]; rfl
    have same : wanted job opening = Scheduler.needed job stored := by rw [wanted,held]
    simp only
    split
    · next empty => exact blank_started held _ (.inr ⟨same.trans (List.isEmpty_iff.mp empty),rfl⟩)
    · split
      · next unread =>
        refine blank_started held _ (.inl ⟨_,rfl,fun _ read => ?_⟩)
        rw [read] at unread
        cases unread
      · split
        · next uncovered =>
          exact blank_started held _ (.inl ⟨_,rfl,fun _ _ _ => (Bool.and_eq_true_iff.mp uncovered).2⟩)
        · split
          · next unforwarded =>
            refine blank_started held _ (.inl ⟨_,rfl,fun _ _ there => ?_⟩)
            rw [there] at unforwarded
            cases unforwarded
          · obtain ⟨fresh,sums⟩ := fresh_routed (job.select (Scheduler.needed job stored)) (Scheduler.needed job stored)
              (@fresh_blank M A B _ job stored .refilling opening (job.select (Scheduler.needed job stored)))
            have conserved : ∀ a, ∑ x, places _ a x = (wanted job opening).count a := fun a => by
              rw [sums,same,sum_blank,Nat.zero_add]
            exact ⟨fresh_standing fresh (.inl rfl),⟨_,by rw [held]; exact fresh⟩,fun a => (conserved a).le,
              .inr ⟨conserved,.inl fresh.main⟩⟩

/-- A run stays where it has returned. -/
theorem returned_stays {result : Except FetchError ScheduleReport} (over_ : r.main = .returned result)
    (steps : Steps job needed r move r') : r'.main = .returned result := by
  cases steps with
  | refilled at_ next | exhausted at_ chosen | joined at_ there closed | dropped at_ none_ all mode
  | stranded at_ none_ all mode | reported at_ all none_ outcome => rw [over_] at at_; cases at_
  | dispatched at_ chosen => rw [over_] at at_; cases at_
  | _ => exact over_

/-- The invariant rule for runs of a fetch: what the start has, and what every step
    keeps that moves addresses along an edge. -/
theorem run_turns {Inv : Run M A B → Prop} {condition : Run M A B → Move A B → Prop}
    (start : ∀ r, Started job opening r → Inv r)
    (keep : ∀ r move r' addrs p q, Standing r → Books job (opening.store.getD ∅) r → Inv r → condition r move →
      Steps job (wanted job opening) r move r' → Turn job r move r' addrs p q → Inv r')
    {moves : List (Move A B)} {final : Run M A B}
    (met : Meets (step job (wanted job opening)) condition (launch job opening) moves)
    (reached : run (step job (wanted job opening)) (launch job opening) moves = some final) :
    Standing final ∧ Books job (opening.store.getD ∅) final ∧ Inv final ∧ Scarce (wanted job opening) final ∧
      (Failed job opening final ∨ Conserved (wanted job opening) final) := by
  refine @run_guarded _ _ _ _ (fun r => Standing r ∧ Books job (opening.store.getD ∅) r ∧ Inv r ∧
    Scarce (wanted job opening) r ∧ (Failed job opening r ∨ Conserved (wanted job opening) r)) ?_ _ _ _ ?_ met reached
  · rintro r move r' ⟨standing,books,inv,scarce,alive⟩ fine taken
    have steps := step_steps taken
    obtain ⟨addrs,p,q,turn⟩ := step_turn standing.idle standing.received steps
    refine ⟨standing_step standing steps,books_turn books turn,keep r move r' addrs p q standing books inv fine steps turn,
      fun a => (sum_moved turn.moved a).trans_le (scarce a),?_⟩
    rcases alive with ⟨why,over_,because⟩ | conserved
    · exact .inl ⟨why,returned_stays over_ steps,because⟩
    · exact .inr fun a => (sum_moved turn.moved a).trans (conserved a)
  · obtain ⟨standing,started⟩ := launch_started job opening
    obtain ⟨main,fresh⟩ := started.fresh
    exact ⟨standing,fresh_books fresh,start _ started,started.scarce,started.main.imp_right And.left⟩

/-- What a fetch returned. -/
def outcome (r : Run M A B) : Option (Except FetchError ScheduleReport) :=
  match r.main with
  | .returned result => some result
  | _ => none

omit [DecidableEq B] in
theorem outcome_some {result : Except FetchError ScheduleReport} : outcome r = some result ↔ r.main = .returned result := by
  unfold outcome
  split
  · next result' at_ => simp [at_]
  · next other => simpa using other result

/-! ### No chunk is lost -/

section Ends
variable {before : Finset A} {addrs : List A} {p q : Place}

omit [DecidableEq B] in
/-- Once the pool is drained no connection carries anything. -/
theorem drained_places (standing : Standing r) (over_ : r.main = .awaiting ∨ ∃ result, r.main = .returned result) (a : A) :
    places r a .pool = 0 ∧ ∀ status, places r a (.carried status) = 0 := by
  obtain ⟨empty,all⟩ := standing.drained over_
  refine ⟨by simp [places,empty],fun status => ?_⟩
  have each : ∀ actor ∈ r.actors, carried actor.session (a,status) ≤ 0 := fun actor member =>
    (carried_late (standing.idle actor member) (standing.joined actor member (all actor member)) _).le
  simpa [places] using total_le_mul each

theorem lost_turn (none_ : ∀ a, places r a .lost = 0) (turn : Turn job r move r' addrs p q)
    (keeps : loses job r move = false) (a : A) : places r' a .lost = 0 := by
  by_contra there
  rcases moved_gain turn.moved (Nat.pos_of_ne_zero there) with old | ⟨rfl,member⟩
  · exact absurd (none_ a) old.ne'
  · have lost := turn.lost rfl (List.ne_nil_of_mem member)
    rw [keeps] at lost
    cases lost

/-- What was counted as delivered is stored. -/
def Written (r : Run M A B) : Prop := ∀ a, 0 < places r a .direct ∨ 0 < places r a .forwarded → a ∈ r.common.stored

theorem written_turn (written : Written r) (turn : Turn job r move r' addrs p q) (writes_ : writes job r move = true) :
    Written r' := by
  intro a there
  rcases there with direct | forwarded
  · rcases moved_gain turn.moved direct with old | ⟨rfl,member⟩
    · exact turn.kept (written a (.inl old))
    · exact turn.written writes_ (.inl rfl) a member
  · rcases moved_gain turn.moved forwarded with old | ⟨rfl,member⟩
    · exact turn.kept (written a (.inr old))
    · exact turn.written writes_ (.inr rfl) a member

omit [DecidableEq B] in
theorem started_zero (started : Started job opening r) (a : A) : places r a .direct = 0 ∧ places r a .forwarded = 0 ∧
    places r a .lost = 0 ∧ places r a .unserved = 0 ∧ places r a (.carried .flying) = 0 ∧ places r a (.carried .served) = 0 ∧
    places r a .fetching = 0 := by
  obtain ⟨main,fresh⟩ := started.fresh
  have zero := fresh_places fresh a
  omega

omit [DecidableEq B] in
theorem started_written (started : Started job opening r) : Written r := by
  intro a there
  have zero := started_zero started a
  omega

end Ends

/-- When the dispatch loop is done and the pool drained, every needed chunk is
    stored, or was sent to the fallback, or is counted as dropped, in every run in
    which the store takes every chunk and no latency measurement meets an address
    whose price it cannot reserve. -/
theorem none_lost (job : Job M A) (opening : Opening A B) (moves : List (Move A B)) (final : Run M A B)
    (met : Meets (step job (wanted job opening)) (fun r move => writes job r move = true ∧ loses job r move = false)
      (launch job opening) moves)
    (reached : run (step job (wanted job opening)) (launch job opening) moves = some final)
    (drained : final.main = .awaiting) :
    final.dropped = final.log.dropped.length ∧ ∀ a ∈ wanted job opening,
      a ∈ final.common.stored ∨ a ∈ final.common.sent ∨ job.directOnly = true ∧ a ∈ final.log.dropped := by
  have established := @run_turns M A B _ _ job opening (fun r => (∀ a, places r a .lost = 0) ∧ Written r) _
    (fun r started => ⟨fun a => (started_zero started a).2.2.1,started_written started⟩)
    (fun r move r' addrs p q _ _ inv fine _ turn => ⟨lost_turn inv.1 turn fine.2,written_turn inv.2 turn fine.1⟩) moves final met reached
  obtain ⟨standing,books,⟨lost,written⟩,-,⟨why,over_,-⟩ | conserved⟩ := established
  · rw [drained] at over_
    cases over_
  refine ⟨books.counts.2.2,fun a member => ?_⟩
  obtain ⟨pool,carried⟩ := drained_places standing (.inl drained) a
  have there : 0 < ∑ x, places final a x := by
    rw [conserved a]
    exact List.count_pos_iff.mpr member
  have sent := books.sent a
  have inSent : 0 < final.common.sent.count a → a ∈ final.common.sent := List.count_pos_iff.mp
  obtain ⟨x,here⟩ := exists_of_sum there
  cases x with
  | pool => exact absurd pool here.ne'
  | carried status => exact absurd (carried status) here.ne'
  | lost => exact absurd (lost a) here.ne'
  | direct => exact .inl (written a (.inl here))
  | forwarded => exact .inl (written a (.inr here))
  | found => exact .inl (books.found a here)
  | passed => exact .inl (books.passed a here)
  | queued | fetching | unserved => exact .inr (.inl (inSent (by omega)))
  | dropped =>
    refine .inr (.inr ⟨?_,List.count_pos_iff.mp here⟩)
    by_contra mode
    exact absurd (books.undropped (Bool.not_eq_true _ ▸ mode) a) here.ne'


/-! Short fetches of a single storer, for the runs below. -/

def storing (measureLambda : Bool) : Plan Nat where
  lim := ⟨1000000000000,10 ^ 12,Cheques.trillion_fits⟩
  pipeline := 8
  measureLambda := measureLambda
  prepay := false
  parkInto := false
  peerPrice := fun _ _ => 230000
  peerPrice_lt := price_fits

def oneStorer (measureLambda : Bool) (chunks : List Nat) : Job Unit Nat where
  plan := storing measureLambda
  chunkAddrs := chunks
  bucketOf := fun _ => 5
  select := fun _ => AList.singleton (5 : Nat) [(⟨(),1,5⟩,140)]
  directOnly := false
  stallExit := false
  connections := 1
  hex := fun _ => []

def opened : Opening Nat Nat := ⟨some ∅,true,true,∅,ConnPool.empty,0⟩

/-- A storer is dialed while `n` chunks remain. -/
def dial (n : Nat) : List (Move Nat Nat) := [.refill,.dispatch (fun _ => n) (fun _ => n) [5] none 2,.refill]

def goes (n : Nat) : List (Move Nat Nat) := List.replicate n (.session 0 .go)

/-- The storer serves two samples, hangs up, and the connection is wound down. -/
def lostRun : List (Move Nat Nat) :=
  dial 3 ++ ([.handshake 0 (some 1)] : List (Move Nat Nat)) ++ goes 3 ++
    ([.session 0 (.answer true),.session 0 (.answer true)] : List (Move Nat Nat)) ++ goes 2 ++
    ([.session 0 (.answer true),.session 0 (.answer true)] : List (Move Nat Nat)) ++ goes 2 ++
    ([.session 0 .hangUp] : List (Move Nat Nat)) ++ goes 1 ++ ([.pass (1200 * ms)] : List (Move Nat Nat)) ++
    goes 1 ++ ([.session 0 (.cheque (.io false))] : List (Move Nat Nat)) ++ goes 6 ++
    ([.join 0,.refill,.dispatch (fun _ => 0) (fun _ => 0) [5] none 2,.drain []] : List (Move Nat Nat))

abbrev lostJob : Job Unit Nat := oneStorer true [7,8,9]

/-- The third sample waits for room on the account, which never comes once the peer
    has hung up: its address is in none of the places that a fetch looks into. -/
theorem chunk_lost : (wanted lostJob opened).Nodup ∧ 7 ∈ wanted lostJob opened ∧
    Meets (step lostJob (wanted lostJob opened)) (fun r move => writes lostJob r move = true) (launch lostJob opened) lostRun ∧
    ∃ final, run (step lostJob (wanted lostJob opened)) (launch lostJob opened) lostRun = some final ∧
      final.main = .awaiting ∧ 7 ∉ final.common.stored ∧ 7 ∉ final.common.sent ∧ 7 ∉ final.log.dropped := by
  have ends : (run (step lostJob (wanted lostJob opened)) (launch lostJob opened) lostRun).map
      (fun final => (channelClosed final,decide (7 ∈ final.common.stored),final.common.sent,final.log.dropped)) =
      some (true,false,[],[]) := by decide +kernel
  obtain ⟨final,reached,same⟩ := Option.map_eq_some_iff.mp ends
  simp only [Prod.mk.injEq,decide_eq_false_iff_not] at same
  obtain ⟨closed,absent,unsent,kept⟩ := same
  refine ⟨by decide +kernel,by decide +kernel,by decide +kernel,final,reached,channelClosed_iff.mp closed,absent,?_,?_⟩
  · rw [unsent]
    exact List.not_mem_nil
  · rw [kept]
    exact List.not_mem_nil

/-- The connection is done with its bucket, and so is the fetch. -/
def winding : List (Move Nat Nat) := [.join 0,.refill,.dispatch (fun _ => 0) (fun _ => 0) [5] none 2,.drain []]

abbrev sampledJob : Job Unit Nat := oneStorer true [7,8]

/-- The storer is dialed, and the first sample is served and stored. -/
def sampled : List (Move Nat Nat) := dial 2 ++ ([.handshake 0 (some 1)] : List (Move Nat Nat)) ++ goes 3 ++
  ([.session 0 (.answer true),.session 0 (.answer true)] : List (Move Nat Nat))

/-- The storer has hung up before the sample is paid for. -/
def unswept : List (Move Nat Nat) := ([.pass (1200 * ms)] : List (Move Nat Nat)) ++ goes 1 ++
  ([.session 0 (.cheque (.io false))] : List (Move Nat Nat)) ++ goes 6

/-- The second sample is not served, and its address goes to the fallback. -/
def keptRun : List (Move Nat Nat) := sampled ++ goes 2 ++ ([.session 0 (.answer false)] : List (Move Nat Nat)) ++ goes 1 ++
  ([.session 0 .hangUp] : List (Move Nat Nat)) ++ goes 1 ++ unswept ++ winding

theorem none_lost_served : ∃ final, run (step sampledJob (wanted sampledJob opened)) (launch sampledJob opened) keptRun =
      some final ∧ final.main = .awaiting ∧ final.common.stored = {8} ∧ final.common.sent = [7] ∧
    final.dropped = final.log.dropped.length ∧ ∀ a ∈ wanted sampledJob opened, a ∈ final.common.stored ∨
      a ∈ final.common.sent ∨ sampledJob.directOnly = true ∧ a ∈ final.log.dropped := by
  have ends : (run (step sampledJob (wanted sampledJob opened)) (launch sampledJob opened) keptRun).map
      (fun final => (channelClosed final,final.common.stored,final.common.sent)) = some (true,{8},[7]) := by decide +kernel
  obtain ⟨final,reached,same⟩ := Option.map_eq_some_iff.mp ends
  simp only [Prod.mk.injEq] at same
  obtain ⟨closed,stored,sent⟩ := same
  have drained := channelClosed_iff.mp closed
  exact ⟨final,reached,drained,stored,sent,none_lost sampledJob opened keptRun final (by decide +kernel) reached drained⟩

/-! ### The fallback makes up for every failure -/

/-- The report is flushed. -/
def flushes (move : Move A B) : Bool :=
  match move with
  | .report flushed => flushed
  | _ => true

/-- When it is time to report, a connection stands or has stood, or no storer was
    selected. -/
def connected (r : Run M A B) (move : Move A B) : Bool :=
  match move with
  | .report _ => decide (r.opened ≠ 0) || r.selectedWasEmpty
  | _ => true

/-- What a step must be for the fallback to make up for what the storers do not. -/
def Makes (job : Job M A) (r : Run M A B) (move : Move A B) : Prop :=
  writes job r move = true ∧ refuses move = false ∧ flushes move = true ∧ loses job r move = false ∧ connected r move = true

instance (job : Job M A) (r : Run M A B) (move : Move A B) : Decidable (Makes job r move) := by
  unfold Makes
  infer_instance

theorem unserved_turn {addrs : List A} {p q : Place} (none_ : ∀ a, places r a .unserved = 0) (turn : Turn job r move r' addrs p q)
    (serves : refuses move = false) (a : A) : places r' a .unserved = 0 := by
  by_contra there
  rcases moved_gain turn.moved (Nat.pos_of_ne_zero there) with old | ⟨rfl,member⟩
  · exact absurd (none_ a) old.ne'
  · have refused := turn.unserved rfl (List.ne_nil_of_mem member)
    rw [serves] at refused
    cases refused

/-- If it has returned, then with a report. -/
def Fine (r : Run M A B) : Prop := ∀ result, r.main = .returned result → ∃ report, result = .ok report

/-- Only the last step returns. -/
theorem returned_cases {result : Except FetchError ScheduleReport} (steps : Steps job needed r move r')
    (over_ : r'.main = .returned result) : r.main = .returned result ∨ ∃ flushed, move = .report flushed ∧
      r.main = .awaiting ∧ r'.log = r.log ∧ result = if flushed = false then .error .flush
        else if r.opened = 0 ∧ r.selectedWasEmpty = false then .error (.message noConnection)
        else .ok (reportOf job needed r) := by
  cases steps with
  | refilled at_ next => rcases next with rfl | rfl <;> cases over_
  | dispatched at_ chosen =>
    unfold connect at over_
    split at over_
    · simp only at over_
      split at over_ <;> cases over_
    · cases over_
  | exhausted at_ chosen | joined at_ there closed | dropped at_ none_ all mode | stranded at_ none_ all mode => cases over_
  | @reported flushed _ at_ received idle outcome =>
    cases over_
    exact .inr ⟨flushed,rfl,at_,rfl,outcome⟩
  | _ => exact .inl over_

theorem fine_step (fine : Fine r) (steps : Steps job needed r move r') (flushes_ : flushes move = true)
    (connected_ : connected r move = true) : Fine r' := by
  intro result over_
  rcases returned_cases steps over_ with before | ⟨flushed,rfl,-,-,outcome⟩
  · exact fine result before
  · have flushed_ : flushed = true := flushes_
    have warm : ¬(r.opened = 0 ∧ r.selectedWasEmpty = false) := by
      rintro ⟨none_,some_⟩
      simp [connected,none_,some_] at connected_
    rw [flushed_,if_neg (by decide),if_neg warm] at outcome
    exact ⟨_,outcome⟩

/-- With a fallback that serves, a fetch that returns has stored every chunk and
    returns no error, whatever its storers do, provided that no measurement loses
    an address and that some connection stood, or none was ever to be had. -/
theorem fallback_total (job : Job M A) (opening : Opening A B) (moves : List (Move A B)) (final : Run M A B)
    (result : Except FetchError ScheduleReport) (mode : job.directOnly = false)
    (opens : opening.store.isSome = true ∧ opening.chainRead = true ∧ opening.forwarder = true)
    (met : Meets (step job (wanted job opening)) (Makes job) (launch job opening) moves)
    (reached : run (step job (wanted job opening)) (launch job opening) moves = some final)
    (over_ : final.main = .returned result) :
    (∃ report, result = .ok report) ∧ ∀ a ∈ job.chunkAddrs, a ∈ final.common.stored := by
  have alive : ∀ r : Run M A B, ¬Failed job opening r := fun r ⟨why,at_,because⟩ => by
    have direct := because opens.1 opens.2.1 opens.2.2
    rw [mode] at direct
    cases direct
  have established := @run_turns M A B _ _ job opening
    (fun r => (∀ a, places r a .lost = 0) ∧ (∀ a, places r a .unserved = 0) ∧ Written r ∧ Fine r) (Makes job) ?_ ?_ moves final
    met reached
  · obtain ⟨standing,books,⟨lost,unserved,written,fine⟩,-,failed | conserved⟩ := established
    · exact absurd failed (alive final)
    refine ⟨fine result over_,fun a member => ?_⟩
    by_cases before : a ∈ opening.store.getD ∅
    · exact books.kept before
    have there : 0 < ∑ x, places final a x := by
      rw [conserved a]
      exact List.count_pos_iff.mpr (List.mem_filter.mpr ⟨member,decide_eq_true before⟩)
    obtain ⟨pool,carried⟩ := drained_places standing (.inr ⟨result,over_⟩) a
    obtain ⟨received,none_⟩ := standing.returned result over_
    obtain ⟨x,here⟩ := exists_of_sum there
    cases x with
    | pool => exact absurd pool here.ne'
    | carried status => exact absurd (carried status) here.ne'
    | lost => exact absurd (lost a) here.ne'
    | unserved => exact absurd (unserved a) here.ne'
    | dropped => exact absurd (books.undropped mode a) here.ne'
    | queued => simp [places,received] at here
    | fetching => simp [places,none_] at here
    | direct => exact written a (.inl here)
    | forwarded => exact written a (.inr here)
    | found => exact books.found a here
    | passed => exact books.passed a here
  · intro r started
    refine ⟨fun a => (started_zero started a).2.2.1,fun a => (started_zero started a).2.2.2.1,started_written started,?_⟩
    rintro result at_
    rcases started.main with failed | ⟨-,refilling | ⟨-,fine⟩⟩
    · exact absurd failed (alive r)
    · rw [refilling] at at_
      cases at_
    · rw [fine] at at_
      cases at_
      exact ⟨_,rfl⟩
  · rintro r move r' addrs p q - - ⟨lost,unserved,written,fine⟩ ⟨writes_,serves,flushes_,keeps,connected_⟩ steps turn
    exact ⟨lost_turn lost turn keeps,unserved_turn unserved turn serves,written_turn written turn writes_,
      fine_step fine steps flushes_ connected_⟩

/-- The only dial fails, and the fallback serves the chunk. -/
def coldRun : List (Move Nat Nat) :=
  dial 1 ++
    ([.handshake 0 none,.join 0,.refill,.dispatch (fun _ => 1) (fun _ => 1) [5] none 2,.drain [7],.receive,
      .forward 0 true true [],.collect 0,.report true] : List (Move Nat Nat))

/-- Every chunk is stored, and yet the fetch returns an error. -/
theorem cold_fails : Meets (step (oneStorer false [7]) (wanted (oneStorer false [7]) opened))
      (fun r move => writes (oneStorer false [7]) r move = true ∧ refuses move = false ∧ flushes move = true)
      (launch (oneStorer false [7]) opened) coldRun ∧
    ∃ final, run (step (oneStorer false [7]) (wanted (oneStorer false [7]) opened))
        (launch (oneStorer false [7]) opened) coldRun = some final ∧ final.common.stored = {7} ∧
      final.main = .returned (.error (.message noConnection)) := by
  have ends : (run (step (oneStorer false [7]) (wanted (oneStorer false [7]) opened))
      (launch (oneStorer false [7]) opened) coldRun).map (fun final => (final.common.stored,outcome final)) =
      some ({7},some (.error (.message noConnection))) := by decide +kernel
  obtain ⟨final,reached,same⟩ := Option.map_eq_some_iff.mp ends
  simp only [Prod.mk.injEq] at same
  exact ⟨by decide +kernel,final,reached,same.1,outcome_some.mp same.2⟩

/-- A sample is served, and its storer hangs up before the rest. -/
def warmRun : List (Move Nat Nat) :=
  sampled ++ ([.session 0 .hangUp] : List (Move Nat Nat)) ++ goes 2 ++ unswept ++
    ([.join 0,.refill,.dispatch (fun _ => 1) (fun _ => 1) [5] none 2,.drain [7],.receive,.forward 0 true true [],
      .collect 0,.report true] : List (Move Nat Nat))

theorem fallback_total_warm : ∃ final result, run (step sampledJob (wanted sampledJob opened))
      (launch sampledJob opened) warmRun = some final ∧ final.main = .returned result ∧
    (∃ report, result = .ok report) ∧ ∀ a ∈ sampledJob.chunkAddrs, a ∈ final.common.stored := by
  have ends : (run (step sampledJob (wanted sampledJob opened)) (launch sampledJob opened) warmRun).map outcome =
      some (some (.ok ⟨1,2,1,1,0,0,230000,[]⟩)) := by decide +kernel
  obtain ⟨final,reached,same⟩ := Option.map_eq_some_iff.mp ends
  have over_ := outcome_some.mp same
  exact ⟨final,_,reached,over_,fallback_total sampledJob opened warmRun final _ rfl ⟨rfl,rfl,rfl⟩
    (by decide +kernel) reached over_⟩

end Directswarm.Fates
