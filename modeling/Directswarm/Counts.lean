import Directswarm.Fates

/-!
What the report of a fetch counts, and what the fetch paid for. Both are right for
a list without repeats: the report when the store takes every chunk, the payments
whatever it takes. For lists with repeats no chunk is paid for twice in a run in
which no fetch of an address begins while another is under way.
-/
namespace Directswarm.Counts
open Directswarm.Words Directswarm.Runs Directswarm.Interleaving Directswarm.Pacing Directswarm.WorkPool
  Directswarm.Connection Directswarm.Errands Directswarm.Scheduler Directswarm.Tokens Directswarm.Ownership Directswarm.Fates

variable {M A B : Type} [DecidableEq A] [DecidableEq B]
variable {job : Job M A} {opening : Opening A B} {needed : List A} {r r' : Run M A B} {move : Move A B}
variable {addrs : List A} {p q : Place}

/-! ### What is paid for -/

/-- The fetches of an address that are under way: those that wait for the peer, and
    those that wait for the store. -/
def underWay (r : Run M A B) (a : A) : Nat := places r a (.carried .flying) + places r a (.carried .served) + places r a .fetching

/-- A fetch begins only when no other of that address is under way. -/
def Alone (job : Job M A) (r : Run M A B) (move : Move A B) : Prop := ∀ a ∈ begins job r move, underWay r a = 0

instance (job : Job M A) (r : Run M A B) (move : Move A B) : Decidable (Alone job r move) := by
  unfold Alone
  infer_instance

/-- At most one fetch of each address is under way or has served it. -/
def Once (r : Run M A B) : Prop := ∀ a, underWay r a + places r a .direct + places r a .forwarded ≤ 1

theorem once_turn (once : Once r) (written : Written r) (turn : Turn job r move r' addrs p q) (alone : Alone job r move) :
    Once r' := by
  intro a
  have here := once a
  have flying := turn.moved a (.carried .flying)
  have served := turn.moved a (.carried .served)
  have fetching := turn.moved a .fetching
  have direct := turn.moved a .direct
  have forwarded := turn.moved a .forwarded
  unfold underWay at *
  by_cases starts : a ∈ addrs ∧ (q = .carried .flying ∨ q = .fetching)
  · obtain ⟨member,target⟩ := starts
    obtain ⟨single,begun⟩ := turn.begun target a member
    have none_ := alone a begun
    -- What is stored is not fetched, and what was delivered is stored.
    have absent : a ∉ r.common.stored := by
      have edge := turn.edges a member
      rcases target with rfl | rfl
      · cases edge with
        | start absent => exact absent
      · cases edge with
        | forward absent => exact absent
    have undelivered : ¬(0 < places r a .direct ∨ 0 < places r a .forwarded) := fun there => absent (written a there)
    subst single
    unfold underWay at none_
    rcases target with rfl | rfl <;> cases turn.edges a member <;> simp at flying served fetching direct forwarded <;> omega
  · cases inside : addrs.count a with
    | zero => simp only [inside,ite_self,Nat.add_zero] at flying served fetching direct forwarded; omega
    | succ n =>
      have member : a ∈ addrs := List.count_pos_iff.mp (by omega)
      have other : ¬(q = .carried .flying ∨ q = .fetching) := fun target => starts ⟨member,target⟩
      cases turn.edges a member with
      | leave held => rcases held with rfl | rfl <;> simp at flying served fetching direct forwarded <;> omega
      | start absent | forward absent => simp at other
      | _ => simp at flying served fetching direct forwarded; omega

/-- No chunk is paid for twice: not to two storers, not to one twice, and not to a
    storer and to the fallback, in every run in which the store takes every chunk
    and each fetch begins when no other of its address is under way. -/
theorem paid_once (job : Job M A) (opening : Opening A B) (moves : List (Move A B)) (final : Run M A B)
    (met : Meets (step job (wanted job opening)) (fun r move => writes job r move = true ∧ Alone job r move)
      (launch job opening) moves)
    (reached : run (step job (wanted job opening)) (launch job opening) moves = some final) (a : A) :
    final.log.retrieved.count a + final.log.forwarded.count a ≤ 1 := by
  have established := @run_turns M A B _ _ job opening (fun r => Written r ∧ Once r) _
    (fun r started => ⟨started_written started,fun a => by
      have zero := started_zero started a
      unfold underWay
      omega⟩)
    (fun r move r' addrs p q _ _ inv fine _ turn =>
      ⟨written_turn inv.1 turn fine.1,once_turn inv.2 inv.1 turn fine.2⟩) moves final met reached
  obtain ⟨-,books,⟨-,once⟩,-,-⟩ := established
  have here := once a
  have retrieved := books.retrieved a
  have forwarded : places final a .forwarded = final.log.forwarded.count a := rfl
  unfold underWay at here
  omega

/-- A list without repeats needs no condition. -/
theorem distinct_paid_once (job : Job M A) (opening : Opening A B) (moves : List (Move A B)) (final : Run M A B)
    (distinct : (wanted job opening).Nodup)
    (reached : run (step job (wanted job opening)) (launch job opening) moves = some final) (a : A) :
    final.log.retrieved.count a + final.log.forwarded.count a ≤ 1 := by
  obtain ⟨-,books,-,scarce,-⟩ := @run_turns M A B _ _ job opening (fun _ => True) (fun _ _ => True) (fun _ _ => trivial)
    (fun _ _ _ _ _ _ _ _ _ _ _ _ => trivial) moves final (meets_true _ _) reached
  have single := (scarce a).trans (List.nodup_iff_count_le_one.mp distinct a)
  rw [sum_places] at single
  have retrieved := books.retrieved a
  have forwarded : places final a .forwarded = final.log.forwarded.count a := rfl
  omega

/-- Two copies of one chunk are fetched at once, and both are served. -/
def twiceRun : List (Move Nat Nat) :=
  dial 2 ++ ([.handshake 0 (some 1)] : List (Move Nat Nat)) ++ goes 8 ++
    ([.session 0 (.task 0 true),.session 0 (.task 1 true)] : List (Move Nat Nat))

theorem paid_twice : Meets (step (oneStorer false [7,7]) (wanted (oneStorer false [7,7]) opened))
      (fun r move => writes (oneStorer false [7,7]) r move = true) (launch (oneStorer false [7,7]) opened) twiceRun ∧
    ∃ final, run (step (oneStorer false [7,7]) (wanted (oneStorer false [7,7]) opened))
        (launch (oneStorer false [7,7]) opened) twiceRun = some final ∧ final.log.retrieved.count 7 = 2 := by
  have ends : (run (step (oneStorer false [7,7]) (wanted (oneStorer false [7,7]) opened))
      (launch (oneStorer false [7,7]) opened) twiceRun).map (fun final => final.log.retrieved.count 7) = some 2 := by
    decide +kernel
  obtain ⟨final,reached,twice⟩ := Option.map_eq_some_iff.mp ends
  exact ⟨by decide +kernel,final,reached,twice⟩

/-- The second copy is popped when the first is stored. -/
def skippedRun : List (Move Nat Nat) :=
  dial 2 ++ ([.handshake 0 (some 1)] : List (Move Nat Nat)) ++ goes 6 ++
    ([.session 0 (.task 0 true),.session 0 (.task 0 true),.session 0 .hangUp] : List (Move Nat Nat)) ++ goes 4 ++
    ([.session 0 (.accepted none)] : List (Move Nat Nat)) ++ goes 2 ++ ([.pass tick] : List (Move Nat Nat)) ++
    goes 5 ++ winding ++ ([.report true] : List (Move Nat Nat))

theorem paid_once_skipped : ∃ final, run (step (oneStorer false [7,7]) (wanted (oneStorer false [7,7]) opened))
      (launch (oneStorer false [7,7]) opened) skippedRun = some final ∧
    final.log.retrieved.count 7 + final.log.forwarded.count 7 ≤ 1 := by
  have ends : (run (step (oneStorer false [7,7]) (wanted (oneStorer false [7,7]) opened))
      (launch (oneStorer false [7,7]) opened) skippedRun).isSome = true := by decide +kernel
  obtain ⟨final,reached⟩ := Option.isSome_iff_exists.mp ends
  exact ⟨final,reached,paid_once (oneStorer false [7,7]) opened skippedRun final (by decide +kernel) reached 7⟩

/-! ### What is reported -/

/-- A report counts what the log holds. -/
def Reports (needed : List A) (r : Run M A B) : Prop := ∀ report, r.main = .returned (.ok report) →
  report.chunksFromDirect = r.log.direct.length ∧ report.chunksFromFallback = r.log.forwarded.length ∧
    report.chunksDroppedUncovered = r.log.dropped.length ∧
    report.chunksFailed = needed.length - (r.log.direct.length + r.log.forwarded.length) - r.log.dropped.length

/-- Once a fetch has returned nothing moves. -/
theorem returned_still {result : Except FetchError ScheduleReport} (standing : Standing r) (over_ : r.main = .returned result)
    (turn : Turn job r move r' addrs p q) : addrs = [] := by
  cases addrs with
  | nil => rfl
  | cons addr rest =>
    obtain ⟨received,none_⟩ := standing.returned result over_
    obtain ⟨pool,carried⟩ := drained_places standing (.inr ⟨result,over_⟩) addr
    have queued : places r addr .queued = 0 := by simp [places,received]
    have fetching : places r addr .fetching = 0 := by simp [places,none_]
    have edge := turn.edges addr List.mem_cons_self
    have left : 0 < places r addr p := by
      have differ : p ≠ q := by
        rintro rfl
        cases edge
      rw [← moved_source turn.moved differ addr]
      have member : 0 < (addr :: rest).count addr := List.count_pos_iff.mpr List.mem_cons_self
      omega
    cases edge with
    | pop | strand | drop => omega
    | pass there | forward absent => omega
    | forwarded | unserved => omega
    | _ => rw [carried] at left; exact absurd left (lt_irrefl 0)

omit [DecidableEq B] in
/-- At a place that is a list of the log, what does not move stays in number. -/
theorem length_still (moved : Moved (places r) (places r') [] p q) : r'.log.direct.length = r.log.direct.length ∧
    r'.log.forwarded.length = r.log.forwarded.length ∧ r'.log.dropped.length = r.log.dropped.length := by
  have same : ∀ a x, places r' a x = places r a x := fun a x => by simpa using moved a x
  exact ⟨(List.perm_iff_count.mpr fun a => same a .direct).length_eq,
    (List.perm_iff_count.mpr fun a => same a .forwarded).length_eq,
    (List.perm_iff_count.mpr fun a => same a .dropped).length_eq⟩

theorem reports_turn {before : Finset A} (standing : Standing r) (books : Books job before r) (reports : Reports needed r)
    (steps : Steps job needed r move r') (turn : Turn job r move r' addrs p q) : Reports needed r' := by
  intro report over_
  rcases returned_cases steps over_ with already | ⟨flushed,rfl,at_,log,outcome⟩
  · cases returned_still standing already turn
    obtain ⟨direct,forwarded,dropped⟩ := length_still turn.moved
    rw [direct,forwarded,dropped]
    exact reports report already
  · obtain ⟨direct,forwarded,dropped⟩ := books.counts
    split at outcome
    · cases outcome
    · split at outcome
      · cases outcome
      · cases outcome
        rw [log,← direct,← forwarded,← dropped]
        exact ⟨rfl,rfl,rfl,rfl⟩

/-- The copies that neither came nor were dropped. -/
def missing (needed : List A) (r : Run M A B) : List A :=
  needed.filter fun a => a ∉ r.common.stored ∧ a ∉ r.log.dropped

omit [DecidableEq B] in
/-- What is known of an address of which there is a single copy, when all is over. -/
theorem missing_count {before : Finset A} {a : A} (books : Books job before r) (written : Written r) (conserved : Conserved needed r)
    (fresh : ∀ a ∈ needed, a ∉ before) (single : needed.count a ≤ 1) (none_ : places r a .pool = 0 ∧
      (∀ status, places r a (.carried status) = 0) ∧ places r a .queued = 0 ∧ places r a .fetching = 0) :
    (missing needed r).count a + (r.log.direct.count a + r.log.forwarded.count a) + r.log.dropped.count a =
      needed.count a := by
  obtain ⟨pool,carried,queued,fetching⟩ := none_
  have sum := conserved a
  rw [sum_places,pool,carried,carried,carried,carried,queued,fetching] at sum
  have direct : places r a .direct = r.log.direct.count a := rfl
  have forwarded : places r a .forwarded = r.log.forwarded.count a := rfl
  have dropped : places r a .dropped = r.log.dropped.count a := rfl
  by_cases member : a ∈ needed
  · have one : needed.count a = 1 := le_antisymm single (List.count_pos_iff.mpr member)
    -- With a single copy, what is stored was delivered.
    have stored : a ∈ r.common.stored ↔ 0 < places r a .direct ∨ 0 < places r a .forwarded :=
      ⟨fun inside => (books.fresh a inside).resolve_left (fresh a member),written a⟩
    have unfound : places r a .found = 0 := by
      by_contra there
      have delivered := stored.mp (books.found a (Nat.pos_of_ne_zero there))
      omega
    have unpassed : places r a .passed = 0 := by
      by_contra there
      have delivered := stored.mp (books.passed a (Nat.pos_of_ne_zero there))
      omega
    by_cases gone : a ∉ r.common.stored ∧ a ∉ r.log.dropped
    · have kept : (missing needed r).count a = needed.count a := List.count_filter (by simpa using gone)
      have undelivered : ¬(0 < places r a .direct ∨ 0 < places r a .forwarded) := fun there => gone.1 (stored.mpr there)
      have undropped := List.count_eq_zero_of_not_mem gone.2
      omega
    · have none_ : (missing needed r).count a = 0 :=
        List.count_eq_zero_of_not_mem fun inside => gone (by simpa using (List.mem_filter.mp inside).2)
      rw [not_and_or,not_not,not_not,stored,← List.count_pos_iff] at gone
      omega
  · have absent : needed.count a = 0 := List.count_eq_zero_of_not_mem member
    have none_ : (missing needed r).count a = 0 :=
      List.count_eq_zero_of_not_mem fun inside => member (List.mem_of_mem_filter inside)
    omega

end Directswarm.Counts
