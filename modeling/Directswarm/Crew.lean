import Mathlib
import Directswarm.Pulls
import Directswarm.Replanning
import Directswarm.Fates

/-!
Whom a fetch is connected to (`fetch_scheduled`, over all runs). The dispatcher of a
run is the planner of `Replanning`, whose members in flight are the connections that
are not joined (`staffed_step`): what the planner keeps, the run keeps. So a peer is
never served by two connections at once, and none that is still open is parked as
well (`one_each`); and the window, the dials and the dispatcher's counters are what
they should be (`crew_counts`).
-/
namespace Directswarm.Crew
open Directswarm.Words Directswarm.Runs Directswarm.Interleaving Directswarm.PeerTable Directswarm.Proximity
  Directswarm.Routing Directswarm.Dispatching Directswarm.Replanning Directswarm.WorkPool Directswarm.Connection
  Directswarm.Scheduler

variable {M A B : Type}

/-! ### What the planner does in a run -/

/-- Buckets are recycled, a member is dialed, or its connection is reported. -/
inductive Turnover (s : Planning M A) : Planning M A → Prop
  | recycled (early : Pool) : Turnover s { s with dispatch := recycled early s.dispatch }
  | dialed {p : Nat} {m : Member M A} {dispatch : Dispatch M A} (dials : s.dispatch.dial p = some (m,dispatch)) :
      Turnover s { s with dispatch := dispatch, inflight := s.inflight ++ [m], dialed := s.dialed ++ [m] }
  | reported {i : Nat} {m : Member M A} (at_ : s.inflight[i]? = some m) :
      Turnover s { s with dispatch := s.dispatch.done m.1.prefix_ m.2, inflight := s.inflight.eraseIdx i }

/-- Thirty chunks in one bucket, and none elsewhere. -/
def heap (p : Nat) : Pool := AList.insert p 30 ∅

theorem remaining_heap (p q : Nat) : Replanning.remaining (heap p) q = if q = p then 30 else 0 := by
  unfold Replanning.remaining heap
  by_cases same : q = p
  · subst same
    rw [AList.lookup_insert,if_pos rfl]
    rfl
  · rw [AList.lookup_insert_ne same,AList.lookup_empty,if_neg same]
    rfl

theorem shrinks_refl (pool : Pool) : Shrinks pool pool := fun _ _ => le_rfl

theorem shrinks_empty (pool : Pool) : Shrinks ∅ pool := by
  intro p member
  cases member

variable {c : Candidates M A} {s s' : Planning M A}

/-- A planner that finds no chunks only recycles. -/
theorem plan_recycles (s : Planning M A) (early : Pool) :
    planStep { s with pool := early } (.next early ∅ (recycled early s.dispatch).cands.keys) =
      some { s with dispatch := recycled early s.dispatch, pool := ∅ } := by
  have allowed : Allowed { s with pool := early } early ∅ (recycled early s.dispatch).cands.keys :=
    ⟨shrinks_refl early,shrinks_empty early,List.Perm.refl _⟩
  obtain ⟨result,d',chosen⟩ : ∃ result d', s.dispatch.next (Replanning.remaining early) (Replanning.remaining ∅)
      (recycled early s.dispatch).cands.keys = (result,d') := ⟨_,_,rfl⟩
  have nothing : (recycled early s.dispatch).cands.keys.foldl
      (Dispatch.better (Replanning.remaining ∅) (recycled early s.dispatch)) none = none := by
    refine (best_spec (∅ : Pool) _ none).1.mpr ⟨rfl,fun q _ considered => ?_⟩
    have none_ : Replanning.remaining (∅ : Pool) q = 0 := rfl
    have some_ := considered.2
    omega
  simp only [planStep,if_pos allowed,chosen]
  rcases next_cases chosen with ⟨rfl,rfl,-⟩ | ⟨m,best,-,found,-⟩
  · simp
  · rw [nothing] at found
    cases found

/-- A planner that finds chunks in one bucket alone dials it. -/
theorem plan_dials {p : Nat} {m : Member M A} {dispatch : Dispatch M A} (dials : s.dispatch.dial p = some (m,dispatch)) :
    planStep { s with pool := heap p } (.next (heap p) (heap p) s.dispatch.cands.keys) =
      some ⟨dispatch,heap p,s.inflight ++ [m],s.dialed ++ [m]⟩ := by
  obtain ⟨rest,free,-⟩ := dial_spec dials
  have unused : s.dispatch.unused p ≠ [] := by rw [free]; exact List.cons_ne_nil _ _
  have fresh : ∀ q, ¬Exhausted (heap p) s.dispatch q := by
    rintro q ⟨-,empty,-,chunks,-⟩
    rw [remaining_heap] at chunks
    split at chunks
    · next same => exact unused (same ▸ empty)
    · omega
  have only : ∀ q, Considered (heap p) s.dispatch q ↔ q = p := by
    intro q
    unfold Considered
    rw [remaining_heap]
    by_cases here : q = p
    · subst here
      simp [unused]
    · simp [here]
  obtain ⟨n,d',dialed,taken⟩ := @plan_next M A { s with pool := heap p } s.dispatch.cands.keys p (List.Perm.refl _) fresh
    ((only p).mpr rfl) fun q other able => absurd ((only q).mp able) other
  cases dials.symm.trans dialed
  exact taken

/-- What every step of the planner keeps, whatever it read of the pool, its moves in
    a run keep. -/
theorem turnover_keeps {Inv : Planning M A → Prop}
    (keep : ∀ (s : Planning M A) (act : PlanAct) (next : Planning M A), Replanning.Books c s ∧ Inv s →
      planStep s act = some next → Replanning.Books c next ∧ Inv next)
    (blind : ∀ (s : Planning M A) (pool : Pool), Inv s → Inv { s with pool := pool }) (books : Replanning.Books c s) (inv : Inv s)
    (turnover : Turnover s s') : Replanning.Books c s' ∧ Inv s' := by
  have reread : ∀ (s : Planning M A) (pool : Pool), Replanning.Books c s ∧ Inv s →
      Replanning.Books c { s with pool := pool } ∧ Inv { s with pool := pool } := fun s pool both =>
    ⟨⟨both.1.members,both.1.flying,both.1.number,both.1.recycles,both.1.known⟩,blind s pool both.2⟩
  cases turnover with
  | recycled early => exact reread _ s.pool (keep _ _ _ (reread s early ⟨books,inv⟩) (plan_recycles s early))
  | @dialed p m dispatch dials => exact reread _ s.pool (keep _ _ _ (reread s (heap p) ⟨books,inv⟩) (plan_dials dials))
  | @reported i m at_ => exact keep s (.done i) _ ⟨books,inv⟩ (by rw [planStep,at_]; rfl)

/-! ### The connections of a run -/

/-- What a connection was dialed for. -/
def badge (actor : Actor A B) : Nat × Nat × A := (actor.prefix_,actor.rate,actor.session.overlay)

def badgeOf (m : Member M A) : Nat × Nat × A := (m.1.prefix_,m.2,m.1.overlay)

/-- A connection moves on, and stays what it was dialed for. -/
theorem crew_set {actors : List (Actor A B)} {i : Nat} {actor actor' : Actor A B} (at_ : actors[i]? = some actor)
    (same : badge actor' = badge actor) (joined : actor'.joined = actor.joined) :
    ((actors.set i actor').filter fun a => !a.joined).map badge = (actors.filter fun a => !a.joined).map badge := by
  induction actors generalizing i with
  | nil => simp at at_
  | cons first rest ih =>
    cases i with
    | zero =>
      cases at_
      rw [List.set_cons_zero,List.filter_cons,List.filter_cons,joined]
      split
      · rw [List.map_cons,List.map_cons,same]
      · rfl
    | succ i =>
      rw [List.set_cons_succ,List.filter_cons,List.filter_cons]
      split
      · rw [List.map_cons,List.map_cons,ih at_]
      · exact ih at_

theorem badges_set {actors : List (Actor A B)} {i : Nat} {actor actor' : Actor A B} (at_ : actors[i]? = some actor)
    (same : badge actor' = badge actor) : (actors.set i actor').map badge = actors.map badge := by
  obtain ⟨inside,rfl⟩ := List.getElem?_eq_some_iff.mp at_
  rw [List.map_set,same,← List.map_set,List.set_getElem_self]

/-- A connection that is joined is no longer in flight. -/
theorem crew_join {actors : List (Actor A B)} {i : Nat} {actor : Actor A B} (at_ : actors[i]? = some actor)
    (open_ : actor.joined = false) : ∃ k, (actors.filter fun a => !a.joined)[k]? = some actor ∧
      ((actors.set i { actor with joined := true }).filter fun a => !a.joined) =
        (actors.filter fun a => !a.joined).eraseIdx k := by
  induction actors generalizing i with
  | nil => simp at at_
  | cons first rest ih =>
    cases i with
    | zero =>
      cases at_
      refine ⟨0,by simp [open_],?_⟩
      simp [open_]
    | succ i =>
      obtain ⟨k,found,erased⟩ := ih at_
      rw [List.set_cons_succ]
      cases gone : first.joined
      · refine ⟨k + 1,by simpa [gone] using found,?_⟩
        simp [gone,erased]
      · refine ⟨k,by simpa [gone] using found,?_⟩
        simp [gone,erased]

section Staff
variable [DecidableEq A]

/-- The planner that a run goes by. One that has returned needs none. -/
structure Staffed (r : Run M A B) (s : Planning M A) : Prop where
  dispatch : (∀ result, r.main ≠ .returned result) → r.dispatch = s.dispatch
  crew : (inflight r).map badge = s.inflight.map badgeOf
  all : r.actors.map badge = s.dialed.map badgeOf

omit [DecidableEq A] in
/-- What a call of `next` does to the planner. -/
theorem next_turnover {d d' : Dispatch M A} {early late : Nat → Nat} {order : List Nat} {result : Option (Member M A)}
    (chosen : d.next early late order = (result,d')) : ∃ pool : Pool,
      result = none ∧ d' = recycled pool d ∨ ∃ m p, result = some m ∧ (recycled pool d).dial p = some (m,d') := by
  -- Only whether thirty chunks are left decides about recycling.
  let marks : Pool := d.used.keys.foldr (fun p pool => if 30 ≤ early p then pool.insert p 30 else pool) ∅
  have marked : ∀ (keys : List Nat) (p : Nat), Replanning.remaining
      (keys.foldr (fun p pool => if 30 ≤ early p then pool.insert p 30 else pool) (∅ : Pool)) p =
        if p ∈ keys ∧ 30 ≤ early p then 30 else 0 := by
    intro keys p
    induction keys with
    | nil => simp [Replanning.remaining]
    | cons q rest ih =>
      rw [List.foldr_cons]
      by_cases same : p = q
      · subst same
        by_cases many : 30 ≤ early p
        · simp [many,Replanning.remaining]
        · simpa [many] using ih
      · have there : p ∈ q :: rest ↔ p ∈ rest := by simp [same]
        simp only [there]
        split
        · rw [Replanning.remaining,AList.lookup_insert_ne same]
          exact ih
        · exact ih
  have refills : d.refill early = d.refill (Replanning.remaining marks) := by
    refine List.filter_congr fun p member => ?_
    have same : (30 ≤ early p) ↔ 30 ≤ Replanning.remaining marks p := by
      rw [marked]
      by_cases many : 30 ≤ early p <;> simp [member,many]
    simp only [decide_eq_decide.mpr same]
  unfold Dispatch.next at chosen
  simp only [refills] at chosen
  refine ⟨marks,?_⟩
  split at chosen
  · next m after found =>
    cases chosen
    obtain ⟨best,-,dials⟩ := Option.bind_eq_some_iff.mp found
    exact .inr ⟨m,best.2,rfl,dials⟩
  · cases chosen
    exact .inl ⟨rfl,rfl⟩

variable [DecidableEq B] {job : Job M A} {needed : List A} {r r' : Run M A B} {move : Move A B}

omit [DecidableEq B] in
/-- A connection is spawned for the member that was chosen, and the main task goes on. -/
theorem connect_spawns (job : Job M A) (r : Run M A B) (storer : Selected M A) (rate : Nat) (known : Option Known) (beneficiary : B) :
    ∃ actor : Actor A B, (connect job r storer rate known beneficiary).actors = r.actors ++ [actor] ∧
      badge actor = badgeOf (storer,rate) ∧ actor.joined = false ∧
      (connect job r storer rate known beneficiary).main = .refilling ∧
      (connect job r storer rate known beneficiary).dispatch = r.dispatch := by
  unfold connect
  split
  · next conn looked =>
    have found : r.conns.conns.lookup storer.overlay = some conn := by
      split at looked
      · exact looked
      · cases looked
    have own := r.conns.keyed _ _ found
    simp only
    split
    · exact ⟨_,rfl,by simp [badge,badgeOf,spawn,own],rfl,rfl,rfl⟩
    · exact ⟨_,rfl,rfl,rfl,rfl,rfl⟩
  · exact ⟨_,rfl,rfl,rfl,rfl,rfl⟩

/-- Only a connection that is in flight is joined. -/
theorem join_open {i : Nat} {actor : Actor A B} (taken : step job needed r (.join i) = some r')
    (there : r.actors[i]? = some actor) : actor.joined = false := by
  have either : (mainStep job r (.join i)).or (workerStep job r (.join i)) = some r' := taken
  have worker : workerStep job r (.join i) = none := rfl
  rw [worker,Option.or_none,mainStep,there] at either
  split at either
  · next actor' at_ same =>
    cases same
    split at either
    · split at either
      · cases either
      · next open_ => simpa using open_
    · cases either
  · cases either

/-- Every step of a run is some moves of the planner. -/
theorem staffed_step (staffed : Staffed r s) (taken : step job needed r move = some r') :
    ∃ s', Relation.ReflTransGen Turnover s s' ∧ Staffed r' s' := by
  obtain ⟨dispatch,crew,all⟩ := staffed
  have busy : ∀ {main : Main}, r.main = main → (∀ result, main ≠ .returned result) → r.dispatch = s.dispatch :=
    fun at_ other => dispatch fun result => by rw [at_]; exact other result
  cases step_steps taken with
  | @acted i actor act common session at_ standing moves =>
    have same : badge { actor with session := session } = badge actor := by
      obtain ⟨overlay,-⟩ := identity_step moves
      simp [badge,overlay]
    exact ⟨s,.refl,dispatch,(crew_set at_ same rfl).trans crew,(badges_set at_ same).trans all⟩
  | @shaken i actor remote common session at_ dialing moves =>
    have same : ∀ met, badge { actor with session := session, remote := met } = badge actor := by
      obtain ⟨overlay,-⟩ := identity_step moves
      simp [badge,overlay]
    exact ⟨s,.refl,dispatch,(crew_set at_ (same _) rfl).trans crew,(badges_set at_ (same _)).trans all⟩
  | @joined i actor residual observed parked at_ there closed =>
    obtain ⟨k,found,erased⟩ := crew_join there (join_open taken there)
    have listed : (s.inflight.map badgeOf)[k]? = some (badge actor) := by
      rw [← crew,List.getElem?_map,inflight,found]
      rfl
    rw [List.getElem?_map,Option.map_eq_some_iff] at listed
    obtain ⟨m,flies,same⟩ := listed
    simp only [badgeOf,badge,Prod.mk.injEq] at same
    refine ⟨_,.single (.reported flies),fun _ => ?_,?_,?_⟩
    · rw [busy at_ (by simp),same.1,same.2.1]
    · rw [inflight,erased,← List.eraseIdx_map,← List.eraseIdx_map]
      exact congrArg (fun badges => badges.eraseIdx k) crew
    · rw [← all]
      exact badges_set there rfl
  | @dispatched early late order known beneficiary d storer rate at_ chosen =>
    obtain ⟨pool,⟨none_,-⟩ | ⟨m,p,same,dials⟩⟩ := next_turnover chosen
    · cases none_
    cases same
    obtain ⟨actor,actors,same,open_,main,kept⟩ := connect_spawns job { r with dispatch := d } storer rate known beneficiary
    rw [busy at_ (by simp)] at dials
    refine ⟨_,(Relation.ReflTransGen.single (.recycled pool)).tail (.dialed dials),fun _ => kept,?_,?_⟩
    · rw [inflight,actors,List.filter_append,List.map_append]
      simp [open_,same,← crew,inflight]
    · rw [actors,List.map_append]
      simp [same,← all]
  | @exhausted early late order known beneficiary d at_ chosen =>
    obtain ⟨pool,⟨-,same⟩ | ⟨m,p,some_,-⟩⟩ := next_turnover chosen
    · refine ⟨_,.single (.recycled pool),fun _ => ?_,crew,all⟩
      rw [same,busy at_ (by simp)]
    · cases some_
  | refilled at_ next | dropped at_ none_ every mode | stranded at_ none_ every mode =>
    exact ⟨s,.refl,fun _ => busy at_ (by simp),crew,all⟩
  | reported at_ every none_ outcome => exact ⟨s,.refl,fun other => absurd rfl (other _),crew,all⟩
  | _ => exact ⟨s,.refl,dispatch,crew,all⟩

omit [DecidableEq B] in
/-- Routing the chunks leaves the dispatcher as it is. -/
theorem routes_kept (job : Job M A) (covered : AList fun _ : Nat => List (Member M A)) (addrs : List A) (r : Run M A B) :
    (addrs.foldl (route job covered) r).dispatch = r.dispatch ∧ (addrs.foldl (route job covered) r).opened = r.opened ∧
      (addrs.foldl (route job covered) r).main = r.main := by
  induction addrs generalizing r with
  | nil => exact ⟨rfl,rfl,rfl⟩
  | cons addr rest ih =>
    have one : (route job covered r addr).dispatch = r.dispatch ∧ (route job covered r addr).opened = r.opened ∧
        (route job covered r addr).main = r.main := by
      unfold route
      simp only
      split
      · exact ⟨rfl,rfl,rfl⟩
      · split <;> exact ⟨rfl,rfl,rfl⟩
    obtain ⟨dispatch,opened,main⟩ := ih (route job covered r addr)
    exact ⟨dispatch.trans one.1,opened.trans one.2.1,main.trans one.2.2⟩

omit [DecidableEq B] in
/-- A fetch begins without connections, and its dispatcher with what was selected, if
    it gets as far as the dispatch loop. -/
theorem launch_fresh (job : Job M A) (opening : Opening A B) : (launch job opening).opened = 0 ∧
    ((∃ result, (launch job opening).main = .returned result) ∨
      (launch job opening).dispatch = Dispatch.new (job.select (Fates.wanted job opening))) := by
  unfold launch
  cases some_ : opening.store with
  | none => exact ⟨rfl,.inl ⟨_,rfl⟩⟩
  | some stored =>
    have same : Fates.wanted job opening = Scheduler.needed job stored := by rw [Fates.wanted,some_]; rfl
    simp only [same]
    split
    · exact ⟨rfl,.inl ⟨_,rfl⟩⟩
    · split
      · exact ⟨rfl,.inl ⟨_,rfl⟩⟩
      · split
        · exact ⟨rfl,.inl ⟨_,rfl⟩⟩
        · split
          · exact ⟨rfl,.inl ⟨_,rfl⟩⟩
          · obtain ⟨dispatch,opened,-⟩ := routes_kept job (job.select (Scheduler.needed job stored)) (Scheduler.needed job stored)
              (blank opening stored (job.select (Scheduler.needed job stored)) .refilling)
            exact ⟨opened,.inr dispatch⟩

/-- The planner of a run, with what it keeps. -/
def Planned (c : Candidates M A) (Inv : Planning M A → Prop) (r : Run M A B) : Prop :=
  ∃ s, Staffed r s ∧ Replanning.Books c s ∧ Inv s

theorem planned_step {Inv : Planning M A → Prop}
    (keep : ∀ (s : Planning M A) (act : PlanAct) (next : Planning M A), Replanning.Books c s ∧ Inv s →
      planStep s act = some next → Replanning.Books c next ∧ Inv next)
    (blind : ∀ (s : Planning M A) (pool : Pool), Inv s → Inv { s with pool := pool }) (plans : Planned c Inv r)
    (taken : step job needed r move = some r') : Planned c Inv r' := by
  obtain ⟨s,staffed,both⟩ := plans
  obtain ⟨s',turns,staffed'⟩ := staffed_step staffed taken
  refine ⟨s',staffed',?_⟩
  clear staffed'
  induction turns with
  | refl => exact both
  | tail _ turn ih => exact turnover_keeps keep blind ih.1 ih.2 turn

omit [DecidableEq B] in
theorem planned_launch {Inv : Planning M A → Prop} {opening : Opening A B} (start : Inv (planned c ∅))
    (selects : job.select (Fates.wanted job opening) = c.map) : Planned c Inv (launch job opening) := by
  obtain ⟨-,started⟩ := Fates.launch_started job opening
  obtain ⟨main,fresh⟩ := started.fresh
  refine ⟨planned c ∅,⟨fun other => ?_,?_,?_⟩,books_planned c ∅,start⟩
  · rcases (launch_fresh job opening).2 with ⟨result,returned⟩ | new
    · exact absurd returned (other result)
    · rw [new,selects]
      rfl
  · rw [inflight,fresh.actors]
    rfl
  · rw [fresh.actors]
    rfl

omit [DecidableEq B] in
theorem crew_apart (plans : Planned c Apart r) : ((inflight r).map fun actor => actor.session.overlay).Nodup := by
  obtain ⟨s,staffed,-,apart⟩ := plans
  have same := congrArg (List.map fun badge => badge.2.2) staffed.crew
  rw [List.map_map,List.map_map] at same
  exact same ▸ apart

omit [DecidableEq B] in
/-- Over a whole run a peer is connected to at most four times. -/
theorem crew_dials (distinct : c.Distinct) (plans : Planned c (Rounds c) r) :
    (∀ a, (r.actors.map fun actor => actor.session.overlay).count a ≤ 4) ∧ r.actors.length ≤ 4 * c.all.length := by
  obtain ⟨s,staffed,books,rounds⟩ := plans
  have same : (r.actors.map fun actor => actor.session.overlay) = s.dialed.map fun m => m.1.overlay := by
    have badges := congrArg (List.map fun badge => badge.2.2) staffed.all
    rwa [List.map_map,List.map_map] at badges
  have four : ∀ a, (s.dialed.map fun m => m.1.overlay).count a ≤ 4 := by
    intro a
    by_cases here : a ∈ s.dialed.map fun m => m.1.overlay
    · obtain ⟨m,member,rfl⟩ := List.mem_map.mp here
      have count := rounds m.1.prefix_ m (books.known m member)
      have most := books.recycles m.1.prefix_
      -- In the present round it was dialed at most once.
      have once : ((s.dispatch.dialed m.1.prefix_).map fun m => m.1.overlay).Nodup :=
        (nodup_bucket distinct books m.1.prefix_).sublist ((List.sublist_append_right _ _).map _)
      have now := List.nodup_iff_count_le_one.mp once m.1.overlay
      simp only [occurs] at count
      omega
    · rw [List.count_eq_zero_of_not_mem here]
      exact Nat.zero_le 4
  refine ⟨fun a => same ▸ four a,?_⟩
  have length : s.dialed.length ≤ 4 * c.all.length := by
    have within : ∀ x ∈ s.dialed.map (fun m => m.1.overlay), x ∈ c.all.map fun m => m.1.overlay := by
      intro x member
      obtain ⟨m,dialed,rfl⟩ := List.mem_map.mp member
      exact List.mem_map_of_mem (member_all (books.known m dialed))
    simpa using length_le_of_count within four
  have dialed := congrArg List.length same
  rw [List.length_map,List.length_map] at dialed
  rwa [dialed]

omit [DecidableEq B] in
/-- While the fetch runs, the dispatcher counts the connections in flight of each bucket. -/
theorem crew_active {Inv : Planning M A → Prop} (plans : Planned c Inv r) (running : ∀ result, r.main ≠ .returned result) (p : Nat) :
    (r.dispatch.activeN.lookup p).getD 0 = ((inflight r).filter fun actor => actor.prefix_ = p).length := by
  obtain ⟨s,staffed,books,-⟩ := plans
  have listed := congrArg (fun badges => (badges.filter fun badge => badge.1 = p).length) staffed.crew
  simp only [List.filter_map,List.length_map] at listed
  rw [staffed.dispatch running]
  exact (books.number p).trans listed.symm

/-! ### One connection for each peer -/

/-- A connection that has come to its end. -/
def isOver : Phase A B → Bool
  | .closed _ _ _ => true
  | _ => false

omit [DecidableEq A] [DecidableEq B] in
theorem over_iff {phase : Phase A B} : isOver phase = true ↔ ∃ residual observed parked, phase = .closed residual observed parked := by
  unfold isOver
  split
  · simp
  · next other => simpa using other

/-- The end is final. -/
theorem over_step {plan : Plan A} {c c' : Common A B} {s s' : Session A B} {act : Act} (idle : Idle s) (ended : isOver s.phase = true)
    (moves : Connection.Moves plan c s act c' s') : isOver s'.phase = true := by
  obtain ⟨residual,observed,parked,at_⟩ := over_iff.mp ended
  have late : s.phase.late = true := by rw [at_]; rfl
  cases moves with
  | hungUp | announced t => exact ended
  | taskServed here | taskFailed here | taskStored here | taskSent here =>
    rw [(idle.late late).1] at here
    cases here
  | _ => simp_all [isOver]

/-- A connection that was joined is over, and the peer of one that is not over has no
    parked connection. -/
structure Separate (r : Run M A B) : Prop where
  joined : ∀ actor ∈ r.actors, actor.joined = true → isOver actor.session.phase = true
  apart : ∀ actor ∈ r.actors, isOver actor.session.phase = false → actor.session.overlay ∉ r.conns.conns

omit [DecidableEq B] in
/-- Parking adds the peer of a connection that has just ended, and no other. -/
theorem parkClosed_mem (conns : ConnPool A B) (before after : Session A B) {overlay : A}
    (there : overlay ∈ (parkClosed conns before after).conns) :
    overlay ∈ conns.conns ∨ overlay = after.overlay ∧ isOver before.phase = false ∧ isOver after.phase = true := by
  unfold parkClosed at there
  split at there
  · next from_ at_ =>
    rcases AList.mem_insert _ |>.mp there with same | old
    · exact .inr ⟨same,by rw [from_]; rfl,by rw [at_]; rfl⟩
    · exact .inl old
  · exact .inl there

omit [DecidableEq B] in
theorem remove_mem {pool : ConnPool A B} {gone overlay : A} :
    overlay ∈ (pool.remove gone).conns ↔ overlay ≠ gone ∧ overlay ∈ pool.conns := by
  rw [ConnPool.remove,AList.mem_erase]

omit [DecidableEq B] in
theorem separate_parked {overlay : A} {change : ParkedConn A B → ParkedConn A B} (same : ∀ conn, (change conn).overlay = conn.overlay)
    (separate : Separate r) (taken : parkedStep r overlay change same = some r') : Separate r' := by
  unfold parkedStep at taken
  split at taken
  · cases taken
  · next conn found =>
    cases taken
    have there : overlay ∈ r.conns.conns := AList.lookup_isSome.mp (by rw [found]; rfl)
    refine ⟨separate.joined,fun actor member open_ parked => separate.apart actor member open_ ?_⟩
    rcases AList.mem_insert _ |>.mp parked with here | old
    · rw [here]
      exact there
    · exact old

omit [DecidableEq B] in
/-- The new connection is with a peer that has none, and its parked connection is taken out. -/
theorem separate_connect (parks : job.plan.parkInto = true) (separate : Separate r) (storer : Selected M A) (rate : Nat)
    (known : Option Known) (beneficiary : B) : Separate (connect job r storer rate known beneficiary) := by
  obtain ⟨joined,apart⟩ := separate
  unfold connect
  rw [if_pos parks]
  split
  · next conn found =>
    have own := r.conns.keyed _ _ found
    have fewer : ∀ actor ∈ r.actors, isOver actor.session.phase = false →
        actor.session.overlay ∉ (r.conns.remove storer.overlay).conns :=
      fun actor member open_ there => apart actor member open_ (remove_mem.mp there).2
    simp only
    split
    · refine ⟨forall_append joined (by simp),forall_append fewer fun _ there => ?_⟩
      exact (remove_mem.mp there).1 own
    · refine ⟨forall_append joined (by simp),forall_append fewer fun _ there => ?_⟩
      exact (remove_mem.mp there).1 rfl
  · next none_ =>
    refine ⟨forall_append joined (by simp),forall_append apart fun _ there => ?_⟩
    exact AList.lookup_eq_none.mp none_ there

/-- The moves that may change the pool of connections. -/
def touches : Move A B → Bool
  | .session _ _ | .dispatch _ _ _ _ _ | .parkedGone _ | .parkedTerms _ _ => true
  | _ => false

theorem conns_kept (quiet : touches move = false) (taken : step job needed r move = some r') : r'.conns = r.conns := by
  cases move with
  | session i act | dispatch early late order known beneficiary | parkedGone overlay | parkedTerms overlay t => cases quiet
  | pass ns => cases taken; rfl
  | handshake i remote =>
    obtain ⟨actor,at_,taken⟩ := Option.bind_eq_some_iff.mp taken
    unfold handshakeStep at taken
    split at taken
    · obtain ⟨moved,-,rfl⟩ := Option.map_eq_some_iff.mp taken
      rfl
    · cases taken
  | sample =>
    simp only [step,sampleStep] at taken
    split at taken <;> cases taken
    rfl
  | report flushed =>
    simp only [step,reportStep] at taken
    split at taken
    · split at taken
      · cases taken; rfl
      · split at taken <;> cases taken <;> rfl
    · cases taken
  | refill =>
    simp only [step,mainStep,workerStep,Option.or_none] at taken
    split at taken
    · split at taken <;> cases taken <;> rfl
    · cases taken
  | join i =>
    simp only [step,mainStep,workerStep,Option.or_none] at taken
    split at taken
    · split at taken
      · split at taken <;> cases taken
        rfl
      · cases taken
    · cases taken
  | drain stranded =>
    simp only [step,mainStep,workerStep,Option.or_none] at taken
    split at taken
    · split at taken
      · split at taken <;> cases taken <;> rfl
      · cases taken
    · cases taken
  | receive =>
    simp only [step,mainStep,workerStep,Option.none_or] at taken
    split at taken
    · split at taken
      · cases taken
      · split at taken <;> cases taken <;> rfl
    · cases taken
  | forward k ok stored why =>
    simp only [step,mainStep,workerStep,Option.none_or] at taken
    split at taken
    · split at taken <;> cases taken <;> rfl
    · cases taken
  | collect k =>
    simp only [step,mainStep,workerStep,Option.none_or] at taken
    split at taken
    · split at taken <;> cases taken <;> rfl
    · cases taken

/-- Where a connection in flight has ended, its peer has no other in flight. -/
theorem separate_session (standing : Ownership.Standing r) (once : ((inflight r').map fun actor => actor.session.overlay).Nodup)
    (separate : Separate r) {i : Nat} {act : Act} (taken : step job needed r (.session i act) = some r') : Separate r' := by
  obtain ⟨joined,apart⟩ := separate
  obtain ⟨actor,common,session,at_,moves,conns,actors⟩ : ∃ actor common session, r.actors[i]? = some actor ∧
      Connection.Moves job.plan r.common actor.session act common session ∧
      r'.conns = parkClosed r.conns actor.session session ∧ r'.actors = r.actors.set i { actor with session := session } := by
    simp only [step] at taken
    split at taken
    · cases taken
    · next actor at_ =>
      split at taken
      · cases taken
      · obtain ⟨moved,moves,rfl⟩ := Option.map_eq_some_iff.mp taken
        exact ⟨actor,moved.1,moved.2,at_,step_moves moves,rfl,rfl⟩
  have here := mem_of_found at_
  have overlay := (identity_step moves).1
  have stays : isOver actor.session.phase = true → isOver session.phase = true :=
    fun ended => over_step (standing.idle _ here) ended moves
  have joined' : ∀ a ∈ r'.actors, a.joined = true → isOver a.session.phase = true := by
    rw [actors]
    exact forall_set joined fun ended => stays (joined _ here ended)
  refine ⟨joined',fun actor' member open_ there => ?_⟩
  rw [conns] at there
  rcases parkClosed_mem _ _ _ there with old | ⟨same,unended,ended⟩
  · rw [actors] at member
    rcases List.mem_or_eq_of_mem_set member with before | rfl
    · exact apart _ before open_ old
    · refine apart _ here ?_ (overlay ▸ old)
      cases before : isOver actor.session.phase
      · rfl
      · exact absurd (open_.symm.trans (stays before)) (by decide)
  · -- The one that ended is in flight still, and is the only one with its peer.
    have inside : { actor with session := session } ∈ r'.actors := by
      rw [actors]
      exact List.mem_set (List.getElem?_eq_some_iff.mp at_).1 _
    have flies : ∀ a ∈ r'.actors, a.joined = false → a ∈ inflight r' := fun a inside unjoined =>
      List.mem_filter.mpr ⟨inside,by simp [unjoined]⟩
    have unjoined : actor.joined = false := by
      by_contra ended_
      exact absurd (unended.symm.trans (joined _ here (by simpa using ended_))) (by decide)
    have unjoined' : actor'.joined = false := by
      by_contra ended_
      exact absurd (open_.symm.trans (joined' _ member (by simpa using ended_))) (by decide)
    have equal := List.inj_on_of_nodup_map once (flies _ member unjoined') (flies _ inside unjoined) same
    rw [equal] at open_
    exact absurd (open_.symm.trans ended) (by decide)

theorem separate_quiet (quiet : touches move = false) (separate : Separate r) (taken : step job needed r move = some r') :
    Separate r' := by
  have kept := conns_kept quiet taken
  obtain ⟨joined,apart⟩ := separate
  cases step_steps taken with
  | acted | dispatched | exhausted => cases quiet
  | @shaken i actor remote common session at_ dialing moves =>
    have here := mem_of_found at_
    have overlay := (identity_step moves).1
    have open_ : isOver actor.session.phase = false := by rw [dialing]; rfl
    refine ⟨forall_set joined fun ended => ?_,forall_set apart fun _ => ?_⟩
    · exact absurd (open_.symm.trans (joined _ here ended)) (by decide)
    · rw [overlay]
      exact apart _ here open_
  | @joined i actor residual observed parked at_ there closed =>
    have ended : isOver actor.session.phase = true := by rw [closed]; rfl
    exact ⟨forall_set joined fun _ => ended,forall_set apart fun open_ => absurd (open_.symm.trans ended) (by decide)⟩
  | parkedChange conns => exact ⟨joined,fun actor member open_ => by rw [kept]; exact apart actor member open_⟩
  | _ => exact ⟨joined,apart⟩

theorem separate_step (parks : job.plan.parkInto = true) (standing : Ownership.Standing r)
    (once : ((inflight r').map fun actor => actor.session.overlay).Nodup) (separate : Separate r)
    (taken : step job needed r move = some r') : Separate r' := by
  cases move with
  | session i act => exact separate_session standing once separate taken
  | parkedGone overlay | parkedTerms overlay t =>
    refine separate_parked ?_ separate taken
    exact fun _ => rfl
  | dispatch early late order known beneficiary =>
    have separate' : ∀ dispatch : Dispatch M A, Separate { r with dispatch := dispatch } := fun _ => ⟨separate.joined,separate.apart⟩
    simp only [step,mainStep,workerStep,Option.or_none] at taken
    split at taken
    · split at taken
      · split at taken
        · cases taken
          exact ⟨separate.joined,separate.apart⟩
        · cases taken
          exact separate_connect parks (separate' _) _ _ _ _
      · cases taken
    · cases taken
  | _ => exact separate_quiet rfl separate taken

/-! ### What is under way at once -/

/-- The retrievals that a connection waits for. -/
def underWay (s : Session A B) : Nat :=
  s.tasks.countP (fun task => task.stage = .retrieving) + match s.phase with
    | .measureRetrieving _ _ _ => 1
    | _ => 0

/-- The pipeline has room for what a connection has spawned, and for one more fetch
    where it holds a chunk. -/
structure Modest (plan : Plan A) (s : Session A B) : Prop where
  tasks : s.tasks.length ≤ plan.pipeline
  popped : ∀ addr, s.phase = .popped addr → s.tasks.length < plan.pipeline

omit [DecidableEq A] [DecidableEq B] in
theorem modest_spawn (plan : Plan A) (overlay : A) (bucket : Nat) (beneficiary : B) (known : Option Known)
    (warm : Option (Nat × Option Cheques.U256)) : Modest plan (spawn overlay bucket beneficiary known warm) := by
  cases warm <;> exact ⟨Nat.zero_le _,by simp [spawn]⟩

theorem modest_step {plan : Plan A} {c c' : Common A B} {s s' : Session A B} {act : Act} (modest : Modest plan s)
    (moves : Connection.Moves plan c s act c' s') : Modest plan s' := by
  obtain ⟨tasks,popped⟩ := modest
  have reaped : (reap s.tasks).length ≤ plan.pipeline := (List.length_filter_le _ _).trans tasks
  cases moves with
  | hungUp | announced t => exact ⟨tasks,popped⟩
  | taskServed at_ | taskFailed at_ | taskStored at_ | taskSent at_ =>
    refine ⟨?_,fun addr here => ?_⟩
    · rw [List.length_set]
      exact tasks
    · rw [List.length_set]
      exact popped addr here
  | drained at_ joined => exact ⟨Nat.zero_le _,by simp⟩
  | resume at_ onward room held => exact ⟨tasks,fun _ _ => room⟩
  | take at_ onward room free there => exact ⟨tasks,fun _ _ => room⟩
  | admitOne at_ absent admitted =>
    refine ⟨?_,by simp⟩
    rw [List.length_append]
    exact popped _ at_
  | refreshBegin at_ owes | refreshSkip at_ lastRefresh => exact ⟨reaped,by simp⟩
  | settled at_ =>
    rcases settle_cases plan c s with same | ⟨units,-,-,-,same⟩ | same <;> rw [same] <;> exact ⟨tasks,by simp [startEmit]⟩
  | prepayBegin at_ mode short | driveBegin at_ enough => rw [noteLambda_eq]; exact ⟨tasks,by simp [startEmit]⟩
  | @called purpose units call outcome at_ ended => cases purpose <;> exact ⟨tasks,by simp [chequeSent]⟩
  | @uncalled purpose units call why at_ ended =>
    cases purpose with
    | lambdaSweep | initialPrepay | topUp => exact ⟨tasks,by simp [chequeFailed]⟩
    | settle =>
      simp only [chequeFailed]
      split
      · split <;> exact ⟨tasks,by simp⟩
      · exact ⟨tasks,by simp⟩
  | _ => exact ⟨tasks,by simp [startEmit]⟩

omit [DecidableEq A] [DecidableEq B] in
/-- A connection waits for as many retrievals as its pipeline allows, and for one
    while it measures the latency. -/
theorem underWay_le {plan : Plan A} {s : Session A B} (idle : Idle s) (modest : Modest plan s) :
    underWay s ≤ max plan.pipeline 1 := by
  unfold underWay
  have spawned := (List.countP_le_length (p := fun task : FetchTask A => task.stage = .retrieving) (l := s.tasks)).trans modest.tasks
  split
  · next at_ =>
    rw [(idle.early (by rw [at_]; rfl)).1]
    exact le_max_right _ _
  · exact (Nat.add_zero _).trans_le (spawned.trans (le_max_left _ _))

/-- Where a run keeps to its limits: the window, the room in it that `refill` saw, the
    eight forwards, the pipelines; and `connections_opened` is the number of
    connections that met a peer. -/
structure Bounded (job : Job M A) (r : Run M A B) : Prop where
  window : (inflight r).length ≤ max job.connections 1
  room : r.main = .choosing → (inflight r).length < max job.connections 1
  forwards : r.forwards.length ≤ 8
  modest : ∀ actor ∈ r.actors, Modest job.plan actor.session
  unmet : ∀ actor ∈ r.actors, actor.session.phase = .dialing → actor.remote = none
  opened : r.opened = total (fun actor => actor.remote.isSome.toNat) r.actors

theorem refill_room (taken : step job needed r .refill = some r') (next : r'.main = .choosing) :
    (inflight r').length < max job.connections 1 := by
  simp only [step,mainStep,workerStep,Option.or_none] at taken
  split at taken
  · split at taken
    · next free =>
      cases taken
      exact free.1
    · cases taken
      cases next
  · cases taken

theorem receive_room (taken : step job needed r .receive = some r') : r.forwards.length < 8 := by
  simp only [step,mainStep,workerStep,Option.none_or] at taken
  split at taken
  · next free => exact free
  · cases taken

/-- Nothing goes back to the dial. -/
theorem dialing_step {plan : Plan A} {c c' : Common A B} {s s' : Session A B} {act : Act}
    (moves : Connection.Moves plan c s act c' s') (dials : s'.phase = .dialing) : s.phase = .dialing := by
  cases moves with
  | hungUp | announced t | taskServed at_ | taskFailed at_ | taskStored at_ | taskSent at_ => exact dials
  | settled at_ =>
    rcases settle_cases plan c s with same | ⟨units,-,-,-,same⟩ | same <;> rw [same] at dials <;> cases dials
  | prepayBegin at_ mode short | driveBegin at_ enough => rw [noteLambda_eq] at dials; cases dials
  | @called purpose units call outcome at_ ended => cases purpose <;> cases dials
  | @uncalled purpose units call why at_ ended =>
    cases purpose with
    | lambdaSweep | initialPrepay | topUp => cases dials
    | settle =>
      simp only [chequeFailed] at dials
      split at dials
      · split at dials <;> cases dials
      · cases dials
  | _ => cases dials

omit [DecidableEq A] [DecidableEq B] in
/-- The number of connections in flight is that of their badges. -/
theorem crew_length {actors : List (Actor A B)} {i : Nat} {actor actor' : Actor A B} (at_ : actors[i]? = some actor)
    (same : badge actor' = badge actor) (joined : actor'.joined = actor.joined) :
    ((actors.set i actor').filter fun a => !a.joined).length = (actors.filter fun a => !a.joined).length := by
  simpa using congrArg List.length (crew_set at_ same joined)

theorem bounded_acted (bounded : Bounded job r) {i : Nat} {actor : Actor A B} {act : Act} {common : Common A B}
    {session : Session A B} {conns : ConnPool A B} {log : Log A} (at_ : r.actors[i]? = some actor)
    (moves : Connection.Moves job.plan r.common actor.session act common session) : Bounded job { r with
      common := common
      conns := conns
      actors := r.actors.set i { actor with session := session }
      log := log } := by
  obtain ⟨window,room,forwards,modest,unmet,opened⟩ := bounded
  have here := mem_of_found at_
  have same : badge { actor with session := session } = badge actor := by
    obtain ⟨overlay,-⟩ := identity_step moves
    simp [badge,overlay]
  have length := crew_length at_ same rfl
  have counted := total_set (fun a : Actor A B => a.remote.isSome.toNat) { actor with session := session } at_
  refine ⟨length.trans_le window,fun at_ => length.trans_lt (room at_),forwards,forall_set modest (modest_step (modest _ here) moves),
    forall_set unmet fun dials => (unmet actor here (dialing_step moves dials) : actor.remote = none),?_⟩
  show r.opened = total _ (r.actors.set i { actor with session := session })
  simp only at counted
  omega

/-- A dial that ends counts as opened when the connection stands. -/
theorem bounded_shaken (bounded : Bounded job r) {i : Nat} {actor : Actor A B} {remote : Option A} {common : Common A B}
    {session : Session A B} (at_ : r.actors[i]? = some actor) (dialing : actor.session.phase = .dialing)
    (moves : Connection.Moves job.plan r.common actor.session (.answer (decide (remote = some actor.session.overlay))) common session) :
    Bounded job { r with
      common := common
      actors := r.actors.set i { actor with
        session := session
        remote := if decide (remote = some actor.session.overlay) then remote else none }
      opened := if decide (remote = some actor.session.overlay) then r.opened + 1 else r.opened } := by
  obtain ⟨window,room,forwards,modest,unmet,opened⟩ := bounded
  have here := mem_of_found at_
  have alone := unmet _ here dialing
  have overlay := (identity_step moves).1
  have length : ∀ met, ((r.actors.set i { actor with session := session, remote := met }).filter fun a => !a.joined).length =
      (inflight r).length := fun met => crew_length at_ (by simp [badge,overlay]) rfl
  have counted := fun met => total_set (fun a : Actor A B => a.remote.isSome.toNat)
    { actor with session := session, remote := met } at_
  have left : session.phase ≠ .dialing := by
    intro dials
    by_cases same : remote = some actor.session.overlay
    · rw [decide_eq_true same] at moves
      cases moves with
      | dialed => cases dials
      | measureServe at_ | measureStore at_ => rw [dialing] at at_; cases at_
    · rw [decide_eq_false same] at moves
      cases moves with
      | undialed => cases dials
      | measureFail at_ | measureStore at_ => rw [dialing] at at_; cases at_
  refine ⟨(length _).trans_le window,fun at_ => (length _).trans_lt (room at_),forwards,
    forall_set modest (modest_step (modest _ here) moves),forall_set unmet fun dials => absurd dials left,?_⟩
  simp only [alone,Option.isSome_none,Bool.toNat_false,Nat.add_zero] at counted
  by_cases same : remote = some actor.session.overlay
  · have one := counted remote
    simp only [same,Option.isSome_some,Bool.toNat_true] at one
    simp only [same,decide_true,if_true,one,opened]
  · have none_ := counted none
    simp only [Option.isSome_none,Bool.toNat_false,Nat.add_zero] at none_
    simp only [same,decide_false,Bool.false_eq_true,if_false,none_,opened]

omit [DecidableEq B] in
theorem bounded_connect (bounded : Bounded job r) (free : (inflight r).length < max job.connections 1) (storer : Selected M A)
    (rate : Nat) (known : Option Known) (beneficiary : B) : Bounded job (connect job r storer rate known beneficiary) := by
  obtain ⟨window,room,forwards,modest,unmet,opened⟩ := bounded
  have more : ∀ fresh : Actor A B, fresh.joined = false →
      ((r.actors ++ [fresh]).filter fun a => !a.joined).length ≤ max job.connections 1 := by
    intro fresh open_
    have one : ([fresh].filter fun a => !a.joined).length = 1 := by simp [open_]
    rw [List.filter_append,List.length_append,one]
    exact free
  unfold connect
  split
  · simp only
    split
    · refine ⟨more _ rfl,by simp,forwards,forall_append modest (modest_spawn _ _ _ _ _ _),forall_append unmet (by simp [spawn]),?_⟩
      simp [opened]
    · refine ⟨more _ rfl,by simp,forwards,forall_append modest (modest_spawn _ _ _ _ _ _),forall_append unmet fun _ => rfl,?_⟩
      simp [opened]
  · refine ⟨more _ rfl,by simp,forwards,forall_append modest (modest_spawn _ _ _ _ _ _),forall_append unmet fun _ => rfl,?_⟩
    simp [opened]

theorem bounded_step (bounded : Bounded job r) (taken : step job needed r move = some r') : Bounded job r' := by
  obtain ⟨window,room,forwards,modest,unmet,opened⟩ := bounded
  cases step_steps taken with
  | @acted i actor act common session at_ standing moves =>
    exact bounded_acted ⟨window,room,forwards,modest,unmet,opened⟩ at_ moves
  | shaken at_ dialing moves => exact bounded_shaken ⟨window,room,forwards,modest,unmet,opened⟩ at_ dialing moves
  | refilled at_ next => exact ⟨window,refill_room taken,forwards,modest,unmet,opened⟩
  | exhausted at_ chosen => exact ⟨window,by simp,forwards,modest,unmet,opened⟩
  | @dispatched early late order known beneficiary dispatch storer rate at_ chosen =>
    have bounded : Bounded job { r with dispatch := dispatch } := ⟨window,room,forwards,modest,unmet,opened⟩
    exact bounded_connect bounded (room at_) storer rate known beneficiary
  | @joined i actor residual observed parked at_ there closed =>
    obtain ⟨k,-,erased⟩ := crew_join there (join_open taken there)
    have here := mem_of_found there
    have counted := total_set (fun a : Actor A B => a.remote.isSome.toNat) { actor with joined := true } there
    have fewer : ((r.actors.set i { actor with joined := true }).filter fun a => !a.joined).length ≤ max job.connections 1 := by
      rw [erased]
      exact (List.length_eraseIdx_le _ _).trans window
    refine ⟨fewer,by simp,forwards,forall_set modest (modest actor here),forall_set unmet (unmet actor here),?_⟩
    show r.opened = total _ (r.actors.set i { actor with joined := true })
    simp only at counted
    omega
  | passedOn head there => exact ⟨window,room,forwards,modest,unmet,opened⟩
  | forwarding head absent =>
    refine ⟨window,room,?_,modest,unmet,opened⟩
    rw [List.length_append]
    exact receive_room taken
  | forwarded at_ | unserved at_ => exact ⟨window,room,by simpa using forwards,modest,unmet,opened⟩
  | collected fails at_ finished => exact ⟨window,room,(List.length_eraseIdx_le _ _).trans forwards,modest,unmet,opened⟩
  | dropped at_ none_ all mode | stranded at_ none_ all mode => exact ⟨window,by simp,forwards,modest,unmet,opened⟩
  | reported at_ all none_ outcome => exact ⟨window,by simp,forwards,modest,unmet,opened⟩
  | _ => exact ⟨window,room,forwards,modest,unmet,opened⟩

omit [DecidableEq B] in
/-- Connections that are joined wait for nothing. -/
theorem total_underWay (bounded : Bounded job r) (standing : Ownership.Standing r) :
    total (fun actor : Actor A B => underWay actor.session) r.actors ≤ (inflight r).length * max job.plan.pipeline 1 := by
  have one : ∀ actor ∈ r.actors, underWay actor.session ≤ if actor.joined then 0 else max job.plan.pipeline 1 := by
    intro actor member
    split
    · next ended =>
      have late := standing.joined actor member ended
      unfold underWay
      rw [((standing.idle actor member).late late).1,List.countP_nil,Nat.zero_add]
      split
      · next at_ => rw [at_] at late; cases late
      · exact le_rfl
    · exact underWay_le (standing.idle actor member) (bounded.modest actor member)
  refine (total_mono one).trans (Nat.le_of_eq ?_)
  rw [inflight]
  clear one
  induction r.actors with
  | nil => rw [total_nil,List.filter_nil,List.length_nil,Nat.zero_mul]
  | cons first rest ih =>
    rw [total_cons,ih]
    cases gone : first.joined
    · rw [List.filter_cons_of_pos (by simp [gone]),List.length_cons,Nat.succ_mul,Nat.add_comm]
      rfl
    · rw [List.filter_cons_of_neg (by simp [gone]),if_pos rfl,Nat.zero_add]

omit [DecidableEq B] in
theorem bounded_launch (opening : Opening A B) : Bounded job (launch job opening) := by
  obtain ⟨standing,started⟩ := Fates.launch_started job opening
  obtain ⟨main,fresh⟩ := started.fresh
  have none_ : inflight (launch job opening) = [] := by rw [inflight,fresh.actors]; rfl
  refine ⟨?_,fun _ => ?_,?_,?_,?_,?_⟩
  · rw [none_]
    exact Nat.zero_le _
  · rw [none_]
    exact Nat.lt_of_lt_of_le Nat.zero_lt_one (le_max_right _ _)
  · rw [fresh.forwards]
    exact Nat.zero_le 8
  · simp [fresh.actors]
  · simp [fresh.actors]
  · rw [(launch_fresh job opening).1,fresh.actors]
    rfl

end Staff

/-! ### The members that are selected -/

section Selection
variable {parse : List Char → Option M} {peers : PeerMap} {cache : TopologyCache} {needed : List SwarmAddress} {depth : Nat}

/-- No member is selected twice, whatever its bucket. -/
theorem selected_distinct : (selected parse peers cache needed depth).Distinct := by
  unfold Candidates.Distinct Candidates.all
  rw [List.map_flatMap,List.nodup_flatMap]
  have found : ∀ e ∈ (selectStorers parse peers cache needed depth).entries,
      (selectStorers parse peers cache needed depth).lookup e.1 = some e.2 := fun e member =>
    AList.mem_lookup_iff.mpr member
  have own : ∀ e ∈ (selectStorers parse peers cache needed depth).entries, ∀ overlay ∈ e.2.map fun m => m.1.overlay,
      bucketPrefix overlay depth = e.1 := by
    intro e member overlay inside
    obtain ⟨m,there,rfl⟩ := List.mem_map.mp inside
    rw [Pulls.selected_own (found e member) m there]
    refine (selected parse peers cache needed depth).own e.1 m ?_
    rw [selected,found e member]
    exact there
  refine ⟨fun e member => ?_,?_⟩
  · rw [overlays_eq (selectStorers_bucket (found e member)),((sortedRecords_perm e.1).map NodeRecord.overlay).nodup_iff]
    exact cache.nodup.sublist (List.filter_sublist.map NodeRecord.overlay)
  · have keys := (selectStorers parse peers cache needed depth).nodupKeys
    have apart : (selectStorers parse peers cache needed depth).entries.Pairwise fun e f => e.1 ≠ f.1 :=
      List.pairwise_map.mp keys
    refine apart.imp_of_mem fun {e f} first second other => ?_
    exact List.disjoint_left.mpr fun overlay inE inF => other ((own e first overlay inE).symm.trans (own f second overlay inF))

end Selection

/-! ### Whole runs -/

section Runs
variable [DecidableEq B] {parse : List Char → Option M} {peers : PeerMap} {cache : TopologyCache} {depth : Nat}
  {job : Job M SwarmAddress} {opening : Opening SwarmAddress B} {needed : List SwarmAddress}
  {moves : List (Move SwarmAddress B)} {r : Run M SwarmAddress B}

/-- In every state of a fetch no two connections in flight are with one peer, and none
    that is still open is with a peer that has a parked connection, when the fetch is
    given a pool to park in. -/
theorem one_each (parse : List Char → Option M) (peers : PeerMap) (cache : TopologyCache) (depth : Nat)
    (job : Job M SwarmAddress) (opening : Opening SwarmAddress B) (needed : List SwarmAddress)
    (moves : List (Move SwarmAddress B)) (r : Run M SwarmAddress B)
    (reached : run (step (Pulls.routed parse peers cache depth job) needed)
      (launch (Pulls.routed parse peers cache depth job) opening) moves = some r) :
    ((inflight r).map fun actor => actor.session.overlay).Nodup ∧
    (job.plan.parkInto = true → ∀ actor ∈ r.actors, isOver actor.session.phase = false →
      actor.session.overlay ∉ r.conns.conns) := by
  let c := selected parse peers cache (Fates.wanted job opening) depth
  obtain ⟨-,plans,separate⟩ := @run_invariant _ _ _ (fun r => Ownership.Standing r ∧ Planned c Apart r ∧
    (job.plan.parkInto = true → Separate r)) (by
      rintro r move next ⟨standing,plans,separate⟩ taken
      have plans' := planned_step (apart_step selected_distinct) (fun s pool apart => apart) plans taken
      exact ⟨Ownership.standing_step standing (step_steps taken),plans',
        fun parks => separate_step parks standing (crew_apart plans') (separate parks) taken⟩) _ _ _ (by
      obtain ⟨standing,started⟩ := Fates.launch_started (Pulls.routed parse peers cache depth job) opening
      obtain ⟨main,fresh⟩ := started.fresh
      exact ⟨standing,planned_launch List.nodup_nil rfl,fun _ => ⟨by simp [fresh.actors],by simp [fresh.actors]⟩⟩) reached
  exact ⟨crew_apart plans,fun parks => (separate parks).apart⟩

/-- The chunks of two buckets are fetched, with a pool to park in. -/
def parking : Job (List Char) SwarmAddress := { Pulls.double with plan := { Pulls.double.plan with parkInto := true } }

/-- A connection to one of the two nodes is parked, and one to a node that is not needed. -/
def parkedTwo : Opening SwarmAddress Nat := { Pulls.opened with
  conns := (ConnPool.empty.park ⟨(node 1 none).overlay,2,true,none,500⟩).park ⟨(node 9 none).overlay,4,true,none,500⟩ }

/-- The parked connection is taken up, and the other node is dialed. -/
def takenUp : List (Move SwarmAddress Nat) := Pulls.dispatched ++ [.refill,.handshake 1 (some (Pulls.farNode 1).overlay)]

theorem one_each_parked : ∃ r, run (step (Pulls.routed some ∅ Pulls.two 8 parking) Pulls.chunks)
      (launch (Pulls.routed some ∅ Pulls.two 8 parking) parkedTwo) takenUp = some r ∧
    (inflight r).map (fun actor => actor.session.overlay) = [(node 1 none).overlay,(Pulls.farNode 1).overlay] ∧
    r.conns.conns.keys = [(node 9 none).overlay] ∧
    ((inflight r).map fun actor => actor.session.overlay).Nodup ∧
    ∀ actor ∈ r.actors, isOver actor.session.phase = false → actor.session.overlay ∉ r.conns.conns := by
  have ends : (run (step (Pulls.routed some ∅ Pulls.two 8 parking) Pulls.chunks)
      (launch (Pulls.routed some ∅ Pulls.two 8 parking) parkedTwo) takenUp).map
      (fun r => ((inflight r).map fun actor => actor.session.overlay,r.conns.conns.keys)) =
      some ([(node 1 none).overlay,(Pulls.farNode 1).overlay],[(node 9 none).overlay]) := by decide +kernel
  obtain ⟨r,reached,same⟩ := Option.map_eq_some_iff.mp ends
  simp only [Prod.mk.injEq] at same
  obtain ⟨once,apart⟩ := one_each some ∅ Pulls.two 8 parking parkedTwo Pulls.chunks _ r reached
  exact ⟨r,reached,same.1,same.2,once,apart rfl⟩

/-- In every state of a fetch the connections in flight are within the window, and wait
    for no more retrievals than their pipelines allow, and the worker has at most
    eight forwards; the dispatcher counts what is in flight; no peer is connected to
    more than four times, and `connections_opened` is the number of connections that
    met their peer. -/
theorem crew_counts (parse : List Char → Option M) (peers : PeerMap) (cache : TopologyCache) (depth : Nat)
    (job : Job M SwarmAddress) (opening : Opening SwarmAddress B) (needed : List SwarmAddress)
    (moves : List (Move SwarmAddress B)) (r : Run M SwarmAddress B)
    (reached : run (step (Pulls.routed parse peers cache depth job) needed)
      (launch (Pulls.routed parse peers cache depth job) opening) moves = some r) :
    (inflight r).length ≤ max job.connections 1 ∧
    total (fun actor : Actor SwarmAddress B => underWay actor.session) r.actors ≤ max job.connections 1 * max job.plan.pipeline 1 ∧
    r.forwards.length ≤ 8 ∧
    ((∀ result, r.main ≠ .returned result) → ∀ p, (r.dispatch.activeN.lookup p).getD 0 =
      ((inflight r).filter fun actor => actor.prefix_ = p).length) ∧
    (∀ a, (r.actors.map fun actor => actor.session.overlay).count a ≤ 4) ∧
    r.opened = total (fun actor => actor.remote.isSome.toNat) r.actors := by
  let c := selected parse peers cache (Fates.wanted job opening) depth
  obtain ⟨standing,plans,bounded⟩ := @run_invariant _ _ _ (fun r => Ownership.Standing r ∧ Planned c (Rounds c) r ∧
    Bounded (Pulls.routed parse peers cache depth job) r) (by
      rintro r move next ⟨standing,plans,bounded⟩ taken
      exact ⟨Ownership.standing_step standing (step_steps taken),
        planned_step (rounds_step selected_distinct) (fun s pool rounds => rounds) plans taken,bounded_step bounded taken⟩) _ _ _
      ⟨(Fates.launch_started _ opening).1,planned_launch (fun p m member => rfl) rfl,bounded_launch opening⟩ reached
  refine ⟨bounded.window,?_,bounded.forwards,fun running p => crew_active plans running p,(crew_dials selected_distinct plans).1,
    bounded.opened⟩
  exact (total_underWay bounded standing).trans (Nat.mul_le_mul_right _ bounded.window)

/-- Two connections, of which the dispatcher knows. -/
theorem crew_counts_parked : ∃ r, run (step (Pulls.routed some ∅ Pulls.two 8 parking) Pulls.chunks)
      (launch (Pulls.routed some ∅ Pulls.two 8 parking) parkedTwo) takenUp = some r ∧
    r.opened = 2 ∧ (inflight r).length ≤ 2 ∧ ∀ p, (r.dispatch.activeN.lookup p).getD 0 =
      ((inflight r).filter fun actor => actor.prefix_ = p).length := by
  have ends : (run (step (Pulls.routed some ∅ Pulls.two 8 parking) Pulls.chunks)
      (launch (Pulls.routed some ∅ Pulls.two 8 parking) parkedTwo) takenUp).map
      (fun r => (r.opened,(Fates.outcome r).isSome)) = some (2,false) := by decide +kernel
  obtain ⟨r,reached,same⟩ := Option.map_eq_some_iff.mp ends
  simp only [Prod.mk.injEq] at same
  obtain ⟨window,-,-,active,-⟩ := crew_counts some ∅ Pulls.two 8 parking parkedTwo Pulls.chunks _ r reached
  refine ⟨r,reached,same.1,window,active fun result returned => ?_⟩
  have going := same.2
  rw [Fates.outcome_some.mpr returned] at going
  cases going

end Runs

end Directswarm.Crew
