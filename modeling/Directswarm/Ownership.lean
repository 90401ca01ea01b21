import Directswarm.Scheduler
import Directswarm.Tokens

/-!
Where every copy of a needed address is. `places` reads a run as a marking: in the
pool, with a connection, in the fallback channel, with the worker, or at one of the
ends that an address can come to. Each step moves copies along the edges of `Edge`
and no others (`step_turn`), so no step of the code ever makes or loses one.
-/
namespace Directswarm.Ownership
open Directswarm.Words Directswarm.Runs Directswarm.Interleaving Directswarm.Pacing Directswarm.WorkPool
  Directswarm.Connection Directswarm.Errands Directswarm.Scheduler Directswarm.Tokens

inductive Place
  | pool
  | carried (status : Status)
  | queued
  | fetching
  | direct
  | found
  | lost
  | passed
  | forwarded
  | unserved
  | dropped
  deriving DecidableEq

def allPlaces : List Place :=
  [.pool,.carried .held,.carried .flying,.carried .served,.carried .failed,.queued,.fetching,.direct,.found,.lost,.passed,
    .forwarded,.unserved,.dropped]

instance : Fintype Place where
  elems := ⟨allPlaces,by decide⟩
  complete := by
    intro x
    cases x with
    | carried status => cases status <;> decide
    | _ => decide

theorem sum_places (f : Place → Nat) : ∑ x, f x = f .pool + f (.carried .held) + f (.carried .flying) +
    f (.carried .served) + f (.carried .failed) + f .queued + f .fetching + f .direct + f .found + f .lost + f .passed +
    f .forwarded + f .unserved + f .dropped := by
  have listed : ∑ x, f x = (allPlaces.map f).sum := rfl
  rw [listed]
  simp only [allPlaces,List.map_cons,List.map_nil,List.sum_cons,List.sum_nil]
  omega

variable {M A B : Type} [DecidableEq A]

/-- How many copies of an address are where. -/
def places (r : Run M A B) : Marking A Place := fun addr place =>
  match place with
  | .pool => (drainAll r.common.pool).count addr
  | .carried status => total (fun actor : Actor A B => carried actor.session (addr,status)) r.actors
  | .queued => (r.common.sent.drop r.received).count addr
  | .fetching => r.forwards.count (.fetching addr)
  | .direct => r.log.direct.count addr
  | .found => r.log.found.count addr
  | .lost => r.log.lost.count addr
  | .passed => r.log.passed.count addr
  | .forwarded => r.log.forwarded.count addr
  | .unserved => r.log.failed.count addr
  | .dropped => r.log.dropped.count addr

/-- How an address may move. -/
inductive Edge (stored : Finset A) (addr : A) : Place → Place → Prop
  | pop : Edge stored addr .pool (.carried .held)
  | found (there : addr ∈ stored) : Edge stored addr (.carried .held) .found
  | lost : Edge stored addr (.carried .held) .lost
  | start (absent : addr ∉ stored) : Edge stored addr (.carried .held) (.carried .flying)
  | serve : Edge stored addr (.carried .flying) (.carried .served)
  | fail : Edge stored addr (.carried .flying) (.carried .failed)
  | store : Edge stored addr (.carried .served) .direct
  | leave {status : Status} (held : status = .held ∨ status = .failed) : Edge stored addr (.carried status) .queued
  | strand : Edge stored addr .pool .queued
  | drop : Edge stored addr .pool .dropped
  | pass (there : addr ∈ stored) : Edge stored addr .queued .passed
  | forward (absent : addr ∉ stored) : Edge stored addr .queued .fetching
  | forwarded : Edge stored addr .fetching .forwarded
  | unserved : Edge stored addr .fetching .unserved

/-! ### What decides where an address goes -/

/-- The errand of the connection that moves. -/
def errandOf [DecidableEq B] (job : Job M A) (r : Run M A B) : Move A B → Option (Errand A)
  | .session i act => (r.actors[i]?).map fun actor => errand job.plan r.common actor.session act
  | _ => none

variable [DecidableEq B]

/-- A chunk that was retrieved is written to the store. -/
def writes (job : Job M A) (r : Run M A B) (move : Move A B) : Bool :=
  match errandOf job r move, move with
  | some (.store _ ok), _ => ok
  | _, .forward _ ok stored _ => !ok || stored
  | _, _ => true

/-- The measurement of a latency cannot reserve the price of the address it popped. -/
def loses (job : Job M A) (r : Run M A B) (move : Move A B) : Bool :=
  match errandOf job r move with
  | some (.lost _) => true
  | _ => false

/-- The address of which a fetch begins. -/
def begins (job : Job M A) (r : Run M A B) (move : Move A B) : Option A :=
  match errandOf job r move, move with
  | some (.start addr), _ => some addr
  | _, .receive => (r.common.sent[r.received]?).filter fun addr => addr ∉ r.common.stored
  | _, _ => none

/-- The fallback cannot fetch a chunk. -/
def refuses (move : Move A B) : Bool :=
  match move with
  | .forward _ ok _ _ => !ok
  | _ => false

/-- A step moves some addresses from one place to another. -/
structure Turn (job : Job M A) (r : Run M A B) (move : Move A B) (r' : Run M A B) (addrs : List A) (p q : Place) : Prop where
  moved : Moved (places r) (places r') addrs p q
  edges : ∀ addr ∈ addrs, Edge r.common.stored addr p q
  kept : r.common.stored ⊆ r'.common.stored
  fresh : ∀ addr ∈ r'.common.stored, addr ∈ r.common.stored ∨ addr ∈ addrs ∧ (q = .direct ∨ q = .forwarded)
  written : writes job r move = true → q = .direct ∨ q = .forwarded → ∀ addr ∈ addrs, addr ∈ r'.common.stored
  lost : q = .lost → addrs ≠ [] → loses job r move = true
  unserved : q = .unserved → addrs ≠ [] → refuses move = true
  begun : q = .carried .flying ∨ q = .fetching → ∀ addr ∈ addrs, addrs = [addr] ∧ begins job r move = some addr
  dropped : q = .dropped → addrs ≠ [] → job.directOnly = true
  sent : ∀ addr, r'.common.sent.count addr = r.common.sent.count addr + if q = .queued then addrs.count addr else 0
  retrieved : ∀ addr, r'.log.retrieved.count addr = r.log.retrieved.count addr +
    if q = .carried .served then addrs.count addr else 0
  counts : r'.common.directOk + r.log.direct.length = r.common.directOk + r'.log.direct.length ∧
    r'.forwarded + r.log.forwarded.length = r.forwarded + r'.log.forwarded.length ∧
    r'.dropped + r.log.dropped.length = r.dropped + r'.log.dropped.length

/-! ### Every step is such a move -/

section Turns
variable {job : Job M A} {r r' : Run M A B} {move : Move A B} {addrs : List A} {p q : Place}

/-- A move to a place of which nothing special is said. -/
theorem turn_plain (moved : Moved (places r) (places r') addrs p q)
    (edges : ∀ addr ∈ addrs, Edge r.common.stored addr p q) (stored : r'.common.stored = r.common.stored)
    (sent : ∀ addr, r'.common.sent.count addr = r.common.sent.count addr + if q = .queued then addrs.count addr else 0)
    (retrieved : r'.log.retrieved = r.log.retrieved)
    (counts : r'.common.directOk + r.log.direct.length = r.common.directOk + r'.log.direct.length ∧
      r'.forwarded + r.log.forwarded.length = r.forwarded + r'.log.forwarded.length ∧
      r'.dropped + r.log.dropped.length = r.dropped + r'.log.dropped.length)
    (plain : q ∈ [.pool,.carried .held,.carried .failed,.queued,.found,.passed]) : Turn job r move r' addrs p q := by
  simp only [List.mem_cons,List.not_mem_nil,or_false] at plain
  refine ⟨moved,edges,stored.symm.subset,fun addr inside => .inl (stored ▸ inside),?_,?_,?_,?_,?_,sent,?_,counts⟩
  · rintro - (rfl | rfl) <;> simp at plain
  · rintro rfl; simp at plain
  · rintro rfl; simp at plain
  · rintro (rfl | rfl) <;> simp at plain
  · rintro rfl; simp at plain
  · intro addr
    rw [retrieved,if_neg (by rintro rfl; simp at plain)]
    rfl

/-- A step that moves no address. -/
theorem turn_quiet (same : ∀ a x, places r' a x = places r a x) (stored : r'.common.stored = r.common.stored)
    (sent : r'.common.sent = r.common.sent) (log : r'.log = r.log) (directOk : r'.common.directOk = r.common.directOk) (forwarded : r'.forwarded = r.forwarded)
    (dropped : r'.dropped = r.dropped) : Turn job r move r' [] .pool .pool :=
  turn_plain (moved_nothing same _ _) nofun stored (fun _ => by rw [sent]; rfl) (by rw [log]) (by rw [log,directOk,forwarded,dropped]; exact ⟨rfl,rfl,rfl⟩)
    (by simp)

omit [DecidableEq B] in
theorem count_pair (addr a : A) (status st : Status) :
    [(addr,status)].count (a,st) = if Place.carried st = .carried status then [addr].count a else 0 := by
  by_cases same : st = status
  · subst same
    by_cases here : addr = a <;> simp [here]
  · have other : ¬status = st := fun h => same h.symm
    simp [same,other]

omit [DecidableEq B] in
/-- What the connections carry, when one of them moves. -/
theorem carried_set {actors : List (Actor A B)} {i : Nat} {actor : Actor A B} (actor' : Actor A B)
    (at_ : actors[i]? = some actor) {old new : List (A × Status)}
    (shifts : Shifts (carried actor.session) (carried actor'.session) old new) (a : A) (status : Status) :
    total (fun actor : Actor A B => carried actor.session (a,status)) (actors.set i actor') + old.count (a,status) =
      total (fun actor : Actor A B => carried actor.session (a,status)) actors + new.count (a,status) := by
  have moved := total_set (fun actor : Actor A B => carried actor.session (a,status)) actor' at_
  have shift := shifts (a,status)
  omega

/-- A step of a connection moves what its errand says. -/
theorem turn_acted (received : r.received ≤ r.common.sent.length) {i : Nat} {actor : Actor A B} {act : Act} {common : Common A B} {session : Session A B}
    {conns : ConnPool A B} (at_ : r.actors[i]? = some actor)
    (carries : Carries r.common actor.session.bucket (carried actor.session) (carried session)
      (errand job.plan r.common actor.session act) common) :
    ∃ addrs p q, Turn job r (.session i act) { r with
      common := common
      conns := conns
      actors := r.actors.set i { actor with session := session }
      log := noteErrand r.log (errand job.plan r.common actor.session act) } addrs p q := by
  have does : errandOf job r (.session i act) = some (errand job.plan r.common actor.session act) := by
    simp [errandOf,at_]
  have actors : ∀ {old new : List (A × Status)}, Shifts (carried actor.session) (carried session) old new → ∀ a status,
      total (fun actor : Actor A B => carried actor.session (a,status)) (r.actors.set i { actor with session := session }) +
        old.count (a,status) = total (fun actor : Actor A B => carried actor.session (a,status)) r.actors +
          new.count (a,status) := fun shifts => carried_set { actor with session := session } at_ shifts
  generalize errand job.plan r.common actor.session act = kind at does carries ⊢
  cases carries with
  | rest bank shifts | idle shifts | kept shifts =>
    refine ⟨[],.pool,.pool,turn_quiet (fun a x => ?_) rfl rfl rfl rfl rfl rfl⟩
    cases x with
    | carried status => simpa [places] using actors shifts a status
    | _ => rfl
  | @popped addr pool popped shifts =>
    refine ⟨[addr],.pool,.carried .held,turn_plain (fun a x => ?_) (by simp [Edge.pop]) rfl (fun _ => rfl) rfl ⟨rfl,rfl,rfl⟩ (by simp)⟩
    cases x with
    | pool =>
      have left := (pop_some popped).count_eq a
      simp only [places,if_true,List.count_cons,List.count_nil] at left ⊢
      simp only [reduceCtorEq,if_false]
      omega
    | carried status => simpa [places,count_pair] using actors shifts a status
    | _ => simp [places,noteErrand]
  | @found addr there shifts =>
    refine ⟨[addr],.carried .held,.found,turn_plain (fun a x => ?_) (by simp [Edge.found there]) rfl (fun _ => rfl) rfl ⟨rfl,rfl,rfl⟩
      (by simp)⟩
    cases x with
    | carried status => simpa [places,count_pair] using actors shifts a status
    | _ => simp [places,noteErrand,List.count_cons]
  | @fail addr shifts =>
    refine ⟨[addr],.carried .flying,.carried .failed,turn_plain (fun a x => ?_) (by simp [Edge.fail]) rfl (fun _ => rfl) rfl ⟨rfl,rfl,rfl⟩
      (by simp)⟩
    cases x with
    | carried status => simpa [places,count_pair] using actors shifts a status
    | _ => simp [places,noteErrand]
  | @sent addr status held shifts =>
    refine ⟨[addr],.carried status,.queued,turn_plain (fun a x => ?_) (by simp [Edge.leave held]) rfl (by simp [send]) rfl ⟨rfl,rfl,rfl⟩
      (by simp)⟩
    cases x with
    | queued =>
      simp only [places,send,if_true,List.drop_append_of_le_length received,List.count_append]
      simp
    | carried st => simpa [places,send,count_pair] using actors shifts a st
    | _ => simp [places,send,noteErrand]
  | @lost addr shifts =>
    refine ⟨[addr],.carried .held,.lost,fun a x => ?_,by simp [Edge.lost],subset_rfl,fun _ => .inl,by simp,?_,by simp,by simp,by simp,
      fun _ => rfl,fun _ => rfl,⟨rfl,rfl,rfl⟩⟩
    · cases x with
      | carried status => simpa [places,count_pair] using actors shifts a status
      | _ => simp [places,noteErrand,List.count_cons]
    · simp [loses,does]
  | @start addr absent shifts =>
    refine ⟨[addr],.carried .held,.carried .flying,fun a x => ?_,by simp [Edge.start absent],subset_rfl,fun _ => .inl,by simp,by simp,by simp,
      ?_,by simp,fun _ => rfl,fun _ => rfl,⟨rfl,rfl,rfl⟩⟩
    · cases x with
      | carried status => simpa [places,count_pair] using actors shifts a status
      | _ => simp [places,noteErrand]
    · simp [begins,does]
  | @serve addr shifts =>
    refine ⟨[addr],.carried .flying,.carried .served,fun a x => ?_,by simp [Edge.serve],subset_rfl,fun _ => .inl,by simp,by simp,
      by simp,by simp,by simp,fun _ => rfl,?_,⟨rfl,rfl,rfl⟩⟩
    · cases x with
      | carried status => simpa [places,count_pair] using actors shifts a status
      | _ => simp [places,noteErrand]
    · simp [noteErrand,List.count_cons]
  | @store addr ok shifts =>
    refine ⟨[addr],.carried .served,.direct,fun a x => ?_,by simp [Edge.store],?_,?_,?_,by simp,by simp,by simp,by simp,
      fun _ => rfl,fun _ => rfl,?_⟩
    · cases x with
      | carried status => simpa [places,put,count_pair] using actors shifts a status
      | _ => simp [places,put,noteErrand,List.count_cons]
    · cases ok
      · exact subset_rfl
      · exact Finset.subset_insert _ _
    · intro a inside
      cases ok
      · exact .inl inside
      · rcases Finset.mem_insert.mp inside with rfl | old
        · exact .inr ⟨List.mem_singleton_self _,.inl rfl⟩
        · exact .inl old
    · intro wrote _ a member
      cases List.mem_singleton.mp member
      have fine : ok = true := by simpa [writes,does] using wrote
      subst fine
      exact Finset.mem_insert_self _ _
    · exact ⟨by simp [put,noteErrand]; omega,rfl,rfl⟩

omit [DecidableEq B] in
/-- A connection that is spawned carries nothing. -/
theorem carried_append (actors : List (Actor A B)) (fresh : Actor A B) (empty : ∀ x, carried fresh.session x = 0)
    (x : A × Status) : total (fun actor : Actor A B => carried actor.session x) (actors ++ [fresh]) =
      total (fun actor : Actor A B => carried actor.session x) actors := by
  simp [empty x]

theorem turn_dispatched (dispatch : Dispatching.Dispatch M A) (storer : Routing.Selected M A) (rate : Nat)
    (known : Option Known) (beneficiary : B) :
    Turn job r move (connect job { r with dispatch := dispatch } storer rate known beneficiary) [] .pool .pool := by
  unfold connect
  split
  · simp only
    split <;>
    · refine turn_quiet (fun a x => ?_) rfl rfl rfl rfl rfl rfl
      cases x with
      | carried status => exact carried_append _ _ (fun y => carried_spawn _ _ _ _ _ y) _
      | _ => rfl
  · refine turn_quiet (fun a x => ?_) rfl rfl rfl rfl rfl rfl
    cases x with
    | carried status => exact carried_append _ _ (fun y => carried_spawn _ _ _ _ _ y) _
    | _ => rfl

omit [DecidableEq B] in
/-- The next address of the channel. -/
theorem queued_head {addr : A} (head : r.common.sent[r.received]? = some addr) (a : A) :
    (r.common.sent.drop r.received).count a = (r.common.sent.drop (r.received + 1)).count a + [addr].count a := by
  obtain ⟨inside,here⟩ := List.getElem?_eq_some_iff.mp head
  rw [List.drop_eq_getElem_cons inside,here,List.count_cons,List.count_singleton]

omit [DecidableEq B] in
theorem fetching_set {forwards : List (Forward A)} {k : Nat} {addr : A} (after : Forward A)
    (at_ : forwards[k]? = some (.fetching addr)) (over_ : ∀ b, after ≠ .fetching b) (a : A) :
    (forwards.set k after).count (.fetching a) + [addr].count a = forwards.count (.fetching a) := by
  obtain ⟨inside,here⟩ := List.getElem?_eq_some_iff.mp at_
  have other : (after == Forward.fetching a) = false := by simpa using over_ a
  have there : 0 < forwards.count (.fetching addr) := List.count_pos_iff.mpr (here ▸ List.getElem_mem inside)
  rw [List.count_set inside,here]
  by_cases same : addr = a
  · subst same
    simp [other]
    omega
  · have differ : (Forward.fetching addr == Forward.fetching a) = false := by simpa using same
    simp [other,same]

omit [DecidableEq B] in
theorem fetching_erase {forwards : List (Forward A)} {k : Nat} {forward : Forward A} (at_ : forwards[k]? = some forward)
    (finished : ∀ addr, forward ≠ .fetching addr) (a : A) :
    (forwards.eraseIdx k).count (.fetching a) = forwards.count (.fetching a) := by
  obtain ⟨inside,here⟩ := List.getElem?_eq_some_iff.mp at_
  have other : (forward == Forward.fetching a) = false := by simpa using finished a
  have whole := (List.getElem_cons_eraseIdx_perm inside).count_eq (Forward.fetching a)
  rw [List.count_cons,here,other] at whole
  simpa using whole

/-- Every step of a run moves some addresses along an edge. -/
theorem step_turn {needed : List A} (idle : ∀ actor ∈ r.actors, Idle actor.session)
    (received : r.received ≤ r.common.sent.length) (steps : Steps job needed r move r') :
    ∃ addrs p q, Turn job r move r' addrs p q := by
  cases steps with
  | acted at_ standing moves => exact turn_acted received at_ (step_errand (idle _ (mem_of_found at_)) moves)
  | @shaken i actor remote common session at_ dialing moves =>
    have carries := step_errand (idle _ (mem_of_found at_)) moves
    rw [show errand job.plan r.common actor.session (.answer (decide (remote = some actor.session.overlay))) = .rest by
      simp [errand,dialing]] at carries
    cases carries with
    | rest bank shifts =>
      refine ⟨[],.pool,.pool,turn_quiet (fun a x => ?_) rfl rfl rfl rfl rfl rfl⟩
      cases x with
      | carried status => simpa [places] using carried_set (Actor.mk actor.prefix_ actor.rate session _ actor.joined) at_ shifts a status
      | _ => rfl
  | passed | sampled windDown prev sampleAt | refilled at_ next | exhausted at_ chosen | reported at_ all none_ outcome
  | parkedChange conns => exact ⟨[],.pool,.pool,turn_quiet (fun a x => by cases x <;> rfl) rfl rfl rfl rfl rfl rfl⟩
  | dispatched at_ chosen => exact ⟨[],.pool,.pool,turn_dispatched _ _ _ _ _⟩
  | @joined i actor residual observed parked at_ there closed =>
    refine ⟨[],.pool,.pool,turn_quiet (fun a x => ?_) rfl rfl rfl rfl rfl rfl⟩
    cases x with
    | carried status =>
      have same : Shifts (carried actor.session) (carried { actor with joined := true }.session) [] [] := shifts_same fun _ => rfl
      simpa [places] using carried_set { actor with joined := true } there same a status
    | _ => rfl
  | @dropped stranded at_ none_ all mode =>
    refine ⟨stranded,.pool,.dropped,fun a x => ?_,fun _ _ => .drop,subset_rfl,fun _ => .inl,by simp,by simp,by simp,by simp,
      fun _ _ => mode,fun _ => rfl,fun _ => rfl,⟨rfl,rfl,?_⟩⟩
    · have whole := all.count_eq a
      cases x with
      | pool => simpa [places,drainAll] using whole
      | dropped => simp [places]; omega
      | _ => simp [places]
    · simp; omega
  | @stranded stranded at_ none_ all mode =>
    refine ⟨stranded,.pool,.queued,turn_plain (fun a x => ?_) (fun _ _ => .strand) rfl (by simp [send]) rfl ⟨rfl,rfl,rfl⟩ (by simp)⟩
    have whole := all.count_eq a
    cases x with
    | pool => simpa [places,drainAll,send] using whole
    | queued =>
      simp only [places,send,if_true,List.drop_append_of_le_length received,List.count_append]
      simp
    | _ => simp [places]
  | @passedOn addr head there =>
    refine ⟨[addr],.queued,.passed,turn_plain (fun a x => ?_) (by simp [Edge.pass there]) rfl (fun _ => rfl) rfl ⟨rfl,rfl,rfl⟩ (by simp)⟩
    have left := queued_head head a
    cases x with
    | queued => simpa [places] using left.symm
    | _ => simp [places,List.count_cons]
  | @forwarding addr head absent =>
    refine ⟨[addr],.queued,.fetching,fun a x => ?_,by simp [Edge.forward absent],subset_rfl,fun _ => .inl,by simp,by simp,by simp,?_,
      by simp,fun _ => rfl,fun _ => rfl,⟨rfl,rfl,rfl⟩⟩
    · have left := queued_head head a
      cases x with
      | queued => simpa [places] using left.symm
      | fetching => simp [places,List.count_singleton]
      | _ => simp [places]
    · simp [begins,errandOf,head,absent]
  | @forwarded k stored why addr at_ =>
    refine ⟨[addr],.fetching,.forwarded,fun a x => ?_,by simp [Edge.forwarded],?_,?_,?_,by simp,by simp,by simp,by simp,fun _ => rfl,
      fun _ => rfl,?_⟩
    · have left := fetching_set .done at_ (by simp) a
      cases x with
      | fetching => simpa [places] using left
      | _ => simp [places,List.count_cons]
    · cases stored
      · exact subset_rfl
      · exact Finset.subset_insert _ _
    · intro a inside
      cases stored
      · exact .inl inside
      · rcases Finset.mem_insert.mp inside with rfl | old
        · exact .inr ⟨List.mem_singleton_self _,.inr rfl⟩
        · exact .inl old
    · intro wrote _ a member
      cases List.mem_singleton.mp member
      have fine : stored = true := by simpa [writes,errandOf] using wrote
      subst fine
      exact Finset.mem_insert_self _ _
    · exact ⟨rfl,by simp; omega,rfl⟩
  | @unserved k stored why addr at_ =>
    refine ⟨[addr],.fetching,.unserved,fun a x => ?_,by simp [Edge.unserved],subset_rfl,fun _ => .inl,by simp,by simp,fun _ _ => rfl,
      by simp,by simp,fun _ => rfl,fun _ => rfl,⟨rfl,rfl,rfl⟩⟩
    have left := fetching_set (.failed addr why) at_ (by simp) a
    cases x with
    | fetching => simpa [places] using left
    | _ => simp [places,List.count_cons]
  | @collected k forward fails at_ finished =>
    refine ⟨[],.pool,.pool,turn_quiet (fun a x => ?_) rfl rfl rfl rfl rfl rfl⟩
    cases x with
    | fetching => exact fetching_erase at_ finished a
    | _ => rfl

end Turns

/-! ### Where a run stands -/

/-- Joined connections have ended. Once the pool is drained it stays empty, and once
    the result is there the channel is, too. -/
structure Standing (r : Run M A B) : Prop where
  idle : ∀ actor ∈ r.actors, Idle actor.session
  received : r.received ≤ r.common.sent.length
  joined : ∀ actor ∈ r.actors, actor.joined = true → actor.session.phase.late = true
  drained : r.main = .awaiting ∨ (∃ result, r.main = .returned result) →
    drainAll r.common.pool = [] ∧ ∀ actor ∈ r.actors, actor.joined = true
  returned : ∀ result, r.main = .returned result → r.received = r.common.sent.length ∧ r.forwards = []

section Standing
variable {job : Job M A} {needed : List A} {r r' : Run M A B} {move : Move A B}

omit [DecidableEq B] in
/-- A connection that carries nothing leaves the channel and the empty pool alone. -/
theorem carries_nothing {c c' : Common A B} {bucket : Nat} {before after : A × Status → Nat} {kind : Errand A}
    (nothing : ∀ x, before x = 0) (carries : Carries c bucket before after kind c') : c'.sent = c.sent := by
  cases carries with
  | sent status held shifts =>
    rename_i addr
    have gone := shifts (addr,status)
    simp [nothing] at gone
  | _ => rfl

omit [DecidableEq B] in
theorem carries_empty {c c' : Common A B} {bucket : Nat} {before after : A × Status → Nat} {kind : Errand A}
    (empty : drainAll c.pool = []) (carries : Carries c bucket before after kind c') : drainAll c'.pool = [] := by
  cases carries with
  | popped popped shifts =>
    have whole := pop_some popped
    rw [empty] at whole
    simpa using whole.length_eq
  | _ => exact empty

omit [DecidableEq B] in
theorem carries_sent {c c' : Common A B} {bucket : Nat} {before after : A × Status → Nat} {kind : Errand A}
    (carries : Carries c bucket before after kind c') : c.sent.length ≤ c'.sent.length := by
  cases carries with
  | sent status held shifts => simp [send]
  | _ => exact le_rfl

/-- One connection moves. -/
theorem standing_actor (standing : Standing r) {i : Nat} {actor : Actor A B} (at_ : r.actors[i]? = some actor) {act : Act}
    {common : Common A B} {session : Session A B} (moves : Moves job.plan r.common actor.session act common session)
    (actor' : Actor A B) (same : actor'.session = session) (joined : actor'.joined = actor.joined) (log : Log A)
    (conns : ConnPool A B) (opened : Nat) :
    Standing { r with common := common, conns := conns, actors := r.actors.set i actor', log := log, opened := opened } := by
  have idle := standing.idle _ (mem_of_found at_)
  have carries := step_errand idle moves
  refine ⟨forall_set standing.idle (same ▸ idle_step idle moves),standing.received.trans (carries_sent carries),
    forall_set standing.joined fun ended => ?_,fun over_ => ?_,fun result over_ => ?_⟩
  · rw [same]
    exact late_step (standing.joined _ (mem_of_found at_) (joined ▸ ended)) moves
  · obtain ⟨empty,all⟩ := standing.drained over_
    exact ⟨carries_empty empty carries,forall_set all (joined.trans (all _ (mem_of_found at_)))⟩
  · obtain ⟨received,none_⟩ := standing.returned result over_
    obtain ⟨-,all⟩ := standing.drained (.inr ⟨result,over_⟩)
    have late := standing.joined _ (mem_of_found at_) (all _ (mem_of_found at_))
    refine ⟨?_,none_⟩
    rw [carries_nothing (carried_late idle late) carries]
    exact received

omit [DecidableEq B] in
/-- A connection is spawned. -/
theorem standing_spawn (standing : Standing r) (fresh : Actor A B) (idle : Idle fresh.session)
    (open_ : fresh.joined = false) (conns : ConnPool A B) (dispatch : Dispatching.Dispatch M A) (opened : Nat) :
    Standing { r with
      conns := conns
      opened := opened
      dispatch := dispatch
      actors := r.actors ++ [fresh]
      main := .refilling } :=
  ⟨forall_append standing.idle idle,standing.received,forall_append standing.joined (by simp [open_]),by simp,by simp⟩

theorem standing_step (standing : Standing r) (steps : Steps job needed r move r') : Standing r' := by
  cases steps with
  | @acted i actor act common session at_ before moves =>
    exact standing_actor standing at_ moves { actor with session := session } rfl rfl _ _ _
  | @shaken i actor remote common session at_ dialing moves =>
    exact standing_actor standing at_ moves
      { actor with session := session, remote := if decide (remote = some actor.session.overlay) then remote else none }
      rfl rfl _ _ _
  | passed | sampled windDown prev sampleAt | parkedChange conns =>
    exact ⟨standing.idle,standing.received,standing.joined,standing.drained,standing.returned⟩
  | refilled at_ next =>
    refine ⟨standing.idle,standing.received,standing.joined,?_,?_⟩ <;> rcases next with rfl | rfl <;> simp
  | exhausted at_ chosen => exact ⟨standing.idle,standing.received,standing.joined,by simp,by simp⟩
  | dispatched at_ chosen =>
    unfold connect
    split
    · simp only
      split
      · exact standing_spawn standing _ (idle_spawn _ _ _ _ _) rfl _ _ _
      · exact standing_spawn standing _ (idle_spawn _ _ _ _ _) rfl _ _ _
    · exact standing_spawn standing _ (idle_spawn _ _ _ _ _) rfl _ _ _
  | @joined i actor residual observed parked at_ there closed =>
    refine ⟨forall_set standing.idle (standing.idle actor (mem_of_found there)),standing.received,
      forall_set standing.joined fun _ => ?_,by simp,by simp⟩
    show actor.session.phase.late = true
    rw [closed]
    rfl
  | dropped at_ none_ all mode =>
    refine ⟨standing.idle,standing.received,standing.joined,fun _ => ⟨rfl,fun actor member => ?_⟩,by simp⟩
    simpa using List.filter_eq_nil_iff.mp (List.isEmpty_iff.mp none_) actor member
  | stranded at_ none_ all mode =>
    refine ⟨standing.idle,?_,standing.joined,fun _ => ⟨rfl,fun actor member => ?_⟩,by simp⟩
    · have le := standing.received
      simp only [send,List.length_append]
      omega
    · simpa using List.filter_eq_nil_iff.mp (List.isEmpty_iff.mp none_) actor member
  | passedOn head there | forwarding head absent =>
    have inside := (List.getElem?_eq_some_iff.mp head).1
    refine ⟨standing.idle,inside,standing.joined,standing.drained,fun result over_ => ?_⟩
    have all := (standing.returned result over_).1
    omega
  | forwarded at_ | unserved at_ | collected fails at_ finished =>
    refine ⟨standing.idle,standing.received,standing.joined,standing.drained,fun result over_ => ?_⟩
    have none_ := (standing.returned result over_).2
    simp [none_] at at_
  | reported at_ all none_ outcome =>
    exact ⟨standing.idle,standing.received,standing.joined,fun _ => standing.drained (.inl at_),fun _ _ => ⟨all,none_⟩⟩

end Standing

/-! ### The books -/

/-- What was sent is with the worker or waits for it, what was retrieved was stored
    or is about to be, what was skipped is in the store, and the store holds what it
    held and what was written since. -/
structure Books (job : Job M A) (before : Finset A) (r : Run M A B) : Prop where
  sent : ∀ a, r.common.sent.count a =
    places r a .queued + places r a .fetching + places r a .passed + places r a .forwarded + places r a .unserved
  retrieved : ∀ a, r.log.retrieved.count a = places r a (.carried .served) + places r a .direct
  found : ∀ a, 0 < places r a .found → a ∈ r.common.stored
  passed : ∀ a, 0 < places r a .passed → a ∈ r.common.stored
  kept : before ⊆ r.common.stored
  fresh : ∀ a ∈ r.common.stored, a ∈ before ∨ 0 < places r a .direct ∨ 0 < places r a .forwarded
  undropped : job.directOnly = false → ∀ a, places r a .dropped = 0
  counts : r.common.directOk = r.log.direct.length ∧ r.forwarded = r.log.forwarded.length ∧
    r.dropped = r.log.dropped.length

section Books
variable {job : Job M A} {before : Finset A} {r r' : Run M A B} {move : Move A B} {addrs : List A} {p q : Place}

theorem sent_turn (turn : Turn job r move r' addrs p q)
    (sent : ∀ a, r.common.sent.count a =
      places r a .queued + places r a .fetching + places r a .passed + places r a .forwarded + places r a .unserved)
    (a : A) : r'.common.sent.count a =
      places r' a .queued + places r' a .fetching + places r' a .passed + places r' a .forwarded + places r' a .unserved := by
  have queued := turn.moved a .queued
  have fetching := turn.moved a .fetching
  have passed := turn.moved a .passed
  have forwarded := turn.moved a .forwarded
  have unserved := turn.moved a .unserved
  have grown := turn.sent a
  have were := sent a
  cases addrs with
  | nil => simp at *; omega
  | cons addr rest =>
    have edge := turn.edges addr List.mem_cons_self
    cases edge <;> simp at * <;> omega

theorem retrieved_turn (turn : Turn job r move r' addrs p q)
    (retrieved : ∀ a, r.log.retrieved.count a = places r a (.carried .served) + places r a .direct) (a : A) :
    r'.log.retrieved.count a = places r' a (.carried .served) + places r' a .direct := by
  have served := turn.moved a (.carried .served)
  have direct := turn.moved a .direct
  have grown := turn.retrieved a
  have were := retrieved a
  cases addrs with
  | nil => simp at *; omega
  | cons addr rest =>
    have edge := turn.edges addr List.mem_cons_self
    cases edge with
    | leave held => rcases held with rfl | rfl <;> simp at * <;> omega
    | _ => simp at *; omega

/-- No address leaves the end that it came to. -/
theorem ends_stay (turn : Turn job r move r' addrs p q) {x : Place}
    (end_ : x ∈ [.direct,.found,.lost,.passed,.forwarded,.unserved,.dropped]) (a : A) : places r a x ≤ places r' a x := by
  cases addrs with
  | nil => simpa using (turn.moved a x).ge
  | cons addr rest =>
    have edge := turn.edges addr List.mem_cons_self
    refine le_moved turn.moved ?_ a
    rintro rfl
    cases edge <;> simp at end_

theorem books_turn (books : Books job before r) (turn : Turn job r move r' addrs p q) : Books job before r' := by
  refine ⟨sent_turn turn books.sent,retrieved_turn turn books.retrieved,fun a there => ?_,fun a there => ?_,
    books.kept.trans turn.kept,fun a there => ?_,fun mode a => ?_,?_⟩
  · rcases moved_gain turn.moved there with old | ⟨rfl,member⟩
    · exact turn.kept (books.found a old)
    · cases turn.edges a member with
      | found stored => exact turn.kept stored
  · rcases moved_gain turn.moved there with old | ⟨rfl,member⟩
    · exact turn.kept (books.passed a old)
    · cases turn.edges a member with
      | pass stored => exact turn.kept stored
  · rcases turn.fresh a there with old | ⟨member,target⟩
    · rcases books.fresh a old with first | direct | forwarded
      · exact .inl first
      · exact .inr (.inl (direct.trans_le (ends_stay turn (by simp) a)))
      · exact .inr (.inr (forwarded.trans_le (ends_stay turn (by simp) a)))
    · have came := List.count_pos_iff.mpr member
      have edge := turn.edges a member
      rcases target with rfl | rfl
      · have here := moved_target turn.moved (by rintro rfl; cases edge) a
        exact .inr (.inl (by omega))
      · have here := moved_target turn.moved (by rintro rfl; cases edge) a
        exact .inr (.inr (by omega))
  · by_contra there
    rcases moved_gain turn.moved (Nat.pos_of_ne_zero there) with old | ⟨rfl,member⟩
    · exact absurd (books.undropped mode a) old.ne'
    · have direct := turn.dropped rfl (List.ne_nil_of_mem member)
      rw [mode] at direct
      cases direct
  · have counts := turn.counts
    have were := books.counts
    omega

end Books

/-! ### The start -/

/-- Before any connection is spawned. -/
structure Fresh (job : Job M A) (stored : Finset A) (main : Main) (r : Run M A B) : Prop where
  actors : r.actors = []
  received : r.received = 0
  forwards : r.forwards = []
  stored : r.common.stored = stored
  main : r.main = main
  log : r.log = { Log.empty with dropped := r.log.dropped }
  dropped : r.dropped = r.log.dropped.length
  counts : r.common.directOk = 0 ∧ r.forwarded = 0
  undropped : job.directOnly = false → r.log.dropped = []

section Start
variable {job : Job M A} {stored : Finset A} {main : Main} {r : Run M A B}

omit [DecidableEq B] in
theorem fresh_blank (opening : Opening A B) (selected : AList fun _ : Nat => List (Routing.Member M A)) :
    Fresh job stored main (blank opening stored selected main) :=
  ⟨rfl,rfl,rfl,rfl,rfl,rfl,rfl,⟨rfl,rfl⟩,fun _ => rfl⟩

omit [DecidableEq B] in
theorem fresh_route (fresh : Fresh job stored main r) (covered : AList fun _ : Nat => List (Routing.Member M A)) (addr : A) :
    Fresh job stored main (route job covered r addr) := by
  obtain ⟨actors,received,forwards,held,at_,log,dropped,counts,undropped⟩ := fresh
  unfold route
  simp only
  split
  · exact ⟨actors,received,forwards,held,at_,log,dropped,counts,undropped⟩
  · split
    · next mode =>
      refine ⟨actors,received,forwards,held,at_,?_,?_,counts,?_⟩
      · rw [log]
      · simp [dropped]
      · intro off
        rw [off] at mode
        cases mode
    · exact ⟨actors,received,forwards,held,at_,log,dropped,counts,undropped⟩

omit [DecidableEq B] in
/-- Each chunk is routed to one place. -/
theorem sum_route (fresh : Fresh job stored main r) (covered : AList fun _ : Nat => List (Routing.Member M A)) (addr a : A) :
    ∑ x, places (route job covered r addr) a x = (∑ x, places r a x) + [addr].count a := by
  rw [sum_places,sum_places]
  unfold route
  simp only
  split
  · have pushed := (push_perm r.common.pool (job.bucketOf addr) addr).count_eq a
    simp only [List.count_cons,List.count_nil] at pushed ⊢
    simp only [places] at pushed ⊢
    omega
  · split
    · simp only [places,List.count_cons,List.count_nil]
      omega
    · simp only [places,send,fresh.received,List.drop_zero,List.count_append]
      omega

omit [DecidableEq B] in
theorem fresh_routed (covered : AList fun _ : Nat => List (Routing.Member M A)) (addrs : List A) :
    ∀ {r : Run M A B}, Fresh job stored main r → Fresh job stored main (addrs.foldl (route job covered) r) ∧
      ∀ a, ∑ x, places (addrs.foldl (route job covered) r) a x = (∑ x, places r a x) + addrs.count a := by
  induction addrs with
  | nil => exact fun fresh => ⟨fresh,fun a => by simp⟩
  | cons addr rest ih =>
    intro r fresh
    obtain ⟨later,sums⟩ := ih (fresh_route fresh covered addr)
    refine ⟨later,fun a => ?_⟩
    rw [List.foldl_cons,sums a,sum_route fresh]
    simp only [List.count_cons,List.count_nil]
    omega

omit [DecidableEq B] in
/-- At the start an address is in the pool, in the channel or dropped. -/
theorem fresh_places (fresh : Fresh job stored main r) (a : A) :
    places r a (.carried .held) = 0 ∧ places r a (.carried .flying) = 0 ∧ places r a (.carried .served) = 0 ∧
      places r a (.carried .failed) = 0 ∧ places r a .fetching = 0 ∧ places r a .direct = 0 ∧ places r a .found = 0 ∧
      places r a .lost = 0 ∧ places r a .passed = 0 ∧ places r a .forwarded = 0 ∧ places r a .unserved = 0 := by
  simp only [places,fresh.actors,fresh.forwards,total_nil,List.count_nil,true_and]
  rw [fresh.log]
  simp [Log.empty]

omit [DecidableEq B] in
theorem fresh_books (fresh : Fresh job stored main r) : Books job stored r := by
  have zero := fresh_places fresh
  refine ⟨fun a => ?_,fun a => ?_,fun a there => ?_,fun a there => ?_,fresh.stored.symm.subset,fun a there => ?_,
    fun mode a => ?_,?_⟩
  · obtain ⟨-,-,-,-,fetching,-,-,-,passed,forwarded,unserved⟩ := zero a
    rw [fetching,passed,forwarded,unserved]
    simp [places,fresh.received]
  · obtain ⟨-,-,served,-,-,direct,-⟩ := zero a
    rw [served,direct,fresh.log]
    rfl
  · obtain ⟨-,-,-,-,-,-,found,-⟩ := zero a
    exact absurd there (by omega)
  · obtain ⟨-,-,-,-,-,-,-,-,passed,-⟩ := zero a
    exact absurd there (by omega)
  · exact .inl (fresh.stored ▸ there)
  · simp [places,fresh.undropped mode]
  · refine ⟨?_,?_,fresh.dropped⟩ <;> rw [fresh.log]
    · exact fresh.counts.1
    · exact fresh.counts.2

omit [DecidableEq B] in
theorem fresh_standing (fresh : Fresh job stored main r)
    (over_ : main = .refilling ∨ drainAll r.common.pool = [] ∧ r.common.sent = []) : Standing r := by
  obtain ⟨actors,received,forwards,-,at_,-⟩ := fresh
  refine ⟨by simp [actors],by omega,by simp [actors],fun ended => ⟨?_,by simp [actors]⟩,fun result ended => ?_⟩
  · rcases over_ with busy | none_
    · rw [at_,busy] at ended
      simp at ended
    · exact none_.1
  · rcases over_ with busy | none_
    · rw [at_,busy] at ended
      cases ended
    · rw [received,none_.2,forwards]
      exact ⟨rfl,rfl⟩

end Start

end Directswarm.Ownership
