import Directswarm.Dispatching
import Directswarm.Errands

/-!
`fetch_scheduled` (`schedule.rs`): the opening, the loop that keeps a window of
connections busy, the fallback worker, the stall detector, and the end. The
connections, the worker and the main task take their steps in any order. What a
run did with each address is kept in a log that no code reads.
-/
namespace Directswarm.Scheduler
open Directswarm.Words Directswarm.Cheques Directswarm.Pacing Directswarm.WorkPool Directswarm.Connection
  Directswarm.Routing Directswarm.Dispatching Directswarm.Errands

/-- `ParkedConn`. -/
structure ParkedConn (A B : Type) where
  overlay : A
  beneficiary : B
  alive : Bool
  announced : Option U256
  lambdaMs : Nat

/-- `ConnPool`: every connection is under its own overlay. -/
structure ConnPool (A B : Type) [DecidableEq A] where
  conns : AList fun _ : A => ParkedConn A B
  keyed : ∀ overlay conn, conns.lookup overlay = some conn → conn.overlay = overlay

/-- What `fetch_scheduled` is given, but for what it opens. -/
structure Job (M A : Type) where
  plan : Plan A
  chunkAddrs : List A
  /-- `bucket_prefix` at the depth of the options. -/
  bucketOf : A → Nat
  /-- `select_storers` on the cache and the peer-state store. -/
  select : List A → AList fun _ : Nat => List (Member M A)
  directOnly : Bool
  stallExit : Bool
  connections : Nat
  /-- `hex::encode`. -/
  hex : A → List Char

/-- What the steps before the dispatch loop find. -/
structure Opening (A B : Type) [DecidableEq A] where
  /-- The addresses in the chunk store, when it opens. -/
  store : Option (Finset A)
  chainRead : Bool
  forwarder : Bool
  /-- The map of the `FastLedger`, when it opens. -/
  ledger : Finmap fun _ : B => U256
  conns : ConnPool A B
  now : Nat

inductive FetchError
  | store
  | chain
  | forwarder
  | flush
  | message (text : List Char)
  deriving DecidableEq

/-- `ScheduleReport`. -/
structure ScheduleReport where
  connectionsOpened : Nat
  chunksTotal : Nat
  chunksFromDirect : Nat
  chunksFromFallback : Nat
  chunksDroppedUncovered : Nat
  chunksFailed : Nat
  residualDebtUnits : Nat
  errors : List (List Char)
  deriving DecidableEq

/-- Where the main task stands. -/
inductive Main
  /-- At the head of the inner loop. -/
  | refilling
  /-- A slot is free. -/
  | choosing
  | joining
  /-- The pool is drained and the channel closed. -/
  | awaiting
  | returned (result : Except FetchError ScheduleReport)

/-- A spawned connection. -/
structure Actor (A B : Type) where
  prefix_ : Nat
  rate : Nat
  session : Session A B
  /-- The overlay of the handshake, or that it was parked under. -/
  remote : Option A
  joined : Bool

/-- A spawned fetch of the fallback worker. -/
inductive Forward (A : Type)
  | fetching (addr : A)
  | done
  | failed (addr : A) (why : List Char)
  deriving DecidableEq

/-- What became of addresses: of those that connections took, of those that the
    worker received, and of those that were dropped. -/
structure Log (A : Type) where
  retrieved : List A
  direct : List A
  found : List A
  lost : List A
  passed : List A
  forwarded : List A
  failed : List A
  dropped : List A

structure Run (M A B : Type) [DecidableEq A] where
  common : Common A B
  conns : ConnPool A B
  actors : List (Actor A B)
  dispatch : Dispatch M A
  selectedWasEmpty : Bool
  opened : Nat
  residual : Nat
  dropped : Nat
  /-- How much of the fallback channel the worker has received. -/
  received : Nat
  forwards : List (Forward A)
  forwarded : Nat
  fails : List (List Char)
  started : Nat
  /-- The counts of the last two samples, and the time of the next. -/
  prev : Nat × Nat
  sampleAt : Nat
  main : Main
  log : Log A

variable {M A B : Type} [DecidableEq A] [DecidableEq B]

namespace ConnPool

def empty : ConnPool A B := ⟨∅,by simp⟩

/-- `g.insert(remote_overlay, ..)`. -/
def park (pool : ConnPool A B) (conn : ParkedConn A B) : ConnPool A B where
  conns := pool.conns.insert conn.overlay conn
  keyed := by
    intro overlay other found
    by_cases same : overlay = conn.overlay
    · rw [same,AList.lookup_insert] at found
      cases found
      exact same.symm
    · rw [AList.lookup_insert_ne same] at found
      exact pool.keyed overlay other found

def remove (pool : ConnPool A B) (overlay : A) : ConnPool A B where
  conns := pool.conns.erase overlay
  keyed := by
    intro other conn found
    by_cases same : other = overlay
    · rw [same,AList.lookup_erase] at found
      cases found
    · rw [AList.lookup_erase_ne same] at found
      exact pool.keyed other conn found

end ConnPool

/-! ### The opening -/

def Log.empty : Log A := ⟨[],[],[],[],[],[],[],[]⟩

/-- The chunks that are not stored. -/
def needed (job : Job M A) (stored : Finset A) : List A := job.chunkAddrs.filter fun a => a ∉ stored

/-- One turn of the loop that routes the chunks. -/
def route (job : Job M A) (covered : AList fun _ : Nat => List (Member M A)) (r : Run M A B) (addr : A) : Run M A B :=
  let p := job.bucketOf addr
  if p ∈ covered then { r with common := { r.common with pool := push r.common.pool p addr } }
  else if job.directOnly then { r with dropped := r.dropped + 1, log := { r.log with dropped := addr :: r.log.dropped } }
  else { r with common := send r.common [addr] }

/-- Before any chunk is routed. -/
def blank (opening : Opening A B) (stored : Finset A) (selected : AList fun _ : Nat => List (Member M A)) (main : Main) :
    Run M A B where
  common := ⟨opening.now,∅,stored,[],false,0,⟨0,opening.ledger,[]⟩⟩
  conns := opening.conns
  actors := []
  dispatch := Dispatch.new selected
  selectedWasEmpty := selected.entries.isEmpty
  opened := 0
  residual := 0
  dropped := 0
  received := 0
  forwards := []
  forwarded := 0
  fails := []
  started := opening.now
  prev := (0,0)
  sampleAt := opening.now + 10000 * ms
  main := main
  log := Log.empty

def noStorer : List Char := "no storer in the cache covers any needed chunk".toList
def noConnection : List Char := "no storer connection established".toList

/-- `fetch_scheduled`, up to the dispatch loop. -/
def launch (job : Job M A) (opening : Opening A B) : Run M A B :=
  match opening.store with
  | none => blank opening ∅ ∅ (.returned (.error .store))
  | some stored =>
    let needed := needed job stored
    if needed.isEmpty then
      blank opening stored ∅ (.returned (.ok ⟨0,job.chunkAddrs.length,0,0,0,0,0,[]⟩))
    else if !opening.chainRead then blank opening stored ∅ (.returned (.error .chain)) else
    let selected := job.select needed
    if selected.entries.isEmpty && job.directOnly then
      blank opening stored selected (.returned (.error (.message noStorer)))
    else if !opening.forwarder then blank opening stored selected (.returned (.error .forwarder)) else
    needed.foldl (route job selected) (blank opening stored selected .refilling)

/-! ### Steps -/

/-- What moves a run. -/
inductive Move (A B : Type)
  | pass (ns : Nat)
  | session (i : Nat) (act : Act)
  /-- A dial that ended, with the overlay that the handshake named. -/
  | handshake (i : Nat) (remote : Option A)
  | sample
  | refill
  /-- `next`, with what it read of the pool, the order of its maps, and what is known
      of the peer once the connection stands. -/
  | dispatch (early late : Nat → Nat) (order : List Nat) (known : Option Known) (beneficiary : B)
  | join (i : Nat)
  | drain (stranded : List A)
  | receive
  | forward (k : Nat) (ok stored : Bool) (why : List Char)
  | collect (k : Nat)
  | report (flushed : Bool)
  /-- The peer of a parked connection hangs up, or announces a threshold. -/
  | parkedGone (overlay : A)
  | parkedTerms (overlay : A) (t : U256)

def noteErrand (log : Log A) : Errand A → Log A
  | .serve addr => { log with retrieved := addr :: log.retrieved }
  | .store addr _ => { log with direct := addr :: log.direct }
  | .found addr => { log with found := addr :: log.found }
  | .lost addr => { log with lost := addr :: log.lost }
  | _ => log

/-- A connection that was just closed may be parked. -/
def parkClosed (conns : ConnPool A B) (before after : Session A B) : ConnPool A B :=
  match before.phase, after.phase with
  | .recording _ _ _, .closed _ _ true =>
    conns.park ⟨after.overlay,after.beneficiary,after.alive,after.pacer.announced,after.pacer.lambdaMs⟩
  | _, _ => conns

/-- A step of a connection. -/
def actorStep (job : Job M A) (r : Run M A B) (i : Nat) (actor : Actor A B) (act : Act) : Option (Run M A B) :=
  (sessionStep job.plan r.common actor.session act).map fun moved =>
    { r with
      common := moved.1
      conns := parkClosed r.conns actor.session moved.2
      actors := r.actors.set i { actor with session := moved.2 }
      log := noteErrand r.log (errand job.plan r.common actor.session act) }

def isDialing : Phase A B → Bool
  | .dialing => true
  | _ => false

/-- A dial that ends: the connection stands when the handshake names the overlay
    that the cache promised. -/
def handshakeStep (job : Job M A) (r : Run M A B) (i : Nat) (actor : Actor A B) (remote : Option A) : Option (Run M A B) :=
  if isDialing actor.session.phase then
    let ok := decide (remote = some actor.session.overlay)
    (sessionStep job.plan r.common actor.session (.answer ok)).map fun moved =>
      { r with
        common := moved.1
        actors := r.actors.set i { actor with session := moved.2, remote := if ok then remote else none }
        opened := if ok then r.opened + 1 else r.opened }
  else none

/-- The connections in flight. -/
def inflight (r : Run M A B) : List (Actor A B) := r.actors.filter fun actor => !actor.joined

/-- The connection for a storer: a parked one that is alive, or a new one. -/
def connect (job : Job M A) (r : Run M A B) (storer : Selected M A) (rate : Nat) (known : Option Known) (beneficiary : B) :
    Run M A B :=
  match if job.plan.parkInto then r.conns.conns.lookup storer.overlay else none with
  | some conn =>
    let conns := r.conns.remove storer.overlay
    if conn.alive then { r with
      conns := conns
      opened := r.opened + 1
      actors := r.actors ++ [⟨storer.prefix_,rate,
        spawn conn.overlay storer.prefix_ conn.beneficiary known (some (conn.lambdaMs,conn.announced)),
        some conn.overlay,false⟩]
      main := .refilling }
    else { r with
      conns := conns
      actors := r.actors ++ [⟨storer.prefix_,rate,spawn storer.overlay storer.prefix_ beneficiary known none,none,false⟩]
      main := .refilling }
  | none => { r with
      actors := r.actors ++ [⟨storer.prefix_,rate,spawn storer.overlay storer.prefix_ beneficiary known none,none,false⟩]
      main := .refilling }

/-- The main task, but for its end. -/
def mainStep (job : Job M A) (r : Run M A B) : Move A B → Option (Run M A B)
  | .refill =>
    match r.main with
    | .refilling =>
      if (inflight r).length < max job.connections 1 ∧ r.common.windDown = false then some { r with main := .choosing }
      else some { r with main := .joining }
    | _ => none
  | .dispatch early late order known beneficiary =>
    match r.main with
    | .choosing =>
      -- Buckets only shrink, so what was read is at least what remains.
      let keys := r.dispatch.cands.keys ++ r.dispatch.used.keys
      if (∀ p ∈ keys, remaining r.common.pool p ≤ late p ∧ late p ≤ early p) ∧
          order.Perm ((r.dispatch.refill early).foldl Dispatch.recycle r.dispatch).cands.keys then
        match r.dispatch.next early late order with
        | (none,dispatch) => some { r with dispatch := dispatch, main := .joining }
        | (some (storer,rate),dispatch) => some (connect job { r with dispatch := dispatch } storer rate known beneficiary)
      else none
    | _ => none
  | .join i =>
    match r.main, r.actors[i]? with
    | .joining, some actor =>
      match actor.session.phase with
      | .closed residual _ _ =>
        if actor.joined then none else some { r with
          residual := wrapAdd r.residual residual
          dispatch := r.dispatch.done actor.prefix_ actor.rate
          actors := r.actors.set i { actor with joined := true }
          main := .refilling }
      | _ => none
    | _, _ => none
  | .drain stranded =>
    match r.main with
    | .joining =>
      if (inflight r).isEmpty ∧ stranded.Perm (drainAll r.common.pool) then
        let common := { r.common with pool := ∅ }
        if job.directOnly then some { r with
          common := common
          dropped := r.dropped + stranded.length
          main := .awaiting
          log := { r.log with dropped := stranded ++ r.log.dropped } }
        else some { r with common := send common stranded, main := .awaiting }
      else none
    | _ => none
  | _ => none

/-- The channel is closed once the pool is drained. -/
def channelClosed (r : Run M A B) : Bool :=
  match r.main with
  | .awaiting => true
  | _ => false

/-- The fallback worker. A fetch that succeeded stores its chunk at once: nothing
    sees that it has succeeded before. -/
def workerStep (job : Job M A) (r : Run M A B) : Move A B → Option (Run M A B)
  | .receive =>
    if r.forwards.length < 8 then
      match r.common.sent[r.received]? with
      | none => none
      | some addr =>
        if addr ∈ r.common.stored then
          some { r with received := r.received + 1, log := { r.log with passed := addr :: r.log.passed } }
        else some { r with received := r.received + 1, forwards := r.forwards ++ [.fetching addr] }
    else none
  | .forward k ok stored why =>
    match r.forwards[k]? with
    | some (.fetching addr) =>
      if ok then some { r with
        common := { r.common with stored := if stored then insert addr r.common.stored else r.common.stored }
        forwards := r.forwards.set k .done
        forwarded := r.forwarded + 1
        log := { r.log with forwarded := addr :: r.log.forwarded } }
      else some { r with
        forwards := r.forwards.set k (.failed addr why)
        log := { r.log with failed := addr :: r.log.failed } }
    | _ => none
  | .collect k =>
    if 8 ≤ r.forwards.length ∨ channelClosed r ∧ r.received = r.common.sent.length then
      match r.forwards[k]? with
      | some .done => some { r with forwards := r.forwards.eraseIdx k }
      | some (.failed addr why) => some { r with
          forwards := r.forwards.eraseIdx k
          fails := r.fails ++ ["fallback ".toList ++ job.hex addr ++ ": ".toList ++ why] }
      | _ => none
    else none
  | _ => none

/-- The report of a run. -/
def reportOf (job : Job M A) (needed : List A) (r : Run M A B) : ScheduleReport where
  connectionsOpened := r.opened
  chunksTotal := job.chunkAddrs.length
  chunksFromDirect := r.common.directOk
  chunksFromFallback := r.forwarded
  chunksDroppedUncovered := r.dropped
  chunksFailed := needed.length - (r.common.directOk + r.forwarded) - r.dropped
  residualDebtUnits := r.residual
  errors := r.fails

/-- The end of `fetch_scheduled`, once the worker has finished. -/
def reportStep (job : Job M A) (needed : List A) (r : Run M A B) (flushed : Bool) : Option (Run M A B) :=
  if channelClosed r ∧ r.received = r.common.sent.length ∧ r.forwards = [] then
    if !flushed then some { r with main := .returned (.error .flush) }
    else if r.opened = 0 ∧ r.selectedWasEmpty = false then
      some { r with main := .returned (.error (.message noConnection)) }
    else some { r with main := .returned (.ok (reportOf job needed r)) }
  else none

/-- A sample of the stall detector. -/
def sampleStep (job : Job M A) (r : Run M A B) : Option (Run M A B) :=
  if r.sampleAt ≤ r.common.now then
    let count := r.common.directOk
    let stalled := job.stallExit && decide (90000 * ms ≤ r.common.now - r.started) && decide (count - r.prev.1 < 20)
    some { r with
      common := { r.common with windDown := r.common.windDown || stalled }
      prev := (r.prev.2,count)
      sampleAt := r.common.now + 10000 * ms }
  else none

/-- A parked connection changes behind our back. -/
def parkedStep (r : Run M A B) (overlay : A) (change : ParkedConn A B → ParkedConn A B)
    (same : ∀ conn, (change conn).overlay = conn.overlay) : Option (Run M A B) :=
  match found : r.conns.conns.lookup overlay with
  | none => none
  | some conn => some { r with conns := ⟨r.conns.conns.insert overlay (change conn),by
      intro other old looked
      by_cases here : other = overlay
      · subst here
        rw [AList.lookup_insert] at looked
        cases looked
        rw [same,r.conns.keyed _ _ found]
      · rw [AList.lookup_insert_ne here] at looked
        exact r.conns.keyed other old looked⟩ }

/-- One step of a run that was launched on a store. -/
def step (job : Job M A) (needed : List A) (r : Run M A B) (move : Move A B) : Option (Run M A B) :=
  match move with
  | .pass ns => some { r with common := { r.common with now := r.common.now + ns } }
  | .session i act =>
    match r.actors[i]? with
    | none => none
    | some actor =>
      match isDialing actor.session.phase, act with
      | true, .answer _ => none
      | _, _ => actorStep job r i actor act
  | .handshake i remote => (r.actors[i]?).bind fun actor => handshakeStep job r i actor remote
  | .sample => sampleStep job r
  | .report flushed => reportStep job needed r flushed
  | .parkedGone overlay => parkedStep r overlay (fun conn => { conn with alive := false }) fun _ => rfl
  | .parkedTerms overlay t => parkedStep r overlay (fun conn => { conn with announced := some t }) fun _ => rfl
  | move => (mainStep job r move).or (workerStep job r move)

/-! ### What a step can do -/

inductive Steps (job : Job M A) (needed : List A) (r : Run M A B) : Move A B → Run M A B → Prop
  | passed {ns : Nat} : Steps job needed r (.pass ns) { r with common := { r.common with now := r.common.now + ns } }
  | acted {i : Nat} {actor : Actor A B} {act : Act} {common : Common A B} {session : Session A B}
      (at_ : r.actors[i]? = some actor) (standing : actor.session.phase = .dialing → ∀ ok, act ≠ .answer ok)
      (moves : Moves job.plan r.common actor.session act common session) :
      Steps job needed r (.session i act) { r with
        common := common
        conns := parkClosed r.conns actor.session session
        actors := r.actors.set i { actor with session := session }
        log := noteErrand r.log (errand job.plan r.common actor.session act) }
  | shaken {i : Nat} {actor : Actor A B} {remote : Option A} {common : Common A B} {session : Session A B}
      (at_ : r.actors[i]? = some actor) (dialing : actor.session.phase = .dialing)
      (moves : Moves job.plan r.common actor.session (.answer (decide (remote = some actor.session.overlay))) common session) :
      Steps job needed r (.handshake i remote) { r with
        common := common
        actors := r.actors.set i { actor with
          session := session
          remote := if decide (remote = some actor.session.overlay) then remote else none }
        opened := if decide (remote = some actor.session.overlay) then r.opened + 1 else r.opened }
  | sampled (windDown : Bool) (prev : Nat × Nat) (sampleAt : Nat) :
      Steps job needed r .sample { r with
        common := { r.common with windDown := windDown }
        prev := prev
        sampleAt := sampleAt }
  | refilled {main : Main} (at_ : r.main = .refilling) (next : main = .choosing ∨ main = .joining) :
      Steps job needed r .refill { r with main := main }
  | exhausted {early late : Nat → Nat} {order : List Nat} {known : Option Known} {beneficiary : B} {dispatch : Dispatch M A}
      (at_ : r.main = .choosing) (chosen : r.dispatch.next early late order = (none,dispatch)) :
      Steps job needed r (.dispatch early late order known beneficiary) { r with dispatch := dispatch, main := .joining }
  | dispatched {early late : Nat → Nat} {order : List Nat} {known : Option Known} {beneficiary : B} {dispatch : Dispatch M A}
      {storer : Selected M A} {rate : Nat} (at_ : r.main = .choosing)
      (chosen : r.dispatch.next early late order = (some (storer,rate),dispatch)) :
      Steps job needed r (.dispatch early late order known beneficiary)
        (connect job { r with dispatch := dispatch } storer rate known beneficiary)
  | joined {i : Nat} {actor : Actor A B} {residual : Nat} {observed : Option Observation} {parked : Bool}
      (at_ : r.main = .joining) (there : r.actors[i]? = some actor)
      (closed : actor.session.phase = .closed residual observed parked) :
      Steps job needed r (.join i) { r with
        residual := wrapAdd r.residual residual
        dispatch := r.dispatch.done actor.prefix_ actor.rate
        actors := r.actors.set i { actor with joined := true }
        main := .refilling }
  | dropped {stranded : List A} (at_ : r.main = .joining) (none_ : (inflight r).isEmpty = true)
      (all : stranded.Perm (drainAll r.common.pool)) (mode : job.directOnly = true) :
      Steps job needed r (.drain stranded) { r with
        common := { r.common with pool := ∅ }
        dropped := r.dropped + stranded.length
        main := .awaiting
        log := { r.log with dropped := stranded ++ r.log.dropped } }
  | stranded {stranded : List A} (at_ : r.main = .joining) (none_ : (inflight r).isEmpty = true)
      (all : stranded.Perm (drainAll r.common.pool)) (mode : job.directOnly = false) :
      Steps job needed r (.drain stranded) { r with
        common := send { r.common with pool := ∅ } stranded
        main := .awaiting }
  | passedOn {addr : A} (head : r.common.sent[r.received]? = some addr) (there : addr ∈ r.common.stored) :
      Steps job needed r .receive { r with received := r.received + 1, log := { r.log with passed := addr :: r.log.passed } }
  | forwarding {addr : A} (head : r.common.sent[r.received]? = some addr) (absent : addr ∉ r.common.stored) :
      Steps job needed r .receive { r with received := r.received + 1, forwards := r.forwards ++ [.fetching addr] }
  | forwarded {k : Nat} {stored : Bool} {why : List Char} {addr : A} (at_ : r.forwards[k]? = some (.fetching addr)) :
      Steps job needed r (.forward k true stored why) { r with
        common := { r.common with stored := if stored then insert addr r.common.stored else r.common.stored }
        forwards := r.forwards.set k .done
        forwarded := r.forwarded + 1
        log := { r.log with forwarded := addr :: r.log.forwarded } }
  | unserved {k : Nat} {stored : Bool} {why : List Char} {addr : A} (at_ : r.forwards[k]? = some (.fetching addr)) :
      Steps job needed r (.forward k false stored why) { r with
        forwards := r.forwards.set k (.failed addr why)
        log := { r.log with failed := addr :: r.log.failed } }
  | collected {k : Nat} {forward : Forward A} (fails : List (List Char)) (at_ : r.forwards[k]? = some forward)
      (finished : ∀ addr, forward ≠ .fetching addr) :
      Steps job needed r (.collect k) { r with forwards := r.forwards.eraseIdx k, fails := fails }
  | reported {flushed : Bool} {result : Except FetchError ScheduleReport} (at_ : r.main = .awaiting)
      (received : r.received = r.common.sent.length) (idle : r.forwards = [])
      (outcome : result = if flushed = false then .error .flush
        else if r.opened = 0 ∧ r.selectedWasEmpty = false then .error (.message noConnection)
        else .ok (reportOf job needed r)) :
      Steps job needed r (.report flushed) { r with main := .returned result }
  | parkedChange {move : Move A B} (conns : ConnPool A B) : Steps job needed r move { r with conns := conns }

section Inversion
variable {job : Job M A} {needed : List A} {r r' : Run M A B}

omit [DecidableEq B] in
theorem channelClosed_iff : channelClosed r = true ↔ r.main = .awaiting := by
  unfold channelClosed
  split
  · next at_ => simp [at_]
  · next other => simpa using other

theorem mainStep_steps {move : Move A B} (taken : mainStep job r move = some r') : Steps job needed r move r' := by
  unfold mainStep at taken
  split at taken
  · split at taken
    · next at_ =>
      split at taken
      · cases taken; exact .refilled at_ (.inl rfl)
      · cases taken; exact .refilled at_ (.inr rfl)
    · cases taken
  · split at taken
    · next at_ =>
      simp only at taken
      split at taken
      · split at taken
        · next chosen => cases taken; exact .exhausted at_ chosen
        · next chosen => cases taken; exact .dispatched at_ chosen
      · cases taken
    · cases taken
  · split at taken
    · next at_ there =>
      split at taken
      · next closed =>
        split at taken
        · cases taken
        · cases taken; exact .joined at_ there closed
      · cases taken
    · cases taken
  · split at taken
    · next at_ =>
      split at taken
      · next empty =>
        split at taken
        · next mode => cases taken; exact .dropped at_ empty.1 empty.2 mode
        · next mode => cases taken; exact .stranded at_ empty.1 empty.2 (Bool.not_eq_true _ ▸ mode)
      · cases taken
    · cases taken
  · cases taken

theorem workerStep_steps {move : Move A B} (taken : workerStep job r move = some r') : Steps job needed r move r' := by
  unfold workerStep at taken
  split at taken
  · split at taken
    · split at taken
      · cases taken
      · next head =>
        split at taken
        · next there => cases taken; exact .passedOn head there
        · next absent => cases taken; exact .forwarding head absent
    · cases taken
  · split at taken
    · next at_ =>
      split at taken
      · next ok => cases taken; cases ok; exact .forwarded at_
      · next ok => cases taken; rw [Bool.not_eq_true] at ok; cases ok; exact .unserved at_
    · cases taken
  · split at taken
    · split at taken
      · next at_ => cases taken; exact .collected _ at_ nofun
      · next at_ => cases taken; exact .collected _ at_ nofun
      · cases taken
    · cases taken
  · cases taken

theorem reportStep_steps {flushed : Bool} (taken : reportStep job needed r flushed = some r') :
    Steps job needed r (.report flushed) r' := by
  unfold reportStep at taken
  split at taken
  · next ended =>
    obtain ⟨closed,received,idle⟩ := ended
    have at_ := channelClosed_iff.mp closed
    split at taken
    · next unflushed => cases taken; exact .reported at_ received idle (by simp_all)
    · next whole =>
      split at taken
      · next cold => cases taken; exact .reported at_ received idle (by simp_all)
      · next fine => cases taken; exact .reported at_ received idle (by simp_all)
  · cases taken

theorem step_steps {move : Move A B} (taken : step job needed r move = some r') : Steps job needed r move r' := by
  unfold step at taken
  split at taken
  · cases taken; exact .passed
  · split at taken
    · cases taken
    · next actor at_ =>
      split at taken
      · cases taken
      · next act other =>
        obtain ⟨moved,moves,rfl⟩ := Option.map_eq_some_iff.mp taken
        refine .acted at_ (fun dialing ok same => ?_) (step_moves moves)
        exact other ok (by rw [dialing]; rfl) same
  · obtain ⟨actor,at_,taken⟩ := Option.bind_eq_some_iff.mp taken
    unfold handshakeStep at taken
    split at taken
    · next dials =>
      obtain ⟨moved,moves,rfl⟩ := Option.map_eq_some_iff.mp taken
      refine .shaken at_ ?_ (step_moves moves)
      unfold isDialing at dials
      split at dials
      · assumption
      · cases dials
    · cases taken
  · unfold sampleStep at taken
    split at taken
    · cases taken; exact .sampled _ _ _
    · cases taken
  · exact reportStep_steps taken
  · unfold parkedStep at taken
    split at taken
    · cases taken
    · cases taken; exact .parkedChange _
  · unfold parkedStep at taken
    split at taken
    · cases taken
    · cases taken; exact .parkedChange _
  · rcases Option.or_eq_some_iff.mp taken with main | ⟨-,worker⟩
    · exact mainStep_steps main
    · exact workerStep_steps worker

end Inversion

end Directswarm.Scheduler
