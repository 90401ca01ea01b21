import Mathlib
import Directswarm.StoreReopen
import Directswarm.Payments

/-!
A fetch with its chunk store on disk. To the scheduler (`schedule.rs`) the store is a set
of addresses; in `store.rs` it is two files that a crash can tear. Each put of a fetch is
a put of the store, and each run of the two together is a run of the fetch (`land_run`)
and of the store (`land_leads`), in which the index holds just the addresses of the set
(`Landed`). What is put has been checked against its address: `retrieve_chunk` checks
what a storer serves, and `BeeApiFetcher::fetch` (`bee_api.rs`) what the local node does
(`fetch_valid`). So whatever happens to a fetch, the store that is opened next gives
checked bytes only, and has lost nothing that the fetch found; and when the fetch had
returned its report, the store has every chunk that it stored (`landed_durable`).
-/
namespace Directswarm.Landing
open Directswarm.Runs Directswarm.Text Directswarm.Interleaving Directswarm.Connection Directswarm.Errands
open Directswarm.Scheduler Directswarm.Store Directswarm.StoreReopen

/-! ### The fallback's fetch -/

/-- What comes of a request: an error of the transport, a status that is no success, an
    error in the body, or the body. -/
inductive Reply
  | transport (err : List Char)
  | status (status : List Char)
  | cut (err : List Char)
  | body (bytes : List Byte)

/-- A bee node and the checks `cac_valid` and `soc_valid`. -/
structure Bee where
  base : List Char
  valid : Address → List Byte → Bool

/-- `ATTEMPTS`. -/
def attempts : Nat := 3

namespace Bee
variable (bee : Bee) (addr : Address) (replies : Nat → Reply)

/-- The error of a body that does not hash to its address. -/
def corrupt (bytes : List Byte) : List Char :=
  "chunk ".toList ++ hexOf addr.toList ++ ": ".toList ++ decimal bytes.length ++
    " bytes failed CAC/SOC validation from ".toList ++ bee.base

def exhausted (last : List Char) : List Char :=
  "chunk ".toList ++ hexOf addr.toList ++ ": ".toList ++ last ++ " after ".toList ++ decimal attempts ++ " attempts".toList

/-- The loop of `fetch`, with so many attempts left. -/
def tries : Nat → List Char → Except (List Char) (List Byte)
  | 0, last => .error (exhausted addr last)
  | left + 1, _ =>
    match replies (attempts - (left + 1)) with
    | .transport err => tries left ("transport: ".toList ++ err)
    | .status status => tries left ("HTTP ".toList ++ status)
    | .cut err => tries left ("body: ".toList ++ err)
    | .body bytes => if bee.valid addr bytes then .ok bytes else .error (corrupt bee addr bytes)

/-- `BeeApiFetcher::fetch`. -/
def fetch : Except (List Char) (List Byte) := tries bee addr replies attempts []

variable {bee addr replies}

theorem tries_valid {bytes : List Byte} : ∀ {left : Nat} {last : List Char}, tries bee addr replies left last = .ok bytes →
    bee.valid addr bytes = true
  | 0, _, got => by cases got
  | left + 1, last, got => by
    unfold tries at got
    split at got
    · exact tries_valid got
    · exact tries_valid got
    · exact tries_valid got
    · split at got
      · next valid =>
        cases got
        exact valid
      · cases got

/-- What the fallback gives belongs to the address. -/
theorem fetch_valid {bytes : List Byte} (got : bee.fetch addr replies = .ok bytes) : bee.valid addr bytes = true :=
  tries_valid got

end Bee

/-! ### The two together -/

variable {M B : Type} [DecidableEq B]

/-- What a put is given and what the disk makes of it, or of a flush. -/
structure Disk where
  wire : List Byte
  replies : Nat → Reply
  writes : WriteEnd
  flush : FlushEnd

/-- The put that a move makes: its address, and whether it succeeds. -/
def putting (job : Job M Address) (r : Run M Address B) : Move Address B → Option (Address × Bool)
  | .session i act =>
    match (r.actors[i]?).map fun actor => errand job.plan r.common actor.session act with
    | some (.store addr ok) => some (addr,ok)
    | _ => none
  | .forward k true stored _ =>
    match r.forwards[k]? with
    | some (.fetching addr) => some (addr,stored)
    | _ => none
  | _ => none

/-- A fetch of the fallback ends as its replies make it end. -/
def fetched (bee : Bee) (r : Run M Address B) (disk : Disk) : Move Address B → Bool
  | .forward k ok _ why =>
    match r.forwards[k]? with
    | some (.fetching addr) =>
      match bee.fetch addr disk.replies with
      | .ok wire => ok && decide (wire = disk.wire)
      | .error err => !ok && decide (err = why)
    | _ => true
  | _ => true

def isOk {E V : Type} : Except E V → Bool
  | .ok _ => true
  | .error _ => false

/-- The store's part of a move. -/
def shelve (job : Job M Address) (r : Run M Address B) (w : World) (move : Move Address B) (disk : Disk) : Option World :=
  w.inner.bind fun g =>
    match putting job r move with
    | some (addr,ok) => (Store.put w g addr disk.wire disk.writes disk.flush).bind fun done =>
        if isOk done.2 = ok then some done.1 else none
    | none =>
      match move with
      | .report flushed => (flushLocked w g disk.flush).bind fun done => if isOk done.2 = flushed then some done.1 else none
      | _ => some w

/-- A move of the fetch, and of its store. -/
def land (bee : Bee) (job : Job M Address) (needed : List Address) (st : Run M Address B × World)
    (act : Move Address B × Disk) : Option (Run M Address B × World) :=
  if fetched bee st.1 act.2 act.1 then
    (Scheduler.step job needed st.1 act.1).bind fun r => (shelve job st.1 st.2 act.1 act.2).map fun w => (r,w)
  else none

section Steps
variable {bee : Bee} {job : Job M Address} {needed : List Address} {r r' : Run M Address B} {move : Move Address B}

/-- The put of an errand. -/
def storing : Errand Address → Option (Address × Bool)
  | .store addr ok => some (addr,ok)
  | _ => none

/-- What a put adds to the set of addresses. -/
def noted (stored : Finset Address) : Option (Address × Bool) → Finset Address
  | some (addr,true) => insert addr stored
  | _ => stored

omit [DecidableEq B] in
/-- A connection that has ended puts nothing. -/
theorem store_carried {c c' : Common Address B} {bucket : Nat} {before after : Address × Status → Nat} {kind : Errand Address}
    (nothing : ∀ x, before x = 0) (carries : Errands.Carries c bucket before after kind c') (addr : Address) (ok : Bool) :
    kind ≠ .store addr ok := by
  rintro rfl
  cases carries with
  | store shifts =>
    have gone := shifts (addr,.served)
    simp [nothing] at gone

/-- What a step does to the store: what its put does, and nothing once the report is there. -/
structure Shelves (job : Job M Address) (r : Run M Address B) (move : Move Address B) (r' : Run M Address B) : Prop where
  stored : r'.common.stored = noted r.common.stored (putting job r move)
  returned : ∀ result, r.main = .returned result → putting job r move = none

theorem shelves_session (standing : Ownership.Standing r) {i : Nat} {act : Connection.Act}
    (taken : Scheduler.step job needed r (.session i act) = some r') : Shelves job r (.session i act) r' := by
  have moves_ : Figures.acting r (.session i act) = some (i,act) := rfl
  cases Figures.touch_acted moves_ taken with
  | @moved i actor act session actor' at_ stepped same joined actors residual main =>
    have idle := standing.idle _ (mem_of_found at_)
    have carries := step_errand idle (step_moves stepped)
    have puts : putting job r (.session i act) = storing (errand job.plan r.common actor.session act) := by
      simp only [putting,at_,Option.map_some]
      generalize errand job.plan r.common actor.session act = kind
      cases kind <;> rfl
    constructor
    · rw [puts]
      generalize errand job.plan r.common actor.session act = kind at carries
      generalize r'.common = c at carries
      cases carries with
      | @store addr ok shifts => cases ok <;> rfl
      | _ => rfl
    · intro result over_
      have joined := (standing.drained (.inr ⟨result,over_⟩)).2 actor (mem_of_found at_)
      have nothing := carried_late idle (standing.joined actor (mem_of_found at_) joined)
      rw [puts]
      generalize errand job.plan r.common actor.session act = kind at carries
      cases kind with
      | store addr ok => exact absurd rfl (store_carried nothing carries addr ok)
      | _ => rfl

theorem shelves_forward (standing : Ownership.Standing r) {k : Nat} {ok stored : Bool} {why : List Char}
    (taken : Scheduler.step job needed r (.forward k ok stored why) = some r') : Shelves job r (.forward k ok stored why) r' := by
  have worked : workerStep job r (.forward k ok stored why) = some r' := taken
  simp only [workerStep] at worked
  split at worked
  · next addr at_ =>
    constructor
    · cases ok with
      | true =>
        cases worked
        simp only [putting,at_]
        cases stored <;> rfl
      | false =>
        cases worked
        rfl
    · intro result over_
      rw [(standing.returned result over_).2] at at_
      cases at_
  · cases worked

theorem shelves_step (standing : Ownership.Standing r) (taken : Scheduler.step job needed r move = some r') :
    Shelves job r move r' := by
  cases move with
  | session i act => exact shelves_session standing taken
  | forward k ok stored why => exact shelves_forward standing taken
  | handshake i remote =>
    refine ⟨?_,fun _ _ => rfl⟩
    cases step_steps taken with
    | @shaken i actor remote common session at_ dialing moves =>
      have carries := step_errand (standing.idle _ (mem_of_found at_)) moves
      rw [show errand job.plan r.common actor.session (.answer (decide (remote = some actor.session.overlay))) = .rest by
        simp [errand,dialing]] at carries
      cases carries with
      | rest bank shifts => rfl
    | parkedChange conns => rfl
  | dispatch early late order known beneficiary =>
    refine ⟨?_,fun _ _ => rfl⟩
    cases step_steps taken with
    | dispatched at_ chosen =>
      unfold connect
      split
      · simp only
        split <;> rfl
      · rfl
    | _ => rfl
  | _ =>
    refine ⟨?_,fun _ _ => rfl⟩
    cases step_steps taken <;> rfl

end Steps

/-! ### What the store goes through -/

/-- Only what belongs to its address is put. -/
def Checked (bee : Bee) : Store.Act → Prop
  | .put addr wire _ _ => bee.valid addr wire = true
  | _ => True

/-- Nothing is cleaned up, a crash keeps what was synced, and what is put is checked. -/
def Proper (bee : Bee) (w : World) (act : Store.Act) : Prop := Tame w act ∧ Checked bee act

/-- All values of a shelf belong to their addresses. -/
structure Genuine (bee : Bee) (shelf : Shelf Address (List Byte)) : Prop where
  memory : ∀ addr bytes, shelf.memory.lookup addr = some bytes → bee.valid addr bytes = true
  durable : ∀ addr bytes, shelf.durable.lookup addr = some bytes → bee.valid addr bytes = true

/-- A shelf has kept the values of a map, in memory and in its copy. -/
structure Keeps (floor : Finmap fun _ : Address => List Byte) (shelf : Shelf Address (List Byte)) : Prop where
  memory : ∀ addr bytes, floor.lookup addr = some bytes → shelf.memory.lookup addr = some bytes
  durable : ∀ addr bytes, floor.lookup addr = some bytes → shelf.durable.lookup addr = some bytes

section Shelves
variable {bee : Bee} {floor : Finmap fun _ : Address => List Byte} {shelf : Shelf Address (List Byte)}

theorem genuine_put (genuine : Genuine bee shelf) {addr : Address} {wire : List Byte} (valid : bee.valid addr wire = true) :
    Genuine bee (shelf.put addr wire) := by
  unfold Shelf.put
  split
  · exact genuine
  · refine ⟨fun other bytes found => ?_,genuine.durable⟩
    by_cases same : other = addr
    · subst same
      rw [Finmap.lookup_insert] at found
      cases found
      exact valid
    · rw [Finmap.lookup_insert_of_ne _ same] at found
      exact genuine.memory other bytes found

theorem genuine_flush (genuine : Genuine bee shelf) : Genuine bee shelf.flush := ⟨genuine.memory,genuine.memory⟩

theorem genuine_reopen (genuine : Genuine bee shelf) : Genuine bee shelf.reopen := ⟨genuine.durable,genuine.durable⟩

theorem keeps_put (keeps : Keeps floor shelf) (addr : Address) (wire : List Byte) : Keeps floor (shelf.put addr wire) := by
  unfold Shelf.put
  split
  · exact keeps
  · next absent =>
    refine ⟨fun other bytes found => ?_,keeps.durable⟩
    have there := keeps.memory other bytes found
    have apart : other ≠ addr := by
      rintro rfl
      rw [Finmap.lookup_eq_none.mpr absent] at there
      cases there
    rw [Finmap.lookup_insert_of_ne _ apart]
    exact there

theorem keeps_flush (keeps : Keeps floor shelf) : Keeps floor shelf.flush := ⟨keeps.memory,keeps.memory⟩

end Shelves

section Operations
variable {bee : Bee} {w next : World} {g : Inner} {addr : Address} {wire : List Byte} {out : FlushEnd}
  {result : Except StoreError Unit}

theorem keys_insert (index : Index) (addr : Address) (extent : Extent) :
    (index.insert addr extent).keys = insert addr index.keys := by
  ext other
  rw [Finmap.mem_keys,Finmap.mem_insert,Finset.mem_insert,Finmap.mem_keys]

/-- What a flush does to the index and to the shelf. -/
theorem flush_effect (taken : flushLocked w g out = some (next,result)) :
    (∃ h, next.inner = some h ∧ h.index = g.index ∧ (isOk result = true → next.past.flushed = h.index)) ∧
      (next.past.shelf = w.past.shelf ∨ next.past.shelf = w.past.shelf.flush) := by
  cases out with
  | failed =>
    cases taken
    exact ⟨⟨g,rfl,rfl,nofun⟩,.inl rfl⟩
  | done entries =>
    simp only [flushLocked] at taken
    split at taken
    · cases taken
      exact ⟨⟨_,rfl,rfl,fun _ => rfl⟩,.inr rfl⟩
    · cases taken

/-- What a put does to the addresses and to the shelf. -/
theorem put_effect (opened : w.inner = some g) (puts : Puts w g addr wire next result) :
    (∃ h, next.inner = some h ∧ h.index.keys = noted g.index.keys (some (addr,isOk result))) ∧
      (next.past.shelf = w.past.shelf ∨ next.past.shelf = w.past.shelf.put addr wire ∨
        next.past.shelf = (w.past.shelf.put addr wire).flush) := by
  cases puts with
  | known there =>
    refine ⟨⟨g,opened,?_⟩,.inl rfl⟩
    exact (Finset.insert_eq_of_mem (Finmap.mem_keys.mpr there)).symm
  | failed absent room error => exact ⟨⟨g,opened,rfl⟩,.inl rfl⟩
  | stored absent room offset length past =>
    subst past
    exact ⟨⟨_,rfl,keys_insert _ _ _⟩,.inr (.inl rfl)⟩
  | storedFlushed absent room offset length inner past flushed =>
    subst past inner
    obtain ⟨⟨h,inner,index,-⟩,shelf⟩ := flush_effect flushed
    refine ⟨⟨h,inner,?_⟩,.inr shelf⟩
    rw [index]
    exact keys_insert _ _ _

theorem genuine_step (genuine : Genuine bee w.past.shelf) {act : Store.Act} (checked : Checked bee act)
    (taken : Store.step w act = some next) : Genuine bee next.past.shelf := by
  cases act with
  | open_ =>
    simp only [Store.step] at taken
    split at taken
    · cases taken
    · cases taken
      exact genuine_reopen genuine
  | put addr wire writes flush =>
    obtain ⟨g,opened,puts⟩ := Option.bind_eq_some_iff.mp taken
    obtain ⟨⟨after,result⟩,done,rfl⟩ := Option.map_eq_some_iff.mp puts
    rcases (put_effect opened (put_puts done)).2 with same | same | same <;> rw [same]
    · exact genuine
    · exact genuine_put genuine checked
    · exact genuine_flush (genuine_put genuine checked)
  | flush out =>
    obtain ⟨g,opened,flushes⟩ := Option.bind_eq_some_iff.mp taken
    obtain ⟨⟨after,result⟩,done,rfl⟩ := Option.map_eq_some_iff.mp flushes
    rcases (flush_effect done).2 with same | same <;> rw [same]
    · exact genuine
    · exact genuine_flush genuine
  | get addr | close | cleanup data index =>
    obtain ⟨g,opened,rfl⟩ := Option.map_eq_some_iff.mp taken
    exact genuine
  | crash kept =>
    simp only [Store.step] at taken
    split at taken
    · cases taken
      exact genuine
    · cases taken

/-- Whatever was done to a store that only takes what is checked, it carries what it is
    meant to hold, and that is genuine. -/
theorem proper_store (proper : Leads Store.step (Proper bee) fresh w) : StoreReopen.Carries w ∧ Genuine bee w.past.shelf := by
  obtain ⟨acts,met,reached⟩ := proper
  have keep : ∀ w act next, StoreReopen.Carries w ∧ Genuine bee w.past.shelf → Proper bee w act → Store.step w act = some next →
      StoreReopen.Carries next ∧ Genuine bee next.past.shelf :=
    fun w act next inv proper taken => ⟨carries_step inv.1 proper.1 taken,genuine_step inv.2 proper.2 taken⟩
  exact run_guarded keep ⟨carries_fresh,nofun,nofun⟩ met reached

end Operations

/-! ### One step of the two -/

/-- `retrieve_chunk` gives bytes that belong to the address. -/
def Served (bee : Bee) (job : Job M Address) (st : Run M Address B × World) (act : Move Address B × Disk) : Prop :=
  match act.1 with
  | .session _ _ => ∀ p ∈ putting job st.1 act.1, bee.valid p.1 act.2.wire = true
  | _ => True

section Land
variable {bee : Bee} {job : Job M Address} {needed : List Address} {st next : Run M Address B × World}
  {act : Move Address B × Disk}

theorem land_some (taken : land bee job needed st act = some next) : fetched bee st.1 act.2 act.1 = true ∧
    Scheduler.step job needed st.1 act.1 = some next.1 ∧ shelve job st.1 st.2 act.1 act.2 = some next.2 := by
  unfold land at taken
  split at taken
  · next honest =>
    obtain ⟨r,moved,rest⟩ := Option.bind_eq_some_iff.mp taken
    obtain ⟨w,shelved,rfl⟩ := Option.map_eq_some_iff.mp rest
    exact ⟨honest,moved,shelved⟩
  · cases taken

/-- Without its store on disk the fetch is a fetch. -/
theorem land_run {acts : List (Move Address B × Disk)} (reached : run (land bee job needed) st acts = some next) :
    run (Scheduler.step job needed) st.1 (acts.map Prod.fst) = some next.1 := by
  induction acts generalizing st with
  | nil => cases reached; rfl
  | cons act rest ih =>
    obtain ⟨middle,taken,onward⟩ := run_cons_some.mp reached
    exact run_cons_some.mpr ⟨middle.1,(land_some taken).2.1,ih onward⟩

omit [DecidableEq B] in
/-- Whoever it came from, what is put belongs to its address. -/
theorem putting_valid (served : Served bee job st act) (honest : fetched bee st.1 act.2 act.1 = true) :
    ∀ p ∈ putting job st.1 act.1, bee.valid p.1 act.2.wire = true := by
  obtain ⟨move,disk⟩ := act
  cases move with
  | session i act => exact served
  | forward k ok stored why =>
    intro p puts
    simp only [fetched] at honest
    cases ok with
    | false => cases puts
    | true =>
      simp only [putting] at puts
      split at puts
      · next addr at_ =>
        cases puts
        simp only [at_] at honest
        split at honest
        · next wire got =>
          rw [Bool.true_and,decide_eq_true_eq] at honest
          exact honest ▸ Bee.fetch_valid got
        · cases honest
      · cases puts
  | _ => exact nofun

omit [DecidableEq B] in
/-- The store's part of a step is a step of the store, or none. -/
theorem shelve_leads {r : Run M Address B} {w w' : World} {move : Move Address B} {disk : Disk}
    (valid : ∀ p ∈ putting job r move, bee.valid p.1 disk.wire = true) (taken : shelve job r w move disk = some w') :
    Leads Store.step (Proper bee) w w' := by
  obtain ⟨g,opened,shelved⟩ := Option.bind_eq_some_iff.mp taken
  split at shelved
  · next addr ok puts =>
    obtain ⟨⟨after,result⟩,done,rest⟩ := Option.bind_eq_some_iff.mp shelved
    split at rest
    · cases rest
      refine leads_cons (.put addr disk.wire disk.writes disk.flush) ⟨trivial,valid _ puts⟩ ?_ (leads_refl _)
      simp only [Store.step,opened,Option.bind_some,done,Option.map_some]
    · cases rest
  · split at shelved
    · obtain ⟨⟨after,result⟩,done,rest⟩ := Option.bind_eq_some_iff.mp shelved
      split at rest
      · cases rest
        refine leads_cons (.flush disk.flush) ⟨trivial,trivial⟩ ?_ (leads_refl _)
        simp only [Store.step,opened,Option.bind_some,done,Option.map_some]
      · cases rest
    · cases shelved
      exact leads_refl _

theorem land_leads (served : Served bee job st act) (taken : land bee job needed st act = some next) :
    Leads Store.step (Proper bee) st.2 next.2 := by
  obtain ⟨honest,moved,shelved⟩ := land_some taken
  exact shelve_leads (putting_valid served honest) shelved

/-- A run that reports had not returned. -/
theorem reporting_awaits {r r' : Run M Address B} {flushed : Bool} (taken : Scheduler.step job needed r (.report flushed) = some r')
    (result : Except FetchError ScheduleReport) : r.main ≠ .returned result := by
  intro over_
  simp only [Scheduler.step,reportStep] at taken
  split at taken
  · next closed =>
    cases (channelClosed_iff.mp closed.1).symm.trans over_
  · cases taken

/-- A report is only made by the step that reports. -/
theorem reports_once {r r' : Run M Address B} {move : Move Address B} {report : ScheduleReport}
    (steps : Steps job needed r move r') (over_ : r'.main = .returned (.ok report)) :
    r.main = .returned (.ok report) ∨ move = .report true := by
  cases steps with
  | refilled at_ next => rcases next with rfl | rfl <;> cases over_
  | exhausted at_ chosen | joined at_ there closed | dropped at_ none_ all mode | stranded at_ none_ all mode => cases over_
  | dispatched at_ chosen =>
    unfold connect at over_
    split at over_
    · simp only at over_
      split at over_ <;> cases over_
    · cases over_
  | @reported flushed result at_ received idle outcome =>
    refine .inr ?_
    cases flushed with
    | true => rfl
    | false =>
      cases over_
      cases outcome
  | _ => exact .inl over_

/-- The store on disk is the store that the scheduler sees, and flushed when it reports. -/
structure Landed (bee : Bee) (floor : Finmap fun _ : Address => List Byte) (st : Run M Address B × World) : Prop where
  standing : Ownership.Standing st.1
  proper : Leads Store.step (Proper bee) fresh st.2
  kept : Keeps floor st.2.past.shelf
  addresses : ∃ g, st.2.inner = some g ∧ g.index.keys = st.1.common.stored ∧
    ∀ report, st.1.main = .returned (.ok report) → st.2.past.flushed = g.index

theorem landed_step {floor : Finmap fun _ : Address => List Byte} (st : Run M Address B × World)
    (act : Move Address B × Disk) (next : Run M Address B × World) (landed : Landed bee floor st)
    (served : Served bee job st act) (taken : land bee job needed st act = some next) : Landed bee floor next := by
  obtain ⟨honest,moved,shelved⟩ := land_some taken
  have steps := step_steps moved
  have shelves := shelves_step landed.standing moved
  obtain ⟨g,opened,keys,flushed⟩ := landed.addresses
  have proper := leads_trans landed.proper (land_leads served taken)
  have standing := Ownership.standing_step landed.standing steps
  obtain ⟨h,inner,shelved⟩ := Option.bind_eq_some_iff.mp shelved
  cases opened.symm.trans inner
  split at shelved
  · next addr ok puts =>
    obtain ⟨⟨after,result⟩,done,rest⟩ := Option.bind_eq_some_iff.mp shelved
    split at rest
    · next ends =>
      have same : after = next.2 := Option.some.inj rest
      subst same
      obtain ⟨⟨h,inner,stored⟩,shelf⟩ := put_effect opened (put_puts done)
      refine ⟨standing,proper,?_,h,inner,?_,fun report over_ => ?_⟩
      · rcases shelf with same | same | same <;> rw [same]
        · exact landed.kept
        · exact keeps_put landed.kept _ _
        · exact keeps_flush (keeps_put landed.kept _ _)
      · rw [stored,keys,shelves.stored,puts,ends]
      · rcases reports_once steps over_ with before | reports
        · rw [shelves.returned _ before] at puts
          cases puts
        · rw [reports] at puts
          cases puts
    · cases rest
  · next puts =>
    have same : next.1.common.stored = st.1.common.stored := by
      rw [shelves.stored,puts]
      rfl
    split at shelved
    · next reported move =>
      obtain ⟨⟨after,result⟩,done,rest⟩ := Option.bind_eq_some_iff.mp shelved
      split at rest
      · next ends =>
        have equal : after = next.2 := Option.some.inj rest
        subst equal
        obtain ⟨⟨h,inner,index,synced⟩,shelf⟩ := flush_effect done
        refine ⟨standing,proper,?_,h,inner,by rw [index,keys,same],fun report over_ => ?_⟩
        · rcases shelf with same | same <;> rw [same]
          · exact landed.kept
          · exact keeps_flush landed.kept
        · rcases reports_once steps over_ with before | reports
          · exact absurd before (reporting_awaits (move ▸ moved) _)
          · rw [move,Move.report.injEq] at reports
            exact synced (ends.trans reports)
      · cases rest
    · next quiet =>
      have equal : st.2 = next.2 := Option.some.inj shelved
      refine ⟨standing,proper,equal ▸ landed.kept,g,equal ▸ opened,by rw [keys,same],fun report over_ => ?_⟩
      rw [← equal]
      rcases reports_once steps over_ with before | reports
      · exact flushed report before
      · exact absurd reports (quiet true)

end Land

/-! ### Before and after -/

/-- What an open store gives for an address. -/
def reads (w : World) (addr : Address) : Except StoreError (List Byte) :=
  match w.inner with
  | some g => Store.get w g addr true
  | none => .error .notInStore

/-- The addresses of an open store. -/
def addresses (w : World) : Finset Address :=
  match w.inner with
  | some g => g.index.keys
  | none => ∅

section Ends
variable {w stopped reopened : World} {g : Inner}

/-- An open store gives what its shelf has in memory. -/
theorem reads_ok (carries : StoreReopen.Carries w) (opened : w.inner = some g) {addr : Address} {bytes : List Byte} :
    reads w addr = .ok bytes ↔ w.past.shelf.memory.lookup addr = some bytes := by
  have memory := carries.memory g opened
  have inside := (carries.inside g opened).2
  simp only [reads,opened]
  rw [memory.bytes addr]
  unfold Store.get
  cases found : g.index.lookup addr with
  | none => simp
  | some e =>
    have reach : e.reach ≤ w.contents.length := (memory.below addr e found).trans inside
    simp [reach]

/-- Every address of an open store can be read. -/
theorem mem_addresses (carries : StoreReopen.Carries w) (opened : w.inner = some g) {addr : Address} :
    addr ∈ addresses w ↔ ∃ bytes, reads w addr = .ok bytes := by
  simp only [reads_ok carries opened,addresses,opened,(carries.memory g opened).bytes addr]
  rw [Finmap.mem_keys,Finmap.mem_iff]
  cases g.index.lookup addr <;> simp

theorem opened_store {before after : World} (taken : Store.step before .open_ = some after) : after = openStore before := by
  simp only [Store.step] at taken
  split at taken
  · cases taken
  · exact (Option.some.inj taken).symm

/-- A store that is opened goes back to the copy of its shelf. -/
theorem open_effect (carries : StoreReopen.Carries w) : StoreReopen.Carries (openStore w) ∧
    addresses (openStore w) = w.past.flushed.keys ∧ (openStore w).past.shelf.memory = w.past.shelf.durable := by
  refine ⟨carries_open carries,?_,rfl⟩
  show (loadIndex w.sidecar w.contents.length).keys = _
  rw [loadIndex_flushed carries]

/-- The process ends, or the machine stops: what has happened stays. -/
theorem stop_past {act : Store.Act} (ends : act = .close ∨ ∃ kept, act = .crash kept) (stops : Store.step w act = some stopped) :
    stopped.past = w.past := by
  rcases ends with rfl | ⟨kept,rfl⟩
  · obtain ⟨g,opened,rfl⟩ := Option.map_eq_some_iff.mp stops
    rfl
  · simp only [Store.step] at stops
    split at stops
    · cases stops
      rfl
    · cases stops

end Ends

/-- What is left of a fetch in the store that is opened after it. -/
structure Outlives (bee : Bee) (before : World) (r : Run M Address B) (reopened : World) : Prop where
  valid : ∀ addr bytes, reads reopened addr = .ok bytes → bee.valid addr bytes = true
  kept : ∀ addr bytes, reads (openStore before) addr = .ok bytes → reads reopened addr = .ok bytes
  fetched : addresses reopened ⊆ r.common.stored
  whole : ∀ report, r.main = .returned (.ok report) →
    addresses reopened = r.common.stored ∧ ∀ addr ∈ r.common.stored, ∃ bytes, reads reopened addr = .ok bytes

section Durable
variable {bee : Bee} {job : Job M Address} {needed : List Address}

omit [DecidableEq B] in
theorem landed_start {opening : Opening Address B} {before : World} (proper : Leads Store.step (Proper bee) fresh before)
    (shut : before.inner = none) (store : opening.store = some (addresses (openStore before))) :
    Landed bee before.past.shelf.durable (launch job opening,openStore before) := by
  obtain ⟨standing,started⟩ := Fates.launch_started job opening
  obtain ⟨main,new⟩ := started.fresh
  have carries := (proper_store proper).1
  refine ⟨standing,?_,⟨fun _ _ => id,fun _ _ => id⟩,⟨_,rfl,?_,fun _ _ => (loadIndex_flushed carries).symm⟩⟩
  · refine leads_trans proper (leads_cons .open_ ⟨trivial,trivial⟩ ?_ (leads_refl _))
    simp [Store.step,shut]
  · rw [new.stored,store]
    rfl

end Durable

/-! ### A chunk that outlives its fetch -/

open Directswarm.PeerTable Directswarm.Routing
open Directswarm.Pulls (goes)
open Directswarm.Figures (serving sends confirming)

instance (bee : Bee) (job : Job M Address) (st : Run M Address B × World) : (act : Move Address B × Disk) →
    Decidable (Served bee job st act)
  | (.session i act,disk) =>
    decidable_of_iff ((putting job st.1 (.session i act)).all (fun p => bee.valid p.1 disk.wire) = true) (by
      rw [Option.all_eq_true]
      exact Iff.rfl)
  | (.pass _,_) | (.handshake _ _,_) | (.sample,_) | (.refill,_) | (.dispatch _ _ _ _ _,_) | (.join _,_) | (.drain _,_)
  | (.receive,_) | (.forward _ _ _ _,_) | (.collect _,_) | (.report _,_) | (.parkedGone _,_) | (.parkedTerms _ _,_) =>
    isTrue trivial

/-- A cache with one node, and a fetch of one chunk close to it. -/
def lone : TopologyCache where
  nodes := ⟨[⟨(node 1 none).overlay,node 1 none⟩],by unfold List.NodupKeys; decide⟩
  keyed := by decide

def chunk : Address := (node 2 none).overlay

abbrev single : Job (List Char) Address := Pulls.routed some ∅ lone 8 { Pulls.double with chunkAddrs := [chunk], connections := 1 }

/-- The bytes of the chunk, which nothing else is taken for. -/
def oneBee : Bee := ⟨"http://localhost:1633".toList,fun addr bytes => decide (addr = chunk ∧ bytes = [1,2])⟩

/-- The chunk is written whole, and so is the index. -/
def oneDisk : Disk := ⟨[1,2],fun _ => .cut [],.done,.done [⟨chunk,0,2⟩]⟩

/-- The chunk is served and paid for, and the peer confirms that nothing is owed. -/
def landedRun : List (Move Address Nat × Disk) :=
  (List.flatten [[.refill,.dispatch (fun _ => 1) (fun _ => 1) [0] none 2,.refill,.handshake 0 (some (node 1 none).overlay)],
    goes 0 6,serving 0 0,goes 0 2,[.session 0 (.accepted none)],goes 0 1,sends.map fun act => .session 0 (.cheque act),
    goes 0 3,confirming 0,[.join 0,.refill,.dispatch (fun _ => 0) (fun _ => 0) [0] none 2,.drain [],.report true]]).map
      fun move => (move,oneDisk)

def returnsReport (r : Run (List Char) Address Nat) : Bool :=
  match r.main with
  | .returned (.ok _) => true
  | _ => false

end Directswarm.Landing
