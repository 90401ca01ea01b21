import Mathlib
import Directswarm.Issuance
import Directswarm.Interleaving
import Directswarm.Pacing

/-!
The probe of one storer (`probe_storer` and `settlement_loop`, `direct.rs`), from the
end of the handshake: the main task that spawns a fetch for each chunk, the fetches,
the settlement task, and the tasks that credit a cheque once the peer has had time to
validate it. They take their steps in any order. The accounting crate is a parameter;
the settlement task is alone with the ledger, so a cheque is one step. What was served,
and what the settlement task read of the books, is kept in a log that no code reads.
-/
namespace Directswarm.Probing
open Directswarm.Words Directswarm.Cheques Directswarm.Issuance Directswarm.Pacing

def refreshMinInterval : Nat := 1100 * ms
def settleTick : Nat := 250 * ms
def chequeCreditDelay : Nat := 2500 * ms

/-- `Accounting` of the accounting crate, as it is with one peer. -/
structure Accounting (S : Type) where
  new : S
  debugSnapshot : S → Option (Nat × Nat)
  /-- The reservation is a guard. -/
  tryReserve : S → Nat → Option S
  /-- The guard is applied. -/
  apply : S → Nat → S
  /-- The guard is dropped. -/
  drop : S → Nat → S
  credit : S → Nat → S

/-- Balance and reservations, `(0, 0)` of a peer that is not known yet. -/
def Accounting.snapshot {S : Type} (acct : Accounting S) (s : S) : Nat × Nat := (acct.debugSnapshot s).getD (0,0)

/-- What the probe is given, and what it knows of its peer once the handshake is done. -/
structure Setup (A B S : Type) where
  accounting : Accounting S
  lim : Limits
  beneficiary : B
  pipelineDepth : Nat
  chunks : List A
  /-- `Accounting::peer_price` for the storer. -/
  peerPrice : A → Nat
  /-- The threshold as announced when the pipeline starts. -/
  announced : Option U256
  /-- `hex::encode`. -/
  hex : A → List Char

/-- Half the announced threshold. -/
def reserveCap (announced : Option U256) : Nat :=
  (match announced with
  | none => 1350000
  | some t => if t.val < 2 ^ 64 then t.val else 1350000) / 2

def Setup.reserveCap {A B S : Type} (setup : Setup A B S) : Nat := Probing.reserveCap setup.announced

def Setup.chequeTrigger {A B S : Type} (setup : Setup A B S) : Nat := setup.reserveCap / 2

/-- Where a fetch stands. -/
inductive Stage
  /-- At the head of its loop. -/
  | starting
  /-- The connection was alive; the lock is awaited. -/
  | locking
  /-- The lock is held, and the account was read. -/
  | holding (balance reserved : Nat)
  | pausing (wake : Nat)
  | retrieving (started : Nat)
  /-- The permit is dropped; the result waits to be joined. -/
  | ended (result : Except (List Char) Nat)
  deriving DecidableEq

structure ProbeTask (A : Type) where
  addr : A
  stage : Stage
  deriving DecidableEq

/-- A task that credits a cheque: it sleeps, credits the account, and only then takes
    the units off the pending ones. -/
structure Credit where
  units : Nat
  wake : Nat
  posted : Bool
  deriving DecidableEq

/-- `SettlementSummary`. -/
structure SettlementSummary where
  chequesIssued : Nat
  chequeUnits : Nat
  chequePlur : Nat
  exchangeRate : Option Nat
  refreshesAccepted : Nat
  refreshUnits : Nat
  residualDebtUnits : Nat
  announcedThreshold : Option U256
  deriving DecidableEq

/-- `ProbeReport`, but for what the handshake told. -/
structure ProbeReport where
  chunksOk : Nat
  chunksErr : Nat
  bytes : Nat
  wall : Nat
  latenciesMs : List Nat
  settlement : SettlementSummary
  errors : List (List Char)
  deriving DecidableEq

/-- Where the main task stands. -/
inductive Main
  | spawning
  | joining
  /-- The settlement task is told, and awaited. -/
  | sweeping (wall : Nat)
  | reported (report : ProbeReport)
  deriving DecidableEq

/-- Where `settlement_loop` stands. -/
inductive Settling
  /-- At the select, or asleep when it is finishing. -/
  | selecting (wake : Nat)
  | checking
  /-- The peer has hung up; the balance is read next. -/
  | dying
  | dead (balance : Nat)
  /-- Before the refresh. -/
  | sampling
  | refreshing
  | reading
  /-- The debt was read; the pending units are next. -/
  | weighing (debt : Nat)
  | emitting (units : Nat)
  /-- Finishing, and the balance is read once more. -/
  | closing
  | leaving (balance : Nat)
  | ended
  deriving DecidableEq

/-- What was served and what failed; what was consumed when the balance was last read,
    and what was posted but still pending when the pending units were; and what was
    refreshed and paid by cheque in all. -/
structure Log (A : Type) where
  served : List A
  failed : List A
  seen : Nat
  half : Nat
  refreshed : Nat
  cheques : Nat

structure Probe (A B S : Type) where
  now : Nat
  started : Nat
  alive : Bool
  /-- As the watch channel holds it. -/
  announced : Option U256
  acct : S
  queue : List A
  tasks : List (ProbeTask A)
  bytes : Nat
  latencies : List Nat
  errors : List (List Char)
  main : Main
  settling : Settling
  finishing : Bool
  notified : Bool
  lastRefresh : Option Nat
  summary : SettlementSummary
  /-- `pending_cheque_units`. -/
  pending : Nat
  credits : List Credit
  /-- The ledger and the frames, with `issued_plur` of the settlement task. -/
  bank : Bank B
  log : Log A

/-- What moves a probe. -/
inductive Move (A : Type)
  | pass (ns : Nat)
  | hangUp
  | announce (t : U256)
  | spawn
  | task (k : Nat)
  /-- `retrieve_chunk` returns the length of the chunk, or an error. -/
  | retrieved (k : Nat) (result : Except (List Char) Nat)
  | join (k : Nat)
  | notify
  /-- The select ends: by its tick, by a hint, or because the fetches are done. -/
  | tick
  | hot
  | done
  | go
  | accepted (units : Option (Fin (2 ^ 64)))
  | emit (answers : Answers)
  | credit (k : Nat)
  | report

variable {A B S : Type} [DecidableEq B]

/-- After the handshake. -/
def launch (setup : Setup A B S) (now : Nat) (ledger : Finmap fun _ : B => U256) : Probe A B S where
  now := now
  started := now
  alive := true
  announced := setup.announced
  acct := setup.accounting.new
  queue := setup.chunks
  tasks := []
  bytes := 0
  latencies := []
  errors := []
  main := .spawning
  settling := .selecting (now + settleTick)
  finishing := false
  notified := false
  lastRefresh := none
  summary := ⟨0,0,0,none,0,0,0,none⟩
  pending := 0
  credits := []
  bank := ⟨0,ledger,[]⟩
  log := ⟨[],[],0,0,0,0⟩

def Stage.running : Stage → Bool
  | .ended _ => false
  | _ => true

def Stage.holds : Stage → Bool
  | .holding _ _ => true
  | _ => false

/-- The chunk's price, while it is reserved. -/
def flying (setup : Setup A B S) (task : ProbeTask A) : Nat :=
  match task.stage with
  | .retrieving _ => setup.peerPrice task.addr
  | _ => 0

/-- The text before every error of a fetch. -/
def chunkError (setup : Setup A B S) (addr : A) (why : List Char) : List Char :=
  "chunk ".toList ++ setup.hex addr ++ ": ".toList ++ why

def closedBeforeReserve : List Char := "connection closed before reserve".toList

namespace Probe

def balance (setup : Setup A B S) (p : Probe A B S) : Nat := (setup.accounting.snapshot p.acct).1
def reserved (setup : Setup A B S) (p : Probe A B S) : Nat := (setup.accounting.snapshot p.acct).2

/-- The price of all that was served. -/
def consumed (setup : Setup A B S) (p : Probe A B S) : Nat := (p.log.served.map setup.peerPrice).sum

def setStage (p : Probe A B S) (k : Nat) (addr : A) (stage : Stage) : Probe A B S :=
  { p with tasks := p.tasks.set k ⟨addr,stage⟩ }

/-- A fetch that failed. -/
def fail (setup : Setup A B S) (p : Probe A B S) (k : Nat) (addr : A) (why : List Char) : Probe A B S :=
  { p with
    tasks := p.tasks.set k ⟨addr,.ended (.error (chunkError setup addr why))⟩
    log := { p.log with failed := addr :: p.log.failed } }

/-- What is still to be credited to the account. -/
def unposted (p : Probe A B S) : Nat := Interleaving.total (fun c : Credit => if c.posted then 0 else c.units) p.credits

/-- What is credited, and pending still. -/
def halfPosted (p : Probe A B S) : Nat := Interleaving.total (fun c : Credit => if c.posted then c.units else 0) p.credits

/-- The settlement task goes on after it has or has not sent a cheque. -/
def settled (p : Probe A B S) : Probe A B S :=
  { p with settling := if p.finishing then .closing else .selecting (p.now + settleTick) }

/-- The balance is read. -/
def read (setup : Setup A B S) (p : Probe A B S) (next : Nat → Settling) : Probe A B S :=
  { p with settling := next (p.balance setup), log := { p.log with seen := p.consumed setup } }

/-- The pending units are read. -/
def weigh (p : Probe A B S) : Probe A B S := { p with log := { p.log with half := p.halfPosted } }

/-- Whether a cheque is sent for the debt that no cheque is under way for. -/
def shouldCheque (setup : Setup A B S) (p : Probe A B S) (effectiveDebt : Nat) : Bool :=
  if p.finishing then 0 < effectiveDebt else setup.chequeTrigger ≤ effectiveDebt

/-- The loop is left with a residual. -/
def leave (p : Probe A B S) (residual : Nat) : Probe A B S :=
  { p with settling := .ended, summary := { p.summary with residualDebtUnits := residual } }

end Probe

/-- A step of a fetch by itself: the check, the lock, the reservation, the pause. -/
def taskStep (setup : Setup A B S) (p : Probe A B S) (k : Nat) : Option (Probe A B S) :=
  match p.tasks[k]? with
  | some ⟨addr,.starting⟩ =>
    if p.alive then some (p.setStage k addr .locking) else some (p.fail setup k addr closedBeforeReserve)
  | some ⟨addr,.locking⟩ =>
    if p.tasks.all fun task => !task.stage.holds then
      let (balance,reserved) := setup.accounting.snapshot p.acct
      some (p.setStage k addr (.holding balance reserved))
    else none
  | some ⟨addr,.holding balance reserved⟩ =>
    let price := setup.peerPrice addr
    if satAdd (satAdd balance reserved) price ≤ setup.reserveCap then
      match setup.accounting.tryReserve p.acct price with
      | some acct => some { p.setStage k addr (.retrieving p.now) with acct := acct }
      | none => some (p.setStage k addr (.pausing (p.now + 150 * ms)))
    else some (p.setStage k addr (.pausing (p.now + 150 * ms)))
  | some ⟨addr,.pausing wake⟩ => if wake ≤ p.now then some (p.setStage k addr .starting) else none
  | _ => none

/-- `retrieve_chunk` has returned. -/
def retrievedStep (setup : Setup A B S) (p : Probe A B S) (k : Nat) (result : Except (List Char) Nat) : Option (Probe A B S) :=
  match p.tasks[k]? with
  | some ⟨addr,.retrieving started⟩ =>
    let price := setup.peerPrice addr
    match result with
    | .ok len => some { p with
        acct := setup.accounting.apply p.acct price
        bytes := wrapAdd p.bytes len
        tasks := p.tasks.set k ⟨addr,.ended (.ok (min ((p.now - started) / ms) u64Max))⟩
        log := { p.log with served := addr :: p.log.served } }
    | .error why => some { p.fail setup k addr why with acct := setup.accounting.drop p.acct price }
  | _ => none

/-- The main task. -/
def mainStep (setup : Setup A B S) (p : Probe A B S) : Move A → Option (Probe A B S)
  | .spawn =>
    match p.main, p.queue with
    | .spawning, [] => some { p with main := .joining }
    | .spawning, addr :: rest =>
      if (p.tasks.filter fun task => task.stage.running).length < setup.pipelineDepth then
        some { p with queue := rest, tasks := p.tasks ++ [⟨addr,.starting⟩] }
      else none
    | _, _ => none
  | .join k =>
    match p.main, p.tasks[k]? with
    | .joining, some ⟨_,.ended (.ok latency)⟩ =>
      some { p with tasks := p.tasks.eraseIdx k, latencies := p.latencies ++ [latency] }
    | .joining, some ⟨_,.ended (.error why)⟩ =>
      some { p with tasks := p.tasks.eraseIdx k, errors := p.errors ++ [why] }
    | _, _ => none
  | .notify =>
    match p.main, p.tasks with
    | .joining, [] => some { p with main := .sweeping (p.now - p.started), notified := true }
    | _, _ => none
  | .report =>
    match p.main, p.settling with
    | .sweeping wall, .ended => some { p with main := .reported {
        chunksOk := p.latencies.length
        chunksErr := p.errors.length
        bytes := p.bytes
        wall := wall
        latenciesMs := p.latencies
        settlement := { p.summary with announcedThreshold := p.announced }
        errors := p.errors } }
    | _, _ => none
  | _ => none

/-- A cheque for units of debt: `emit_cheque_at_rate`, and what the loop does with its result. -/
def emitStep (setup : Setup A B S) (p : Probe A B S) (units : Nat) (answers : Answers) : Probe A B S :=
  match emitSettlementCheque setup.lim p.bank setup.beneficiary units answers with
  | (bank,.ok outcome) =>
    let p := { p with
      bank := bank
      summary := { p.summary with
        chequesIssued := wrapAdd p.summary.chequesIssued 1
        chequeUnits := wrapAdd p.summary.chequeUnits units
        chequePlur := (p.summary.chequePlur + outcome.plur) % 2 ^ 128
        exchangeRate := p.summary.exchangeRate <|> some outcome.rate }
      log := { p.log with cheques := p.log.cheques + units } }
    if p.finishing then Probe.settled { p with acct := setup.accounting.credit p.acct units }
    else Probe.settled { p with
      pending := wrapAdd p.pending units
      credits := p.credits ++ [⟨units,p.now + chequeCreditDelay,false⟩] }
  | (bank,.error _) =>
    -- The counter of this call is dropped with it.
    let p := { p with bank := { bank with issuedPlur := p.bank.issuedPlur } }
    if p.finishing then p.leave units else p.settled

/-- `settlement_loop`. -/
def settleStep (setup : Setup A B S) (p : Probe A B S) : Move A → Option (Probe A B S)
  | .tick =>
    match p.settling with
    | .selecting wake => if wake ≤ p.now then some { p with settling := .checking } else none
    | _ => none
  | .hot =>
    match p.settling with
    | .selecting _ => if p.finishing then none else some { p with settling := .checking }
    | _ => none
  | .done =>
    match p.settling with
    | .selecting _ =>
      if p.finishing || !p.notified then none
      else some { p with settling := .checking, finishing := true, notified := false }
    | _ => none
  | .go =>
    match p.settling with
    | .checking => some { p with settling := if p.alive then .sampling else .dying }
    | .dying => some (p.read setup .dead)
    | .dead balance => some (p.weigh.leave (balance - p.pending))
    | .sampling =>
      if 0 < p.balance setup ∧ Pacer.isDue p.lastRefresh p.now refreshMinInterval then some { p with settling := .refreshing }
      else some { p with settling := .reading }
    | .reading => some (p.read setup .weighing)
    | .weighing debt =>
      let effectiveDebt := debt - p.pending
      if p.shouldCheque setup effectiveDebt then
        some { p.weigh with settling := .emitting effectiveDebt }
      else some p.weigh.settled
    | .closing => some (p.read setup .leaving)
    | .leaving balance =>
      let residual := balance - p.pending
      if residual = 0 ∨ 0 < p.summary.residualDebtUnits then some (p.weigh.leave residual)
      else some { p.weigh with settling := .selecting (p.now + 100 * ms) }
    | _ => none
  | .accepted units =>
    match p.settling with
    | .refreshing =>
      match units with
      | some units =>
        if 0 < units.val then some { p with
          acct := setup.accounting.credit p.acct units.val
          summary := { p.summary with
            refreshesAccepted := wrapAdd p.summary.refreshesAccepted 1
            refreshUnits := wrapAdd p.summary.refreshUnits units.val }
          lastRefresh := some p.now
          settling := .reading
          log := { p.log with refreshed := p.log.refreshed + units.val } }
        else some { p with lastRefresh := some p.now, settling := .reading }
      | none => some { p with lastRefresh := some p.now, settling := .reading }
    | _ => none
  | .emit answers =>
    match p.settling with
    | .emitting units => some (emitStep setup p units answers)
    | _ => none
  | _ => none

/-- A task that credits a cheque. -/
def creditStep (setup : Setup A B S) (p : Probe A B S) (k : Nat) : Option (Probe A B S) :=
  match p.credits[k]? with
  | some ⟨units,wake,false⟩ =>
    if wake ≤ p.now then some { p with
      acct := setup.accounting.credit p.acct units
      credits := p.credits.set k ⟨units,wake,true⟩ }
    else none
  | some ⟨units,_,true⟩ => some { p with pending := wrapSub p.pending units, credits := p.credits.eraseIdx k }
  | none => none

/-- One step of the probe. -/
def step (setup : Setup A B S) (p : Probe A B S) (move : Move A) : Option (Probe A B S) :=
  match move with
  | .pass ns => some { p with now := p.now + ns }
  | .hangUp => some { p with alive := false }
  | .announce t => some { p with announced := some t }
  | .task k => taskStep setup p k
  | .retrieved k result => retrievedStep setup p k result
  | .credit k => creditStep setup p k
  | .spawn | .join _ | .notify | .report => mainStep setup p move
  | _ => settleStep setup p move

/-! ### What a step can do -/

/-- One constructor for each way through the steps, with the guards that hold there. -/
inductive Steps (setup : Setup A B S) (p : Probe A B S) : Move A → Probe A B S → Prop
  | passed {ns : Nat} : Steps setup p (.pass ns) { p with now := p.now + ns }
  | hungUp : Steps setup p .hangUp { p with alive := false }
  | announced (t : U256) : Steps setup p (.announce t) { p with announced := some t }
  -- The main task.
  | spawned {addr : A} {rest : List A} (at_ : p.main = .spawning) (next : p.queue = addr :: rest)
      (permit : (p.tasks.filter fun task => task.stage.running).length < setup.pipelineDepth) :
      Steps setup p .spawn { p with queue := rest, tasks := p.tasks ++ [⟨addr,.starting⟩] }
  | spawnedAll (at_ : p.main = .spawning) (none_ : p.queue = []) : Steps setup p .spawn { p with main := .joining }
  | joinedOk {k : Nat} {addr : A} {latency : Nat} (at_ : p.main = .joining) (there : p.tasks[k]? = some ⟨addr,.ended (.ok latency)⟩) :
      Steps setup p (.join k) { p with tasks := p.tasks.eraseIdx k, latencies := p.latencies ++ [latency] }
  | joinedErr {k : Nat} {addr : A} {why : List Char} (at_ : p.main = .joining)
      (there : p.tasks[k]? = some ⟨addr,.ended (.error why)⟩) :
      Steps setup p (.join k) { p with tasks := p.tasks.eraseIdx k, errors := p.errors ++ [why] }
  | notified (at_ : p.main = .joining) (all : p.tasks = []) :
      Steps setup p .notify { p with main := .sweeping (p.now - p.started), notified := true }
  | reported {wall : Nat} {report : ProbeReport} (at_ : p.main = .sweeping wall) (over_ : p.settling = .ended)
      (same : report = ⟨p.latencies.length,p.errors.length,p.bytes,wall,p.latencies,
        { p.summary with announcedThreshold := p.announced },p.errors⟩) :
      Steps setup p .report { p with main := .reported report }
  -- A fetch.
  | checked {k : Nat} {addr : A} (at_ : p.tasks[k]? = some ⟨addr,.starting⟩) :
      Steps setup p (.task k) (p.setStage k addr .locking)
  | refused {k : Nat} {addr : A} (at_ : p.tasks[k]? = some ⟨addr,.starting⟩) (dead : p.alive = false) :
      Steps setup p (.task k) (p.fail setup k addr closedBeforeReserve)
  | locked {k : Nat} {addr : A} (at_ : p.tasks[k]? = some ⟨addr,.locking⟩) (free : ∀ task ∈ p.tasks, task.stage.holds = false) :
      Steps setup p (.task k) (p.setStage k addr (.holding (p.balance setup) (p.reserved setup)))
  | reserves {k : Nat} {addr : A} {balance reserved : Nat} {acct : S} (at_ : p.tasks[k]? = some ⟨addr,.holding balance reserved⟩)
      (within : satAdd (satAdd balance reserved) (setup.peerPrice addr) ≤ setup.reserveCap)
      (taken : setup.accounting.tryReserve p.acct (setup.peerPrice addr) = some acct) :
      Steps setup p (.task k) { p.setStage k addr (.retrieving p.now) with acct := acct }
  | paused {k wake : Nat} {addr : A} {balance reserved : Nat} (at_ : p.tasks[k]? = some ⟨addr,.holding balance reserved⟩) :
      Steps setup p (.task k) (p.setStage k addr (.pausing wake))
  | resumed {k wake : Nat} {addr : A} (at_ : p.tasks[k]? = some ⟨addr,.pausing wake⟩) :
      Steps setup p (.task k) (p.setStage k addr .starting)
  | served {k started len latency : Nat} {addr : A} (at_ : p.tasks[k]? = some ⟨addr,.retrieving started⟩) :
      Steps setup p (.retrieved k (.ok len)) { p with
        acct := setup.accounting.apply p.acct (setup.peerPrice addr)
        bytes := wrapAdd p.bytes len
        tasks := p.tasks.set k ⟨addr,.ended (.ok latency)⟩
        log := { p.log with served := addr :: p.log.served } }
  | failed {k started : Nat} {addr : A} {why : List Char} (at_ : p.tasks[k]? = some ⟨addr,.retrieving started⟩) :
      Steps setup p (.retrieved k (.error why))
        { p.fail setup k addr why with acct := setup.accounting.drop p.acct (setup.peerPrice addr) }
  -- The settlement task.
  | woken {move : Move A} {wake : Nat} (at_ : p.settling = .selecting wake) : Steps setup p move { p with settling := .checking }
  | told {wake : Nat} (at_ : p.settling = .selecting wake) (onward : p.finishing = false) (told : p.notified = true) :
      Steps setup p .done { p with settling := .checking, finishing := true, notified := false }
  | lives {settling : Settling} (at_ : p.settling = .checking) (next : settling = .sampling ∨ settling = .dying) :
      Steps setup p .go { p with settling := settling }
  | reads {next : Nat → Settling} (at_ : p.settling = .dying ∧ next = .dead ∨ p.settling = .reading ∧ next = .weighing ∨
        p.settling = .closing ∧ next = .leaving) : Steps setup p .go (p.read setup next)
  | dies {balance : Nat} (at_ : p.settling = .dead balance) : Steps setup p .go (p.weigh.leave (balance - p.pending))
  | sampled {settling : Settling} (at_ : p.settling = .sampling) (next : settling = .refreshing ∨ settling = .reading) :
      Steps setup p .go { p with settling := settling }
  | due {debt : Nat} (at_ : p.settling = .weighing debt)
      (due : p.shouldCheque setup (debt - p.pending) = true) :
      Steps setup p .go { p.weigh with settling := .emitting (debt - p.pending) }
  | undue {debt : Nat} (at_ : p.settling = .weighing debt) : Steps setup p .go p.weigh.settled
  | leaves {balance : Nat} (at_ : p.settling = .leaving balance) : Steps setup p .go (p.weigh.leave (balance - p.pending))
  | again {balance wake : Nat} (at_ : p.settling = .leaving balance) :
      Steps setup p .go { p.weigh with settling := .selecting wake }
  | accepted {units : Fin (2 ^ 64)} (at_ : p.settling = .refreshing) :
      Steps setup p (.accepted (some units)) { p with
        acct := setup.accounting.credit p.acct units.val
        summary := { p.summary with
          refreshesAccepted := wrapAdd p.summary.refreshesAccepted 1
          refreshUnits := wrapAdd p.summary.refreshUnits units.val }
        lastRefresh := some p.now
        settling := .reading
        log := { p.log with refreshed := p.log.refreshed + units.val } }
  | unaccepted {units : Option (Fin (2 ^ 64))} (at_ : p.settling = .refreshing) :
      Steps setup p (.accepted units) { p with lastRefresh := some p.now, settling := .reading }
  | emitted {units : Nat} {answers : Answers} (at_ : p.settling = .emitting units) :
      Steps setup p (.emit answers) (emitStep setup p units answers)
  -- A task that credits a cheque.
  | posted {k units wake : Nat} (at_ : p.credits[k]? = some ⟨units,wake,false⟩) (due : wake ≤ p.now) :
      Steps setup p (.credit k) { p with
        acct := setup.accounting.credit p.acct units
        credits := p.credits.set k ⟨units,wake,true⟩ }
  | credited {k units wake : Nat} (at_ : p.credits[k]? = some ⟨units,wake,true⟩) :
      Steps setup p (.credit k) { p with pending := wrapSub p.pending units, credits := p.credits.eraseIdx k }

section Inversion
variable {setup : Setup A B S} {p p' : Probe A B S}

theorem taskStep_steps {k : Nat} (taken : taskStep setup p k = some p') : Steps setup p (.task k) p' := by
  unfold taskStep at taken
  split at taken
  · next addr at_ =>
    split at taken
    · cases taken; exact .checked at_
    · next dead => cases taken; exact .refused at_ (by simpa using dead)
  · next addr at_ =>
    split at taken
    · next free =>
      cases taken
      exact .locked at_ (by simpa using free)
    · cases taken
  · next addr balance reserved at_ =>
    simp only at taken
    split at taken
    · next within =>
      split at taken
      · next acct reserves => cases taken; exact .reserves at_ within reserves
      · cases taken; exact .paused at_
    · cases taken; exact .paused at_
  · next addr wake at_ =>
    split at taken
    · cases taken; exact .resumed at_
    · cases taken
  · cases taken

theorem retrievedStep_steps {k : Nat} {result : Except (List Char) Nat} (taken : retrievedStep setup p k result = some p') :
    Steps setup p (.retrieved k result) p' := by
  unfold retrievedStep at taken
  split at taken
  · next addr started at_ =>
    cases result with
    | ok len => cases taken; exact .served at_
    | error why => cases taken; exact .failed at_
  · cases taken

theorem mainStep_steps {move : Move A} (taken : mainStep setup p move = some p') : Steps setup p move p' := by
  unfold mainStep at taken
  split at taken
  · split at taken
    · next at_ none_ => cases taken; exact .spawnedAll at_ none_
    · next addr rest at_ next =>
      split at taken
      · next permit => cases taken; exact .spawned at_ next permit
      · cases taken
    · cases taken
  · split at taken
    · next at_ there => cases taken; exact .joinedOk at_ there
    · next at_ there => cases taken; exact .joinedErr at_ there
    · cases taken
  · split at taken
    · next at_ all => cases taken; exact .notified at_ all
    · cases taken
  · split at taken
    · next at_ over_ => cases taken; exact .reported at_ over_ rfl
    · cases taken
  · cases taken

theorem settleStep_steps {move : Move A} (taken : settleStep setup p move = some p') : Steps setup p move p' := by
  unfold settleStep at taken
  split at taken
  · split at taken
    · next wake at_ =>
      split at taken
      · cases taken; exact .woken at_
      · cases taken
    · cases taken
  · split at taken
    · next wake at_ =>
      split at taken
      · cases taken
      · cases taken; exact .woken at_
    · cases taken
  · split at taken
    · next wake at_ =>
      split at taken
      · cases taken
      · next ready =>
        simp only [Bool.or_eq_true,Bool.not_eq_true',not_or,Bool.not_eq_true,Bool.not_eq_false] at ready
        cases taken
        exact .told at_ ready.1 ready.2
    · cases taken
  · split at taken
    · next at_ =>
      cases taken
      refine .lives at_ ?_
      split
      · exact .inl rfl
      · exact .inr rfl
    · next at_ => cases taken; exact .reads (.inl ⟨at_,rfl⟩)
    · next balance at_ => cases taken; exact .dies at_
    · next at_ =>
      split at taken
      · cases taken; exact .sampled at_ (.inl rfl)
      · cases taken; exact .sampled at_ (.inr rfl)
    · next at_ => cases taken; exact .reads (.inr (.inl ⟨at_,rfl⟩))
    · next debt at_ =>
      simp only at taken
      split at taken
      · next due => cases taken; exact .due at_ due
      · cases taken; exact .undue at_
    · next at_ => cases taken; exact .reads (.inr (.inr ⟨at_,rfl⟩))
    · next balance at_ =>
      simp only at taken
      split at taken
      · cases taken; exact .leaves at_
      · cases taken; exact .again at_
    · cases taken
  · split at taken
    · next at_ =>
      split at taken
      · split at taken
        · cases taken; exact .accepted at_
        · cases taken; exact .unaccepted at_
      · cases taken; exact .unaccepted at_
    · cases taken
  · split at taken
    · next units at_ => cases taken; exact .emitted at_
    · cases taken
  · cases taken

theorem creditStep_steps {k : Nat} (taken : creditStep setup p k = some p') : Steps setup p (.credit k) p' := by
  unfold creditStep at taken
  split at taken
  · next units wake at_ =>
    split at taken
    · next due => cases taken; exact .posted at_ due
    · cases taken
  · next units wake at_ => cases taken; exact .credited at_
  · cases taken

theorem step_steps {move : Move A} (taken : step setup p move = some p') : Steps setup p move p' := by
  cases move with
  | pass ns => cases taken; exact .passed
  | hangUp => cases taken; exact .hungUp
  | announce t => cases taken; exact .announced t
  | task k => exact taskStep_steps taken
  | retrieved k result => exact retrievedStep_steps taken
  | credit k => exact creditStep_steps taken
  | spawn => exact mainStep_steps taken
  | join k => exact mainStep_steps taken
  | notify => exact mainStep_steps taken
  | report => exact mainStep_steps taken
  | tick => exact settleStep_steps taken
  | hot => exact settleStep_steps taken
  | done => exact settleStep_steps taken
  | go => exact settleStep_steps taken
  | accepted units => exact settleStep_steps taken
  | emit answers => exact settleStep_steps taken

end Inversion

end Directswarm.Probing
