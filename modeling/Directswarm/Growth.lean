import Mathlib
import Directswarm.Pacing

/-!
`probe_growth` (`growth.rs`): one long-lived connection that fetches the same chunks
over and over, in a growth phase, between latency samples and in a ceiling phase that
may be prepaid, and is swept at the end. A step is what lies between two points at
which a spawned fetch or the peer can interfere. Telemetry and the event log are left
out; peer, network and clock are the actions.
-/
namespace Directswarm.Growth
open Directswarm.Words Directswarm.Cheques Directswarm.Pacing

def refreshMinInterval : Nat := 1100 * ms
def tick : Nat := 50 * ms
def lambdaProbeInterval : Nat := 1150 * ms
def lambdaProbeUnits : Nat := 50000
def lambdaProbeTimeout : Nat := 25000 * ms
def growthChequeInterval : Nat := 3000 * ms
def ceilingChequeInterval : Nat := 500 * ms

/-- `GrowthOptions`, the chunks of the storer and `Accounting::peer_price`. -/
structure Options (A : Type) where
  lim : Limits
  pipelineDepth : Nat
  growthSecs : Nat
  ceilingSecs : Nat
  lambdaSamples : Nat
  prepayUnits : Nat
  prepayUnits_lt : prepayUnits < 2 ^ 64
  chunks : List A
  enough : 20 ≤ chunks.length
  peerPrice : A → Nat

/-- The price of the chunk that is next in the cycle. -/
def Options.priceAt {A : Type} (opts : Options A) (cycleIdx : Nat) : Nat :=
  opts.peerPrice (opts.chunks.get ⟨cycleIdx % opts.chunks.length,Nat.mod_lt _ (Nat.lt_of_lt_of_le (by decide) opts.enough)⟩)

/-- `Conn`, without its telemetry. -/
structure Conn where
  acct : Mirror
  exchangeRate : Option Nat
  alive : Bool
  /-- The last announced threshold, as the watch channel holds it. -/
  announced : Option U256
  lastRefresh : Option Nat
  lastCheque : Option Nat
  /-- Emission time and units of the cheques that may still be validating. -/
  unvalidated : List (Nat × Nat)
  prepaid : Nat

namespace Conn

def threshold (conn : Conn) : Nat :=
  match conn.announced with
  | none => defaultThreshold
  | some t => if t.val < 2 ^ 64 then t.val else defaultThreshold

def rate (conn : Conn) : Nat := conn.exchangeRate.getD defaultRate

/-- `spend_would_exceed`, with what was issued so far. -/
def spendWouldExceed (conn : Conn) (lim : Limits) (issued nextPrice : Nat) : Bool :=
  let unpaid := wrapAdd (wrapAdd conn.acct.balance conn.acct.reserved) nextPrice - conn.prepaid
  decide (lim.maxIssuePlur * 92 / 100 < (issued + unpaid * conn.rate) % 2 ^ 128)

/-- `unvalidated_within`: the queue without the cheques at its front that are older than the window. -/
def prune (conn : Conn) (now window : Nat) : Conn :=
  { conn with unvalidated := conn.unvalidated.dropWhile fun entry => window < now - entry.1 }

/-- `emit`, after the cheque. -/
def emitted (conn : Conn) (now units rate : Nat) : Conn :=
  { conn with
    acct := conn.acct.credit units
    exchangeRate := conn.exchangeRate <|> some rate
    lastCheque := some now
    unvalidated := conn.unvalidated ++ [(now,units)] }

/-- `prepay`, after the cheque. -/
def prepaidBy (conn : Conn) (now units rate : Nat) : Conn :=
  { conn with
    prepaid := units
    exchangeRate := conn.exchangeRate <|> some rate
    unvalidated := conn.unvalidated ++ [(now,units)] }

end Conn

/-- `PhaseMode`. -/
inductive Mode
  | growth
  | ceiling (lambdaWindow : Nat)

/-- The locals of `run_fetch_phase`. -/
structure Loop where
  mode : Mode
  started : Nat
  wallCap : Nat
  lastThreshold : Nat
  lastUpgrade : Nat
  stopping : Bool
  spendCapped : Bool

/-- What a cheque is for, with what the caller still has to do. -/
inductive Purpose
  /-- `run_fetch_phase`. -/
  | pace (l : Loop)
  /-- `lambda_sample`, with the samples that follow it. -/
  | lambda (later : Nat)
  | prepay
  /-- The final sweep, in one of its three rounds. -/
  | sweep (round : Nat)

/-- Where the probe stands. -/
inductive Phase (B : Type)
  | begin_
  -- `run_fetch_phase`.
  | turn (l : Loop)
  | spawning (l : Loop)
  /-- The spend gate let the next fetch through. -/
  | asking (l : Loop)
  | joining (l : Loop)
  | refreshing (l : Loop)
  | settling (l : Loop)
  | closing (l : Loop)
  | sleeping (l : Loop) (wake : Nat)
  -- `lambda_sample`.
  | sampling (samples : Nat)
  | building (later threshold deadline : Nat)
  | retrieving (later threshold deadline price : Nat)
  | resting (later threshold deadline wake : Nat)
  | built (later : Nat)
  | quiet (later debt wake : Nat)
  | probePause (later t0 : Nat) (zeroAt : Option Nat) (wake : Nat)
  | probing (later t0 : Nat) (zeroAt : Option Nat)
  -- `probe_growth`.
  | prepaying
  | prepayPause (wake : Nat)
  | ceiling
  | sweeping (round : Nat)
  | sweepPause (round wake : Nat)
  | swept
  | confirmPause (wake : Nat)
  | confirming
  | done (residualZeroConfirmed : Option Bool)
  | emitting (purpose : Purpose) (units : Nat) (call : Call B)

/-- A spawned fetch. -/
structure FetchTask where
  price : Nat
  finished : Bool
  deriving DecidableEq

/-- The probe and what it works with. -/
structure Probe (B : Type) where
  now : Nat
  bank : Bank B
  conn : Conn
  beneficiary : B
  cycleIdx : Nat
  lambdaMs : List (Option Nat)
  spendCapped : Bool
  tasks : List FetchTask
  phase : Phase B

/-- What moves the probe: its own code, a fetch of a latency sample that succeeds or
    fails, the units a refresh or a probe was accepted for, a move of the cheque in
    progress, the end of a spawned fetch, the peer, or the clock. -/
inductive Act
  | go
  | answer (ok : Bool)
  | accepted (units : Option (Fin (2 ^ 64)))
  | cheque (act : CallAct)
  | task (k : Nat) (ok : Bool)
  | hangUp
  | announce (t : U256)
  | clock (now : Nat)
  deriving DecidableEq

variable {A B : Type} [DecidableEq B]

/-- The connection as `probe_growth` makes it, after the handshake. -/
def start (now : Nat) (ledger : Finmap fun _ : B => U256) (beneficiary : B) (announced : Option U256) : Probe B where
  now := now
  bank := ⟨0,ledger,[]⟩
  conn := ⟨⟨0,0⟩,none,true,announced,none,none,[],0⟩
  beneficiary := beneficiary
  cycleIdx := 0
  lambdaMs := []
  spendCapped := false
  tasks := []
  phase := .begin_

/-- The slowest latency that was measured. -/
def lambdaMax (samples : List (Option Nat)) : Nat := ((samples.filterMap id).max?).getD 3000

def newLoop (s : Probe B) (mode : Mode) (secs : Nat) : Loop :=
  ⟨mode,s.now,secs * 1000 * ms,s.conn.threshold,s.now,false,false⟩

/-- `conn_pipeline_depth`. -/
def Mode.depth (mode : Mode) (configured : Nat) : Nat :=
  match mode with
  | .growth => min configured 8
  | .ceiling _ => configured

/-- The threshold is tracked and the stop conditions are looked at. -/
def Loop.track (l : Loop) (s : Probe B) : Loop :=
  let t := s.conn.threshold
  let l := if t = l.lastThreshold then l else { l with lastThreshold := t, lastUpgrade := s.now }
  let plateau := match l.mode with
    | .growth => decide (300000 * ms ≤ s.now - l.started ∧ 240000 * ms ≤ s.now - l.lastUpgrade)
    | .ceiling _ => false
  if l.wallCap ≤ s.now - l.started ∨ plateau = true ∨ s.conn.alive = false then { l with stopping := true } else l

/-- A cheque is begun. -/
def startEmit (s : Probe B) (purpose : Purpose) (units : Nat) : Probe B :=
  { s with phase := .emitting purpose units ⟨s.beneficiary,units,.opening⟩ }

/-- The gate of `run_fetch_phase`, and what `unvalidated_within` leaves of the queue. -/
def gate (s : Probe B) (l : Loop) : Conn × Nat :=
  match l.mode with
  | .growth => (s.conn,l.lastThreshold / 2)
  | .ceiling window =>
    let conn := s.conn.prune s.now window
    (conn,wrapAdd conn.prepaid (wrapMul l.lastThreshold 105 / 100) - (conn.unvalidated.map Prod.snd).foldl wrapAdd 0)

/-- Whether a cheque is wanted in a turn, and for how many units. -/
def wantCheque (s : Probe B) (l : Loop) : Bool × Nat :=
  let debt := s.conn.acct.balance
  match l.mode with
  | .growth =>
    (Pacer.isDue s.conn.lastCheque s.now growthChequeInterval && l.lastThreshold / 4 ≤ debt,min debt (l.lastThreshold / 4))
  | .ceiling _ =>
    let unpaid := debt - s.conn.prepaid
    (Pacer.isDue s.conn.lastCheque s.now ceilingChequeInterval && l.lastThreshold / 5 ≤ unpaid,unpaid)

/-- `run_fetch_phase`. -/
def paceStep (opts : Options A) (s : Probe B) (act : Act) : Option (Probe B) :=
  match s.phase, act with
  | .turn l, .go => some { s with phase := .spawning (l.track s) }
  | .spawning l, .go =>
    if !l.stopping && s.tasks.length < l.mode.depth opts.pipelineDepth then
      if s.conn.spendWouldExceed opts.lim s.bank.issuedPlur (opts.priceAt s.cycleIdx) then
        some { s with phase := .joining { l with spendCapped := true, stopping := true } }
      else some { s with phase := .asking l }
    else some { s with phase := .joining l }
  | .asking l, .go =>
    match (gate s l).1.acct.tryReserve (opts.priceAt s.cycleIdx) (gate s l).2 with
    | none => some { s with conn := (gate s l).1, phase := .joining l }
    | some acct => some { s with
        conn := { (gate s l).1 with acct := acct }
        cycleIdx := s.cycleIdx + 1
        tasks := s.tasks ++ [⟨opts.priceAt s.cycleIdx,false⟩]
        phase := .spawning l }
  | .joining l, .go =>
    let s := { s with tasks := s.tasks.filter fun task => !task.finished }
    if Pacer.isDue s.conn.lastRefresh s.now refreshMinInterval then
      -- `refresh` asks for nothing while the surplus covers the debt.
      if s.conn.acct.balance - s.conn.prepaid = 0 then
        some { s with conn := { s.conn with lastRefresh := some s.now }, phase := .settling l }
      else some { s with phase := .refreshing l }
    else some { s with phase := .settling l }
  | .refreshing l, .accepted units =>
    some { s with
      conn := { s.conn with acct := s.conn.acct.credit ((units.map Fin.val).getD 0), lastRefresh := some s.now }
      phase := .settling l }
  | .settling l, .go =>
    if (wantCheque s l).1 && s.conn.alive then some (startEmit s (.pace l) (wantCheque s l).2)
    else some { s with phase := .closing l }
  | .closing l, .go =>
    if l.stopping && s.tasks.isEmpty then
      match l.mode with
      | .growth => some { s with spendCapped := s.spendCapped || l.spendCapped, phase := .sampling opts.lambdaSamples }
      | .ceiling _ => some { s with spendCapped := s.spendCapped || l.spendCapped, phase := .sweeping 0 }
    else some { s with phase := .sleeping l (s.now + tick) }
  | .sleeping l wake, .go => if wake ≤ s.now then some { s with phase := .turn l } else none
  | _, _ => none

/-- A latency sample ends. -/
def sampled (s : Probe B) (result : Option Nat) (later : Nat) : Probe B :=
  { s with lambdaMs := s.lambdaMs ++ [result], phase := .sampling later }

/-- A latency sample ends after its probes. -/
def probed (s : Probe B) (result : Option Nat) (later : Nat) : Probe B :=
  sampled { s with conn := { s.conn with lastRefresh := some s.now } } result later

/-- The head of the probing loop. -/
def probeAgain (s : Probe B) (later t0 : Nat) (zeroAt : Option Nat) : Probe B :=
  if s.now - t0 < lambdaProbeTimeout then { s with phase := .probePause later t0 zeroAt (s.now + lambdaProbeInterval) }
  else probed s none later

/-- `lambda_sample`. Nothing else is in flight then, so its fetch is reserved in one step. -/
def sampleStep (opts : Options A) (s : Probe B) (act : Act) : Option (Probe B) :=
  match s.phase, act with
  | .sampling 0, .go => some { s with phase := .prepaying }
  | .sampling (later + 1), .go =>
    if s.conn.alive = false ∨ s.spendCapped = true then some { s with phase := .prepaying }
    else some { s with phase := .building later s.conn.threshold (s.now + 30000 * ms) }
  | .building later threshold deadline, .go =>
    if wrapMul threshold 4 / 10 ≤ s.conn.acct.balance ∨ deadline ≤ s.now then some { s with phase := .built later }
    else if s.conn.alive = false then some (sampled s none later)
    else if s.conn.spendWouldExceed opts.lim s.bank.issuedPlur (opts.priceAt s.cycleIdx) then
      some { s with phase := .built later }
    else match s.conn.acct.tryReserve (opts.priceAt s.cycleIdx) (threshold / 2) with
      | none => some { s with phase := .built later }
      | some acct => some { s with
          conn := { s.conn with acct := acct }
          cycleIdx := s.cycleIdx + 1
          phase := .retrieving later threshold deadline (opts.priceAt s.cycleIdx) }
  | .retrieving later threshold deadline price, .answer true =>
    some { s with conn := { s.conn with acct := s.conn.acct.apply price }, phase := .building later threshold deadline }
  | .retrieving later threshold deadline price, .answer false =>
    some { s with
      conn := { s.conn with acct := s.conn.acct.release price }
      phase := .resting later threshold deadline (s.now + 200 * ms) }
  | .resting later threshold deadline wake, .go =>
    if wake ≤ s.now then some { s with phase := .building later threshold deadline } else none
  | .built later, .go =>
    if s.conn.acct.balance < lambdaProbeUnits * 4 then some (sampled s none later)
    else some { s with phase := .quiet later s.conn.acct.balance (s.now + 1200 * ms) }
  | .quiet later debt wake, .go => if wake ≤ s.now then some (startEmit s (.lambda later) debt) else none
  | .probePause later t0 zeroAt wake, .go =>
    if wake ≤ s.now then some { s with phase := .probing later t0 zeroAt } else none
  | .probing later t0 zeroAt, .accepted none => some (probeAgain s later t0 zeroAt)
  | .probing later t0 zeroAt, .accepted (some units) =>
    match units.val, zeroAt with
    | 0, some first => some (probed s (some first) later)
    | 0, none => some (probeAgain s later t0 (some (min ((s.now - t0) / ms) u64Max)))
    | _ + 1, _ => some (probeAgain s later t0 none)
  | _, _ => none

/-- `probe_growth`, around its phases. -/
def probeStep (opts : Options A) (s : Probe B) (act : Act) : Option (Probe B) :=
  match s.phase, act with
  | .begin_, .go =>
    if 0 < opts.growthSecs then some { s with phase := .turn (newLoop s .growth opts.growthSecs) }
    else some { s with phase := .sampling opts.lambdaSamples }
  | .prepaying, .go =>
    if 0 < opts.prepayUnits ∧ s.conn.alive = true ∧ s.spendCapped = false then
      some (startEmit s .prepay opts.prepayUnits)
    else some { s with phase := .ceiling }
  | .prepayPause wake, .go => if wake ≤ s.now then some { s with phase := .ceiling } else none
  | .ceiling, .go =>
    if 0 < opts.ceilingSecs ∧ s.conn.alive = true ∧ s.spendCapped = false then
      some { s with phase := .turn (newLoop s (.ceiling (max (lambdaMax s.lambdaMs) 800 * 3 / 2 * ms)) opts.ceilingSecs) }
    else some { s with phase := .sweeping 0 }
  | .sweeping round, .go =>
    if 3 ≤ round ∨ s.conn.acct.balance - s.conn.prepaid = 0 ∨ s.conn.alive = false then some { s with phase := .swept }
    else some (startEmit s (.sweep round) (s.conn.acct.balance - s.conn.prepaid))
  | .sweepPause round wake, .go => if wake ≤ s.now then some { s with phase := .sweeping round } else none
  | .swept, .go =>
    if s.conn.alive then some { s with phase := .confirmPause (s.now + (max (lambdaMax s.lambdaMs) 2500 + 1500) * ms) }
    else some { s with phase := .done none }
  | .confirmPause wake, .go => if wake ≤ s.now then some { s with phase := .confirming } else none
  | .confirming, .accepted units => some { s with phase := .done (units.map fun accepted => decide (accepted.val = 0)) }
  | _, _ => none

/-- What its caller does with a cheque that went out. -/
def sent (s : Probe B) (purpose : Purpose) (units rate : Nat) : Probe B :=
  match purpose with
  | .pace l => { s with conn := s.conn.emitted s.now units rate, phase := .closing l }
  | .lambda later => { s with
      conn := s.conn.emitted s.now units rate
      phase := .probePause later s.now none (s.now + lambdaProbeInterval) }
  | .prepay => { s with
      conn := s.conn.prepaidBy s.now units rate
      phase := .prepayPause (s.now + (max (lambdaMax s.lambdaMs) 800 * 3 / 2 + 500) * ms) }
  | .sweep round => { s with conn := s.conn.emitted s.now units rate, phase := .sweeping (round + 1) }

/-- And with one that failed. -/
def unsent (s : Probe B) : Purpose → Probe B
  | .pace l => { s with phase := .closing l }
  | .lambda later => sampled s none later
  | .prepay => { s with phase := .ceiling }
  | .sweep round => { s with phase := .sweepPause (round + 1) (s.now + 2000 * ms) }

/-- A move of the cheque in progress. -/
def emitStep (opts : Options A) (s : Probe B) (act : CallAct) : Option (Probe B) :=
  match s.phase with
  | .emitting purpose units call =>
    match callStep opts.lim s.bank call act with
    | none => none
    | some (bank,call) =>
      match call.phase with
      | .ended (.ok outcome) => some (sent { s with bank := bank } purpose units outcome.rate)
      | .ended (.error _) => some (unsent { s with bank := bank } purpose)
      | _ => some { s with bank := bank, phase := .emitting purpose units call }
  | _ => none

/-- The end of a spawned fetch. -/
def taskStep (s : Probe B) (k : Nat) (ok : Bool) : Option (Probe B) :=
  match s.tasks[k]? with
  | some ⟨price,false⟩ => some { s with
      conn := { s.conn with acct := if ok then s.conn.acct.apply price else s.conn.acct.release price }
      tasks := s.tasks.set k ⟨price,true⟩ }
  | _ => none

/-- One step of the probe or of what it works with. -/
def growthStep (opts : Options A) (s : Probe B) : Act → Option (Probe B)
  | .cheque act => emitStep opts s act
  | .task k ok => taskStep s k ok
  | .hangUp => some { s with conn := { s.conn with alive := false } }
  | .announce t => some { s with conn := { s.conn with announced := some t } }
  | .clock now => if s.now ≤ now then some { s with now := now } else none
  | act => (paceStep opts s act).or ((sampleStep opts s act).or (probeStep opts s act))

end Directswarm.Growth
