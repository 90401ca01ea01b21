import Directswarm.Pacing
import Directswarm.WorkPool

/-!
One connection of a run (`schedule.rs`): `run_established` with `measure_lambda`,
`emit_prepay`, `emit`, `refresh` and `drive`, from the dial to the end, and the
fetches it spawns. A step is what lies between two points at which another
thread can interfere; reads and writes that commute with everything others do in
between are taken together. Peers, the network and the clock are the actions.
-/
namespace Directswarm.Connection
open Directswarm.Words Directswarm.Cheques Directswarm.Pacing Directswarm.WorkPool

def refreshMinInterval : Nat := 1100 * ms
def tick : Nat := 50 * ms
def chequeMinInterval : Nat := 500 * ms
def lambdaProbeInterval : Nat := 1150 * ms
def lambdaProbeUnits : Nat := 50000
def lambdaProbeTimeout : Nat := 25000 * ms

/-- What all connections of a run are given: the bounds on cheques, the options,
    and `Accounting::peer_price` of the accounting crate. -/
structure Plan (A : Type) where
  lim : Limits
  pipeline : Nat
  measureLambda : Bool
  prepay : Bool
  /-- There is a pool to park connections in. -/
  parkInto : Bool
  peerPrice : A → A → Nat
  peerPrice_lt : ∀ overlay addr, peerPrice overlay addr < 2 ^ 64

/-- The usual price of a chunk fits a word. -/
theorem price_fits : ∀ _ _ : Nat, 230000 < 2 ^ 64 := fun _ _ => by decide
/-- And so does a high one. -/
theorem highPrice_fits : ∀ _ _ : Nat, 320000 < 2 ^ 64 := fun _ _ => by decide

/-- What the connections of a run share. -/
structure Common (A B : Type) where
  now : Nat
  pool : Buckets A
  /-- The addresses in the chunk store. -/
  stored : Finset A
  /-- What was sent down the fallback channel. -/
  sent : List A
  windDown : Bool
  directOk : Nat
  bank : Bank B

/-- What the peer-state store knows of a peer. -/
structure Known where
  lambdaMs : Option Nat
  surplusUnits : Fin (2 ^ 64)

/-- Where a spawned fetch stands. -/
inductive Stage
  | retrieving
  /-- The mirror has the price as debt; the chunk is about to be stored. -/
  | served
  /-- The reservation is released; the address is about to be sent on. -/
  | failed
  /-- Finished, and not joined yet. -/
  | done
  deriving DecidableEq

structure FetchTask (A : Type) where
  addr : A
  price : Nat
  stage : Stage
  deriving DecidableEq

/-- What a cheque is for. -/
inductive Purpose
  | lambdaSweep
  | initialPrepay
  | topUp
  | settle
  deriving DecidableEq

/-- The locals of the first loop of `measure_lambda`. -/
structure Measure where
  half : Nat
  target : Nat
  deadline : Nat

/-- What a connection reports to the peer-state store when it ends. -/
structure Observation where
  threshold : Nat
  lambdaMs : Option Nat
  settledUnits : Nat
  /-- What the service rate is computed from. -/
  consumedUnits : Nat
  surplusUnits : Option Nat
  cleanClose : Bool

/-- Where a connection stands. -/
inductive Phase (A B : Type)
  | dialing
  | established
  | measuring (m : Measure)
  | measurePopped (m : Measure) (addr : A)
  | measureRetrieving (m : Measure) (addr : A) (price : Nat)
  | measureServed (m : Measure) (addr : A)
  | measureFailed (addr : A)
  | measureSweep
  | measurePause (wake debt : Nat)
  | probePause (wake t0 : Nat) (zeroAt : Option Nat)
  | probing (t0 : Nat) (zeroAt : Option Nat)
  | measured (lambda : Option Nat)
  | emitting (purpose : Purpose) (units : Nat) (call : Call B)
  | driving
  /-- The peer hung up; the fetches are being joined. -/
  | draining
  /-- Before the spend projection, with what is unpaid (`none`: it stopped already). -/
  | projecting (unpaid : Option Nat)
  | admitting
  | popped (addr : A)
  | reaping
  | refreshing
  | settling
  | retrying (wake : Nat)
  /-- At the phase transitions that end a turn. -/
  | turning
  | sleeping (wake : Nat)
  /-- `drive` returned. -/
  | returned (residual : Nat)
  | confirmPause (wake consumed : Nat)
  | confirming (consumed : Nat)
  | recording (residual consumed : Nat) (confirmed : Bool)
  | closed (residual : Nat) (observed : Option Observation) (parked : Bool)

/-- What a connection that has ended reported. -/
def Phase.observed {A B : Type} : Phase A B → Option Observation
  | .closed _ observed _ => observed
  | _ => none

/-- One connection. -/
structure Session (A B : Type) where
  overlay : A
  bucket : Nat
  beneficiary : B
  known : Option Known
  /-- The latency that came with a parked connection. -/
  warmLambda : Option Nat
  alive : Bool
  pacer : Pacer
  measuredLambda : Option Nat
  tasks : List (FetchTask A)
  pending : Option A
  spendStop : Bool
  bucketDrained : Bool
  finishing : Bool
  halted : Bool
  sweepAttempts : Nat
  phase : Phase A B

/-- What moves a connection: its own code, an awaited operation that succeeds or
    fails, the units a refresh or a probe was accepted for, a move of the cheque in
    progress, a move of a spawned fetch, or the peer. -/
inductive Act
  | go
  | answer (ok : Bool)
  | accepted (units : Option (Fin (2 ^ 64)))
  | cheque (act : CallAct)
  | task (k : Nat) (ok : Bool)
  | hangUp
  | announce (t : U256)
  deriving DecidableEq

variable {A B : Type} [DecidableEq A] [DecidableEq B]

/-- A connection as it is spawned, to be dialed; or a parked one, with the latency
    and the threshold that it was parked with. -/
def spawn (overlay : A) (bucket : Nat) (beneficiary : B) (known : Option Known)
    (warm : Option (Nat × Option U256)) : Session A B where
  overlay := overlay
  bucket := bucket
  beneficiary := beneficiary
  known := known
  warmLambda := warm.map Prod.fst
  alive := true
  pacer := ⟨⟨0,0⟩,warm.bind Prod.snd,defaultLambdaMs,[],defaultRate,0,0,230000,none,none⟩
  measuredLambda := none
  tasks := []
  pending := none
  spendStop := false
  bucketDrained := false
  finishing := false
  halted := false
  sweepAttempts := 0
  phase := if warm.isSome then .established else .dialing

/-- `store.put`, and the count of what was served directly. -/
def put (c : Common A B) (addr : A) (ok : Bool) : Common A B :=
  { c with
    stored := if ok then insert addr c.stored else c.stored
    directOk := c.directOk + 1 }

def send (c : Common A B) (addrs : List A) : Common A B := { c with sent := c.sent ++ addrs }

/-- `while tasks.try_join_next().is_some()`. -/
def reap (tasks : List (FetchTask A)) : List (FetchTask A) := tasks.filter fun task => decide (task.stage ≠ Stage.done)

/-- The pacer that `run_established` starts with. -/
def newPacer (plan : Plan A) (s : Session A B) : Pacer where
  mirror := ⟨0,0⟩
  announced := s.pacer.announced
  lambdaMs := s.warmLambda.getD ((s.known.bind Known.lambdaMs).getD defaultLambdaMs)
  unvalidated := []
  rate := defaultRate
  settledUnits := 0
  prepaid := if plan.prepay then (s.known.map fun k => k.surplusUnits.val).getD 0 else 0
  avgPrice := 230000
  lastRefresh := none
  lastCheque := none

/-- A cheque is begun. -/
def startEmit (s : Session A B) (purpose : Purpose) (units : Nat) : Session A B :=
  { s with phase := .emitting purpose units ⟨s.beneficiary,units,.opening⟩ }

/-- The dial, and the start of `run_established`. -/
def openStep (plan : Plan A) (c : Common A B) (s : Session A B) (act : Act) :
    Option (Common A B × Session A B) :=
  match s.phase, act with
  | .dialing, .answer true => some (c,{ s with phase := .established })
  | .dialing, .answer false => some (c,{ s with phase := .closed 0 none false })
  | .established, .go =>
    let pacer := newPacer plan s
    if (s.known.bind Known.lambdaMs).isNone && plan.measureLambda && !plan.prepay then
      let t := pacer.threshold
      some (c,{ s with
        pacer := pacer
        phase := .measuring ⟨t / 2,max (wrapMul t 4 / 10) (lambdaProbeUnits * 6),c.now + 15000 * ms⟩ })
    else some (c,{ s with pacer := pacer, phase := .measured none })
  | _, _ => none

/-- The head of the loop that probes for a zero acknowledgement. -/
def probeHead (c : Common A B) (s : Session A B) (t0 : Nat) (zeroAt : Option Nat) : Session A B :=
  if c.now - t0 < lambdaProbeTimeout then { s with phase := .probePause (c.now + lambdaProbeInterval) t0 zeroAt }
  else { s with
    pacer := { s.pacer with lastRefresh := some c.now }
    phase := .measured (some lambdaMaxMs) }

/-- What `run_established` keeps of a measured latency. -/
def noteLambda (s : Session A B) (lambda : Option Nat) : Session A B :=
  match lambda with
  | none => s
  | some l => { s with pacer := { s.pacer with lambdaMs := l }, measuredLambda := some l }

omit [DecidableEq A] [DecidableEq B] in
theorem noteLambda_eq (s : Session A B) (lambda : Option Nat) : noteLambda s lambda = { s with
    pacer := { s.pacer with lambdaMs := lambda.getD s.pacer.lambdaMs }
    measuredLambda := lambda <|> s.measuredLambda } := by
  cases lambda <;> rfl

/-- `measure_lambda`, and what `run_established` does with its result. -/
def measureStep (plan : Plan A) (c : Common A B) (s : Session A B) (act : Act) :
    Option (Common A B × Session A B) :=
  match s.phase, act with
  | .measuring m, .go =>
    if c.now < m.deadline ∧ s.alive ∧ s.pacer.mirror.balance < m.target then
      match pop c.pool s.bucket with
      | none => some (c,{ s with phase := .measureSweep })
      | some (addr,pool) => some ({ c with pool := pool },{ s with phase := .measurePopped m addr })
    else some (c,{ s with phase := .measureSweep })
  | .measurePopped m addr, .go =>
    if addr ∈ c.stored then some (c,{ s with phase := .measuring m }) else
    let price := plan.peerPrice s.overlay addr
    match s.pacer.mirror.tryReserve price m.half with
    -- The loop ends here without putting the address anywhere.
    | none => some (c,{ s with phase := .measureSweep })
    | some mirror =>
      some (c,{ s with pacer := { s.pacer with mirror := mirror }, phase := .measureRetrieving m addr price })
  | .measureRetrieving m addr price, .answer true =>
    some (c,{ s with
      pacer := { s.pacer with mirror := s.pacer.mirror.apply price }
      phase := .measureServed m addr })
  | .measureRetrieving _ addr price, .answer false =>
    some (c,{ s with
      pacer := { s.pacer with mirror := s.pacer.mirror.release price }
      phase := .measureFailed addr })
  | .measureServed m addr, .answer ok => some (put c addr ok,{ s with phase := .measuring m })
  | .measureFailed addr, .go => some (send c [addr],{ s with phase := .measureSweep })
  | .measureSweep, .go =>
    if s.pacer.mirror.balance < lambdaProbeUnits * 4 then some (c,{ s with phase := .measured none })
    else some (c,{ s with phase := .measurePause (c.now + 1200 * ms) s.pacer.mirror.balance })
  | .measurePause wake debt, .go => if wake ≤ c.now then some (c,startEmit s .lambdaSweep debt) else none
  | .probePause wake t0 zeroAt, .go =>
    if wake ≤ c.now then some (c,{ s with phase := .probing t0 zeroAt }) else none
  | .probing t0 zeroAt, .accepted none => some (c,probeHead c s t0 zeroAt)
  | .probing t0 zeroAt, .accepted (some units) =>
    let s := { s with pacer := { s.pacer with settledUnits := wrapAdd s.pacer.settledUnits units.val } }
    let elapsed := min ((c.now - t0) / ms) u64Max
    if units.val = 0 then
      match zeroAt with
      | some first => some (c,{ s with
          pacer := { s.pacer with lastRefresh := some c.now }
          phase := .measured (some first) })
      | none => some (c,probeHead c s t0 (some elapsed))
    else some (c,probeHead c s t0 none)
  | .measured lambda, .go =>
    if plan.prepay && s.pacer.prepaid < 25 * 230000 then
      some (c,startEmit (noteLambda s lambda) .initialPrepay (250 * 230000))
    else some (c,{ noteLambda s lambda with phase := .driving })
  | _, _ => none

/-- What becomes of a connection whose cheque went out. -/
def chequeSent (c : Common A B) (s : Session A B) (purpose : Purpose) (units rate : Nat) : Session A B :=
  match purpose with
  | .lambdaSweep => { s with
      pacer := s.pacer.emitted c.now units rate
      phase := .probePause (c.now + lambdaProbeInterval) c.now none }
  | .settle => { s with pacer := s.pacer.emitted c.now units rate, phase := .turning }
  | .initialPrepay => { s with pacer := s.pacer.prepaidBy c.now units rate, phase := .driving }
  | .topUp => { s with pacer := s.pacer.prepaidBy c.now units rate, phase := .turning }

/-- What becomes of a connection whose cheque did not go out. The third failure of
    a final sweep ends `drive`. -/
def chequeFailed (c : Common A B) (s : Session A B) (purpose : Purpose) : Session A B :=
  match purpose with
  | .lambdaSweep => { s with phase := .measured none }
  | .initialPrepay => { s with phase := .driving }
  | .topUp => { s with phase := .turning }
  | .settle =>
    if s.finishing then
      if 3 ≤ s.sweepAttempts + 1 then
        { s with sweepAttempts := s.sweepAttempts + 1, phase := .returned s.pacer.unpaid }
      else { s with sweepAttempts := s.sweepAttempts + 1, phase := .retrying (c.now + 2000 * ms) }
    else { s with phase := .turning }

/-- `emit` and `emit_prepay`: the call, and what they do with its result. -/
def emitStep (plan : Plan A) (c : Common A B) (s : Session A B) (act : Act) : Option (Common A B × Session A B) :=
  match s.phase, act with
  | .emitting purpose units call, .cheque act =>
    (callStep plan.lim c.bank call act).map fun moved =>
      ({ c with bank := moved.1 },{ s with phase := .emitting purpose units moved.2 })
  | .emitting purpose units call, .go =>
    match call.phase with
    | .ended (.ok outcome) => some (c,chequeSent c s purpose units outcome.rate)
    | .ended (.error _) => some (c,chequeFailed c s purpose)
    | _ => none
  | _, _ => none

/-- The settlement of one turn: whether a cheque is due, for how much. -/
def settle (plan : Plan A) (c : Common A B) (s : Session A B) : Session A B :=
  let debt := s.pacer.mirror.balance
  let due := Pacer.isDue s.pacer.lastCheque c.now chequeMinInterval
  if plan.prepay && !s.finishing && !s.halted then
    let slice := satMul s.pacer.avgPrice 250
    let work := remaining c.pool s.bucket + s.tasks.length + s.pending.toList.length
    let desired := wrapAdd debt (min (wrapMul work s.pacer.avgPrice) slice)
    if due && wrapAdd s.pacer.prepaid (satMul s.pacer.avgPrice 10) < desired then
      startEmit s .topUp (wrapSub desired s.pacer.prepaid)
    else { s with phase := .turning }
  else
    let unpaid := s.pacer.unpaid
    let enough := if s.finishing || s.halted then decide (0 < unpaid) else decide (s.pacer.threshold / 5 ≤ unpaid)
    if enough && due then startEmit s .settle unpaid else { s with phase := .turning }

/-- `drive`. -/
def driveStep (plan : Plan A) (c : Common A B) (s : Session A B) (act : Act) : Option (Common A B × Session A B) :=
  match s.phase, act with
  | .driving, .go =>
    if !s.alive then some (c,{ s with phase := .draining })
    else if s.spendStop then some (c,{ s with phase := .projecting none })
    else some (c,{ s with
      phase := .projecting (some (wrapAdd s.pacer.mirror.balance s.pacer.mirror.reserved - s.pacer.prepaid)) })
  | .draining, .go =>
    if ∀ task ∈ s.tasks, task.stage = .done then
      some (send c s.pending.toList,{ s with
        tasks := []
        pending := none
        phase := .returned s.pacer.unpaid })
    else none
  | .projecting unpaid, .go =>
    let stop := unpaid.all fun u => plan.lim.maxIssuePlur * 92 / 100 < c.bank.issuedPlur + u * s.pacer.rate
    if stop || c.windDown then
      some (send c s.pending.toList,{ s with spendStop := stop, halted := true, pending := none, phase := .admitting })
    else some (c,{ s with spendStop := stop, halted := false, phase := .admitting })
  | .admitting, .go =>
    if !s.finishing && !s.halted && s.tasks.length < plan.pipeline then
      match s.pending with
      | some addr => some (c,{ s with pending := none, phase := .popped addr })
      | none =>
        match pop c.pool s.bucket with
        | none => some (c,{ s with bucketDrained := true, phase := .reaping })
        | some (addr,pool) => some ({ c with pool := pool },{ s with phase := .popped addr })
    else some (c,{ s with phase := .reaping })
  | .popped addr, .go =>
    if addr ∈ c.stored then some (c,{ s with phase := .admitting }) else
    let price := plan.peerPrice s.overlay addr
    match { s.pacer with avgPrice := max price 1 }.admitOne c.now price with
    | (pacer,false) => some (c,{ s with pacer := pacer, pending := some addr, phase := .reaping })
    | (pacer,true) => some (c,{ s with
        pacer := pacer
        tasks := s.tasks ++ [⟨addr,price,.retrieving⟩]
        phase := .admitting })
  | .reaping, .go =>
    let s := { s with tasks := reap s.tasks }
    if Pacer.isDue s.pacer.lastRefresh c.now refreshMinInterval then
      if 0 < s.pacer.unpaid then some (c,{ s with phase := .refreshing })
      else some (c,{ s with pacer := { s.pacer with lastRefresh := some c.now }, phase := .settling })
    else some (c,{ s with phase := .settling })
  | .refreshing, .accepted units =>
    some (c,{ s with pacer := s.pacer.refreshed c.now (units.map Fin.val), phase := .settling })
  | .settling, .go => some (c,settle plan c s)
  | .retrying wake, .go => if wake ≤ c.now then some (c,{ s with phase := .turning }) else none
  | .turning, .go =>
    let finishing := s.finishing || (s.pending.isNone && s.tasks.isEmpty && (s.bucketDrained || s.halted))
    if finishing && s.tasks.isEmpty && s.pacer.unpaid = 0 then
      some (c,{ s with finishing := finishing, phase := .returned 0 })
    else some (c,{ s with finishing := finishing, phase := .sleeping (c.now + tick) })
  | .sleeping wake, .go => if wake ≤ c.now then some (c,{ s with phase := .driving }) else none
  | _, _ => none

/-- The end of `run_established`: the peer is asked to confirm a zero debt, the
    observation is recorded, and a settled connection is parked. -/
def closeStep (plan : Plan A) (c : Common A B) (s : Session A B) (act : Act) : Option (Common A B × Session A B) :=
  match s.phase, act with
  | .returned residual, .go =>
    let consumed := s.pacer.mirror.balance
    if residual = 0 ∧ s.alive then
      let wait := max 2500 (min s.pacer.lambdaMs lambdaMaxMs) + 1500
      some (c,{ s with phase := .confirmPause (c.now + wait * ms) consumed })
    else some (c,{ s with phase := .recording residual consumed false })
  | .confirmPause wake consumed, .go => if wake ≤ c.now then some (c,{ s with phase := .confirming consumed }) else none
  | .confirming consumed, .accepted units =>
    some (c,{ s with phase := .recording 0 consumed (units = some 0) })
  | .recording residual consumed confirmed, .go =>
    let parked := s.pacer.prepaid - s.pacer.mirror.balance
    let observed : Observation :=
      ⟨s.pacer.threshold,s.measuredLambda,s.pacer.settledUnits,consumed,if plan.prepay then some parked else none,
        residual = 0 && confirmed⟩
    some (c,{ s with phase := .closed residual (some observed) (plan.parkInto && residual = 0 && s.alive) })
  | _, _ => none

/-- A spawned fetch. -/
def taskStep (c : Common A B) (s : Session A B) (k : Nat) (ok : Bool) : Option (Common A B × Session A B) :=
  match s.tasks[k]? with
  | some ⟨addr,price,.retrieving⟩ =>
    if ok then some (c,{ s with
      pacer := { s.pacer with mirror := s.pacer.mirror.apply price }
      tasks := s.tasks.set k ⟨addr,price,.served⟩ })
    else some (c,{ s with
      pacer := { s.pacer with mirror := s.pacer.mirror.release price }
      tasks := s.tasks.set k ⟨addr,price,.failed⟩ })
  | some ⟨addr,price,.served⟩ => some (put c addr ok,{ s with tasks := s.tasks.set k ⟨addr,price,.done⟩ })
  | some ⟨addr,price,.failed⟩ => some (send c [addr],{ s with tasks := s.tasks.set k ⟨addr,price,.done⟩ })
  | _ => none

/-- One step of a connection. -/
def sessionStep (plan : Plan A) (c : Common A B) (s : Session A B) (act : Act) : Option (Common A B × Session A B) :=
  match act with
  | .task k ok => taskStep c s k ok
  | .hangUp => some (c,{ s with alive := false })
  | .announce t => some (c,{ s with pacer := { s.pacer with announced := some t } })
  | act => openStep plan c s act <|> measureStep plan c s act <|> emitStep plan c s act <|> driveStep plan c s act <|>
      closeStep plan c s act

end Directswarm.Connection
