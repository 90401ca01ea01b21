import Mathlib.Data.Option.Basic
import Directswarm.Connection

/-!
What a step of a connection can do, by where the connection stood: one
constructor for each way through `sessionStep`, with the guards that hold there.
Every invariant of a connection is derived from `step_moves`.
-/
namespace Directswarm.Connection
open Directswarm.Words Directswarm.Cheques Directswarm.Pacing Directswarm.WorkPool

variable {A B : Type} [DecidableEq A] [DecidableEq B]

inductive Moves (plan : Plan A) (c : Common A B) (s : Session A B) : Act → Common A B → Session A B → Prop
  -- The peer.
  | hungUp : Moves plan c s .hangUp c { s with alive := false }
  | announced (t : U256) : Moves plan c s (.announce t) c { s with pacer := { s.pacer with announced := some t } }
  -- A spawned fetch.
  | taskServed {k : Nat} {addr : A} {price : Nat} (at_ : s.tasks[k]? = some ⟨addr,price,.retrieving⟩) :
      Moves plan c s (.task k true) c { s with
        pacer := { s.pacer with mirror := s.pacer.mirror.apply price }
        tasks := s.tasks.set k ⟨addr,price,.served⟩ }
  | taskFailed {k : Nat} {addr : A} {price : Nat} (at_ : s.tasks[k]? = some ⟨addr,price,.retrieving⟩) :
      Moves plan c s (.task k false) c { s with
        pacer := { s.pacer with mirror := s.pacer.mirror.release price }
        tasks := s.tasks.set k ⟨addr,price,.failed⟩ }
  | taskStored {k : Nat} {addr : A} {price : Nat} {ok : Bool} (at_ : s.tasks[k]? = some ⟨addr,price,.served⟩) :
      Moves plan c s (.task k ok) (put c addr ok) { s with tasks := s.tasks.set k ⟨addr,price,.done⟩ }
  | taskSent {k : Nat} {addr : A} {price : Nat} {ok : Bool} (at_ : s.tasks[k]? = some ⟨addr,price,.failed⟩) :
      Moves plan c s (.task k ok) (send c [addr]) { s with tasks := s.tasks.set k ⟨addr,price,.done⟩ }
  -- The dial and the start.
  | dialed (at_ : s.phase = .dialing) : Moves plan c s (.answer true) c { s with phase := .established }
  | undialed (at_ : s.phase = .dialing) : Moves plan c s (.answer false) c { s with phase := .closed 0 none false }
  | startMeasuring (at_ : s.phase = .established) (unknown : s.known.bind Known.lambdaMs = none)
      (mode : plan.measureLambda = true ∧ plan.prepay = false) :
      Moves plan c s .go c { s with
        pacer := newPacer plan s
        phase := .measuring ⟨(newPacer plan s).threshold / 2,
          max (wrapMul (newPacer plan s).threshold 4 / 10) (lambdaProbeUnits * 6),c.now + 15000 * ms⟩ }
  | unmeasured (at_ : s.phase = .established) :
      Moves plan c s .go c { s with pacer := newPacer plan s, phase := .measured none }
  -- `measure_lambda`.
  | measurePop {m : Measure} {addr : A} {pool : Buckets A} (at_ : s.phase = .measuring m)
      (popped : pop c.pool s.bucket = some (addr,pool)) :
      Moves plan c s .go { c with pool := pool } { s with phase := .measurePopped m addr }
  | measureEnd {m : Measure} (at_ : s.phase = .measuring m) : Moves plan c s .go c { s with phase := .measureSweep }
  | measureSkip {m : Measure} {addr : A} (at_ : s.phase = .measurePopped m addr) (there : addr ∈ c.stored) :
      Moves plan c s .go c { s with phase := .measuring m }
  | measureLost {m : Measure} {addr : A} (at_ : s.phase = .measurePopped m addr) (absent : addr ∉ c.stored)
      (refused : s.pacer.mirror.tryReserve (plan.peerPrice s.overlay addr) m.half = none) :
      Moves plan c s .go c { s with phase := .measureSweep }
  | measureReserve {m : Measure} {addr : A} {mirror : Mirror} (at_ : s.phase = .measurePopped m addr)
      (absent : addr ∉ c.stored)
      (reserved : s.pacer.mirror.tryReserve (plan.peerPrice s.overlay addr) m.half = some mirror) :
      Moves plan c s .go c { s with
        pacer := { s.pacer with mirror := mirror }
        phase := .measureRetrieving m addr (plan.peerPrice s.overlay addr) }
  | measureServe {m : Measure} {addr : A} {price : Nat} (at_ : s.phase = .measureRetrieving m addr price) :
      Moves plan c s (.answer true) c { s with
        pacer := { s.pacer with mirror := s.pacer.mirror.apply price }
        phase := .measureServed m addr }
  | measureFail {m : Measure} {addr : A} {price : Nat} (at_ : s.phase = .measureRetrieving m addr price) :
      Moves plan c s (.answer false) c { s with
        pacer := { s.pacer with mirror := s.pacer.mirror.release price }
        phase := .measureFailed addr }
  | measureStore {m : Measure} {addr : A} {ok : Bool} (at_ : s.phase = .measureServed m addr) :
      Moves plan c s (.answer ok) (put c addr ok) { s with phase := .measuring m }
  | measureSend {addr : A} (at_ : s.phase = .measureFailed addr) :
      Moves plan c s .go (send c [addr]) { s with phase := .measureSweep }
  | measureLittle (at_ : s.phase = .measureSweep) : Moves plan c s .go c { s with phase := .measured none }
  | measureWait (at_ : s.phase = .measureSweep) :
      Moves plan c s .go c { s with phase := .measurePause (c.now + 1200 * ms) s.pacer.mirror.balance }
  | sweepBegin {wake debt : Nat} (at_ : s.phase = .measurePause wake debt) (woken : wake ≤ c.now) :
      Moves plan c s .go c (startEmit s .lambdaSweep debt)
  | probeBegin {wake t0 : Nat} {zeroAt : Option Nat} (at_ : s.phase = .probePause wake t0 zeroAt) (woken : wake ≤ c.now) :
      Moves plan c s .go c { s with phase := .probing t0 zeroAt }
  | probeAgain {t0 : Nat} {zeroAt zeroAt' : Option Nat} {units : Option (Fin (2 ^ 64))}
      (at_ : s.phase = .probing t0 zeroAt) (wake settled : Nat) :
      Moves plan c s (.accepted units) c { s with
        pacer := { s.pacer with settledUnits := settled }
        phase := .probePause wake t0 zeroAt' }
  | probeEnd {t0 : Nat} {zeroAt : Option Nat} {units : Option (Fin (2 ^ 64))} (at_ : s.phase = .probing t0 zeroAt)
      (lambda settled : Nat) :
      Moves plan c s (.accepted units) c { s with
        pacer := { s.pacer with settledUnits := settled, lastRefresh := some c.now }
        phase := .measured (some lambda) }
  | prepayBegin {lambda : Option Nat} (at_ : s.phase = .measured lambda) (mode : plan.prepay = true)
      (short : s.pacer.prepaid < 25 * 230000) :
      Moves plan c s .go c (startEmit (noteLambda s lambda) .initialPrepay (250 * 230000))
  | driveBegin {lambda : Option Nat} (at_ : s.phase = .measured lambda)
      (enough : plan.prepay = true → 25 * 230000 ≤ s.pacer.prepaid) :
      Moves plan c s .go c { noteLambda s lambda with phase := .driving }
  -- A cheque.
  | calling {purpose : Purpose} {units : Nat} {call call' : Call B} {act : CallAct} {bank : Bank B}
      (at_ : s.phase = .emitting purpose units call) (taken : callStep plan.lim c.bank call act = some (bank,call')) :
      Moves plan c s (.cheque act) { c with bank := bank } { s with phase := .emitting purpose units call' }
  | called {purpose : Purpose} {units : Nat} {call : Call B} {outcome : Outcome}
      (at_ : s.phase = .emitting purpose units call) (ended : call.phase = .ended (.ok outcome)) :
      Moves plan c s .go c (chequeSent c s purpose units outcome.rate)
  | uncalled {purpose : Purpose} {units : Nat} {call : Call B} {why : EmitError}
      (at_ : s.phase = .emitting purpose units call) (ended : call.phase = .ended (.error why)) :
      Moves plan c s .go c (chequeFailed c s purpose)
  -- `drive`.
  | dead (at_ : s.phase = .driving) (dead : s.alive = false) : Moves plan c s .go c { s with phase := .draining }
  | turn {unpaid : Option Nat} (at_ : s.phase = .driving) (live : s.alive = true)
      (sampled : ∀ u ∈ unpaid, s.spendStop = false ∧
        u = wrapAdd s.pacer.mirror.balance s.pacer.mirror.reserved - s.pacer.prepaid)
      (stopped : unpaid = none → s.spendStop = true) :
      Moves plan c s .go c { s with phase := .projecting unpaid }
  | drained (at_ : s.phase = .draining) (joined : ∀ task ∈ s.tasks, task.stage = .done) :
      Moves plan c s .go (send c s.pending.toList) { s with
        tasks := []
        pending := none
        phase := .returned s.pacer.unpaid }
  | halt {unpaid : Option Nat} {stop : Bool} (at_ : s.phase = .projecting unpaid)
      (stopped : stop = unpaid.all fun u => plan.lim.maxIssuePlur * 92 / 100 < c.bank.issuedPlur + u * s.pacer.rate)
      (halted : (stop || c.windDown) = true) :
      Moves plan c s .go (send c s.pending.toList) { s with
        spendStop := stop
        halted := true
        pending := none
        phase := .admitting }
  | project {u : Nat} (at_ : s.phase = .projecting (some u))
      (room : c.bank.issuedPlur + u * s.pacer.rate ≤ plan.lim.maxIssuePlur * 92 / 100) (onward : c.windDown = false) :
      Moves plan c s .go c { s with spendStop := false, halted := false, phase := .admitting }
  | resume {addr : A} (at_ : s.phase = .admitting) (onward : s.finishing = false ∧ s.halted = false)
      (room : s.tasks.length < plan.pipeline) (held : s.pending = some addr) :
      Moves plan c s .go c { s with pending := none, phase := .popped addr }
  | take {addr : A} {pool : Buckets A} (at_ : s.phase = .admitting) (onward : s.finishing = false ∧ s.halted = false)
      (room : s.tasks.length < plan.pipeline) (free : s.pending = none)
      (popped : pop c.pool s.bucket = some (addr,pool)) :
      Moves plan c s .go { c with pool := pool } { s with phase := .popped addr }
  | empty (at_ : s.phase = .admitting) (onward : s.finishing = false ∧ s.halted = false) (free : s.pending = none)
      (none_ : pop c.pool s.bucket = none) :
      Moves plan c s .go c { s with bucketDrained := true, phase := .reaping }
  | full (at_ : s.phase = .admitting)
      (stop : s.finishing = true ∨ s.halted = true ∨ plan.pipeline ≤ s.tasks.length) : Moves plan c s .go c { s with phase := .reaping }
  | skip {addr : A} (at_ : s.phase = .popped addr) (there : addr ∈ c.stored) :
      Moves plan c s .go c { s with phase := .admitting }
  | refuse {addr : A} {pacer : Pacer} (at_ : s.phase = .popped addr) (absent : addr ∉ c.stored)
      (refused : { s.pacer with avgPrice := max (plan.peerPrice s.overlay addr) 1 }.admitOne c.now
        (plan.peerPrice s.overlay addr) = (pacer,false)) :
      Moves plan c s .go c { s with pacer := pacer, pending := some addr, phase := .reaping }
  | admitOne {addr : A} {pacer : Pacer} (at_ : s.phase = .popped addr) (absent : addr ∉ c.stored)
      (admitted : { s.pacer with avgPrice := max (plan.peerPrice s.overlay addr) 1 }.admitOne c.now
        (plan.peerPrice s.overlay addr) = (pacer,true)) :
      Moves plan c s .go c { s with
        pacer := pacer
        tasks := s.tasks ++ [⟨addr,plan.peerPrice s.overlay addr,.retrieving⟩]
        phase := .admitting }
  | refreshBegin (at_ : s.phase = .reaping) (owes : 0 < s.pacer.unpaid) : Moves plan c s .go c { s with tasks := reap s.tasks, phase := .refreshing }
  | refreshSkip (at_ : s.phase = .reaping) (lastRefresh : Option Nat) :
      Moves plan c s .go c { s with
        tasks := reap s.tasks
        pacer := { s.pacer with lastRefresh := lastRefresh }
        phase := .settling }
  | refreshed {units : Option (Fin (2 ^ 64))} (at_ : s.phase = .refreshing) :
      Moves plan c s (.accepted units) c { s with
        pacer := s.pacer.refreshed c.now (units.map Fin.val)
        phase := .settling }
  | settled (at_ : s.phase = .settling) : Moves plan c s .go c (settle plan c s)
  | retry {wake : Nat} (at_ : s.phase = .retrying wake) (woken : wake ≤ c.now) :
      Moves plan c s .go c { s with phase := .turning }
  | finish (at_ : s.phase = .turning) (idle : s.tasks = []) (settled : s.pacer.unpaid = 0)
      (ready : s.finishing = true ∨ s.pending = none ∧ (s.bucketDrained = true ∨ s.halted = true)) :
      Moves plan c s .go c { s with finishing := true, phase := .returned 0 }
  | sleep {finishing : Bool} (at_ : s.phase = .turning)
      (ready : finishing = true → s.finishing = true ∨
        s.pending = none ∧ s.tasks = [] ∧ (s.bucketDrained = true ∨ s.halted = true))
      (kept : s.finishing = true → finishing = true) :
      Moves plan c s .go c { s with finishing := finishing, phase := .sleeping (c.now + tick) }
  | wake {wake : Nat} (at_ : s.phase = .sleeping wake) (woken : wake ≤ c.now) :
      Moves plan c s .go c { s with phase := .driving }
  -- The end of `run_established`.
  | confirmBegin (at_ : s.phase = .returned 0) (live : s.alive = true) :
      Moves plan c s .go c { s with
        phase := .confirmPause (c.now + (max 2500 (min s.pacer.lambdaMs lambdaMaxMs) + 1500) * ms)
          s.pacer.mirror.balance }
  | unconfirmed {residual : Nat} (at_ : s.phase = .returned residual) (why : residual = 0 → s.alive = false) :
      Moves plan c s .go c { s with phase := .recording residual s.pacer.mirror.balance false }
  | confirmWake {wake consumed : Nat} (at_ : s.phase = .confirmPause wake consumed) (woken : wake ≤ c.now) :
      Moves plan c s .go c { s with phase := .confirming consumed }
  | confirmed {consumed : Nat} {units : Option (Fin (2 ^ 64))} (at_ : s.phase = .confirming consumed) :
      Moves plan c s (.accepted units) c { s with phase := .recording 0 consumed (units = some 0) }
  | recorded {residual consumed : Nat} {confirmed : Bool} (at_ : s.phase = .recording residual consumed confirmed) :
      Moves plan c s .go c { s with
        phase := .closed residual
          (some ⟨s.pacer.threshold,s.measuredLambda,s.pacer.settledUnits,consumed,
            if plan.prepay then some (s.pacer.prepaid - s.pacer.mirror.balance) else none,residual = 0 && confirmed⟩)
          (plan.parkInto && residual = 0 && s.alive) }

section Inversion
variable {plan : Plan A} {c c' : Common A B} {s s' : Session A B} {act : Act}

theorem taskStep_moves {k : Nat} {ok : Bool} (taken : taskStep c s k ok = some (c',s')) :
    Moves plan c s (.task k ok) c' s' := by
  unfold taskStep at taken
  split at taken
  · next addr price at_ =>
    cases ok <;> cases taken
    · exact .taskFailed at_
    · exact .taskServed at_
  · next at_ => cases taken; exact .taskStored at_
  · next at_ => cases taken; exact .taskSent at_
  · cases taken

theorem openStep_moves (taken : openStep plan c s act = some (c',s')) : Moves plan c s act c' s' := by
  unfold openStep at taken
  split at taken
  · next at_ => cases taken; exact .dialed at_
  · next at_ => cases taken; exact .undialed at_
  · next at_ =>
    split at taken
    · next mode =>
      simp only [Bool.and_eq_true,Bool.not_eq_true',Option.isNone_iff_eq_none] at mode
      cases taken
      exact .startMeasuring at_ mode.1.1 ⟨mode.1.2,mode.2⟩
    · cases taken; exact .unmeasured at_
  · cases taken

theorem probeHead_moves {t0 : Nat} {zeroAt zeroAt' : Option Nat} {units : Option (Fin (2 ^ 64))} (settled : Nat)
    (at_ : s.phase = .probing t0 zeroAt) :
    Moves plan c s (.accepted units) c
      (probeHead c { s with pacer := { s.pacer with settledUnits := settled } } t0 zeroAt') := by
  unfold probeHead
  split
  · exact .probeAgain at_ _ settled
  · exact .probeEnd at_ _ settled

theorem measureStep_moves (taken : measureStep plan c s act = some (c',s')) : Moves plan c s act c' s' := by
  unfold measureStep at taken
  split at taken
  · next m at_ =>
    split at taken
    · split at taken
      · cases taken; exact .measureEnd at_
      · next addr pool popped => cases taken; exact .measurePop at_ popped
    · cases taken; exact .measureEnd at_
  · next m addr at_ =>
    split at taken
    · next there => cases taken; exact .measureSkip at_ there
    · next absent =>
      simp only at taken
      split at taken
      · next refused => cases taken; exact .measureLost at_ absent refused
      · next mirror reserved => cases taken; exact .measureReserve at_ absent reserved
  · next at_ => cases taken; exact .measureServe at_
  · next at_ => cases taken; exact .measureFail at_
  · next at_ => cases taken; exact .measureStore at_
  · next at_ => cases taken; exact .measureSend at_
  · next at_ =>
    split at taken
    · cases taken; exact .measureLittle at_
    · cases taken; exact .measureWait at_
  · next at_ =>
    split at taken
    · next woken => cases taken; exact .sweepBegin at_ woken
    · cases taken
  · next at_ =>
    split at taken
    · next woken => cases taken; exact .probeBegin at_ woken
    · cases taken
  · next at_ => cases taken; exact probeHead_moves s.pacer.settledUnits at_
  · next units at_ =>
    split at taken
    · split at taken
      · cases taken; exact .probeEnd at_ _ _
      · cases taken; exact probeHead_moves _ at_
    · cases taken; exact probeHead_moves _ at_
  · next lambda at_ =>
    split at taken
    · next short =>
      simp only [Bool.and_eq_true,decide_eq_true_eq] at short
      cases taken
      exact .prepayBegin at_ short.1 short.2
    · next enough =>
      simp only [Bool.and_eq_true,decide_eq_true_eq,not_and,not_lt] at enough
      cases taken
      exact .driveBegin at_ enough
  · cases taken

theorem emitStep_moves (taken : emitStep plan c s act = some (c',s')) : Moves plan c s act c' s' := by
  unfold emitStep at taken
  split at taken
  · next at_ =>
    obtain ⟨⟨bank,call'⟩,moved,same⟩ := Option.map_eq_some_iff.mp taken
    cases same
    exact .calling at_ moved
  · next at_ =>
    split at taken
    · next outcome ended => cases taken; exact .called at_ ended
    · next why ended => cases taken; exact .uncalled at_ ended
    · cases taken
  · cases taken

theorem driveStep_moves (taken : driveStep plan c s act = some (c',s')) : Moves plan c s act c' s' := by
  unfold driveStep at taken
  split at taken
  · next at_ =>
    split at taken
    · next dead => cases taken; exact .dead at_ (by simpa using dead)
    · next live =>
      have live : s.alive = true := by simpa using live
      split at taken
      · next stopped => cases taken; exact .turn at_ live (by simp) fun _ => stopped
      · next onward => cases taken; exact .turn at_ live (by simpa using onward) (by simp)
  · next at_ =>
    split at taken
    · next joined => cases taken; exact .drained at_ joined
    · cases taken
  · next unpaid at_ =>
    simp only at taken
    split at taken
    · next halted => cases taken; exact .halt at_ rfl halted
    · next onward =>
      simp only [Bool.or_eq_true,not_or,Bool.not_eq_true] at onward
      cases unpaid with
      | none => simp at onward
      | some u =>
        cases taken
        have room := onward.1
        simp only [Option.all_some,decide_eq_false_iff_not,not_lt] at room
        rw [onward.1]
        exact .project at_ room onward.2
  · next at_ =>
    split at taken
    · next onward =>
      simp only [Bool.and_eq_true,Bool.not_eq_true',decide_eq_true_eq] at onward
      split at taken
      · next addr held => cases taken; exact .resume at_ onward.1 onward.2 held
      · next free =>
        split at taken
        · next none_ => cases taken; exact .empty at_ onward.1 free none_
        · next addr pool popped => cases taken; exact .take at_ onward.1 onward.2 free popped
    · next stop =>
      simp only [Bool.and_eq_true,Bool.not_eq_true',decide_eq_true_eq,not_and,not_lt] at stop
      cases taken
      refine .full at_ ?_
      cases finishing : s.finishing
      · cases halted : s.halted
        · exact .inr (.inr (stop ⟨finishing,halted⟩))
        · exact .inr (.inl rfl)
      · exact .inl rfl
  · next addr at_ =>
    split at taken
    · next there => cases taken; exact .skip at_ there
    · next absent =>
      simp only at taken
      split at taken
      · next pacer refused => cases taken; exact .refuse at_ absent refused
      · next pacer admitted => cases taken; exact .admitOne at_ absent admitted
  · next at_ =>
    simp only at taken
    split at taken
    · split at taken
      · next owes => cases taken; exact .refreshBegin at_ owes
      · cases taken; exact .refreshSkip at_ _
    · cases taken; exact .refreshSkip at_ s.pacer.lastRefresh
  · next at_ => cases taken; exact .refreshed at_
  · next at_ => cases taken; exact .settled at_
  · next at_ =>
    split at taken
    · next woken => cases taken; exact .retry at_ woken
    · cases taken
  · next at_ =>
    simp only at taken
    split at taken
    · next ends =>
      simp only [Bool.and_eq_true,Bool.or_eq_true,Option.isNone_iff_eq_none,List.isEmpty_iff,decide_eq_true_eq] at ends
      obtain ⟨⟨ready,idle⟩,settled⟩ := ends
      cases taken
      have finishing : (s.finishing || s.pending.isNone && s.tasks.isEmpty && (s.bucketDrained || s.halted)) = true := by
        simpa [idle] using ready
      rw [finishing]
      exact .finish at_ idle settled (ready.imp_right fun both => ⟨both.1.1,both.2⟩)
    · cases taken
      refine .sleep at_ (fun finishing => ?_) (fun finishing => ?_)
      · simp only [Bool.and_eq_true,Bool.or_eq_true,Option.isNone_iff_eq_none,List.isEmpty_iff] at finishing
        exact finishing.imp_right fun both => ⟨both.1.1,both.1.2,both.2⟩
      · rw [finishing]; rfl
  · next at_ =>
    split at taken
    · next woken => cases taken; exact .wake at_ woken
    · cases taken
  · cases taken

theorem closeStep_moves (taken : closeStep plan c s act = some (c',s')) : Moves plan c s act c' s' := by
  unfold closeStep at taken
  split at taken
  · next residual at_ =>
    simp only at taken
    split at taken
    · next live =>
      cases taken
      obtain ⟨rfl,live⟩ := live
      exact .confirmBegin at_ live
    · next other =>
      cases taken
      refine .unconfirmed at_ fun zero => ?_
      simpa [zero] using other
  · next at_ =>
    split at taken
    · next woken => cases taken; exact .confirmWake at_ woken
    · cases taken
  · next at_ => cases taken; exact .confirmed at_
  · next at_ => cases taken; exact .recorded at_
  · cases taken

theorem step_moves (taken : sessionStep plan c s act = some (c',s')) : Moves plan c s act c' s' := by
  unfold sessionStep at taken
  split at taken
  · exact taskStep_moves taken
  · cases taken; exact .hungUp
  · cases taken; exact .announced _
  · simp only [Option.orElse_eq_some] at taken
    rcases taken with opened | ⟨-,measured | ⟨-,emitted | ⟨-,driven | ⟨-,closed⟩⟩⟩⟩
    · exact openStep_moves opened
    · exact measureStep_moves measured
    · exact emitStep_moves emitted
    · exact driveStep_moves driven
    · exact closeStep_moves closed

end Inversion

/-! ### When a connection holds no work -/

/-- Before `drive` begins. -/
def Phase.early : Phase A B → Bool
  | .dialing | .established | .measuring _ | .measurePopped _ _ | .measureRetrieving _ _ _ | .measureServed _ _
  | .measureFailed _ | .measureSweep | .measurePause _ _ | .probePause _ _ _ | .probing _ _ | .measured _
  | .emitting .lambdaSweep _ _ | .emitting .initialPrepay _ _ => true
  | _ => false

/-- After `drive` returned. -/
def Phase.late : Phase A B → Bool
  | .returned _ | .confirmPause _ _ | .confirming _ | .recording _ _ _ | .closed _ _ _ => true
  | _ => false

/-- A connection spawns fetches and keeps an address back only inside `drive`, and
    not once it is finishing. -/
structure Idle (s : Session A B) : Prop where
  early : s.phase.early = true → s.tasks = [] ∧ s.pending = none ∧ s.finishing = false
  finishing : s.finishing = true → s.tasks = [] ∧ s.pending = none
  late : s.phase.late = true → s.tasks = [] ∧ s.pending = none
  popped : ∀ addr, s.phase = .popped addr → s.finishing = false ∧ s.pending = none

omit [DecidableEq A] [DecidableEq B] in
/-- A turn's settlement sends a cheque or does nothing. -/
theorem settle_cases (plan : Plan A) (c : Common A B) (s : Session A B) :
    settle plan c s = { s with phase := .turning } ∨
      (∃ units, plan.prepay = true ∧ s.finishing = false ∧ s.halted = false ∧
        settle plan c s = startEmit s .topUp units) ∨
      settle plan c s = startEmit s .settle s.pacer.unpaid := by
  unfold settle
  simp only
  split
  · next mode =>
    simp only [Bool.and_eq_true,Bool.not_eq_true'] at mode
    split
    · exact .inr (.inl ⟨_,mode.1.1,mode.1.2,mode.2,rfl⟩)
    · exact .inl rfl
  · split <;> split
    · exact .inr (.inr rfl)
    · exact .inl rfl
    · exact .inr (.inr rfl)
    · exact .inl rfl

omit [DecidableEq A] [DecidableEq B] in
theorem idle_spawn (overlay : A) (bucket : Nat) (beneficiary : B) (known : Option Known)
    (warm : Option (Nat × Option U256)) : Idle (spawn overlay bucket beneficiary known warm) := by
  cases warm <;> exact ⟨fun _ => ⟨rfl,rfl,rfl⟩,nofun,nofun,nofun⟩

theorem idle_step {plan : Plan A} {c c' : Common A B} {s s' : Session A B} {act : Act} (idle : Idle s)
    (moves : Moves plan c s act c' s') : Idle s' := by
  obtain ⟨early,finishing,late,popped⟩ := idle
  cases moves with
  | hungUp | announced t => exact ⟨early,finishing,late,popped⟩
  | taskServed at_ | taskFailed at_ | taskStored at_ | taskSent at_ =>
    have busy : s.tasks ≠ [] := by rintro none_; simp [none_] at at_
    exact ⟨fun h => absurd (early h).1 busy,fun h => absurd (finishing h).1 busy,fun h => absurd (late h).1 busy,popped⟩
  | settled at_ =>
    rcases settle_cases plan c s with same | ⟨units,-,-,-,same⟩ | same <;>
      exact same ▸ ⟨nofun,finishing,nofun,nofun⟩
  | @called purpose units call outcome at_ ended =>
    cases purpose with
    | lambdaSweep => exact ⟨fun _ => early (by rw [at_]; rfl),finishing,nofun,nofun⟩
    | initialPrepay | topUp | settle => exact ⟨nofun,finishing,nofun,nofun⟩
  | @uncalled purpose units call why at_ ended =>
    cases purpose with
    | lambdaSweep => exact ⟨fun _ => early (by rw [at_]; rfl),finishing,nofun,nofun⟩
    | initialPrepay | topUp => exact ⟨nofun,finishing,nofun,nofun⟩
    | settle =>
      simp only [chequeFailed]
      split
      · next ends =>
        split
        · exact ⟨nofun,finishing,fun _ => finishing ends,nofun⟩
        · exact ⟨nofun,finishing,nofun,nofun⟩
      · exact ⟨nofun,finishing,nofun,nofun⟩
  | @calling purpose units call call' act bank at_ taken =>
    refine ⟨fun h => early ?_,finishing,nofun,nofun⟩
    rw [at_]
    cases purpose <;> first | rfl | cases h
  | prepayBegin at_ mode short =>
    rw [noteLambda_eq]
    exact ⟨fun _ => early (by rw [at_]; rfl),finishing,nofun,nofun⟩
  | driveBegin at_ enough => rw [noteLambda_eq]; exact ⟨nofun,finishing,nofun,nofun⟩
  | drained at_ joined => exact ⟨nofun,fun _ => ⟨rfl,rfl⟩,fun _ => ⟨rfl,rfl⟩,nofun⟩
  | halt at_ stopped halted => exact ⟨nofun,fun h => ⟨(finishing h).1,rfl⟩,nofun,nofun⟩
  | resume at_ onward room held =>
    exact ⟨nofun,fun h => absurd (onward.1.symm.trans h) (by decide),nofun,fun _ _ => ⟨onward.1,rfl⟩⟩
  | take at_ onward room free there => exact ⟨nofun,finishing,nofun,fun _ _ => ⟨onward.1,free⟩⟩
  | refuse at_ absent refused =>
    exact ⟨nofun,fun h => absurd ((popped _ at_).1.symm.trans h) (by decide),nofun,nofun⟩
  | admitOne at_ absent admitted =>
    exact ⟨nofun,fun h => absurd ((popped _ at_).1.symm.trans h) (by decide),nofun,nofun⟩
  | refreshBegin at_ owes | refreshSkip at_ lastRefresh =>
    refine ⟨nofun,fun h => ⟨?_,(finishing h).2⟩,nofun,nofun⟩
    simp [(finishing h).1,reap]
  | finish at_ idle settled ready =>
    have rest : s.tasks = [] ∧ s.pending = none := ⟨idle,ready.elim (fun h => (finishing h).2) And.left⟩
    exact ⟨nofun,fun _ => rest,fun _ => rest,nofun⟩
  | sleep at_ ready kept =>
    exact ⟨nofun,fun h => (ready h).elim finishing fun both => ⟨both.2.1,both.1⟩,nofun,nofun⟩
  | confirmBegin at_ live | unconfirmed at_ why | confirmWake at_ woken | confirmed at_ | recorded at_ =>
    exact ⟨nofun,finishing,fun _ => late (by rw [at_]; rfl),nofun⟩
  | dialed at_ | startMeasuring at_ unknown mode | unmeasured at_ | measurePop at_ there | measureEnd at_
  | measureSkip at_ there | measureLost at_ absent refused | measureReserve at_ absent reserved | measureServe at_
  | measureFail at_ | measureStore at_ | measureSend at_ | measureLittle at_ | measureWait at_ | sweepBegin at_ woken
  | probeBegin at_ woken | probeAgain at_ wake settled | probeEnd at_ lambda settled =>
    exact ⟨fun _ => early (by rw [at_]; rfl),finishing,nofun,nofun⟩
  | undialed at_ =>
    have rest := early (by rw [at_]; rfl)
    exact ⟨nofun,finishing,fun _ => ⟨rest.1,rest.2.1⟩,nofun⟩
  | _ => exact ⟨nofun,finishing,nofun,nofun⟩

/-- A connection whose `drive` returned only comes to its end. -/
theorem late_step {plan : Plan A} {c c' : Common A B} {s s' : Session A B} {act : Act} (late : s.phase.late = true)
    (moves : Moves plan c s act c' s') : s'.phase.late = true := by
  cases moves with
  | hungUp | announced t | taskServed at_ | taskFailed at_ | taskStored at_ | taskSent at_ => exact late
  | undialed at_ | drained at_ joined | finish at_ idle settled ready | confirmBegin at_ live | unconfirmed at_ why
  | confirmWake at_ woken | confirmed at_ | recorded at_ => rfl
  | settled at_ | calling at_ taken | called at_ ended | uncalled at_ ended => rw [at_] at late; cases late
  | _ => simp_all [Phase.late]

/-- Whom a connection is with, and what was known of the peer, stays. -/
theorem identity_step {plan : Plan A} {c c' : Common A B} {s s' : Session A B} {act : Act}
    (moves : Moves plan c s act c' s') :
    s'.overlay = s.overlay ∧ s'.bucket = s.bucket ∧ s'.beneficiary = s.beneficiary ∧ s'.known = s.known := by
  cases moves with
  | prepayBegin at_ mode short | driveBegin at_ enough => rw [noteLambda_eq]; exact ⟨rfl,rfl,rfl,rfl⟩
  | @called purpose units call outcome at_ ended => cases purpose <;> exact ⟨rfl,rfl,rfl,rfl⟩
  | @uncalled purpose units call why at_ ended =>
    cases purpose with
    | lambdaSweep | initialPrepay | topUp => exact ⟨rfl,rfl,rfl,rfl⟩
    | settle =>
      simp only [chequeFailed]
      split
      · split <;> exact ⟨rfl,rfl,rfl,rfl⟩
      · exact ⟨rfl,rfl,rfl,rfl⟩
  | settled at_ =>
    rcases settle_cases plan c s with same | ⟨units,-,-,-,same⟩ | same <;> rw [same] <;> exact ⟨rfl,rfl,rfl,rfl⟩
  | _ => exact ⟨rfl,rfl,rfl,rfl⟩

/-- The threshold as announced after an action. -/
def announcement (before : Option U256) : Act → Option U256
  | .announce t => some t
  | _ => before

/-- Only the peer announces thresholds. -/
theorem announced_step {plan : Plan A} {c c' : Common A B} {s s' : Session A B} {act : Act}
    (moves : Moves plan c s act c' s') :
    s'.pacer.announced = announcement s.pacer.announced act := by
  cases moves with
  | prepayBegin at_ mode short | driveBegin at_ enough => rw [noteLambda_eq]; rfl
  | @called purpose units call outcome at_ ended => cases purpose <;> rfl
  | @uncalled purpose units call why at_ ended =>
    cases purpose with
    | lambdaSweep | initialPrepay | topUp => rfl
    | settle =>
      simp only [chequeFailed]
      split
      · split <;> rfl
      · rfl
  | settled at_ => rcases settle_cases plan c s with same | ⟨units,-,-,-,same⟩ | same <;> rw [same] <;> rfl
  | refuse at_ absent refused => rw [Pacer.admit_refused refused]; rfl
  | admitOne at_ absent admitted =>
    obtain ⟨mirror,reserved,same⟩ := Pacer.admit_admitted admitted
    rw [same]; rfl
  | _ => rfl

end Directswarm.Connection
