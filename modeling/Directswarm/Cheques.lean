import Mathlib.Data.Finmap
import Mathlib.Order.Fin.Basic
import Directswarm.Interleaving
import Directswarm.Runs
import Directswarm.Words

/-!
`emit_settlement_cheque` (`direct.rs`): the wire path of one cheque, as the steps
that other connections can see between. A call opens the swap stream, reads the
peer's exchange rate and deduction, reserves the amount on the shared counter
`issued_plur` (`fetch_add`), compares, reads the ledger, signs, writes the frame,
flushes, records the new cumulative, and gives the reservation back
(`fetch_sub`) on every failure after it. `Emissions` is any number of such calls
around one `Bank`: the counter, the in-memory ledger and the frames written.
-/
namespace Directswarm.Cheques
open Directswarm.Words Directswarm.Interleaving

/-- A 256-bit amount. -/
abbrev U256 := Fin (2 ^ 256)

/-- The bounds every call is given: the cached `balance + totalPaidOut`, and the
    spend cap of the run, a 64-bit value. -/
structure Limits where
  issuable : U256
  maxIssuePlur : Nat
  maxIssuePlur_lt : maxIssuePlur < 2 ^ 64

/-! Caps that fit a word. -/

theorem thousand_fits : 1000 < 2 ^ 64 := by decide
theorem tenBillion_fits : 10 ^ 10 < 2 ^ 64 := by decide
theorem trillion_fits : 10 ^ 12 < 2 ^ 64 := by decide

/-- A cheque frame that `write_all` has accepted in full. -/
structure Frame (B : Type) where
  beneficiary : B
  plur : Nat
  cumulative : U256
  deriving DecidableEq

/-- What the calls share. -/
structure Bank (B : Type) where
  /-- `issued_plur`, an `AtomicU64`. -/
  issuedPlur : Nat
  /-- The map of `FastLedger`. -/
  ledger : Finmap fun _ : B => U256
  /-- The frames written to peers, oldest first. -/
  frames : List (Frame B)

/-- The ways a call fails, with the values its message shows. -/
inductive EmitError
  | openSwapStream
  | preamble
  | noExchangeRate
  | zeroExchangeRate
  | amountOverflow
  | amountExceedsU128
  | spendGuard (plur maxIssuePlur : Nat)
  | cumulativeOverflow
  | cachedInvariant (cumulative issuable : U256)
  | issueCheque
  | write
  | flush
  deriving DecidableEq

/-- `RateEmitOutcome`. -/
structure Outcome where
  plur : Nat
  rate : Nat
  cumulative : U256
  deriving DecidableEq

/-- Where a call stands. -/
inductive Phase
  /-- The swap stream is being opened. -/
  | opening
  /-- The empty headers are sent, the peer's are awaited. -/
  | preamble
  /-- The amount is known. -/
  | priced (rate plur : Nat)
  /-- After `fetch_add`, which returned `before`. -/
  | reserved (rate plur before : Nat)
  /-- The comparison failed; `fetch_sub` is next. -/
  | refused (plur : Nat)
  /-- The comparison passed. -/
  | passed (rate plur : Nat)
  /-- The ledger is read and the new cumulative is within `issuable`. -/
  | drawn (rate plur : Nat) (cumulative : U256)
  | signed (rate plur : Nat) (cumulative : U256)
  /-- `write_all` returned; `flush` is awaited. -/
  | written (rate plur : Nat) (cumulative : U256)
  | flushed (rate plur : Nat) (cumulative : U256)
  /-- `record_issued` has inserted, and is about to set the dirty flag. -/
  | recorded (rate plur : Nat) (cumulative : U256)
  /-- The body failed; `fetch_sub` is next. -/
  | failed (plur : Nat) (why : EmitError)
  | ended (result : Except EmitError Outcome)
  deriving DecidableEq

/-- One call of `emit_settlement_cheque`. -/
structure Call (B : Type) where
  beneficiary : B
  debtUnits : Nat
  phase : Phase

/-- What moves a call: an awaited operation that succeeds or fails, the peer's
    answer as `parse_settlement_headers` reads it, or the call itself. -/
inductive CallAct
  | io (ok : Bool)
  | headers (response : Option (U256 × U256))
  | go
  deriving DecidableEq

variable {B : Type} [DecidableEq B]

/-- `FastLedger::cumulative_for`. -/
def cumulativeFor (ledger : Finmap fun _ : B => U256) (beneficiary : B) : U256 :=
  (ledger.lookup beneficiary).getD 0

theorem cumulativeFor_insert (ledger : Finmap fun _ : B => U256) (b c : B) (v : U256) :
    cumulativeFor (ledger.insert b v) c = if c = b then v else cumulativeFor ledger c := by
  unfold cumulativeFor
  by_cases same : c = b
  · subst same; rw [Finmap.lookup_insert,if_pos rfl]; rfl
  · rw [Finmap.lookup_insert_of_ne ledger same,if_neg same]

/-- The amount a cheque for `units` must move: `rate × units + deduction`, within
    256 and then 128 bits. -/
def chequeAmount (rate deduction : U256) (units : Nat) : Except EmitError Nat :=
  if rate.val = 0 then .error .zeroExchangeRate else
  match (checkedMul 256 rate.val units).bind fun v => checkedAdd 256 v deduction.val with
  | none => .error .amountOverflow
  | some plur => if plur < 2 ^ 128 then .ok plur else .error .amountExceedsU128

theorem chequeAmount_ok {rate deduction : U256} {units plur : Nat} (amount : chequeAmount rate deduction units = .ok plur) :
    plur = rate.val * units + deduction.val := by
  unfold chequeAmount at amount
  split at amount
  · cases amount
  · split at amount
    · cases amount
    · next sum found =>
      obtain ⟨product,multiplied,added⟩ := Option.bind_eq_some_iff.mp found
      obtain ⟨-,rfl⟩ := checkedMul_some.mp multiplied
      obtain ⟨-,rfl⟩ := checkedAdd_some.mp added
      split at amount <;> cases amount
      rfl

/-- The new cumulative for a beneficiary, under the cached-invariant guard. -/
def drawCumulative (lim : Limits) (prev : U256) (plur : Nat) : Except EmitError U256 :=
  if fits : prev.val + plur < 2 ^ 256 then
    if lim.issuable < (⟨prev.val + plur,fits⟩ : U256) then
      .error (.cachedInvariant ⟨prev.val + plur,fits⟩ lim.issuable)
    else .ok ⟨prev.val + plur,fits⟩
  else .error .cumulativeOverflow

/-- One step of a call. -/
def callStep (lim : Limits) (bank : Bank B) (call : Call B) (act : CallAct) : Option (Bank B × Call B) :=
  match call.phase, act with
  | .opening, .io true => some (bank,{ call with phase := .preamble })
  | .opening, .io false => some (bank,{ call with phase := .ended (.error .openSwapStream) })
  | .preamble, .io false => some (bank,{ call with phase := .ended (.error .preamble) })
  | .preamble, .headers none => some (bank,{ call with phase := .ended (.error .noExchangeRate) })
  | .preamble, .headers (some (rate,deduction)) =>
    match chequeAmount rate deduction call.debtUnits with
    | .error why => some (bank,{ call with phase := .ended (.error why) })
    | .ok plur => some (bank,{ call with phase := .priced rate.val plur })
  | .priced rate plur, .go =>
    some ({ bank with issuedPlur := wrapAdd bank.issuedPlur (clamp64 plur) },
      { call with phase := .reserved rate plur bank.issuedPlur })
  | .reserved rate plur before, .go =>
    if lim.maxIssuePlur < satAdd before (clamp64 plur) then some (bank,{ call with phase := .refused plur })
    else some (bank,{ call with phase := .passed rate plur })
  | .refused plur, .go =>
    some ({ bank with issuedPlur := wrapSub bank.issuedPlur (clamp64 plur) },
      { call with phase := .ended (.error (.spendGuard plur lim.maxIssuePlur)) })
  | .passed rate plur, .go =>
    match drawCumulative lim (cumulativeFor bank.ledger call.beneficiary) plur with
    | .error why => some (bank,{ call with phase := .failed plur why })
    | .ok cumulative => some (bank,{ call with phase := .drawn rate plur cumulative })
  | .drawn rate plur cumulative, .io true => some (bank,{ call with phase := .signed rate plur cumulative })
  | .drawn _ plur _, .io false => some (bank,{ call with phase := .failed plur .issueCheque })
  | .signed rate plur cumulative, .io true =>
    some ({ bank with frames := bank.frames ++ [⟨call.beneficiary,plur,cumulative⟩] },
      { call with phase := .written rate plur cumulative })
  | .signed _ plur _, .io false => some (bank,{ call with phase := .failed plur .write })
  | .written rate plur cumulative, .io true => some (bank,{ call with phase := .flushed rate plur cumulative })
  | .written _ plur _, .io false => some (bank,{ call with phase := .failed plur .flush })
  | .flushed rate plur cumulative, .go =>
    some ({ bank with ledger := bank.ledger.insert call.beneficiary cumulative },
      { call with phase := .recorded rate plur cumulative })
  | .recorded rate plur cumulative, .go =>
    some (bank,{ call with phase := .ended (.ok ⟨plur,min rate (2 ^ 128 - 1),cumulative⟩) })
  | .failed plur why, .go =>
    some ({ bank with issuedPlur := wrapSub bank.issuedPlur (clamp64 plur) },
      { call with phase := .ended (.error why) })
  | _, _ => none

/-- What a step of a call can do, by where the call stood. -/
inductive Moves (lim : Limits) (bank : Bank B) (call : Call B) : CallAct → Bank B → Phase → Prop
  | opened (at_ : call.phase = .opening) : Moves lim bank call (.io true) bank .preamble
  | unopened (at_ : call.phase = .opening) :
      Moves lim bank call (.io false) bank (.ended (.error .openSwapStream))
  | unanswered (at_ : call.phase = .preamble) : Moves lim bank call (.io false) bank (.ended (.error .preamble))
  | rateless (at_ : call.phase = .preamble) :
      Moves lim bank call (.headers none) bank (.ended (.error .noExchangeRate))
  | unpriced {rate deduction : U256} {why : EmitError} (at_ : call.phase = .preamble)
      (amount : chequeAmount rate deduction call.debtUnits = .error why) :
      Moves lim bank call (.headers (some (rate,deduction))) bank (.ended (.error why))
  | priced {rate deduction : U256} {plur : Nat} (at_ : call.phase = .preamble)
      (amount : chequeAmount rate deduction call.debtUnits = .ok plur) :
      Moves lim bank call (.headers (some (rate,deduction))) bank (.priced rate.val plur)
  | reserved {rate plur : Nat} (at_ : call.phase = .priced rate plur) :
      Moves lim bank call .go { bank with issuedPlur := wrapAdd bank.issuedPlur (clamp64 plur) }
        (.reserved rate plur bank.issuedPlur)
  | refused {rate plur before : Nat} (at_ : call.phase = .reserved rate plur before)
      (past : lim.maxIssuePlur < satAdd before (clamp64 plur)) : Moves lim bank call .go bank (.refused plur)
  | passed {rate plur before : Nat} (at_ : call.phase = .reserved rate plur before)
      (within : satAdd before (clamp64 plur) ≤ lim.maxIssuePlur) : Moves lim bank call .go bank (.passed rate plur)
  | givenUp {plur : Nat} (at_ : call.phase = .refused plur) :
      Moves lim bank call .go { bank with issuedPlur := wrapSub bank.issuedPlur (clamp64 plur) }
        (.ended (.error (.spendGuard plur lim.maxIssuePlur)))
  | undrawn {rate plur : Nat} {why : EmitError} (at_ : call.phase = .passed rate plur)
      (draw : drawCumulative lim (cumulativeFor bank.ledger call.beneficiary) plur = .error why) :
      Moves lim bank call .go bank (.failed plur why)
  | drawn {rate plur : Nat} {cumulative : U256} (at_ : call.phase = .passed rate plur)
      (draw : drawCumulative lim (cumulativeFor bank.ledger call.beneficiary) plur = .ok cumulative) :
      Moves lim bank call .go bank (.drawn rate plur cumulative)
  | signed {rate plur : Nat} {cumulative : U256} (at_ : call.phase = .drawn rate plur cumulative) :
      Moves lim bank call (.io true) bank (.signed rate plur cumulative)
  | unsigned {rate plur : Nat} {cumulative : U256} (at_ : call.phase = .drawn rate plur cumulative) :
      Moves lim bank call (.io false) bank (.failed plur .issueCheque)
  | written {rate plur : Nat} {cumulative : U256} (at_ : call.phase = .signed rate plur cumulative) :
      Moves lim bank call (.io true) { bank with frames := bank.frames ++ [⟨call.beneficiary,plur,cumulative⟩] }
        (.written rate plur cumulative)
  | unwritten {rate plur : Nat} {cumulative : U256} (at_ : call.phase = .signed rate plur cumulative) :
      Moves lim bank call (.io false) bank (.failed plur .write)
  | flushed {rate plur : Nat} {cumulative : U256} (at_ : call.phase = .written rate plur cumulative) :
      Moves lim bank call (.io true) bank (.flushed rate plur cumulative)
  | unflushed {rate plur : Nat} {cumulative : U256} (at_ : call.phase = .written rate plur cumulative) :
      Moves lim bank call (.io false) bank (.failed plur .flush)
  | recorded {rate plur : Nat} {cumulative : U256} (at_ : call.phase = .flushed rate plur cumulative) :
      Moves lim bank call .go { bank with ledger := bank.ledger.insert call.beneficiary cumulative }
        (.recorded rate plur cumulative)
  | ended {rate plur : Nat} {cumulative : U256} (at_ : call.phase = .recorded rate plur cumulative) :
      Moves lim bank call .go bank (.ended (.ok ⟨plur,min rate (2 ^ 128 - 1),cumulative⟩))
  | givenBack {plur : Nat} {why : EmitError} (at_ : call.phase = .failed plur why) :
      Moves lim bank call .go { bank with issuedPlur := wrapSub bank.issuedPlur (clamp64 plur) }
        (.ended (.error why))

theorem callStep_moves {lim : Limits} {bank bank' : Bank B} {call call' : Call B} {act : CallAct}
    (taken : callStep lim bank call act = some (bank',call')) :
    Moves lim bank call act bank' call'.phase ∧
      call'.beneficiary = call.beneficiary ∧ call'.debtUnits = call.debtUnits := by
  obtain ⟨b,units,phase⟩ := call
  cases phase with
  | opening =>
    rcases act with ok | response | _
    · cases ok <;> simp only [callStep,Option.some.injEq,Prod.mk.injEq] at taken <;> obtain ⟨rfl,rfl⟩ := taken
      · exact ⟨.unopened rfl,rfl,rfl⟩
      · exact ⟨.opened rfl,rfl,rfl⟩
    all_goals simp [callStep] at taken
  | preamble =>
    rcases act with ok | response | _
    · cases ok <;> simp only [callStep,Option.some.injEq,Prod.mk.injEq,reduceCtorEq] at taken
      obtain ⟨rfl,rfl⟩ := taken
      exact ⟨.unanswered rfl,rfl,rfl⟩
    · rcases response with _ | ⟨rate,deduction⟩
      · simp only [callStep,Option.some.injEq,Prod.mk.injEq] at taken
        obtain ⟨rfl,rfl⟩ := taken
        exact ⟨.rateless rfl,rfl,rfl⟩
      · simp only [callStep] at taken
        cases amount : chequeAmount rate deduction units with
        | error why =>
          simp only [amount,Option.some.injEq,Prod.mk.injEq] at taken
          obtain ⟨rfl,rfl⟩ := taken
          exact ⟨.unpriced rfl amount,rfl,rfl⟩
        | ok plur =>
          simp only [amount,Option.some.injEq,Prod.mk.injEq] at taken
          obtain ⟨rfl,rfl⟩ := taken
          exact ⟨.priced rfl amount,rfl,rfl⟩
    · simp [callStep] at taken
  | priced rate plur =>
    rcases act with ok | response | _ <;> simp only [callStep,Option.some.injEq,Prod.mk.injEq,reduceCtorEq] at taken
    obtain ⟨rfl,rfl⟩ := taken
    exact ⟨.reserved rfl,rfl,rfl⟩
  | reserved rate plur before =>
    rcases act with ok | response | _ <;> simp only [callStep,reduceCtorEq] at taken
    by_cases past : lim.maxIssuePlur < satAdd before (clamp64 plur)
    · simp only [past,↓reduceIte,Option.some.injEq,Prod.mk.injEq] at taken
      obtain ⟨rfl,rfl⟩ := taken
      exact ⟨.refused rfl past,rfl,rfl⟩
    · simp only [past,↓reduceIte,Option.some.injEq,Prod.mk.injEq] at taken
      obtain ⟨rfl,rfl⟩ := taken
      exact ⟨.passed rfl (by omega),rfl,rfl⟩
  | refused plur =>
    rcases act with ok | response | _ <;> simp only [callStep,Option.some.injEq,Prod.mk.injEq,reduceCtorEq] at taken
    obtain ⟨rfl,rfl⟩ := taken
    exact ⟨.givenUp rfl,rfl,rfl⟩
  | passed rate plur =>
    rcases act with ok | response | _ <;> simp only [callStep,reduceCtorEq] at taken
    cases draw : drawCumulative lim (cumulativeFor bank.ledger b) plur with
    | error why =>
      simp only [draw,Option.some.injEq,Prod.mk.injEq] at taken
      obtain ⟨rfl,rfl⟩ := taken
      exact ⟨.undrawn rfl draw,rfl,rfl⟩
    | ok cumulative =>
      simp only [draw,Option.some.injEq,Prod.mk.injEq] at taken
      obtain ⟨rfl,rfl⟩ := taken
      exact ⟨.drawn rfl draw,rfl,rfl⟩
  | drawn rate plur cumulative =>
    rcases act with ok | response | _
    · cases ok <;> simp only [callStep,Option.some.injEq,Prod.mk.injEq] at taken <;> obtain ⟨rfl,rfl⟩ := taken
      · exact ⟨.unsigned rfl,rfl,rfl⟩
      · exact ⟨.signed rfl,rfl,rfl⟩
    all_goals simp [callStep] at taken
  | signed rate plur cumulative =>
    rcases act with ok | response | _
    · cases ok <;> simp only [callStep,Option.some.injEq,Prod.mk.injEq] at taken <;> obtain ⟨rfl,rfl⟩ := taken
      · exact ⟨.unwritten rfl,rfl,rfl⟩
      · exact ⟨.written rfl,rfl,rfl⟩
    all_goals simp [callStep] at taken
  | written rate plur cumulative =>
    rcases act with ok | response | _
    · cases ok <;> simp only [callStep,Option.some.injEq,Prod.mk.injEq] at taken <;> obtain ⟨rfl,rfl⟩ := taken
      · exact ⟨.unflushed rfl,rfl,rfl⟩
      · exact ⟨.flushed rfl,rfl,rfl⟩
    all_goals simp [callStep] at taken
  | flushed rate plur cumulative =>
    rcases act with ok | response | _ <;> simp only [callStep,Option.some.injEq,Prod.mk.injEq,reduceCtorEq] at taken
    obtain ⟨rfl,rfl⟩ := taken
    exact ⟨.recorded rfl,rfl,rfl⟩
  | recorded rate plur cumulative =>
    rcases act with ok | response | _ <;> simp only [callStep,Option.some.injEq,Prod.mk.injEq,reduceCtorEq] at taken
    obtain ⟨rfl,rfl⟩ := taken
    exact ⟨.ended rfl,rfl,rfl⟩
  | failed plur why =>
    rcases act with ok | response | _ <;> simp only [callStep,Option.some.injEq,Prod.mk.injEq,reduceCtorEq] at taken
    obtain ⟨rfl,rfl⟩ := taken
    exact ⟨.givenBack rfl,rfl,rfl⟩
  | ended result => rcases act with ok | response | _ <;> simp [callStep] at taken

/-- Each of these moves is a step. -/
theorem callStep_of_moves {lim : Limits} {bank bank' : Bank B} {b : B} {units : Nat} {from_ to_ : Phase} {act : CallAct}
    (moves : Moves lim bank ⟨b,units,from_⟩ act bank' to_) :
    callStep lim bank ⟨b,units,from_⟩ act = some (bank',⟨b,units,to_⟩) := by
  cases moves with
  | unpriced at_ amount => cases at_; simp only [callStep,amount]
  | priced at_ amount => cases at_; simp only [callStep,amount]
  | refused at_ past => cases at_; simp only [callStep,past,↓reduceIte]
  | passed at_ within => cases at_; simp only [callStep,not_lt.mpr within,↓reduceIte]
  | undrawn at_ draw => cases at_; simp only [callStep,draw]
  | drawn at_ draw => cases at_; simp only [callStep,draw]
  | opened at_ | unopened at_ | unanswered at_ | rateless at_ | reserved at_ | givenUp at_ | signed at_ | unsigned at_
    | written at_ | unwritten at_ | flushed at_ | unflushed at_ | recorded at_ | ended at_ | givenBack at_ =>
    cases at_; rfl

/-! ### Any number of calls -/

/-- Calls around the bank they share. -/
abbrev Emissions (B : Type) := Shared (Bank B) (Call B)

/-- A call is made, or one that was made moves. -/
inductive Act (B : Type)
  | start (beneficiary : B) (debtUnits : Nat)
  | call (i : Nat) (act : CallAct)

def step (lim : Limits) (sys : Emissions B) : Act B → Option (Emissions B)
  | .start beneficiary debtUnits =>
    if debtUnits < 2 ^ 64 then some ⟨sys.common,sys.parties ++ [⟨beneficiary,debtUnits,.opening⟩]⟩ else none
  | .call i act => stepAt (callStep lim) sys i act

/-- The state a run starts from: the counter is new, the ledger was opened. -/
def opening (ledger : Finmap fun _ : B => U256) : Emissions B := ⟨⟨0,ledger,[]⟩,[]⟩

/-- The moves of a call to its reservation, towards a peer that announces a rate
    and a deduction. -/
def reserving (rate deduction : U256) : List CallAct := [.io true,.headers (some (rate,deduction)),.go]
/-- From the reservation to the signature. -/
def signing : List CallAct := [.go,.go,.io true]
/-- From the signature to the end, when nothing fails. -/
def finishing : List CallAct := [.io true,.io true,.go,.go]
/-- Moves of one call. -/
def calling (i : Nat) (acts : List CallAct) : List (Act B) := acts.map (.call i)

theorem step_start {lim : Limits} {sys next : Emissions B} {b : B} {units : Nat}
    (taken : step lim sys (.start b units) = some next) :
    next = ⟨sys.common,sys.parties ++ [⟨b,units,.opening⟩]⟩ := by
  simp only [step] at taken
  by_cases fits : units < 2 ^ 64
  · rw [if_pos fits] at taken; exact (Option.some.inj taken).symm
  · rw [if_neg fits] at taken; cases taken

end Directswarm.Cheques
