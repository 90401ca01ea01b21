import Mathlib
import Directswarm.SpendGuard
import Directswarm.ChequeOrder
import Directswarm.Issuance
import Directswarm.Figures

/-!
What a fetch pays (`fetch_scheduled`, over all runs). The cheques that its connections
send are a system of calls on one bank, and each step of a run moves one of them, begins
or ends one, or leaves them as they are (`turn_step`). A peer has one connection at a
time, so as long as no two peers have one beneficiary, a call is alone with its entry of
the ledger (`unshared_of_crew`). Then no cheque is lost (`ledger_exact`), the cheques of each
beneficiary increase (`fetch_in_order`), and the ledger grows by what was written
(`fetch_within_cap`).
-/
namespace Directswarm.Payments
open Directswarm.Words Directswarm.Runs Directswarm.Interleaving Directswarm.Notes Directswarm.Cheques Directswarm.SpendGuard
  Directswarm.ChequeOrder Directswarm.Issuance

/-! ### Calls that come and go -/

section Calls
variable {B : Type}

/-- Nothing is reserved for the call, nor drawn. -/
def resting : Phase → Bool
  | .opening | .ended _ => true
  | _ => false

/-- What a call that has ended says was paid. -/
def tells (call : Call B) : List (B × Nat) :=
  match call.phase with
  | .ended (.ok outcome) => [(call.beneficiary,outcome.plur)]
  | _ => []

theorem resting_quiet (lim : Limits) {phase : Phase} (rests : resting phase = true) :
    held phase = 0 ∧ going lim phase = 0 ∧ Unclipped lim phase ∧ unrecorded phase = none := by
  cases phase <;> first | exact ⟨rfl,rfl,trivial,rfl⟩ | cases rests

variable [DecidableEq B]

/-- What a system of calls does in a step of a run: a call that has ended leaves its
    place to the next. -/
inductive Turn (lim : Limits) (sys : Emissions B) : Option (Act B) → List (B × Nat) → Emissions B → Prop
  | still : Turn lim sys none [] sys
  | opened {call : Call B} (rests : resting call.phase = true) (silent : tells call = []) :
      Turn lim sys none [] ⟨sys.common,sys.parties ++ [call]⟩
  | turned {i : Nat} {call : Call B} (call' : Call B) (found : sys.parties[i]? = some call) (before : resting call.phase = true)
      (after : resting call'.phase = true) (silent : tells call' = []) (for_ : call'.beneficiary = call.beneficiary) :
      Turn lim sys none (tells call) ⟨sys.common,sys.parties.set i call'⟩
  | called {i : Nat} {act : CallAct} {call call' : Call B} {bank : Bank B} (found : sys.parties[i]? = some call)
      (taken : callStep lim sys.common call act = some (bank,call')) :
      Turn lim sys (some (.call i act)) [] ⟨bank,sys.parties.set i call'⟩

/-- The call has not ended. -/
def underWay : Phase → Bool
  | .ended _ => false
  | _ => true

/-- No two calls under way are for one beneficiary. -/
def Unshared (sys : Emissions B) : Prop :=
  ∀ (i j : Nat) (x y : Call B), sys.parties[i]? = some x → sys.parties[j]? = some y → x.beneficiary = y.beneficiary →
    underWay x.phase = true → underWay y.phase = true → i = j

/-- No two calls that reserve or draw are for one beneficiary. -/
def Sole (sys : Emissions B) : Prop :=
  ∀ (i j : Nat) (x y : Call B), sys.parties[i]? = some x → sys.parties[j]? = some y → x.beneficiary = y.beneficiary →
    resting x.phase = false → resting y.phase = false → i = j

omit [DecidableEq B] in
theorem sole_of_unshared {sys : Emissions B} (unshared : Unshared sys) : Sole sys := by
  have begun : ∀ phase : Phase, resting phase = false → underWay phase = true := by
    intro phase busy
    cases phase <;> first | rfl | cases busy
  exact fun i j x y foundX foundY same busyX busyY => unshared i j x y foundX foundY same (begun _ busyX) (begun _ busyY)

/-- The amount and the cumulative that a call has drawn and not recorded. -/
def drawnOf : Phase → Option (Nat × U256)
  | .drawn _ plur cumulative | .signed _ plur cumulative | .written _ plur cumulative | .flushed _ plur cumulative =>
    some (plur,cumulative)
  | _ => none

/-- What is drawn is drawn on the entry that the ledger has now. -/
def Drawn (sys : Emissions B) : Prop :=
  ∀ call ∈ sys.parties, ∀ plur cumulative, drawnOf call.phase = some (plur,cumulative) →
    (cumulativeFor sys.common.ledger call.beneficiary).val + plur = cumulative.val

variable {lim : Limits} {sys sys' : Emissions B} {act : Option (Act B)} {told : List (B × Nat)}

omit [DecidableEq B] in
theorem drawnOf_busy {phase : Phase} {plur : Nat} {cumulative : U256} (draws : drawnOf phase = some (plur,cumulative)) :
    resting phase = false := by
  cases phase <;> first | rfl | cases draws

omit [DecidableEq B] in
/-- Who is among the calls after one has moved. -/
theorem mem_set_at {parties : List (Call B)} {i : Nat} {call call' other : Call B} (found : parties[i]? = some call)
    (there : other ∈ parties.set i call') : other = call' ∨ ∃ j, j ≠ i ∧ parties[j]? = some other := by
  obtain ⟨j,at_⟩ := List.getElem?_of_mem there
  have inside := (List.getElem?_eq_some_iff.mp found).1
  by_cases same : i = j
  · subst same
    rw [List.getElem?_set_self inside] at at_
    exact .inl (Option.some.inj at_).symm
  · rw [List.getElem?_set_ne same] at at_
    exact .inr ⟨j,Ne.symm same,at_⟩

/-- A call that has recorded was alone with its entry. -/
theorem drawn_called (drawn : Drawn sys) (sole : Sole sys) {i : Nat} {act : CallAct} {call call' : Call B} {bank : Bank B}
    (found : sys.parties[i]? = some call) (taken : callStep lim sys.common call act = some (bank,call')) :
    Drawn ⟨bank,sys.parties.set i call'⟩ := by
  obtain ⟨moves,for_,-⟩ := callStep_moves taken
  have mine := drawn call (mem_of_found found)
  intro other there plur cumulative draws
  rcases mem_set_at found there with rfl | ⟨j,apart,at_⟩
  · generalize other.phase = phase at moves draws
    cases moves with
    | @drawn rate plur cumulative at_ draw =>
      cases draws
      rw [for_]
      exact (drawCumulative_ok.mp draw).1
    | signed at_ | written at_ | flushed at_ =>
      cases draws
      rw [for_]
      exact mine _ _ (by rw [at_]; rfl)
    | _ => cases draws
  · have stays := drawn other (List.mem_of_getElem? at_) plur cumulative draws
    generalize call'.phase = phase at moves
    cases moves with
    | @recorded rate plur' cumulative' here =>
      -- The other one has drawn as well, so it is for somebody else.
      have distinct : other.beneficiary ≠ call.beneficiary := fun same =>
        apart (sole j i other call at_ found same (drawnOf_busy draws) (by rw [here]; rfl))
      show (cumulativeFor (sys.common.ledger.insert call.beneficiary cumulative') other.beneficiary).val + plur = _
      rw [cumulativeFor_insert,if_neg distinct]
      exact stays
    | _ => exact stays

theorem drawn_turn (drawn : Drawn sys) (sole : Sole sys) (turn : Turn lim sys act told sys') : Drawn sys' := by
  have silent_ : ∀ {call : Call B}, resting call.phase = true →
      ∀ plur cumulative, drawnOf call.phase ≠ some (plur,cumulative) := by
    intro call rests plur cumulative draws
    rw [drawnOf_busy draws] at rests
    cases rests
  cases turn with
  | still => exact drawn
  | opened rests silent => exact forall_append drawn fun plur cumulative draws => absurd draws (silent_ rests plur cumulative)
  | turned call' found before after silent for_ =>
    exact forall_set drawn fun plur cumulative draws => absurd draws (silent_ after plur cumulative)
  | called found taken => exact drawn_called drawn sole found taken

/-! ### What was paid -/

/-- The amount that a call has recorded and not told of. -/
def recordedPlur : Phase → Nat
  | .recorded _ plur _ => plur
  | .ended (.ok outcome) => outcome.plur
  | _ => 0

def recordedFor (b : B) (call : Call B) : Nat := if call.beneficiary = b then recordedPlur call.phase else 0

def paidTo (told : List (B × Nat)) (b : B) : Nat := ((told.filter fun e => e.1 = b).map Prod.snd).sum

theorem paidTo_append (told more : List (B × Nat)) (b : B) : paidTo (told ++ more) b = paidTo told b + paidTo more b := by
  simp [paidTo]

/-- What a resting call tells is what it has recorded. -/
theorem paidTo_tells {call : Call B} (rests : resting call.phase = true) (b : B) : paidTo (tells call) b = recordedFor b call := by
  obtain ⟨beneficiary,units,phase⟩ := call
  cases phase with
  | ended result =>
    cases result with
    | error why => simp [tells,paidTo,recordedFor,recordedPlur]
    | ok outcome =>
      by_cases same : beneficiary = b
      · simp [tells,paidTo,recordedFor,recordedPlur,same]
      · simp [tells,paidTo,recordedFor,same]
  | opening => simp [tells,paidTo,recordedFor,recordedPlur]
  | _ => cases rests

/-- The ledger has grown for each beneficiary by what the calls have told, and by what
    they are yet to tell. -/
def Exact (start : B → Nat) (sys : Emissions B) (told : List (B × Nat)) : Prop :=
  ∀ b, (cumulativeFor sys.common.ledger b).val = start b + paidTo told b + total (recordedFor b) sys.parties

theorem exact_called {start : B → Nat} (exact_ : Exact start sys told) (drawn : Drawn sys) {i : Nat} {act : CallAct}
    {call call' : Call B} {bank : Bank B} (found : sys.parties[i]? = some call)
    (taken : callStep lim sys.common call act = some (bank,call')) : Exact start ⟨bank,sys.parties.set i call'⟩ told := by
  obtain ⟨moves,for_,-⟩ := callStep_moves taken
  have mine := drawn call (mem_of_found found)
  intro b
  have before := exact_ b
  have moved := total_set (recordedFor b) call' found
  simp only [recordedFor,for_] at moved
  generalize call'.phase = phase at moves moved
  cases moves with
  | @recorded rate plur cumulative at_ =>
    have sum := mine plur cumulative (by rw [at_]; rfl)
    show (cumulativeFor (sys.common.ledger.insert call.beneficiary cumulative) b).val = _
    rw [cumulativeFor_insert]
    rw [at_] at moved
    simp only [recordedPlur,ite_self] at moved
    by_cases same : b = call.beneficiary
    · subst same
      rw [if_pos rfl] at moved ⊢
      show cumulative.val = start call.beneficiary + paidTo told call.beneficiary +
        total (recordedFor call.beneficiary) (sys.parties.set i call')
      omega
    · rw [if_neg same]
      rw [if_neg (Ne.symm same)] at moved
      show (cumulativeFor sys.common.ledger b).val = start b + paidTo told b + total (recordedFor b) (sys.parties.set i call')
      omega
  | opened at_ | unopened at_ | unanswered at_ | rateless at_ | unpriced at_ _ | priced at_ _ | reserved at_ | refused at_ _
  | passed at_ _ | givenUp at_ | undrawn at_ _ | drawn at_ _ | signed at_ | unsigned at_ | written at_ | unwritten at_ | flushed at_
  | unflushed at_ | ended at_ | givenBack at_ =>
    simp only [at_,recordedPlur,ite_self] at moved
    show (cumulativeFor sys.common.ledger b).val = start b + paidTo told b + total (recordedFor b) (sys.parties.set i call')
    omega

theorem exact_turn {start : B → Nat} {before : List (B × Nat)} (exact_ : Exact start sys before) (drawn : Drawn sys)
    (turn : Turn lim sys act told sys') : Exact start sys' (before ++ told) := by
  cases turn with
  | still => rwa [List.append_nil]
  | @opened call rests silent =>
    intro b
    have nothing : recordedFor b call = 0 := by rw [← paidTo_tells rests,silent]; rfl
    rw [List.append_nil,total_append,total_cons,total_nil,nothing]
    exact exact_ b
  | @turned i call call' found rests after silent for_ =>
    intro b
    have nothing : recordedFor b call' = 0 := by rw [← paidTo_tells after,silent]; rfl
    have moved := total_set (recordedFor b) call' found
    have sum := exact_ b
    rw [paidTo_append,paidTo_tells rests]
    simp only
    omega
  | called found taken =>
    rw [List.append_nil]
    exact exact_called exact_ drawn found taken

/-! ### What was written -/

theorem counted_turn (counted : Counted lim sys) (turn : Turn lim sys act told sys')
    (met : ∀ a ∈ act, CountsExactly lim sys a) :
    Counted lim sys' := by
  cases turn with
  | still => exact counted
  | opened rests silent =>
    obtain ⟨held_,going_,unclipped,-⟩ := resting_quiet lim rests
    refine ⟨?_,counted.small,?_,forall_append counted.unclipped unclipped⟩
    · simpa [held_] using counted.exact
    · simpa [going_] using counted.within
  | turned call' found before after silent for_ =>
    obtain ⟨held_,going_,unclipped,-⟩ := resting_quiet lim after
    obtain ⟨held',going',-,-⟩ := resting_quiet lim before
    exact counted_quiet counted found (held_.trans held'.symm) (going_.trans going'.symm).le unclipped sys.common.ledger
  | called found taken => exact counted_call counted (met _ rfl) found (callStep_moves taken).1

/-- The amount that a call has written and not recorded. -/
def awaited (call : Call B) : Nat :=
  match call.phase with
  | .written _ plur _ | .flushed _ plur _ => plur
  | _ => 0

/-- The ledger has grown by what was written to the peers, but for what is about to be
    recorded. -/
def Grown (start : Nat) (sys : Emissions B) : Prop :=
  ledgerTotal sys.common.ledger + total awaited sys.parties = start + framesPlur sys.common

theorem grown_called {start : Nat} (grown : Grown start sys) (drawn : Drawn sys) {i : Nat} {act : CallAct} {call call' : Call B}
    {bank : Bank B} (found : sys.parties[i]? = some call) (met : CountsExactly lim sys (.call i act))
    (taken : callStep lim sys.common call act = some (bank,call')) : Grown start ⟨bank,sys.parties.set i call'⟩ := by
  have moves := (callStep_moves taken).1
  have mine := drawn call (mem_of_found found)
  have meets := met call found
  have moved := total_set awaited call' found
  simp only [awaited] at moved
  unfold Grown at grown ⊢
  generalize call'.phase = phase at moves moved
  cases moves with
  | @written rate plur cumulative at_ =>
    simp only [at_] at moved
    simp only [framesPlur,List.map_append,List.map_cons,List.map_nil,List.sum_append,List.sum_singleton] at grown ⊢
    omega
  | unflushed at_ => simp [at_,countsAt] at meets
  | @recorded rate plur cumulative at_ =>
    have sum := mine plur cumulative (by rw [at_]; rfl)
    have insertion := ledgerTotal_insert sys.common.ledger call.beneficiary cumulative
    simp only [at_] at moved
    simp only [framesPlur] at grown ⊢
    omega
  | opened at_ | unopened at_ | unanswered at_ | rateless at_ | unpriced at_ _ | priced at_ _ | reserved at_ | refused at_ _
  | passed at_ _ | givenUp at_ | undrawn at_ _ | drawn at_ _ | signed at_ | unsigned at_ | unwritten at_ | flushed at_
  | ended at_ | givenBack at_ =>
    simp only [at_] at moved
    simp only [framesPlur] at grown ⊢
    omega

theorem grown_turn {start : Nat} (grown : Grown start sys) (drawn : Drawn sys) (turn : Turn lim sys act told sys')
    (met : ∀ a ∈ act, CountsExactly lim sys a) : Grown start sys' := by
  have nothing : ∀ {call : Call B}, resting call.phase = true → awaited call = 0 := by
    rintro ⟨b,units,phase⟩ rests
    cases phase <;> first | rfl | cases rests
  cases turn with
  | still => exact grown
  | opened rests silent =>
    show ledgerTotal sys.common.ledger + total _ (sys.parties ++ [_]) = _
    rw [total_append,total_cons,total_nil,nothing rests]
    exact grown
  | turned call' found before after silent for_ =>
    have moved := total_set awaited call' found
    rw [nothing before,nothing after] at moved
    exact (congrArg (ledgerTotal sys.common.ledger + ·) moved).trans grown
  | called found taken => exact grown_called grown drawn found (met _ rfl) taken

/-! ### In which order -/

/-- What is written is a positive amount, and is flushed. -/
def deliveredAt : Phase → CallAct → Bool
  | .signed _ plur _, .io true => 0 < plur
  | .written _ _ _, .io ok => ok
  | _, _ => true

def Delivered (sys : Emissions B) : Act B → Prop
  | .start _ _ => True
  | .call i act => ∀ call ∈ sys.parties[i]?, deliveredAt call.phase act

instance (sys : Emissions B) : (act : Act B) → Decidable (Delivered sys act)
  | .start _ _ => isTrue trivial
  | .call i act => inferInstanceAs (Decidable (∀ call ∈ sys.parties[i]?, deliveredAt call.phase act))

/-- Alone with its entry, a call that is delivered keeps the order. -/
theorem inOrder_of_sole (sole : Sole sys) (drawn : Drawn sys) {a : Act B} (delivered : Delivered sys a) : InOrder sys a := by
  cases a with
  | start b units => trivial
  | call i act =>
    intro call found
    have here := delivered call found
    have mine := drawn call (mem_of_found found)
    have alone : ∀ other ∈ sys.parties, other.beneficiary = call.beneficiary → resting call.phase = false →
        (unrecorded other.phase).isSome = true → other = call := by
      intro other there same busy waits
      obtain ⟨j,at_⟩ := List.getElem?_of_mem there
      have other_busy : resting other.phase = false := by
        cases phase : other.phase <;> first | rfl | (rw [phase] at waits; cases waits)
      have index := sole j i other call at_ found same other_busy busy
      subst index
      exact Option.some.inj (at_.symm.trans found)
    generalize phase : call.phase = phase_ at here mine alone ⊢
    unfold inOrderAt coversAt
    split
    · next rate plur cumulative =>
      have sum := mine plur cumulative rfl
      have positive : 0 < plur := by simpa [deliveredAt] using here
      simp only [Bool.and_eq_true,decide_eq_true_eq,List.all_eq_true,Bool.not_eq_true',Bool.and_eq_false_iff,
        decide_eq_false_iff_not]
      refine ⟨⟨positive,sum⟩,by omega,fun other there => ?_⟩
      by_cases same : other.beneficiary = call.beneficiary
      · refine .inr ?_
        by_contra waits
        have waits : (unrecorded other.phase).isSome = true := by simpa [Option.isSome_iff_ne_none] using waits
        rw [alone other there same rfl waits,phase] at waits
        cases waits
      · exact .inl same
    · split
      · next other => exact (other _ _ _ rfl rfl).elim
      · exact here
      · rfl

theorem ordered_turn (covered : Covered sys) (increasing : Increasing sys.common.frames) (turn : Turn lim sys act told sys')
    (met : ∀ a ∈ act, InOrder sys a) : Covered sys' ∧ Increasing sys'.common.frames := by
  cases turn with
  | still => exact ⟨covered,increasing⟩
  | opened rests silent =>
    have waits := (resting_quiet lim rests).2.2.2
    refine ⟨⟨fun f member => ?_,forall_append covered.highest (by simp [waits])⟩,increasing⟩
    rcases covered.covered f member with below | ⟨other,there,whose,waiting⟩
    · exact .inl below
    · exact .inr ⟨other,List.mem_append_left _ there,whose,waiting⟩
  | turned call' found before after silent for_ =>
    have waits := (resting_quiet lim after).2.2.2
    have waited := (resting_quiet lim before).2.2.2
    exact ⟨covered_quiet covered found (waits.trans waited.symm) for_ sys.common.issuedPlur,increasing⟩
  | called found taken =>
    obtain ⟨moves,for_,-⟩ := callStep_moves taken
    have ordered := met _ rfl
    exact ⟨covered_call covered (covers_of_inOrder ordered) found moves for_,
      increasing_call covered increasing ordered found moves⟩

end Calls

/-! ### The calls of a fetch -/

open Directswarm.Connection (Session Common Plan startEmit settle_cases noteLambda_eq chequeSent chequeFailed identity_step
  step_moves)
open Directswarm.Scheduler (Run Actor Move Job launch inflight)
open Directswarm.Figures (acting Touch touch_step serving sends confirming)
open Directswarm.Pulls (goes)
open Directswarm.Crew (isOver)

variable {M A B : Type}

/-- A connection without a cheque under way has a call that is over. -/
def idleCall (b : B) : Call B := ⟨b,0,.ended (.error .openSwapStream)⟩

def slot (s : Session A B) : Call B :=
  match s.phase with
  | .emitting _ _ call => call
  | _ => idleCall s.beneficiary

/-- The calls of a run, one for each connection. -/
def calls [DecidableEq A] [DecidableEq B] (r : Run M A B) : Emissions B :=
  ⟨r.common.bank,r.actors.map fun actor => slot actor.session⟩

def chequeOf : Connection.Act → Option CallAct
  | .cheque act => some act
  | _ => none

/-- What a connection learns of its cheque. -/
def toldBy (s : Session A B) (act : Connection.Act) : List (B × Nat) :=
  match s.phase, act with
  | .emitting _ _ call, .go => tells call
  | _, _ => []

section Session
variable {c c' : Common A B} {s s' : Session A B} {act : Connection.Act}

theorem toldBy_other (other : act ≠ .go) : toldBy s act = [] := by
  unfold toldBy
  split
  · exact absurd rfl other
  · rfl

theorem slot_emitting {purpose : Connection.Purpose} {units : Nat} {call : Call B} (at_ : s.phase = .emitting purpose units call) :
    slot s = call ∧ toldBy s .go = tells call := by
  simp [slot,toldBy,at_]

variable [DecidableEq B]

/-- What a step of a connection does to its call. -/
inductive Billed (lim : Limits) (bank bank' : Bank B) (call call' : Call B) : Option CallAct → List (B × Nat) → Prop
  | still (bank_ : bank' = bank) (same : call' = call) : Billed lim bank bank' call call' none []
  | turned (bank_ : bank' = bank) (before : resting call.phase = true) (after : resting call'.phase = true)
      (silent : tells call' = []) (for_ : call'.beneficiary = call.beneficiary) :
      Billed lim bank bank' call call' none (tells call)
  | called {act : CallAct} (taken : callStep lim bank call act = some (bank',call')) :
      Billed lim bank bank' call call' (some act) []

variable {lim : Limits} {bank : Bank B}

/-- A connection begins a cheque. -/
theorem billed_begin (units : Nat) (free : slot s = idleCall s.beneficiary) (begun : slot s' = ⟨s.beneficiary,units,.opening⟩)
    (told : toldBy s .go = []) : Billed lim bank bank (slot s) (slot s') none (toldBy s .go) := by
  rw [free,begun,told]
  have turned : Billed lim bank bank (idleCall s.beneficiary) ⟨s.beneficiary,units,.opening⟩ none
      (tells (idleCall s.beneficiary)) := .turned rfl rfl rfl rfl rfl
  exact turned

/-- A connection has ended its cheque. -/
theorem billed_end {purpose : Connection.Purpose} {units : Nat} {call : Call B} {result : Except EmitError Outcome}
    (faced : (slot s).beneficiary = s.beneficiary) (at_ : s.phase = .emitting purpose units call) (ended : call.phase = .ended result)
    (free : slot s' = idleCall s.beneficiary) : Billed lim bank bank (slot s) (slot s') none (toldBy s .go) := by
  obtain ⟨mine,told⟩ := slot_emitting at_
  rw [mine] at faced
  rw [mine,told,free]
  exact .turned rfl (by rw [ended]; rfl) rfl rfl faced.symm

variable [DecidableEq A] {plan : Plan A}

theorem billed_step (faced : (slot s).beneficiary = s.beneficiary) (moves : Connection.Moves plan c s act c' s') :
    Billed plan.lim c.bank c'.bank (slot s) (slot s') (chequeOf act) (toldBy s act) := by
  have plain : chequeOf act = none → toldBy s act = [] → c'.bank = c.bank → slot s' = slot s →
      Billed plan.lim c.bank c'.bank (slot s) (slot s') (chequeOf act) (toldBy s act) := by
    intro cheque told bank same
    rw [cheque,told]
    exact .still bank same
  cases moves with
  | hungUp | announced t | taskServed at_ | taskFailed at_ | taskStored at_ | taskSent at_ =>
    exact plain rfl (toldBy_other (by simp)) rfl rfl
  | @calling purpose units call call' act bank at_ taken =>
    rw [toldBy_other (by simp)]
    exact .called (by simpa [slot,at_] using taken)
  | @called purpose units call outcome at_ ended =>
    exact billed_end faced at_ ended (by cases purpose <;> rfl)
  | @uncalled purpose units call why at_ ended =>
    refine billed_end faced at_ ended ?_
    cases purpose with
    | lambdaSweep | initialPrepay | topUp => rfl
    | settle =>
      simp only [chequeFailed]
      split
      · split <;> rfl
      · rfl
  | settled at_ =>
    have free : slot s = idleCall s.beneficiary := by simp [slot,at_]
    have told : toldBy s .go = [] := by simp [toldBy,at_]
    rcases settle_cases plan c s with same | ⟨units,-,-,-,same⟩ | same
    · refine plain rfl told rfl ?_
      rw [same,free]
      rfl
    · rw [same]
      exact billed_begin units free rfl told
    · rw [same]
      exact billed_begin _ free rfl told
  | sweepBegin at_ woken => exact billed_begin _ (by simp [slot,at_]) rfl (by simp [toldBy,at_])
  | prepayBegin at_ mode short =>
    rw [noteLambda_eq]
    exact billed_begin _ (by simp [slot,at_]) rfl (by simp [toldBy,at_])
  | driveBegin at_ enough =>
    refine plain rfl (by simp [toldBy,at_]) rfl ?_
    rw [noteLambda_eq]
    simp [slot,at_]
  | _ => exact plain rfl (by simp_all [toldBy]) rfl (by simp_all [slot])

/-- A connection pays the peer it is with. -/
theorem faced_step (faced : (slot s).beneficiary = s.beneficiary) (moves : Connection.Moves plan c s act c' s') :
    (slot s').beneficiary = s'.beneficiary := by
  have same := (identity_step moves).2.2.1
  have billed := billed_step faced moves
  generalize chequeOf act = cheque at billed
  generalize toldBy s act = told at billed
  cases billed with
  | still bank_ same_ => rw [same,same_,faced]
  | turned bank_ before after silent for_ => rw [same,for_,faced]
  | called taken => rw [same,(callStep_moves taken).2.1,faced]

end Session

section Runs
variable [DecidableEq A] [DecidableEq B] {job : Job M A} {needed : List A} {r r' : Run M A B} {move : Move A B}

/-- The step of a call that a move is. -/
def billing (r : Run M A B) (move : Move A B) : Option (Act B) :=
  (acting r move).bind fun acted => (chequeOf acted.2).map (.call acted.1)

/-- What is told of a cheque in a move. -/
def told (r : Run M A B) (move : Move A B) : List (B × Nat) :=
  match acting r move with
  | some (i,act) =>
    match r.actors[i]? with
    | some actor => toldBy actor.session act
    | none => []
  | none => []

def Faced (r : Run M A B) : Prop := ∀ actor ∈ r.actors, (slot actor.session).beneficiary = actor.session.beneficiary

theorem faced_touch (faced : Faced r) {acted : Option (Nat × Connection.Act)} (touch : Touch job r r' acted) : Faced r' := by
  unfold Faced at faced ⊢
  cases touch with
  | @moved i actor act session actor' at_ taken same joined actors residual main =>
    rw [actors]
    refine forall_set faced ?_
    rw [same]
    exact faced_step (faced _ (mem_of_found at_)) (step_moves taken)
  | @joined i actor residual observed parked at_ open_ closed common actors sum main =>
    rw [actors]
    exact forall_set faced (faced actor (mem_of_found at_))
  | spawned overlay bucket beneficiary known warm session open_ common actors residual main =>
    rw [actors]
    refine forall_append faced ?_
    rw [session]
    cases warm <;> rfl
  | rested bank actors residual main => rw [actors]; exact faced

/-- Every step of a run is a step of the system of its calls. -/
theorem turn_step (faced : Faced r) (taken : Scheduler.step job needed r move = some r') :
    Turn job.plan.lim (calls r) (billing r move) (told r move) (calls r') := by
  have touch := touch_step taken
  unfold billing told
  generalize acting r move = acted at touch
  cases touch with
  | @moved i actor act session actor' at_ taken same joined actors residual main =>
    have billed := billed_step (faced _ (mem_of_found at_)) (step_moves taken)
    have found : (calls r).parties[i]? = some (slot actor.session) := by simp [calls,at_]
    have moved : calls r' = ⟨r'.common.bank,(calls r).parties.set i (slot session)⟩ := by
      simp [calls,actors,List.map_set,same]
    simp only [Option.bind_some,at_]
    rw [moved]
    generalize chequeOf act = cheque at billed
    generalize toldBy actor.session act = told at billed
    cases billed with
    | still bank_ same_ =>
      obtain ⟨inside,here⟩ := List.getElem?_eq_some_iff.mp found
      rw [bank_,same_,← here,List.set_getElem_self]
      exact .still
    | turned bank_ before after silent for_ =>
      rw [bank_]
      exact .turned (slot session) found before after silent for_
    | called taken => exact .called found taken
  | @joined i actor residual observed parked at_ open_ closed common actors sum main =>
    have found : (calls r).parties[i]? = some (slot actor.session) := by simp [calls,at_]
    obtain ⟨inside,here⟩ := List.getElem?_eq_some_iff.mp found
    have same : calls r' = calls r := by
      have kept := List.set_getElem_self inside
      rw [here] at kept
      simpa [calls,common,actors,List.map_set] using kept
    rw [same]
    exact .still
  | @spawned fresh overlay bucket beneficiary known warm session open_ common actors residual main =>
    have more : calls r' = ⟨(calls r).common,(calls r).parties ++ [slot fresh.session]⟩ := by simp [calls,common,actors]
    have free : slot fresh.session = idleCall beneficiary := by
      rw [session]
      cases warm <;> rfl
    rw [more,free]
    exact .opened rfl rfl
  | rested bank actors residual main =>
    have same : calls r' = calls r := by simp [calls,bank,actors]
    rw [same]
    exact .still

/-! ### Alone with an entry of the ledger -/

/-- No two of the peers that a run has met have one beneficiary. -/
def Distinguished (r : Run M A B) : Prop :=
  ∀ x ∈ r.actors, ∀ y ∈ r.actors, x.session.beneficiary = y.session.beneficiary → x.session.overlay = y.session.overlay

instance (r : Run M A B) : Decidable (Distinguished r) :=
  decidable_of_iff ((r.actors.all fun x => r.actors.all fun y =>
    decide (x.session.beneficiary = y.session.beneficiary → x.session.overlay = y.session.overlay)) = true)
    (by simp [Distinguished,imp_iff_not_or])

/-- Whom a run has met, it has met for good. -/
theorem distinguished_before {acted : Option (Nat × Connection.Act)} (touch : Touch job r r' acted) (later : Distinguished r') :
    Distinguished r := by
  have stays : ∀ x ∈ r.actors, ∃ x' ∈ r'.actors, x'.session.overlay = x.session.overlay ∧
      x'.session.beneficiary = x.session.beneficiary := by
    intro x member
    cases touch with
    | @moved i actor act session actor' at_ taken same joined actors residual main =>
      rw [actors]
      rcases mem_set_or_moved actor' member at_ with rfl | old
      · obtain ⟨overlay,-,beneficiary,-⟩ := identity_step (step_moves taken)
        exact ⟨actor',mem_set_moved actor' at_,by rw [same,overlay],by rw [same,beneficiary]⟩
      · exact ⟨x,old,rfl,rfl⟩
    | @joined i actor residual observed parked at_ open_ closed common actors sum main =>
      rw [actors]
      rcases mem_set_or_moved { actor with joined := true } member at_ with rfl | old
      · exact ⟨{ x with joined := true },mem_set_moved _ at_,rfl,rfl⟩
      · exact ⟨x,old,rfl,rfl⟩
    | spawned overlay bucket beneficiary known warm session open_ common actors residual main =>
      rw [actors]
      exact ⟨x,List.mem_append_left _ member,rfl,rfl⟩
    | rested bank actors residual main =>
      rw [actors]
      exact ⟨x,member,rfl,rfl⟩
  intro x inX y inY same
  obtain ⟨x',inX',overlayX,beneficiaryX⟩ := stays x inX
  obtain ⟨y',inY',overlayY,beneficiaryY⟩ := stays y inY
  rw [← overlayX,← overlayY]
  exact later x' inX' y' inY' (beneficiaryX.trans (same.trans beneficiaryY.symm))

/-- As a peer has one connection at a time, a beneficiary has one call at a time. -/
theorem unshared_of_crew (own : Distinguished r) (once : ((inflight r).map fun actor => actor.session.overlay).Nodup)
    (ended : ∀ actor ∈ r.actors, actor.joined = true → isOver actor.session.phase = true) (faced : Faced r) :
    Unshared (calls r) := by
  have apart : r.actors.Pairwise fun x y => (!x.joined) = true → (!y.joined) = true → x.session.overlay ≠ y.session.overlay :=
    List.pairwise_filter.mp (List.pairwise_map.mp once)
  have flies : ∀ actor ∈ r.actors, underWay (slot actor.session).phase = true → (!actor.joined) = true := by
    intro actor member busy
    by_contra landed
    have over_ := ended actor member (by simpa using landed)
    obtain ⟨residual,observed,parked,at_⟩ := Crew.over_iff.mp over_
    simp [slot,at_,idleCall,underWay] at busy
  intro i j x y foundX foundY same busyX busyY
  simp only [calls,List.getElem?_map,Option.map_eq_some_iff] at foundX foundY
  obtain ⟨a,atA,rfl⟩ := foundX
  obtain ⟨b,atB,rfl⟩ := foundY
  have inA := mem_of_found atA
  have inB := mem_of_found atB
  rw [faced a inA,faced b inB] at same
  have one := own a inA b inB same
  obtain ⟨insideA,rfl⟩ := List.getElem?_eq_some_iff.mp atA
  obtain ⟨insideB,rfl⟩ := List.getElem?_eq_some_iff.mp atB
  have flyA := flies _ inA busyX
  have flyB := flies _ inB busyY
  rcases lt_trichotomy i j with before | same_ | after
  · exact absurd one (List.pairwise_iff_getElem.mp apart i j insideA insideB before flyA flyB)
  · exact same_
  · exact absurd one.symm (List.pairwise_iff_getElem.mp apart j i insideB insideA after flyB flyA)

omit [DecidableEq B] in
/-- Routing the chunks leaves the bank as it was opened. -/
theorem launch_bank (job : Job M A) (opening : Scheduler.Opening A B) :
    (launch job opening).common.bank = ⟨0,opening.ledger,[]⟩ := by
  unfold launch
  split
  · rfl
  · simp only
    split
    · rfl
    · split
      · rfl
      · split
        · rfl
        · split
          · rfl
          · refine List.foldlRecOn (motive := fun r : Run M A B => r.common.bank = ⟨0,opening.ledger,[]⟩) _ _ rfl ?_
            intro r kept addr _
            unfold Scheduler.route
            simp only
            split
            · exact kept
            · split <;> exact kept

theorem launch_calls (job : Job M A) (opening : Scheduler.Opening A B) :
    calls (launch job opening) = Cheques.opening opening.ledger := by
  unfold calls
  rw [launch_bank,(Figures.launch_blank job opening).1]
  rfl

end Runs

/-! ### What a fetch pays -/

open Directswarm.Proximity Directswarm.PeerTable Directswarm.Routing
open Directswarm.Crew (Planned planned_step planned_launch crew_apart selected_distinct)
open Directswarm.Replanning (Candidates Apart apart_step selected)

variable [DecidableEq B]

/-- What makes calls go alone. -/
structure Orderly (c : Candidates M SwarmAddress) (r : Run M SwarmAddress B) : Prop where
  standing : Ownership.Standing r
  plans : Planned c Apart r
  ended : ∀ actor ∈ r.actors, actor.joined = true → isOver actor.session.phase = true
  faced : Faced r

section Orderly
variable {c : Candidates M SwarmAddress} {job : Job M SwarmAddress} {needed : List SwarmAddress}
  {r r' : Run M SwarmAddress B} {move : Move SwarmAddress B}

theorem orderly_step (distinct : c.Distinct) (orderly : Orderly c r) (taken : Scheduler.step job needed r move = some r') :
    Orderly c r' :=
  ⟨Ownership.standing_step orderly.standing (Scheduler.step_steps taken),
    planned_step (apart_step distinct) (fun _ _ apart => apart) orderly.plans taken,
    Figures.ended_step orderly.ended (touch_step taken),faced_touch orderly.faced (touch_step taken)⟩

omit [DecidableEq B] in
theorem orderly_launch {opening : Scheduler.Opening SwarmAddress B} (selects : job.select (Fates.wanted job opening) = c.map) :
    Orderly c (launch job opening) := by
  obtain ⟨standing,started⟩ := Fates.launch_started job opening
  obtain ⟨main,fresh⟩ := started.fresh
  exact ⟨standing,planned_launch List.nodup_nil selects,by simp [fresh.actors],by simp [Faced,fresh.actors]⟩

theorem orderly_unshared (orderly : Orderly c r) (own : Distinguished r) : Unshared (calls r) :=
  unshared_of_crew own (crew_apart orderly.plans) orderly.ended orderly.faced

theorem orderly_sole (orderly : Orderly c r) (own : Distinguished r) : Sole (calls r) :=
  sole_of_unshared (orderly_unshared orderly own)

/-- A run that has returned has no call under way. -/
theorem orderly_idle (orderly : Orderly c r) {result : Except Scheduler.FetchError Scheduler.ScheduleReport}
    (over_ : r.main = .returned result) : ∀ call ∈ (calls r).parties, resting call.phase = true ∧ tells call = [] := by
  have all := (orderly.standing.drained (.inr ⟨result,over_⟩)).2
  intro call member
  obtain ⟨actor,inside,rfl⟩ := List.mem_map.mp member
  obtain ⟨residual,observed,parked,at_⟩ := Crew.over_iff.mp (orderly.ended actor inside (all actor inside))
  simp [slot,at_,idleCall,resting,tells]

end Orderly

/-- The steps of a fetch, with what its connections learn of their cheques. -/
def paying (job : Job M SwarmAddress) (needed : List SwarmAddress) :
    Run M SwarmAddress B × List (B × Nat) → Move SwarmAddress B → Option (Run M SwarmAddress B × List (B × Nat)) :=
  noted (Scheduler.step job needed) fun r move _ paid => paid ++ told r move

/-- In every state of a fetch whose peers have beneficiaries of their own, the ledger has
    grown for each beneficiary by the cheques that its connections know to have sent, and
    by those that are recorded and not known of yet, whatever calls went wrong, and
    although calls read and write the ledger at different times; and when the fetch
    reports, by the cheques that were sent. -/
theorem ledger_exact (parse : List Char → Option M) (peers : PeerMap) (cache : TopologyCache) (depth : Nat)
    (job : Job M SwarmAddress) (opening : Scheduler.Opening SwarmAddress B) (needed : List SwarmAddress)
    (moves : List (Move SwarmAddress B)) (final : Run M SwarmAddress B) (paid : List (B × Nat)) (own : Distinguished final)
    (reached : run (paying (Pulls.routed parse peers cache depth job) needed)
      (launch (Pulls.routed parse peers cache depth job) opening,[]) moves = some (final,paid)) (b : B) :
    (cumulativeFor final.common.bank.ledger b).val =
      (cumulativeFor opening.ledger b).val + paidTo paid b + total (recordedFor b) (calls final).parties ∧
    ∀ result, final.main = .returned result →
      (cumulativeFor final.common.bank.ledger b).val = (cumulativeFor opening.ledger b).val + paidTo paid b := by
  let routed := Pulls.routed parse peers cache depth job
  let c := selected parse peers cache (Fates.wanted job opening) depth
  let start : B → Nat := fun b => (cumulativeFor opening.ledger b).val
  obtain ⟨orderly,books⟩ := @run_invariant _ _ _ (fun st : Run M SwarmAddress B × List (B × Nat) => Orderly c st.1 ∧
    (Distinguished st.1 → Drawn (calls st.1) ∧ Exact start (calls st.1) st.2)) (by
      rintro st move next ⟨orderly,books⟩ taken
      obtain ⟨moved,notes⟩ := noted_some.mp taken
      refine ⟨orderly_step selected_distinct orderly moved,fun later => ?_⟩
      have own := distinguished_before (touch_step moved) later
      obtain ⟨drawn,exact_⟩ := books own
      have turn := turn_step orderly.faced moved
      rw [notes]
      exact ⟨drawn_turn drawn (orderly_sole orderly own) turn,exact_turn exact_ drawn turn⟩) _ _ _ (by
      refine ⟨orderly_launch rfl,fun _ => ?_⟩
      simp only [launch_calls]
      exact ⟨by simp [Drawn,Cheques.opening],fun b => rfl⟩) reached
  have exact_ : (cumulativeFor final.common.bank.ledger b).val =
      (cumulativeFor opening.ledger b).val + paidTo paid b + total (recordedFor b) (calls final).parties := (books own).2 b
  refine ⟨exact_,fun result over_ => ?_⟩
  have nothing : total (recordedFor b) (calls final).parties ≤ total (fun _ => 0) (calls final).parties := by
    refine total_mono fun call member => ?_
    obtain ⟨rests,silent⟩ := orderly_idle orderly over_ call member
    rw [← paidTo_tells rests,silent]
    exact le_rfl
  have zero : total (fun _ => 0) (calls final).parties = 0 := by simp [total]
  omega

/-- Two connections are dialed, and one chunk of each is served and paid for while the
    calls of both are under way; then the other chunk of the first one is. Both peers
    confirm that nothing is owed. -/
def paidRun : List (Move SwarmAddress Nat) :=
  [Pulls.dialed,goes 0 8,goes 1 6,serving 0 0,serving 1 0,
    goes 0 2,[.session 0 (.accepted none)],goes 0 1,goes 1 2,[.session 1 (.accepted none)],goes 1 1,
    sends.flatMap fun act => [.session 0 (.cheque act),.session 1 (.cheque act)],
    goes 0 2,goes 1 2,[.pass (600 * Pacing.ms)],serving 0 0,goes 0 6,sends.map fun act => .session 0 (.cheque act),
    goes 0 3,goes 1 1,confirming 0,confirming 1,
    [.join 0,.refill,.dispatch (fun _ => 0) (fun _ => 0) [0,128] none 2,.join 1,.refill,
      .dispatch (fun _ => 0) (fun _ => 0) [0,128] none 2,.drain [],.report true]].flatten

abbrev paidJob : Job (List Char) SwarmAddress := Pulls.routed some ∅ Pulls.two 8 Pulls.double

def launched : Run (List Char) SwarmAddress Nat := launch paidJob Pulls.opened

theorem ledger_exact_paid : ∃ final paid, run (paying paidJob Pulls.chunks) (launched,[]) paidRun = some (final,paid) ∧
    paid = [(2,30000000000),(3,30000000000),(2,30000000000)] ∧ ∀ b,
    (cumulativeFor final.common.bank.ledger b).val =
      (cumulativeFor ∅ b).val + paidTo paid b + total (recordedFor b) (calls final).parties ∧
    ∀ result, final.main = .returned result →
      (cumulativeFor final.common.bank.ledger b).val = (cumulativeFor ∅ b).val + paidTo paid b := by
  have ends : (run (paying paidJob Pulls.chunks) (launched,[]) paidRun).map (fun st => (decide (Distinguished st.1),st.2)) =
      some (true,[(2,30000000000),(3,30000000000),(2,30000000000)]) := by decide +kernel
  obtain ⟨⟨final,paid⟩,reached,same⟩ := Option.map_eq_some_iff.mp ends
  simp only [Prod.mk.injEq,decide_eq_true_eq] at same
  exact ⟨final,paid,reached,same.2,
    ledger_exact some ∅ Pulls.two 8 Pulls.double _ Pulls.chunks paidRun final paid same.1 reached⟩

/-- In every fetch whose peers have beneficiaries of their own, the cheques that are
    written to a beneficiary carry strictly increasing cumulatives, if each is for a
    positive amount and is flushed; and no two calls for one beneficiary are ever under
    way together. -/
theorem fetch_in_order (parse : List Char → Option M) (peers : PeerMap) (cache : TopologyCache) (depth : Nat)
    (job : Job M SwarmAddress) (opening : Scheduler.Opening SwarmAddress B) (needed : List SwarmAddress)
    (moves : List (Move SwarmAddress B)) (final : Run M SwarmAddress B) (own : Distinguished final)
    (met : Meets (Scheduler.step (Pulls.routed parse peers cache depth job) needed)
      (fun r move => ∀ act ∈ billing r move, Delivered (calls r) act)
      (launch (Pulls.routed parse peers cache depth job) opening) moves)
    (reached : run (Scheduler.step (Pulls.routed parse peers cache depth job) needed)
      (launch (Pulls.routed parse peers cache depth job) opening) moves = some final) :
    Increasing final.common.bank.frames ∧ Unshared (calls final) := by
  let c := selected parse peers cache (Fates.wanted job opening) depth
  obtain ⟨orderly,ordered⟩ := @run_guarded _ _ _ _ (fun r : Run M SwarmAddress B => Orderly c r ∧
    (Distinguished r → Drawn (calls r) ∧ Covered (calls r) ∧ Increasing (calls r).common.frames)) (by
      rintro r move next ⟨orderly,ordered⟩ delivered taken
      refine ⟨orderly_step selected_distinct orderly taken,fun later => ?_⟩
      have own := distinguished_before (touch_step taken) later
      obtain ⟨drawn,covered,increasing⟩ := ordered own
      have sole := orderly_sole orderly own
      have turn := turn_step orderly.faced taken
      exact ⟨drawn_turn drawn sole turn,
        ordered_turn covered increasing turn fun act acts => inOrder_of_sole sole drawn (delivered act acts)⟩) _ _ _ (by
      refine ⟨orderly_launch rfl,fun _ => ?_⟩
      rw [launch_calls]
      exact ⟨by simp [Drawn,Cheques.opening],covered_opening _,List.Pairwise.nil⟩) met reached
  exact ⟨(ordered own).2.2,orderly_unshared orderly own⟩

theorem fetch_in_order_paid : ∃ final, run (Scheduler.step paidJob Pulls.chunks) launched paidRun = some final ∧
    final.common.bank.frames.map (fun frame => (frame.beneficiary,frame.cumulative.val)) =
      [(2,30000000000),(3,30000000000),(2,60000000000)] ∧
    Increasing final.common.bank.frames ∧ Unshared (calls final) := by
  have ends : (run (Scheduler.step paidJob Pulls.chunks) launched paidRun).map (fun r => (decide (Distinguished r),
      r.common.bank.frames.map fun frame => (frame.beneficiary,frame.cumulative.val))) =
      some (true,[(2,30000000000),(3,30000000000),(2,60000000000)]) := by decide +kernel
  obtain ⟨final,reached,same⟩ := Option.map_eq_some_iff.mp ends
  simp only [Prod.mk.injEq,decide_eq_true_eq] at same
  exact ⟨final,reached,same.2,fetch_in_order some ∅ Pulls.two 8 Pulls.double _ Pulls.chunks paidRun final same.1
    (by decide +kernel) reached⟩

/-- In every fetch whose peers have beneficiaries of their own, and in which the spend
    guard counts exactly at each step, the cheques written to all peers are within the
    cap together, and the ledger has grown in all by no more than they move; by just
    that when the fetch has returned. So a chequebook that could pay the ledger and the
    cap can pay the ledger still. -/
theorem fetch_within_cap (parse : List Char → Option M) (peers : PeerMap) (cache : TopologyCache) (depth : Nat)
    (job : Job M SwarmAddress) (opening : Scheduler.Opening SwarmAddress B) (needed : List SwarmAddress)
    (moves : List (Move SwarmAddress B)) (final : Run M SwarmAddress B) (own : Distinguished final)
    (met : Meets (Scheduler.step (Pulls.routed parse peers cache depth job) needed)
      (fun r move => ∀ act ∈ billing r move, CountsExactly job.plan.lim (calls r) act)
      (launch (Pulls.routed parse peers cache depth job) opening) moves)
    (reached : run (Scheduler.step (Pulls.routed parse peers cache depth job) needed)
      (launch (Pulls.routed parse peers cache depth job) opening) moves = some final) :
    framesPlur final.common.bank ≤ job.plan.lim.maxIssuePlur ∧
    ledgerTotal final.common.bank.ledger ≤ ledgerTotal opening.ledger + framesPlur final.common.bank ∧
    ∀ result, final.main = .returned result →
      ledgerTotal final.common.bank.ledger = ledgerTotal opening.ledger + framesPlur final.common.bank := by
  let c := selected parse peers cache (Fates.wanted job opening) depth
  obtain ⟨orderly,counted,books⟩ := @run_guarded _ _ _ _ (fun r : Run M SwarmAddress B => Orderly c r ∧
    Counted job.plan.lim (calls r) ∧ (Distinguished r → Drawn (calls r) ∧ Grown (ledgerTotal opening.ledger) (calls r))) (by
      rintro r move next ⟨orderly,counted,books⟩ counts taken
      have turn := turn_step orderly.faced taken
      refine ⟨orderly_step selected_distinct orderly taken,counted_turn counted turn counts,fun later => ?_⟩
      have own := distinguished_before (touch_step taken) later
      obtain ⟨drawn,grown⟩ := books own
      exact ⟨drawn_turn drawn (orderly_sole orderly own) turn,grown_turn grown drawn turn counts⟩) _ _ _ (by
      refine ⟨orderly_launch rfl,?_⟩
      rw [launch_calls]
      exact ⟨counted_opening _ _,fun _ => ⟨by simp [Drawn,Cheques.opening],rfl⟩⟩) met reached
  have grown : ledgerTotal final.common.bank.ledger + total awaited (calls final).parties =
      ledgerTotal opening.ledger + framesPlur final.common.bank := (books own).2
  have within : framesPlur final.common.bank + _ ≤ job.plan.lim.maxIssuePlur := counted.within
  refine ⟨by omega,by omega,fun result over_ => ?_⟩
  have nothing : total awaited (calls final).parties ≤ total (fun _ => 0) (calls final).parties := by
    refine total_mono fun call member => ?_
    have rests := (orderly_idle orderly over_ call member).1
    obtain ⟨b,units,phase⟩ := call
    cases phase <;> first | exact le_rfl | cases rests
  have zero : total (fun _ => 0) (calls final).parties = 0 := by simp [total]
  omega

theorem fetch_within_cap_paid : ∃ final, run (Scheduler.step paidJob Pulls.chunks) launched paidRun = some final ∧
    framesPlur final.common.bank = 90000000000 ∧ framesPlur final.common.bank ≤ 10 ^ 12 ∧
    ledgerTotal final.common.bank.ledger ≤ ledgerTotal (∅ : Finmap fun _ : Nat => U256) + framesPlur final.common.bank ∧
    ∀ result, final.main = .returned result →
      ledgerTotal final.common.bank.ledger = ledgerTotal (∅ : Finmap fun _ : Nat => U256) + framesPlur final.common.bank := by
  have ends : (run (Scheduler.step paidJob Pulls.chunks) launched paidRun).map
      (fun r => (decide (Distinguished r),framesPlur r.common.bank)) = some (true,90000000000) := by decide +kernel
  obtain ⟨final,reached,same⟩ := Option.map_eq_some_iff.mp ends
  simp only [Prod.mk.injEq,decide_eq_true_eq] at same
  exact ⟨final,reached,same.2,fetch_within_cap some ∅ Pulls.two 8 Pulls.double _ Pulls.chunks paidRun final same.1
    (by decide +kernel) reached⟩

end Directswarm.Payments
