import Directswarm.Moves

/-!
The books of one connection. `Account` is what the mirror and the pacer keep, with
the prices of the fetches in flight; `Entry` is the list of what can be posted to
it, and `step_entry` says that a step of the connection posts one entry. What the
account never understates is then a matter of the entries alone.
-/
namespace Directswarm.Accounts
open Directswarm.Words Directswarm.Runs Directswarm.Interleaving Directswarm.Cheques Directswarm.Pacing
  Directswarm.Connection Directswarm.WorkPool

/-- Prepaid units, the mirror, the queue of cheques that may be validating, and
    the prices of the fetches in flight. -/
structure Account where
  mirror : Mirror
  prepaid : Nat
  queue : List (Nat × Nat)
  inFlight : Nat

/-- What a posting depends on: the time, the validation window, 105% of the
    threshold, the limit of the latency measurement, and whether `admit` is asked and
    grants the fetch. -/
structure Terms where
  now : Nat
  window : Nat
  gate : Nat
  half : Nat
  asks : Bool

namespace Account

def prune (a : Account) (t : Terms) : Account :=
  { a with queue := a.queue.dropWhile fun entry => t.window < t.now - entry.1 }

/-- The limit of `admit`. -/
def limit (a : Account) (t : Terms) : Nat :=
  wrapAdd a.prepaid t.gate - ((a.prune t).queue.map Prod.snd).foldl wrapAdd 0

end Account

/-- What the peer is paid: a cheque, or units that it accepted for a refresh. -/
inductive Payment
  | none
  | cheque (units : Nat)
  | refresh (units : Nat)
  deriving DecidableEq

def Payment.units : Payment → Nat
  | .none => 0
  | .cheque units | .refresh units => units

/-- What is posted, with the price that was served and what was paid. -/
inductive Entry (t : Terms) (a : Account) : (served : Nat) → Payment → Account → Prop
  | none : Entry t a 0 .none a
  | prune : Entry t a 0 .none (a.prune t)
  | admitOne {price : Nat} {mirror : Mirror} (asked : t.asks = true)
      (reserved : a.mirror.tryReserve price (a.limit t) = some mirror) :
      Entry t a 0 .none { a.prune t with mirror := mirror, inFlight := a.inFlight + price }
  | measure {price : Nat} {mirror : Mirror} (reserved : a.mirror.tryReserve price t.half = some mirror) :
      Entry t a 0 .none { a with mirror := mirror, inFlight := a.inFlight + price }
  | serve {price rest : Nat} (flying : a.inFlight = rest + price) :
      Entry t a price .none { a with mirror := a.mirror.apply price, inFlight := rest }
  | fail {price rest : Nat} (flying : a.inFlight = rest + price) :
      Entry t a 0 .none { a with mirror := a.mirror.release price, inFlight := rest }
  | cheque {units : Nat} :
      Entry t a 0 (.cheque units) { a with mirror := a.mirror.credit units, queue := a.queue ++ [(t.now,units)] }
  | prepay {units : Nat} :
      Entry t a 0 (.cheque units) { a with prepaid := wrapAdd a.prepaid units, queue := a.queue ++ [(t.now,units)] }
  | refresh {units : Nat} : Entry t a 0 (.refresh units) { a with mirror := a.mirror.credit units }

/-! ### The account of a connection -/

variable {A B : Type}

/-- The price of a fetch, while it is in flight. -/
def flying (task : FetchTask A) : Nat := if task.stage = .retrieving then task.price else 0

/-- The price of the fetch that `measure_lambda` awaits. -/
def measured : Phase A B → Nat
  | .measureRetrieving _ _ price => price
  | _ => 0

/-- No pacer was made yet, or none ever. -/
def unopened : Phase A B → Bool
  | .dialing | .established | .closed _ none _ => true
  | _ => false

/-- The prices of the fetches in flight. -/
def inFlight (s : Session A B) : Nat := total flying s.tasks + measured s.phase

/-- The surplus that a connection starts from. -/
def startSurplus (plan : Plan A) (s : Session A B) : Nat :=
  if plan.prepay then (s.known.map fun k => k.surplusUnits.val).getD 0 else 0

def account (plan : Plan A) (s : Session A B) : Account :=
  if unopened s.phase then ⟨⟨0,0⟩,startSurplus plan s,[],0⟩
  else ⟨s.pacer.mirror,s.pacer.prepaid,s.pacer.unvalidated,inFlight s⟩

/-- The limit of the latency measurement. -/
def half : Phase A B → Nat
  | .measuring m | .measurePopped m _ | .measureRetrieving m _ _ | .measureServed m _ => m.half
  | _ => 0

/-- The step asks `admit` for the address that it took, which no other storer has
    served, and is granted it. -/
def admits [DecidableEq A] (plan : Plan A) (c : Common A B) (s : Session A B) (act : Act) : Bool :=
  match act, s.phase with
  | .go, .popped addr =>
    let price := plan.peerPrice s.overlay addr
    decide (addr ∉ c.stored) && ({ s.pacer with avgPrice := max price 1 }.admitOne c.now price).2
  | _, _ => false

def terms [DecidableEq A] (plan : Plan A) (c : Common A B) (s : Session A B) (act : Act) : Terms :=
  ⟨c.now,s.pacer.window,satMul s.pacer.threshold 105 / 100,half s.phase,admits plan c s act⟩

/-- The price of the fetch that returns a chunk in a step. -/
def served (s : Session A B) (act : Act) : Nat :=
  match act, s.phase with
  | .task k true, _ =>
    match s.tasks[k]? with
    | some ⟨_,price,.retrieving⟩ => price
    | _ => 0
  | .answer true, .measureRetrieving _ _ price => price
  | _, _ => 0

/-- What a step pays: a cheque that went out, or a refresh that was accepted. -/
def payment (s : Session A B) (act : Act) : Payment :=
  match act, s.phase with
  | .go, .emitting _ units ⟨_,_,.ended (.ok _)⟩ => .cheque units
  | .accepted units, .refreshing => .refresh ((units.map Fin.val).getD 0)
  | _, _ => .none

theorem flying_set {tasks : List (FetchTask A)} {k : Nat} {addr : A} {price : Nat} (stage : Stage)
    (at_ : tasks[k]? = some ⟨addr,price,.retrieving⟩) (landed : stage ≠ .retrieving) :
    total flying tasks = total flying (tasks.set k ⟨addr,price,stage⟩) + price := by
  have moved := total_set flying ⟨addr,price,stage⟩ at_
  simp only [flying,landed,↓reduceIte] at moved
  omega

theorem flying_landed {tasks : List (FetchTask A)} {k : Nat} {addr : A} {price : Nat} {from_ : Stage} (to_ : Stage)
    (at_ : tasks[k]? = some ⟨addr,price,from_⟩) (before : from_ ≠ .retrieving) (after : to_ ≠ .retrieving) :
    total flying (tasks.set k ⟨addr,price,to_⟩) = total flying tasks := by
  have moved := total_set flying ⟨addr,price,to_⟩ at_
  simp only [flying,before,after,↓reduceIte] at moved
  omega

theorem flying_reap (tasks : List (FetchTask A)) : total flying (reap tasks) = total flying tasks := by
  unfold reap
  induction tasks with
  | nil => rfl
  | cons task rest ih =>
    rw [List.filter_cons,total_cons]
    by_cases joined : task.stage = .done
    · simp only [joined,ne_eq,not_true_eq_false,decide_false,Bool.false_eq_true,↓reduceIte,ih,flying,reduceCtorEq]
      omega
    · simp only [joined,ne_eq,not_false_eq_true,decide_true,↓reduceIte,total_cons] at ih ⊢
      rw [ih]

/-- Joined fetches are not in flight. -/
theorem flying_joined {tasks : List (FetchTask A)} (joined : ∀ task ∈ tasks, task.stage = .done) : total flying tasks = 0 := by
  induction tasks with
  | nil => rfl
  | cons task rest ih =>
    have first := joined task List.mem_cons_self
    have later := ih fun task member => joined task (List.mem_cons_of_mem _ member)
    simp [flying,first,later]

/-- A connection with a fetch under way has its pacer. -/
theorem opened_of_busy {s : Session A B} {k : Nat} {task : FetchTask A} (idle : Idle s) (at_ : s.tasks[k]? = some task) :
    unopened s.phase = false := by
  by_contra open_
  have none_ : s.tasks = [] := by
    cases phase : s.phase with
    | dialing | established => exact (idle.early (by rw [phase]; rfl)).1
    | closed residual observed parked => exact (idle.late (by rw [phase]; rfl)).1
    | _ => simp [phase,unopened] at open_
  simp [none_] at at_

theorem account_opened {plan : Plan A} {s : Session A B} (opened : unopened s.phase = false) : account plan s =
    ⟨s.pacer.mirror,s.pacer.prepaid,s.pacer.unvalidated,inFlight s⟩ := by
  simp [account,opened]

variable [DecidableEq A] [DecidableEq B]

omit [DecidableEq B] in
theorem admits_popped {plan : Plan A} {c : Common A B} {s : Session A B} {act : Act} (admitted : admits plan c s act = true) :
    ∃ addr, s.phase = .popped addr := by
  unfold admits at admitted
  split at admitted
  · next addr at_ => exact ⟨addr,at_⟩
  · cases admitted

/-- A step of a connection posts one entry. -/
theorem step_entry {plan : Plan A} {c c' : Common A B} {s s' : Session A B} {act : Act} (idle : Idle s)
    (moves : Moves plan c s act c' s') :
    Entry (terms plan c s act) (account plan s) (served s act) (payment s act) (account plan s') := by
  obtain ⟨overlay,bucket,beneficiary,known,warm,alive,pacer,lambda,tasks,pending,stop,drained,finishing,halted,
    attempts,phase⟩ := s
  cases moves with
  | hungUp | announced t => exact .none
  | @taskServed k addr price at_ =>
    have opened : unopened phase = false := opened_of_busy idle at_
    have flown := flying_set .served at_ (by decide)
    have price_ : served ⟨overlay,bucket,beneficiary,known,warm,alive,pacer,lambda,tasks,pending,stop,drained,
      finishing,halted,attempts,phase⟩ (.task k true) = price := by simp [served,at_]
    rw [price_,account_opened opened,account_opened (by exact opened)]
    refine .serve ?_
    simp only [inFlight] at flown ⊢
    omega
  | @taskFailed k addr price at_ =>
    have opened : unopened phase = false := opened_of_busy idle at_
    have flown := flying_set .failed at_ (by decide)
    rw [account_opened opened,account_opened (by exact opened)]
    refine .fail ?_
    simp only [inFlight] at flown ⊢
    omega
  | @taskStored k addr price ok at_ | @taskSent k addr price ok at_ =>
    have opened : unopened phase = false := opened_of_busy idle at_
    have flown := flying_landed .done at_ (by decide) (by decide)
    have price_ : served ⟨overlay,bucket,beneficiary,known,warm,alive,pacer,lambda,tasks,pending,stop,drained,
      finishing,halted,attempts,phase⟩ (.task k ok) = 0 := by cases ok <;> simp [served,at_]
    rw [price_,account_opened opened,account_opened (by exact opened)]
    simp only [inFlight] at flown ⊢
    rw [flown]
    exact .none
  | startMeasuring at_ unknown mode =>
    cases at_
    have none_ : tasks = [] := (idle.early rfl).1
    subst none_
    exact .none
  | unmeasured at_ =>
    cases at_
    have none_ : tasks = [] := (idle.early rfl).1
    subst none_
    exact .none
  | measureReserve at_ absent reserved => cases at_; exact .measure reserved
  | @measureServe m addr price at_ => cases at_; exact .serve rfl
  | @measureFail m addr price at_ => cases at_; exact .fail rfl
  | prepayBegin at_ mode short => cases at_; rw [noteLambda_eq]; exact .none
  | driveBegin at_ enough => cases at_; rw [noteLambda_eq]; exact .none
  | @called purpose units call outcome at_ ended =>
    obtain ⟨b,debt,phase⟩ := call
    cases at_; cases ended
    cases purpose with
    | lambdaSweep | settle => exact .cheque
    | initialPrepay | topUp => exact .prepay
  | @uncalled purpose units call why at_ ended =>
    obtain ⟨b,debt,phase⟩ := call
    cases at_; cases ended
    cases purpose with
    | lambdaSweep | initialPrepay | topUp => exact .none
    | settle =>
      simp only [chequeFailed]
      split
      · split <;> exact .none
      · exact .none
  | drained at_ joined =>
    cases at_
    have landed : total flying tasks = 0 := flying_joined joined
    rw [account_opened rfl,account_opened rfl]
    simp only [inFlight,landed]
    exact .none
  | @refuse addr pacer' at_ absent refused =>
    cases at_
    cases Pacer.admit_refused refused
    exact .prune
  | @admitOne addr pacer' at_ absent admitted =>
    cases at_
    obtain ⟨mirror,reserved,rfl⟩ := Pacer.admit_admitted admitted
    rw [account_opened rfl,account_opened rfl]
    have flown : total flying (tasks ++ [⟨addr,plan.peerPrice overlay addr,.retrieving⟩]) =
        total flying tasks + plan.peerPrice overlay addr := by simp [flying]
    simp only [inFlight,flown]
    exact .admitOne (by simp [terms,admits,absent,admitted]) reserved
  | refreshBegin at_ owes =>
    cases at_
    rw [account_opened rfl,account_opened rfl]
    simp only [inFlight,flying_reap]
    exact .none
  | refreshSkip at_ lastRefresh =>
    cases at_
    rw [account_opened rfl,account_opened rfl]
    simp only [inFlight,flying_reap]
    exact .none
  | @refreshed units at_ => cases at_; cases units <;> exact .refresh
  | @measureStore m addr ok at_ => cases at_; cases ok <;> exact .none
  | @probeAgain t0 zeroAt zeroAt' units at_ wake settled => cases at_; cases units <;> exact .none
  | @probeEnd t0 zeroAt units at_ lambda settled => cases at_; cases units <;> exact .none
  | @confirmed consumed units at_ => cases at_; cases units <;> exact .none
  | settled at_ =>
    cases at_
    rcases settle_cases plan c ⟨overlay,bucket,beneficiary,known,warm,alive,pacer,lambda,tasks,pending,stop,drained,
      finishing,halted,attempts,.settling⟩ with same | ⟨units,-,-,-,same⟩ | same <;> rw [same] <;> exact .none
  | undialed at_ | dialed at_ | measurePop at_ there | measureEnd at_
  | measureSkip at_ there | measureLost at_ absent refused | measureSend at_ | measureLittle at_
  | measureWait at_ | sweepBegin at_ woken | probeBegin at_ woken | calling at_ taken | dead at_ gone | turn at_ live sampled stopped
  | halt at_ stopped halted | project at_ room onward | resume at_ onward room held
  | take at_ onward room free there | empty at_ onward free none_ | full at_ stop | skip at_ there | retry at_ woken
  | finish at_ done settled ready | sleep at_ ready kept | wake at_ woken | confirmBegin at_ live
  | unconfirmed at_ why | confirmWake at_ woken | recorded at_ => cases at_; exact .none

/-! ### What the entries keep -/

/-- The account against what was consumed and paid since the connection opened:
    the reservations are the fetches in flight, nothing saturates, and the debt
    less what is prepaid covers what is owed. -/
structure Covered (surplus consumed paid : Nat) (a : Account) : Prop where
  reserved : a.mirror.reserved = a.inFlight
  fits : a.mirror.balance + a.inFlight ≤ u64Max
  owed : consumed + a.prepaid ≤ a.mirror.balance + paid + surplus

theorem covered_reserve {surplus consumed paid price limit : Nat} {a : Account} {mirror : Mirror}
    (queue : List (Nat × Nat)) (covered : Covered surplus consumed paid a) (low : limit < u64Max)
    (reserved : a.mirror.tryReserve price limit = some mirror) :
    Covered surplus consumed paid ⟨mirror,a.prepaid,queue,a.inFlight + price⟩ := by
  obtain ⟨within,rfl⟩ := Mirror.tryReserve_exact low reserved
  have flight := covered.reserved
  refine ⟨?_,?_,covered.owed⟩
  · simp only [flight]
  · simp only
    omega

/-- Every entry keeps it, if the limits under which something is reserved are below
    the largest 64-bit value. -/
theorem covered_entry {surplus consumed paid price : Nat} {payment : Payment} {t : Terms} {a a' : Account}
    (covered : Covered surplus consumed paid a)
    (exact_ : t.asks = true → a.limit t < u64Max) (low : t.half < u64Max)
    (entry : Entry t a price payment a') : Covered surplus (consumed + price) (paid + payment.units) a' := by
  obtain ⟨reserved,fits,owed⟩ := covered
  cases entry with
  | none => exact ⟨reserved,fits,owed⟩
  | prune => exact ⟨reserved,fits,owed⟩
  | admitOne asked taken => exact covered_reserve _ ⟨reserved,fits,owed⟩ (exact_ asked) taken
  | measure taken => exact covered_reserve _ ⟨reserved,fits,owed⟩ low taken
  | @serve price rest flying =>
    have whole : satAdd a.mirror.balance price = a.mirror.balance + price := satAdd_exact (by omega)
    refine ⟨?_,?_,?_⟩ <;> simp only [Mirror.apply,whole] <;> omega
  | @fail price rest flying =>
    refine ⟨?_,?_,?_⟩ <;> simp only [Mirror.release] <;> omega
  | cheque => refine ⟨reserved,?_,?_⟩ <;> simp only [Mirror.credit,Payment.units] <;> omega
  | @prepay units =>
    have grown := wrapAdd_le a.prepaid units
    refine ⟨reserved,fits,?_⟩
    simp only [Payment.units]
    omega
  | refresh => refine ⟨reserved,?_,?_⟩ <;> simp only [Mirror.credit,Payment.units] <;> omega

/-! ### What is reported at the end -/

/-- Where a connection says what it owes or what it parked, it reads its account. -/
structure Reported (plan : Plan A) (s : Session A B) : Prop where
  fresh : unopened s.phase = true → s.pacer.mirror = ⟨0,0⟩ ∧ s.pacer.prepaid = 0
  returned : ∀ residual, s.phase = .returned residual → residual = s.pacer.unpaid
  closed : ∀ observed, s.phase.observed = some observed →
    observed.surplusUnits = if plan.prepay then some (s.pacer.prepaid - s.pacer.mirror.balance) else none

/-- The account is open, and nobody reads it yet. -/
def midway : Phase A B → Bool
  | .dialing | .established | .returned _ | .closed _ _ _ => false
  | _ => true

omit [DecidableEq A] [DecidableEq B] in
theorem reported_midway {plan : Plan A} {s : Session A B} (between : midway s.phase = true) : Reported plan s := by
  refine ⟨fun h => ?_,fun residual h => ?_,fun observed h => ?_⟩
  · cases at_ : s.phase <;> rw [at_] at h between <;> first | exact absurd between Bool.false_ne_true | cases h
  · rw [h] at between
    cases between
  · cases at_ : s.phase <;> rw [at_] at h between <;> first | exact absurd between Bool.false_ne_true | cases h

theorem reported_step {plan : Plan A} {c c' : Common A B} {s s' : Session A B} {act : Act} (idle : Idle s)
    (reported : Reported plan s) (moves : Moves plan c s act c' s') : Reported plan s' := by
  obtain ⟨fresh,returned,closed⟩ := reported
  cases moves with
  | hungUp | announced t => exact ⟨fresh,returned,closed⟩
  | taskServed at_ | taskFailed at_ | taskStored at_ | taskSent at_ =>
    have opened := opened_of_busy idle at_
    have busy : s.tasks ≠ [] := by rintro none_; simp [none_] at at_
    refine ⟨fun h => by simp [opened] at h,fun residual h => ?_,fun observed h => ?_⟩
    · exact absurd (idle.late (by rw [show s.phase = _ from h]; rfl)).1 busy
    · refine absurd (idle.late ?_).1 busy
      cases phase : s.phase <;> simp [phase,Phase.observed] at h
      rfl
  | dialed at_ | undialed at_ => exact ⟨fun _ => fresh (by rw [at_]; rfl),by rintro residual ⟨⟩,by rintro observed ⟨⟩⟩
  | drained at_ joined => exact ⟨by rintro ⟨⟩,fun residual h => by cases h; rfl,by rintro observed ⟨⟩⟩
  | finish at_ done settled ready => exact ⟨by rintro ⟨⟩,fun residual h => by cases h; exact settled.symm,by rintro observed ⟨⟩⟩
  | @called purpose units call outcome at_ ended => cases purpose <;> exact reported_midway rfl
  | @uncalled purpose units call why at_ ended =>
    cases purpose with
    | lambdaSweep | initialPrepay | topUp => exact reported_midway rfl
    | settle =>
      simp only [chequeFailed]
      split
      · split
        · exact ⟨by rintro ⟨⟩,fun residual h => by cases h; rfl,by rintro observed ⟨⟩⟩
        · exact reported_midway rfl
      · exact reported_midway rfl
  | settled at_ =>
    rcases settle_cases plan c s with same | ⟨units,-,-,-,same⟩ | same <;> rw [same] <;> exact reported_midway rfl
  | recorded at_ => exact ⟨by rintro ⟨⟩,by rintro residual ⟨⟩,fun observed h => by cases h; rfl⟩
  | _ => exact reported_midway rfl

/-- The limit of the latency measurement is half the threshold it started with, and
    no cheque goes out before the measurement has reserved what it fetches. -/
theorem half_step {plan : Plan A} {c c' : Common A B} {s s' : Session A B} {act : Act}
    (moves : Moves plan c s act c' s') :
    half s'.phase = 0 ∨
      half s'.phase = half s.phase ∧ s'.pacer.unvalidated = s.pacer.unvalidated ∨
      half s'.phase = s.pacer.threshold / 2 ∧ s'.pacer.unvalidated = [] := by
  cases moves with
  | startMeasuring at_ unknown mode => exact .inr (.inr ⟨rfl,rfl⟩)
  | measurePop at_ there | measureSkip at_ there | measureReserve at_ absent reserved | measureServe at_ | measureStore at_ =>
    exact .inr (.inl ⟨by rw [at_]; rfl,rfl⟩)
  | @uncalled purpose units call why at_ ended =>
    cases purpose with
    | lambdaSweep | initialPrepay | topUp => exact .inl rfl
    | settle =>
      simp only [chequeFailed]
      split
      · split <;> exact .inl rfl
      · exact .inl rfl
  | @called purpose units call outcome at_ ended => cases purpose <;> exact .inl rfl
  | settled at_ =>
    rcases settle_cases plan c s with same | ⟨units,-,-,-,same⟩ | same <;> rw [same] <;> exact .inl rfl
  | hungUp | announced t | taskServed at_ | taskFailed at_ | taskStored at_ | taskSent at_ =>
    exact .inr (.inl ⟨rfl,rfl⟩)
  | _ => exact .inl rfl

/-- A cheque in advance is being sent. -/
def prepays : Phase A B → Bool
  | .emitting .initialPrepay _ _ | .emitting .topUp _ _ => true
  | _ => false

/-- A connection that pays as it goes prepays nothing. -/
theorem prepaid_step {plan : Plan A} {c c' : Common A B} {s s' : Session A B} {act : Act} (payg : plan.prepay = false)
    (prepaid : s.pacer.prepaid = 0) (emitting : prepays s.phase = false) (moves : Moves plan c s act c' s') :
    s'.pacer.prepaid = 0 ∧ prepays s'.phase = false := by
  cases moves with
  | hungUp | announced t | taskServed at_ | taskFailed at_ | taskStored at_ | taskSent at_ => exact ⟨prepaid,emitting⟩
  | startMeasuring at_ | unmeasured at_ => exact ⟨by simp [newPacer,payg],rfl⟩
  | prepayBegin at_ mode short => rw [payg] at mode; cases mode
  | driveBegin at_ enough => rw [noteLambda_eq]; exact ⟨prepaid,rfl⟩
  | @calling purpose units call call' act bank at_ taken =>
    rw [at_] at emitting
    cases purpose <;> exact ⟨prepaid,emitting⟩
  | @called purpose units call outcome at_ ended =>
    rw [at_] at emitting
    cases purpose with
    | lambdaSweep | settle => exact ⟨prepaid,rfl⟩
    | initialPrepay | topUp => cases emitting
  | @uncalled purpose units call why at_ ended =>
    rw [at_] at emitting
    cases purpose with
    | lambdaSweep => exact ⟨prepaid,rfl⟩
    | initialPrepay | topUp => cases emitting
    | settle =>
      simp only [chequeFailed]
      split
      · split <;> exact ⟨prepaid,rfl⟩
      · exact ⟨prepaid,rfl⟩
  | refuse at_ absent refused => rw [Pacer.admit_refused refused]; exact ⟨prepaid,rfl⟩
  | admitOne at_ absent admitted =>
    obtain ⟨mirror,-,rfl⟩ := Pacer.admit_admitted admitted
    exact ⟨prepaid,rfl⟩
  | settled at_ =>
    rcases settle_cases plan c s with same | ⟨units,mode,-,-,same⟩ | same
    · rw [same]; exact ⟨prepaid,rfl⟩
    · rw [payg] at mode; cases mode
    · rw [same]; exact ⟨prepaid,rfl⟩
  | _ => exact ⟨prepaid,rfl⟩

/-! ### Whole connections -/

/-- The surplus that a connection has the peer-state store keep. -/
def persisted (s : Session A B) : Option Nat := s.phase.observed.bind Observation.surplusUnits

/-- A connection with a tally of what it consumed and paid. -/
structure Audited (A B : Type) where
  common : Common A B
  session : Session A B
  consumed : Nat
  paid : Nat

/-- A step of the connection is tallied; the others change what is shared. -/
def audit (plan : Plan A) (st : Audited A B) (event : Seen (Common A B) Act) : Option (Audited A B) :=
  match event with
  | .own act => (seenStep (sessionStep plan) (st.common,st.session) (.own act)).map fun moved =>
      ⟨moved.1,moved.2,st.consumed + served st.session act,st.paid + (payment st.session act).units⟩
  | .others c => some { st with common := c }

/-- No fetch is admitted against a limit of `u64::MAX`. -/
def GateExact (plan : Plan A) (st : Audited A B) : Seen (Common A B) Act → Prop
  | .own act => admits plan st.common st.session act = true →
      (st.session.pacer.prune st.common.now).admitLimit < u64Max
  | .others _ => True

instance (plan : Plan A) (st : Audited A B) : (event : Seen (Common A B) Act) → Decidable (GateExact plan st event)
  | .own _ => inferInstanceAs (Decidable (_ → _))
  | .others _ => isTrue trivial

/-- What holds of an audited connection that started from a surplus. -/
structure Kept (plan : Plan A) (surplus : Nat) (st : Audited A B) : Prop where
  idle : Idle st.session
  reported : Reported plan st.session
  start : startSurplus plan st.session = surplus
  half_low : half st.session.phase < u64Max
  covered : Covered surplus st.consumed st.paid (account plan st.session)

omit [DecidableEq A] [DecidableEq B] in
theorem kept_spawn (plan : Plan A) (c : Common A B) (overlay : A) (bucket : Nat) (beneficiary : B)
    (known : Option Known) (warm : Option (Nat × Option U256)) :
    Kept plan (startSurplus plan (spawn overlay bucket beneficiary known warm))
      ⟨c,spawn overlay bucket beneficiary known warm,0,0⟩ := by
  have closed : unopened (spawn overlay bucket beneficiary known warm).phase = true := by cases warm <;> rfl
  refine ⟨idle_spawn ..,⟨fun _ => ⟨rfl,rfl⟩,?_,?_⟩,rfl,?_,?_⟩
  · cases warm <;> nofun
  · cases warm <;> nofun
  · cases warm <;> exact (by decide : 0 < u64Max)
  · have there : account plan (spawn overlay bucket beneficiary known warm) =
        ⟨⟨0,0⟩,startSurplus plan (spawn overlay bucket beneficiary known warm),[],0⟩ := by
      simp only [account,closed,↓reduceIte]
    rw [there]
    exact ⟨rfl,Nat.zero_le _,by simp⟩

/-- A step keeps it, if it admits nothing under a limit of `u64::MAX`. -/
theorem kept_step {plan : Plan A} {surplus : Nat} {st next : Audited A B} {event : Seen (Common A B) Act}
    (kept : Kept plan surplus st) (exact_ : GateExact plan st event) (taken : audit plan st event = some next) :
    Kept plan surplus next := by
  cases event with
  | others c =>
    cases taken
    exact ⟨kept.idle,kept.reported,kept.start,kept.half_low,kept.covered⟩
  | own act =>
    obtain ⟨⟨c',s'⟩,moved,rfl⟩ := Option.map_eq_some_iff.mp taken
    have moves := step_moves moved
    have entry := step_entry kept.idle moves
    refine ⟨idle_step kept.idle moves,reported_step kept.idle kept.reported moves,?_,?_,?_⟩
    · rw [← kept.start]
      simp only [startSurplus,(identity_step moves).2.2.2]
    · have low := kept.half_low
      have narrow := st.session.pacer.threshold_lt
      have top := u64Max_succ
      rcases half_step moves with zero | ⟨same,-⟩ | ⟨start,-⟩ <;> simp only at * <;> omega
    · refine covered_entry kept.covered (fun admitted => ?_) kept.half_low entry
      obtain ⟨addr,phase⟩ := admits_popped admitted
      rw [account_opened (by rw [phase]; rfl)]
      exact exact_ admitted

theorem kept_run {plan : Plan A} {c : Common A B} {overlay : A} {bucket : Nat} {beneficiary : B}
    {known : Option Known} {warm : Option (Nat × Option U256)} {events : List (Seen (Common A B) Act)}
    {final : Audited A B}
    (exact_ : Meets (audit plan) (GateExact plan) ⟨c,spawn overlay bucket beneficiary known warm,0,0⟩ events)
    (reached : run (audit plan) ⟨c,spawn overlay bucket beneficiary known warm,0,0⟩ events = some final) :
    Kept plan (startSurplus plan (spawn overlay bucket beneficiary known warm)) final :=
  run_guarded (fun _ _ _ => kept_step) (kept_spawn plan c overlay bucket beneficiary known warm) exact_ reached

omit [DecidableEq A] [DecidableEq B] in
/-- What was consumed beyond payments and surplus shows in the mirror. -/
theorem kept_owed {plan : Plan A} {surplus : Nat} {st : Audited A B} (kept : Kept plan surplus st) :
    st.consumed + st.session.pacer.prepaid ≤ st.session.pacer.mirror.balance + st.paid + surplus := by
  have owed := kept.covered.owed
  cases open_ : unopened st.session.phase with
  | true =>
    obtain ⟨mirror,prepaid⟩ := kept.reported.fresh open_
    simp only [account,open_,↓reduceIte,kept.start] at owed
    rw [mirror,prepaid]
    simp only
    omega
  | false =>
    rw [account_opened open_] at owed
    exact owed

omit [DecidableEq A] [DecidableEq B] in
/-- The reservations are the fetches in flight. -/
theorem kept_reserved {plan : Plan A} {surplus : Nat} {st : Audited A B} (kept : Kept plan surplus st) :
    st.session.pacer.mirror.reserved = inFlight st.session := by
  cases open_ : unopened st.session.phase with
  | true =>
    obtain ⟨mirror,-⟩ := kept.reported.fresh open_
    have none_ : st.session.tasks = [] := by
      cases phase : st.session.phase with
      | dialing | established => exact (kept.idle.early (by rw [phase]; rfl)).1
      | closed residual observed parked => exact (kept.idle.late (by rw [phase]; rfl)).1
      | _ => simp [phase,unopened] at open_
    rw [mirror,inFlight,none_]
    cases phase : st.session.phase <;> simp [measured,phase,unopened] at open_ ⊢
  | false =>
    have reserved := kept.covered.reserved
    rw [account_opened open_] at reserved
    exact reserved

/-- The accounting mirror never understates what is owed. In every state that a
    connection reaches, if no fetch was admitted against a limit of `u64::MAX`:
    consumption less payments and initial surplus is at most debt less prepaid
    units; the reservations are the fetches in flight; `drive` returned 0 only when
    payments and surplus cover the consumption; and the surplus reported to the
    peer-state store is at most what they leave, or zero if they leave nothing. -/
theorem never_understates (plan : Plan A) (c : Common A B) (overlay : A) (bucket : Nat) (beneficiary : B)
    (known : Option Known) (warm : Option (Nat × Option U256)) (events : List (Seen (Common A B) Act))
    (final : Audited A B)
    (exact_ : Meets (audit plan) (GateExact plan) ⟨c,spawn overlay bucket beneficiary known warm,0,0⟩ events)
    (reached : run (audit plan) ⟨c,spawn overlay bucket beneficiary known warm,0,0⟩ events = some final) :
    (final.consumed : Int) - final.paid - startSurplus plan final.session ≤
        final.session.pacer.mirror.balance - final.session.pacer.prepaid ∧
      final.session.pacer.mirror.reserved = inFlight final.session ∧
      (final.session.phase = .returned 0 → final.consumed ≤ final.paid + startSurplus plan final.session) ∧
      ∀ n, persisted final.session = some n →
        (n : Int) ≤ max 0 (final.paid + startSurplus plan final.session - final.consumed) := by
  have kept := kept_run exact_ reached
  have owed := kept_owed kept
  rw [kept.start]
  refine ⟨by omega,kept_reserved kept,fun returned => ?_,fun n kept_ => ?_⟩
  · have settled : 0 = final.session.pacer.unpaid := kept.reported.returned 0 returned
    unfold Pacer.unpaid at settled
    omega
  · obtain ⟨observed,closed,surplus⟩ := Option.bind_eq_some_iff.mp kept_
    have held := kept.reported.closed observed closed
    rw [surplus] at held
    by_cases mode : plan.prepay = true
    · rw [if_pos mode] at held
      have := Option.some.inj held
      omega
    · rw [if_neg mode] at held
      cases held

/-! ### A peer that hangs up unpaid -/

/-- A prepaying run with a cap of 10¹⁰ PLUR, towards a peer that asks 230000 units a chunk. -/
def prepaying : Plan Nat where
  lim := ⟨0,10 ^ 10,tenBillion_fits⟩
  pipeline := 1
  measureLambda := false
  prepay := true
  parkInto := false
  peerPrice := fun _ _ => 230000
  peerPrice_lt := price_fits

/-- Bucket 5 holds the address 7. -/
def oneChunk (now : Nat) (pool : Buckets Nat) : Common Nat Nat := ⟨now,pool,∅,[],false,0,⟨0,∅,[]⟩⟩

/-- The initial prepay fails, a chunk is served, and the peer hangs up. -/
def hungUpUnpaid : List (Seen (Common Nat Nat) Act) :=
  List.map Seen.own [.answer true,.go,.go,.cheque (.io false),.go,.go,.go,.go,.go,.task 0 true,.task 0 true,.go,.go,
    .accepted none,.go,.go,.hangUp] ++
  .others (oneChunk (50 * ms) ∅) :: List.map Seen.own [.go,.go,.go,.go,.go]

theorem floored_surplus : ∃ final, run (audit prepaying)
      ⟨oneChunk 0 (AList.singleton (5 : Nat) [7]),spawn 1 5 2 none none,0,0⟩ hungUpUnpaid = some final ∧
    persisted final.session = some 0 ∧
    (final.paid : Int) + startSurplus prepaying final.session - final.consumed = -230000 := by
  have ends : (run (audit prepaying) ⟨oneChunk 0 (AList.singleton (5 : Nat) [7]),spawn 1 5 2 none none,0,0⟩
      hungUpUnpaid).map (fun final => (persisted final.session,final.paid,startSurplus prepaying final.session,
        final.consumed)) = some (some 0,0,0,230000) := by decide +kernel
  obtain ⟨final,reached,same⟩ := Option.map_eq_some_iff.mp ends
  obtain ⟨kept,paid,start,consumed⟩ : persisted final.session = some 0 ∧ final.paid = 0 ∧
      startSurplus prepaying final.session = 0 ∧ final.consumed = 230000 := by simpa using same
  exact ⟨final,reached,kept,by rw [paid,start,consumed]; rfl⟩

theorem never_understates_hungUp : ∃ final, run (audit prepaying)
      ⟨oneChunk 0 (AList.singleton (5 : Nat) [7]),spawn 1 5 2 none none,0,0⟩ hungUpUnpaid = some final ∧
    (final.consumed : Int) - final.paid - startSurplus prepaying final.session ≤
      final.session.pacer.mirror.balance - final.session.pacer.prepaid := by
  obtain ⟨final,reached⟩ := Option.isSome_iff_exists.mp
    (show (run (audit prepaying) ⟨oneChunk 0 (AList.singleton (5 : Nat) [7]),spawn 1 5 2 none none,0,0⟩
      hungUpUnpaid).isSome = true by decide +kernel)
  exact ⟨final,reached,(never_understates prepaying (oneChunk 0 (AList.singleton (5 : Nat) [7])) 1 5 2 none none
    hungUpUnpaid final (by decide +kernel) reached).1⟩

end Directswarm.Accounts
