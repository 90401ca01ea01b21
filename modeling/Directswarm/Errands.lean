import Directswarm.Moves

/-!
What a step of a connection does with the addresses it has taken from the pool.
`carried` counts them by where they stand, `errand` names what a step is about to
do with one, and `step_errand` says that it does just that: an address is taken,
moved on, or handed over, and no other is touched.
-/
namespace Directswarm.Errands
open Directswarm.Words Directswarm.Interleaving Directswarm.Cheques Directswarm.Pacing Directswarm.WorkPool
  Directswarm.Connection

/-- Where an address stands that a connection has taken. -/
inductive Status
  | held
  | flying
  | served
  | failed
  deriving DecidableEq

variable {A B : Type}

def inHand : Phase A B → List (A × Status)
  | .measurePopped _ addr | .popped addr => [(addr,.held)]
  | .measureRetrieving _ addr _ => [(addr,.flying)]
  | .measureServed _ addr => [(addr,.served)]
  | .measureFailed addr => [(addr,.failed)]
  | _ => []

def ofStage (addr : A) : Stage → List (A × Status)
  | .retrieving => [(addr,.flying)]
  | .served => [(addr,.served)]
  | .failed => [(addr,.failed)]
  | .done => []

def kept : Option A → List (A × Status)
  | some addr => [(addr,.held)]
  | none => []

/-- What a step is about to do with an address. -/
inductive Errand (A : Type)
  | rest
  /-- An address may be popped. -/
  | take
  | found (addr : A)
  | lost (addr : A)
  | start (addr : A)
  | serve (addr : A)
  | fail (addr : A)
  | store (addr : A) (ok : Bool)
  /-- An address may be sent to the fallback. -/
  | leave

variable [DecidableEq A]

/-- How often a connection carries an address, by status. -/
def carried (s : Session A B) (x : A × Status) : Nat :=
  (inHand s.phase).count x + (kept s.pending).count x + total (fun task => (ofStage task.addr task.stage).count x) s.tasks

def errand (plan : Plan A) (c : Common A B) (s : Session A B) : Act → Errand A
  | .task k ok =>
    match s.tasks[k]? with
    | some ⟨addr,_,.retrieving⟩ => if ok then .serve addr else .fail addr
    | some ⟨addr,_,.served⟩ => .store addr ok
    | some ⟨_,_,.failed⟩ => .leave
    | _ => .rest
  | .answer ok =>
    match s.phase with
    | .measureRetrieving _ addr _ => if ok then .serve addr else .fail addr
    | .measureServed _ addr => .store addr ok
    | _ => .rest
  | .go =>
    match s.phase with
    | .measuring _ | .admitting => .take
    | .measurePopped m addr =>
      if addr ∈ c.stored then .found addr
      else if (s.pacer.mirror.tryReserve (plan.peerPrice s.overlay addr) m.half).isNone then .lost addr else .start addr
    | .popped addr =>
      if addr ∈ c.stored then .found addr
      else if ({ s.pacer with avgPrice := max (plan.peerPrice s.overlay addr) 1 }.admitOne c.now
        (plan.peerPrice s.overlay addr)).2 then .start addr else .rest
    | .measureFailed _ | .draining | .projecting _ => .leave
    | _ => .rest
  | _ => .rest

/-- Some items are replaced by others. -/
def Shifts (before after : A × Status → Nat) (old new : List (A × Status)) : Prop :=
  ∀ x, after x + old.count x = before x + new.count x

/-- What an errand does to the shared state and to what is carried. -/
inductive Carries (c : Common A B) (bucket : Nat) (before after : A × Status → Nat) : Errand A → Common A B → Prop
  | rest (bank : Bank B) (shifts : Shifts before after [] []) : Carries c bucket before after .rest { c with bank := bank }
  | idle (shifts : Shifts before after [] []) : Carries c bucket before after .take c
  | popped {addr : A} {pool : Buckets A} (popped : pop c.pool bucket = some (addr,pool))
      (shifts : Shifts before after [] [(addr,.held)]) : Carries c bucket before after .take { c with pool := pool }
  | found {addr : A} (there : addr ∈ c.stored) (shifts : Shifts before after [(addr,.held)] []) :
      Carries c bucket before after (.found addr) c
  | lost {addr : A} (shifts : Shifts before after [(addr,.held)] []) : Carries c bucket before after (.lost addr) c
  | start {addr : A} (absent : addr ∉ c.stored) (shifts : Shifts before after [(addr,.held)] [(addr,.flying)]) :
      Carries c bucket before after (.start addr) c
  | serve {addr : A} (shifts : Shifts before after [(addr,.flying)] [(addr,.served)]) :
      Carries c bucket before after (.serve addr) c
  | fail {addr : A} (shifts : Shifts before after [(addr,.flying)] [(addr,.failed)]) :
      Carries c bucket before after (.fail addr) c
  | store {addr : A} {ok : Bool} (shifts : Shifts before after [(addr,.served)] []) :
      Carries c bucket before after (.store addr ok) (put c addr ok)
  | kept (shifts : Shifts before after [] []) : Carries c bucket before after .leave c
  | sent {addr : A} (status : Status) (held : status = .held ∨ status = .failed)
      (shifts : Shifts before after [(addr,status)] []) : Carries c bucket before after .leave (send c [addr])

/-! ### What is carried -/

theorem shifts_same {before after : A × Status → Nat} (same : ∀ x, after x = before x) : Shifts before after [] [] :=
  fun x => by simp [same x]

omit [DecidableEq A] in
theorem send_none (c : Common A B) : send c [] = c := by simp [send]

/-- A fetch moves from one stage to the next. -/
theorem shifts_task {s s' : Session A B} {k : Nat} {addr : A} {price : Nat} {stage : Stage} (stage' : Stage)
    (at_ : s.tasks[k]? = some ⟨addr,price,stage⟩) (phase : s'.phase = s.phase) (pending : s'.pending = s.pending)
    (tasks : s'.tasks = s.tasks.set k ⟨addr,price,stage'⟩) :
    Shifts (carried s) (carried s') (ofStage addr stage) (ofStage addr stage') := by
  intro x
  have moved := total_set (fun task : FetchTask A => (ofStage task.addr task.stage).count x) ⟨addr,price,stage'⟩ at_
  simp only [carried,phase,pending,tasks] at moved ⊢
  omega

/-- The phase moves on, and nothing else changes that matters here. -/
theorem shifts_phase {s s' : Session A B} {phase phase' : Phase A B} (at_ : s.phase = phase) (at' : s'.phase = phase')
    (pending : s'.pending = s.pending) (tasks : s'.tasks = s.tasks) :
    Shifts (carried s) (carried s') (inHand phase) (inHand phase') := by
  intro x
  simp only [carried,at_,at',pending,tasks]
  omega

theorem carried_reap (tasks : List (FetchTask A)) (x : A × Status) :
    total (fun task : FetchTask A => (ofStage task.addr task.stage).count x) (reap tasks) =
      total (fun task => (ofStage task.addr task.stage).count x) tasks := by
  induction tasks with
  | nil => rfl
  | cons task rest ih =>
    obtain ⟨addr,price,stage⟩ := task
    unfold reap at ih ⊢
    by_cases finished : stage = .done
    · subst finished
      rw [List.filter_cons_of_neg (by simp),ih]
      simp [ofStage]
    · rw [List.filter_cons_of_pos (by simpa using finished),total_cons,total_cons,ih]

theorem carried_done {tasks : List (FetchTask A)} (joined : ∀ task ∈ tasks, task.stage = .done) (x : A × Status) :
    total (fun task : FetchTask A => (ofStage task.addr task.stage).count x) tasks = 0 := by
  have none_ := carried_reap tasks x
  have empty : reap tasks = [] := by
    refine List.filter_eq_nil_iff.mpr fun task member => ?_
    simp [joined task member]
  rw [← none_,empty]
  rfl

/-- A connection that has ended carries nothing. -/
theorem carried_late {s : Session A B} (idle : Idle s) (late : s.phase.late = true) (x : A × Status) : carried s x = 0 := by
  obtain ⟨tasks,pending⟩ := idle.late late
  have hand : inHand s.phase = [] := by
    cases at_ : s.phase <;> first | rfl | (rw [at_] at late; cases late)
  simp [carried,hand,tasks,pending,kept]

theorem carried_spawn (overlay : A) (bucket : Nat) (beneficiary : B) (known : Option Known)
    (warm : Option (Nat × Option U256)) (x : A × Status) : carried (spawn overlay bucket beneficiary known warm) x = 0 := by
  cases warm <;> rfl

/-- The hands stay as they are. -/
theorem shifts_quiet {s s' : Session A B} (hand : inHand s'.phase = inHand s.phase) (pending : s'.pending = s.pending)
    (tasks : s'.tasks = s.tasks) : Shifts (carried s) (carried s') [] [] :=
  shifts_same fun x => by simp only [carried,hand,pending,tasks]

theorem shifts_reap {s s' : Session A B} (hand : inHand s'.phase = inHand s.phase) (pending : s'.pending = s.pending)
    (tasks : s'.tasks = reap s.tasks) : Shifts (carried s) (carried s') [] [] :=
  shifts_same fun x => by simp only [carried,hand,pending,tasks,carried_reap]

section Step
variable [DecidableEq B] {plan : Plan A} {c c' : Common A B} {s s' : Session A B} {act : Act}

/-- Every step runs its errand. -/
theorem step_errand (idle : Idle s) (moves : Moves plan c s act c' s') :
    Carries c s.bucket (carried s) (carried s') (errand plan c s act) c' := by
  cases moves with
  | hungUp | announced t => exact .rest c.bank (shifts_quiet rfl rfl rfl)
  | taskServed at_ =>
    simp only [errand,at_,if_true]
    exact .serve (shifts_task .served at_ rfl rfl rfl)
  | taskFailed at_ =>
    simp only [errand,at_,Bool.false_eq_true,if_false]
    exact .fail (shifts_task .failed at_ rfl rfl rfl)
  | taskStored at_ =>
    simp only [errand,at_]
    exact .store (shifts_task .done at_ rfl rfl rfl)
  | taskSent at_ =>
    simp only [errand,at_]
    exact .sent .failed (.inr rfl) (shifts_task .done at_ rfl rfl rfl)
  | measurePop at_ popped =>
    simp only [errand,at_]
    exact .popped popped (shifts_phase at_ rfl rfl rfl)
  | measureEnd at_ =>
    simp only [errand,at_]
    exact .idle (shifts_phase at_ rfl rfl rfl)
  | measureSkip at_ there =>
    simp only [errand,at_,there,if_true]
    exact .found there (shifts_phase at_ rfl rfl rfl)
  | measureLost at_ absent refused =>
    simp only [errand,at_,absent,refused,if_false,Option.isNone_none,if_true]
    exact .lost (shifts_phase at_ rfl rfl rfl)
  | measureReserve at_ absent reserved =>
    simp only [errand,at_,absent,reserved,if_false,Option.isNone_some,Bool.false_eq_true]
    exact .start absent (shifts_phase at_ rfl rfl rfl)
  | measureServe at_ =>
    simp only [errand,at_,if_true]
    exact .serve (shifts_phase at_ rfl rfl rfl)
  | measureFail at_ =>
    simp only [errand,at_,Bool.false_eq_true,if_false]
    exact .fail (shifts_phase at_ rfl rfl rfl)
  | measureStore at_ =>
    simp only [errand,at_]
    exact .store (shifts_phase at_ rfl rfl rfl)
  | measureSend at_ =>
    simp only [errand,at_]
    exact .sent .failed (.inr rfl) (shifts_phase at_ rfl rfl rfl)
  | calling at_ taken => exact .rest _ (shifts_quiet (by rw [at_]; rfl) rfl rfl)
  | @called purpose units call outcome at_ ended =>
    simp only [errand,at_]
    refine .rest c.bank ?_
    cases purpose <;> exact shifts_phase at_ rfl rfl rfl
  | @uncalled purpose units call why at_ ended =>
    simp only [errand,at_]
    refine .rest c.bank ?_
    cases purpose with
    | lambdaSweep | initialPrepay | topUp => exact shifts_phase at_ rfl rfl rfl
    | settle =>
      simp only [chequeFailed]
      split
      · split <;> exact shifts_phase at_ rfl rfl rfl
      · exact shifts_phase at_ rfl rfl rfl
  | prepayBegin at_ mode short | driveBegin at_ enough =>
    simp only [errand,at_,noteLambda_eq]
    exact .rest c.bank (shifts_phase at_ rfl rfl rfl)
  | drained at_ joined =>
    simp only [errand,at_]
    cases held : s.pending with
    | none =>
      rw [Option.toList_none,send_none]
      refine .kept (shifts_same fun x => ?_)
      simp only [carried,at_,held,carried_done joined x]
      rfl
    | some addr =>
      refine .sent .held (.inl rfl) fun x => ?_
      simp only [carried,at_,held,carried_done joined x,inHand,kept,total_nil,List.count_nil]
      omega
  | halt at_ stopped halted =>
    simp only [errand,at_]
    cases held : s.pending with
    | none =>
      rw [Option.toList_none,send_none]
      refine .kept (shifts_same fun x => ?_)
      simp only [carried,at_,held]
      rfl
    | some addr =>
      refine .sent .held (.inl rfl) fun x => ?_
      simp only [carried,at_,held,inHand,kept,List.count_nil]
      omega
  | project at_ room onward =>
    simp only [errand,at_]
    exact .kept (shifts_phase at_ rfl rfl rfl)
  | resume at_ onward room held =>
    simp only [errand,at_]
    refine .idle (shifts_same fun x => ?_)
    simp only [carried,at_,held,inHand,kept,List.count_nil]
    omega
  | take at_ onward room free popped =>
    simp only [errand,at_]
    exact .popped popped (shifts_phase at_ rfl rfl rfl)
  | empty at_ onward free none_ | full at_ stop =>
    simp only [errand,at_]
    exact .idle (shifts_phase at_ rfl rfl rfl)
  | skip at_ there =>
    simp only [errand,at_,there,if_true]
    exact .found there (shifts_phase at_ rfl rfl rfl)
  | refuse at_ absent refused =>
    simp only [errand,at_,absent,refused,if_false,Bool.false_eq_true]
    refine .rest c.bank (shifts_same fun x => ?_)
    simp only [carried,at_,(idle.popped _ at_).2,inHand,kept,List.count_nil]
    omega
  | admitOne at_ absent admitted =>
    simp only [errand,at_,absent,admitted,if_false,if_true]
    refine .start absent fun x => ?_
    simp only [carried,at_,inHand,total_append,total_cons,total_nil,ofStage,List.count_nil]
    omega
  | refreshBegin at_ owes | refreshSkip at_ lastRefresh =>
    simp only [errand,at_]
    exact .rest c.bank (shifts_reap (by rw [at_]; rfl) rfl rfl)
  | settled at_ =>
    simp only [errand,at_]
    refine .rest c.bank ?_
    rcases settle_cases plan c s with same | ⟨units,-,-,-,same⟩ | same <;> rw [same] <;>
      exact shifts_phase at_ rfl rfl rfl
  | dialed at_ | undialed at_ | startMeasuring at_ unknown mode | unmeasured at_ | measureLittle at_ | measureWait at_
  | sweepBegin at_ woken | probeBegin at_ woken | probeAgain at_ wake settled | probeEnd at_ lambda settled
  | dead at_ dead | turn at_ live sampled stopped | refreshed at_ | retry at_ woken | finish at_ idle settled ready
  | sleep at_ ready kept | wake at_ woken | confirmBegin at_ live | unconfirmed at_ why | confirmWake at_ woken
  | confirmed at_ | recorded at_ =>
    simp only [errand,at_]
    exact .rest c.bank (shifts_phase at_ rfl rfl rfl)

end Step

end Directswarm.Errands
