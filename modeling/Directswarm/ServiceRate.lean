import Directswarm.Accounts

/-!
What the service rate of a connection is computed from. `run_established` reads the
debt of the mirror when `drive` has returned, and calls it what the peer served. It
is at most that, and less as soon as a settlement was credited: the reading is what
was served exactly on the runs where no payment ever lowered the debt
(`sample_exact`).
-/
namespace Directswarm.ServiceRate
open Directswarm.Words Directswarm.Runs Directswarm.Interleaving Directswarm.Cheques Directswarm.Pacing
  Directswarm.Connection Directswarm.WorkPool Directswarm.Accounts

variable {A B : Type}

/-- What a step credits to the mirror: a cheque for debt, or a refresh. -/
def credited (s : Session A B) (act : Act) : Nat :=
  match act, s.phase with
  | .go, .emitting .lambdaSweep units ⟨_,_,.ended (.ok _)⟩ => units
  | .go, .emitting .settle units ⟨_,_,.ended (.ok _)⟩ => units
  | .accepted units, .refreshing => (units.map Fin.val).getD 0
  | _, _ => 0

/-- `consumed_units`, once `run_established` has read it. -/
def sample : Phase A B → Option Nat
  | .confirmPause _ consumed | .confirming consumed | .recording _ consumed _ => some consumed
  | .closed _ observed _ => observed.map Observation.consumedUnits
  | _ => none

/-- No settlement is credited against a debt, and what is served fits into the debt. -/
def Untouched (st : Audited A B) : Seen (Common A B) Act → Prop
  | .own act =>
    (credited st.session act = 0 ∨ st.session.pacer.mirror.balance = 0) ∧
      st.session.pacer.mirror.balance + served st.session act ≤ u64Max
  | .others _ => True

instance (st : Audited A B) : (event : Seen (Common A B) Act) → Decidable (Untouched st event)
  | .own _ => inferInstanceAs (Decidable (_ ∧ _))
  | .others _ => inferInstanceAs (Decidable True)

/-! ### One step -/

/-- The debt after a step: a step serves or credits, and never does both. -/
structure Posts (s : Session A B) (act : Act) (s' : Session A B) : Prop where
  balance : s'.pacer.mirror.balance = satAdd s.pacer.mirror.balance (served s act) - credited s act
  apart : served s act = 0 ∨ credited s act = 0

theorem posts_nothing {s s' : Session A B} {act : Act} (bounded : s.pacer.mirror.balance ≤ u64Max)
    (same : s'.pacer.mirror.balance = s.pacer.mirror.balance) (unserved : served s act = 0)
    (uncredited : credited s act = 0) : Posts s act s' := by
  refine ⟨?_,.inl unserved⟩
  rw [unserved,uncredited,same,satAdd_exact (by omega)]
  rfl

theorem posts_served {s s' : Session A B} {act : Act} {price : Nat} (serves : served s act = price)
    (uncredited : credited s act = 0) (raised : s'.pacer.mirror.balance = satAdd s.pacer.mirror.balance price) :
    Posts s act s' := by
  refine ⟨?_,.inr uncredited⟩
  rw [serves,uncredited,raised]
  rfl

theorem posts_credited {s s' : Session A B} {act : Act} {units : Nat} (bounded : s.pacer.mirror.balance ≤ u64Max)
    (unserved : served s act = 0) (credits : credited s act = units)
    (lowered : s'.pacer.mirror.balance = s.pacer.mirror.balance - units) : Posts s act s' := by
  refine ⟨?_,.inl unserved⟩
  rw [unserved,credits,lowered,satAdd_exact (by omega)]
  rfl

variable [DecidableEq A] [DecidableEq B]

theorem posts_step {plan : Plan A} {c c' : Common A B} {s s' : Session A B} {act : Act}
    (bounded : s.pacer.mirror.balance ≤ u64Max) (reported : Reported plan s) (moves : Moves plan c s act c' s') :
    Posts s act s' := by
  obtain ⟨overlay,bucket,beneficiary,known,warm,alive,pacer,lambda,tasks,pending,stop,drained,finishing,halted,
    attempts,phase⟩ := s
  cases moves with
  | hungUp | announced t => exact posts_nothing bounded rfl rfl rfl
  | @taskServed k addr price at_ => exact posts_served (by simp only [served,at_]) rfl rfl
  | taskFailed at_ => exact posts_nothing bounded rfl rfl rfl
  | @taskStored k addr price ok at_ | @taskSent k addr price ok at_ =>
    refine posts_nothing bounded rfl ?_ rfl
    cases ok
    · rfl
    · simp only [served,at_]
  | startMeasuring at_ unknown mode | unmeasured at_ =>
    cases at_
    have none_ : pacer.mirror = ⟨0,0⟩ := (reported.fresh rfl).1
    refine posts_nothing bounded ?_ rfl rfl
    simp only [none_,newPacer]
  | measureReserve at_ absent reserved =>
    cases at_
    obtain ⟨-,rfl⟩ := Mirror.tryReserve_some.mp reserved
    exact posts_nothing bounded rfl rfl rfl
  | measureServe at_ => cases at_; exact posts_served rfl rfl rfl
  | prepayBegin at_ mode short | driveBegin at_ enough =>
    cases at_
    rw [noteLambda_eq]
    exact posts_nothing bounded rfl rfl rfl
  | @called purpose units call outcome at_ ended =>
    obtain ⟨b,debt,phase⟩ := call
    cases at_; cases ended
    cases purpose with
    | lambdaSweep | settle => exact posts_credited bounded rfl rfl rfl
    | initialPrepay | topUp => exact posts_nothing bounded rfl rfl rfl
  | @uncalled purpose units call why at_ ended =>
    obtain ⟨b,debt,phase⟩ := call
    cases at_; cases ended
    cases purpose with
    | lambdaSweep | initialPrepay | topUp => exact posts_nothing bounded rfl rfl rfl
    | settle =>
      refine posts_nothing bounded ?_ rfl rfl
      simp only [chequeFailed]
      split
      · split <;> rfl
      · rfl
  | @calling purpose units call call' act bank at_ taken =>
    cases at_
    exact posts_nothing bounded rfl rfl rfl
  | refuse at_ absent refused =>
    cases at_
    cases Pacer.admit_refused refused
    exact posts_nothing bounded rfl rfl rfl
  | admitOne at_ absent admitted =>
    cases at_
    obtain ⟨mirror,reserved,rfl⟩ := Pacer.admit_admitted admitted
    obtain ⟨-,rfl⟩ := Mirror.tryReserve_some.mp reserved
    exact posts_nothing bounded rfl rfl rfl
  | refreshed at_ => cases at_; exact posts_credited bounded rfl rfl rfl
  | @measureStore m addr ok at_ => cases at_; cases ok <;> exact posts_nothing bounded rfl rfl rfl
  | settled at_ =>
    cases at_
    rcases settle_cases plan c ⟨overlay,bucket,beneficiary,known,warm,alive,pacer,lambda,tasks,pending,stop,drained,
      finishing,halted,attempts,.settling⟩ with same | ⟨units,-,-,-,same⟩ | same <;> rw [same] <;>
      exact posts_nothing bounded rfl rfl rfl
  | measureFail at_ | probeAgain at_ wake settled | probeEnd at_ lambda settled | confirmed at_ | undialed at_ | dialed at_
  | measurePop at_ there | measureEnd at_ | measureSkip at_ there | measureLost at_ absent refused | measureSend at_
  | measureLittle at_ | measureWait at_ | sweepBegin at_ woken | probeBegin at_ woken | dead at_ gone
  | turn at_ live sampled stopped | drained at_ joined | halt at_ stopped halted | project at_ room onward
  | resume at_ onward room held | take at_ onward room free there | empty at_ onward free none_ | full at_ stop
  | skip at_ there | refreshBegin at_ owes | refreshSkip at_ lastRefresh | retry at_ woken
  | finish at_ done settled ready | sleep at_ ready kept | wake at_ woken | confirmBegin at_ live | unconfirmed at_ why
  | confirmWake at_ woken | recorded at_ => cases at_; exact posts_nothing bounded rfl rfl rfl

/-- The reading is the debt, from the moment on that it is taken. -/
def Read (s : Session A B) : Prop := ∀ units ∈ sample s.phase, units = s.pacer.mirror.balance

omit [DecidableEq A] [DecidableEq B] in
theorem read_unsampled {s : Session A B} (unsampled : sample s.phase = none) : Read s := by
  intro units reading
  rw [unsampled] at reading
  cases reading

theorem read_step {plan : Plan A} {c c' : Common A B} {s s' : Session A B} {act : Act} (idle : Idle s) (read : Read s)
    (moves : Moves plan c s act c' s') : Read s' := by
  cases moves with
  | hungUp | announced t => exact read
  | taskServed at_ | taskFailed at_ | taskStored at_ | taskSent at_ =>
    intro units reading
    have ended : s.phase.late = true := by
      cases phase : s.phase <;> simp [phase,sample] at reading <;> rfl
    simp [(idle.late ended).1] at at_
  | confirmBegin at_ live | unconfirmed at_ why => intro units reading; cases reading; rfl
  | confirmWake at_ woken | confirmed at_ | recorded at_ =>
    intro units reading
    exact read units (by rw [at_]; exact reading)
  | @called purpose units call outcome at_ ended => cases purpose <;> exact read_unsampled rfl
  | @uncalled purpose units call why at_ ended =>
    cases purpose with
    | lambdaSweep | initialPrepay | topUp => exact read_unsampled rfl
    | settle =>
      simp only [chequeFailed]
      split
      · split <;> exact read_unsampled rfl
      · exact read_unsampled rfl
  | settled at_ =>
    rcases settle_cases plan c s with same | ⟨units,-,-,-,same⟩ | same <;> rw [same] <;> exact read_unsampled rfl
  | prepayBegin at_ mode short | driveBegin at_ enough => rw [noteLambda_eq]; exact read_unsampled rfl
  | _ => exact read_unsampled rfl

/-! ### Whole connections -/

/-- What holds of an audited connection, whatever was credited to it. -/
structure Metered (plan : Plan A) (st : Audited A B) : Prop where
  idle : Idle st.session
  reported : Reported plan st.session
  bounded : st.session.pacer.mirror.balance ≤ u64Max
  atMost : st.session.pacer.mirror.balance ≤ st.consumed
  read : Read st.session

omit [DecidableEq A] [DecidableEq B] in
theorem metered_spawn (plan : Plan A) (c : Common A B) (overlay : A) (bucket : Nat) (beneficiary : B)
    (known : Option Known) (warm : Option (Nat × Option U256)) :
    Metered plan ⟨c,spawn overlay bucket beneficiary known warm,0,0⟩ := by
  have kept := kept_spawn plan c overlay bucket beneficiary known warm
  refine ⟨kept.idle,kept.reported,Nat.zero_le _,Nat.le_refl _,?_⟩
  cases warm <;> exact nofun

theorem metered_step {plan : Plan A} {st next : Audited A B} {event : Seen (Common A B) Act} (metered : Metered plan st)
    (taken : audit plan st event = some next) : Metered plan next := by
  obtain ⟨idle,reported,bounded,atMost,read⟩ := metered
  cases event with
  | others c => cases taken; exact ⟨idle,reported,bounded,atMost,read⟩
  | own act =>
    obtain ⟨⟨c',s'⟩,moved,rfl⟩ := Option.map_eq_some_iff.mp taken
    have moves := step_moves moved
    have posts := (posts_step bounded reported moves).balance
    have sum := satAdd_le st.session.pacer.mirror.balance (served st.session act)
    have max_ := satAdd_le_max st.session.pacer.mirror.balance (served st.session act)
    refine ⟨idle_step idle moves,reported_step idle reported moves,?_,?_,read_step idle read moves⟩
    · simp only [posts]
      omega
    · simp only [posts]
      omega

/-- A step keeps the debt at what was served exactly where it credits no debt. -/
theorem whole_step {plan : Plan A} {st next : Audited A B} {event : Seen (Common A B) Act} (metered : Metered plan st)
    (taken : audit plan st event = some next) : next.session.pacer.mirror.balance = next.consumed ↔
      st.session.pacer.mirror.balance = st.consumed ∧ Untouched st event := by
  obtain ⟨idle,reported,bounded,atMost,read⟩ := metered
  cases event with
  | others c => cases taken; simp [Untouched]
  | own act =>
    obtain ⟨⟨c',s'⟩,moved,rfl⟩ := Option.map_eq_some_iff.mp taken
    obtain ⟨posts,apart⟩ := posts_step bounded reported (step_moves moved)
    simp only [Untouched,posts,satAdd]
    omega

/-- `consumed_units` is at most the sum of the prices of the chunks that the
    connection retrieved, and it is that sum exactly when no settlement was credited
    while the mirror showed a debt and the debt never left 64 bits. -/
theorem sample_exact (plan : Plan A) (c : Common A B) (overlay : A) (bucket : Nat) (beneficiary : B)
    (known : Option Known) (warm : Option (Nat × Option U256)) (events : List (Seen (Common A B) Act))
    (final : Audited A B) (consumed : Nat)
    (reached : run (audit plan) ⟨c,spawn overlay bucket beneficiary known warm,0,0⟩ events = some final)
    (sampled : sample final.session.phase = some consumed) :
    consumed ≤ final.consumed ∧
      (consumed = final.consumed ↔
        Meets (audit plan) Untouched ⟨c,spawn overlay bucket beneficiary known warm,0,0⟩ events) := by
  have start := metered_spawn plan c overlay bucket beneficiary known warm
  have metered := run_invariant (fun _ _ _ => metered_step) start reached
  have exactly := run_iff_meets (fun _ _ _ => metered_step) (fun _ _ _ => whole_step) start reached
  rw [metered.read consumed sampled]
  exact ⟨metered.atMost,exactly.trans (and_iff_right rfl)⟩

/-- The peer that hung up unpaid was never paid, and its chunk is in the sample. -/
theorem sample_exact_hungUp : ∃ final, run (audit prepaying)
      ⟨oneChunk 0 (AList.singleton (5 : Nat) [7]),spawn 1 5 2 none none,0,0⟩ hungUpUnpaid = some final ∧
    sample final.session.phase = some final.consumed := by
  have ends : (run (audit prepaying) ⟨oneChunk 0 (AList.singleton (5 : Nat) [7]),spawn 1 5 2 none none,0,0⟩
      hungUpUnpaid).map (fun final => sample final.session.phase) = some (some 230000) := by decide +kernel
  obtain ⟨final,reached,sampled⟩ := Option.map_eq_some_iff.mp ends
  have exactly := (sample_exact prepaying (oneChunk 0 (AList.singleton (5 : Nat) [7])) 1 5 2 none none hungUpUnpaid
    final 230000 reached sampled).2.mpr (by decide +kernel)
  exact ⟨final,reached,by rw [sampled,exactly]⟩

/-! ### A chunk that was paid -/

/-- A run that pays as it goes, towards a peer that asks 270000 units a chunk. -/
def payingAtOnce : Plan Nat := { prepaying with
  lim := ⟨1000000000000,10 ^ 12,trillion_fits⟩
  prepay := false
  peerPrice := fun _ _ => 270000
  peerPrice_lt := fun _ _ => by decide }

/-- One chunk is fetched, which is a fifth of the threshold, and a cheque pays it. -/
def paidByCheque : List (Seen (Common Nat Nat) Act) :=
  ([.answer true,.go,.go,.go,.go,.go,.go,.go,.task 0 true,.task 0 true,.go,.accepted none,.go,.cheque (.io true),
    .cheque (.headers (some (100000,0))),.cheque .go,.cheque .go,.cheque .go,.cheque (.io true),.cheque (.io true),
    .cheque (.io true),.cheque .go,.cheque .go,.go,.go] : List Act).map .own ++
  .others (oneChunk (50 * ms) ∅) :: ([.go,.go,.go,.go,.go,.go,.go,.go] : List Act).map .own

/-- The initial prepay fails, one chunk is fetched, and a refresh is accepted for it. -/
def paidByRefresh : List (Seen (Common Nat Nat) Act) :=
  ([.answer true,.go,.go,.cheque (.io false),.go,.go,.go,.go,.go,.task 0 true,.task 0 true,.go,.go,
    .accepted (some 230000),.go,.go] : List Act).map .own ++
  .others (oneChunk (50 * ms) ∅) :: ([.go,.go,.go,.go,.go,.go,.go,.go] : List Act).map .own

/-- In either mode the sample is zero, and a chunk was served. -/
theorem paid_unseen :
    (∃ final, run (audit payingAtOnce) ⟨oneChunk 0 (AList.singleton (5 : Nat) [7]),spawn 1 5 2 none none,0,0⟩
        paidByCheque = some final ∧ sample final.session.phase = some 0 ∧ final.consumed = 270000) ∧
    ∃ final, run (audit prepaying) ⟨oneChunk 0 (AList.singleton (5 : Nat) [7]),spawn 1 5 2 none none,0,0⟩
        paidByRefresh = some final ∧ sample final.session.phase = some 0 ∧ final.consumed = 230000 := by
  have cheque : (run (audit payingAtOnce) ⟨oneChunk 0 (AList.singleton (5 : Nat) [7]),spawn 1 5 2 none none,0,0⟩
      paidByCheque).map (fun final => (sample final.session.phase,final.consumed)) = some (some 0,270000) := by decide +kernel
  have refresh : (run (audit prepaying) ⟨oneChunk 0 (AList.singleton (5 : Nat) [7]),spawn 1 5 2 none none,0,0⟩
      paidByRefresh).map (fun final => (sample final.session.phase,final.consumed)) = some (some 0,230000) := by decide +kernel
  obtain ⟨paid,reached,ends⟩ := Option.map_eq_some_iff.mp cheque
  obtain ⟨refreshed,reached',ends'⟩ := Option.map_eq_some_iff.mp refresh
  simp only [Prod.mk.injEq] at ends ends'
  exact ⟨⟨paid,reached,ends⟩,refreshed,reached',ends'⟩

end Directswarm.ServiceRate
