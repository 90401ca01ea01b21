import Directswarm.Accounts

/-!
What a prepaying connection parks when it closes. What it owes and what the work
that is left will cost is what it can still consume (`reach`): fetches that are
served turn the one into the other, and the room between it and the prepaid units is
only used up, by what is prepaid and by what is never consumed (`loss`). The surplus
at the end is within ten prices of the one at the start exactly when no step uses up
more than the room there is (`prepay_converges`). The initial slice does not look at
the bucket (`slice_parked`).
-/
namespace Directswarm.Convergence
open Directswarm.Words Directswarm.Runs Directswarm.Interleaving Directswarm.Cheques Directswarm.Pacing
  Directswarm.Connection Directswarm.WorkPool Directswarm.Accounts

variable {A B : Type}

/-- The addresses of a bucket. -/
def contents (pool : Buckets A) (bucket : Nat) : List A := (pool.lookup bucket).getD []

/-- The prices of some chunks at a peer. -/
def cost (plan : Plan A) (overlay : A) (addrs : List A) : Nat := total (plan.peerPrice overlay) addrs

/-- The largest price of a chunk of a bucket. -/
def dearest (plan : Plan A) (overlay : A) (addrs : List A) : Nat := (addrs.map (plan.peerPrice overlay)).foldr max 0

/-- The price of the chunk that was popped. -/
def popped (plan : Plan A) (overlay : A) : Phase A B → Nat
  | .popped addr => plan.peerPrice overlay addr
  | _ => 0

/-- What the chunks cost that are still to be fetched: of the bucket, in flight, kept back, and popped. -/
def work (plan : Plan A) (c : Common A B) (s : Session A B) : Nat :=
  cost plan s.overlay (contents c.pool s.bucket) + total flying s.tasks + cost plan s.overlay s.pending.toList +
    popped plan s.overlay s.phase

/-- What is owed or can still be consumed. -/
def reach (plan : Plan A) (c : Common A B) (s : Session A B) : Nat := s.pacer.mirror.balance + work plan c s

/-- The surplus that a connection is to keep below: the one at the start, and ten of the largest price. -/
def room (plan : Plan A) (c : Common A B) (s : Session A B) : Nat :=
  startSurplus plan s + 10 * dearest plan s.overlay (contents c.pool s.bucket)

section
variable [DecidableEq A]

/-- What a step prepays, or takes from what could have been consumed: a fetch that
    fails, a chunk that is stored already, a chunk kept back that is sent away, and
    debt that a refresh takes. -/
def loss (plan : Plan A) (c : Common A B) (s : Session A B) (act : Act) : Nat :=
  match act, s.phase with
  | .task k false, _ =>
    match s.tasks[k]? with
    | some ⟨_,price,.retrieving⟩ => price
    | _ => 0
  | .go, .emitting .initialPrepay units ⟨_,_,.ended (.ok _)⟩ => units
  | .go, .emitting .topUp units ⟨_,_,.ended (.ok _)⟩ => units
  | .go, .popped addr => if addr ∈ c.stored then plan.peerPrice s.overlay addr else 0
  | .go, .projecting unpaid =>
    if (unpaid.all fun u => plan.lim.maxIssuePlur * 92 / 100 < c.bank.issuedPlur + u * s.pacer.rate) || c.windDown then
      cost plan s.overlay s.pending.toList
    else 0
  | .go, .draining => cost plan s.overlay s.pending.toList
  | .accepted units, .refreshing => min ((units.map Fin.val).getD 0) s.pacer.mirror.balance
  | _, _ => 0

/-- A step does not lose more than the room there is. -/
def Within (plan : Plan A) (room : Nat) (st : Common A B × Session A B) : Seen (Common A B) Act → Prop
  | .own act => loss plan st.1 st.2 act ≤ reach plan st.1 st.2 + room - st.2.pacer.prepaid
  | .others _ => True

/-- The prepaid units of a step fit into 64 bits. -/
def Unwrapped (plan : Plan A) (st : Common A B × Session A B) : Seen (Common A B) Act → Prop
  | .own act => st.2.pacer.prepaid + loss plan st.1 st.2 act < 2 ^ 64
  | .others _ => True

end

/-- Nobody else works the bucket. -/
def Alone (st : Common A B × Session A B) : Seen (Common A B) Act → Prop
  | .own _ => True
  | .others c => contents c.pool st.2.bucket = contents st.1.pool st.2.bucket

instance [DecidableEq A] (plan : Plan A) (room : Nat) (st : Common A B × Session A B) :
    (event : Seen (Common A B) Act) → Decidable (Within plan room st event)
  | .own _ => inferInstanceAs (Decidable (_ ≤ _))
  | .others _ => isTrue trivial

instance [DecidableEq A] (st : Common A B × Session A B) : (event : Seen (Common A B) Act) → Decidable (Alone st event)
  | .own _ => isTrue trivial
  | .others _ => inferInstanceAs (Decidable (_ = _))

/-! ### Buckets -/

theorem contents_pop {pool pool' : Buckets A} {bucket : Nat} {addr : A} (taken : pop pool bucket = some (addr,pool')) :
    contents pool bucket = addr :: contents pool' bucket := by
  unfold pop at taken
  split at taken
  · next found =>
    cases taken
    unfold contents
    rw [found,AList.lookup_insert]
    rfl
  · cases taken

theorem contents_none {pool : Buckets A} {bucket : Nat} (none_ : pop pool bucket = none) : contents pool bucket = [] := by
  unfold pop at none_
  unfold contents
  cases found : pool.lookup bucket with
  | none => rfl
  | some addrs =>
    cases addrs with
    | nil => rfl
    | cons addr rest => rw [found] at none_; cases none_

/-! ### What every run of a prepaying connection keeps -/

/-- `measure_lambda`. -/
def measures : Phase A B → Bool
  | .measuring _ | .measurePopped _ _ | .measureRetrieving _ _ _ | .measureServed _ _ | .measureFailed _
  | .measureSweep | .measurePause _ _ | .probePause _ _ _ | .probing _ _ | .emitting .lambdaSweep _ _ => true
  | _ => false

/-- The units of a sweep that is being sent. -/
def sweeps : Phase A B → Nat
  | .emitting .settle units _ => units
  | _ => 0

/-- The latency is not measured, a sweep is for no more than is owed beyond the
    prepaid units, and a bucket once found empty is empty. -/
structure Steady (plan : Plan A) (c : Common A B) (s : Session A B) : Prop where
  idle : Idle s
  reported : Reported plan s
  small : (account plan s).mirror.balance ≤ u64Max ∧ (account plan s).prepaid ≤ u64Max
  unmeasured : measures s.phase = false
  swept : sweeps s.phase = 0 ∨ sweeps s.phase + s.pacer.prepaid ≤ s.pacer.mirror.balance
  drained : s.bucketDrained = true → contents c.pool s.bucket = []

theorem le_u64Max {n : Nat} (small : n < 2 ^ 64) : n ≤ u64Max := Nat.le_sub_one_of_lt small

theorem small_entry {t : Terms} {a a' : Account} {price : Nat} {payment : Payment} (entry : Entry t a price payment a')
    (small : a.mirror.balance ≤ u64Max ∧ a.prepaid ≤ u64Max) : a'.mirror.balance ≤ u64Max ∧ a'.prepaid ≤ u64Max := by
  cases entry with
  | none | prune => exact small
  | admitOne asked reserved | measure reserved =>
    obtain ⟨-,rfl⟩ := Mirror.tryReserve_some.mp reserved
    exact small
  | serve flying => exact ⟨satAdd_le_max _ _,small.2⟩
  | fail flying => exact small
  | cheque | refresh => exact ⟨(Nat.sub_le _ _).trans small.1,small.2⟩
  | @prepay units => exact ⟨small.1,le_u64Max (wrapAdd_lt a.prepaid units)⟩

theorem steady_spawn (plan : Plan A) (c : Common A B) (overlay : A) (bucket : Nat) (beneficiary : B) (known : Option Known)
    (warm : Option (Nat × Option U256)) : Steady plan c (spawn overlay bucket beneficiary known warm) where
  idle := idle_spawn ..
  reported := (kept_spawn plan c overlay bucket beneficiary known warm).reported
  small := by
    have closed : unopened (spawn overlay bucket beneficiary known warm).phase = true := by cases warm <;> rfl
    simp only [account,closed,if_true,startSurplus]
    refine ⟨Nat.zero_le _,?_⟩
    cases plan.prepay with
    | false => exact Nat.zero_le _
    | true =>
      cases known with
      | none => exact Nat.zero_le _
      | some k => exact le_u64Max k.surplusUnits.isLt
  unmeasured := by cases warm <;> rfl
  swept := by cases warm <;> exact .inl rfl
  drained := nofun

variable [DecidableEq A] [DecidableEq B]

theorem unmeasured_step {plan : Plan A} (mode : plan.prepay = true) {c c' : Common A B} {s s' : Session A B} {act : Act}
    (steady : measures s.phase = false) (moves : Moves plan c s act c' s') : measures s'.phase = false := by
  cases moves with
  | hungUp | announced t | taskServed at_ | taskFailed at_ | taskStored at_ | taskSent at_ => exact steady
  | startMeasuring at_ unknown both => rw [mode] at both; cases both.2
  | measurePop at_ | measureEnd at_ | measureSkip at_ | measureLost at_ | measureReserve at_ | measureServe at_
  | measureFail at_ | measureStore at_ | measureSend at_ | measureLittle at_ | measureWait at_ | sweepBegin at_
  | probeBegin at_ | probeAgain at_ | probeEnd at_ => rw [at_] at steady; cases steady
  | prepayBegin at_ | driveBegin at_ => rw [noteLambda_eq]; rfl
  | @calling purpose units call call' act bank at_ taken =>
    rw [at_] at steady
    cases purpose <;> exact steady
  | @called purpose units call outcome at_ ended =>
    rw [at_] at steady
    cases purpose with
    | lambdaSweep => cases steady
    | initialPrepay | topUp | settle => rfl
  | @uncalled purpose units call why at_ ended =>
    rw [at_] at steady
    cases purpose with
    | lambdaSweep => cases steady
    | initialPrepay | topUp => rfl
    | settle =>
      simp only [chequeFailed]
      split
      · split <;> rfl
      · rfl
  | settled at_ => rcases settle_cases plan c s with same | ⟨units,-,-,-,same⟩ | same <;> rw [same] <;> rfl
  | _ => rfl

/-- While a sweep is being sent, what is owed only grows. -/
theorem swept_step {plan : Plan A} {c c' : Common A B} {s s' : Session A B} {act : Act}
    (small : s.pacer.mirror.balance ≤ u64Max)
    (swept : sweeps s.phase = 0 ∨ sweeps s.phase + s.pacer.prepaid ≤ s.pacer.mirror.balance)
    (moves : Moves plan c s act c' s') :
    sweeps s'.phase = 0 ∨ sweeps s'.phase + s'.pacer.prepaid ≤ s'.pacer.mirror.balance := by
  cases moves with
  | hungUp | announced t | taskFailed at_ | taskStored at_ | taskSent at_ => exact swept
  | @taskServed k addr price at_ =>
    refine swept.imp_right fun covered => covered.trans ?_
    unfold Mirror.apply satAdd
    simp only
    omega
  | prepayBegin at_ | driveBegin at_ => rw [noteLambda_eq]; exact .inl rfl
  | @calling purpose units call call' act bank at_ taken =>
    rw [at_] at swept
    cases purpose <;> exact swept
  | @called purpose units call outcome at_ ended => cases purpose <;> exact .inl rfl
  | @uncalled purpose units call why at_ ended =>
    cases purpose with
    | lambdaSweep | initialPrepay | topUp => exact .inl rfl
    | settle =>
      simp only [chequeFailed]
      split
      · split <;> exact .inl rfl
      · exact .inl rfl
  | settled at_ =>
    rcases settle_cases plan c s with same | ⟨units,-,-,-,same⟩ | same <;> rw [same]
    · exact .inl rfl
    · exact .inl rfl
    · show s.pacer.unpaid = 0 ∨ s.pacer.unpaid + s.pacer.prepaid ≤ s.pacer.mirror.balance
      unfold Pacer.unpaid
      omega
  | _ => exact .inl rfl

/-- A bucket that was found empty stays so. -/
theorem drained_step {plan : Plan A} {c c' : Common A B} {s s' : Session A B} {act : Act}
    (drained : s.bucketDrained = true → contents c.pool s.bucket = []) (moves : Moves plan c s act c' s') :
    s'.bucketDrained = true → contents c'.pool s'.bucket = [] := by
  cases moves with
  | measurePop at_ there | take at_ onward free none_ there =>
    intro found
    have empty := drained found
    rw [contents_pop there] at empty
    cases empty
  | empty at_ onward free none_ => exact fun _ => contents_none none_
  | prepayBegin at_ | driveBegin at_ => rw [noteLambda_eq]; exact drained
  | @called purpose units call outcome at_ ended => cases purpose <;> exact drained
  | @uncalled purpose units call why at_ ended =>
    cases purpose with
    | lambdaSweep | initialPrepay | topUp => exact drained
    | settle =>
      simp only [chequeFailed]
      split
      · split <;> exact drained
      · exact drained
  | settled at_ => rcases settle_cases plan c s with same | ⟨units,-,-,-,same⟩ | same <;> rw [same] <;> exact drained
  | _ => exact drained

/-- What a step does to the room: it falls by no more than what is lost, or what is
    owed covers the prepaid units; and by no less, if no sum passes 64 bits. -/
def Drops (s s' : Session A B) (before after lost : Nat) : Prop :=
  (s'.pacer.prepaid + before ≤ s.pacer.prepaid + lost + after ∨ s'.pacer.prepaid ≤ s'.pacer.mirror.balance) ∧
    (s.pacer.prepaid + lost < 2 ^ 64 → after + s.pacer.prepaid + lost ≤ before + s'.pacer.prepaid)

omit [DecidableEq A] [DecidableEq B] in
theorem drops_same {s s' : Session A B} {before after lost : Nat} (same : before = after + lost)
    (prepaid : s'.pacer.prepaid = s.pacer.prepaid) : Drops s s' before after lost := by
  unfold Drops
  rw [prepaid]
  omega

omit [DecidableEq B] in
theorem loss_served (plan : Plan A) (c : Common A B) (s : Session A B) (k : Nat) : loss plan c s (.task k true) = 0 := rfl

omit [DecidableEq B] in
theorem loss_failed {plan : Plan A} {c : Common A B} {s : Session A B} {k : Nat} {addr : A} {price : Nat}
    (at_ : s.tasks[k]? = some ⟨addr,price,.retrieving⟩) : loss plan c s (.task k false) = price := by
  simp [loss,at_]

omit [DecidableEq B] in
/-- A task that has retrieved its chunk, or failed to, loses nothing any more. -/
theorem loss_landed {plan : Plan A} {c : Common A B} {s : Session A B} {k : Nat} {task : FetchTask A} {ok : Bool}
    (at_ : s.tasks[k]? = some task) (landed : task.stage ≠ .retrieving) : loss plan c s (.task k ok) = 0 := by
  obtain ⟨addr,price,stage⟩ := task
  cases ok with
  | true => rfl
  | false => cases stage <;> simp_all [loss]

theorem drops_step {plan : Plan A} {c c' : Common A B} {s s' : Session A B} {act : Act}
    (steady : Steady plan c s) (opened : unopened s.phase = false) (moves : Moves plan c s act c' s') :
    Drops s s' (reach plan c s) (reach plan c' s') (loss plan c s act) := by
  obtain ⟨idle,-,small,unmeasured,swept,-⟩ := steady
  rw [account_opened opened] at small
  obtain ⟨overlay,bucket,beneficiary,known,warm,alive,pacer,lambda,tasks,pending,stop,drained,finishing,halted,
    attempts,phase⟩ := s
  cases moves with
  | hungUp | announced t => exact drops_same rfl rfl
  | @taskServed k addr price at_ =>
    have flown := flying_set .served at_ (by decide)
    unfold Drops
    rw [loss_served]
    simp only [reach,work,Mirror.apply] at flown small ⊢
    unfold satAdd
    omega
  | @taskFailed k addr price at_ =>
    have flown := flying_set .failed at_ (by decide)
    refine drops_same ?_ rfl
    rw [loss_failed at_]
    simp only [reach,work,Mirror.release] at flown ⊢
    omega
  | @taskStored k addr price ok at_ =>
    have flown := flying_landed .done at_ (by decide) (by decide)
    refine drops_same ?_ rfl
    rw [loss_landed at_ (by rintro ⟨⟩)]
    simp only [reach,work,put] at flown ⊢
    omega
  | @taskSent k addr price ok at_ =>
    have flown := flying_landed .done at_ (by decide) (by decide)
    refine drops_same ?_ rfl
    rw [loss_landed at_ (by rintro ⟨⟩)]
    simp only [reach,work,send] at flown ⊢
    omega
  | dialed at_ | undialed at_ | startMeasuring at_ | unmeasured at_ => cases at_; cases opened
  | measurePop at_ | measureEnd at_ | measureSkip at_ | measureLost at_ | measureReserve at_ | measureServe at_
  | measureFail at_ | measureStore at_ | measureSend at_ | measureLittle at_ | measureWait at_ | sweepBegin at_
  | probeBegin at_ | probeAgain at_ | probeEnd at_ => cases at_; cases unmeasured
  | prepayBegin at_ | driveBegin at_ =>
    cases at_
    rw [noteLambda_eq]
    exact drops_same rfl rfl
  | @calling purpose units call call' act bank at_ taken =>
    cases at_
    cases purpose <;> exact drops_same rfl rfl
  | @called purpose units call outcome at_ ended =>
    obtain ⟨to_,debt,stage⟩ := call
    cases at_
    cases ended
    cases purpose with
    | lambdaSweep => cases unmeasured
    | initialPrepay | topUp =>
      have grown := wrapAdd_le pacer.prepaid units
      refine ⟨.inl ?_,fun fits => ?_⟩
      · show wrapAdd pacer.prepaid units + _ ≤ pacer.prepaid + units + _
        exact Nat.add_le_add_right grown _
      · have exact_ : wrapAdd pacer.prepaid units = pacer.prepaid + units := wrapAdd_exact fits
        show _ + pacer.prepaid + units ≤ _ + wrapAdd pacer.prepaid units
        rw [exact_,Nat.add_assoc]
        exact le_rfl
    | settle =>
      have fewer : pacer.mirror.balance - units ≤ pacer.mirror.balance := Nat.sub_le _ _
      refine ⟨?_,fun _ => ?_⟩
      · rcases swept with none_ | covered
        · have zero : units = 0 := none_
          subst zero
          exact .inl le_rfl
        · refine .inr ?_
          show pacer.prepaid ≤ pacer.mirror.balance - units
          exact Nat.le_sub_of_add_le (by rwa [Nat.add_comm])
      · show pacer.mirror.balance - units + _ + pacer.prepaid + 0 ≤ pacer.mirror.balance + _ + pacer.prepaid
        exact Nat.add_le_add_right (Nat.add_le_add_right fewer _) _
  | @uncalled purpose units call why at_ ended =>
    obtain ⟨to_,debt,stage⟩ := call
    cases at_
    cases ended
    cases purpose with
    | lambdaSweep => cases unmeasured
    | initialPrepay | topUp => exact drops_same rfl rfl
    | settle =>
      simp only [chequeFailed]
      split
      · split <;> exact drops_same rfl rfl
      · exact drops_same rfl rfl
  | dead at_ | turn at_ => cases at_; exact drops_same rfl rfl
  | drained at_ joined =>
    cases at_
    have landed := flying_joined joined
    refine drops_same ?_ rfl
    simp only [reach,work,send,loss,landed,popped,Option.toList_none,cost,total_nil]
    omega
  | halt at_ stopped halted =>
    cases at_
    subst stopped
    refine drops_same ?_ rfl
    simp only [reach,work,send,loss,halted,if_true,popped,Option.toList_none,cost,total_nil]
    omega
  | @project u at_ room_ onward =>
    cases at_
    have stays : ((some u).all fun u => decide (plan.lim.maxIssuePlur * 92 / 100 < c.bank.issuedPlur + u * pacer.rate)) =
        false := decide_eq_false (not_lt.mpr room_)
    refine drops_same ?_ rfl
    simp only [reach,work,loss,stays,onward,Bool.or_self,Bool.false_eq_true,if_false,popped,Nat.add_zero]
  | @resume addr at_ onward free held =>
    cases at_
    cases held
    refine drops_same ?_ rfl
    simp only [reach,work,loss,popped,Option.toList_some,Option.toList_none,cost,total_cons,total_nil]
    omega
  | @take addr pool at_ onward free none_ there =>
    cases at_
    refine drops_same ?_ rfl
    simp only [reach,work,loss,popped,contents_pop there,cost,total_cons]
    omega
  | empty at_ | full at_ => cases at_; exact drops_same rfl rfl
  | @skip addr at_ there =>
    cases at_
    refine drops_same ?_ rfl
    simp only [reach,work,loss,if_pos there,popped]
    omega
  | @refuse addr next at_ absent refused =>
    cases at_
    rw [Pacer.admit_refused refused]
    have free : pending = none := (idle.popped addr rfl).2
    refine drops_same ?_ rfl
    simp only [reach,work,loss,if_neg absent,popped,free,Option.toList_some,Option.toList_none,cost,total_cons,total_nil,
      Pacer.prune]
    omega
  | @admitOne addr next at_ absent admitted =>
    cases at_
    obtain ⟨mirror,reserved,rfl⟩ := Pacer.admit_admitted admitted
    obtain ⟨-,rfl⟩ := Mirror.tryReserve_some.mp reserved
    refine drops_same ?_ rfl
    simp only [reach,work,loss,if_neg absent,popped,total_append,total_cons,total_nil,flying,if_true]
    omega
  | refreshBegin at_ | refreshSkip at_ =>
    cases at_
    refine drops_same ?_ rfl
    simp only [reach,work,loss,flying_reap,popped,Nat.add_zero]
  | @refreshed units at_ =>
    cases at_
    refine drops_same ?_ rfl
    simp only [reach,work,loss,Pacer.refreshed,Mirror.credit,popped]
    omega
  | settled at_ =>
    cases at_
    rcases settle_cases plan c _ with same | ⟨units,-,-,-,same⟩ | same <;> rw [same] <;> exact drops_same rfl rfl
  | retry at_ | finish at_ | sleep at_ | wake at_ | confirmBegin at_ | unconfirmed at_ | confirmWake at_ | confirmed at_
  | recorded at_ => cases at_; exact drops_same rfl rfl

/-- What holds of a prepaying connection that keeps below its room. -/
structure Funded (plan : Plan A) (surplus room : Nat) (st : Common A B × Session A B) : Prop where
  steady : Steady plan st.1 st.2
  start : startSurplus plan st.2 = surplus
  covered : st.2.pacer.prepaid ≤ reach plan st.1 st.2 + room

theorem steady_step {plan : Plan A} (mode : plan.prepay = true) {c c' : Common A B} {s s' : Session A B} {act : Act}
    (steady : Steady plan c s) (moves : Moves plan c s act c' s') : Steady plan c' s' where
  idle := idle_step steady.idle moves
  reported := reported_step steady.idle steady.reported moves
  small := small_entry (step_entry steady.idle moves) steady.small
  unmeasured := unmeasured_step mode steady.unmeasured moves
  swept := by
    refine swept_step ?_ steady.swept moves
    cases open_ : unopened s.phase with
    | true => rw [(steady.reported.fresh open_).1]; exact Nat.zero_le _
    | false =>
      have small := steady.small
      rw [account_opened open_] at small
      exact small.1
  drained := drained_step steady.drained moves

omit [DecidableEq A] [DecidableEq B] in
/-- The others leave the bucket alone. -/
theorem steady_others {plan : Plan A} {c c' : Common A B} {s : Session A B} (steady : Steady plan c s)
    (same : contents c'.pool s.bucket = contents c.pool s.bucket) : Steady plan c' s :=
  ⟨steady.idle,steady.reported,steady.small,steady.unmeasured,steady.swept,fun found => same.trans (steady.drained found)⟩

omit [DecidableEq A] [DecidableEq B] in
theorem reach_others {plan : Plan A} {c c' : Common A B} {s : Session A B}
    (same : contents c'.pool s.bucket = contents c.pool s.bucket) : reach plan c' s = reach plan c s := by
  unfold reach work
  rw [same]

/-- A connection that has no pacer, or gets it in this step, has its surplus prepaid at most. -/
theorem opening_prepaid {plan : Plan A} {c c' : Common A B} {s s' : Session A B} {act : Act} (steady : Steady plan c s)
    (open_ : unopened s.phase = true) (moves : Moves plan c s act c' s') : s'.pacer.prepaid ≤ startSurplus plan s := by
  have entry := step_entry steady.idle moves
  have unpaid : payment s act = .none := by
    unfold payment
    split
    · next at_ => rw [at_] at open_; cases open_
    · next at_ => rw [at_] at open_; cases open_
    · rfl
  rw [unpaid] at entry
  have kept : (account plan s').prepaid = (account plan s).prepaid := by
    generalize account plan s = a at entry
    generalize account plan s' = a' at entry
    generalize served s act = price at entry
    cases entry <;> rfl
  have before : (account plan s).prepaid = startSurplus plan s := by simp [account,open_]
  cases open' : unopened s'.phase with
  | true =>
    rw [((reported_step steady.idle steady.reported moves).fresh open').2]
    exact Nat.zero_le _
  | false =>
    rw [account_opened open'] at kept
    exact (kept.trans before).le

omit [DecidableEq B] in
theorem unopened_loss {plan : Plan A} {c : Common A B} {s : Session A B} {act : Act} (idle : Idle s)
    (open_ : unopened s.phase = true) : loss plan c s act = 0 := by
  unfold loss
  split
  · next k _ =>
    split
    · next at_ => rw [opened_of_busy idle at_] at open_; cases open_
    · rfl
  all_goals first | rfl | (next at_ => rw [at_] at open_; cases open_)

theorem funded_step {plan : Plan A} (mode : plan.prepay = true) {surplus room : Nat} (roomy : surplus ≤ room)
    (st : Common A B × Session A B) (event : Seen (Common A B) Act) (next : Common A B × Session A B)
    (funded : Funded plan surplus room st) (met : Alone st event ∧ Within plan room st event)
    (taken : seenStep (sessionStep plan) st event = some next) : Funded plan surplus room next := by
  obtain ⟨steady,start,covered⟩ := funded
  obtain ⟨alone,within⟩ := met
  cases event with
  | others c =>
    cases taken
    refine ⟨steady_others steady alone,start,?_⟩
    rw [reach_others alone]
    exact covered
  | own act =>
    have moves := step_moves taken
    refine ⟨steady_step mode steady moves,?_,?_⟩
    · rw [← start]
      simp only [startSurplus,(identity_step moves).2.2.2]
    · cases open_ : unopened st.2.phase with
      | true => exact (opening_prepaid steady open_ moves).trans (by omega)
      | false =>
        have drops := (drops_step steady open_ moves).1
        simp only [Within] at within
        have owed : next.2.pacer.mirror.balance ≤ reach plan next.1 next.2 := Nat.le_add_right _ _
        omega

/-- Room that was overspent once, or is in this step, stays so. -/
theorem overspent_step {plan : Plan A} {room : Nat} {c c' : Common A B} {s s' : Session A B} {act : Act}
    (steady : Steady plan c s) (fits : s.pacer.prepaid + loss plan c s act < 2 ^ 64)
    (past : reach plan c s + room < s.pacer.prepaid + loss plan c s act) (moves : Moves plan c s act c' s') :
    reach plan c' s' + room < s'.pacer.prepaid := by
  cases open_ : unopened s.phase with
  | true =>
    rw [(steady.reported.fresh open_).2,unopened_loss steady.idle open_] at past
    omega
  | false =>
    have drops := (drops_step steady open_ moves).2 fits
    omega

/-- A run that ends with room left never used up more than there was. -/
theorem within_of_covered {plan : Plan A} (mode : plan.prepay = true) {room : Nat} {final : Common A B × Session A B} :
    ∀ {events : List (Seen (Common A B) Act)} {st : Common A B × Session A B}, Steady plan st.1 st.2 →
      Meets (seenStep (sessionStep plan)) Alone st events →
      Meets (seenStep (sessionStep plan)) (Unwrapped plan) st events →
      run (seenStep (sessionStep plan)) st events = some final →
      final.2.pacer.prepaid ≤ reach plan final.1 final.2 + room →
      Meets (seenStep (sessionStep plan)) (Within plan room) st events ∧ st.2.pacer.prepaid ≤ reach plan st.1 st.2 + room := by
  intro events
  induction events with
  | nil =>
    intro st _ _ _ reached covered
    cases reached
    exact ⟨trivial,covered⟩
  | cons event rest ih =>
    intro st steady alone unwrapped reached covered
    obtain ⟨next,taken,onward⟩ := run_cons_some.mp reached
    have later : Steady plan next.1 next.2 → _ := fun steady' =>
      ih steady' (alone.2 next taken) (unwrapped.2 next taken) onward covered
    cases event with
    | others c =>
      cases taken
      obtain ⟨within,covered'⟩ := later (steady_others steady alone.1)
      rw [reach_others alone.1] at covered'
      refine ⟨⟨trivial,fun other same => ?_⟩,covered'⟩
      cases same
      exact within
    | own act =>
      have moves := step_moves taken
      obtain ⟨within,covered'⟩ := later (steady_step mode steady moves)
      have inside : ¬reach plan st.1 st.2 + room < st.2.pacer.prepaid + loss plan st.1 st.2 act := fun past => by
        have overspent := overspent_step steady unwrapped.1 past moves
        omega
      refine ⟨⟨?_,fun other same => ?_⟩,by omega⟩
      · show loss plan st.1 st.2 act ≤ reach plan st.1 st.2 + room - st.2.pacer.prepaid
        omega
      · cases taken.symm.trans same
        exact within

/-! ### The end of a session -/

omit [DecidableEq A] [DecidableEq B] in
/-- A session that closed after its bucket drained has no work left. -/
theorem closed_reach {plan : Plan A} {c : Common A B} {s : Session A B} {residual : Nat} {observed : Option Observation}
    {parked : Bool} (steady : Steady plan c s) (closed : s.phase = .closed residual observed parked)
    (drained : s.bucketDrained = true) : reach plan c s = s.pacer.mirror.balance := by
  obtain ⟨none_,free⟩ := steady.idle.late (by rw [closed]; rfl)
  unfold reach work
  rw [steady.drained drained,none_,free,closed]
  rfl

/-- What a prepaying connection parks that alone works its bucket, drains it and closes
    with nothing owed: no more than its first surplus and ten of the largest price, when
    no step uses up more than the room there is. Where no sum passes 64 bits, only then. -/
theorem prepay_converges (plan : Plan A) (mode : plan.prepay = true) (c₀ : Common A B) (overlay : A) (bucket : Nat)
    (beneficiary : B) (known : Option Known) (warm : Option (Nat × Option U256)) (events : List (Seen (Common A B) Act))
    (c : Common A B) (s : Session A B)
    (alone : Meets (seenStep (sessionStep plan)) Alone (c₀,spawn overlay bucket beneficiary known warm) events)
    (reached : run (seenStep (sessionStep plan)) (c₀,spawn overlay bucket beneficiary known warm) events = some (c,s))
    (o : Observation) (parked : Bool) (closed : s.phase = .closed 0 (some o) parked) (drained : s.bucketDrained = true) :
    ∃ n, o.surplusUnits = some n ∧ n = s.pacer.prepaid - s.pacer.mirror.balance ∧
      (Meets (seenStep (sessionStep plan)) (Within plan (room plan c₀ (spawn overlay bucket beneficiary known warm)))
          (c₀,spawn overlay bucket beneficiary known warm) events →
        n ≤ room plan c₀ (spawn overlay bucket beneficiary known warm)) ∧
      (Meets (seenStep (sessionStep plan)) (Unwrapped plan) (c₀,spawn overlay bucket beneficiary known warm) events →
        n ≤ room plan c₀ (spawn overlay bucket beneficiary known warm) →
        Meets (seenStep (sessionStep plan)) (Within plan (room plan c₀ (spawn overlay bucket beneficiary known warm)))
          (c₀,spawn overlay bucket beneficiary known warm) events) := by
  have begins := steady_spawn plan c₀ overlay bucket beneficiary known warm
  have keep : ∀ (st : Common A B × Session A B) event next, Steady plan st.1 st.2 → Alone st event →
      seenStep (sessionStep plan) st event = some next → Steady plan next.1 next.2 := by
    intro st event next steady met taken
    cases event with
    | others c' => cases taken; exact steady_others steady met
    | own act => exact steady_step mode steady (step_moves taken)
  have steady : Steady plan c s := run_guarded keep begins alone reached
  have roomy : startSurplus plan (spawn overlay bucket beneficiary known warm) ≤
      room plan c₀ (spawn overlay bucket beneficiary known warm) := Nat.le_add_right _ _
  have ends := closed_reach steady closed drained
  refine ⟨_,(steady.reported.closed o (by rw [closed]; rfl)).trans (if_pos mode),rfl,fun within => ?_,fun unwrapped low => ?_⟩
  · have start : Funded plan _ (room plan c₀ (spawn overlay bucket beneficiary known warm))
        (c₀,spawn overlay bucket beneficiary known warm) := ⟨begins,rfl,Nat.zero_le _⟩
    have final := (run_guarded (funded_step mode roomy) start (meets_and alone within) reached).covered
    simp only [ends] at final
    omega
  · exact (within_of_covered mode begins alone unwrapped reached (by simp only [ends]; omega)).1

/-! ### A bucket smaller than the slice -/

/-- What a closed connection left, and what it reported. -/
def ending : Phase A B → Option (Nat × Observation)
  | .closed residual (some o) _ => some (residual,o)
  | _ => none

omit [DecidableEq A] [DecidableEq B] in
theorem ending_some {phase : Phase A B} {residual : Nat} {o : Observation} (ends : ending phase = some (residual,o)) :
    ∃ parked, phase = .closed residual (some o) parked := by
  unfold ending at ends
  split at ends
  · cases ends; exact ⟨_,rfl⟩
  · cases ends

/-- A prepaying run towards a peer that asks 230000 units a chunk. -/
def ahead : Plan Nat where
  lim := ⟨10 ^ 16,10 ^ 16,by decide⟩
  pipeline := 40
  measureLambda := false
  prepay := true
  parkInto := false
  peerPrice := fun _ _ => 230000
  peerPrice_lt := price_fits

/-- Bucket 5 at a time. -/
def shelf (now : Nat) (addrs : List Nat) : Common Nat Nat := ⟨now,AList.insert (5 : Nat) addrs ∅,∅,[],false,0,⟨0,∅,[]⟩⟩

/-- A cheque is sent. -/
def sends : List Act := (reserving 100000 0 ++ signing ++ finishing).map .cheque ++ [.go]

/-- So many fetches are served and stored. -/
def serves (first n : Nat) : List Act := (List.range n).flatMap fun k => [.task (first + k) true,.task (first + k) true]

/-- The peer confirms that nothing is owed. -/
def closeActs (now : Nat) : List (Seen (Common Nat Nat) Act) :=
  Seen.others (shelf now []) :: [Act.go,Act.accepted (some 0),Act.go].map Seen.own

/-- A surplus of 25 chunks is known of. -/
def known : Known := ⟨some 3000,5750000⟩

/-- With 31 of 36 chunks under way the connection tops the surplus up to all of them. The
    others follow when the cheque no longer counts as validating. -/
def toppedUp : List (Seen (Common Nat Nat) Act) :=
  [(List.replicate 70 Act.go ++ sends ++ serves 0 31 ++ [Act.go]).map Seen.own,[.others (shelf (5000 * ms) [32,33,34,35])],
    (List.replicate 13 Act.go ++ serves 31 5 ++ List.replicate 5 Act.go).map Seen.own,closeActs (9500 * ms)].flatten

theorem prepay_converges_known : ∃ c s o parked,
    run (seenStep (sessionStep ahead)) (shelf 0 (List.range 36),spawn 1 5 2 (some known) (some (3000,none))) toppedUp = some (c,s) ∧
    s.phase = .closed 0 (some o) parked ∧ s.pacer.prepaid = 5750000 + 2530000 ∧
    ∃ n, o.surplusUnits = some n ∧ n ≤ 5750000 + 10 * 230000 := by
  have ends : (run (seenStep (sessionStep ahead)) (shelf 0 (List.range 36),spawn 1 5 2 (some known) (some (3000,none)))
      toppedUp).map (fun st => ((ending st.2.phase).map Prod.fst,st.2.bucketDrained,st.2.pacer.prepaid)) =
      some (some 0,true,8280000) := by decide +kernel
  obtain ⟨⟨c,s⟩,reached,here⟩ := Option.map_eq_some_iff.mp ends
  simp only [Prod.mk.injEq] at here
  obtain ⟨closed_,drained,prepaid⟩ := here
  obtain ⟨⟨residual,o⟩,last,zero⟩ := Option.map_eq_some_iff.mp closed_
  obtain ⟨parked,closed⟩ := ending_some last
  cases zero
  obtain ⟨n,reported,-,low,-⟩ := prepay_converges ahead rfl (shelf 0 (List.range 36)) 1 5 2 (some known) (some (3000,none))
    toppedUp c s (by decide +kernel) reached o parked closed drained
  exact ⟨c,s,o,parked,reached,closed,prepaid,n,reported,low (by decide +kernel)⟩

/-- The initial slice is sent, one chunk is fetched, and the bucket is empty. -/
def slicedRun : List (Seen (Common Nat Nat) Act) :=
  (List.replicate 2 Act.go ++ sends ++ List.replicate 5 Act.go ++ serves 0 1 ++ List.replicate 4 Act.go).map Seen.own ++
    closeActs (4500 * ms)

/-- The slice of 57500000 units is sent for a bucket of one chunk, and what is not
    consumed is parked. -/
theorem slice_parked : ∃ c s o parked,
    Meets (seenStep (sessionStep ahead)) Alone (shelf 0 [7],spawn 1 5 2 none (some (3000,none)))
      slicedRun ∧
    run (seenStep (sessionStep ahead)) (shelf 0 [7],spawn 1 5 2 none (some (3000,none))) slicedRun = some (c,s) ∧
    s.phase = .closed 0 (some o) parked ∧ s.bucketDrained = true ∧ o.surplusUnits = some 57270000 ∧
    room ahead (shelf 0 [7]) (spawn 1 5 2 none (some (3000,none)) : Session Nat Nat) = 2300000 := by
  have ends : (run (seenStep (sessionStep ahead)) (shelf 0 [7],spawn 1 5 2 none (some (3000,none))) slicedRun).map (fun st =>
        ((ending st.2.phase).map fun left => (left.1,left.2.surplusUnits),st.2.bucketDrained)) =
      some (some (0,some 57270000),true) := by decide +kernel
  obtain ⟨⟨c,s⟩,reached,here⟩ := Option.map_eq_some_iff.mp ends
  obtain ⟨closed_,drained⟩ := Prod.mk.inj here
  obtain ⟨⟨residual,o⟩,last,both⟩ := Option.map_eq_some_iff.mp closed_
  obtain ⟨zero,surplus⟩ := Prod.mk.inj both
  obtain ⟨parked,closed⟩ := ending_some last
  simp only at zero
  subst zero
  exact ⟨c,s,o,parked,by decide +kernel,reached,closed,drained,surplus,by decide⟩

end Directswarm.Convergence
