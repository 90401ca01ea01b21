import Mathlib.Algebra.Order.BigOperators.Group.List
import Mathlib.Algebra.Order.Group.Nat
import Directswarm.Accounts
import Directswarm.Unchecked

/-!
The 64-bit sums and products that `Pacer`, `measure_lambda` and `drive` leave
unchecked, with those of the payments they make (`connOps`). Most of them cannot
overflow: what is owed and reserved stays within the gate, and the queue of cheques
adds up to no more than what was settled. The others can, because their operands are
announced by the peer or read from the peer-state file, and `Within` says of a state
that they do not. A connection whose steps are all taken within it is free of
overflows (`conn_exact`).
-/
namespace Directswarm.Overflow
open Directswarm.Words Directswarm.Runs Directswarm.Interleaving Directswarm.Cheques Directswarm.Pacing
  Directswarm.Connection Directswarm.WorkPool Directswarm.Accounts Directswarm.Unchecked

/-! ### What is computed -/

/-- `try_reserve`. -/
def reserveOps (m : Mirror) (price limit : Nat) : List Op :=
  if limit < satAdd (satAdd m.balance m.reserved) price then [] else [.add m.reserved price]

/-- `window`. -/
def windowOps (p : Pacer) : List Op := [.mul (max lambdaMinMs (min p.lambdaMs lambdaMaxMs)) 3]

/-- `unvalidated_sum`. -/
def unvalidatedOps (p : Pacer) (now : Nat) : List Op :=
  windowOps p ++ sumOps 0 ((p.prune now).unvalidated.map Prod.snd)

/-- `admit`. -/
def admitOps (p : Pacer) (now price : Nat) : List Op :=
  unvalidatedOps p now ++ .add p.prepaid (satMul p.threshold 105 / 100) ::
    reserveOps p.mirror price (p.prune now).admitLimit

/-- What was settled grows, if anything was accepted. -/
def acceptedOps (p : Pacer) (units : Nat) : List Op := if 0 < units then [.add p.settledUnits units] else []

/-- `emit` and `emit_prepay`, after the cheque. -/
def paidOps (p : Pacer) (units : Nat) : Purpose → List Op
  | .lambdaSweep | .settle => [.add p.settledUnits units]
  | .initialPrepay | .topUp => [.add p.prepaid units,.add p.settledUnits units]

section
variable {A B : Type}

/-- The latency is measured next. -/
def measures (plan : Plan A) (s : Session A B) : Bool :=
  (s.known.bind Known.lambdaMs).isNone && plan.measureLambda && !plan.prepay

/-- The turn settles in advance. -/
def topsUp (plan : Plan A) (s : Session A B) : Bool := plan.prepay && !s.finishing && !s.halted

/-- The work that is left to the connection. -/
def work (c : Common A B) (s : Session A B) : Nat := remaining c.pool s.bucket + s.tasks.length + s.pending.toList.length

/-- What the connection wants to have prepaid. -/
def desired (c : Common A B) (s : Session A B) : Nat :=
  s.pacer.mirror.balance + min (work c s * s.pacer.avgPrice) (satMul s.pacer.avgPrice 250)

def chequeDue (c : Common A B) (s : Session A B) : Bool := Pacer.isDue s.pacer.lastCheque c.now chequeMinInterval

/-- The settlement of a turn in advance. -/
def topUpOps (c : Common A B) (s : Session A B) : List Op :=
  .mul (work c s) s.pacer.avgPrice ::
    .add s.pacer.mirror.balance (min (work c s * s.pacer.avgPrice) (satMul s.pacer.avgPrice 250)) ::
    if chequeDue c s then
      .add s.pacer.prepaid (satMul s.pacer.avgPrice 10) ::
        if s.pacer.prepaid + satMul s.pacer.avgPrice 10 < desired c s then [.sub (desired c s) s.pacer.prepaid] else []
    else []

variable [DecidableEq A]

/-- What a step of a connection computes. -/
def connOps (plan : Plan A) (c : Common A B) (s : Session A B) (act : Act) : List Op :=
  match act, s.phase with
  -- `measure_lambda`.
  | .go, .established => if measures plan s then [.mul (newPacer plan s).threshold 4,.mul lambdaProbeUnits 6] else []
  | .go, .measurePopped m addr =>
    if addr ∈ c.stored then [] else reserveOps s.pacer.mirror (plan.peerPrice s.overlay addr) m.half
  | .go, .measureSweep => [.mul lambdaProbeUnits 4]
  | .accepted units, .probing _ _ => acceptedOps s.pacer ((units.map Fin.val).getD 0)
  -- `drive`.
  | .go, .driving =>
    if s.alive && !s.spendStop then [.add s.pacer.mirror.balance s.pacer.mirror.reserved] else []
  | .go, .popped addr => if addr ∈ c.stored then [] else admitOps s.pacer c.now (plan.peerPrice s.overlay addr)
  | .accepted units, .refreshing => acceptedOps s.pacer ((units.map Fin.val).getD 0)
  | .go, .settling => if topsUp plan s then topUpOps c s else []
  -- `emit` and `emit_prepay`.
  | .go, .emitting purpose units ⟨_,_,.ended (.ok _)⟩ => paidOps s.pacer units purpose
  | _, _ => []

/-- The step asks whether to measure, and does. -/
def measuring (plan : Plan A) (s : Session A B) (act : Act) : Bool :=
  match act, s.phase with
  | .go, .established => measures plan s
  | _, _ => false

/-- The step asks `admit`. -/
def admitting (c : Common A B) (s : Session A B) (act : Act) : Bool :=
  match act, s.phase with
  | .go, .popped addr => decide (addr ∉ c.stored)
  | _, _ => false

/-- The step settles in advance. -/
def toppingUp (plan : Plan A) (s : Session A B) (act : Act) : Bool :=
  match act, s.phase with
  | .go, .settling => topsUp plan s
  | _, _ => false

/-- What a step adds to what was settled. -/
def settles (s : Session A B) (act : Act) : Nat :=
  match act, s.phase with
  | .accepted units, .probing _ _ | .accepted units, .refreshing => (units.map Fin.val).getD 0
  | .go, .emitting _ units ⟨_,_,.ended (.ok _)⟩ => units
  | _, _ => 0

end

/-! ### Where it may overflow -/

section
variable {A B : Type}

/-- The products and sums of a turn that settles in advance. -/
structure Affordable (c : Common A B) (s : Session A B) : Prop where
  worth : work c s * s.pacer.avgPrice < 2 ^ 64
  wanted : desired c s < 2 ^ 64
  compared : chequeDue c s = true → s.pacer.prepaid + satMul s.pacer.avgPrice 10 < 2 ^ 64

instance (c : Common A B) (s : Session A B) : Decidable (Affordable c s) :=
  decidable_of_iff (work c s * s.pacer.avgPrice < 2 ^ 64 ∧ desired c s < 2 ^ 64 ∧
      (chequeDue c s = true → s.pacer.prepaid + satMul s.pacer.avgPrice 10 < 2 ^ 64))
    ⟨fun h => ⟨h.1,h.2.1,h.2.2⟩,fun h => ⟨h.worth,h.wanted,h.compared⟩⟩

variable [DecidableEq A]

/-- A measurement begins at a threshold below `2 ^ 62`; prepaid units and 105% of the
    threshold are a limit below `u64::MAX`; a turn that settles in advance wants an
    amount of 64 bits; and so is what was settled in all. -/
structure Bounds (plan : Plan A) (c : Common A B) (s : Session A B) (act : Act) : Prop where
  measure : measuring plan s act = true → (newPacer plan s).threshold < 2 ^ 62
  reserve : admitting c s act = true → s.pacer.prepaid + satMul s.pacer.threshold 105 / 100 < 2 ^ 64 ∧
    (s.pacer.prune c.now).admitLimit < u64Max
  topUp : toppingUp plan s act = true → Affordable c s
  settled : s.pacer.settledUnits + settles s act < 2 ^ 64

instance (plan : Plan A) (c : Common A B) (s : Session A B) (act : Act) : Decidable (Bounds plan c s act) :=
  decidable_of_iff ((measuring plan s act = true → (newPacer plan s).threshold < 2 ^ 62) ∧
      (admitting c s act = true → s.pacer.prepaid + satMul s.pacer.threshold 105 / 100 < 2 ^ 64 ∧
        (s.pacer.prune c.now).admitLimit < u64Max) ∧
      (toppingUp plan s act = true → Affordable c s) ∧ s.pacer.settledUnits + settles s act < 2 ^ 64)
    ⟨fun h => ⟨h.1,h.2.1,h.2.2.1,h.2.2.2⟩,fun h => ⟨h.measure,h.reserve,h.topUp,h.settled⟩⟩

/-- A step of the connection is taken within the bounds. -/
def Within (plan : Plan A) (st : Audited A B) : Seen (Common A B) Act → Prop
  | .own act => Bounds plan st.common st.session act
  | .others _ => True

instance (plan : Plan A) (st : Audited A B) : (event : Seen (Common A B) Act) → Decidable (Within plan st event)
  | .own _ => inferInstanceAs (Decidable (Bounds ..))
  | .others _ => isTrue trivial

/-- Nothing that a step computes overflows. -/
def Exact (plan : Plan A) (st : Audited A B) : Seen (Common A B) Act → Prop
  | .own act => AllExact (connOps plan st.common st.session act)
  | .others _ => True

instance (plan : Plan A) (st : Audited A B) : (event : Seen (Common A B) Act) → Decidable (Exact plan st event)
  | .own _ => inferInstanceAs (Decidable (AllExact _))
  | .others _ => isTrue trivial

end

/-! ### What stays small -/

variable {A B : Type} [DecidableEq A] [DecidableEq B]

/-- The units of the cheques that may be validating. -/
def queuedUnits (queue : List (Nat × Nat)) : Nat := (queue.map Prod.snd).sum

/-- The units of a cheque in advance that is being sent. -/
def ahead : Phase A B → Option Nat
  | .emitting .initialPrepay units _ | .emitting .topUp units _ => some units
  | _ => none

/-- The queue of cheques is part of what was settled. -/
structure Queued (s : Session A B) : Prop where
  part : queuedUnits s.pacer.unvalidated ≤ s.pacer.settledUnits
  small : s.pacer.settledUnits < 2 ^ 64

/-- What a cheque in advance adds is what was wanted, of 64 bits. -/
def Ahead (s : Session A B) : Prop := ∀ units ∈ ahead s.phase, s.pacer.prepaid + units < 2 ^ 64

theorem probing_settled {plan : Plan A} {c c' : Common A B} {s s' : Session A B} {t0 : Nat} {zeroAt : Option Nat}
    {units : Option (Fin (2 ^ 64))} (at_ : s.phase = .probing t0 zeroAt)
    (taken : sessionStep plan c s (.accepted units) = some (c',s')) :
    s'.pacer.settledUnits = s.pacer.settledUnits ∨
      s'.pacer.settledUnits = wrapAdd s.pacer.settledUnits ((units.map Fin.val).getD 0) := by
  obtain ⟨overlay,bucket,beneficiary,known,warm,alive,pacer,lambda,tasks,pending,stop,drained,finishing,halted,
    attempts,phase⟩ := s
  cases at_
  cases units with
  | none =>
    cases taken
    refine .inl ?_
    simp only [probeHead]
    split <;> rfl
  | some u =>
    simp only [sessionStep,Option.orElse_eq_some] at taken
    rcases taken with opened | ⟨-,measured | ⟨-,emitted | ⟨-,driven | ⟨-,closed⟩⟩⟩⟩
    · cases opened
    rotate_left
    · cases emitted
    · cases driven
    · cases closed
    refine .inr ?_
    simp only [measureStep] at measured
    split at measured
    · split at measured <;> cases measured
      · rfl
      · simp only [probeHead]; split <;> rfl
    · cases measured
      simp only [probeHead]; split <;> rfl

theorem queuedUnits_suffix {few many : List (Nat × Nat)} (suffix : few <:+ many) : queuedUnits few ≤ queuedUnits many :=
  (suffix.sublist.map Prod.snd).sum_le_sum (by simp)

theorem queuedUnits_append (queue : List (Nat × Nat)) (now units : Nat) :
    queuedUnits (queue ++ [(now,units)]) = queuedUnits queue + units := by
  simp [queuedUnits]

/-- A step queues no more than it settles. -/
theorem queued_step {plan : Plan A} {c c' : Common A B} {s s' : Session A B} {act : Act} (queued : Queued s)
    (fits : s.pacer.settledUnits + settles s act < 2 ^ 64) (taken : sessionStep plan c s act = some (c',s')) :
    Queued s' := by
  have moves := step_moves taken
  obtain ⟨part,small⟩ := queued
  cases moves with
  | startMeasuring at_ unknown mode | unmeasured at_ => exact ⟨Nat.zero_le _,Nat.two_pow_pos 64⟩
  | prepayBegin at_ mode short | driveBegin at_ enough => rw [noteLambda_eq]; exact ⟨part,small⟩
  | @called purpose units call outcome at_ ended =>
    obtain ⟨b,debt,phase⟩ := call
    cases ended
    have settled : settles s .go = units := by simp only [settles,at_]
    rw [settled] at fits
    have whole : wrapAdd s.pacer.settledUnits units = s.pacer.settledUnits + units := wrapAdd_exact fits
    have more := queuedUnits_append s.pacer.unvalidated c.now units
    have both : queuedUnits (s.pacer.unvalidated ++ [(c.now,units)]) ≤ wrapAdd s.pacer.settledUnits units ∧
        wrapAdd s.pacer.settledUnits units < 2 ^ 64 := by omega
    cases purpose <;> exact ⟨both.1,both.2⟩
  | @uncalled purpose units call why at_ ended =>
    cases purpose with
    | lambdaSweep | initialPrepay | topUp => exact ⟨part,small⟩
    | settle =>
      simp only [chequeFailed]
      split
      · split <;> exact ⟨part,small⟩
      · exact ⟨part,small⟩
  | refuse at_ absent refused =>
    cases Pacer.admit_refused refused
    exact ⟨(queuedUnits_suffix (Pacer.prune_suffix _ c.now)).trans part,small⟩
  | admitOne at_ absent admitted =>
    obtain ⟨mirror,reserved,rfl⟩ := Pacer.admit_admitted admitted
    exact ⟨(queuedUnits_suffix (Pacer.prune_suffix s.pacer c.now)).trans part,small⟩
  | @refreshed units at_ =>
    have settled : settles s (.accepted units) = (units.map Fin.val).getD 0 := by simp only [settles,at_]
    rw [settled] at fits
    have whole := wrapAdd_exact fits
    refine ⟨?_,?_⟩
    · simp only [Pacer.refreshed,whole]
      exact part.trans (Nat.le_add_right _ _)
    · simp only [Pacer.refreshed,whole]
      exact fits
  | @probeAgain t0 zeroAt zeroAt' units at_ wake settled | @probeEnd t0 zeroAt units at_ lambda settled =>
    have accepted : settles s (.accepted units) = (units.map Fin.val).getD 0 := by simp only [settles,at_]
    rw [accepted] at fits
    have whole := wrapAdd_exact fits
    rcases probing_settled at_ taken with same | same <;> simp only at same
    · exact ⟨part.trans same.ge,same.trans_lt small⟩
    · refine ⟨part.trans ?_,?_⟩ <;> simp only <;> omega
  | settled at_ =>
    rcases settle_cases plan c s with same | ⟨units,-,-,-,same⟩ | same <;> rw [same] <;> exact ⟨part,small⟩
  | _ => exact ⟨part,small⟩

omit [DecidableEq A] [DecidableEq B] in
/-- A turn that settles in advance sends what was wanted beyond the prepaid units. -/
theorem settle_ahead {plan : Plan A} {c : Common A B} {s : Session A B} (mode : topsUp plan s = true)
    (affordable : Affordable c s) : settle plan c s =
      if chequeDue c s = true ∧ s.pacer.prepaid + satMul s.pacer.avgPrice 10 < desired c s then
        startEmit s .topUp (desired c s - s.pacer.prepaid)
      else { s with phase := .turning } := by
  obtain ⟨worth,wanted,compared⟩ := affordable
  have product : wrapMul (work c s) s.pacer.avgPrice = work c s * s.pacer.avgPrice := Nat.mod_eq_of_lt worth
  have whole : wrapAdd s.pacer.mirror.balance (min (wrapMul (work c s) s.pacer.avgPrice) (satMul s.pacer.avgPrice 250)) =
      desired c s := by
    rw [product]
    exact wrapAdd_exact wanted
  have turn : settle plan c s = if topsUp plan s = true then
      if (chequeDue c s && wrapAdd s.pacer.prepaid (satMul s.pacer.avgPrice 10) < wrapAdd s.pacer.mirror.balance
          (min (wrapMul (work c s) s.pacer.avgPrice) (satMul s.pacer.avgPrice 250))) = true then
        startEmit s .topUp (wrapSub (wrapAdd s.pacer.mirror.balance
          (min (wrapMul (work c s) s.pacer.avgPrice) (satMul s.pacer.avgPrice 250))) s.pacer.prepaid)
      else { s with phase := .turning }
    else _ := rfl
  rw [turn,if_pos mode,whole]
  cases due : chequeDue c s with
  | false => simp
  | true =>
    have sum : wrapAdd s.pacer.prepaid (satMul s.pacer.avgPrice 10) = s.pacer.prepaid + satMul s.pacer.avgPrice 10 :=
      wrapAdd_exact (compared due)
    rw [sum]
    by_cases short : s.pacer.prepaid + satMul s.pacer.avgPrice 10 < desired c s
    · rw [wrapSub_exact (by omega) wanted]
      simp [short]
    · simp [short]

omit [DecidableEq A] [DecidableEq B] in
theorem ahead_idle {s : Session A B} (idle : ahead s.phase = none) : Ahead s := by
  intro units sends
  rw [idle] at sends
  cases sends

omit [DecidableEq A] [DecidableEq B] in
theorem ahead_sends {s : Session A B} {units : Nat} (sends : ahead s.phase = some units)
    (fits : s.pacer.prepaid + units < 2 ^ 64) : Ahead s := by
  intro other same
  rw [sends] at same
  cases same
  exact fits

omit [DecidableEq A] [DecidableEq B] in
theorem ahead_settle {plan : Plan A} {c : Common A B} {s : Session A B}
    (affordable : topsUp plan s = true → Affordable c s) : Ahead (settle plan c s) := by
  rcases settle_cases plan c s with same | ⟨units,prepay,working,onward,same⟩ | same
  · rw [same]
    exact ahead_idle rfl
  · have mode : topsUp plan s = true := by simp [topsUp,prepay,working,onward]
    have wanted := (affordable mode).wanted
    rw [settle_ahead mode (affordable mode)]
    split
    · next sends =>
      refine ahead_sends rfl ?_
      simp only [startEmit]
      omega
    · exact ahead_idle rfl
  · rw [same]
    exact ahead_idle rfl

theorem ahead_step {plan : Plan A} {c c' : Common A B} {s s' : Session A B} {act : Act} (before : Ahead s)
    (affordable : toppingUp plan s act = true → Affordable c s)
    (moves : Moves plan c s act c' s') : Ahead s' := by
  cases moves with
  | hungUp | announced t | taskServed at_ | taskFailed at_ | taskStored at_ | taskSent at_ =>
    exact fun units sends => before units sends
  | settled at_ => exact ahead_settle fun mode => affordable (by simpa only [toppingUp,at_] using mode)
  | prepayBegin at_ mode short =>
    rw [noteLambda_eq]
    refine ahead_sends rfl ?_
    simp only [startEmit]
    omega
  | @calling purpose units call call' act bank at_ taken =>
    rw [Ahead,at_] at before
    cases purpose with
    | initialPrepay | topUp => exact ahead_sends rfl (before _ rfl)
    | lambdaSweep | settle => exact ahead_idle rfl
  | @called purpose units call outcome at_ ended => cases purpose <;> exact ahead_idle rfl
  | @uncalled purpose units call why at_ ended =>
    cases purpose with
    | lambdaSweep | initialPrepay | topUp => exact ahead_idle rfl
    | settle =>
      simp only [chequeFailed]
      split
      · split <;> exact ahead_idle rfl
      · exact ahead_idle rfl
  | driveBegin at_ enough => rw [noteLambda_eq]; exact ahead_idle rfl
  | _ => exact ahead_idle rfl

omit [DecidableEq B] in
/-- Whoever is granted a fetch has asked for it. -/
theorem admits_asked {plan : Plan A} {c : Common A B} {s : Session A B} {act : Act} (admitted : admits plan c s act = true) :
    admitting c s act = true := by
  unfold admits at admitted
  split at admitted
  · next addr at_ =>
    simp only [Bool.and_eq_true] at admitted
    simp only [admitting,at_]
    exact admitted.1
  · cases admitted

/-- What holds of a connection whose steps are taken within it. -/
structure Sized (plan : Plan A) (surplus : Nat) (st : Audited A B) : Prop where
  kept : Kept plan surplus st
  queued : Queued st.session
  ahead : Ahead st.session

omit [DecidableEq A] [DecidableEq B] in
theorem sized_spawn (plan : Plan A) (c : Common A B) (overlay : A) (bucket : Nat) (beneficiary : B)
    (known : Option Known) (warm : Option (Nat × Option U256)) :
    Sized plan (startSurplus plan (spawn overlay bucket beneficiary known warm))
      ⟨c,spawn overlay bucket beneficiary known warm,0,0⟩ := by
  refine ⟨kept_spawn plan c overlay bucket beneficiary known warm,⟨Nat.zero_le _,Nat.two_pow_pos 64⟩,?_⟩
  cases warm <;> exact ahead_idle rfl

theorem sized_step {plan : Plan A} {surplus : Nat} {st next : Audited A B} {event : Seen (Common A B) Act}
    (sized : Sized plan surplus st) (within : Within plan st event) (taken : audit plan st event = some next) :
    Sized plan surplus next := by
  obtain ⟨kept,queued,ahead⟩ := sized
  cases event with
  | others c =>
    have exact_ : GateExact plan st (.others c) := trivial
    have stays := kept_step kept exact_ taken
    cases taken
    exact ⟨stays,queued,ahead⟩
  | own act =>
    obtain ⟨⟨c',s'⟩,moved,same⟩ := Option.map_eq_some_iff.mp taken
    have moves := step_moves moved
    have exact_ : GateExact plan st (.own act) := fun admitted => (within.reserve (admits_asked admitted)).2
    refine ⟨kept_step kept exact_ taken,?_,?_⟩
    · cases same
      exact queued_step queued within.settled moved
    · cases same
      exact ahead_step ahead within.topUp moves

/-! ### Whole connections -/

theorem allExact_reserve {m : Mirror} {price limit : Nat} (low : limit < u64Max) : AllExact (reserveOps m price limit) := by
  unfold reserveOps
  split
  · exact allExact_nil
  · next within =>
    have fits := (Mirror.tryReserve_exact low (if_neg within)).1
    have top := u64Max_succ
    simp only [allExact_cons,exact_add,allExact_nil,and_true]
    omega

omit [DecidableEq A] [DecidableEq B] in
/-- What is owed and reserved fits into 64 bits. -/
theorem debt_fits {plan : Plan A} {surplus : Nat} {st : Audited A B} (kept : Kept plan surplus st)
    (opened : unopened st.session.phase = false) :
    st.session.pacer.mirror.balance + st.session.pacer.mirror.reserved < 2 ^ 64 := by
  have fits := kept.covered.fits
  rw [account_opened opened] at fits
  rw [kept_reserved kept]
  have top := u64Max_succ
  simp only at fits
  omega

theorem allExact_accepted {p : Pacer} {units : Nat} (fits : p.settledUnits + units < 2 ^ 64) :
    AllExact (acceptedOps p units) := by
  unfold acceptedOps
  split
  · simpa using fits
  · exact allExact_nil

theorem allExact_admit {p : Pacer} {now price : Nat} (queued : queuedUnits p.unvalidated < 2 ^ 64)
    (sum : p.prepaid + satMul p.threshold 105 / 100 < 2 ^ 64) (low : (p.prune now).admitLimit < u64Max) :
    AllExact (admitOps p now price) := by
  have window : max lambdaMinMs (min p.lambdaMs lambdaMaxMs) * 3 < 2 ^ 64 := by
    unfold lambdaMinMs lambdaMaxMs
    omega
  have pruned : 0 + queuedUnits (p.prune now).unvalidated < 2 ^ 64 := by
    have fewer := queuedUnits_suffix (Pacer.prune_suffix p now)
    omega
  simp only [admitOps,unvalidatedOps,windowOps,allExact_append,allExact_cons,allExact_nil,exact_add,exact_mul,and_true]
  exact ⟨⟨window,allExact_sumOps pruned⟩,sum,allExact_reserve low⟩

omit [DecidableEq A] [DecidableEq B] in
theorem allExact_topUp {c : Common A B} {s : Session A B} (affordable : Affordable c s) : AllExact (topUpOps c s) := by
  obtain ⟨worth,wanted,compared⟩ := affordable
  simp only [topUpOps,allExact_cons,exact_add,exact_mul]
  refine ⟨worth,wanted,?_⟩
  split
  · next due =>
    simp only [allExact_cons,exact_add]
    refine ⟨compared due,?_⟩
    split
    · simp only [allExact_cons,exact_sub,allExact_nil,and_true]
      omega
    · exact allExact_nil
  · exact allExact_nil

omit [DecidableEq B] in
/-- A step that is taken within it does not overflow. -/
theorem conn_step {plan : Plan A} {surplus : Nat} {st : Audited A B} {event : Seen (Common A B) Act}
    (sized : Sized plan surplus st) (within : Within plan st event) : Exact plan st event := by
  obtain ⟨kept,queued,ahead⟩ := sized
  cases event with
  | others c => trivial
  | own act =>
    obtain ⟨measure,reserve,topUp,settled⟩ := within
    show AllExact (connOps plan st.common st.session act)
    unfold connOps
    split
    · next at_ =>
      split
      · next mode =>
        have low := measure (by simpa only [measuring,at_] using mode)
        simp only [allExact_cons,exact_mul,allExact_nil,and_true]
        exact ⟨by omega,by decide⟩
      · exact allExact_nil
    · next m addr at_ =>
      have low := kept.half_low
      rw [at_] at low
      split
      · exact allExact_nil
      · exact allExact_reserve low
    · simp only [allExact_cons,exact_mul,allExact_nil,and_true]
      decide
    · next units t0 zeroAt at_ =>
      refine allExact_accepted ?_
      simpa only [settles,at_] using settled
    · next at_ =>
      split
      · simpa using debt_fits kept (by rw [at_]; rfl)
      · exact allExact_nil
    · next addr at_ =>
      split
      · exact allExact_nil
      · next absent =>
        obtain ⟨sum,low⟩ := reserve (by simpa only [admitting,at_,decide_eq_true_eq] using absent)
        exact allExact_admit (queued.part.trans_lt queued.small) sum low
    · next units at_ =>
      refine allExact_accepted ?_
      simpa only [settles,at_] using settled
    · next at_ =>
      split
      · next mode => exact allExact_topUp (topUp (by simpa only [toppingUp,at_] using mode))
      · exact allExact_nil
    · next purpose units b debt outcome at_ =>
      simp only [settles,at_] at settled
      rw [Ahead,at_] at ahead
      cases purpose with
      | lambdaSweep | settle => simpa [paidOps] using settled
      | initialPrepay | topUp =>
        have fits := ahead units rfl
        simp only [paidOps,allExact_cons,exact_add,allExact_nil,and_true]
        exact ⟨fits,settled⟩
    · exact allExact_nil

/-- A connection whose steps are all taken within it is free of overflows. -/
theorem conn_exact {plan : Plan A} {c : Common A B} {overlay : A} {bucket : Nat} {beneficiary : B}
    {known : Option Known} {warm : Option (Nat × Option U256)} {events : List (Seen (Common A B) Act)}
    (within : Meets (audit plan) (Within plan) ⟨c,spawn overlay bucket beneficiary known warm,0,0⟩ events) :
    Meets (audit plan) (Exact plan) ⟨c,spawn overlay bucket beneficiary known warm,0,0⟩ events :=
  meets_of_invariant (fun _ _ _ => sized_step) (fun _ _ => conn_step)
    (sized_spawn plan c overlay bucket beneficiary known warm) within

end Directswarm.Overflow
