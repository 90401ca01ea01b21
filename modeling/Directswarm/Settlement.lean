import Mathlib.Algebra.Order.BigOperators.Group.List
import Directswarm.Accounts

/-!
Paying as one goes: a connection without prepayment settles by cheques, which its
mirror is credited with at once, and by refreshes, which the peer accepts for what
it sees as the debt. The peer sees a cheque only when it has validated it, so a
refresh in between may be accepted for units that the cheque has paid: the mirror is
credited with no more than it shows, and the next cheque pays the rest again
(`refresh_paid_twice`). What the probes of the latency measurement are accepted for
is credited nowhere. As long as the peer accepts nothing that a cheque in validation
pays, every unit is settled once (`settled_once`).
-/
namespace Directswarm.Settlement
open Directswarm.Words Directswarm.Runs Directswarm.Interleaving Directswarm.Cheques Directswarm.Pacing
  Directswarm.WorkPool Directswarm.Connection Directswarm.Accounts

/-- A connection with a tally of prices consumed, of the units of its cheques, and of
    the units accepted for refreshes of `drive` and for probes; and the cheques
    that the peer is validating. -/
structure Tallied (A B : Type) where
  common : Common A B
  session : Session A B
  consumed : Nat
  cheques : Nat
  refreshed : Nat
  probed : Nat
  validating : List Nat

inductive Event (A B : Type)
  | own (act : Act)
  | others (c : Common A B)
  /-- The peer has validated a cheque. -/
  | validate (k : Nat)

variable {A B : Type}

/-- The units of a cheque whose emission returns. -/
def chequed (s : Session A B) (act : Act) : Nat :=
  match act, s.phase with
  | .go, .emitting _ units ⟨_,_,.ended (.ok _)⟩ => units
  | _, _ => 0

/-- The units that a refresh is accepted for. -/
def refreshed (s : Session A B) (act : Act) : Nat :=
  match act, s.phase with
  | .accepted (some units), .refreshing => units.val
  | _, _ => 0

/-- The units that a probe of the latency measurement is accepted for. -/
def probed (s : Session A B) (act : Act) : Nat :=
  match act, s.phase with
  | .accepted (some units), .probing _ _ => units.val
  | _, _ => 0

/-- The debt as the peer sees it: consumption less validated cheques less accepted
    refreshes and probes. -/
def peerView (st : Tallied A B) : Nat :=
  st.consumed - (st.cheques - st.validating.sum) - st.refreshed - st.probed

/-- The peer accepts no more than it sees as debt. -/
def Honest (st : Tallied A B) : Event A B → Prop
  | .own act => refreshed st.session act + probed st.session act ≤ peerView st
  | _ => True

/-- The peer accepts no more than it sees as debt besides the cheques that it is
    validating. -/
def Outstanding (st : Tallied A B) : Event A B → Prop
  | .own act => refreshed st.session act + probed st.session act ≤ peerView st - st.validating.sum
  | _ => True

instance (st : Tallied A B) : (event : Event A B) → Decidable (Honest st event)
  | .own _ => inferInstanceAs (Decidable (_ ≤ _))
  | .others _ | .validate _ => isTrue trivial

instance (st : Tallied A B) : (event : Event A B) → Decidable (Outstanding st event)
  | .own _ => inferInstanceAs (Decidable (_ ≤ _))
  | .others _ | .validate _ => isTrue trivial

/-- What the connection has consumed and paid. -/
def Tallied.audited (st : Tallied A B) : Audited A B := ⟨st.common,st.session,st.consumed,st.cheques + st.refreshed⟩

/-- The sweep of the latency measurement is for all that is owed, and nothing is while
    the peer is probed; a cheque of `drive` is for no more than is owed. -/
def Due (s : Session A B) : Prop :=
  match s.phase with
  | .measurePause _ debt => debt = s.pacer.mirror.balance
  | .emitting .lambdaSweep units _ => units = s.pacer.mirror.balance
  | .emitting .settle units _ => units ≤ s.pacer.mirror.balance
  | .probePause _ _ _ | .probing _ _ => s.pacer.mirror.balance = 0
  | _ => True

theorem payment_units (s : Session A B) (act : Act) : (payment s act).units = chequed s act + refreshed s act := by
  unfold payment
  split
  · next at_ => simp [Payment.units,chequed,refreshed,at_]
  · next units at_ => cases units <;> simp [Payment.units,chequed,refreshed,at_]
  · rename_i act _ _ uncheque unrefreshed
    have unpaid : chequed s act = 0 := by
      unfold chequed
      split
      · next at_ => exact absurd at_ (uncheque _ _ _ _ _ rfl)
      · rfl
    have unaccepted : refreshed s act = 0 := by
      unfold refreshed
      split
      · next at_ => exact absurd at_ (unrefreshed _ rfl)
      · rfl
    rw [unpaid,unaccepted]
    rfl

/-- Debt grows where no sweep is under way. -/
theorem due_grown {s s' : Session A B} (due : Due s) (busy : s.phase.early = false) (phase : s'.phase = s.phase)
    (grown : s.pacer.mirror.balance ≤ s'.pacer.mirror.balance) : Due s' := by
  unfold Due at due ⊢
  rw [phase]
  split
  · next at_ => rw [at_] at busy; cases busy
  · next at_ => rw [at_] at busy; cases busy
  · next at_ =>
    rw [at_] at due
    exact le_trans due grown
  · next at_ => rw [at_] at busy; cases busy
  · next at_ => rw [at_] at busy; cases busy
  · trivial

section Steps
variable [DecidableEq A] [DecidableEq B]

def tally (plan : Plan A) (st : Tallied A B) : Event A B → Option (Tallied A B)
  | .own act => (sessionStep plan st.common st.session act).map fun moved => {
      common := moved.1
      session := moved.2
      consumed := st.consumed + served st.session act
      cheques := st.cheques + chequed st.session act
      refreshed := st.refreshed + refreshed st.session act
      probed := st.probed + probed st.session act
      validating := if chequed st.session act = 0 then st.validating else st.validating ++ [chequed st.session act] }
  | .others c => some { st with common := c }
  | .validate k => if k < st.validating.length then some { st with validating := st.validating.eraseIdx k } else none

variable {plan : Plan A} {c c' : Common A B} {s s' : Session A B} {act : Act} {st next : Tallied A B}

/-- What is settled and what the mirror shows was consumed; the cheques in validation
    are among those sent. -/
structure SettledOnce (plan : Plan A) (st : Tallied A B) : Prop where
  kept : Kept plan 0 st.audited
  due : Due st.session
  prepaid : st.session.pacer.prepaid = 0
  emitting : prepays st.session.phase = false
  part : st.validating.sum ≤ st.cheques
  once : st.cheques + st.refreshed + st.probed + st.session.pacer.mirror.balance ≤ st.consumed

/-! ### One step -/

theorem due_step (idle : Idle s) (due : Due s) (payg : plan.prepay = false) (small : s.pacer.mirror.balance ≤ u64Max)
    (moves : Moves plan c s act c' s') : Due s' := by
  have driving : ∀ {k : Nat} {task : FetchTask A}, s.tasks[k]? = some task → s.phase.early = false := by
    intro k task at_
    by_contra early
    have none_ := (idle.early (Bool.not_eq_false _ ▸ early)).1
    simp [none_] at at_
  cases moves with
  | hungUp | announced t => exact due
  | taskServed at_ => exact due_grown due (driving at_) rfl (le_satAdd small _)
  | taskFailed at_ | taskStored at_ | taskSent at_ => exact due_grown due (driving at_) rfl le_rfl
  | measureWait at_ => exact (rfl : s.pacer.mirror.balance = _)
  | sweepBegin at_ woken =>
    unfold Due at due
    rw [at_] at due
    exact due
  | @calling purpose units call call' act bank at_ taken =>
    unfold Due at due
    rw [at_] at due
    cases purpose with
    | lambdaSweep | settle => exact due
    | initialPrepay | topUp => trivial
  | @called purpose units call outcome at_ ended =>
    unfold Due at due
    rw [at_] at due
    cases purpose with
    | lambdaSweep =>
      -- all that is owed is paid
      exact Nat.sub_eq_zero_of_le (ge_of_eq due)
    | settle | initialPrepay | topUp => trivial
  | @uncalled purpose units call why at_ ended =>
    cases purpose with
    | lambdaSweep | initialPrepay | topUp => trivial
    | settle =>
      simp only [chequeFailed]
      split
      · split <;> trivial
      · trivial
  | probeBegin at_ woken =>
    unfold Due at due
    rw [at_] at due
    exact due
  | probeAgain at_ wake settled =>
    unfold Due at due
    rw [at_] at due
    exact due
  | settled at_ =>
    rcases settle_cases plan c s with same | ⟨units,mode,-⟩ | same
    · rw [same]
      trivial
    · rw [payg] at mode
      cases mode
    · rw [same]
      exact Nat.sub_le _ _
  | _ => trivial

omit [DecidableEq A] [DecidableEq B] in
/-- Before the connection opens the account shows nothing, like the mirror. -/
theorem account_mirror {surplus : Nat} {audited : Audited A B} (kept : Kept plan surplus audited) :
    (account plan audited.session).mirror = audited.session.pacer.mirror := by
  cases open_ : unopened audited.session.phase with
  | true => rw [(kept.reported.fresh open_).1,account,if_pos open_]
  | false => rw [account_opened open_]

omit [DecidableEq A] [DecidableEq B] in
theorem account_prepaid {audited : Audited A B} (kept : Kept plan 0 audited) (prepaid : audited.session.pacer.prepaid = 0) :
    (account plan audited.session).prepaid = 0 := by
  cases open_ : unopened audited.session.phase with
  | true =>
    rw [account,if_pos open_]
    exact kept.start
  | false =>
    rw [account_opened open_]
    exact prepaid

/-- An entry that pays no more than the mirror shows settles nothing twice. -/
theorem once_entry {settled consumed price : Nat} {payment : Payment} {t : Terms} {a a' : Account}
    (entry : Entry t a price payment a') (once : settled + a.mirror.balance ≤ consumed) (within : payment.units ≤ a.mirror.balance)
    (small : a.mirror.balance ≤ u64Max) (prepaid : a.prepaid = 0) (prepaid' : a'.prepaid = 0) :
    settled + payment.units + a'.mirror.balance ≤ consumed + price := by
  cases entry with
  | none | prune => simpa [Payment.units,Account.prune] using once
  | admitOne asked reserved | measure reserved =>
    obtain ⟨-,rfl⟩ := Mirror.tryReserve_some.mp reserved
    simpa [Payment.units] using once
  | @serve price rest flying =>
    have grown := satAdd_le a.mirror.balance price
    simp only [Payment.units,Mirror.apply]
    omega
  | fail flying => simpa [Payment.units,Mirror.release] using once
  | @cheque units | @refresh units =>
    simp only [Payment.units,Mirror.credit] at within ⊢
    omega
  | @prepay units =>
    simp only [Payment.units] at within ⊢
    have top := u64Max_succ
    have whole : wrapAdd a.prepaid units = a.prepaid + units := wrapAdd_exact (by omega)
    simp only [whole] at prepaid'
    omega

omit [DecidableEq A] [DecidableEq B] in
/-- No cheque and no refresh is for more than the mirror shows, and no probe for anything. -/
theorem outstanding_within (inv : SettledOnce plan st) (outstanding : Outstanding st (.own act)) :
    (payment st.session act).units ≤ st.session.pacer.mirror.balance ∧ probed st.session act = 0 := by
  have owed := kept_owed inv.kept
  have part := inv.part
  have accepted : refreshed st.session act + probed st.session act ≤ peerView st - st.validating.sum := outstanding
  simp only [Tallied.audited,peerView,inv.prepaid] at owed accepted
  constructor
  · rw [payment_units]
    cases paid : chequed st.session act with
    | zero => omega
    | succ n =>
      have due := inv.due
      have emitting := inv.emitting
      unfold chequed at paid
      split at paid
      · next purpose units b debt outcome at_ =>
        unfold Due at due
        rw [at_] at due emitting
        have unrefreshed : refreshed st.session .go = 0 := rfl
        rw [unrefreshed,← paid]
        cases purpose with
        | lambdaSweep => exact ge_of_eq due.symm
        | settle => exact due
        | initialPrepay | topUp => cases emitting
      · cases paid
  · by_contra some_
    have due := inv.due
    have here : ∃ t0 zeroAt, st.session.phase = .probing t0 zeroAt := by
      unfold probed at some_
      split at some_
      · next at_ => exact ⟨_,_,at_⟩
      · exact absurd rfl some_
    obtain ⟨t0,zeroAt,at_⟩ := here
    unfold Due at due
    rw [at_] at due
    simp only at due
    omega

omit [DecidableEq B] in
/-- Without prepaid units the limit of the gate is 105% of a 64-bit threshold at most. -/
theorem payg_exact {audited : Audited A B} (prepaid : audited.session.pacer.prepaid = 0) (act : Act) :
    GateExact plan audited (.own act) := by
  intro admitted
  have gate : satMul audited.session.pacer.threshold 105 ≤ u64Max := Nat.min_le_right _ _
  have sum := wrapAdd_le 0 (satMul audited.session.pacer.threshold 105 / 100)
  have limit : (audited.session.pacer.prune audited.common.now).admitLimit ≤
      wrapAdd audited.session.pacer.prepaid (satMul audited.session.pacer.threshold 105 / 100) := Nat.sub_le _ _
  rw [prepaid] at limit
  have top := u64Max_succ
  omega

theorem settledOnce_own (payg : plan.prepay = false) (inv : SettledOnce plan st) (outstanding : Outstanding st (.own act))
    (taken : tally plan st (.own act) = some next) : SettledOnce plan next := by
  obtain ⟨⟨c',s'⟩,moved,rfl⟩ := Option.map_eq_some_iff.mp taken
  have moves := step_moves moved
  have idle := inv.kept.idle
  obtain ⟨within,unprobed⟩ := outstanding_within inv outstanding
  have units := payment_units st.session act
  obtain ⟨prepaid,emitting⟩ := prepaid_step payg inv.prepaid inv.emitting moves
  have kept : Kept plan 0 ⟨c',s',st.consumed + served st.session act,
      st.cheques + chequed st.session act + (st.refreshed + refreshed st.session act)⟩ := by
    have audited : audit plan st.audited (.own act) = some ⟨c',s',st.consumed + served st.session act,
        st.cheques + st.refreshed + (payment st.session act).units⟩ := Option.map_eq_some_iff.mpr ⟨(c',s'),moved,rfl⟩
    have kept := kept_step inv.kept (payg_exact inv.prepaid act) audited
    rw [units,Nat.add_add_add_comm] at kept
    exact kept
  have mirror := account_mirror inv.kept
  have small : st.session.pacer.mirror.balance ≤ u64Max := by
    have fits := inv.kept.covered.fits
    rw [mirror] at fits
    exact (Nat.le_add_right _ _).trans fits
  have once : st.cheques + st.refreshed + st.probed + (payment st.session act).units + (account plan s').mirror.balance ≤
      st.consumed + served st.session act := once_entry (step_entry idle moves) (mirror ▸ inv.once) (mirror ▸ within) (mirror ▸ small)
    (account_prepaid inv.kept inv.prepaid) (account_prepaid kept prepaid)
  have mirror' : (account plan s').mirror = s'.pacer.mirror := account_mirror kept
  refine ⟨kept,due_step idle inv.due payg small moves,prepaid,emitting,?_,?_⟩
  · have part := inv.part
    simp only
    split
    · omega
    · rw [List.sum_append,List.sum_singleton]
      omega
  · rw [mirror',units] at once
    simp only [unprobed]
    omega

theorem settledOnce_step (payg : plan.prepay = false) {event : Event A B} (inv : SettledOnce plan st)
    (outstanding : Outstanding st event) (taken : tally plan st event = some next) : SettledOnce plan next := by
  cases event with
  | own act => exact settledOnce_own payg inv outstanding taken
  | others c =>
    cases taken
    exact ⟨⟨inv.kept.idle,inv.kept.reported,inv.kept.start,inv.kept.half_low,inv.kept.covered⟩,inv.due,inv.prepaid,
      inv.emitting,inv.part,inv.once⟩
  | validate k =>
    simp only [tally] at taken
    split at taken
    · cases taken
      have fewer : (st.validating.eraseIdx k).sum ≤ st.validating.sum :=
        (List.eraseIdx_sublist _ _).sum_le_sum (by simp)
      exact ⟨inv.kept,inv.due,inv.prepaid,inv.emitting,fewer.trans inv.part,inv.once⟩
    · cases taken

/-! ### Whole connections -/

/-- A connection as it is spawned, with nothing tallied. -/
def fresh (c : Common A B) (s : Session A B) : Tallied A B := ⟨c,s,0,0,0,0,[]⟩

omit [DecidableEq A] [DecidableEq B] in
theorem settledOnce_spawn (payg : plan.prepay = false) (c : Common A B) (overlay : A) (bucket : Nat) (beneficiary : B)
    (known : Option Known) (warm : Option (Nat × Option U256)) :
    SettledOnce plan (fresh c (spawn overlay bucket beneficiary known warm)) := by
  have kept := kept_spawn plan c overlay bucket beneficiary known warm
  have none_ : startSurplus plan (spawn overlay bucket beneficiary known warm) = 0 := by simp [startSurplus,payg]
  rw [none_] at kept
  cases warm <;> exact ⟨kept,trivial,rfl,rfl,le_rfl,le_rfl⟩

/-- The units of the cheque that `drive` is emitting. -/
def driveCheque : Phase A B → Option Nat
  | .emitting .settle units _ => some units
  | _ => none

/-- While `drive` emits a cheque, its units, those of the cheques before it, and those
    that the peer has accepted for refreshes and probes are together at most what was
    consumed, if the peer accepts nothing that a cheque in validation pays. -/
theorem settled_once (plan : Plan A) (payg : plan.prepay = false) (c : Common A B) (overlay : A) (bucket : Nat)
    (beneficiary : B) (known : Option Known) (warm : Option (Nat × Option U256)) (events : List (Event A B))
    (final : Tallied A B) (units : Nat)
    (outstanding : Meets (tally plan) Outstanding (fresh c (spawn overlay bucket beneficiary known warm)) events)
    (reached : run (tally plan) (fresh c (spawn overlay bucket beneficiary known warm)) events = some final)
    (emitting : driveCheque final.session.phase = some units) :
    final.cheques + units + (final.refreshed + final.probed) ≤ final.consumed := by
  have inv := run_guarded (fun _ _ _ => settledOnce_step payg)
    (settledOnce_spawn payg c overlay bucket beneficiary known warm) outstanding reached
  have due := inv.due
  have once := inv.once
  unfold driveCheque at emitting
  split at emitting
  · next at_ =>
    cases emitting
    unfold Due at due
    rw [at_] at due
    simp only at due
    omega
  · cases emitting

end Steps

/-! ### A refresh that is accepted for what a cheque has paid -/

/-- A run towards a peer that asks 300000 units a chunk, one chunk at a time. -/
def asItGoes : Plan Nat where
  lim := ⟨1000000000000,10 ^ 12,trillion_fits⟩
  pipeline := 1
  measureLambda := false
  prepay := false
  parkInto := false
  peerPrice := fun _ _ => 300000
  peerPrice_lt := fun _ _ => by decide

/-- What the connections share at a time while bucket 5 holds some addresses, others are
    stored and some cheques are written. -/
def bucket (now : Nat) (addrs : List Nat) (stored : Finset Nat) (bank : Bank Nat) : Common Nat Nat :=
  ⟨now * ms,AList.singleton (5 : Nat) addrs,stored,[],false,0,bank⟩

def opened : Common Nat Nat := bucket 0 [1,2,3] ∅ ⟨0,∅,[]⟩

/-- The bank after the first cheque. -/
def paidOnce : Bank Nat := ⟨30000000000,(∅ : Finmap fun _ : Nat => U256).insert 2 30000000000,[⟨2,30000000000,30000000000⟩]⟩

def goes (n : Nat) : List (Event Nat Nat) := List.replicate n (.own .go)

/-- From the head of a turn, a chunk is fetched and stored. -/
def fetches : List (Event Nat Nat) := goes 4 ++ ([.own (.task 0 true),.own (.task 0 true)] : List (Event Nat Nat))

/-- A cheque, from the opened stream to its record. -/
def sends : List (Event Nat Nat) :=
  (reserving 100000 0 ++ signing ++ finishing).map (fun act => .own (.cheque act)) ++ goes 1

/-- The first chunk is paid with a cheque, which the peer goes on to validate; a refresh
    after the second one is accepted; and `drive` begins to emit a cheque for the third. -/
def refreshing (units : Fin (2 ^ 64)) : List (Event Nat Nat) :=
  [[.own (.answer true)],goes 2,fetches,goes 2,[.own (.accepted none)],goes 1,sends,goes 1,
    [.others (bucket 1100 [2,3] {1} paidOnce)],goes 1,fetches,goes 2,[.own (.accepted (some units))],goes 2,
    [.others (bucket 1700 [3] {1,2} paidOnce)],goes 1,fetches,goes 3].flatten

/-- The peer sees both chunks as debt, of which a cheque has paid the first. -/
theorem refresh_paid_twice : ∃ final,
    Meets (tally asItGoes) Honest (fresh opened (spawn 1 5 2 none none)) (refreshing 600000) ∧
    run (tally asItGoes) (fresh opened (spawn 1 5 2 none none)) (refreshing 600000) = some final ∧
    driveCheque final.session.phase = some 300000 ∧
    final.consumed = 900000 ∧ final.cheques + 300000 + (final.refreshed + final.probed) = 1200000 := by
  have ends : (run (tally asItGoes) (fresh opened (spawn 1 5 2 none none)) (refreshing 600000)).map
      (fun final => (driveCheque final.session.phase,final.consumed,final.cheques,final.refreshed,final.probed)) =
        some (some 300000,900000,300000,600000,0) := by decide +kernel
  obtain ⟨final,reached,same⟩ := Option.map_eq_some_iff.mp ends
  simp only [Prod.mk.injEq] at same
  obtain ⟨emitting,consumed,cheques,refreshed,probed⟩ := same
  exact ⟨final,by decide +kernel,reached,emitting,consumed,by rw [cheques,refreshed,probed]⟩

/-- The refresh is accepted for the second chunk only, while the cheque for the first
    one is validated. -/
theorem settled_once_third : ∃ final,
    run (tally asItGoes) (fresh opened (spawn 1 5 2 none none)) (refreshing 300000) = some final ∧
    final.cheques = 300000 ∧ final.refreshed = 300000 ∧ final.validating = [300000] ∧
    final.cheques + 300000 + (final.refreshed + final.probed) ≤ final.consumed := by
  have ends : (run (tally asItGoes) (fresh opened (spawn 1 5 2 none none)) (refreshing 300000)).map
      (fun final => (driveCheque final.session.phase,final.cheques,final.refreshed,final.validating)) =
        some (some 300000,300000,300000,[300000]) := by decide +kernel
  obtain ⟨final,reached,same⟩ := Option.map_eq_some_iff.mp ends
  simp only [Prod.mk.injEq] at same
  obtain ⟨emitting,cheques,refreshed,validating⟩ := same
  exact ⟨final,reached,cheques,refreshed,validating,settled_once asItGoes rfl opened 1 5 2 none none
    (refreshing 300000) final 300000 (by decide +kernel) reached emitting⟩

end Directswarm.Settlement
