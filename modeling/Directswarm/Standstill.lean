import Directswarm.Accounts

/-!
Where `drive` stands still: the head chunk is refused by `Pacer::admit`, nothing is
in flight and no cheque is validating, so only a payment can move the connection.
Whether the settlement of that turn sends one is decided by other inequalities than
the gate: a fifth of the threshold when it pays as it goes, ten prices of hysteresis
when it prepays. A gate that is wide enough for the price leaves no gap between them
(`never_wedged`); the default threshold is not wide enough for a prepaying
connection at the end of its bucket (`wedged`).
-/
namespace Directswarm.Standstill
open Directswarm.Words Directswarm.Runs Directswarm.Interleaving Directswarm.Cheques Directswarm.Pacing
  Directswarm.Connection Directswarm.WorkPool Directswarm.Accounts

variable {A B : Type}

/-- The largest price of a chunk. -/
def maxPrice : Nat := 320000

/-- The settlement is about to decide, the head chunk is refused, and a cheque may be sent. -/
structure Stuck (plan : Plan A) (c : Common A B) (s : Session A B) (addr : A) : Prop where
  at_ : s.phase = .settling
  onward : s.finishing = false ∧ s.halted = false
  pending : s.pending = some addr
  quiet : ∀ task ∈ s.tasks, task.stage = .done
  window : (s.pacer.prune c.now).unvalidated = []
  refused : (s.pacer.admitOne c.now (plan.peerPrice s.overlay addr)).2 = false
  due : Pacer.isDue s.pacer.lastCheque c.now chequeMinInterval = true

/-- The settlement is about to decide. -/
def decides : Phase A B → Bool
  | .settling => true
  | _ => false

theorem decides_iff {phase : Phase A B} : decides phase = true ↔ phase = .settling := by
  constructor
  · intro here
    cases phase <;> first | rfl | cases here
  · rintro rfl
    rfl

instance [DecidableEq A] (plan : Plan A) (c : Common A B) (s : Session A B) (addr : A) : Decidable (Stuck plan c s addr) :=
  decidable_of_iff (decides s.phase = true ∧ (s.finishing = false ∧ s.halted = false) ∧ s.pending = some addr ∧
      (∀ task ∈ s.tasks, task.stage = .done) ∧ (s.pacer.prune c.now).unvalidated = [] ∧
      (s.pacer.admitOne c.now (plan.peerPrice s.overlay addr)).2 = false ∧
      Pacer.isDue s.pacer.lastCheque c.now chequeMinInterval = true)
    ⟨fun ⟨at_,onward,pending,quiet,window,refused,due⟩ => ⟨decides_iff.mp at_,onward,pending,quiet,window,refused,due⟩,
      fun stuck => ⟨decides_iff.mpr stuck.at_,stuck.onward,stuck.pending,stuck.quiet,stuck.window,stuck.refused,stuck.due⟩⟩

/-- The chunks of the bucket besides the head, with the fetches that are still to be joined. -/
def left (c : Common A B) (s : Session A B) : Nat := remaining c.pool s.bucket + s.tasks.length

/-- 105% of the threshold, at 64 bits. -/
def gate (p : Pacer) : Nat := satMul p.threshold 105 / 100

/-- A cheque or a top-up is being attempted. -/
def attempts : Phase A B → Bool
  | .emitting _ _ _ => true
  | _ => false

/-- What the debt of a connection that stands still must reach: a fifth of the threshold;
    or, with the work that is left, ten prices more than was prepaid. -/
def Reaches (plan : Plan A) (c : Common A B) (s : Session A B) (price : Nat) : Prop :=
  if plan.prepay then
    wrapAdd s.pacer.prepaid (10 * price) <
      wrapAdd s.pacer.mirror.balance (min (wrapMul (left c s + 1) price) (250 * price))
  else s.pacer.threshold / 5 ≤ s.pacer.unpaid

/-- The gate is so wide for the price that it refuses only a debt that is settled. -/
def Wide (plan : Plan A) (c : Common A B) (s : Session A B) (price : Nat) : Prop :=
  if plan.prepay then
    (10 - left c s) * price ≤ gate s.pacer ∧ s.pacer.prepaid + max (gate s.pacer) (10 * price) < 2 ^ 64 ∧
      s.pacer.mirror.balance + 250 * price < 2 ^ 64 ∧ (left c s + 1) * price < 2 ^ 64
  else s.pacer.threshold < 5 ∨ s.pacer.threshold / 5 + price ≤ gate s.pacer + 1
  deriving Decidable

/-! ### What every run keeps -/

/-- No more is reserved than what is in flight, nothing is prepaid by a connection
    that pays as it goes, and the price of a chunk that is kept back is known. -/
structure Held (plan : Plan A) (s : Session A B) : Prop where
  idle : Idle s
  reserved : (account plan s).mirror.reserved ≤ (account plan s).inFlight
  prepaid : plan.prepay = false → s.pacer.prepaid = 0
  emitting : plan.prepay = false → prepays s.phase = false
  priced : ∀ addr ∈ s.pending, s.pacer.avgPrice = max (plan.peerPrice s.overlay addr) 1

theorem reserved_entry {t : Terms} {a a' : Account} {price : Nat} {payment : Payment} (entry : Entry t a price payment a')
    (le : a.mirror.reserved ≤ a.inFlight) : a'.mirror.reserved ≤ a'.inFlight := by
  cases entry with
  | none | prune | cheque | prepay | refresh => exact le
  | @admitOne price mirror asked reserved =>
    obtain ⟨-,rfl⟩ := Mirror.tryReserve_some.mp reserved
    have grown := wrapAdd_le a.mirror.reserved price
    simp only
    omega
  | @measure price mirror reserved =>
    obtain ⟨-,rfl⟩ := Mirror.tryReserve_some.mp reserved
    have grown := wrapAdd_le a.mirror.reserved price
    simp only
    omega
  | serve flying => simp only [Mirror.apply]; omega
  | fail flying => simp only [Mirror.release]; omega

theorem held_spawn (plan : Plan A) (overlay : A) (bucket : Nat) (beneficiary : B) (known : Option Known)
    (warm : Option (Nat × Option U256)) : Held plan (spawn overlay bucket beneficiary known warm) where
  idle := idle_spawn ..
  reserved := by
    have closed : unopened (spawn overlay bucket beneficiary known warm).phase = true := by cases warm <;> rfl
    simp [account,closed]
  prepaid := fun _ => rfl
  emitting := by cases warm <;> exact fun _ => rfl
  priced := nofun

variable [DecidableEq A] [DecidableEq B]

/-- A step keeps the price of the chunk that is kept back, or keeps none back. -/
theorem priced_step {plan : Plan A} {c c' : Common A B} {s s' : Session A B} {act : Act} (idle : Idle s)
    (priced : ∀ addr ∈ s.pending, s.pacer.avgPrice = max (plan.peerPrice s.overlay addr) 1)
    (moves : Moves plan c s act c' s') :
    ∀ addr ∈ s'.pending, s'.pacer.avgPrice = max (plan.peerPrice s'.overlay addr) 1 := by
  cases moves with
  | startMeasuring at_ | unmeasured at_ =>
    intro addr held
    rw [(idle.early (by rw [at_]; rfl)).2.1] at held
    cases held
  | prepayBegin at_ mode short | driveBegin at_ enough => rw [noteLambda_eq]; exact priced
  | drained at_ joined | halt at_ stopped halted | resume at_ onward room held => nofun
  | @refuse addr pacer at_ absent refused =>
    intro other held
    cases held
    rw [Pacer.admit_refused refused]
    rfl
  | @admitOne addr pacer at_ absent admitted =>
    intro other held
    rw [(idle.popped addr at_).2] at held
    cases held
  | @called purpose units call outcome at_ ended => cases purpose <;> exact priced
  | @uncalled purpose units call why at_ ended =>
    cases purpose with
    | lambdaSweep | initialPrepay | topUp => exact priced
    | settle =>
      simp only [chequeFailed]
      split
      · split <;> exact priced
      · exact priced
  | settled at_ => rcases settle_cases plan c s with same | ⟨units,-,-,-,same⟩ | same <;> rw [same] <;> exact priced
  | _ => exact priced

theorem held_step {plan : Plan A} (st : Common A B × Session A B) (event : Seen (Common A B) Act)
    (next : Common A B × Session A B) (held : Held plan st.2) (taken : seenStep (sessionStep plan) st event = some next) :
    Held plan next.2 := by
  cases event with
  | others c => cases taken; exact held
  | own act =>
    have moves := step_moves taken
    exact {
      idle := idle_step held.idle moves
      reserved := reserved_entry (step_entry held.idle moves) held.reserved
      prepaid := fun payg => (prepaid_step payg (held.prepaid payg) (held.emitting payg) moves).1
      emitting := fun payg => (prepaid_step payg (held.prepaid payg) (held.emitting payg) moves).2
      priced := priced_step held.idle held.priced moves }

theorem settling_step {plan : Plan A} {c : Common A B} {s : Session A B} (at_ : s.phase = .settling) :
    sessionStep plan c s .go = some (c,settle plan c s) := by
  have unopened_ : openStep plan c s .go = none := by unfold openStep; rw [at_]
  have unmeasured : measureStep plan c s .go = none := by unfold measureStep; rw [at_]
  have unsent : emitStep plan c s .go = none := by unfold emitStep; rw [at_]
  have decided : driveStep plan c s .go = some (c,settle plan c s) := by unfold driveStep; rw [at_]
  show (openStep plan c s .go <|> measureStep plan c s .go <|> emitStep plan c s .go <|> driveStep plan c s .go <|>
    closeStep plan c s .go) = _
  rw [unopened_,unmeasured,unsent,decided]
  rfl

/-! ### The settlement of a connection that stands still -/

section
omit [DecidableEq A] [DecidableEq B]
variable {plan : Plan A} {c : Common A B} {s : Session A B} {addr : A}

/-- Nothing is reserved, so the books alone refuse the price. -/
theorem stuck_refused (held : Held plan s) (stuck : Stuck plan c s addr) :
    wrapAdd s.pacer.prepaid (gate s.pacer) < satAdd (satAdd s.pacer.mirror.balance 0) (plan.peerPrice s.overlay addr) := by
  have none_ : s.pacer.mirror.reserved = 0 := by
    have le := held.reserved
    rw [account_opened (by rw [stuck.at_]; rfl)] at le
    simp only [inFlight,flying_joined stuck.quiet,stuck.at_,measured] at le
    omega
  have refused := stuck.refused
  have limit : (s.pacer.prune c.now).admitLimit = wrapAdd s.pacer.prepaid (gate s.pacer) := by
    unfold Pacer.admitLimit Pacer.queued
    rw [stuck.window]
    rfl
  unfold Pacer.admitOne at refused
  rw [limit] at refused
  by_cases past : wrapAdd s.pacer.prepaid (gate s.pacer) <
      satAdd (satAdd s.pacer.mirror.balance 0) (plan.peerPrice s.overlay addr)
  · exact past
  · have room : (s.pacer.prune c.now).mirror.tryReserve (plan.peerPrice s.overlay addr)
        (wrapAdd s.pacer.prepaid (gate s.pacer)) ≠ none := by
      show s.pacer.mirror.tryReserve _ _ ≠ none
      unfold Mirror.tryReserve
      rw [none_,if_neg past]
      exact Option.some_ne_none _
    obtain ⟨mirror,taken⟩ := Option.ne_none_iff_exists'.mp room
    rw [taken] at refused
    cases refused

/-- The settlement attempts a payment exactly when the debt reaches far enough. -/
theorem stuck_settle (priced : ∀ overlay addr, 1 ≤ plan.peerPrice overlay addr ∧ plan.peerPrice overlay addr ≤ maxPrice)
    (held : Held plan s) (stuck : Stuck plan c s addr) :
    attempts (settle plan c s).phase = true ↔ Reaches plan c s (plan.peerPrice s.overlay addr) := by
  obtain ⟨least,most⟩ := priced s.overlay addr
  have avg : s.pacer.avgPrice = plan.peerPrice s.overlay addr := by
    rw [held.priced addr stuck.pending,Nat.max_eq_left least]
  have small : satMul (plan.peerPrice s.overlay addr) 250 = 250 * plan.peerPrice s.overlay addr := by
    unfold satMul u64Max maxPrice at *
    omega
  have ten : satMul (plan.peerPrice s.overlay addr) 10 = 10 * plan.peerPrice s.overlay addr := by
    unfold satMul u64Max maxPrice at *
    omega
  have work : remaining c.pool s.bucket + s.tasks.length + s.pending.toList.length = left c s + 1 := by
    rw [stuck.pending]
    rfl
  unfold settle Reaches
  simp only [stuck.onward.1,stuck.onward.2,stuck.due,avg,small,ten,work,Bool.not_false,Bool.and_true,Bool.true_and,
    Bool.or_self,Bool.false_eq_true,if_false]
  cases plan.prepay with
  | true =>
    simp only [if_true,decide_eq_true_eq]
    split
    · next reaches => exact ⟨fun _ => reaches,fun _ => rfl⟩
    · next short => exact ⟨nofun,fun reaches => absurd reaches short⟩
  | false =>
    simp only [Bool.false_eq_true,if_false,decide_eq_true_eq]
    split
    · next reaches => exact ⟨fun _ => reaches,fun _ => rfl⟩
    · next short => exact ⟨nofun,fun reaches => absurd reaches short⟩

/-- Behind a wide gate a refused debt reaches far enough. -/
theorem wide_reaches (priced : ∀ overlay addr, 1 ≤ plan.peerPrice overlay addr ∧ plan.peerPrice overlay addr ≤ maxPrice)
    (held : Held plan s) (stuck : Stuck plan c s addr) (wide : Wide plan c s (plan.peerPrice s.overlay addr)) :
    Reaches plan c s (plan.peerPrice s.overlay addr) := by
  obtain ⟨least,-⟩ := priced s.overlay addr
  have refused := stuck_refused held stuck
  have outer := satAdd_le (satAdd s.pacer.mirror.balance 0) (plan.peerPrice s.overlay addr)
  have inner := satAdd_le s.pacer.mirror.balance 0
  generalize plan.peerPrice s.overlay addr = price at *
  unfold Wide at wide
  unfold Reaches
  cases mode : plan.prepay with
  | true =>
    simp only [mode,if_true] at wide ⊢
    obtain ⟨gap,surplus,debt,work⟩ := wide
    rw [wrapAdd_exact (by omega)] at refused ⊢
    have whole : wrapMul (left c s + 1) price = (left c s + 1) * price := Nat.mod_eq_of_lt work
    rw [whole,wrapAdd_exact (by omega)]
    by_cases many : 10 ≤ left c s
    · -- Eleven prices of work pass the ten of the hysteresis as soon as a price more than was prepaid is owed.
      have more : 11 * price ≤ (left c s + 1) * price := Nat.mul_le_mul_right _ (by omega)
      omega
    · have split : 10 * price = (10 - left c s) * price + left c s * price := by
        rw [← Nat.add_mul]
        congr 1
        omega
      have next : (left c s + 1) * price = left c s * price + price := Nat.succ_mul _ _
      have few : left c s * price ≤ 9 * price := Nat.mul_le_mul_right _ (by omega)
      omega
  | false =>
    simp only [mode,Bool.false_eq_true,if_false] at wide ⊢
    rw [held.prepaid mode,wrapAdd_exact (by unfold gate satMul u64Max; omega)] at refused
    unfold Pacer.unpaid
    rw [held.prepaid mode]
    rcases wide with tiny | room
    · omega
    · omega

end

/-- The drive loop and its gate. In every state that a connection reaches in which the
    head chunk is refused with nothing in flight and no cheque validating, the turn's
    settlement attempts a cheque or a top-up exactly when the debt reaches what the
    settlement asks for; behind a wide gate it always does, whatever the peer grants. -/
theorem never_wedged (plan : Plan A)
    (priced : ∀ overlay addr, 1 ≤ plan.peerPrice overlay addr ∧ plan.peerPrice overlay addr ≤ maxPrice)
    (c₀ : Common A B) (overlay : A) (bucket : Nat) (beneficiary : B) (known : Option Known)
    (warm : Option (Nat × Option U256)) (events : List (Seen (Common A B) Act)) (c : Common A B) (s : Session A B)
    (reached : run (seenStep (sessionStep plan)) (c₀,spawn overlay bucket beneficiary known warm) events = some (c,s))
    (addr : A) (stuck : Stuck plan c s addr) :
    ∃ next, sessionStep plan c s .go = some (c,next) ∧
      (attempts next.phase = true ↔ Reaches plan c s (plan.peerPrice s.overlay addr)) ∧
      (Wide plan c s (plan.peerPrice s.overlay addr) → attempts next.phase = true) := by
  have held : Held plan s := run_invariant held_step (held_spawn plan overlay bucket beneficiary known warm) reached
  have settles := stuck_settle priced held stuck
  exact ⟨settle plan c s,settling_step stuck.at_,settles,fun wide => settles.mpr (wide_reaches priced held stuck wide)⟩

/-! ### The end of a bucket -/

/-- A run towards a peer that asks the largest price for every chunk. -/
def dearest (prepay : Bool) : Plan Nat where
  lim := ⟨1000000000000,10 ^ 12,trillion_fits⟩
  pipeline := 8
  measureLambda := false
  prepay := prepay
  parkInto := false
  peerPrice := fun _ _ => 320000
  peerPrice_lt := highPrice_fits

/-- Bucket 5 holds some addresses, at a time. -/
def shelf (now : Nat) (addrs stored : List Nat) : Common Nat Nat :=
  ⟨now,AList.insert (5 : Nat) addrs ∅,stored.toFinset,[],false,stored.length,⟨0,∅,[]⟩⟩

def fiveChunks : Common Nat Nat := shelf 0 [1,2,3,4,7] []

/-- A connection that was parked with the default threshold. -/
def resumed : Session Nat Nat := spawn 1 5 2 none (some (3000,some 1350000))

/-- Four fetches are served while the fifth address is refused, and the refresh is
    answered with nothing. -/
def fourServed : List Act :=
  [.go,.go,.go,.go,.go,.go,.go,.go,.go,.go,.go,.go,.task 0 true,.task 0 true,.task 1 true,.task 1 true,.task 2 true,
    .task 2 true,.task 3 true,.task 3 true,.go,.accepted none]

/-- The initial prepay fails, as the peer does not open the stream. -/
def firstTurn : List Act := ([.go,.go,.cheque (.io false),.go] : List Act) ++ fourServed ++ ([.go,.go] : List Act)

/-- A turn later the address is refused again. -/
def nextTurn : List Act := [.go,.go,.go,.go,.go,.go]

def unprepaid : List (Seen (Common Nat Nat) Act) :=
  firstTurn.map Seen.own ++ Seen.others (shelf (50 * ms) [] [1,2,3,4]) :: nextTurn.map Seen.own

/-- What a connection paying as it goes does of it. -/
def asItGoes : List (Seen (Common Nat Nat) Act) := (Act.go :: Act.go :: fourServed).map Seen.own

/-- The debt of 1280000 is over a fifth of the threshold. -/
theorem never_wedged_asItGoes : ∃ c s next,
    run (seenStep (sessionStep (dearest false))) (fiveChunks,resumed) asItGoes = some (c,s) ∧
      sessionStep (dearest false) c s .go = some (c,next) ∧ attempts next.phase = true := by
  have ends : (run (seenStep (sessionStep (dearest false))) (fiveChunks,resumed) asItGoes).map (fun st =>
      decide (Stuck (dearest false) st.1 st.2 7 ∧ Wide (dearest false) st.1 st.2 320000)) = some true := by decide +kernel
  obtain ⟨⟨c,s⟩,reached,here⟩ := Option.map_eq_some_iff.mp ends
  obtain ⟨stuck,wide⟩ := of_decide_eq_true here
  obtain ⟨next,taken,-,always⟩ :=
    never_wedged (dearest false) (fun _ _ => ⟨show 1 ≤ 320000 by decide,le_rfl⟩) fiveChunks 1 5 2 none (some (3000,some 1350000)) asItGoes c s reached 7 stuck
  exact ⟨c,s,next,reached,taken,always wide⟩

/-- The debt of 1280000 and one price of work are less than the ten prices of the
    hysteresis, and nothing is attempted. -/
theorem wedged : ∃ c s next, run (seenStep (sessionStep (dearest true))) (fiveChunks,resumed) unprepaid = some (c,s) ∧
    Stuck (dearest true) c s 7 ∧ sessionStep (dearest true) c s .go = some (c,next) ∧ attempts next.phase = false := by
  have ends : (run (seenStep (sessionStep (dearest true))) (fiveChunks,resumed) unprepaid).map (fun st =>
      decide (Stuck (dearest true) st.1 st.2 7 ∧ attempts (settle (dearest true) st.1 st.2).phase = false)) = some true := by
    decide +kernel
  obtain ⟨⟨c,s⟩,reached,here⟩ := Option.map_eq_some_iff.mp ends
  obtain ⟨stuck,nothing⟩ := of_decide_eq_true here
  exact ⟨c,s,settle (dearest true) c s,reached,stuck,settling_step stuck.at_,nothing⟩

end Directswarm.Standstill
