import Directswarm.Moves

/-!
When a connection is parked (`run_established`). A parked connection starts its
next session with an empty queue of cheques, so it must not be parked while the
peer may still validate one, unless the peer has acknowledged a zero debt. The
wait before the acknowledgement is asked for is not computed from the window:
`max 2500 (min λ 25000) + 1500` milliseconds against `max 800 (min λ 25000) * 3 / 2`.
It is long enough for a latency of at most three seconds (`fast_rested`), or when
the last cheque is old already (`parked_rested`); a slow validator whose last
cheque is fresh is parked too soon, whatever the probe said (`parked_too_soon`).
-/
namespace Directswarm.Parking
open Directswarm.Words Directswarm.Runs Directswarm.Interleaving Directswarm.Cheques Directswarm.Pacing
  Directswarm.WorkPool Directswarm.Connection

variable {A B : Type}

/-- A connection with the times at which cheques went out on it. -/
structure Stamped (A B : Type) where
  common : Common A B
  session : Session A B
  emitted : List Nat

/-- A frame is written, or an emission returns that succeeded. -/
def emits (s : Session A B) (act : Act) : Bool :=
  match act, s.phase with
  | .cheque (.io true), .emitting _ _ ⟨_,_,.signed _ _ _⟩ => true
  | .go, .emitting _ _ ⟨_,_,.ended (.ok _)⟩ => true
  | _, _ => false

section
variable [DecidableEq A] [DecidableEq B]

/-- The connection's steps are stamped. The others may do anything but turn back the clock. -/
def stamp (plan : Plan A) (st : Stamped A B) : Seen (Common A B) Act → Option (Stamped A B)
  | .own act => (sessionStep plan st.common st.session act).map fun moved =>
      ⟨moved.1,moved.2,if emits st.session act then st.emitted ++ [st.common.now] else st.emitted⟩
  | .others c => if st.common.now ≤ c.now then some { st with common := c } else none

end

/-- At a time no cheque is younger than the window. -/
def RestedAt (window : Nat) (emitted : List Nat) (now : Nat) : Prop := ∀ t ∈ emitted, window ≤ now - t

/-- The wait before the peer is asked to confirm a zero debt. -/
def confirmWait (s : Session A B) : Nat := (max 2500 (min s.pacer.lambdaMs lambdaMaxMs) + 1500) * ms

/-- `drive` has returned 0. -/
def settledUp : Phase A B → Bool
  | .returned 0 => true
  | _ => false

/-- When `drive` has returned 0, the wait is long enough. -/
def WaitCovers (st : Stamped A B) : Seen (Common A B) Act → Prop
  | .own .go => settledUp st.session.phase = true → st.session.alive = true →
      RestedAt st.session.pacer.window st.emitted (st.common.now + confirmWait st.session)
  | _ => True

instance (st : Stamped A B) : (event : Seen (Common A B) Act) → Decidable (WaitCovers st event)
  | .own act => match act with
    | .go => inferInstanceAs (Decidable (_ → _ → ∀ t ∈ st.emitted, _))
    | .answer _ | .accepted _ | .cheque _ | .task _ _ | .hangUp | .announce _ => isTrue trivial
  | .others _ => isTrue trivial

/-- What a connection was parked with. -/
def parked (s : Session A B) : Option Observation :=
  match s.phase with
  | .closed _ observed true => observed
  | _ => none

theorem rested_later {window now later : Nat} {emitted : List Nat} (le : now ≤ later)
    (rested : RestedAt window emitted now) : RestedAt window emitted later := by
  intro t member
  have := rested t member
  omega

/-- The end of a session, from the wait on. -/
def ending : Phase A B → Bool
  | .confirmPause _ _ | .confirming _ | .recording _ _ _ | .closed _ _ _ => true
  | _ => false

/-- What the end of a session knows of the cheques. -/
def Waited (st : Stamped A B) : Prop :=
  match st.session.phase with
  | .confirmPause wake _ => RestedAt st.session.pacer.window st.emitted wake
  | .confirming _ => RestedAt st.session.pacer.window st.emitted st.common.now
  | .recording residual _ confirmed => residual = 0 → st.session.alive = true →
      confirmed = true ∨ RestedAt st.session.pacer.window st.emitted st.common.now
  | .closed _ observed parked => parked = true → ∀ o ∈ observed, o.cleanClose = true ∨
      RestedAt st.session.pacer.window st.emitted st.common.now
  | _ => True

theorem waited_before {st : Stamped A B} (phase : ending st.session.phase = false) : Waited st := by
  unfold Waited
  split
  · next at_ => rw [at_] at phase; cases phase
  · next at_ => rw [at_] at phase; cases phase
  · next at_ => rw [at_] at phase; cases phase
  · next at_ => rw [at_] at phase; cases phase
  · trivial

/-- Where a session ends no cheque goes out any more. -/
theorem emits_late {s : Session A B} (act : Act) (late : s.phase.late = true) : emits s act = false := by
  unfold emits
  split
  · next at_ => rw [at_] at late; cases late
  · next at_ => rw [at_] at late; cases late
  · rfl

/-- The end of a session is not disturbed by time, by the peer, or by the others. -/
theorem waited_same {st next : Stamped A B} (waited : Waited st) (emitted : next.emitted = st.emitted)
    (now : st.common.now ≤ next.common.now) (phase : next.session.phase = st.session.phase)
    (lambda : next.session.pacer.lambdaMs = st.session.pacer.lambdaMs)
    (alive : next.session.alive = true → st.session.alive = true) : Waited next := by
  have same : ∀ t later, t ≤ later → RestedAt st.session.pacer.window st.emitted t → RestedAt next.session.pacer.window next.emitted later := by
    intro t later le rested
    have window : next.session.pacer.window = st.session.pacer.window := by
      unfold Pacer.window
      rw [lambda]
    rw [emitted,window]
    exact rested_later le rested
  unfold Waited at waited ⊢
  rw [phase]
  cases at_ : st.session.phase with
  | confirmPause wake consumed =>
    rw [at_] at waited
    exact same _ _ le_rfl waited
  | confirming consumed =>
    rw [at_] at waited
    exact same _ _ now waited
  | recording residual consumed confirmed =>
    rw [at_] at waited
    intro zero live
    exact (waited zero (alive live)).imp_right (same _ _ now)
  | closed residual observed parked =>
    rw [at_] at waited
    intro inside o there
    exact (waited inside o there).imp_right (same _ _ now)
  | _ => trivial

variable [DecidableEq A] [DecidableEq B]

theorem now_step {plan : Plan A} {c c' : Common A B} {s s' : Session A B} {act : Act}
    (moves : Moves plan c s act c' s') : c'.now = c.now := by
  cases moves <;> rfl

theorem waited_own {plan : Plan A} {st : Stamped A B} {act : Act} {c' : Common A B} {s' : Session A B} (waited : Waited st)
    (covers : WaitCovers st (.own act)) (moves : Moves plan st.common st.session act c' s') :
    Waited ⟨c',s',if emits st.session act then st.emitted ++ [st.common.now] else st.emitted⟩ := by
  have clock := now_step moves
  have quiet : st.session.phase.late = true →
      (if emits st.session act then st.emitted ++ [st.common.now] else st.emitted) = st.emitted := by
    intro late
    rw [emits_late act late]
    rfl
  cases moves with
  | hungUp => exact waited_same waited rfl le_rfl rfl rfl nofun
  | announced t => exact waited_same waited rfl le_rfl rfl rfl id
  | taskServed at_ | taskFailed at_ | taskStored at_ | taskSent at_ => exact waited_same waited rfl le_rfl rfl rfl id
  | undialed at_ => exact fun inside => absurd inside (by decide)
  | confirmBegin at_ live =>
    rw [quiet (by rw [at_]; rfl)]
    exact covers (by rw [at_]; rfl) live
  | unconfirmed at_ why =>
    intro zero live
    exact absurd live (by simp [why zero])
  | confirmWake at_ woken =>
    rw [quiet (by rw [at_]; rfl)]
    unfold Waited at waited
    rw [at_] at waited
    exact rested_later woken waited
  | confirmed at_ =>
    rw [quiet (by rw [at_]; rfl)]
    unfold Waited at waited
    rw [at_] at waited
    exact fun _ _ => .inr waited
  | @recorded residual consumed confirmed at_ =>
    rw [quiet (by rw [at_]; rfl)]
    unfold Waited at waited
    rw [at_] at waited
    intro inside o there
    cases there
    simp only [Bool.and_eq_true,decide_eq_true_eq] at inside
    have cleared := waited inside.1.2 inside.2
    simpa [inside.1.2] using cleared
  | @called purpose units call outcome at_ ended => cases purpose <;> exact waited_before rfl
  | @uncalled purpose units call why at_ ended =>
    cases purpose with
    | lambdaSweep | initialPrepay | topUp => exact waited_before rfl
    | settle =>
      simp only [chequeFailed]
      split
      · split <;> exact waited_before rfl
      · exact waited_before rfl
  | settled at_ =>
    rcases settle_cases plan st.common st.session with same | ⟨units,-,-,-,same⟩ | same <;>
      exact waited_before (by rw [same]; rfl)
  | _ => exact waited_before rfl

theorem waited_step {plan : Plan A} {st next : Stamped A B} {event : Seen (Common A B) Act} (waited : Waited st)
    (covers : WaitCovers st event) (taken : stamp plan st event = some next) : Waited next := by
  cases event with
  | own act =>
    obtain ⟨⟨c',s'⟩,moved,rfl⟩ := Option.map_eq_some_iff.mp taken
    exact waited_own waited covers (step_moves moved)
  | others c =>
    simp only [stamp] at taken
    split at taken
    · next onward =>
      cases taken
      exact waited_same waited rfl onward rfl rfl id
    · cases taken

omit [DecidableEq A] [DecidableEq B] in
theorem waited_spawn (c : Common A B) (overlay : A) (bucket : Nat) (beneficiary : B) (known : Option Known)
    (warm : Option (Nat × Option U256)) : Waited ⟨c,spawn overlay bucket beneficiary known warm,[]⟩ := by
  cases warm <;> exact waited_before rfl

omit [DecidableEq A] [DecidableEq B] in
theorem waited_parked {st : Stamped A B} (waited : Waited st) {observed : Observation}
    (inside : parked st.session = some observed) :
    observed.cleanClose = true ∨ RestedAt st.session.pacer.window st.emitted st.common.now := by
  unfold parked at inside
  unfold Waited at waited
  split at inside
  · next at_ =>
    rw [at_] at waited
    exact waited rfl observed inside
  · cases inside

/-- A connection is parked only when the peer acknowledged a zero debt or no cheque
    on it is younger than the window, in every session in which the wait covers the
    window of the last cheque. -/
theorem parked_rested (plan : Plan A) (c : Common A B) (overlay : A) (bucket : Nat) (beneficiary : B)
    (known : Option Known) (warm : Option (Nat × Option U256)) (events : List (Seen (Common A B) Act))
    (final : Stamped A B) (observed : Observation)
    (covers : Meets (stamp plan) WaitCovers ⟨c,spawn overlay bucket beneficiary known warm,[]⟩ events)
    (reached : run (stamp plan) ⟨c,spawn overlay bucket beneficiary known warm,[]⟩ events = some final)
    (inside : parked final.session = some observed) :
    observed.cleanClose = true ∨ ∀ t ∈ final.emitted, final.session.pacer.window ≤ final.common.now - t :=
  waited_parked (run_guarded (fun _ _ _ => waited_step) (waited_spawn c overlay bucket beneficiary known warm) covers
    reached) inside

/-! ### Fast validators -/

omit [DecidableEq A] [DecidableEq B] in
/-- Up to three seconds of latency the wait is at least the window. -/
theorem window_le_wait {s : Session A B} (fast : s.pacer.lambdaMs ≤ 3000) : s.pacer.window ≤ confirmWait s := by
  unfold Pacer.window confirmWait lambdaMinMs lambdaMaxMs
  refine Nat.mul_le_mul_right ms ?_
  omega

/-- Cheques went out in the past. -/
def Past (st : Stamped A B) : Prop := ∀ t ∈ st.emitted, t ≤ st.common.now

theorem past_step {plan : Plan A} {st next : Stamped A B} {event : Seen (Common A B) Act} (past : Past st)
    (taken : stamp plan st event = some next) : Past next := by
  cases event with
  | own act =>
    obtain ⟨⟨c',s'⟩,moved,rfl⟩ := Option.map_eq_some_iff.mp taken
    have clock := now_step (step_moves moved)
    intro t member
    simp only at member ⊢
    rw [clock]
    split at member
    · rcases List.mem_append.mp member with old | new
      · exact past t old
      · exact (List.mem_singleton.mp new).le
    · exact past t member
  | others c =>
    simp only [stamp] at taken
    split at taken
    · next onward =>
      cases taken
      exact fun t member => (past t member).trans onward
    · cases taken

omit [DecidableEq A] [DecidableEq B] in
theorem fast_covers {st : Stamped A B} (past : Past st) (fast : st.session.pacer.lambdaMs ≤ 3000)
    (event : Seen (Common A B) Act) : WaitCovers st event := by
  unfold WaitCovers
  split
  · intro _ _ t member
    have wide := window_le_wait fast
    have before := past t member
    omega
  · trivial

/-- A session that never takes the latency to be more than three seconds parks
    its connection safely. -/
theorem fast_rested (plan : Plan A) (c : Common A B) (overlay : A) (bucket : Nat) (beneficiary : B)
    (known : Option Known) (warm : Option (Nat × Option U256)) (events : List (Seen (Common A B) Act))
    (final : Stamped A B) (observed : Observation)
    (fast : Meets (stamp plan) (fun st _ => st.session.pacer.lambdaMs ≤ 3000)
      ⟨c,spawn overlay bucket beneficiary known warm,[]⟩ events)
    (reached : run (stamp plan) ⟨c,spawn overlay bucket beneficiary known warm,[]⟩ events = some final)
    (inside : parked final.session = some observed) :
    observed.cleanClose = true ∨ RestedAt final.session.pacer.window final.emitted final.common.now := by
  have keep : ∀ (st : Stamped A B) (event : Seen (Common A B) Act) (next : Stamped A B), Waited st ∧ Past st →
      st.session.pacer.lambdaMs ≤ 3000 → stamp plan st event = some next → Waited next ∧ Past next := by
    rintro st event next ⟨waited,past⟩ slow taken
    exact ⟨waited_step waited (fast_covers past slow event) taken,past_step past taken⟩
  have both := run_guarded keep ⟨waited_spawn c overlay bucket beneficiary known warm,nofun⟩ fast reached
  exact waited_parked both.1 inside

/-! ### A slow validator -/

/-- A run that pays as it goes, with a pool to park in. -/
def paying : Plan Nat where
  lim := ⟨1000000000000,10 ^ 12,trillion_fits⟩
  pipeline := 1
  measureLambda := false
  prepay := false
  parkInto := true
  peerPrice := fun _ _ => 230000
  peerPrice_lt := price_fits

/-- What the connections share while bucket 5 holds some addresses. -/
def shelf (now : Nat) (addrs : List Nat) : Common Nat Nat := ⟨now,AList.singleton (5 : Nat) addrs,∅,[],false,0,⟨0,∅,[]⟩⟩

/-- One chunk is fetched, and the bucket is empty. -/
def fetchedOne : List Act :=
  [.answer true,.go,.go,.go,.go,.go,.go,.go,.task 0 true,.task 0 true,.go,.accepted none,.go,.go]

/-- The final sweep goes out, and `drive` returns 0. -/
def swept : List Act :=
  [.go,.go,.go,.go,.go,.go,.cheque (.io true),.cheque (.headers (some (100000,0))),.cheque .go,.cheque .go,.cheque .go,
    .cheque (.io true),.cheque (.io true),.cheque (.io true),.cheque .go,.cheque .go,.go,.go,.go]

/-- After a wait the peer is asked for a confirmation, and does not answer. -/
def sweptUnconfirmed (wait : Nat) : List (Seen (Common Nat Nat) Act) :=
  [fetchedOne.map .own,[.others (shelf (50 * ms) [])],[.own .go,.own .go,.own .go,.own .go,.own .go,.own .go,.own .go],
    [.others (shelf (600 * ms) [])],swept.map .own,[.others (shelf ((600 + wait) * ms) [])],
    [.own .go,.own (.accepted none),.own .go]].flatten

/-- With a latency of 25 seconds the wait is 26.5 seconds and the window 37.5. -/
theorem parked_too_soon : ∃ final observed, run (stamp paying)
      ⟨shelf 0 [7],spawn 1 5 2 (some ⟨some 25000,0⟩) none,[]⟩ (sweptUnconfirmed 26500) = some final ∧
    parked final.session = some observed ∧ observed.cleanClose = false ∧
    ∃ t ∈ final.emitted, final.common.now - t < final.session.pacer.window := by
  have ends : (run (stamp paying) ⟨shelf 0 [7],spawn 1 5 2 (some ⟨some 25000,0⟩) none,[]⟩ (sweptUnconfirmed 26500)).map
      (fun final => ((parked final.session).map Observation.cleanClose,final.emitted,final.common.now,
        final.session.pacer.window)) =
      some (some false,[600000000,600000000],27100000000,37500000000) := by decide +kernel
  obtain ⟨final,reached,same⟩ := Option.map_eq_some_iff.mp ends
  simp only [Prod.mk.injEq] at same
  obtain ⟨inside,emitted,now,window⟩ := same
  obtain ⟨observed,parked_,unclean⟩ := Option.map_eq_some_iff.mp inside
  refine ⟨final,observed,reached,parked_,unclean,600000000,?_,?_⟩
  · rw [emitted]
    exact List.mem_cons_self
  · rw [now,window]
    decide

/-- With a latency of three seconds both are 4.5 seconds. -/
theorem parked_rested_fast : ∃ final observed, run (stamp paying)
      ⟨shelf 0 [7],spawn 1 5 2 none none,[]⟩ (sweptUnconfirmed 4500) = some final ∧
    parked final.session = some observed ∧ final.emitted = [600000000,600000000] ∧
    (observed.cleanClose = true ∨ ∀ t ∈ final.emitted, final.session.pacer.window ≤ final.common.now - t) := by
  have ends : (run (stamp paying) ⟨shelf 0 [7],spawn 1 5 2 none none,[]⟩ (sweptUnconfirmed 4500)).map
      (fun final => ((parked final.session).isSome,final.emitted)) = some (true,[600000000,600000000]) := by decide +kernel
  obtain ⟨final,reached,same⟩ := Option.map_eq_some_iff.mp ends
  simp only [Prod.mk.injEq] at same
  obtain ⟨inside,emitted⟩ := same
  obtain ⟨observed,inside⟩ := Option.isSome_iff_exists.mp inside
  exact ⟨final,observed,reached,inside,emitted,parked_rested paying (shelf 0 [7]) 1 5 2 none none (sweptUnconfirmed 4500)
    final observed (by decide +kernel) reached inside⟩

end Directswarm.Parking
