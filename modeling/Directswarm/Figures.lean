import Mathlib
import Directswarm.Notes
import Directswarm.Accounts
import Directswarm.Crew

/-!
What the report of a fetch says of money (`fetch_scheduled`, over all runs): the
residual debt, and the counters that nothing but the report reads. The residual covers
what the connections consumed and did not pay for (`debts_reported`), and the counters
agree with what was put into the peer-state store and with the spend guard
(`figures_agree`).
-/
namespace Directswarm.Figures
open Directswarm.Words Directswarm.Runs Directswarm.Interleaving Directswarm.Notes Directswarm.Cheques Directswarm.Pacing
  Directswarm.WorkPool Directswarm.Connection Directswarm.Accounts Directswarm.Scheduler
open Directswarm.Crew (isOver over_iff over_step join_open)
open Directswarm.Pulls (goes)

variable {M A B : Type}

/-! ### The counters -/

/-- The counters of a run that only the report reads, but for those of bytes. -/
structure Counters where
  cheques : Nat
  chequePlur : Nat
  refreshUnits : Nat
  zeroConfirmed : Nat
  lambdasMeasured : Nat
  surplusParked : Nat
  deriving DecidableEq

namespace Counters

def zero : Counters := ⟨0,0,0,0,0,0⟩

/-- `fetch_add`. -/
def add (n d : Counters) : Counters :=
  ⟨wrapAdd n.cheques d.cheques,wrapAdd n.chequePlur d.chequePlur,wrapAdd n.refreshUnits d.refreshUnits,
    wrapAdd n.zeroConfirmed d.zeroConfirmed,wrapAdd n.lambdasMeasured d.lambdasMeasured,wrapAdd n.surplusParked d.surplusParked⟩

end Counters

/-- What a step of a connection adds to the counters. -/
def added (plan : Plan A) (s : Session A B) (act : Act) : Counters :=
  match s.phase, act with
  | .emitting _ _ ⟨_,_,.ended (.ok outcome)⟩, .go =>
    { Counters.zero with cheques := 1, chequePlur := clamp64 outcome.plur }
  | .refreshing, .accepted (some units) | .probing _ _, .accepted (some units) =>
    { Counters.zero with refreshUnits := units.val }
  | .measured (some _), .go => { Counters.zero with lambdasMeasured := 1 }
  | .confirming _, .accepted units => { Counters.zero with zeroConfirmed := if units = some 0 then 1 else 0 }
  | .recording _ _ _, .go =>
    { Counters.zero with surplusParked := if plan.prepay then s.pacer.prepaid - s.pacer.mirror.balance else 0 }
  | _, _ => Counters.zero

/-- What a connection consumed and paid. -/
structure Tally where
  consumed : Nat
  paid : Nat
  deriving DecidableEq

/-- A tally for each connection, and the counters. -/
structure Noted where
  tallies : List Tally
  counters : Counters

def Noted.start : Noted := ⟨[],Counters.zero⟩

variable [DecidableEq A] [DecidableEq B]

/-- The connection that moves, and how. -/
def acting (r : Run M A B) : Move A B → Option (Nat × Act)
  | .session i act => some (i,act)
  | .handshake i remote => (r.actors[i]?).map fun actor => (i,.answer (decide (remote = some actor.session.overlay)))
  | _ => none

def tallied (s : Session A B) (act : Act) (t : Tally) : Tally := ⟨t.consumed + served s act,t.paid + (payment s act).units⟩

/-- What is noted of a step. -/
def note (job : Job M A) (r : Run M A B) (move : Move A B) (next : Run M A B) (n : Noted) : Noted :=
  match acting r move with
  | some (i,act) =>
    match r.actors[i]? with
    | some actor => ⟨n.tallies.modify i (tallied actor.session act),n.counters.add (added job.plan actor.session act)⟩
    | none => n
  | none => { n with tallies := n.tallies ++ List.replicate (next.actors.length - r.actors.length) ⟨0,0⟩ }

/-! ### What a step does to the connections -/

/-- A step moves one of the connections, joins one, spawns one, or touches none. -/
inductive Touch (job : Job M A) (r r' : Run M A B) : Option (Nat × Act) → Prop
  | moved {i : Nat} {actor : Actor A B} {act : Act} {session : Session A B} (actor' : Actor A B)
      (at_ : r.actors[i]? = some actor)
      (taken : sessionStep job.plan r.common actor.session act = some (r'.common,session))
      (same : actor'.session = session) (joined : actor'.joined = actor.joined)
      (actors : r'.actors = r.actors.set i actor') (residual : r'.residual = r.residual) (main : r'.main = r.main) :
      Touch job r r' (some (i,act))
  | joined {i : Nat} {actor : Actor A B} {residual : Nat} {observed : Option Observation} {parked : Bool}
      (at_ : r.actors[i]? = some actor) (open_ : actor.joined = false)
      (closed : actor.session.phase = .closed residual observed parked) (common : r'.common = r.common)
      (actors : r'.actors = r.actors.set i { actor with joined := true })
      (sum : r'.residual = wrapAdd r.residual residual) (main : r'.main = .refilling) : Touch job r r' none
  | spawned {fresh : Actor A B} (overlay : A) (bucket : Nat) (beneficiary : B) (known : Option Known)
      (warm : Option (Nat × Option U256)) (session : fresh.session = spawn overlay bucket beneficiary known warm)
      (open_ : fresh.joined = false) (common : r'.common = r.common) (actors : r'.actors = r.actors ++ [fresh])
      (residual : r'.residual = r.residual) (main : r'.main = .refilling) : Touch job r r' none
  | rested (bank : r'.common.bank = r.common.bank) (actors : r'.actors = r.actors) (residual : r'.residual = r.residual)
      (main : ∀ report, r'.main = .returned (.ok report) → r.main = .returned (.ok report) ∨
        report.residualDebtUnits = r.residual) :
      Touch job r r' none

section Steps
variable {job : Job M A} {needed : List A} {r r' : Run M A B} {move : Move A B}

theorem touch_connect (dispatch : Dispatching.Dispatch M A) (storer : Routing.Selected M A) (rate : Nat) (known : Option Known)
    (beneficiary : B) : Touch job r (connect job { r with dispatch := dispatch } storer rate known beneficiary) none := by
  unfold connect
  split
  · simp only
    split <;> exact .spawned _ _ _ _ _ rfl rfl rfl rfl rfl rfl
  · exact .spawned _ _ _ _ _ rfl rfl rfl rfl rfl rfl

/-- A step of a connection, or the end of its dial. -/
theorem touch_acted {acted : Nat × Act} (moves_ : acting r move = some acted) (taken : step job needed r move = some r') :
    Touch job r r' (some acted) := by
  cases move with
  | session i act =>
    cases moves_
    simp only [Scheduler.step] at taken
    split at taken
    · cases taken
    · next actor at_ =>
      split at taken
      · cases taken
      · obtain ⟨moved,stepped,rfl⟩ := Option.map_eq_some_iff.mp taken
        exact .moved { actor with session := moved.2 } at_ stepped rfl rfl rfl rfl rfl
  | handshake i remote =>
    obtain ⟨actor,at_,rfl⟩ := Option.map_eq_some_iff.mp moves_
    simp only [Scheduler.step,at_,Option.bind_some,handshakeStep] at taken
    split at taken
    · obtain ⟨moved,stepped,rfl⟩ := Option.map_eq_some_iff.mp taken
      exact .moved { actor with
        session := moved.2
        remote := if decide (remote = some actor.session.overlay) then remote else none } at_ stepped rfl rfl rfl rfl rfl
    · cases taken
  | _ => cases moves_

theorem touch_step (taken : step job needed r move = some r') : Touch job r r' (acting r move) := by
  cases still : acting r move with
  | some acted => exact touch_acted still taken
  | none =>
    cases step_steps taken with
    | acted at_ standing moves => cases still
    | shaken at_ dialing moves => simp [acting,at_] at still
    | joined at_ there closed => exact .joined there (join_open taken there) closed rfl rfl rfl rfl
    | dispatched at_ chosen => exact touch_connect _ _ _ _ _
    | reported at_ received idle outcome =>
      refine .rested rfl rfl rfl fun report over_ => .inr ?_
      have same := Main.returned.inj over_
      rw [outcome] at same
      split at same
      · cases same
      · split at same <;> cases same
        rfl
    | refilled at_ next =>
      refine .rested rfl rfl rfl fun report over_ => ?_
      rcases next with rfl | rfl <;> cases over_
    | exhausted at_ chosen | dropped at_ none_ all mode | stranded at_ none_ all mode =>
      exact .rested rfl rfl rfl fun report over_ => by cases over_
    | _ => exact .rested rfl rfl rfl fun report => .inl

/-- A step that moves no connection leaves every sum over them, and the bank. -/
theorem rest_total {f : Session A B → Nat} (empty : ∀ overlay bucket beneficiary known warm,
      f (spawn overlay bucket beneficiary known warm) = 0) (touch : Touch job r r' none) :
    total (fun actor : Actor A B => f actor.session) r'.actors = total (fun actor : Actor A B => f actor.session) r.actors ∧
      r'.common.bank = r.common.bank := by
  cases touch with
  | @joined i actor residual observed parked at_ open_ closed common actors sum main =>
    have same := total_set (fun actor : Actor A B => f actor.session) { actor with joined := true } at_
    rw [actors,common]
    exact ⟨Nat.add_right_cancel same,rfl⟩
  | spawned overlay bucket beneficiary known warm session open_ common actors residual main =>
    rw [actors,common,total_append,total_cons,total_nil,session,empty,Nat.zero_add,Nat.add_zero]
    exact ⟨rfl,rfl⟩
  | rested bank actors residual main => exact ⟨by rw [actors],bank⟩

omit [DecidableEq A] [DecidableEq B] in
/-- What a step adds to a sum over the connections is what it adds at the one that moves. -/
theorem moved_total {f : Session A B → Nat} {n d : Nat} {actors : List (Actor A B)} {i : Nat} {actor actor' : Actor A B}
    (at_ : actors[i]? = some actor) (more : f actor'.session = f actor.session + d)
    (sum : n = total (fun actor : Actor A B => f actor.session) actors % 2 ^ 64) :
    wrapAdd n d = total (fun actor : Actor A B => f actor.session) (actors.set i actor') % 2 ^ 64 := by
  have moved := total_set (fun actor : Actor A B => f actor.session) actor' at_
  simp only [more] at moved
  rw [sum,wrapAdd,Nat.mod_add_mod,show total (fun actor : Actor A B => f actor.session) (actors.set i actor') =
    total (fun actor : Actor A B => f actor.session) actors + d by omega]

end Steps

/-! ### The residual debt -/

/-- What a connection whose `drive` returned leaves unpaid. -/
def residual : Connection.Phase A B → Option Nat
  | .returned n | .recording n _ _ | .closed n _ _ => some n
  | .confirmPause _ _ | .confirming _ => some 0
  | _ => none

/-- What it leaves unpaid is what its pacer has as unpaid. -/
def Owing (s : Session A B) : Prop := ∀ n, residual s.phase = some n → n = s.pacer.unpaid

section Session
variable {plan : Plan A} {c c' : Common A B} {s s' : Session A B} {act : Act}

omit [DecidableEq A] [DecidableEq B] in
theorem residual_late {phase : Connection.Phase A B} {n : Nat} (left : residual phase = some n) : phase.late = true := by
  unfold residual at left
  split at left <;> first | rfl | cases left

omit [DecidableEq A] [DecidableEq B] in
theorem owing_open (open_ : residual s.phase = none) : Owing s := by
  intro n left
  rw [open_] at left
  cases left

omit [DecidableEq A] [DecidableEq B] in
/-- A fetch is under way, so `drive` has not returned. -/
theorem owing_busy {k : Nat} {task : FetchTask A} (idle : Idle s) (at_ : s.tasks[k]? = some task)
    (phase : s'.phase = s.phase) : Owing s' := by
  intro n left
  have none_ := (idle.late (residual_late (phase ▸ left))).1
  simp [none_] at at_

theorem owing_step (idle : Idle s) (reported : Reported plan s) (owing : Owing s)
    (moves : Connection.Moves plan c s act c' s') : Owing s' := by
  cases moves with
  | hungUp | announced t => exact owing
  | taskServed at_ | taskFailed at_ | taskStored at_ | taskSent at_ => exact owing_busy idle at_ rfl
  | undialed at_ =>
    obtain ⟨mirror,-⟩ := reported.fresh (by rw [at_]; rfl)
    rintro n ⟨⟩
    simp [Pacer.unpaid,mirror]
  | drained at_ joined => rintro n ⟨⟩; rfl
  | finish at_ done settled ready => rintro n ⟨⟩; exact settled.symm
  | @called purpose units call outcome at_ ended => cases purpose <;> exact owing_open rfl
  | @uncalled purpose units call why at_ ended =>
    cases purpose with
    | lambdaSweep | initialPrepay | topUp => exact owing_open rfl
    | settle =>
      simp only [chequeFailed]
      split
      · split
        · rintro n ⟨⟩; rfl
        · exact owing_open rfl
      · exact owing_open rfl
  | settled at_ => rcases settle_cases plan c s with same | ⟨units,-,-,-,same⟩ | same <;> rw [same] <;> exact owing_open rfl
  | confirmBegin at_ live | confirmWake at_ woken | confirmed at_ =>
    rintro n ⟨⟩
    exact owing 0 (by rw [at_]; rfl)
  | unconfirmed at_ why | recorded at_ =>
    rintro n ⟨⟩
    exact owing _ (by rw [at_]; rfl)
  | _ => exact owing_open rfl

/-- A connection that is over stays as it ended. -/
theorem over_still (ended : isOver s.phase = true) (moves : Connection.Moves plan c s act c' s') :
    s'.phase = s.phase := by
  obtain ⟨residual,observed,parked,at_⟩ := over_iff.mp ended
  cases moves with
  | hungUp | announced t => rfl
  | taskServed here | taskFailed here | taskStored here | taskSent here => rfl
  | _ => simp_all

end Session

/-- What a joined connection left unpaid. -/
def left (actor : Actor A B) : Nat := if actor.joined then (residual actor.session.phase).getD 0 else 0

/-- What is known of a connection and the tally of it. -/
def Entered (plan : Plan A) (c : Common A B) (actor : Actor A B) (t : Tally) : Prop :=
  Kept plan (startSurplus plan actor.session) ⟨c,actor.session,t.consumed,t.paid⟩

/-- Connections that were joined are over, and their residuals are what the run has
    added up, and what it reports. -/
structure Summed (r : Run M A B) : Prop where
  owing : ∀ actor ∈ r.actors, Owing actor.session
  joined : ∀ actor ∈ r.actors, actor.joined = true → isOver actor.session.phase = true
  sum : r.residual = total left r.actors % 2 ^ 64
  report : ∀ report, r.main = .returned (.ok report) → report.residualDebtUnits = r.residual

/-- No fetch is admitted against a limit of `u64::MAX`. -/
def gated (job : Job M A) (r : Run M A B) (move : Move A B) : Bool :=
  match acting r move with
  | some (i,act) => (r.actors[i]?).all fun actor => !admits job.plan r.common actor.session act ||
      decide ((actor.session.pacer.prune r.common.now).admitLimit < u64Max)
  | none => true

section Runs
variable {job : Job M A} {needed : List A} {r r' : Run M A B} {move : Move A B}

omit [DecidableEq A] [DecidableEq B] in
theorem left_moved {actor actor' : Actor A B} (joined : actor'.joined = actor.joined)
    (still : actor.joined = true → actor'.session.phase = actor.session.phase) : left actor' = left actor := by
  unfold left
  by_cases ended : actor.joined = true
  · rw [joined,still ended]
  · rw [joined,if_neg ended,if_neg ended]

/-- Connections that were joined stay over. -/
theorem ended_step (ended : ∀ actor ∈ r.actors, actor.joined = true → isOver actor.session.phase = true)
    {acted : Option (Nat × Act)} (touch : Touch job r r' acted) :
    ∀ actor ∈ r'.actors, actor.joined = true → isOver actor.session.phase = true := by
  cases touch with
  | @moved i actor act session actor' at_ taken same joined actors residual main =>
    rw [actors]
    refine forall_set ended fun over_ => ?_
    rw [joined] at over_
    have before := ended actor (mem_of_found at_) over_
    rw [same,over_still before (step_moves taken)]
    exact before
  | @joined i actor residual observed parked at_ open_ closed common actors sum main =>
    rw [actors]
    exact forall_set ended fun _ => over_iff.mpr ⟨_,_,_,closed⟩
  | spawned overlay bucket beneficiary known warm session open_ common actors residual main =>
    rw [actors]
    exact forall_append ended fun over_ => by simp [open_] at over_
  | rested bank actors residual main =>
    rw [actors]
    exact ended

theorem summed_step (standing : Ownership.Standing r) (reported : ∀ actor ∈ r.actors, Reported job.plan actor.session)
    (summed : Summed r) (touch : Touch job r r' (acting r move)) : Summed r' := by
  generalize acting r move = acted at touch
  obtain ⟨owing,joined,sum,report⟩ := summed
  have ended := ended_step joined touch
  cases touch with
  | @moved i actor act session actor' at_ taken same joined_ actors residual main =>
    have here := mem_of_found at_
    have idle := standing.idle actor here
    have still : actor.joined = true → actor'.session.phase = actor.session.phase := by
      intro ended
      rw [same]
      exact over_still (joined actor here ended) (step_moves taken)
    have equal := total_set left actor' at_
    rw [left_moved joined_ still] at equal
    refine ⟨?_,ended,?_,?_⟩
    · rw [actors]
      refine forall_set owing ?_
      rw [same]
      exact owing_step idle (reported actor here) (owing actor here) (step_moves taken)
    · rw [residual,actors,sum]
      exact congrArg (· % 2 ^ 64) (Nat.add_right_cancel equal).symm
    · rw [residual,main]
      exact report
  | @joined i actor n observed parked at_ open_ closed common actors sum_ main =>
    have moved := total_set left { actor with joined := true } at_
    have before : left actor = 0 := by simp [left,open_]
    have after : left { actor with joined := true } = n := by simp [left,closed,residual]
    refine ⟨?_,ended,?_,?_⟩
    · rw [actors]
      exact forall_set owing (owing actor (mem_of_found at_))
    · rw [sum_,sum,actors,wrapAdd,Nat.mod_add_mod]
      rw [before,after,Nat.add_zero] at moved
      rw [moved]
    · intro report_ over_
      rw [main] at over_
      cases over_
  | spawned overlay bucket beneficiary known warm session open_ common actors residual main =>
    refine ⟨?_,ended,?_,?_⟩
    · rw [actors]
      refine forall_append owing (owing_open ?_)
      rw [session]
      cases warm <;> rfl
    · rw [residual,actors,total_append,sum]
      simp [left,open_]
    · intro report_ over_
      rw [main] at over_
      cases over_
  | rested bank actors residual main =>
    refine ⟨by rw [actors]; exact owing,ended,by rw [residual,actors]; exact sum,fun report_ over_ => ?_⟩
    rw [residual]
    exact (main report_ over_).elim (report report_) id

/-- The tallies of a run are those of its connections. -/
theorem entered_step {n : Noted} (entered : List.Forall₂ (Entered job.plan r.common) r.actors n.tallies)
    (met : gated job r move = true) (taken : step job needed r move = some r') :
    List.Forall₂ (Entered job.plan r'.common) r'.actors (note job r move r' n).tallies := by
  have others : ∀ actor t, Entered job.plan r.common actor t → Entered job.plan r'.common actor t :=
    fun actor t kept => ⟨kept.idle,kept.reported,kept.start,kept.half_low,kept.covered⟩
  have touch := touch_step taken
  unfold note
  unfold gated at met
  generalize acting r move = acted at touch met ⊢
  cases touch with
  | @moved i actor act session actor' at_ stepped same joined actors residual main =>
    simp only [at_,Option.all_some,Bool.or_eq_true,Bool.not_eq_true',decide_eq_true_eq] at met ⊢
    rw [actors]
    refine forall₂_modify (tallied actor.session act) actor' entered at_ (fun t kept => ?_) others
    have exact_ : GateExact job.plan ⟨r.common,actor.session,t.consumed,t.paid⟩ (.own act) := fun admitted =>
      met.resolve_left (by simp [admitted])
    have kept' := kept_step kept exact_ (Option.map_eq_some_iff.mpr ⟨_,stepped,rfl⟩)
    have known : startSurplus job.plan actor'.session = startSurplus job.plan actor.session := by
      rw [same,startSurplus,startSurplus,(identity_step (step_moves stepped)).2.2.2]
    unfold Entered
    rw [known,same]
    exact kept'
  | @joined i actor n observed parked at_ open_ closed common actors sum_ main =>
    have still := forall₂_modify id { actor with joined := true } entered at_ (fun t kept => others actor t kept) others
    simpa [actors,List.modify_id] using still
  | spawned overlay bucket beneficiary known warm session open_ common actors residual main =>
    have one : r'.actors.length - r.actors.length = 1 := by simp [actors]
    simp only [one]
    rw [actors]
    refine forall₂_append (entered.imp others) ?_
    unfold Entered
    rw [session]
    exact kept_spawn ..
  | rested bank actors residual main =>
    simp only [actors,Nat.sub_self,List.replicate_zero,List.append_nil]
    exact entered.imp others

omit [DecidableEq B] in
/-- A fetch begins without connections, and owes nothing. -/
theorem launch_blank (job : Job M A) (opening : Opening A B) : (launch job opening).actors = [] ∧
    (launch job opening).residual = 0 ∧ (launch job opening).common.bank.issuedPlur = 0 ∧
    ∀ report, (launch job opening).main = .returned (.ok report) → report.residualDebtUnits = 0 := by
  unfold launch
  split
  · exact ⟨rfl,rfl,rfl,fun report over_ => by cases over_⟩
  · simp only
    split
    · exact ⟨rfl,rfl,rfl,fun report over_ => by cases over_; rfl⟩
    · split
      · exact ⟨rfl,rfl,rfl,fun report over_ => by cases over_⟩
      · split
        · exact ⟨rfl,rfl,rfl,fun report over_ => by cases over_⟩
        · split
          · exact ⟨rfl,rfl,rfl,fun report over_ => by cases over_⟩
          · refine List.foldlRecOn (motive := fun r : Run M A B => r.actors = [] ∧ r.residual = 0 ∧
              r.common.bank.issuedPlur = 0 ∧ ∀ report, r.main = .returned (.ok report) → report.residualDebtUnits = 0) _ _
              ⟨rfl,rfl,rfl,fun report over_ => by cases over_⟩ ?_
            intro r empty addr _
            unfold route
            simp only
            split
            · exact empty
            · split <;> exact empty

omit [DecidableEq A] [DecidableEq B] in
/-- The residual of a connection that was joined covers what it consumed beyond what
    it paid, and what it had left over from before. -/
theorem entered_left {actor : Actor A B} {t : Tally} {c : Common A B} (joined : actor.joined = true)
    (ended : isOver actor.session.phase = true) (owing : Owing actor.session) (entered : Entered job.plan c actor t) :
    t.consumed - t.paid ≤ left actor + startSurplus job.plan actor.session := by
  obtain ⟨n,observed,parked,closed⟩ := over_iff.mp ended
  have owed := kept_owed entered
  have same := owing n (by rw [closed]; rfl)
  have here : left actor = n := by simp [left,joined,closed,residual]
  unfold Pacer.unpaid at same
  simp only at owed
  omega

end Runs

/-- When a fetch reports, its residual debt is what its connections left unpaid, added
    up in 64 bits; and what each connection left unpaid covers, with the surplus that it
    began with, all that it consumed and did not pay for, if no fetch was admitted
    against a limit of `u64::MAX`. So it is for all connections together. -/
theorem debts_reported (job : Job M A) (opening : Opening A B) (needed : List A) (moves : List (Move A B)) (final : Run M A B)
    (noted_ : Noted) (report : ScheduleReport)
    (met : Meets (noted (step job needed) (note job)) (fun st move => gated job st.1 move = true) (launch job opening,Noted.start) moves)
    (reached : run (noted (step job needed) (note job)) (launch job opening,Noted.start) moves = some (final,noted_))
    (reports : Fates.outcome final = some (.ok report)) :
    report.residualDebtUnits = total left final.actors % 2 ^ 64 ∧
    List.Forall₂ (fun actor t => t.consumed - t.paid ≤ left actor + startSurplus job.plan actor.session)
      final.actors noted_.tallies ∧
    total (fun t => t.consumed - t.paid) noted_.tallies ≤
      total (fun actor : Actor A B => left actor + startSurplus job.plan actor.session) final.actors := by
  obtain ⟨standing,summed,entered⟩ := @run_guarded _ _ _ _ (fun st : Run M A B × Noted => Ownership.Standing st.1 ∧ Summed st.1 ∧
    List.Forall₂ (Entered job.plan st.1.common) st.1.actors st.2.tallies) (by
      rintro st move next ⟨standing,summed,entered⟩ fine taken
      obtain ⟨moved,notes⟩ := noted_some.mp taken
      have reported := ((@List.forall₂_and_left _ _ (Entered job.plan st.1.common)
        (fun actor => Reported job.plan actor.session) _ _).mp (entered.imp fun actor t kept => ⟨kept.reported,kept⟩)).1
      exact ⟨Ownership.standing_step standing (step_steps moved),summed_step standing reported summed (touch_step moved),
        notes ▸ entered_step entered fine moved⟩) _ _ _ (by
      obtain ⟨actors,residual,-,report⟩ := launch_blank job opening
      refine ⟨(Fates.launch_started job opening).1,⟨?_,?_,?_,fun r over_ => ?_⟩,?_⟩
      · simp [actors]
      · simp [actors]
      · simp [actors,residual]
      · rw [residual]
        exact report r over_
      · simp only [actors]
        exact .nil) met reached
  have over_ := Fates.outcome_some.mp reports
  obtain ⟨-,all⟩ := standing.drained (.inr ⟨_,over_⟩)
  have ended : ∀ actor ∈ final.actors, actor.joined = true ∧ isOver actor.session.phase = true ∧ Owing actor.session :=
    fun actor member => ⟨all actor member,summed.joined actor member (all actor member),summed.owing actor member⟩
  have each : List.Forall₂ (fun actor t => t.consumed - t.paid ≤ left actor + startSurplus job.plan actor.session)
      final.actors noted_.tallies := by
    refine ((List.forall₂_and_left _ _).mpr ⟨ended,entered⟩).imp ?_
    rintro actor t ⟨⟨joined,over_,owing⟩,kept⟩
    exact entered_left joined over_ owing kept
  exact ⟨(summed.report report over_).trans summed.sum,each,total_le_notes each⟩

/-! Fetches of a chunk or two, each with a storer of its own, for the runs below. -/

def twoStorers : Job Unit Nat := { Fates.oneStorer false [7,8] with
  bucketOf := fun a => a
  select := fun _ => (AList.singleton (7 : Nat) [(⟨(),1,7⟩,140)]).insert 8 [(⟨(),2,8⟩,140)]
  connections := 2 }

omit [DecidableEq A] [DecidableEq B] in
/-- A fetch of a connection is served and stored. -/
def serving (i k : Nat) : List (Move A B) := [.session i (.task k true),.session i (.task k true)]

/-- A call sends its cheque. -/
def sends : List CallAct := reserving 100000 0 ++ signing ++ finishing

omit [DecidableEq A] [DecidableEq B] in
/-- The peer confirms that nothing is owed. -/
def confirming (i : Nat) : List (Move A B) := [[.pass (5000 * ms)],goes i 1,[.session i (.accepted (some 0))],goes i 1].flatten

/-- The storer hangs up before the chunk is paid for. -/
def hangingUp (i : Nat) : List (Move Nat Nat) :=
  [[.session i .hangUp],goes i 2,[.session i (.accepted none)],goes i 2,[.pass tick],goes i 5].flatten

/-- The chunk is paid for with a cheque, and the peer confirms that nothing is owed. -/
def paying (i : Nat) : List (Move Nat Nat) :=
  [goes i 2,[.session i (.accepted none)],goes i 2,[.pass tick],goes i 6,sends.map fun act => .session i (.cheque act),
    goes i 3,confirming i].flatten

/-- Of two connections the first one ends unpaid, and the second one is settled. -/
def unpaidRun : List (Move Nat Nat) :=
  [[.refill,.dispatch (fun _ => 1) (fun _ => 1) [7,8] none 3,.refill,.dispatch (fun _ => 1) (fun _ => 1) [7,8] none 4,.refill,
      .handshake 0 (some 1),.handshake 1 (some 2)],
    goes 0 6,serving 0 0,goes 1 6,serving 1 0,hangingUp 0,paying 1,
    [.join 1,.refill,.dispatch (fun _ => 0) (fun _ => 0) [7,8] none 3,.join 0,.refill,
      .dispatch (fun _ => 0) (fun _ => 0) [7,8] none 3,.drain [],.report true]].flatten

theorem debts_reported_unpaid : ∃ final noted_, ∃ report : ScheduleReport, run (noted (step twoStorers [7,8]) (note twoStorers))
      (launch twoStorers Fates.opened,Noted.start) unpaidRun = some (final,noted_) ∧
    noted_.tallies = [⟨230000,0⟩,⟨230000,230000⟩] ∧ report.residualDebtUnits = 230000 ∧
    report.residualDebtUnits = total left final.actors % 2 ^ 64 ∧
    List.Forall₂ (fun actor t => t.consumed - t.paid ≤ left actor + startSurplus twoStorers.plan actor.session)
      final.actors noted_.tallies := by
  have ends : (run (noted (step twoStorers [7,8]) (note twoStorers)) (launch twoStorers Fates.opened,Noted.start) unpaidRun).map
      (fun st => (Fates.outcome st.1,st.2.tallies)) =
        some (some (.ok ⟨2,2,2,0,0,0,230000,[]⟩),[⟨230000,0⟩,⟨230000,230000⟩]) := by decide +kernel
  obtain ⟨⟨final,noted_⟩,reached,same⟩ := Option.map_eq_some_iff.mp ends
  simp only [Prod.mk.injEq] at same
  obtain ⟨residual,each,-⟩ := debts_reported twoStorers Fates.opened [7,8] unpaidRun final noted_ _
    (by decide +kernel) reached same.1
  exact ⟨final,noted_,_,reached,same.2,rfl,residual,each⟩

/-! ### The counters and the observations -/

/-- What was put into the peer-state store. -/
def observations (r : Run M A B) : List Observation := r.actors.filterMap fun actor => actor.session.phase.observed

/-- What the counter of spent PLUR is yet to be told of a call, or is to be given back. -/
def drawn : Cheques.Phase → Nat
  | .reserved _ plur _ | .refused plur | .passed _ plur | .drawn _ plur _ | .signed _ plur _ | .written _ plur _
  | .flushed _ plur _ | .recorded _ plur _ | .failed plur _ => clamp64 plur
  | .ended (.ok outcome) => clamp64 outcome.plur
  | _ => 0

def drawing (s : Session A B) : Nat :=
  match s.phase with
  | .emitting _ _ call => drawn call.phase
  | _ => 0

/-- The peer has confirmed that nothing is owed. -/
def clean (s : Session A B) : Nat :=
  match s.phase with
  | .recording n _ confirmed => (decide (n = 0) && confirmed).toNat
  | .closed _ (some observed) _ => observed.cleanClose.toNat
  | _ => 0

def surplus (s : Session A B) : Nat :=
  match s.phase with
  | .closed _ (some observed) _ => observed.surplusUnits.getD 0
  | _ => 0

/-- Before `run_established` knows whether the latency was measured. -/
def unmeasured : Connection.Phase A B → Bool
  | .dialing | .established | .measuring _ | .measurePopped _ _ | .measureRetrieving _ _ _ | .measureServed _ _
  | .measureFailed _ | .measureSweep | .measurePause _ _ | .emitting .lambdaSweep _ _ | .probePause _ _ _ | .probing _ _
  | .measured _ | .closed _ none _ => true
  | _ => false

/-- A latency is known only once it was measured, and is what was observed. -/
structure Metered (s : Session A B) : Prop where
  before : unmeasured s.phase = true → s.measuredLambda = none
  observed : ∀ o, s.phase.observed = some o → o.lambdaMs = s.measuredLambda

/-- A step of a connection adds to the counters what it adds to these. -/
structure Adds (plan : Plan A) (act : Act) (c c' : Common A B) (s s' : Session A B) : Prop where
  clean : clean s' = clean s + (added plan s act).zeroConfirmed
  measured : s'.measuredLambda.isSome.toNat = s.measuredLambda.isSome.toNat + (added plan s act).lambdasMeasured
  surplus : surplus s' = surplus s + (added plan s act).surplusParked
  drawing : (c'.bank.issuedPlur + drawing s) % 2 ^ 64 =
    (c.bank.issuedPlur + drawing s' + (added plan s act).chequePlur) % 2 ^ 64
  small : c.bank.issuedPlur < 2 ^ 64 → c'.bank.issuedPlur < 2 ^ 64

section Session
variable {plan : Plan A} {c c' : Common A B} {s s' : Session A B} {act : Act}

theorem metered_step (metered : Metered s) (moves : Connection.Moves plan c s act c' s') : Metered s' := by
  obtain ⟨before,observed⟩ := metered
  cases moves with
  | hungUp | announced t | taskServed at_ | taskFailed at_ | taskStored at_ | taskSent at_ => exact ⟨before,observed⟩
  | dialed at_ | undialed at_ | startMeasuring at_ unknown mode | unmeasured at_ | measurePop at_ there | measureEnd at_
  | measureSkip at_ there | measureLost at_ absent refused | measureReserve at_ absent reserved | measureServe at_
  | measureFail at_ | measureStore at_ | measureSend at_ | measureLittle at_ | measureWait at_ | sweepBegin at_ woken
  | probeBegin at_ woken | probeAgain at_ wake settled | probeEnd at_ lambda settled =>
    exact ⟨fun _ => before (by rw [at_]; rfl),by rintro o ⟨⟩⟩
  | @calling purpose units call call' act bank at_ taken =>
    refine ⟨fun early => before ?_,by rintro o ⟨⟩⟩
    rw [at_]
    cases purpose <;> first | rfl | cases early
  | @called purpose units call outcome at_ ended =>
    cases purpose with
    | lambdaSweep => exact ⟨fun _ => before (by rw [at_]; rfl),by rintro o ⟨⟩⟩
    | _ => exact ⟨by rintro ⟨⟩,by rintro o ⟨⟩⟩
  | @uncalled purpose units call why at_ ended =>
    cases purpose with
    | lambdaSweep => exact ⟨fun _ => before (by rw [at_]; rfl),by rintro o ⟨⟩⟩
    | initialPrepay | topUp => exact ⟨by rintro ⟨⟩,by rintro o ⟨⟩⟩
    | settle =>
      simp only [chequeFailed]
      split
      · split <;> exact ⟨by rintro ⟨⟩,by rintro o ⟨⟩⟩
      · exact ⟨by rintro ⟨⟩,by rintro o ⟨⟩⟩
  | settled at_ =>
    rcases settle_cases plan c s with same | ⟨units,-,-,-,same⟩ | same <;> rw [same] <;> exact ⟨by rintro ⟨⟩,by rintro o ⟨⟩⟩
  | recorded at_ => exact ⟨by rintro ⟨⟩,by rintro o ⟨⟩; rfl⟩
  | _ => exact ⟨by rintro ⟨⟩,by rintro o ⟨⟩⟩

omit [DecidableEq A] [DecidableEq B] in
/-- Nothing is added but by the connection itself, or an acceptance. -/
theorem added_nothing (other : act ≠ .go) (plain : ∀ units, act ≠ .accepted units) : added plan s act = Counters.zero := by
  unfold added
  split <;> simp_all

theorem call_adds {lim : Limits} {bank bank' : Bank B} {call : Call B} {act : CallAct} {phase : Cheques.Phase}
    (moves : Cheques.Moves lim bank call act bank' phase) :
    (bank'.issuedPlur + drawn call.phase) % 2 ^ 64 = (bank.issuedPlur + drawn phase) % 2 ^ 64 ∧
      (bank.issuedPlur < 2 ^ 64 → bank'.issuedPlur < 2 ^ 64) := by
  cases moves with
  | @reserved rate plur at_ =>
    simp only [at_,drawn,wrapAdd]
    omega
  | @givenUp plur at_ | @givenBack plur why at_ =>
    have small := clamp64_lt plur
    simp only [at_,drawn,wrapSub]
    omega
  | _ => exact ⟨by simp_all [drawn],id⟩

/-- A connection has nothing to show. -/
def Bare (s : Session A B) : Prop := clean s = 0 ∧ surplus s = 0 ∧ drawing s = 0

omit [DecidableEq A] [DecidableEq B] in
theorem adds_bare (nothing : added plan s act = Counters.zero) (bank : c'.bank = c.bank)
    (measured : s'.measuredLambda = s.measuredLambda) (before : Bare s) (after : Bare s') : Adds plan act c c' s s' := by
  obtain ⟨clean0,surplus0,drawing0⟩ := before
  obtain ⟨clean1,surplus1,drawing1⟩ := after
  refine ⟨?_,?_,?_,?_,by rw [bank]; exact id⟩ <;> rw [nothing]
  · rw [clean0,clean1]; rfl
  · rw [measured]; rfl
  · rw [surplus0,surplus1]; rfl
  · rw [drawing0,drawing1,bank]; rfl

omit [DecidableEq A] [DecidableEq B] in
theorem adds_same (nothing : added plan s act = Counters.zero) (bank : c'.bank = c.bank)
    (measured : s'.measuredLambda = s.measuredLambda) (phase : s'.phase = s.phase) : Adds plan act c c' s s' := by
  refine ⟨?_,?_,?_,?_,by rw [bank]; exact id⟩ <;> rw [nothing]
  · rw [clean,clean,phase]; rfl
  · rw [measured]; rfl
  · rw [surplus,surplus,phase]; rfl
  · rw [drawing,drawing,phase,bank]; rfl

theorem adds_step (metered : Metered s) (moves : Connection.Moves plan c s act c' s') : Adds plan act c c' s s' := by
  cases moves with
  | hungUp | announced t | taskServed at_ | taskFailed at_ | taskStored at_ | taskSent at_ =>
    exact adds_same (added_nothing (by simp) (by simp)) rfl rfl rfl
  | @calling purpose units call call' act bank at_ taken =>
    have nothing : added plan s (.cheque act) = Counters.zero := added_nothing (by simp) (by simp)
    obtain ⟨balance,small⟩ := call_adds (callStep_moves taken).1
    refine ⟨?_,?_,?_,?_,small⟩ <;> rw [nothing]
    · simp [clean,at_,Counters.zero]
    · simp [Counters.zero]
    · simp [surplus,at_,Counters.zero]
    · simp only [drawing,at_]
      exact balance
  | @called purpose units call outcome at_ ended =>
    obtain ⟨b,debt,phase⟩ := call
    cases ended
    refine ⟨?_,?_,?_,?_,id⟩ <;> cases purpose <;> simp [added,chequeSent,clean,surplus,drawing,drawn,at_,Counters.zero]
  | @uncalled purpose units call why at_ ended =>
    obtain ⟨b,debt,phase⟩ := call
    cases ended
    have nothing : added plan s .go = Counters.zero := by simp [added,at_]
    have before : Bare s := ⟨by simp [clean,at_],by simp [surplus,at_],by simp [drawing,at_,drawn]⟩
    cases purpose with
    | lambdaSweep | initialPrepay | topUp => exact adds_bare nothing rfl rfl before ⟨rfl,rfl,rfl⟩
    | settle =>
      simp only [chequeFailed]
      split
      · split <;> exact adds_bare nothing rfl rfl before ⟨rfl,rfl,rfl⟩
      · exact adds_bare nothing rfl rfl before ⟨rfl,rfl,rfl⟩
  | settled at_ =>
    have nothing : added plan s .go = Counters.zero := by simp [added,at_]
    have before : Bare s := ⟨by simp [clean,at_],by simp [surplus,at_],by simp [drawing,at_]⟩
    rcases settle_cases plan c s with same | ⟨units,-,-,-,same⟩ | same <;> rw [same] <;>
      exact adds_bare nothing rfl rfl before ⟨rfl,rfl,rfl⟩
  | @prepayBegin lambda at_ mode short | @driveBegin lambda at_ enough =>
    have none_ := metered.before (by rw [at_]; rfl)
    rw [noteLambda_eq]
    refine ⟨?_,?_,?_,?_,id⟩ <;> cases lambda <;> simp [added,startEmit,clean,surplus,drawing,drawn,at_,none_,Counters.zero]
  | @recorded residual consumed confirmed at_ =>
    refine ⟨?_,?_,?_,?_,id⟩ <;> simp only [added,clean,surplus,drawing,at_,Counters.zero,Nat.add_zero,Nat.zero_add]
    split <;> rfl
  | @confirmed consumed units at_ =>
    refine ⟨?_,?_,?_,?_,id⟩ <;> simp [added,clean,surplus,drawing,at_,Counters.zero]
    split <;> simp_all
  | @probeAgain t0 zeroAt zeroAt' units at_ wake settled | @probeEnd t0 zeroAt units at_ lambda settled | @refreshed units at_ =>
    refine ⟨?_,?_,?_,?_,id⟩ <;> cases units <;> simp [added,clean,surplus,drawing,at_,Counters.zero]
  | undialed at_ | unconfirmed at_ why =>
    refine adds_bare (by simp [added,at_]) rfl rfl ⟨?_,?_,?_⟩ ⟨?_,rfl,rfl⟩
    · simp [clean,at_]
    · simp [surplus,at_]
    · simp [drawing,at_]
    · simp [clean]
  | _ =>
    refine adds_bare ?_ rfl rfl ⟨?_,?_,?_⟩ ⟨rfl,rfl,rfl⟩
    · simp_all [added]
    · simp_all [clean]
    · simp_all [surplus]
    · simp_all [drawing]

end Session

/-- The counters of a run are those of its connections, and of the spend guard. -/
structure Agrees (r : Run M A B) (n : Counters) : Prop where
  metered : ∀ actor ∈ r.actors, Metered actor.session
  clean : n.zeroConfirmed = total (fun actor : Actor A B => clean actor.session) r.actors % 2 ^ 64
  measured : n.lambdasMeasured = total (fun actor : Actor A B => actor.session.measuredLambda.isSome.toNat) r.actors % 2 ^ 64
  surplus : n.surplusParked = total (fun actor : Actor A B => surplus actor.session) r.actors % 2 ^ 64
  drawing : r.common.bank.issuedPlur % 2 ^ 64 =
    (n.chequePlur + total (fun actor : Actor A B => drawing actor.session) r.actors) % 2 ^ 64
  issued : r.common.bank.issuedPlur < 2 ^ 64
  told : n.chequePlur < 2 ^ 64

section Runs
variable {job : Job M A} {needed : List A} {r r' : Run M A B} {move : Move A B}

theorem metered_touch (metered : ∀ actor ∈ r.actors, Metered actor.session) {acted : Option (Nat × Act)}
    (touch : Touch job r r' acted) : ∀ actor ∈ r'.actors, Metered actor.session := by
  cases touch with
  | @moved i actor act session actor' at_ taken same joined actors residual main =>
    rw [actors]
    refine forall_set metered ?_
    rw [same]
    exact metered_step (metered actor (mem_of_found at_)) (step_moves taken)
  | @joined i actor residual observed parked at_ open_ closed common actors sum main =>
    rw [actors]
    exact forall_set metered (metered actor (mem_of_found at_))
  | spawned overlay bucket beneficiary known warm session open_ common actors residual main =>
    rw [actors]
    refine forall_append metered ?_
    rw [session]
    exact ⟨fun _ => rfl,by cases warm <;> rintro o ⟨⟩⟩
  | rested bank actors residual main =>
    rw [actors]
    exact metered

theorem agrees_step {n : Noted} (agrees : Agrees r n.counters) (taken : step job needed r move = some r') :
    Agrees r' (note job r move r' n).counters := by
  have touch := touch_step taken
  have metered := metered_touch agrees.metered touch
  unfold note
  generalize acting r move = acted at touch
  cases acted with
  | none =>
    obtain ⟨clean_,bank⟩ := rest_total (f := clean) (fun _ _ _ _ warm => by cases warm <;> rfl) touch
    obtain ⟨measured_,-⟩ := rest_total (f := fun s => s.measuredLambda.isSome.toNat) (fun _ _ _ _ warm => rfl) touch
    obtain ⟨surplus_,-⟩ := rest_total (f := surplus) (fun _ _ _ _ warm => by cases warm <;> rfl) touch
    obtain ⟨drawing_,-⟩ := rest_total (f := drawing) (fun _ _ _ _ warm => by cases warm <;> rfl) touch
    refine ⟨metered,?_,?_,?_,?_,?_,agrees.told⟩
    · rw [clean_]; exact agrees.clean
    · rw [measured_]; exact agrees.measured
    · rw [surplus_]; exact agrees.surplus
    · rw [drawing_,bank]; exact agrees.drawing
    · rw [bank]; exact agrees.issued
  | some acted =>
    cases touch with
    | @moved i actor act session actor' at_ stepped same joined actors residual main =>
      subst same
      have adds := adds_step (agrees.metered actor (mem_of_found at_)) (step_moves stepped)
      have balance := agrees.drawing
      have moved := total_set (fun actor : Actor A B => drawing actor.session) actor' at_
      have more := adds.drawing
      simp only [at_]
      refine ⟨metered,?_,?_,?_,?_,adds.small agrees.issued,wrapAdd_lt _ _⟩
      · rw [actors]; exact moved_total at_ adds.clean agrees.clean
      · rw [actors]; exact moved_total (f := fun s => s.measuredLambda.isSome.toNat) at_ adds.measured agrees.measured
      · rw [actors]; exact moved_total at_ adds.surplus agrees.surplus
      · rw [actors]
        simp only [Counters.add,wrapAdd] at balance moved more ⊢
        omega

omit [DecidableEq B] in
/-- Connections show what was observed of them. -/
theorem total_observed {f : Session A B → Nat} (w : Observation → Nat)
    (shows : ∀ actor ∈ r.actors, f actor.session = (actor.session.phase.observed.map w).getD 0) :
    total (fun actor : Actor A B => f actor.session) r.actors = total w (observations r) := by
  unfold observations
  generalize r.actors = actors at shows
  induction actors with
  | nil => rfl
  | cons actor rest ih =>
    rw [total_cons,ih fun other member => shows other (List.mem_cons_of_mem _ member),shows actor List.mem_cons_self,List.filterMap_cons]
    cases actor.session.phase.observed with
    | none => exact Nat.zero_add _
    | some o => rw [total_cons]; rfl

omit [DecidableEq A] [DecidableEq B] in
/-- What a connection that is over shows. -/
theorem shows_over {s : Session A B} (metered : Metered s) (over_ : isOver s.phase = true) :
    clean s = (s.phase.observed.map fun o => o.cleanClose.toNat).getD 0 ∧
    s.measuredLambda.isSome.toNat = (s.phase.observed.map fun o => o.lambdaMs.isSome.toNat).getD 0 ∧
    surplus s = (s.phase.observed.map fun o => o.surplusUnits.getD 0).getD 0 ∧ drawing s = 0 := by
  obtain ⟨n,observed,parked,at_⟩ := over_iff.mp over_
  unfold clean surplus drawing
  cases observed with
  | none =>
    have none_ := metered.before (by rw [at_]; rfl)
    simp [at_,none_,Phase.observed]
  | some o =>
    have same := metered.observed o (by rw [at_]; rfl)
    simp [at_,same,Phase.observed]

end Runs

/-- When a fetch reports, its counters agree with what its connections put into the
    peer-state store: the clean closes, the measured latencies and the surpluses; and
    the PLUR that it reports as spent is what the spend guard has counted. -/
theorem figures_agree (job : Job M A) (opening : Opening A B) (needed : List A) (moves : List (Move A B)) (final : Run M A B)
    (noted_ : Noted) (report : ScheduleReport)
    (reached : run (noted (step job needed) (note job)) (launch job opening,Noted.start) moves = some (final,noted_))
    (reports : Fates.outcome final = some (.ok report)) :
    noted_.counters.zeroConfirmed = total (fun o => o.cleanClose.toNat) (observations final) % 2 ^ 64 ∧
    noted_.counters.lambdasMeasured = total (fun o => o.lambdaMs.isSome.toNat) (observations final) % 2 ^ 64 ∧
    noted_.counters.surplusParked = total (fun o => o.surplusUnits.getD 0) (observations final) % 2 ^ 64 ∧
    noted_.counters.chequePlur = final.common.bank.issuedPlur := by
  obtain ⟨standing,ended,agrees⟩ := @run_invariant _ _ _ (fun st : Run M A B × Noted => Ownership.Standing st.1 ∧
    (∀ actor ∈ st.1.actors, actor.joined = true → isOver actor.session.phase = true) ∧ Agrees st.1 st.2.counters) (by
      rintro st move next ⟨standing,ended,agrees⟩ taken
      obtain ⟨moved,notes⟩ := noted_some.mp taken
      exact ⟨Ownership.standing_step standing (step_steps moved),ended_step ended (touch_step moved),
        notes ▸ agrees_step agrees moved⟩) _ _ _ (by
      obtain ⟨actors,-,issued,-⟩ := launch_blank job opening
      refine ⟨(Fates.launch_started job opening).1,by simp [actors],⟨by simp [actors],?_,?_,?_,?_,?_,?_⟩⟩
      · simp [actors,Noted.start,Counters.zero]
      · simp [actors,Noted.start,Counters.zero]
      · simp [actors,Noted.start,Counters.zero]
      · simp [actors,issued,Noted.start,Counters.zero]
      · simp [issued]
      · simp [Noted.start,Counters.zero]) reached
  obtain ⟨-,all⟩ := standing.drained (.inr ⟨_,Fates.outcome_some.mp reports⟩)
  have shows := fun actor member => shows_over (agrees.metered actor member) (ended actor member (all actor member))
  have none_ : total (fun actor : Actor A B => drawing actor.session) final.actors = 0 := by
    have all_ := total_mono (g := fun _ => 0) fun actor member => (shows actor member).2.2.2.le
    exact Nat.le_zero.mp (all_.trans (by simp [total]))
  have issued : final.common.bank.issuedPlur < 2 ^ 64 := agrees.issued
  have told : noted_.counters.chequePlur < 2 ^ 64 := agrees.told
  have balance := agrees.drawing
  simp only [none_,Nat.add_zero] at balance
  refine ⟨?_,?_,?_,by omega⟩
  · rw [agrees.clean,← total_observed _ fun actor member => (shows actor member).1]
  · rw [agrees.measured,← total_observed (f := fun s => s.measuredLambda.isSome.toNat) _ fun actor member => (shows actor member).2.1]
  · rw [agrees.surplus,← total_observed _ fun actor member => (shows actor member).2.2.1]

/-- The only chunk is served and settled. -/
def settledRun : List (Move Nat Nat) :=
  [Fates.dial 1,[.handshake 0 (some 1)],goes 0 6,serving 0 0,paying 0,Fates.winding,[.report true]].flatten

theorem figures_agree_settled : ∃ final noted_, run (noted (step (Fates.oneStorer false [7]) [7])
      (note (Fates.oneStorer false [7]))) (launch (Fates.oneStorer false [7]) Fates.opened,Noted.start) settledRun =
        some (final,noted_) ∧
    total (fun o => o.cleanClose.toNat) (observations final) = 1 ∧ noted_.counters.zeroConfirmed = 1 ∧
    noted_.counters.chequePlur = 23000000000 ∧ final.common.bank.issuedPlur = 23000000000 := by
  have ends : (run (noted (step (Fates.oneStorer false [7]) [7]) (note (Fates.oneStorer false [7])))
      (launch (Fates.oneStorer false [7]) Fates.opened,Noted.start) settledRun).map (fun st =>
        (Fates.outcome st.1,total (fun o => o.cleanClose.toNat) (observations st.1),st.2.counters.chequePlur)) =
      some (some (.ok ⟨1,1,1,0,0,0,0,[]⟩),1,23000000000) := by decide +kernel
  obtain ⟨⟨final,noted_⟩,reached,same⟩ := Option.map_eq_some_iff.mp ends
  simp only [Prod.mk.injEq] at same
  obtain ⟨reports,cleanly,spent⟩ := same
  obtain ⟨clean,-,-,issued⟩ := figures_agree (Fates.oneStorer false [7]) Fates.opened [7] settledRun final noted_ _ reached reports
  refine ⟨final,noted_,reached,cleanly,?_,spent,issued ▸ spent⟩
  rw [clean,cleanly]
  rfl

end Directswarm.Figures
