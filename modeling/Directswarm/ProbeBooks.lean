import Mathlib
import Directswarm.Probing

/-!
The books of a probe, over all interleavings of its tasks. The lock around the
reservation keeps what is owed and what is in flight within half the threshold
(`exposure_capped`), and what is consumed is paid or reported, but for a cheque that is
caught between its two postings (`nothing_unreported`).
-/
namespace Directswarm.ProbeBooks
open Directswarm.Words Directswarm.Runs Directswarm.Interleaving Directswarm.Cheques Directswarm.Issuance
  Directswarm.Pacing Directswarm.Probing

variable {A B S : Type}

/-- What the accounting crate is documented to do, as far as the numbers fit a word. -/
structure Lawful (acct : Accounting S) : Prop where
  new : acct.snapshot acct.new = (0,0)
  reserved : ∀ s s' price, acct.tryReserve s price = some s' → (acct.snapshot s).1 + (acct.snapshot s).2 + price < 2 ^ 64 →
    acct.snapshot s' = ((acct.snapshot s).1,(acct.snapshot s).2 + price)
  applied : ∀ s price, price ≤ (acct.snapshot s).2 → (acct.snapshot s).1 + (acct.snapshot s).2 < 2 ^ 64 →
    acct.snapshot (acct.apply s price) = ((acct.snapshot s).1 + price,(acct.snapshot s).2 - price)
  dropped : ∀ s price, price ≤ (acct.snapshot s).2 →
    acct.snapshot (acct.drop s price) = ((acct.snapshot s).1,(acct.snapshot s).2 - price)
  credited : ∀ s units, acct.snapshot (acct.credit s units) = ((acct.snapshot s).1 - units,(acct.snapshot s).2)

/-- The books of one peer, which is unknown until something is reserved with it. -/
def oneMirror (limit : Nat) : Accounting (Option Mirror) where
  new := none
  debugSnapshot known := known.map fun m => (m.balance,m.reserved)
  tryReserve known price := ((known.getD ⟨0,0⟩).tryReserve price limit).map some
  apply known price := known.map fun m => m.apply price
  drop known price := known.map fun m => m.release price
  credit known units := known.map fun m => m.credit units

theorem oneMirror_lawful (limit : Nat) : Lawful (oneMirror limit) := by
  refine ⟨rfl,?_,?_,?_,?_⟩
  · intro known known' price taken small
    obtain ⟨m',reserved,rfl⟩ := Option.map_eq_some_iff.mp taken
    obtain ⟨-,rfl⟩ := Mirror.tryReserve_some.mp reserved
    cases known with
    | none =>
      simp only [oneMirror,Accounting.snapshot,Option.map_none,Option.getD_none,Option.map_some,Option.getD_some] at small ⊢
      rw [wrapAdd_exact (by omega)]
    | some m =>
      simp only [oneMirror,Accounting.snapshot,Option.map_some,Option.getD_some] at small ⊢
      rw [wrapAdd_exact (by omega)]
  · intro known price reserved small
    cases known with
    | none =>
      have free : price = 0 := Nat.le_zero.mp reserved
      rw [free]
      rfl
    | some m =>
      simp only [oneMirror,Accounting.snapshot,Option.map_some,Option.getD_some] at reserved small ⊢
      have top := u64Max_succ
      rw [Mirror.apply,satAdd_exact (by omega)]
  · intro known price reserved
    cases known with
    | none =>
      have free : price = 0 := Nat.le_zero.mp reserved
      rw [free]
      rfl
    | some m => rfl
  · intro known units
    cases known with
    | none => simp [oneMirror,Accounting.snapshot]
    | some m => rfl

theorem reserveCap_small (announced : Option U256) : reserveCap announced < 2 ^ 63 := by
  unfold reserveCap
  cases announced with
  | none => decide
  | some t =>
    simp only
    split <;> omega

/-! ### What is owed and in flight -/

def holding (task : ProbeTask A) : Nat := task.stage.holds.toNat
def running (task : ProbeTask A) : Nat := task.stage.running.toNat

theorem total_running (tasks : List (ProbeTask A)) :
    total running tasks = (tasks.filter fun task => task.stage.running).length := by
  induction tasks with
  | nil => rfl
  | cons task rest ih =>
    rw [total_cons,ih,List.filter_cons,running]
    cases task.stage.running
    · exact Nat.zero_add _
    · rw [if_pos rfl,List.length_cons,Nat.add_comm]
      rfl

/-- The reservations are the fetches in flight; balance and reservations are within the
    cap, and within what the one fetch that holds the lock has read. -/
structure Exposed (setup : Setup A B S) (p : Probe A B S) : Prop where
  flight : p.reserved setup = total (flying setup) p.tasks
  capped : p.balance setup + p.reserved setup ≤ setup.reserveCap
  held : ∀ task ∈ p.tasks, ∀ balance reserved, task.stage = .holding balance reserved →
    p.balance setup + p.reserved setup ≤ balance + reserved
  alone : total holding p.tasks ≤ 1
  permits : total running p.tasks ≤ setup.pipelineDepth

section Exposure
variable {setup : Setup A B S} {p p' : Probe A B S}

/-- The books are touched only to owe less. -/
theorem exposed_less (exposed : Exposed setup p) (tasks : p'.tasks = p.tasks) (reserved : p'.reserved setup = p.reserved setup)
    (less : p'.balance setup ≤ p.balance setup) : Exposed setup p' := by
  obtain ⟨flight,capped,held,alone,permits⟩ := exposed
  refine ⟨by rw [reserved,tasks]; exact flight,by omega,?_,by rw [tasks]; exact alone,by rw [tasks]; exact permits⟩
  rw [tasks,reserved]
  intro task member b r at_
  have := held task member b r at_
  omega

/-- The books are not touched, and a fetch goes where it holds nothing. -/
theorem exposed_quiet (exposed : Exposed setup p) {k : Nat} {task task' : ProbeTask A} (at_ : p.tasks[k]? = some task)
    (tasks : p'.tasks = p.tasks.set k task') (acct : p'.acct = p.acct) (flies : flying setup task' = flying setup task)
    (holds : task'.stage.holds = false) (runs : running task' ≤ running task) : Exposed setup p' := by
  obtain ⟨flight,capped,held,alone,permits⟩ := exposed
  have flown := total_set (flying setup) task' at_
  have held_ := total_set holding task' at_
  have ran := total_set running task' at_
  have none_ : holding task' = 0 := by rw [holding,holds]; rfl
  have reserved : p'.reserved setup = p.reserved setup := by rw [Probe.reserved,Probe.reserved,acct]
  have balance : p'.balance setup = p.balance setup := by rw [Probe.balance,Probe.balance,acct]
  rw [flies] at flown
  refine ⟨?_,by rw [balance,reserved]; exact capped,?_,by rw [tasks]; omega,by rw [tasks]; omega⟩
  · rw [tasks,reserved,flight]
    omega
  · rw [tasks,balance,reserved]
    refine forall_set held fun b r at' => ?_
    rw [at'] at holds
    cases holds

/-- The fetch with the lock takes it. -/
theorem exposed_locked (exposed : Exposed setup p) {k : Nat} {addr : A} (at_ : p.tasks[k]? = some ⟨addr,.locking⟩)
    (free : ∀ task ∈ p.tasks, task.stage.holds = false) :
    Exposed setup (p.setStage k addr (.holding (p.balance setup) (p.reserved setup))) := by
  obtain ⟨flight,capped,held,alone,permits⟩ := exposed
  have flown := total_set (flying setup) ⟨addr,.holding (p.balance setup) (p.reserved setup)⟩ at_
  have held_ := total_set holding ⟨addr,.holding (p.balance setup) (p.reserved setup)⟩ at_
  have ran := total_set running ⟨addr,.holding (p.balance setup) (p.reserved setup)⟩ at_
  have none_ : total holding p.tasks ≤ 0 := by
    have none_ := total_mono (f := holding) (g := fun _ => 0) fun task member => by rw [holding,free task member]; exact le_rfl
    simpa [total] using none_
  refine ⟨?_,capped,?_,?_,?_⟩
  · simp only [flying,Nat.add_zero] at flown
    exact flight.trans flown.symm
  · refine forall_set held fun b r at' => ?_
    cases at'
    exact le_rfl
  · simp only [holding,Stage.holds,Bool.toNat_true,Bool.toNat_false] at held_ none_
    show total holding (p.tasks.set k _) ≤ 1
    omega
  · simp only [running,Stage.running] at ran permits
    show total running (p.tasks.set k _) ≤ _
    omega

/-- The price fits under the cap: what the fetch with the lock has read is still an upper
    bound, as only it can reserve. -/
theorem reserve_fits (exposed : Exposed setup p) {k : Nat} {addr : A} {balance reserved : Nat}
    (at_ : p.tasks[k]? = some ⟨addr,.holding balance reserved⟩)
    (within : satAdd (satAdd balance reserved) (setup.peerPrice addr) ≤ setup.reserveCap) :
    p.balance setup + p.reserved setup + setup.peerPrice addr ≤ setup.reserveCap := by
  have small : setup.reserveCap < 2 ^ 63 := reserveCap_small _
  have top := u64Max_succ
  have sum := satAdd_lt within (by omega)
  have inner : balance + reserved ≤ setup.reserveCap := satAdd_lt (show satAdd balance reserved ≤ _ by omega) (by omega)
  have whole : satAdd balance reserved = balance + reserved := satAdd_exact (by omega)
  have read := exposed.held _ (mem_of_found at_) balance reserved rfl
  omega

theorem reserved_after (lawful : Lawful setup.accounting) {price : Nat} {acct : S}
    (fits : p.balance setup + p.reserved setup + price ≤ setup.reserveCap)
    (taken : setup.accounting.tryReserve p.acct price = some acct) :
    setup.accounting.snapshot acct = (p.balance setup,p.reserved setup + price) := by
  have small : setup.reserveCap < 2 ^ 63 := reserveCap_small _
  exact lawful.reserved _ _ _ taken (by simp only [Probe.balance,Probe.reserved] at fits; omega)

/-- The fetch that holds the lock reserves the price, and lets go of the lock. -/
theorem exposed_reserves (lawful : Lawful setup.accounting) (exposed : Exposed setup p) {k : Nat} {addr : A}
    {balance reserved : Nat} {acct : S} (at_ : p.tasks[k]? = some ⟨addr,.holding balance reserved⟩)
    (within : satAdd (satAdd balance reserved) (setup.peerPrice addr) ≤ setup.reserveCap)
    (taken : setup.accounting.tryReserve p.acct (setup.peerPrice addr) = some acct) :
    Exposed setup { p.setStage k addr (.retrieving p.now) with acct := acct } := by
  have fits := reserve_fits exposed at_ within
  have after := reserved_after lawful fits taken
  obtain ⟨flight,capped,held,alone,permits⟩ := exposed
  have flown := total_set (flying setup) ⟨addr,.retrieving p.now⟩ at_
  have held_ := total_set holding ⟨addr,.retrieving p.now⟩ at_
  have ran := total_set running ⟨addr,.retrieving p.now⟩ at_
  have other : total holding (p.tasks.set k ⟨addr,.retrieving p.now⟩) = 0 := by
    simp only [holding,Stage.holds,Bool.toNat_true,Bool.toNat_false] at held_ alone ⊢
    omega
  refine ⟨?_,?_,?_,?_,?_⟩
  · rw [Probe.reserved,after]
    show _ = total (flying setup) (p.tasks.set k _)
    simp only [flying,Nat.add_zero] at flown ⊢
    omega
  · rw [Probe.balance,Probe.reserved,after]
    simp only
    omega
  · intro task member b r at'
    have share := le_total holding (show task ∈ p.tasks.set k ⟨addr,.retrieving p.now⟩ from member)
    rw [other,holding,at'] at share
    cases share
  · exact other.le.trans (Nat.zero_le _)
  · simp only [running,Stage.running] at ran permits
    show total running (p.tasks.set k _) ≤ _
    omega

/-- A fetch ends: what it had reserved is owed, or released. -/
theorem exposed_ended (exposed : Exposed setup p) {k started : Nat} {addr : A} {result : Except (List Char) Nat}
    (at_ : p.tasks[k]? = some ⟨addr,.retrieving started⟩) (tasks : p'.tasks = p.tasks.set k ⟨addr,.ended result⟩)
    (reserved : p'.reserved setup = p.reserved setup - setup.peerPrice addr)
    (balance : p'.balance setup ≤ p.balance setup + setup.peerPrice addr) : Exposed setup p' := by
  obtain ⟨flight,capped,held,alone,permits⟩ := exposed
  have flown := total_set (flying setup) ⟨addr,.ended result⟩ at_
  have held_ := total_set holding ⟨addr,.ended result⟩ at_
  have ran := total_set running ⟨addr,.ended result⟩ at_
  simp only [flying,Nat.add_zero] at flown
  refine ⟨?_,?_,?_,?_,?_⟩
  · rw [tasks,reserved,flight]
    omega
  · omega
  · rw [tasks]
    refine forall_set (fun task member b r at' => ?_) fun b r at' => ?_
    · have read := held task member b r at'
      omega
    · cases at'
  · rw [tasks]
    simp only [holding,Stage.holds] at held_ alone ⊢
    omega
  · rw [tasks]
    simp only [running,Stage.running,Bool.toNat_true,Bool.toNat_false] at ran permits ⊢
    omega

theorem exposed_price (exposed : Exposed setup p) {k started : Nat} {addr : A}
    (at_ : p.tasks[k]? = some ⟨addr,.retrieving started⟩) :
    setup.peerPrice addr ≤ p.reserved setup := by
  rw [exposed.flight]
  exact le_total (flying setup) (mem_of_found at_)

theorem exposed_small (exposed : Exposed setup p) : p.balance setup + p.reserved setup < 2 ^ 64 := by
  have small : setup.reserveCap < 2 ^ 63 := reserveCap_small _
  have capped := exposed.capped
  omega

variable [DecidableEq B]

omit [DecidableEq B] in
theorem exposed_credit (lawful : Lawful setup.accounting) (exposed : Exposed setup p) (units : Nat)
    (acct : p'.acct = setup.accounting.credit p.acct units) (tasks : p'.tasks = p.tasks) : Exposed setup p' := by
  have after := lawful.credited p.acct units
  refine exposed_less exposed tasks ?_ ?_
  · rw [Probe.reserved,acct,after]
    rfl
  · rw [Probe.balance,acct,after]
    exact Nat.sub_le _ _

/-- A cheque touches the account only to credit it. -/
theorem emit_acct (setup : Setup A B S) (p : Probe A B S) (units : Nat) (answers : Answers) :
    (emitStep setup p units answers).tasks = p.tasks ∧ ((emitStep setup p units answers).acct = p.acct ∨
      (emitStep setup p units answers).acct = setup.accounting.credit p.acct units) := by
  unfold emitStep
  split
  · simp only
    split
    · exact ⟨rfl,.inr rfl⟩
    · exact ⟨rfl,.inl rfl⟩
  · simp only
    split
    · exact ⟨rfl,.inl rfl⟩
    · exact ⟨rfl,.inl rfl⟩

theorem exposed_step (lawful : Lawful setup.accounting) (exposed : Exposed setup p) {move : Move A}
    (steps : Steps setup p move p') : Exposed setup p' := by
  have still : ∀ {q : Probe A B S}, q.tasks = p.tasks → q.acct = p.acct → Exposed setup q := by
    intro q tasks acct
    exact exposed_less exposed tasks (by rw [Probe.reserved,Probe.reserved,acct]) (by rw [Probe.balance,Probe.balance,acct])
  cases steps with
  | @spawned addr rest at_ next permit =>
    obtain ⟨flight,capped,held,alone,permits⟩ := exposed
    have few : total running p.tasks < setup.pipelineDepth := by
      rw [total_running]
      exact permit
    refine ⟨?_,capped,?_,?_,?_⟩
    · show _ = total (flying setup) (p.tasks ++ [⟨addr,.starting⟩])
      rw [total_append]
      exact flight
    · exact forall_append held (by rintro b r ⟨⟩)
    · show total holding (p.tasks ++ [⟨addr,.starting⟩]) ≤ 1
      rw [total_append]
      exact alone
    · show total running (p.tasks ++ [⟨addr,.starting⟩]) ≤ _
      rw [total_append]
      exact few
  | @joinedOk k addr latency at_ there | @joinedErr k addr why at_ there =>
    obtain ⟨flight,capped,held,alone,permits⟩ := exposed
    have flown := total_eraseIdx (flying setup) there
    have held_ := total_eraseIdx holding there
    have ran := total_eraseIdx running there
    refine ⟨?_,capped,fun task member => held task (List.mem_of_mem_eraseIdx member),?_,?_⟩
    · exact flight.trans flown.symm
    · show total holding (p.tasks.eraseIdx k) ≤ 1
      omega
    · show total running (p.tasks.eraseIdx k) ≤ _
      omega
  | checked at_ | refused at_ dead | paused at_ | resumed at_ =>
    exact exposed_quiet exposed at_ rfl rfl rfl rfl (by simp [running,Stage.running])
  | locked at_ free => exact exposed_locked exposed at_ free
  | reserves at_ within taken => exact exposed_reserves lawful exposed at_ within taken
  | @served k started len latency addr at_ =>
    have after := lawful.applied p.acct (setup.peerPrice addr) (exposed_price exposed at_) (exposed_small exposed)
    refine exposed_ended exposed at_ rfl ?_ ?_
    · simp only [Probe.reserved,after]
    · simp only [Probe.balance,after,le_refl]
  | @failed k started addr why at_ =>
    have after := lawful.dropped p.acct (setup.peerPrice addr) (exposed_price exposed at_)
    refine exposed_ended exposed at_ rfl ?_ ?_
    · simp only [Probe.reserved,after]
    · simp only [Probe.balance,after]
      omega
  | @emitted units answers at_ =>
    obtain ⟨tasks,same | credit⟩ := emit_acct setup p units answers
    · exact still tasks same
    · exact exposed_credit lawful exposed units credit tasks
  | accepted at_ | posted at_ due => exact exposed_credit lawful exposed _ rfl rfl
  | _ => exact still rfl rfl

omit [DecidableEq B] in
theorem exposed_launch (setup : Setup A B S) (lawful : Lawful setup.accounting) (now : Nat)
    (ledger : Finmap fun _ : B => U256) : Exposed setup (launch setup now ledger) := by
  have nothing : setup.accounting.snapshot setup.accounting.new = (0,0) := lawful.new
  refine ⟨?_,?_,by simp [launch],Nat.zero_le _,Nat.zero_le _⟩
  · simp [Probe.reserved,launch,nothing]
  · simp [Probe.reserved,Probe.balance,launch,nothing]

end Exposure

/-- In every state of a probe, with any accounting that does as documented, what is owed
    and what is reserved are within half the announced threshold together, although
    balance and reservations are read before the reservation is made; what is reserved
    are the prices of the fetches in flight, of which no more run than the pipeline has
    permits. -/
theorem exposure_capped [DecidableEq B] (setup : Setup A B S) (lawful : Lawful setup.accounting) (now : Nat)
    (ledger : Finmap fun _ : B => U256) (moves : List (Move A)) (p : Probe A B S)
    (reached : run (step setup) (launch setup now ledger) moves = some p) :
    p.balance setup + p.reserved setup ≤ setup.reserveCap ∧ p.reserved setup = total (flying setup) p.tasks ∧
      (p.tasks.filter fun task => task.stage.running).length ≤ setup.pipelineDepth := by
  have exposed := @run_invariant _ _ _ (Exposed setup)
    (fun q move next exposed taken => exposed_step lawful exposed (step_steps taken)) _ _ _
    (exposed_launch setup lawful now ledger) reached
  exact ⟨exposed.capped,exposed.flight,total_running p.tasks ▸ exposed.permits⟩

/-- A storer that takes the same for each of the chunks. -/
def storer (price : Nat) (chunks : List Nat) : Setup Nat Nat (Option Mirror) where
  accounting := oneMirror 1687500
  lim := ⟨10 ^ 12,10 ^ 10,tenBillion_fits⟩
  beneficiary := 1
  pipelineDepth := 2
  chunks := chunks
  peerPrice _ := price
  announced := none
  hex _ := []

/-- Two fetches want half of the cap each, and have it in flight together. -/
def fullMoves : List (Move Nat) :=
  [.spawn,.spawn,.task 0,.task 1,.task 0,.task 0,.task 1,.task 1]

theorem exposure_capped_full : ∃ p, run (step (storer 337500 [7,8])) (launch (storer 337500 [7,8]) 0 ∅) fullMoves = some p ∧
    p.reserved (storer 337500 [7,8]) = 675000 ∧ (storer 337500 [7,8]).reserveCap = 675000 ∧
    p.balance (storer 337500 [7,8]) + p.reserved (storer 337500 [7,8]) ≤ (storer 337500 [7,8]).reserveCap ∧
    p.reserved (storer 337500 [7,8]) = total (flying (storer 337500 [7,8])) p.tasks ∧
    (p.tasks.filter fun task => task.stage.running).length ≤ (storer 337500 [7,8]).pipelineDepth := by
  have ends : (run (step (storer 337500 [7,8])) (launch (storer 337500 [7,8]) 0 ∅) fullMoves).map
      (fun p => p.reserved (storer 337500 [7,8])) = some 675000 := by decide +kernel
  obtain ⟨p,reached,reserved⟩ := Option.map_eq_some_iff.mp ends
  exact ⟨p,reached,reserved,by decide,exposure_capped _ (oneMirror_lawful _) 0 ∅ fullMoves p reached⟩

/-! ### What is consumed and what is paid -/

/-- The figures of a probe: the price of what was served, the balance, the credits to
    come and those posted but pending still, the pending units, what was paid, what was
    read, and where the settlement stands. -/
structure Books where
  consumed : Nat
  balance : Nat
  unposted : Nat
  posted : Nat
  pending : Nat
  refreshed : Nat
  cheques : Nat
  seen : Nat
  half : Nat
  residual : Nat
  settling : Settling

def books (setup : Setup A B S) (p : Probe A B S) : Books where
  consumed := p.consumed setup
  balance := p.balance setup
  unposted := p.unposted
  posted := p.halfPosted
  pending := p.pending
  refreshed := p.log.refreshed
  cheques := p.log.cheques
  seen := p.log.seen
  half := p.log.half
  residual := p.summary.residualDebtUnits
  settling := p.settling

/-- What was read is not needed. -/
def idle : Settling → Bool
  | .dead _ | .weighing _ | .leaving _ | .emitting _ | .ended => false
  | _ => true

/-- What can happen to the figures. -/
inductive Entry (b : Books) : Books → Prop
  | same : Entry b b
  | serve (price : Nat) : Entry b { b with consumed := b.consumed + price, balance := b.balance + price }
  | post {units : Nat} (there : units ≤ b.unposted) :
      Entry b { b with unposted := b.unposted - units, posted := b.posted + units, balance := b.balance - units }
  | clear {units : Nat} (there : units ≤ b.posted) :
      Entry b { b with posted := b.posted - units, pending := wrapSub b.pending units }
  | move {settling : Settling} (quiet : idle settling = true) : Entry b { b with settling := settling }
  | read {next : Nat → Settling} (reads : next = .dead ∨ next = .weighing ∨ next = .leaving) :
      Entry b { b with settling := next b.balance, seen := b.consumed }
  | weigh {debt : Nat} (at_ : b.settling = .weighing debt) :
      Entry b { b with half := b.posted, settling := .emitting (debt - b.pending) }
  | forgo {settling : Settling} (quiet : idle settling = true) : Entry b { b with half := b.posted, settling := settling }
  | leave {balance : Nat} (at_ : b.settling = .dead balance ∨ b.settling = .leaving balance) :
      Entry b { b with half := b.posted, settling := .ended, residual := balance - b.pending }
  | refresh (units : Nat) {settling : Settling} (quiet : idle settling = true) :
      Entry b { b with balance := b.balance - units, refreshed := b.refreshed + units, settling := settling }
  | cheque {units : Nat} {settling : Settling} (at_ : b.settling = .emitting units) (quiet : idle settling = true) :
      Entry b { b with
        cheques := b.cheques + units
        pending := wrapAdd b.pending units
        unposted := b.unposted + units
        settling := settling }
  | sweep {units : Nat} {settling : Settling} (at_ : b.settling = .emitting units) (quiet : idle settling = true) :
      Entry b { b with balance := b.balance - units, cheques := b.cheques + units, settling := settling }
  | unpaid {units : Nat} (at_ : b.settling = .emitting units) : Entry b { b with settling := .ended, residual := units }

/-- What was read covers what was consumed until then, but for what had been posted and
    was pending still. -/
def Read (cap : Nat) (b : Books) : Settling → Prop
  | .dead balance | .weighing balance | .leaving balance =>
    balance ≤ cap ∧ b.seen + b.unposted ≤ balance + b.refreshed + b.cheques
  | .emitting units => b.pending + units ≤ cap ∧ b.seen ≤ units + b.half + b.refreshed + b.cheques
  | .ended => b.seen ≤ b.residual + b.half + b.refreshed + b.cheques
  | _ => True

/-- The balance covers what was consumed, less what was paid and credited; what is
    pending is to come or posted, and fits under the cap. -/
structure Balanced (cap : Nat) (b : Books) : Prop where
  covered : b.consumed + b.unposted ≤ b.balance + b.refreshed + b.cheques
  pending : b.pending = b.unposted + b.posted
  room : b.pending ≤ cap
  read : Read cap b b.settling

theorem read_idle {cap : Nat} {b : Books} {settling : Settling} (quiet : idle settling = true) : Read cap b settling := by
  cases settling <;> trivial

theorem balanced_entry {cap : Nat} {b b' : Books} (small : cap < 2 ^ 63) (capped : b.balance ≤ cap) (balanced : Balanced cap b)
    (entry : Entry b b') : Balanced cap b' := by
  obtain ⟨covered,pending,room,read⟩ := balanced
  cases entry with
  | same => exact ⟨covered,pending,room,read⟩
  | serve price => exact ⟨by simp only; omega,pending,room,read⟩
  | @post units there =>
    refine ⟨by simp only; omega,by simp only; omega,room,?_⟩
    cases at_ : b.settling <;> rw [at_] at read <;> simp only [Read] at read ⊢ <;> omega
  | @clear units there =>
    have exact_ : wrapSub b.pending units = b.pending - units := wrapSub_exact (by omega) (by omega)
    refine ⟨covered,by simp only [exact_]; omega,by simp only [exact_]; omega,?_⟩
    cases at_ : b.settling <;> rw [at_] at read <;> simp only [Read,exact_] at read ⊢ <;> omega
  | move quiet => exact ⟨covered,pending,room,read_idle quiet⟩
  | read reads =>
    refine ⟨covered,pending,room,?_⟩
    rcases reads with rfl | rfl | rfl <;> exact ⟨capped,covered⟩
  | @weigh debt at_ =>
    rw [at_] at read
    refine ⟨covered,pending,room,?_⟩
    simp only [Read] at read ⊢
    omega
  | forgo quiet => exact ⟨covered,pending,room,read_idle quiet⟩
  | @leave balance at_ =>
    have covers : b.seen + b.unposted ≤ balance + b.refreshed + b.cheques := by
      rcases at_ with at_ | at_ <;> rw [at_] at read <;> exact read.2
    refine ⟨covered,pending,room,?_⟩
    simp only [Read]
    omega
  | refresh units quiet => exact ⟨by simp only; omega,pending,room,read_idle quiet⟩
  | @cheque units settling at_ quiet =>
    rw [at_] at read
    have exact_ : wrapAdd b.pending units = b.pending + units := wrapAdd_exact (by have := read.1; omega)
    refine ⟨by simp only; omega,by simp only [exact_]; omega,?_,read_idle quiet⟩
    rw [exact_]
    exact read.1
  | sweep at_ quiet => exact ⟨by simp only; omega,pending,room,read_idle quiet⟩
  | unpaid at_ =>
    rw [at_] at read
    exact ⟨covered,pending,room,read.2⟩

section Entries
variable {setup : Setup A B S} {p p' : Probe A B S} [DecidableEq B]

omit [DecidableEq B] in
/-- A cheque that is credited moves from what is to come to what is posted. -/
theorem posted_set {k units wake : Nat} (at_ : p.credits[k]? = some ⟨units,wake,false⟩) (acct : S) :
    units ≤ p.unposted ∧
      Probe.unposted { p with acct := acct, credits := p.credits.set k ⟨units,wake,true⟩ } = p.unposted - units ∧
      Probe.halfPosted { p with acct := acct, credits := p.credits.set k ⟨units,wake,true⟩ } = p.halfPosted + units := by
  have before := total_set (fun c : Credit => if c.posted then 0 else c.units) ⟨units,wake,true⟩ at_
  have after := total_set (fun c : Credit => if c.posted then c.units else 0) ⟨units,wake,true⟩ at_
  have share := le_total (fun c : Credit => if c.posted then 0 else c.units) (mem_of_found at_)
  simp only [Bool.false_eq_true,↓reduceIte,Nat.add_zero] at before after share
  simp only [Probe.unposted,Probe.halfPosted]
  omega

omit [DecidableEq B] in
theorem posted_erase {k units wake pending : Nat} (at_ : p.credits[k]? = some ⟨units,wake,true⟩) :
    units ≤ p.halfPosted ∧
      Probe.unposted { p with pending := pending, credits := p.credits.eraseIdx k } = p.unposted ∧
      Probe.halfPosted { p with pending := pending, credits := p.credits.eraseIdx k } = p.halfPosted - units := by
  have before := total_eraseIdx (fun c : Credit => if c.posted then 0 else c.units) at_
  have after := total_eraseIdx (fun c : Credit => if c.posted then c.units else 0) at_
  have share := le_total (fun c : Credit => if c.posted then c.units else 0) (mem_of_found at_)
  simp only [↓reduceIte,Nat.add_zero] at before after share
  simp only [Probe.unposted,Probe.halfPosted]
  omega

omit [DecidableEq B] in
theorem settled_idle (p : Probe A B S) : idle p.settled.settling = true := by
  unfold Probe.settled
  cases p.finishing <;> rfl

theorem entry_emitted (lawful : Lawful setup.accounting) {units : Nat} (at_ : p.settling = .emitting units) (answers : Answers) :
    Entry (books setup p) (books setup (emitStep setup p units answers)) := by
  have credited := lawful.credited p.acct units
  have same : (books setup p).settling = .emitting units := at_
  unfold emitStep
  split
  · simp only
    split
    · have entry := Entry.sweep same (settled_idle p)
      simpa [books,Probe.settled,Probe.balance,credited,Probe.consumed,Probe.unposted,Probe.halfPosted] using entry
    · have entry := Entry.cheque same (settled_idle p)
      simpa [books,Probe.settled,Probe.balance,Probe.consumed,Probe.unposted,Probe.halfPosted] using entry
  · simp only
    split
    · exact .unpaid same
    · exact .move (settled_idle p)

/-- A step posts one entry. -/
theorem entry_step (lawful : Lawful setup.accounting) (exposed : Exposed setup p) {move : Move A}
    (steps : Steps setup p move p') : Entry (books setup p) (books setup p') := by
  cases steps with
  | @reserves k addr balance reserved acct at_ within taken =>
    have after := reserved_after lawful (reserve_fits exposed at_ within) taken
    have entry := Entry.same (b := books setup p)
    simpa [books,Probe.balance,after,Probe.consumed,Probe.unposted,Probe.halfPosted,Probe.setStage] using entry
  | @served k started len latency addr at_ =>
    have after := lawful.applied p.acct (setup.peerPrice addr) (exposed_price exposed at_) (exposed_small exposed)
    have entry := Entry.serve (b := books setup p) (setup.peerPrice addr)
    simpa [books,Probe.balance,after,Probe.consumed,Probe.unposted,Probe.halfPosted,Nat.add_comm] using entry
  | @failed k started addr why at_ =>
    have after := lawful.dropped p.acct (setup.peerPrice addr) (exposed_price exposed at_)
    have entry := Entry.same (b := books setup p)
    simpa [books,Probe.balance,after,Probe.consumed,Probe.unposted,Probe.halfPosted,Probe.fail] using entry
  | woken at_ | told at_ onward told => exact .move rfl
  | lives at_ next => rcases next with rfl | rfl <;> exact .move rfl
  | sampled at_ next => rcases next with rfl | rfl <;> exact .move rfl
  | reads at_ =>
    rcases at_ with ⟨-,rfl⟩ | ⟨-,rfl⟩ | ⟨-,rfl⟩
    · exact .read (.inl rfl)
    · exact .read (.inr (.inl rfl))
    · exact .read (.inr (.inr rfl))
  | dies at_ => exact .leave (.inl at_)
  | leaves at_ => exact .leave (.inr at_)
  | due at_ due => exact .weigh at_
  | undue at_ => exact .forgo (settled_idle p.weigh)
  | again at_ => exact .forgo rfl
  | @accepted units at_ =>
    have credited := lawful.credited p.acct units.val
    have entry := @Entry.refresh (books setup p) units.val .reading rfl
    simpa [books,Probe.balance,credited,Probe.consumed,Probe.unposted,Probe.halfPosted] using entry
  | unaccepted at_ => exact .move rfl
  | emitted at_ => exact entry_emitted lawful at_ _
  | @posted k units wake at_ due =>
    have credited := lawful.credited p.acct units
    obtain ⟨there,unposted,posted⟩ := posted_set at_ (setup.accounting.credit p.acct units)
    have entry := Entry.post (b := books setup p) there
    simpa [books,Probe.balance,credited,Probe.consumed,unposted,posted] using entry
  | @credited k units wake at_ =>
    obtain ⟨there,unposted,posted⟩ := @posted_erase _ _ _ p k units wake (wrapSub p.pending units) at_
    have entry := Entry.clear (b := books setup p) there
    simpa [books,Probe.balance,Probe.consumed,unposted,posted] using entry
  | _ => exact .same

/-! ### The end -/

/-- Once the fetches are done nothing is served any more, and what was read since is
    what was consumed in all; the summary adds up what was paid in 64 bits. -/
structure Told (setup : Setup A B S) (p : Probe A B S) : Prop where
  all : p.finishing = true ∨ p.notified = true → p.tasks = [] ∧ p.main ≠ .spawning ∧ p.main ≠ .joining
  fresh : p.finishing = true → idle p.settling = false → p.log.seen = p.consumed setup
  cheques : p.summary.chequeUnits = p.log.cheques % 2 ^ 64
  refreshed : p.summary.refreshUnits = p.log.refreshed % 2 ^ 64

omit [DecidableEq B] in
/-- No fetch is there once the settlement task was told. -/
theorem told_busy (told : Told setup p) {k : Nat} {task : ProbeTask A} (at_ : p.tasks[k]? = some task) :
    ¬(p.finishing = true ∨ p.notified = true) := by
  intro over_
  rw [(told.all over_).1] at at_
  cases at_

omit [DecidableEq B] in
/-- A fetch moves, so the settlement task has not been told yet. -/
theorem told_fetch (told : Told setup p) {k : Nat} {task : ProbeTask A} (at_ : p.tasks[k]? = some task)
    (finishing : p'.finishing = p.finishing) (notified : p'.notified = p.notified) (summary : p'.summary = p.summary)
    (cheques : p'.log.cheques = p.log.cheques) (refreshed : p'.log.refreshed = p.log.refreshed) : Told setup p' := by
  have busy := told_busy told at_
  refine ⟨?_,?_,?_,?_⟩
  · rw [finishing,notified]
    exact fun over_ => absurd over_ busy
  · rw [finishing]
    exact fun over_ => absurd (.inl over_) busy
  · rw [summary,cheques]
    exact told.cheques
  · rw [summary,refreshed]
    exact told.refreshed

theorem told_emitted (told : Told setup p) {units : Nat} (at_ : p.settling = .emitting units) (answers : Answers) :
    Told setup (emitStep setup p units answers) := by
  obtain ⟨all,fresh,cheques,refreshed⟩ := told
  have paid : wrapAdd p.summary.chequeUnits units = (p.log.cheques + units) % 2 ^ 64 := by
    rw [cheques,wrapAdd,Nat.mod_add_mod]
  unfold emitStep
  split
  · simp only
    split
    · exact ⟨all,fun _ open_ => absurd (settled_idle _) (by rw [open_]; exact Bool.false_ne_true),paid,refreshed⟩
    · exact ⟨all,fun _ open_ => absurd (settled_idle _) (by rw [open_]; exact Bool.false_ne_true),paid,refreshed⟩
  · simp only
    split
    · exact ⟨all,fun over_ _ => fresh over_ (by rw [at_]; rfl),cheques,refreshed⟩
    · exact ⟨all,fun _ open_ => absurd (settled_idle _) (by rw [open_]; exact Bool.false_ne_true),cheques,refreshed⟩

theorem told_step (told : Told setup p) {move : Move A} (steps : Steps setup p move p') : Told setup p' := by
  cases steps with
  | spawned at_ next permit =>
    obtain ⟨all,fresh,cheques,refreshed⟩ := told
    exact ⟨fun over_ => absurd at_ (all over_).2.1,fresh,cheques,refreshed⟩
  | spawnedAll at_ none_ =>
    obtain ⟨all,fresh,cheques,refreshed⟩ := told
    exact ⟨fun over_ => absurd at_ (all over_).2.1,fresh,cheques,refreshed⟩
  | notified at_ all => exact ⟨fun _ => ⟨all,by simp,by simp⟩,told.fresh,told.cheques,told.refreshed⟩
  | reported at_ over_ same => exact ⟨fun over_ => ⟨(told.all over_).1,by simp,by simp⟩,told.fresh,told.cheques,told.refreshed⟩
  | joinedOk at_ there | joinedErr at_ there => exact told_fetch told there rfl rfl rfl rfl rfl
  | checked at_ | refused at_ dead | locked at_ free | reserves at_ within taken | paused at_ | resumed at_ | served at_
  | failed at_ => exact told_fetch told at_ rfl rfl rfl rfl rfl
  | woken at_ => exact ⟨told.all,fun _ open_ => (by cases open_),told.cheques,told.refreshed⟩
  | told at_ onward told_ => exact ⟨fun _ => told.all (.inr told_),fun _ open_ => (by cases open_),told.cheques,told.refreshed⟩
  | lives at_ next | sampled at_ next =>
    refine ⟨told.all,fun _ open_ => ?_,told.cheques,told.refreshed⟩
    rcases next with rfl | rfl <;> cases open_
  | reads at_ => exact ⟨told.all,fun _ _ => rfl,told.cheques,told.refreshed⟩
  | dies at_ | leaves at_ | due at_ due =>
    exact ⟨told.all,fun over_ _ => told.fresh over_ (by rw [at_]; rfl),told.cheques,told.refreshed⟩
  | undue at_ =>
    exact ⟨told.all,fun _ open_ => absurd (settled_idle p.weigh) (by rw [open_]; exact Bool.false_ne_true),
      told.cheques,told.refreshed⟩
  | again at_ => exact ⟨told.all,fun _ open_ => (by cases open_),told.cheques,told.refreshed⟩
  | @accepted units at_ =>
    refine ⟨told.all,fun _ open_ => (by cases open_),told.cheques,?_⟩
    show wrapAdd p.summary.refreshUnits units.val = (p.log.refreshed + units.val) % 2 ^ 64
    rw [told.refreshed,wrapAdd,Nat.mod_add_mod]
  | unaccepted at_ => exact ⟨told.all,fun _ open_ => (by cases open_),told.cheques,told.refreshed⟩
  | emitted at_ => exact told_emitted told at_ _
  | _ => exact ⟨told.all,told.fresh,told.cheques,told.refreshed⟩

end Entries

/-- When the settlement loop has ended, what had been consumed when it last read the
    balance is paid by cheques and refreshes, or reported as residual, but for what was
    credited and still pending when it last read the pending units: between the two
    postings of a credit a cheque counts twice. If the fetches were done, that is all
    that was consumed. The summary has the sums in 64 bits. -/
theorem nothing_unreported [DecidableEq B] (setup : Setup A B S) (lawful : Lawful setup.accounting) (now : Nat)
    (ledger : Finmap fun _ : B => U256) (moves : List (Move A)) (p : Probe A B S)
    (reached : run (step setup) (launch setup now ledger) moves = some p) (over_ : p.settling = .ended) :
    p.log.seen ≤ p.summary.residualDebtUnits + p.log.half + p.log.refreshed + p.log.cheques ∧
    (p.finishing = true → p.log.seen = p.consumed setup) ∧
    p.summary.chequeUnits = p.log.cheques % 2 ^ 64 ∧ p.summary.refreshUnits = p.log.refreshed % 2 ^ 64 := by
  have nothing : setup.accounting.snapshot setup.accounting.new = (0,0) := lawful.new
  obtain ⟨-,balanced,told⟩ := @run_invariant _ _ _ (fun p : Probe A B S => Exposed setup p ∧
    Balanced setup.reserveCap (books setup p) ∧ Told setup p) (by
      rintro q move next ⟨exposed,balanced,told⟩ taken
      have steps := step_steps taken
      have capped := exposed.capped
      exact ⟨exposed_step lawful exposed steps,balanced_entry (reserveCap_small _) (by simp only [books]; omega) balanced
        (entry_step lawful exposed steps),told_step told steps⟩) _ _ _ (by
      refine ⟨exposed_launch setup lawful now ledger,⟨?_,rfl,Nat.zero_le _,trivial⟩,⟨?_,?_,rfl,rfl⟩⟩
      · simp [books,Probe.consumed,Probe.unposted,launch]
      · simp [launch]
      · simp [launch]) reached
  have read := balanced.read
  have at_ : (books setup p).settling = .ended := over_
  rw [at_] at read
  exact ⟨read,fun done => told.fresh done (by rw [over_]; rfl),told.cheques,told.refreshed⟩

/-- A cheque pays for the first chunk; the second is served, and the balance and the
    pending units are read for the last time between the two postings of that cheque. -/
def doubleMoves : List (Move Nat) :=
  [.spawn,.spawn,.spawn,.task 0,.task 0,.task 0,.retrieved 0 (.ok 4096),
    .hot,.go,.go,.accepted none,.go,.go,.emit ⟨true,some (some (1,0)),true,true,true⟩,
    .task 1,.task 1,.task 1,.retrieved 1 (.ok 4096),.join 0,.join 0,.notify,
    .pass chequeCreditDelay,.credit 0,.done,.go,.go,.accepted none,.go,.go,.go,.go]

theorem nothing_unreported_double : ∃ p,
    run (step (storer 337500 [7,8])) (launch (storer 337500 [7,8]) 0 ∅) doubleMoves = some p ∧
    p.log.seen = 675000 ∧ p.summary.residualDebtUnits = 0 ∧ p.log.half = 337500 ∧ p.log.cheques = 337500 ∧
    p.log.seen ≤ p.summary.residualDebtUnits + p.log.half + p.log.refreshed + p.log.cheques ∧
    (p.finishing = true → p.log.seen = p.consumed (storer 337500 [7,8])) ∧
    p.summary.chequeUnits = p.log.cheques % 2 ^ 64 ∧ p.summary.refreshUnits = p.log.refreshed % 2 ^ 64 := by
  have ends : (run (step (storer 337500 [7,8])) (launch (storer 337500 [7,8]) 0 ∅) doubleMoves).map
      (fun p => (p.settling,p.log.seen,p.summary.residualDebtUnits,p.log.half,p.log.cheques)) =
        some (.ended,675000,0,337500,337500) := by decide +kernel
  obtain ⟨p,reached,same⟩ := Option.map_eq_some_iff.mp ends
  simp only [Prod.mk.injEq] at same
  obtain ⟨over_,seen,residual,half,cheques⟩ := same
  exact ⟨p,reached,seen,residual,half,cheques,
    nothing_unreported _ (oneMirror_lawful _) 0 ∅ doubleMoves p reached over_⟩

end Directswarm.ProbeBooks
