import Mathlib
import Directswarm.ProbeBooks

/-!
The report of a probe. Every chunk is served or failed once and counted as such, every
error names its chunk (`chunks_reported`), and the ledger has grown for the peer, and
for nobody else, by the PLUR of the summary, which the spend guard bounds
(`spend_recorded`).
-/
namespace Directswarm.ProbeReports
open Directswarm.Words Directswarm.Runs Directswarm.Interleaving Directswarm.Cheques Directswarm.Issuance
  Directswarm.Probing Directswarm.ProbeBooks

variable {A B S : Type} [DecidableEq A] [DecidableEq B]

/-! ### What becomes of the chunks -/

/-- A fetch of this chunk runs. -/
def atWork (a : A) (task : ProbeTask A) : Nat := if task.stage.running ∧ task.addr = a then 1 else 0

/-- The fetch has ended with the chunk. -/
def endedOk (task : ProbeTask A) : Nat :=
  match task.stage with
  | .ended (.ok _) => 1
  | _ => 0

/-- The fetch of this chunk has ended with an error. -/
def endedErr (a : A) (task : ProbeTask A) : Nat :=
  match task.stage with
  | .ended (.error _) => if task.addr = a then 1 else 0
  | _ => 0

theorem atWork_running {a addr : A} {stage : Stage} (runs : stage.running = true) :
    atWork a (⟨addr,stage⟩ : ProbeTask A) = if addr = a then 1 else 0 := by
  simp [atWork,runs]

theorem atWork_ended {a addr : A} {result : Except (List Char) Nat} : atWork a (⟨addr,.ended result⟩ : ProbeTask A) = 0 := by
  simp [atWork,Stage.running]

omit [DecidableEq A] in
theorem endedOk_running {addr : A} {stage : Stage} (runs : stage.running = true) : endedOk (⟨addr,stage⟩ : ProbeTask A) = 0 := by
  cases stage <;> first | rfl | cases runs

theorem endedErr_running {a addr : A} {stage : Stage} (runs : stage.running = true) :
    endedErr a (⟨addr,stage⟩ : ProbeTask A) = 0 := by
  cases stage <;> first | rfl | cases runs

/-- Every chunk waits, is being fetched, was served or has failed; what the main task
    has joined and what waits to be joined are those that were served and failed. -/
structure Accounted (setup : Setup A B S) (p : Probe A B S) : Prop where
  chunks : ∀ a, p.log.served.count a + p.log.failed.count a + total (atWork a) p.tasks + p.queue.count a = setup.chunks.count a
  served : p.latencies.length + total endedOk p.tasks = p.log.served.length
  failed : ∃ named : List (A × List Char), p.errors = named.map (fun e => chunkError setup e.1 e.2) ∧
    ∀ a, (named.map Prod.fst).count a + total (endedErr a) p.tasks = p.log.failed.count a
  texts : ∀ task ∈ p.tasks, ∀ text, task.stage = .ended (.error text) → ∃ why, text = chunkError setup task.addr why
  spawned : p.main ≠ .spawning → p.queue = []
  joined : p.main ≠ .spawning → p.main ≠ .joining → p.tasks = []

section Chunks
variable {setup : Setup A B S} {p p' : Probe A B S}

omit [DecidableEq B] in
/-- A fetch goes on. -/
theorem accounted_onward (accounted : Accounted setup p) {k : Nat} {addr : A} {stage stage' : Stage}
    (at_ : p.tasks[k]? = some ⟨addr,stage⟩) (runs : stage.running = true) (runs' : stage'.running = true)
    (tasks : p'.tasks = p.tasks.set k ⟨addr,stage'⟩) (queue : p'.queue = p.queue) (log : p'.log = p.log)
    (latencies : p'.latencies = p.latencies) (errors : p'.errors = p.errors) (main : p'.main = p.main) :
    Accounted setup p' := by
  obtain ⟨chunks,served,⟨named,errors_,failed⟩,texts,spawned,joined⟩ := accounted
  have work : ∀ a, total (atWork a) p'.tasks = total (atWork a) p.tasks := by
    intro a
    have moved := total_set (atWork a) ⟨addr,stage'⟩ at_
    rw [atWork_running runs,atWork_running runs'] at moved
    rw [tasks]
    omega
  have ok : total endedOk p'.tasks = total endedOk p.tasks := by
    have moved := total_set endedOk ⟨addr,stage'⟩ at_
    rw [endedOk_running runs,endedOk_running runs'] at moved
    rw [tasks]
    exact moved
  have err : ∀ a, total (endedErr a) p'.tasks = total (endedErr a) p.tasks := by
    intro a
    have moved := total_set (endedErr a) ⟨addr,stage'⟩ at_
    rw [endedErr_running runs,endedErr_running runs'] at moved
    rw [tasks]
    exact moved
  refine ⟨?_,?_,⟨named,errors ▸ errors_,?_⟩,?_,?_,?_⟩
  · intro a
    rw [log,work,queue]
    exact chunks a
  · rw [latencies,ok,log]
    exact served
  · intro a
    rw [err,log]
    exact failed a
  · rw [tasks]
    refine forall_set texts ?_
    rintro text rfl
    cases runs'
  · rw [main,queue]
    exact spawned
  · rw [main]
    intro past over_
    rw [joined past over_] at at_
    cases at_

omit [DecidableEq B] in
/-- A fetch ends with an error. -/
theorem accounted_failed (accounted : Accounted setup p) {k : Nat} {addr : A} {stage : Stage} (why : List Char)
    (at_ : p.tasks[k]? = some ⟨addr,stage⟩) (runs : stage.running = true) (acct : S) :
    Accounted setup { p.fail setup k addr why with acct := acct } := by
  obtain ⟨chunks,served,⟨named,errors_,failed⟩,texts,spawned,joined⟩ := accounted
  refine ⟨?_,?_,⟨named,errors_,?_⟩,forall_set texts ?_,spawned,?_⟩
  · intro a
    have moved := total_set (atWork a) ⟨addr,.ended (.error (chunkError setup addr why))⟩ at_
    have before := chunks a
    rw [atWork_running runs,atWork_ended] at moved
    simp only [Probe.fail,List.count_cons,beq_iff_eq]
    omega
  · have moved := total_set endedOk ⟨addr,.ended (.error (chunkError setup addr why))⟩ at_
    rw [endedOk_running runs] at moved
    exact (congrArg (p.latencies.length + ·) moved).trans served
  · intro a
    have moved := total_set (endedErr a) ⟨addr,.ended (.error (chunkError setup addr why))⟩ at_
    have before := failed a
    rw [endedErr_running runs] at moved
    simp only [endedErr] at moved
    simp only [Probe.fail,List.count_cons,beq_iff_eq]
    omega
  · rintro text same
    cases same
    exact ⟨why,rfl⟩
  · intro past over_
    rw [joined past over_] at at_
    cases at_

omit [DecidableEq B] in
/-- A fetch ends with the chunk. -/
theorem accounted_served (accounted : Accounted setup p) {k started len latency : Nat} {addr : A}
    (at_ : p.tasks[k]? = some ⟨addr,.retrieving started⟩) (acct : S) :
    Accounted setup { p with
      acct := acct
      bytes := wrapAdd p.bytes len
      tasks := p.tasks.set k ⟨addr,.ended (.ok latency)⟩
      log := { p.log with served := addr :: p.log.served } } := by
  obtain ⟨chunks,served,⟨named,errors_,failed⟩,texts,spawned,joined⟩ := accounted
  refine ⟨?_,?_,⟨named,errors_,?_⟩,forall_set texts (by rintro text ⟨⟩),spawned,?_⟩
  · intro a
    have moved := total_set (atWork a) ⟨addr,.ended (.ok latency)⟩ at_
    have before := chunks a
    rw [atWork_running rfl,atWork_ended] at moved
    simp only [List.count_cons,beq_iff_eq]
    omega
  · have moved := total_set endedOk ⟨addr,.ended (.ok latency)⟩ at_
    simp only [endedOk] at moved
    simp only [List.length_cons]
    omega
  · intro a
    have moved := total_set (endedErr a) ⟨addr,.ended (.ok latency)⟩ at_
    have before := failed a
    simp only [endedErr] at moved
    simp only
    omega
  · intro past over_
    rw [joined past over_] at at_
    cases at_

omit [DecidableEq B] in
/-- The main task takes a result. -/
theorem accounted_joined (accounted : Accounted setup p) (at_ : p.main = .joining) {k : Nat} {addr : A}
    {result : Except (List Char) Nat} (there : p.tasks[k]? = some ⟨addr,.ended result⟩)
    (tasks : p'.tasks = p.tasks.eraseIdx k) (queue : p'.queue = p.queue) (log : p'.log = p.log) (main : p'.main = p.main)
    (latencies : p'.latencies.length = p.latencies.length + endedOk (⟨addr,.ended result⟩ : ProbeTask A))
    (errors : (∃ latency, result = .ok latency ∧ p'.errors = p.errors) ∨
      ∃ text, result = .error text ∧ p'.errors = p.errors ++ [text]) : Accounted setup p' := by
  obtain ⟨chunks,served,⟨named,errors_,failed⟩,texts,spawned,joined⟩ := accounted
  have erased : ∀ f, total f p'.tasks + f ⟨addr,.ended result⟩ = total f p.tasks := by
    intro f
    rw [tasks]
    exact total_eraseIdx f there
  refine ⟨?_,?_,?_,?_,?_,?_⟩
  · intro a
    have before := chunks a
    have moved := erased (atWork a)
    rw [atWork_ended] at moved
    rw [log,queue]
    omega
  · have moved := erased endedOk
    rw [log]
    omega
  · rcases errors with ⟨latency,rfl,same⟩ | ⟨text,rfl,more⟩
    · refine ⟨named,same.trans errors_,fun a => ?_⟩
      have moved := erased (endedErr a)
      have before := failed a
      simp only [endedErr] at moved
      rw [log]
      omega
    · obtain ⟨why,named_⟩ := texts _ (mem_of_found there) text rfl
      refine ⟨named ++ [(addr,why)],by simp [more,errors_,named_],fun a => ?_⟩
      have moved := erased (endedErr a)
      have before := failed a
      simp only [endedErr] at moved
      rw [log,List.map_append,List.count_append]
      simp only [List.map_cons,List.map_nil,List.count_cons,List.count_nil,beq_iff_eq]
      omega
  · rw [tasks]
    exact fun task member => texts task (List.mem_of_mem_eraseIdx member)
  · rw [main,queue]
    exact spawned
  · rw [main]
    exact fun _ over_ => absurd at_ over_

omit [DecidableEq A] in
/-- A cheque leaves the fetches alone. -/
theorem emit_rest (setup : Setup A B S) (p : Probe A B S) (units : Nat) (answers : Answers) :
    (emitStep setup p units answers).queue = p.queue ∧ (emitStep setup p units answers).latencies = p.latencies ∧
      (emitStep setup p units answers).errors = p.errors ∧ (emitStep setup p units answers).main = p.main ∧
      (emitStep setup p units answers).log.served = p.log.served ∧ (emitStep setup p units answers).log.failed = p.log.failed := by
  unfold emitStep
  split
  · simp only
    split <;> exact ⟨rfl,rfl,rfl,rfl,rfl,rfl⟩
  · simp only
    split <;> exact ⟨rfl,rfl,rfl,rfl,rfl,rfl⟩

theorem accounted_step (accounted : Accounted setup p) {move : Move A} (steps : Steps setup p move p') :
    Accounted setup p' := by
  have still : ∀ {q : Probe A B S}, q.tasks = p.tasks → q.queue = p.queue → q.latencies = p.latencies → q.errors = p.errors →
      q.main = p.main → q.log.served = p.log.served → q.log.failed = p.log.failed → Accounted setup q := by
    rintro q tasks queue latencies errors main served failed
    obtain ⟨chunks,served_,failed_,texts,spawned,joined⟩ := accounted
    refine ⟨?_,?_,?_,?_,?_,?_⟩
    · rw [served,failed,tasks,queue]; exact chunks
    · rw [latencies,tasks,served]; exact served_
    · rw [errors,tasks,failed]; exact failed_
    · rw [tasks]; exact texts
    · rw [main,queue]; exact spawned
    · rw [main,tasks]; exact joined
  cases steps with
  | @spawned addr rest at_ next permit =>
    obtain ⟨chunks,served,⟨named,errors_,failed⟩,texts,spawned,joined⟩ := accounted
    refine ⟨?_,?_,⟨named,errors_,?_⟩,forall_append texts (by rintro text ⟨⟩),
      fun past => absurd at_ past,fun past => absurd at_ past⟩
    · intro a
      have before := chunks a
      rw [next,List.count_cons] at before
      simp only [total_append,total_cons,total_nil,atWork,Stage.running,true_and,beq_iff_eq] at before ⊢
      omega
    · simpa [endedOk] using served
    · simpa [endedErr] using failed
  | spawnedAll at_ none_ =>
    obtain ⟨chunks,served,failed,texts,spawned,joined⟩ := accounted
    exact ⟨chunks,served,failed,texts,fun _ => none_,fun _ over_ => absurd rfl over_⟩
  | notified at_ all =>
    obtain ⟨chunks,served,failed,texts,spawned,joined⟩ := accounted
    exact ⟨chunks,served,failed,texts,fun _ => spawned (by simp [at_]),fun _ _ => all⟩
  | reported at_ over_ same =>
    obtain ⟨chunks,served,failed,texts,spawned,joined⟩ := accounted
    exact ⟨chunks,served,failed,texts,fun _ => spawned (by simp [at_]),fun _ _ => joined (by simp [at_]) (by simp [at_])⟩
  | joinedOk at_ there =>
    exact accounted_joined accounted at_ there rfl rfl rfl rfl (by simp [endedOk]) (.inl ⟨_,rfl,rfl⟩)
  | joinedErr at_ there =>
    exact accounted_joined accounted at_ there rfl rfl rfl rfl (by simp [endedOk]) (.inr ⟨_,rfl,rfl⟩)
  | checked at_ | locked at_ free | reserves at_ within taken | paused at_ | resumed at_ =>
    exact accounted_onward accounted at_ rfl rfl rfl rfl rfl rfl rfl rfl
  | refused at_ dead => exact accounted_failed accounted _ at_ rfl p.acct
  | failed at_ => exact accounted_failed accounted _ at_ rfl _
  | served at_ => exact accounted_served accounted at_ _
  | @emitted units answers at_ =>
    obtain ⟨queue,latencies,errors,main,served,failed⟩ := emit_rest setup p units answers
    exact still (emit_acct setup p units answers).1 queue latencies errors main served failed
  | _ => exact still rfl rfl rfl rfl rfl rfl rfl

/-! ### The report -/

/-- The report is what there is, and the fetches and the settlement have ended. -/
structure Shows (p : Probe A B S) (report : ProbeReport) : Prop where
  settled : p.settling = .ended
  all : p.tasks = []
  latencies : report.latenciesMs = p.latencies ∧ report.chunksOk = p.latencies.length
  errors : report.errors = p.errors ∧ report.chunksErr = p.errors.length
  bytes : report.bytes = p.bytes
  settlement : report.settlement = { p.summary with announcedThreshold := report.settlement.announcedThreshold }

omit [DecidableEq A] in
/-- What the report shows does not move any more. -/
theorem shows_step (shows_ : ∀ report, p.main = .reported report → Shows p report)
    (joined : p.main ≠ .spawning → p.main ≠ .joining → p.tasks = []) {move : Move A} (steps : Steps setup p move p') :
    ∀ report, p'.main = .reported report → Shows p' report := by
  intro report over_
  have still : p.main = .reported report → p'.settling = p.settling → p'.tasks = p.tasks → p'.latencies = p.latencies →
      p'.errors = p.errors → p'.bytes = p.bytes → p'.summary = p.summary → Shows p' report := by
    intro before settling tasks latencies errors bytes summary
    obtain ⟨settled,all,ok,err,sum,settlement⟩ := shows_ report before
    exact ⟨settling.trans settled,tasks.trans all,latencies ▸ ok,errors ▸ err,bytes ▸ sum,summary ▸ settlement⟩
  cases steps with
  | spawned at_ next permit => exact absurd (at_.symm.trans over_) (by simp)
  | spawnedAll at_ none_ | notified at_ all => cases over_
  | reported at_ settled same =>
    cases over_
    rw [same]
    exact ⟨settled,joined (by simp [at_]) (by simp [at_]),⟨rfl,rfl⟩,⟨rfl,rfl⟩,rfl,rfl⟩
  | joinedOk at_ there | joinedErr at_ there => exact absurd (at_.symm.trans over_) (by simp)
  | checked at_ | refused at_ dead | locked at_ free | reserves at_ within taken | paused at_ | resumed at_ | served at_
  | failed at_ =>
    rw [(shows_ report over_).all] at at_
    cases at_
  | woken at_ | told at_ onward told | lives at_ next | dies at_ | sampled at_ next | due at_ due | undue at_ | leaves at_
  | again at_ | accepted at_ | unaccepted at_ =>
    rw [(shows_ report over_).settled] at at_
    cases at_
  | reads at_ =>
    rw [(shows_ report over_).settled] at at_
    simp at at_
  | @emitted units answers at_ =>
    rw [(emit_rest setup p units answers).2.2.2.1] at over_
    rw [(shows_ report over_).settled] at at_
    cases at_
  | _ => exact still over_ rfl rfl rfl rfl rfl rfl

end Chunks

/-- When the probe reports, every chunk that was asked for was served or has failed, each
    as often as it was asked for. The report counts both, has a latency for each chunk
    served, and an error text for each that failed, which begins with its address. -/
theorem chunks_reported (setup : Setup A B S) (now : Nat) (ledger : Finmap fun _ : B => U256) (moves : List (Move A))
    (p : Probe A B S) (report : ProbeReport) (reached : run (step setup) (launch setup now ledger) moves = some p)
    (reports : p.main = .reported report) :
    (p.log.served ++ p.log.failed).Perm setup.chunks ∧
    report.chunksOk = p.log.served.length ∧ report.latenciesMs.length = p.log.served.length ∧
    report.chunksErr = p.log.failed.length ∧
    ∃ named : List (A × List Char), (named.map Prod.fst).Perm p.log.failed ∧
      report.errors = named.map fun e => chunkError setup e.1 e.2 := by
  obtain ⟨accounted,shows_⟩ := @run_invariant _ _ _ (fun p : Probe A B S => Accounted setup p ∧
    ∀ report, p.main = .reported report → Shows p report) (by
      rintro q move next ⟨accounted,shows_⟩ taken
      have steps := step_steps taken
      exact ⟨accounted_step accounted steps,shows_step shows_ accounted.joined steps⟩) _ _ _ (by
      refine ⟨⟨?_,rfl,⟨[],rfl,?_⟩,?_,?_,?_⟩,?_⟩ <;> simp [launch]) reached
  obtain ⟨settled,all,⟨latencies,ok⟩,⟨errors,err⟩,-,-⟩ := shows_ report reports
  obtain ⟨chunks,served,⟨named,texts,failed⟩,-,spawned,-⟩ := accounted
  have queue := spawned (by simp [reports])
  rw [all,total_nil,Nat.add_zero] at served
  have perm : (named.map Prod.fst).Perm p.log.failed := List.perm_iff_count.mpr fun a => by
    have counted := failed a
    rwa [all,total_nil,Nat.add_zero] at counted
  refine ⟨List.perm_iff_count.mpr fun a => ?_,ok.trans served,by rw [latencies,served],?_,named,perm,errors.trans texts⟩
  · have counted := chunks a
    rwa [all,queue,total_nil,Nat.add_zero,List.count_nil,Nat.add_zero,← List.count_append] at counted
  · rw [err,texts,List.length_map,← perm.length_eq,List.length_map]

/-- One chunk is served and paid for, the other fails. -/
def halfMoves : List (Move Nat) :=
  [.spawn,.spawn,.spawn,.task 0,.task 0,.task 0,.retrieved 0 (.ok 4096),.task 1,.task 1,.task 1,
    .retrieved 1 (.error "reset".toList),.join 1,.join 0,.notify,.done,.go,.go,.accepted none,.go,.go,
    .emit ⟨true,some (some (1,0)),true,true,true⟩,.go,.go,.report]

theorem chunks_reported_half : ∃ p report,
    run (step (storer 337500 [7,8])) (launch (storer 337500 [7,8]) 0 ∅) halfMoves = some p ∧
    p.main = .reported report ∧ report.errors = ["chunk : reset".toList] ∧ p.log.served = [7] ∧
    (p.log.served ++ p.log.failed).Perm [7,8] ∧
    report.chunksOk = p.log.served.length ∧ report.latenciesMs.length = p.log.served.length ∧
    report.chunksErr = p.log.failed.length ∧
    ∃ named : List (Nat × List Char), (named.map Prod.fst).Perm p.log.failed ∧
      report.errors = named.map fun e => chunkError (storer 337500 [7,8]) e.1 e.2 := by
  have ends : (run (step (storer 337500 [7,8])) (launch (storer 337500 [7,8]) 0 ∅) halfMoves).map
      (fun p => (p.main,p.log.served)) = some (.reported ⟨1,1,4096,0,[0],⟨1,337500,337500,some 1,0,0,0,none⟩,
        ["chunk : reset".toList]⟩,[7]) := by decide +kernel
  obtain ⟨p,reached,same⟩ := Option.map_eq_some_iff.mp ends
  obtain ⟨reports,served⟩ := Prod.mk.injEq _ _ _ _ ▸ same
  exact ⟨p,_,reached,reports,rfl,served,chunks_reported (storer 337500 [7,8]) 0 ∅ halfMoves p _ reached reports⟩

/-! ### What was paid -/

/-- What a call tells of what it leaves: of a failure the counter and the ledger know
    nothing, and of a cheque both have its amount. -/
inductive Tells (lim : Limits) (bank : Bank B) (b : B) : Bank B × Except EmitError Outcome → Prop
  | failed {after : Bank B} {why : EmitError} (counter : after.issuedPlur = bank.issuedPlur) (ledger : after.ledger = bank.ledger) :
      Tells lim bank b (after,.error why)
  | sent {after : Bank B} {outcome : Outcome}
      (within : satAdd bank.issuedPlur (clamp64 outcome.plur) ≤ lim.maxIssuePlur)
      (sum : (cumulativeFor bank.ledger b).val + outcome.plur = outcome.cumulative.val)
      (bounded : outcome.cumulative ≤ lim.issuable)
      (counter : after.issuedPlur = wrapAdd bank.issuedPlur (clamp64 outcome.plur))
      (ledger : after.ledger = bank.ledger.insert b outcome.cumulative) : Tells lim bank b (after,.ok outcome)

theorem emitPriced_tells (lim : Limits) (bank : Bank B) (b : B) (rate plur : Nat) (env : Answers)
    (small : bank.issuedPlur < 2 ^ 64) : Tells lim bank b (emitPriced lim bank b rate plur env) := by
  have back : wrapSub (wrapAdd bank.issuedPlur (clamp64 plur)) (clamp64 plur) = bank.issuedPlur :=
    wrapSub_wrapAdd small (clamp64_lt plur)
  unfold emitPriced
  by_cases past : lim.maxIssuePlur < satAdd bank.issuedPlur (clamp64 plur)
  · rw [if_pos past]
    exact .failed back rfl
  · rw [if_neg past]
    unfold emitReserved
    cases draw : drawCumulative lim (cumulativeFor bank.ledger b) plur with
    | error why => exact .failed back rfl
    | ok cumulative =>
      obtain ⟨sum,bounded⟩ := drawCumulative_ok.mp draw
      obtain ⟨opened,preamble,issueCheque,write,flush⟩ := env
      cases issueCheque with
      | false => exact .failed back rfl
      | true =>
        cases write with
        | false => exact .failed back rfl
        | true =>
          cases flush with
          | false => exact .failed back rfl
          | true => exact .sent (not_lt.mp past) sum bounded rfl rfl

theorem emit_tells (lim : Limits) (bank : Bank B) (b : B) (units : Nat) (env : Answers) (small : bank.issuedPlur < 2 ^ 64) :
    Tells lim bank b (emitSettlementCheque lim bank b units env) := by
  unfold emitSettlementCheque
  cases env.opened with
  | false => exact .failed rfl rfl
  | true =>
    rcases env.preamble with _ | _ | ⟨rate,deduction⟩
    · exact .failed rfl rfl
    · exact .failed rfl rfl
    · cases amount : chequeAmount rate deduction units with
      | error why => simp only [amount]; exact .failed rfl rfl
      | ok plur => simp only [amount]; exact emitPriced_tells lim bank b rate.val plur env small

/-- The counter, the summary and the ledger agree on what the peer was paid. -/
structure Spent (setup : Setup A B S) (ledger : Finmap fun _ : B => U256) (p : Probe A B S) : Prop where
  capped : p.bank.issuedPlur ≤ setup.lim.maxIssuePlur
  summed : p.summary.chequePlur = p.bank.issuedPlur
  grown : (cumulativeFor p.bank.ledger setup.beneficiary).val = (cumulativeFor ledger setup.beneficiary).val + p.bank.issuedPlur
  bounded : p.bank.issuedPlur = 0 ∨ cumulativeFor p.bank.ledger setup.beneficiary ≤ setup.lim.issuable
  others : ∀ b ≠ setup.beneficiary, cumulativeFor p.bank.ledger b = cumulativeFor ledger b

section Spending
variable {setup : Setup A B S} {ledger : Finmap fun _ : B => U256} {p p' : Probe A B S}

omit [DecidableEq A] in
theorem spent_emitted (low : setup.lim.maxIssuePlur < u64Max) (spent : Spent setup ledger p) (units : Nat) (answers : Answers) :
    Spent setup ledger (emitStep setup p units answers) := by
  obtain ⟨capped,summed,grown,bounded,others⟩ := spent
  have top := setup.lim.maxIssuePlur_lt
  have tells := emit_tells setup.lim p.bank setup.beneficiary units answers (by omega)
  unfold emitStep
  split
  · next bank outcome same =>
    rw [same] at tells
    cases tells with
    | sent within sum within_ counter ledger_ =>
      have whole : clamp64 outcome.plur = outcome.plur := clamp64_exact (clamp64_small within low)
      rw [whole] at within counter
      have fits := satAdd_lt within low
      rw [wrapAdd_exact (by omega)] at counter
      have told : (p.summary.chequePlur + outcome.plur) % 2 ^ 128 = bank.issuedPlur := by
        rw [counter,summed]
        exact Nat.mod_eq_of_lt (by omega)
      have drawn : cumulativeFor bank.ledger setup.beneficiary = outcome.cumulative := by
        rw [ledger_,cumulativeFor_insert,if_pos rfl]
      have total : (cumulativeFor bank.ledger setup.beneficiary).val =
          (cumulativeFor ledger setup.beneficiary).val + bank.issuedPlur := by
        rw [drawn,← sum,grown,counter,Nat.add_assoc]
      have rest : ∀ b ≠ setup.beneficiary, cumulativeFor bank.ledger b = cumulativeFor ledger b := by
        intro b other
        rw [ledger_,cumulativeFor_insert,if_neg other]
        exact others b other
      have cap : bank.issuedPlur ≤ setup.lim.maxIssuePlur := counter ▸ fits
      simp only
      split
      · exact ⟨cap,told,total,.inr (drawn ▸ within_),rest⟩
      · exact ⟨cap,told,total,.inr (drawn ▸ within_),rest⟩
  · next bank why same =>
    rw [same] at tells
    cases tells with
    | failed counter ledger_ =>
      simp only
      split
      · exact ⟨capped,summed,ledger_ ▸ grown,ledger_ ▸ bounded,ledger_ ▸ others⟩
      · exact ⟨capped,summed,ledger_ ▸ grown,ledger_ ▸ bounded,ledger_ ▸ others⟩

omit [DecidableEq A] in
theorem spent_step (low : setup.lim.maxIssuePlur < u64Max) (spent : Spent setup ledger p) {move : Move A}
    (steps : Steps setup p move p') : Spent setup ledger p' := by
  cases steps with
  | emitted at_ => exact spent_emitted low spent _ _
  | _ => exact ⟨spent.capped,spent.summed,spent.grown,spent.bounded,spent.others⟩

end Spending

omit [DecidableEq A] in
/-- In every state of a probe whose cap a 64-bit counter can exceed, the PLUR of the
    summary are those of the spend guard and are within its cap; the ledger has grown by
    them for the peer, stays within what the chequebook can pay, and is as it was for
    everybody else, although some cheques have failed on their way. -/
theorem spend_recorded (setup : Setup A B S) (low : setup.lim.maxIssuePlur < u64Max) (now : Nat)
    (ledger : Finmap fun _ : B => U256) (moves : List (Move A)) (p : Probe A B S)
    (reached : run (step setup) (launch setup now ledger) moves = some p) :
    p.summary.chequePlur = p.bank.issuedPlur ∧ p.bank.issuedPlur ≤ setup.lim.maxIssuePlur ∧
    (cumulativeFor p.bank.ledger setup.beneficiary).val =
      (cumulativeFor ledger setup.beneficiary).val + p.summary.chequePlur ∧
    (p.summary.chequePlur = 0 ∨ cumulativeFor p.bank.ledger setup.beneficiary ≤ setup.lim.issuable) ∧
    ∀ b ≠ setup.beneficiary, cumulativeFor p.bank.ledger b = cumulativeFor ledger b := by
  have spent := @run_invariant _ _ _ (Spent setup ledger)
    (fun q move next spent taken => spent_step low spent (step_steps taken)) _ _ _
    ⟨Nat.zero_le _,rfl,rfl,.inl rfl,fun _ _ => rfl⟩ reached
  exact ⟨spent.summed,spent.capped,spent.summed ▸ spent.grown,spent.summed ▸ spent.bounded,spent.others⟩

theorem spend_recorded_half : ∃ p, run (step (storer 337500 [7,8])) (launch (storer 337500 [7,8]) 0 ∅) halfMoves = some p ∧
    p.summary.chequePlur = 337500 ∧
    p.summary.chequePlur = p.bank.issuedPlur ∧ p.bank.issuedPlur ≤ (storer 337500 [7,8]).lim.maxIssuePlur ∧
    (cumulativeFor p.bank.ledger 1).val = (cumulativeFor ∅ 1).val + p.summary.chequePlur ∧
    (p.summary.chequePlur = 0 ∨ cumulativeFor p.bank.ledger 1 ≤ (storer 337500 [7,8]).lim.issuable) ∧
    ∀ b ≠ 1, cumulativeFor p.bank.ledger b = cumulativeFor ∅ b := by
  have ends : (run (step (storer 337500 [7,8])) (launch (storer 337500 [7,8]) 0 ∅) halfMoves).map
      (fun p => p.summary.chequePlur) = some 337500 := by decide +kernel
  obtain ⟨p,reached,paid⟩ := Option.map_eq_some_iff.mp ends
  exact ⟨p,reached,paid,spend_recorded (storer 337500 [7,8]) (by decide) 0 ∅ halfMoves p reached⟩

end Directswarm.ProbeReports
