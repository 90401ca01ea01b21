import Directswarm.Crew

/-!
A fetch can always be brought to its end (`fetch_scheduled`). Whatever a run has done
so far, peers that hang up, calls that fail and time that passes lead each connection
to its end (`session_ends`), the dispatch loop through the dials that are left to the
drain, and the worker through the channel to the report (`returns_reachable`): no
state of a fetch waits for something that cannot come any more.
-/
namespace Directswarm.Progress
open Directswarm.Words Directswarm.Runs Directswarm.Interleaving Directswarm.Cheques Directswarm.Pacing Directswarm.PeerTable
  Directswarm.Proximity Directswarm.Routing Directswarm.Dispatching Directswarm.Replanning Directswarm.WorkPool
  Directswarm.Connection Directswarm.Scheduler Directswarm.Crew

variable {M A B : Type}

/-! ### A cheque that fails -/

/-- The steps that a call has before it, at most. -/
def callSize : Cheques.Phase → Nat
  | .ended _ => 0
  | .opening | .preamble | .refused _ | .recorded _ _ _ | .failed _ _ => 1
  | .drawn _ _ _ | .signed _ _ _ | .written _ _ _ | .flushed _ _ _ => 2
  | .passed _ _ => 3
  | .reserved _ _ _ => 4
  | .priced _ _ => 5

/-- A call that has not ended goes on, with a failure where it waits. -/
theorem call_goes [DecidableEq B] (lim : Limits) (bank : Bank B) (call : Call B) :
    (∃ result, call.phase = .ended result) ∨
      ∃ act bank' call', callStep lim bank call act = some (bank',call') ∧ callSize call'.phase < callSize call.phase := by
  obtain ⟨beneficiary,units,phase⟩ := call
  cases phase with
  | ended result => exact .inl ⟨result,rfl⟩
  | opening | preamble | drawn rate plur cumulative | signed rate plur cumulative | written rate plur cumulative =>
    exact .inr ⟨.io false,_,_,rfl,by simp [callSize]⟩
  | priced rate plur | refused plur | flushed rate plur cumulative | recorded rate plur cumulative | failed plur why =>
    exact .inr ⟨.go,_,_,rfl,by simp [callSize]⟩
  | reserved rate plur before =>
    refine .inr ⟨.go,?_⟩
    unfold callStep
    simp only
    split
    · exact ⟨_,_,rfl,by simp [callSize]⟩
    · exact ⟨_,_,rfl,by simp [callSize]⟩
  | passed rate plur =>
    refine .inr ⟨.go,?_⟩
    unfold callStep
    simp only
    split
    · exact ⟨_,_,rfl,by simp [callSize]⟩
    · exact ⟨_,_,rfl,by simp [callSize]⟩

/-! ### A connection whose peer hung up -/

/-- What is left of a spawned fetch. -/
def taskSize (task : FetchTask A) : Nat :=
  match task.stage with
  | .retrieving => 2
  | .served | .failed => 1
  | .done => 0

/-- How far a connection is from its end once its peer hung up. -/
def phaseSize : Phase A B → Nat
  | .closed _ _ _ => 0
  | .recording _ _ _ => 1
  | .confirming _ => 2
  | .confirmPause _ _ => 3
  | .returned _ => 4
  | .draining => 5
  | .driving => 6
  | .sleeping _ => 7
  | .turning => 8
  | .retrying _ => 9
  | .emitting .settle _ call | .emitting .topUp _ call => 10 + callSize call.phase
  | .settling => 16
  | .refreshing => 17
  | .reaping => 18
  | .admitting => 21
  | .popped _ => 25
  | .projecting _ => 26
  | .emitting .initialPrepay _ call => 27 + callSize call.phase
  | .measured _ => 33
  | .probing _ _ => 34
  | .probePause _ _ _ => 35
  | .emitting .lambdaSweep _ call => 36 + callSize call.phase
  | .measurePause _ _ => 42
  | .measureSweep => 43
  | .measuring _ | .measureFailed _ => 44
  | .measureServed _ _ => 45
  | .measureRetrieving _ _ _ => 46
  | .measurePopped _ _ => 47
  | .established => 48
  | .dialing => 49

/-- An address that may be popped, from the pool or from what is kept back, counts for
    the turn of the admission that it costs. -/
def size (c : Common A B) (s : Session A B) : Nat :=
  phaseSize s.phase + 5 * (drainAll c.pool).length + 5 * s.pending.toList.length + total taskSize s.tasks

section Sessions
variable [DecidableEq A] [DecidableEq B] {plan : Plan A} {c : Common A B} {s : Session A B}

/-- After a while a connection takes a step that brings it closer to its end. -/
def GoesOn (plan : Plan A) (c : Common A B) (s : Session A B) : Prop :=
  ∃ ns act c' s', sessionStep plan { c with now := c.now + ns } s act = some (c',s') ∧ s'.alive = false ∧ size c' s' < size c s

/-- The start of a connection, and the measurement of its latency. -/
theorem opening_goes_on (dead : s.alive = false) (early : s.phase.early = true) (met : s.phase ≠ .dialing)
    (quiet : ∀ purpose units call, s.phase ≠ .emitting purpose units call) : GoesOn plan c s := by
  obtain ⟨overlay,bucket,beneficiary,known,warm,alive,pacer,lambda,tasks,pending,stop,drained,finishing,halted,attempts,phase⟩ := s
  simp only at dead
  subst dead
  cases phase with
  | dialing => exact absurd rfl met
  | emitting purpose units call => exact absurd rfl (quiet purpose units call)
  | established =>
    refine ⟨0,.go,?_⟩
    simp only [sessionStep,openStep]
    split
    · exact ⟨_,_,rfl,rfl,by simp [size,phaseSize]⟩
    · exact ⟨_,_,rfl,rfl,by simp [size,phaseSize]⟩
  | measuring m =>
    refine ⟨0,.go,?_⟩
    simp only [sessionStep,openStep,measureStep]
    rw [if_neg (by simp)]
    exact ⟨_,_,rfl,rfl,by simp [size,phaseSize]⟩
  | measurePopped m addr =>
    refine ⟨0,.go,?_⟩
    simp only [sessionStep,openStep,measureStep]
    split
    · exact ⟨_,_,rfl,rfl,by simp [size,phaseSize]⟩
    · split
      · exact ⟨_,_,rfl,rfl,by simp [size,phaseSize]⟩
      · exact ⟨_,_,rfl,rfl,by simp [size,phaseSize]⟩
  | measureRetrieving m addr price => exact ⟨0,.answer false,_,_,rfl,rfl,by simp [size,phaseSize]⟩
  | measureServed m addr => exact ⟨0,.answer false,_,_,rfl,rfl,by simp [size,phaseSize,put]⟩
  | measureFailed addr => exact ⟨0,.go,_,_,rfl,rfl,by simp [size,phaseSize,send]⟩
  | measureSweep =>
    refine ⟨0,.go,?_⟩
    simp only [sessionStep,openStep,measureStep]
    split
    · exact ⟨_,_,rfl,rfl,by simp [size,phaseSize]⟩
    · exact ⟨_,_,rfl,rfl,by simp [size,phaseSize]⟩
  | measurePause wake debt =>
    refine ⟨wake,.go,?_⟩
    simp only [sessionStep,openStep,measureStep]
    rw [if_pos (Nat.le_add_left _ _)]
    exact ⟨_,_,rfl,rfl,by simp [size,phaseSize,startEmit,callSize]⟩
  | probePause wake t0 zeroAt =>
    refine ⟨wake,.go,?_⟩
    simp only [sessionStep,openStep,measureStep]
    rw [if_pos (Nat.le_add_left _ _)]
    exact ⟨_,_,rfl,rfl,by simp [size,phaseSize]⟩
  | probing t0 zeroAt =>
    -- The probe times out.
    refine ⟨t0 + lambdaProbeTimeout,.accepted none,?_⟩
    simp only [sessionStep,openStep,measureStep,probeHead]
    rw [if_neg (by omega)]
    exact ⟨_,_,rfl,rfl,by simp [size,phaseSize]⟩
  | measured l =>
    refine ⟨0,.go,?_⟩
    simp only [sessionStep,openStep,measureStep,noteLambda_eq]
    split
    · exact ⟨_,_,rfl,rfl,by simp [size,phaseSize,startEmit,callSize]⟩
    · exact ⟨_,_,rfl,rfl,by simp [size,phaseSize]⟩
  | _ => cases early

/-- A cheque that is under way fails, and the connection goes on from there. -/
theorem emitting_goes_on {purpose : Purpose} {units : Nat} {call : Call B} (dead : s.alive = false)
    (at_ : s.phase = .emitting purpose units call) : GoesOn plan c s := by
  obtain ⟨overlay,bucket,beneficiary,known,warm,alive,pacer,lambda,tasks,pending,stop,drained,finishing,halted,attempts,phase⟩ := s
  simp only at dead at_
  subst dead at_
  rcases call_goes plan.lim c.bank call with ⟨result,ended⟩ | ⟨act,bank,call',taken,less⟩
  · refine ⟨0,.go,?_⟩
    simp only [sessionStep,openStep,measureStep,emitStep,ended]
    cases result with
    | ok outcome => cases purpose <;> exact ⟨_,_,rfl,rfl,by simp [size,phaseSize,chequeSent,ended,callSize]⟩
    | error why =>
      cases purpose with
      | settle =>
        simp only [chequeFailed]
        split
        · split
          · exact ⟨_,_,rfl,rfl,by simp [size,phaseSize,ended,callSize]⟩
          · exact ⟨_,_,rfl,rfl,by simp [size,phaseSize,ended,callSize]⟩
        · exact ⟨_,_,rfl,rfl,by simp [size,phaseSize,ended,callSize]⟩
      | lambdaSweep | initialPrepay | topUp => exact ⟨_,_,rfl,rfl,by simp [size,phaseSize,chequeFailed,ended,callSize]⟩
  · refine ⟨0,.cheque act,?_⟩
    simp only [sessionStep,openStep,measureStep,emitStep]
    have taken' : callStep plan.lim { c with now := c.now + 0 }.bank call act = some (bank,call') := taken
    simp only at taken'
    rw [taken']
    refine ⟨_,_,rfl,rfl,?_⟩
    cases purpose <;> simp only [size,phaseSize] <;> omega

/-- The end of a connection. -/
theorem closing_goes_on (dead : s.alive = false) (late : s.phase.late = true) (open_ : isOver s.phase = false) : GoesOn plan c s := by
  obtain ⟨overlay,bucket,beneficiary,known,warm,alive,pacer,lambda,tasks,pending,stop,drained,finishing,halted,attempts,phase⟩ := s
  simp only at dead
  subst dead
  cases phase with
  | returned residual =>
    refine ⟨0,.go,?_⟩
    simp only [sessionStep,openStep,measureStep,emitStep,driveStep,closeStep]
    rw [if_neg (by simp)]
    exact ⟨_,_,rfl,rfl,by simp [size,phaseSize]⟩
  | confirmPause wake consumed =>
    refine ⟨wake,.go,?_⟩
    simp only [sessionStep,openStep,measureStep,emitStep,driveStep,closeStep]
    rw [if_pos (Nat.le_add_left _ _)]
    exact ⟨_,_,rfl,rfl,by simp [size,phaseSize]⟩
  | confirming consumed => exact ⟨0,.accepted none,_,_,rfl,rfl,by simp [size,phaseSize]⟩
  | recording residual consumed confirmed => exact ⟨0,.go,_,_,rfl,rfl,by simp [size,phaseSize]⟩
  | closed residual observed parked => cases open_
  | _ => cases late

omit [DecidableEq A] [DecidableEq B] in
/-- A fetch that is not finished fails. -/
theorem task_goes {tasks : List (FetchTask A)} (some_ : ¬∀ task ∈ tasks, task.stage = .done) :
    ∃ (k : Nat) (task : FetchTask A), tasks[k]? = some task ∧ task.stage ≠ .done := by
  push Not at some_
  obtain ⟨task,member,open_⟩ := some_
  obtain ⟨k,found⟩ := List.mem_iff_getElem?.mp member
  exact ⟨k,task,found,open_⟩

/-- The fetches are joined, and what was kept back is handed over. -/
theorem draining_goes_on (dead : s.alive = false) (at_ : s.phase = .draining) : GoesOn plan c s := by
  obtain ⟨overlay,bucket,beneficiary,known,warm,alive,pacer,lambda,tasks,pending,stop,drained,finishing,halted,attempts,phase⟩ := s
  simp only at dead at_
  subst dead at_
  by_cases joined : ∀ task ∈ tasks, task.stage = .done
  · refine ⟨0,.go,?_⟩
    simp only [sessionStep,openStep,measureStep,emitStep,driveStep]
    rw [if_pos joined]
    refine ⟨_,_,rfl,rfl,?_⟩
    simp only [size,phaseSize,send,Option.toList_none,List.length_nil,total_nil]
    omega
  · obtain ⟨k,⟨addr,price,stage⟩,found,open_⟩ := task_goes joined
    refine ⟨0,.task k false,?_⟩
    simp only [sessionStep,taskStep,found]
    cases stage with
    | done => exact absurd rfl open_
    | retrieving =>
      refine ⟨_,_,rfl,rfl,?_⟩
      have fewer := total_set taskSize ⟨addr,price,.failed⟩ found
      simp only [size,phaseSize,taskSize] at fewer ⊢
      omega
    | served =>
      refine ⟨_,_,rfl,rfl,?_⟩
      have fewer := total_set taskSize ⟨addr,price,.done⟩ found
      simp only [size,phaseSize,taskSize,put] at fewer ⊢
      omega
    | failed =>
      refine ⟨_,_,rfl,rfl,?_⟩
      have fewer := total_set taskSize ⟨addr,price,.done⟩ found
      simp only [size,phaseSize,taskSize,send] at fewer ⊢
      omega

omit [DecidableEq A] [DecidableEq B] in
theorem total_reap (tasks : List (FetchTask A)) : total taskSize (reap tasks) ≤ total taskSize tasks := by
  induction tasks with
  | nil => exact le_rfl
  | cons task rest ih =>
    unfold reap at ih ⊢
    rw [List.filter_cons]
    split
    · rw [total_cons,total_cons]
      exact Nat.add_le_add_left ih _
    · rw [total_cons]
      exact ih.trans (Nat.le_add_left _ _)

omit [DecidableEq A] [DecidableEq B] in
/-- The settlement of a turn is on the way to the end. -/
theorem settle_closer (at_ : s.phase = .settling) :
    (settle plan c s).alive = s.alive ∧ size c (settle plan c s) < size c s := by
  rcases settle_cases plan c s with same | ⟨units,-,-,-,same⟩ | same <;> rw [same] <;>
    exact ⟨rfl,by simp [size,phaseSize,startEmit,callSize,at_]⟩

/-- The turns of `drive`. -/
theorem driving_goes_on (dead : s.alive = false) (inside : s.phase.early = false) (before : s.phase.late = false)
    (quiet : ∀ purpose units call, s.phase ≠ .emitting purpose units call) : GoesOn plan c s := by
  by_cases joins : s.phase = .draining
  · exact draining_goes_on dead joins
  obtain ⟨overlay,bucket,beneficiary,known,warm,alive,pacer,lambda,tasks,pending,stop,drained,finishing,halted,attempts,phase⟩ := s
  simp only at dead
  subst dead
  cases phase with
  | emitting purpose units call => exact absurd rfl (quiet purpose units call)
  | draining => exact absurd rfl joins
  | driving => exact ⟨0,.go,_,_,rfl,rfl,by simp [size,phaseSize]⟩
  | projecting unpaid =>
    refine ⟨0,.go,?_⟩
    simp only [sessionStep,openStep,measureStep,emitStep,driveStep]
    split
    · refine ⟨_,_,rfl,rfl,?_⟩
      simp only [size,phaseSize,send,Option.toList_none,List.length_nil]
      omega
    · exact ⟨_,_,rfl,rfl,by simp [size,phaseSize]⟩
  | admitting =>
    refine ⟨0,.go,?_⟩
    simp only [sessionStep,openStep,measureStep,emitStep,driveStep]
    split
    · cases pending with
      | some addr =>
        refine ⟨_,_,rfl,rfl,?_⟩
        simp only [size,phaseSize,Option.toList_none,Option.toList_some,List.length_nil,List.length_singleton]
        omega
      | none =>
        simp only
        split
        · exact ⟨_,_,rfl,rfl,by simp [size,phaseSize]⟩
        · next addr pool popped =>
          have fewer := (pop_some popped).length_eq
          refine ⟨_,_,rfl,rfl,?_⟩
          simp only [size,phaseSize,List.length_cons] at fewer ⊢
          omega
    · exact ⟨_,_,rfl,rfl,by simp [size,phaseSize]⟩
  | popped addr =>
    refine ⟨0,.go,?_⟩
    simp only [sessionStep,openStep,measureStep,emitStep,driveStep]
    split
    · exact ⟨_,_,rfl,rfl,by simp [size,phaseSize]⟩
    · split
      · refine ⟨_,_,rfl,rfl,?_⟩
        simp only [size,phaseSize,Option.toList_some,List.length_singleton]
        omega
      · refine ⟨_,_,rfl,rfl,?_⟩
        simp only [size,phaseSize,total_append,total_cons,total_nil,taskSize]
        omega
  | reaping =>
    have fewer := total_reap tasks
    refine ⟨0,.go,?_⟩
    simp only [sessionStep,openStep,measureStep,emitStep,driveStep]
    split
    · split
      · refine ⟨_,_,rfl,rfl,?_⟩
        simp only [size,phaseSize]
        omega
      · refine ⟨_,_,rfl,rfl,?_⟩
        simp only [size,phaseSize]
        omega
    · refine ⟨_,_,rfl,rfl,?_⟩
      simp only [size,phaseSize]
      omega
  | refreshing => exact ⟨0,.accepted none,_,_,rfl,rfl,by simp [size,phaseSize]⟩
  | settling =>
    obtain ⟨dead,less⟩ := @settle_closer A B plan { c with now := c.now + 0 } ⟨overlay,bucket,beneficiary,known,warm,false,pacer,lambda,
      tasks,pending,stop,drained,finishing,halted,attempts,.settling⟩ rfl
    exact ⟨0,.go,_,_,rfl,dead,less⟩
  | retrying wake =>
    refine ⟨wake,.go,?_⟩
    simp only [sessionStep,openStep,measureStep,emitStep,driveStep]
    rw [if_pos (Nat.le_add_left _ _)]
    exact ⟨_,_,rfl,rfl,by simp [size,phaseSize]⟩
  | turning =>
    refine ⟨0,.go,?_⟩
    simp only [sessionStep,openStep,measureStep,emitStep,driveStep]
    split
    · exact ⟨_,_,rfl,rfl,by simp [size,phaseSize]⟩
    · exact ⟨_,_,rfl,rfl,by simp [size,phaseSize]⟩
  | sleeping wake =>
    refine ⟨wake,.go,?_⟩
    simp only [sessionStep,openStep,measureStep,emitStep,driveStep]
    rw [if_pos (Nat.le_add_left _ _)]
    exact ⟨_,_,rfl,rfl,by simp [size,phaseSize]⟩
  | returned residual | confirmPause wake consumed | confirming consumed | recording residual consumed confirmed
  | closed residual observed parked => cases before
  | _ => cases inside

/-- Once its peer hung up, a connection that stands and is not at its end comes closer to it. -/
theorem session_goes_on (dead : s.alive = false) (met : s.phase ≠ .dialing) (open_ : isOver s.phase = false) : GoesOn plan c s := by
  by_cases emits : ∃ purpose units call, s.phase = .emitting purpose units call
  · obtain ⟨purpose,units,call,at_⟩ := emits
    exact emitting_goes_on dead at_
  have quiet : ∀ purpose units call, s.phase ≠ .emitting purpose units call := fun purpose units call at_ =>
    emits ⟨purpose,units,call,at_⟩
  cases late : s.phase.late
  · cases early : s.phase.early
    · exact driving_goes_on dead early late quiet
    · exact opening_goes_on dead early met quiet
  · exact closing_goes_on dead late open_

end Sessions

/-! ### One connection of a run -/

section Runs
variable [DecidableEq A] [DecidableEq B] {job : Job M A} {needed : List A} {r r' : Run M A B}

/-- Some moves lead from one state to another. -/
abbrev Reaches (job : Job M A) (needed : List A) : Run M A B → Run M A B → Prop := Leads (Scheduler.step job needed) fun _ _ => True

theorem reaches_step {move : Move A B} (taken : Scheduler.step job needed r move = some r') : Reaches job needed r r' :=
  leads_cons move trivial taken (leads_refl r')

/-- A run in which one connection has moved on. -/
structure Aside (i : Nat) (actor : Actor A B) (r r' : Run M A B) : Prop where
  main : r'.main = r.main
  dispatch : r'.dispatch = r.dispatch
  actors : r'.actors = r.actors.set i actor

/-- What a connection can do after a while, it does in the run. -/
theorem own_reaches (job : Job M A) (needed : List A) {i : Nat} {actor : Actor A B} {ns : Nat} {act : Act} {common : Common A B} {session : Session A B}
    (at_ : r.actors[i]? = some actor) (met : actor.session.phase ≠ .dialing)
    (taken : sessionStep job.plan { r.common with now := r.common.now + ns } actor.session act = some (common,session)) :
    ∃ r', Reaches job needed r r' ∧ r'.common = common ∧ Aside i { actor with session := session } r r' := by
  have passes : Scheduler.step job needed r (.pass ns) = some { r with common := { r.common with now := r.common.now + ns } } := rfl
  have stands : isDialing actor.session.phase = false := by
    unfold isDialing
    split
    · next at_ => exact absurd at_ met
    · rfl
  have moves : ∃ r', Scheduler.step job needed { r with common := { r.common with now := r.common.now + ns } } (.session i act) = some r' ∧
      r'.common = common ∧ Aside i { actor with session := session } r r' := by
    simp only [Scheduler.step,at_,stands,actorStep,taken]
    exact ⟨_,rfl,rfl,⟨rfl,rfl,rfl⟩⟩
  obtain ⟨r',moved,same,aside⟩ := moves
  exact ⟨r',leads_trans (reaches_step passes) (reaches_step moved),same,aside⟩

/-- A connection whose peer hung up comes to its end. -/
theorem dead_ends (job : Job M A) (needed : List A) {i : Nat} {actor : Actor A B} (at_ : r.actors[i]? = some actor) (met : actor.session.phase ≠ .dialing)
    (dead : actor.session.alive = false) :
    ∃ r' session, Reaches job needed r r' ∧ Aside i { actor with session := session } r r' ∧ isOver session.phase = true := by
  induction left : size r.common actor.session using Nat.strongRecOn generalizing r actor with
  | _ n ih =>
    cases ended : isOver actor.session.phase
    · obtain ⟨ns,act,common,session,taken,dead',less⟩ := @session_goes_on _ _ _ _ job.plan r.common _ dead met ended
      obtain ⟨r1,first,same,aside⟩ := own_reaches job needed at_ met taken
      have at1 : r1.actors[i]? = some { actor with session := session } := by
        rw [aside.actors,List.getElem?_set_self (List.getElem?_eq_some_iff.mp at_).1]
      have met1 : session.phase ≠ .dialing := fun dials => met (dialing_step (step_moves taken) dials)
      obtain ⟨r2,session2,second,aside2,closed⟩ := ih (size common session) (left ▸ less) at1 met1 dead' (by rw [same])
      refine ⟨r2,session2,leads_trans first second,⟨aside2.main.trans aside.main,aside2.dispatch.trans aside.dispatch,?_⟩,closed⟩
      rw [aside2.actors,aside.actors,List.set_set]
    · obtain ⟨inside,here⟩ := List.getElem?_eq_some_iff.mp at_
      refine ⟨r,actor.session,leads_refl r,⟨rfl,rfl,?_⟩,ended⟩
      rw [← here,List.set_getElem_self]

/-- Any connection can come to its end. -/
theorem session_ends (job : Job M A) (needed : List A) {i : Nat} {actor : Actor A B} (at_ : r.actors[i]? = some actor) :
    ∃ r' actor', Reaches job needed r r' ∧ Aside i actor' r r' ∧ actor'.joined = actor.joined ∧ isOver actor'.session.phase = true := by
  by_cases dials : actor.session.phase = .dialing
  · -- The dial fails.
    have fails : ∃ r', Scheduler.step job needed r (.handshake i none) = some r' ∧
        Aside i { actor with session := { actor.session with phase := .closed 0 none false }, remote := none } r r' := by
      have undialed : sessionStep job.plan r.common actor.session (.answer false) =
          some (r.common,{ actor.session with phase := .closed 0 none false }) := by
        simp only [sessionStep,openStep,dials]
        rfl
      have dialing : isDialing actor.session.phase = true := by rw [dials]; rfl
      simp only [Scheduler.step,at_,Option.bind_some,handshakeStep,dialing,if_true]
      simp only [reduceCtorEq,decide_false,undialed,Option.map_some]
      exact ⟨_,rfl,rfl,rfl,rfl⟩
    obtain ⟨r',taken,aside⟩ := fails
    exact ⟨r',_,reaches_step taken,aside,rfl,rfl⟩
  · -- The peer hangs up.
    have hangs : sessionStep job.plan { r.common with now := r.common.now + 0 } actor.session .hangUp =
        some ({ r.common with now := r.common.now + 0 },{ actor.session with alive := false }) := rfl
    obtain ⟨r1,first,-,aside1⟩ := own_reaches job needed at_ dials hangs
    have at1 : r1.actors[i]? = some { actor with session := { actor.session with alive := false } } := by
      rw [aside1.actors,List.getElem?_set_self (List.getElem?_eq_some_iff.mp at_).1]
    obtain ⟨r2,session,second,aside2,ended⟩ := dead_ends job needed at1 dials rfl
    refine ⟨r2,{ actor with session := session },leads_trans first second,⟨aside2.main.trans aside1.main,aside2.dispatch.trans aside1.dispatch,?_⟩,rfl,ended⟩
    rw [aside2.actors,aside1.actors,List.set_set]

/-! ### The dispatch loop -/

omit [DecidableEq A] [DecidableEq B] in
/-- A connection that moves on stays in flight, or joined. -/
theorem inflight_set {actors : List (Actor A B)} {i : Nat} {actor actor' : Actor A B} (at_ : actors[i]? = some actor)
    (joined : actor'.joined = actor.joined) :
    ((actors.set i actor').filter fun a => !a.joined).length = (actors.filter fun a => !a.joined).length := by
  have flags : (actors.set i actor').map Actor.joined = actors.map Actor.joined := by
    obtain ⟨inside,rfl⟩ := List.getElem?_eq_some_iff.mp at_
    rw [List.map_set,joined,← List.map_set,List.set_getElem_self]
  have counted : ∀ xs : List (Actor A B), (xs.filter fun a => !a.joined).length = (xs.map Actor.joined).countP (fun joined => !joined) := by
    intro xs
    rw [List.countP_map,← List.countP_eq_length_filter]
    rfl
  rw [counted,counted,flags]

/-- Where the main task is in its loop. -/
def stage : Main → Nat
  | .refilling => 2
  | .choosing => 1
  | .joining | .awaiting | .returned _ => 0

/-- The dials that are left, the connections in flight, and the way to the next join. -/
def left (c : Candidates M A) (r : Run M A B) : Nat :=
  3 * (2 * (4 * c.all.length - r.actors.length) + (inflight r).length) + stage r.main

/-- The main task is in its loop. -/
def looping : Main → Bool
  | .refilling | .choosing | .joining => true
  | _ => false

/-- The dispatcher can be asked, and either has a member to dial or not. -/
theorem choosing_goes_on [Inhabited B] (job : Job M A) (needed : List A) {c : Candidates M A} (distinct : c.Distinct) (plans : Planned c (Rounds c) r)
    (at_ : r.main = .choosing) : ∃ r', Reaches job needed r r' ∧ looping r'.main = true ∧ left c r' < left c r := by
  let early := WorkPool.remaining r.common.pool
  let order := ((r.dispatch.refill early).foldl Dispatch.recycle r.dispatch).cands.keys
  have asks : ∃ r', Scheduler.step job needed r (.dispatch early early order none default) = some r' ∧
      (r'.main = .joining ∧ r'.actors = r.actors ∨
        r'.main = .refilling ∧ ∃ actor, r'.actors = r.actors ++ [actor] ∧ actor.joined = false) := by
    simp only [Scheduler.step,mainStep,workerStep,Option.or_none,at_]
    rw [if_pos ⟨fun p _ => ⟨le_rfl,le_rfl⟩,List.Perm.refl _⟩]
    split
    · exact ⟨_,rfl,.inl ⟨rfl,rfl⟩⟩
    · next storer rate dispatch chosen =>
      obtain ⟨actor,actors,-,open_,main,-⟩ :=
        connect_spawns job { r with dispatch := dispatch, main := .choosing } storer rate none (default : B)
      exact ⟨_,rfl,.inr ⟨main,actor,actors,open_⟩⟩
  obtain ⟨r',taken,⟨main,actors⟩ | ⟨main,actor,actors,open_⟩⟩ := asks
  · refine ⟨r',reaches_step taken,by rw [main]; rfl,?_⟩
    rw [left,left,inflight,inflight,actors,main,at_,stage,stage]
    omega
  · -- The members are dialed four times each at most.
    have most := (crew_dials distinct (planned_step (rounds_step distinct) (fun s pool rounds => rounds) plans taken)).2
    have flying : (inflight r').length = (inflight r).length + 1 := by
      rw [inflight,actors,List.filter_append,List.length_append]
      simp [open_,inflight]
    refine ⟨r',reaches_step taken,by rw [main]; rfl,?_⟩
    rw [actors,List.length_append,List.length_singleton] at most
    rw [left,left,flying,main,at_,stage,stage,actors,List.length_append,List.length_singleton]
    omega

/-- A connection in flight can be joined, and the pool drained when there is none. -/
theorem joining_goes_on (job : Job M A) (needed : List A) (c : Candidates M A) (at_ : r.main = .joining) : ∃ r', Reaches job needed r r' ∧
    (r'.main = .awaiting ∨ looping r'.main = true ∧ left c r' < left c r) := by
  cases flying : inflight r with
  | nil =>
    have drains : ∃ r', Scheduler.step job needed r (.drain (drainAll r.common.pool)) = some r' ∧ r'.main = .awaiting := by
      simp only [Scheduler.step,mainStep,workerStep,Option.or_none,at_]
      rw [if_pos ⟨by rw [flying]; rfl,List.Perm.refl _⟩]
      split <;> exact ⟨_,rfl,rfl⟩
    obtain ⟨r',taken,main⟩ := drains
    exact ⟨r',reaches_step taken,.inl main⟩
  | cons actor rest =>
    have here : actor ∈ inflight r := by rw [flying]; exact List.mem_cons_self
    obtain ⟨member,open_⟩ := List.mem_filter.mp here
    obtain ⟨i,there⟩ := List.mem_iff_getElem?.mp member
    obtain ⟨r1,actor1,first,aside,joined,ended⟩ := session_ends job needed there
    obtain ⟨residual,observed,parked,closed⟩ := over_iff.mp ended
    have open1 : actor1.joined = false := by simpa [joined] using open_
    have at1 : r1.actors[i]? = some actor1 := by
      rw [aside.actors,List.getElem?_set_self (List.getElem?_eq_some_iff.mp there).1]
    have joins : ∃ r2, Scheduler.step job needed r1 (.join i) = some r2 ∧ r2.main = .refilling ∧
        r2.actors = r1.actors.set i { actor1 with joined := true } := by
      simp only [Scheduler.step,mainStep,workerStep,Option.or_none,aside.main,at_,at1,closed,open1]
      exact ⟨_,rfl,rfl,rfl⟩
    obtain ⟨r2,taken,main,actors⟩ := joins
    refine ⟨r2,leads_trans first (reaches_step taken),.inr ⟨by rw [main]; rfl,?_⟩⟩
    obtain ⟨k,found,erased⟩ := crew_join at1 open1
    have same : (inflight r1).length = (inflight r).length := by
      rw [inflight,aside.actors]
      exact inflight_set there joined
    have fewer : (inflight r2).length + 1 = (inflight r).length := by
      rw [inflight,actors,erased,← same,List.length_eraseIdx_of_lt (List.getElem?_eq_some_iff.mp found).1]
      have some_ := (List.getElem?_eq_some_iff.mp found).1
      unfold inflight
      omega
    have all : r2.actors.length = r.actors.length := by
      rw [actors,List.length_set,aside.actors,List.length_set]
    rw [left,left,main,at_,all,stage,stage]
    omega

/-- While the pool is not drained, some moves lead on. -/
theorem loop_goes_on [Inhabited B] (job : Job M A) (needed : List A) {c : Candidates M A} (distinct : c.Distinct)
    (plans : Planned c (Rounds c) r) (busy : looping r.main = true) : ∃ r', Reaches job needed r r' ∧
      (r'.main = .awaiting ∨ looping r'.main = true ∧ left c r' < left c r) := by
  cases at_ : r.main with
  | refilling =>
    have refills : ∃ main, Scheduler.step job needed r .refill = some { r with main := main } ∧ (main = .choosing ∨ main = .joining) := by
      simp only [Scheduler.step,mainStep,workerStep,Option.or_none,at_]
      split
      · exact ⟨_,rfl,.inl rfl⟩
      · exact ⟨_,rfl,.inr rfl⟩
    obtain ⟨main,taken,next⟩ := refills
    refine ⟨_,reaches_step taken,.inr ?_⟩
    rcases next with rfl | rfl
    · exact ⟨rfl,by simp [left,stage,at_,inflight]⟩
    · exact ⟨rfl,by simp [left,stage,at_,inflight]⟩
  | choosing =>
    obtain ⟨r',reaches,next⟩ := choosing_goes_on job needed distinct plans at_
    exact ⟨r',reaches,.inr next⟩
  | joining => exact joining_goes_on job needed c at_
  | awaiting | returned result => rw [at_] at busy; cases busy

/-- What the planner and the books know of the run stays known. -/
theorem plans_reached {c : Candidates M A} (distinct : c.Distinct) (plans : Planned c (Rounds c) r)
    (reaches : Reaches job needed r r') : Planned c (Rounds c) r' := by
  obtain ⟨moves,-,reached⟩ := reaches
  exact run_invariant (fun s move next plans taken => planned_step (rounds_step distinct) (fun s pool rounds => rounds) plans taken)
    plans reached

/-- The dispatch loop comes to its end. -/
theorem loop_ends [Inhabited B] (job : Job M A) (needed : List A) {c : Candidates M A} (distinct : c.Distinct) (plans : Planned c (Rounds c) r)
    (busy : looping r.main = true) : ∃ r', Reaches job needed r r' ∧ r'.main = .awaiting := by
  induction many : left c r using Nat.strongRecOn generalizing r with
  | _ n ih =>
    obtain ⟨r1,first,ended | ⟨busy1,less⟩⟩ := loop_goes_on job needed distinct plans busy
    · exact ⟨r1,first,ended⟩
    · obtain ⟨r2,second,ended⟩ := ih (left c r1) (many ▸ less) (plans_reached distinct plans first) busy1 rfl
      exact ⟨r2,leads_trans first second,ended⟩

/-! ### The worker -/

/-- What the worker has before it. -/
def forwardSize : Forward A → Nat
  | .fetching _ => 2
  | .done | .failed _ _ => 1

def backlog (r : Run M A B) : Nat := 3 * (r.common.sent.length - r.received) + total forwardSize r.forwards

/-- Once the channel is closed, the worker goes on or the fetch returns. -/
theorem worker_goes_on (job : Job M A) (needed : List A) (at_ : r.main = .awaiting) (received : r.received ≤ r.common.sent.length) :
    ∃ r', Reaches job needed r r' ∧ ((Fates.outcome r').isSome = true ∨ r'.main = .awaiting ∧ backlog r' < backlog r) := by
  by_cases room : r.forwards.length < 8 ∧ r.received < r.common.sent.length
  · obtain ⟨addr,head⟩ : ∃ addr, r.common.sent[r.received]? = some addr := ⟨_,List.getElem?_eq_getElem room.2⟩
    have receives : ∃ r', Scheduler.step job needed r .receive = some r' ∧ r'.main = .awaiting ∧ backlog r' < backlog r := by
      simp only [Scheduler.step,mainStep,workerStep,Option.none_or,head]
      rw [if_pos room.1]
      split
      · refine ⟨_,rfl,at_,?_⟩
        simp only [backlog]
        omega
      · refine ⟨_,rfl,at_,?_⟩
        simp only [backlog,total_append,total_cons,total_nil,forwardSize]
        omega
    obtain ⟨r',taken,next⟩ := receives
    exact ⟨r',reaches_step taken,.inr next⟩
  · cases forwards : r.forwards with
    | nil =>
      have all : r.received = r.common.sent.length := by
        simp only [forwards,List.length_nil] at room
        omega
      have reports : ∃ r', Scheduler.step job needed r (.report true) = some r' ∧ (Fates.outcome r').isSome = true := by
        simp only [Scheduler.step,reportStep]
        rw [if_pos ⟨channelClosed_iff.mpr at_,all,forwards⟩,if_neg (by decide)]
        split <;> exact ⟨_,rfl,rfl⟩
      obtain ⟨r',taken,ended⟩ := reports
      exact ⟨r',reaches_step taken,.inl ended⟩
    | cons forward rest =>
      have busy : 8 ≤ r.forwards.length ∨ channelClosed r = true ∧ r.received = r.common.sent.length := by
        by_cases full : r.forwards.length < 8
        · exact .inr ⟨channelClosed_iff.mpr at_,by omega⟩
        · exact .inl (by omega)
      cases forward with
      | fetching addr =>
        -- The fallback cannot serve it.
        have fails : ∃ r', Scheduler.step job needed r (.forward 0 false false []) = some r' ∧ r'.main = .awaiting ∧
            backlog r' < backlog r := by
          simp only [Scheduler.step,mainStep,workerStep,Option.none_or,forwards,List.getElem?_cons_zero]
          exact ⟨_,rfl,at_,by simp [backlog,forwards,forwardSize]⟩
        obtain ⟨r',taken,next⟩ := fails
        exact ⟨r',reaches_step taken,.inr next⟩
      | done | failed addr why =>
        have collects : ∃ r', Scheduler.step job needed r (.collect 0) = some r' ∧ r'.main = .awaiting ∧ backlog r' < backlog r := by
          simp only [Scheduler.step,mainStep,workerStep,Option.none_or]
          rw [if_pos busy,forwards]
          exact ⟨_,rfl,at_,by simp [backlog,forwards,forwardSize]⟩
        obtain ⟨r',taken,next⟩ := collects
        exact ⟨r',reaches_step taken,.inr next⟩

/-- The worker comes to its end, and with it the fetch. -/
theorem worker_ends (job : Job M A) (needed : List A) (at_ : r.main = .awaiting) (standing : Ownership.Standing r) :
    ∃ r', Reaches job needed r r' ∧ (Fates.outcome r').isSome = true := by
  induction many : backlog r using Nat.strongRecOn generalizing r with
  | _ n ih =>
    obtain ⟨r1,first,ended | ⟨at1,less⟩⟩ := worker_goes_on job needed at_ standing.received
    · exact ⟨r1,first,ended⟩
    · obtain ⟨moves,-,reached⟩ := id first
      have standing1 := run_invariant (fun s move next standing taken => Ownership.standing_step standing (step_steps taken)) standing reached
      obtain ⟨r2,second,ended⟩ := ih (backlog r1) (many ▸ less) at1 standing1 rfl
      exact ⟨r2,leads_trans first second,ended⟩

end Runs

/-- Whatever a fetch has done, it can come to its end: from every state that it can
    reach some moves lead to one in which it has returned. -/
theorem returns_reachable [DecidableEq B] [Inhabited B] (parse : List Char → Option M) (peers : PeerMap) (cache : TopologyCache)
    (depth : Nat) (job : Job M SwarmAddress) (opening : Opening SwarmAddress B) (needed : List SwarmAddress)
    (moves : List (Move SwarmAddress B)) (r : Run M SwarmAddress B)
    (reached : run (Scheduler.step (Pulls.routed parse peers cache depth job) needed)
      (launch (Pulls.routed parse peers cache depth job) opening) moves = some r) :
    ∃ more final, run (Scheduler.step (Pulls.routed parse peers cache depth job) needed) r more = some final ∧
      (Fates.outcome final).isSome = true := by
  let routed := Pulls.routed parse peers cache depth job
  have keep : ∀ (r : Run M SwarmAddress B) (move : Move SwarmAddress B) (next : Run M SwarmAddress B), Ownership.Standing r →
      Scheduler.step routed needed r move = some next → Ownership.Standing next :=
    fun r move next standing taken => Ownership.standing_step standing (step_steps taken)
  have standing := run_invariant keep (Fates.launch_started routed opening).1 reached
  have plans : Planned (selected parse peers cache (Fates.wanted job opening) depth)
      (Rounds (selected parse peers cache (Fates.wanted job opening) depth)) r :=
    plans_reached selected_distinct (planned_launch (fun p m member => rfl) rfl) ⟨moves,meets_true _ _,reached⟩
  have ends : ∀ {r : Run M SwarmAddress B}, r.main = .awaiting → Ownership.Standing r →
      ∃ r', Reaches routed needed r r' ∧ (Fates.outcome r').isSome = true := worker_ends routed needed
  have leads : ∃ r', Reaches routed needed r r' ∧ (Fates.outcome r').isSome = true := by
    cases at_ : r.main with
    | refilling | choosing | joining =>
      obtain ⟨r1,first,at1⟩ := loop_ends routed needed selected_distinct plans (by rw [at_]; rfl)
      obtain ⟨moves1,-,reached1⟩ := id first
      obtain ⟨r2,second,ended⟩ := ends at1 (run_invariant keep standing reached1)
      exact ⟨r2,leads_trans first second,ended⟩
    | awaiting => exact ends at_ standing
    | returned result => exact ⟨r,leads_refl r,by rw [Fates.outcome,at_]; rfl⟩
  obtain ⟨final,⟨more,-,ran⟩,ended⟩ := leads
  exact ⟨more,final,ran,ended⟩

/-- A parked connection is taken up and another node dialed, and then the fetch can come
    to its end. -/
theorem returns_reachable_parked : ∃ r more final,
    run (Scheduler.step (Pulls.routed some ∅ Pulls.two 8 parking) Pulls.chunks)
      (launch (Pulls.routed some ∅ Pulls.two 8 parking) parkedTwo) takenUp = some r ∧ (Fates.outcome r).isSome = false ∧
    run (Scheduler.step (Pulls.routed some ∅ Pulls.two 8 parking) Pulls.chunks) r more = some final ∧
      (Fates.outcome final).isSome = true := by
  have ends : (run (Scheduler.step (Pulls.routed some ∅ Pulls.two 8 parking) Pulls.chunks)
      (launch (Pulls.routed some ∅ Pulls.two 8 parking) parkedTwo) takenUp).map (fun r => (Fates.outcome r).isSome) =
      some false := by
    decide +kernel
  obtain ⟨r,reached,open_⟩ := Option.map_eq_some_iff.mp ends
  obtain ⟨more,final,ran,ended⟩ := returns_reachable some ∅ Pulls.two 8 parking parkedTwo Pulls.chunks _ r reached
  exact ⟨r,more,final,reached,open_,ran,ended⟩

end Directswarm.Progress
