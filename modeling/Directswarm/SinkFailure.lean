import Directswarm.Fetch

/-!
A failing sink (`fetch_to_file`, `fetch.rs`). The joiner sends a list of buffers
into a channel of 64, each with an awaiting send, and the sink is joined with it,
not raced: the receiver belongs to the enclosing function and outlives the sink's
failure. What the joiner has still to send then either fits the channel, and the
fetch returns the error (`sink_failure_ends`), or waits forever for a slot that
nobody frees (`sink_failure_wedges`).
-/
namespace Directswarm.SinkFailure
open Directswarm.Runs Directswarm.Text Directswarm.Resume Directswarm.Fetch

/-- The fetches of a path, with what the joiner of the present one is to do, and how
    much of the output has been written and synced. -/
structure Watched where
  sys : System
  /-- The sizes of the buffers that are still to be sent. -/
  todo : List Nat
  /-- What the joiner returns after them. -/
  verdict : Bool
  synced : Nat

inductive Act
  | fetch (act : Fetch.Act)
  /-- The seek is done and the joiner is called. -/
  | sinks (todo : List Nat) (verdict : Bool)

variable (body : Root → Body)

/-- How much is synced after a step of a run. -/
def syncedIn (r : Running) (act : RunAct) (synced : Nat) : Nat :=
  match r.phase, act with
  | .truncating start, .io true => min synced start
  | .sinking _ sink, .sink true =>
    match sink.consumer with
    | .flushing | .closing => sink.written
    | _ => synced
  | _, _ => synced

def syncedBy (sys : System) (act : Fetch.Act) (synced : Nat) : Nat :=
  match sys.running, act with
  | some r, .run act => syncedIn r act synced
  | _, _ => synced

/-- What the joiner does is what it is to do next. -/
def joins (w : Watched) : Fetch.Act → Option (List Nat)
  | .run (.deliver n) => if w.todo.head? = some n then some w.todo.tail else none
  | .run (.joined ok) => if w.todo = [] ∧ ok = w.verdict then some [] else none
  | _ => some w.todo

/-- The seek of the present run. -/
def seeks (w : Watched) : Option (Root × Nat) :=
  w.sys.running.bind fun r =>
    match r.phase with
    | .seeking start => some (r.root,start)
    | _ => none

/-- The seek succeeds. -/
def sought : Fetch.Act → Bool
  | .run (.io true) => true
  | _ => false

def step (w : Watched) : Act → Option Watched
  | .fetch act =>
    if (seeks w).isSome && sought act then none else
    (joins w act).bind fun todo => (Fetch.step body w.sys act).map fun sys =>
      ⟨sys,todo,w.verdict,syncedBy w.sys act w.synced⟩
  | .sinks todo verdict =>
    (seeks w).bind fun (root,start) =>
      let rest := (body root).bytes.length - start
      if todo.sum ≤ rest ∧ (verdict = true → todo.sum = rest) then
        (Fetch.step body w.sys (.run (.io true))).map fun sys => ⟨sys,todo,verdict,w.synced⟩
      else none

/-- No sidecar is there at first; the output may be. -/
def fresh (out : Option (List Byte)) : Watched := ⟨Fetch.fresh out,[],true,0⟩

/-- The sink of the present run. -/
def Watched.sink (w : Watched) : Option Sink :=
  w.sys.running.bind fun r =>
    match r.phase with
    | .sinking _ sink => some sink
    | _ => none

/-- The sink has failed, and the joiner has not been joined with it yet. -/
def Failed (w : Watched) : Prop := ∃ sink, w.sink = some sink ∧ sink.consumer = .done false

/-- The joiner waits for a slot in the channel of a sink that has failed. -/
def Wedged (w : Watched) : Prop :=
  ∃ sink, w.sink = some sink ∧ sink.consumer = .done false ∧ sink.joined = none ∧ w.todo ≠ [] ∧
    sink.queue.length = sinkPipeDepth

/-- The fetch has returned `Err(Io)`. -/
def ReturnedIo (w : Watched) : Prop := ∃ r, w.sys.running = some r ∧ r.phase = .returned (.error .io)

/-- A sink fails when what is still to be sent fits the channel. -/
def Roomy (w : Watched) : Act → Prop
  | .fetch (.run (.sink false)) => ∀ sink ∈ w.sink, sink.queue.length + w.todo.length ≤ sinkPipeDepth
  | _ => True

/-- The sidecar stays true, as `Fetch.Truthful` says. -/
def Truthful (w : Watched) : Act → Prop
  | .fetch act => Fetch.Truthful body w.sys act
  | .sinks _ _ => True

/-- Everything but the end of the process. -/
def Going (act : Act) : Prop := act ≠ .fetch .kill

instance (w : Watched) : (act : Act) → Decidable (Roomy w act)
  | .fetch (.run (.sink false)) =>
    inferInstanceAs (Decidable (∀ sink ∈ w.sink, sink.queue.length + w.todo.length ≤ sinkPipeDepth))
  | .fetch (.run (.sink true)) | .fetch (.run (.root _)) | .fetch (.run (.read _)) | .fetch (.run (.io _))
    | .fetch (.run (.deliver _)) | .fetch (.run (.joined _)) | .fetch (.run .receive) | .fetch (.run .close)
    | .fetch (.run (.land _)) | .fetch (.run (.landText _)) | .fetch (.run .go) | .fetch (.start _) | .fetch .kill
    | .sinks _ _ => isTrue trivial

instance (w : Watched) : (act : Act) → Decidable (Truthful body w act)
  | .fetch act => inferInstanceAs (Decidable (Fetch.Truthful body w.sys act))
  | .sinks _ _ => isTrue trivial

/-! ### What a step of the sink can do -/

/-- The steps of the joiner, of the file and of the sink, by where the sink stands. -/
inductive SinkMoves (root : Root) (disk : Disk) (sink : Sink) : RunAct → Disk → Sink → Prop
  | delivered {n : Nat} (sends : sink.joined = none) (free : sink.queue.length < sinkPipeDepth)
      (piece : List Byte) : SinkMoves root disk sink (.deliver n) disk
        { sink with sent := sink.sent + n, queue := sink.queue ++ [piece] }
  | joined {ok : Bool} (sends : sink.joined = none) : SinkMoves root disk sink (.joined ok) disk { sink with joined := some ok }
  | landed {more : Nat} (busy : ∀ ok, sink.consumer ≠ .done ok) (out : Option (List Byte)) (pos : Nat) (rest : List Byte) :
      SinkMoves root disk sink (.land more) { disk with out := out } { sink with pos := pos, pending := rest }
  | received {buf : List Byte} {rest : List (List Byte)} (at_ : sink.consumer = .receiving) (queue : sink.queue = buf :: rest)
      (consumer : Consumer) (next : consumer = .flushing ∨ consumer = .receiving) :
      SinkMoves root disk sink .receive disk { sink with
        queue := rest, pending := sink.pending ++ buf, written := sink.written + buf.length, consumer := consumer }
  | closed (at_ : sink.consumer = .receiving) (joined : sink.joined.isSome) :
      SinkMoves root disk sink .close disk { sink with consumer := .closing }
  | flushed (at_ : sink.consumer = .flushing) :
      SinkMoves root disk sink (.sink true) disk { sink with consumer := .committing .creating }
  | committed (at_ : sink.consumer = .committing (.wrote true)) :
      SinkMoves root disk sink (.sink true) disk { sink with lastCommit := sink.written, consumer := .receiving }
  | ended (at_ : sink.consumer = .closing) : SinkMoves root disk sink (.sink true) disk { sink with consumer := .done true }
  | failed (working : ∀ ok, sink.consumer ≠ .done ok) :
      SinkMoves root disk sink (.sink false) disk { sink with consumer := .done false }
  | commits {act : RunAct} {w w' : SidecarWrite} {next : Disk} (at_ : sink.consumer = .committing w)
      (sidecar : (∃ ok, act = .io ok) ∨ ∃ more, act = .landText more)
      (wrote : sidecarStep root sink.written disk w act = some (next,w')) :
      SinkMoves root disk sink act next { sink with consumer := .committing w' }

variable {body}

/-- Only the sidecar's own operations move a commit. -/
theorem sidecarStep_act {root : Root} {offset : Nat} {disk next : Disk} {w w' : SidecarWrite} {act : RunAct}
    (wrote : sidecarStep root offset disk w act = some (next,w')) : (∃ ok, act = .io ok) ∨ ∃ more, act = .landText more := by
  cases act with
  | io ok => exact .inl ⟨ok,rfl⟩
  | landText more => exact .inr ⟨more,rfl⟩
  | root _ | read _ | deliver _ | joined _ | receive | close | land _ | sink _ | go => cases w <;> cases wrote

theorem sinkStep_moves {root : Root} {disk next : Disk} {sink moved : Sink} {act : RunAct}
    (taken : sinkStep body root disk sink act = some (next,moved)) : SinkMoves root disk sink act next moved := by
  cases sinkStep_turns taken with
  | delivered on free fits => exact .delivered on free _
  | joined on all => exact .joined on
  | landed working some_ => exact .landed working _ _ _
  | received at_ queue onward => exact .received at_ queue _ onward
  | closed at_ all => exact .closed at_ all.2
  | flushed at_ landed => exact .flushed at_
  | committed at_ => exact .committed at_
  | ended at_ landed => exact .ended at_
  | failed working => exact .failed working
  | commits at_ wrote => exact .commits at_ (sidecarStep_act wrote) wrote

/-! ### What is synced -/

/-- What the sidecar says of a root has been synced. -/
def OwnUnder (disk : Disk) (root : Root) (synced : Nat) : Prop :=
  ∀ state, disk.sidecar.bind parse = some state → state.root = root → state.offset ≤ synced

/-- What the sidecar says has been synced. -/
def Under (disk : Disk) (synced : Nat) : Prop := ∀ state, disk.sidecar.bind parse = some state → state.offset ≤ synced

/-- How what is synced compares with where a run stands. -/
def SyncedAt (synced : Nat) : Phase → Prop
  | .seeking start => synced ≤ start
  | .sinking _ sink => synced ≤ sink.written ∧ (∀ w, sink.consumer = .committing w → sink.written ≤ synced) ∧
      (sink.consumer = .done true → sink.written ≤ synced)
  | .preserving written _ => written ≤ synced
  | _ => True

/-- What the sidecar says is synced: of its own root, once a run has cut the output. -/
structure Backed (disk : Disk) (synced : Nat) (r : Running) : Prop where
  own : OwnUnder disk r.root synced
  all : r.truncated = false ∨ r.isOver = true → Under disk synced
  at_ : SyncedAt synced r.phase

theorem under_of_own {disk : Disk} {root : Root} {synced : Nat} (own : OwnUnder disk root synced)
    (mine : ¬ Foreign disk root) : Under disk synced := by
  intro state found
  by_cases same : state.root = root
  · exact own state found same
  · rcases Nat.eq_zero_or_pos state.offset with zero | positive
    · rw [zero]; exact Nat.zero_le _
    · exact absurd ⟨state,found,same,positive⟩ mine

/-- A commit says no more than what it commits. -/
theorem own_commit {disk next : Disk} {root : Root} {offset synced : Nat} {w w' : SidecarWrite} {act : RunAct}
    (own : OwnUnder disk root synced) (committing : Committing disk root offset w) (le : offset ≤ synced)
    (wrote : sidecarStep root offset disk w act = some (next,w')) : OwnUnder next root synced := by
  unfold sidecarStep at wrote
  split at wrote
  · cases wrote
    intro state found
    have silent : (some ([] : List Char)).bind parse = none := parse_nil
    rw [silent] at found; cases found
  · rename_i rest more
    obtain ⟨text,sidecar,cut⟩ := committing
    split at wrote
    · cases wrote
    · cases wrote
      intro state found _
      rw [sidecar] at found
      have start : text ++ rest.take (more + 1) <+: render (committed root offset) :=
        ⟨rest.drop (more + 1),by rw [List.append_assoc,List.take_append_drop,cut]⟩
      obtain ⟨-,below⟩ := parse_prefix start found
      have mod : (committed root offset).offset ≤ offset := Nat.mod_le _ _
      omega
  · split at wrote
    · cases wrote; exact own
    · cases wrote
  · cases wrote; exact own
  · cases wrote; exact own
  · cases wrote

/-- One step of the joiner, of the file, or of the sink. -/
theorem backed_sink {disk next : Disk} {root : Root} {sink moved : Sink} {act : RunAct} {synced start : Nat}
    {truncated : Bool} (own : OwnUnder disk root synced) (at_ : SyncedAt synced (.sinking start sink))
    (stands : Stands disk root sink) (moves : SinkMoves root disk sink act next moved) :
    OwnUnder next root (syncedIn ⟨root,truncated,.sinking start sink⟩ act synced) ∧
      SyncedAt (syncedIn ⟨root,truncated,.sinking start sink⟩ act synced) (.sinking start moved) := by
  obtain ⟨below,committing,whole⟩ := at_
  have grows : ∀ state, disk.sidecar.bind parse = some state → state.root = root → state.offset ≤ sink.written :=
    fun state found same => (own state found same).trans below
  cases moves with
  | delivered sends free piece => exact ⟨own,below,committing,whole⟩
  | joined sends => exact ⟨own,below,committing,whole⟩
  | landed busy out pos rest => exact ⟨own,below,committing,whole⟩
  | received here queue consumer next =>
    refine ⟨own,below.trans (Nat.le_add_right _ _),?_,?_⟩
    · rcases next with rfl | rfl <;> rintro w ⟨⟩
    · rcases next with rfl | rfl <;> rintro ⟨⟩
  | closed here joined => exact ⟨own,below,by rintro w ⟨⟩,by rintro ⟨⟩⟩
  | flushed here =>
    simp only [syncedIn,here]
    exact ⟨grows,Nat.le_refl _,fun _ _ => Nat.le_refl _,by rintro ⟨⟩⟩
  | committed here =>
    simp only [syncedIn,here]
    exact ⟨own,below,by rintro w ⟨⟩,by rintro ⟨⟩⟩
  | ended here =>
    simp only [syncedIn,here]
    exact ⟨grows,Nat.le_refl _,by rintro w ⟨⟩,fun _ => Nat.le_refl _⟩
  | failed working => exact ⟨own,below,by rintro w ⟨⟩,by rintro ⟨⟩⟩
  | commits here sidecar wrote =>
    simp only [Stands,here] at stands
    have le := committing _ here
    rcases sidecar with ⟨ok,rfl⟩ | ⟨more,rfl⟩
    · exact ⟨own_commit own stands.2 le wrote,below,fun _ _ => le,by rintro ⟨⟩⟩
    · exact ⟨own_commit own stands.2 le wrote,below,fun _ _ => le,by rintro ⟨⟩⟩

/-- A run that goes on where nothing new is asked. -/
theorem backed_phase {disk : Disk} {synced : Nat} {r : Running} {phase : Phase} (inv : Backed disk synced r)
    (on : (Running.mk r.root r.truncated phase).isOver = true → Under disk synced) (at_ : SyncedAt synced phase) :
    Backed disk synced ⟨r.root,r.truncated,phase⟩ :=
  ⟨inv.own,fun either => either.elim (fun uncut => inv.all (.inl uncut)) on,at_⟩

/-- A run that has cut the output and goes on. -/
theorem backed_cut {disk : Disk} {synced : Nat} {r : Running} (own : OwnUnder disk r.root synced)
    (cut : r.truncated = true) (on : r.isOver = false) (at_ : SyncedAt synced r.phase) : Backed disk synced r := by
  refine ⟨own,fun either => ?_,at_⟩
  rcases either with uncut | past
  · rw [cut] at uncut; cases uncut
  · rw [on] at past; cases past

/-- One step of a run. -/
theorem backed_run {disk next : Disk} {r moved : Running} {act : RunAct} {synced : Nat} (sound : Sound body disk r)
    (inv : Backed disk synced r) (leaves : act = .go → r.truncated = true → r.leaving = true → ¬ Foreign disk r.root)
    (taken : runStep body disk r act = some (next,moved)) : Backed next (syncedIn r act synced) moved := by
  obtain ⟨root,truncated,phase⟩ := r
  have progress := sound.progress
  cases runStep_moves taken with
  | unfetchable | short few | wire | whole start_ all | resumed start_ more | unopened | uncut | unsought
  | unsunk at_ joined | sunk at_ joined | preserved => exact backed_phase inv nofun trivial
  | opened => exact ⟨inv.own,fun _ => inv.all (.inl progress.1),trivial⟩
  | @cut start =>
    obtain ⟨uncut,-,-,offset⟩ := progress
    refine backed_cut ?_ rfl rfl (Nat.min_le_right _ _)
    -- What the sidecar says of this root is the offset that the output is cut at.
    intro state found same
    show state.offset ≤ min synced start
    refine Nat.le_min.mpr ⟨inv.own state found same,?_⟩
    rcases Nat.eq_zero_or_pos state.offset with zero | positive
    · rw [zero]; exact Nat.zero_le _
    · exact (offset state found same positive).le
  | sought =>
    obtain ⟨cut,-⟩ := progress
    exact backed_cut inv.own cut rfl ⟨inv.at_,nofun,nofun⟩
  | @sinks start sink sink' act disk' sank =>
    obtain ⟨cut,-,stands⟩ := progress
    obtain ⟨own,at_⟩ := @backed_sink _ _ _ _ _ _ _ start truncated inv.own inv.at_ stands (sinkStep_moves sank)
    exact backed_cut own cut rfl at_
  | unjoined at_ joined => exact backed_phase inv nofun (inv.at_.2.2 at_)
  | preserves wrote =>
    obtain ⟨cut,-,committing⟩ := progress
    exact backed_cut (own_commit inv.own committing inv.at_ wrote) cut rfl inv.at_
  | @cleaned outcome ok =>
    cases ok with
    | false => exact backed_phase inv nofun trivial
    | true => exact ⟨nofun,fun _ => nofun,trivial⟩
  | returns =>
    refine backed_phase inv (fun _ => ?_) trivial
    cases truncated with
    | false => exact inv.all (.inl rfl)
    | true => exact under_of_own inv.own (leaves rfl rfl rfl)

/-- What is synced backs the sidecar, of a run or between runs. -/
def Secured (sys : System) (synced : Nat) : Prop :=
  match sys.running with
  | none => Under sys.disk synced
  | some r => Backed sys.disk synced r

theorem secured_step {sys next : System} {act : Fetch.Act} {synced : Nat} (truth : Truth body sys)
    (inv : Secured sys synced) (met : Fetch.Truthful body sys act) (taken : Fetch.step body sys act = some next) :
    Secured next (syncedBy sys act synced) := by
  obtain ⟨disk,running⟩ := sys
  cases act with
  | start root =>
    have all : Under disk synced ∧ next = ⟨disk,some ⟨root,false,.root⟩⟩ := by
      cases running with
      | none => cases taken; exact ⟨inv,rfl⟩
      | some r =>
        simp only [Fetch.step,Option.all_some] at taken
        by_cases past : r.isOver = true
        · rw [if_pos past] at taken; cases taken; exact ⟨inv.all (.inr past),rfl⟩
        · rw [if_neg past] at taken; cases taken
    obtain ⟨under,rfl⟩ := all
    have kept : syncedBy ⟨disk,running⟩ (.start root) synced = synced := by cases running <;> rfl
    rw [kept]
    exact ⟨fun state found _ => under state found,fun _ => under,trivial⟩
  | run act =>
    simp only [Fetch.step] at taken
    obtain ⟨r,rfl,rest⟩ := Option.bind_eq_some_iff.mp taken
    obtain ⟨⟨disk',r'⟩,moved,rfl⟩ := Option.map_eq_some_iff.mp rest
    refine backed_run truth inv ?_ moved
    rintro rfl; exact met r rfl
  | kill =>
    cases running with
    | none => simp [Fetch.step] at taken
    | some r =>
      simp only [Fetch.step,Option.any_some] at taken
      by_cases on : (!r.isOver) = true
      · rw [if_pos on] at taken
        cases taken
        show Under disk synced
        cases cut : r.truncated with
        | false => exact inv.all (.inl cut)
        | true => exact under_of_own inv.own (met r rfl cut)
      · rw [if_neg on] at taken; cases taken

/-! ### What the joiner has still to do -/

/-- What is still to be sent is there, and fits the channel of a sink that failed. -/
structure Planned (body : Root → Body) (root : Root) (todo : List Nat) (verdict : Bool) (sink : Sink) : Prop where
  fits : sink.sent + todo.sum ≤ (body root).bytes.length
  whole : verdict = true → sink.sent + todo.sum = (body root).bytes.length
  joined : sink.joined.isSome → todo = []
  depth : sink.queue.length ≤ sinkPipeDepth
  room : sink.consumer = .done false → sink.queue.length + todo.length ≤ sinkPipeDepth

theorem joins_deliver {w : Watched} {n : Nat} {todo : List Nat} (joins_ : joins w (.run (.deliver n)) = some todo) :
    w.todo = n :: todo := by
  simp only [joins] at joins_
  cases plan : w.todo with
  | nil => simp [plan] at joins_
  | cons m rest =>
    by_cases first : m = n
    · simp [plan,first] at joins_
      rw [first,joins_]
    · simp [plan,first] at joins_

theorem joins_joined {w : Watched} {ok : Bool} {todo : List Nat} (joins_ : joins w (.run (.joined ok)) = some todo) :
    w.todo = [] ∧ todo = [] := by
  simp only [joins] at joins_
  split at joins_
  · next ends => cases joins_; exact ⟨ends.1,rfl⟩
  · cases joins_

theorem planned_sink {w : Watched} {disk next : Disk} {root : Root} {sink moved : Sink} {act : RunAct} {todo : List Nat}
    (planned : Planned body root w.todo w.verdict sink) (roomy : act = .sink false → sink.queue.length + w.todo.length ≤ sinkPipeDepth)
    (joins_ : joins w (.run act) = some todo) (moves : SinkMoves root disk sink act next moved) :
    Planned body root todo w.verdict moved := by
  obtain ⟨fits,whole,joined,depth,room⟩ := planned
  cases moves with
  | @delivered n sends free piece =>
    rw [joins_deliver joins_] at fits whole room
    simp only [List.sum_cons,List.length_cons] at fits whole room
    refine ⟨?_,fun good => ?_,fun some_ => by simp [sends] at some_,?_,?_⟩
    · show sink.sent + n + todo.sum ≤ _; omega
    · have all := whole good
      show sink.sent + n + todo.sum = _; omega
    · simp only [List.length_append,List.length_singleton]; omega
    · intro here
      have := room here
      simp only [List.length_append,List.length_singleton]; omega
  | joined sends =>
    obtain ⟨empty,rfl⟩ := joins_joined joins_
    rw [empty] at fits whole room
    exact ⟨fits,whole,fun _ => rfl,depth,room⟩
  | landed busy out pos rest => cases joins_; exact ⟨fits,whole,joined,depth,room⟩
  | received here queue consumer next =>
    cases joins_
    rw [queue,List.length_cons] at depth
    refine ⟨fits,whole,joined,by simp only; omega,fun done => ?_⟩
    rcases next with rfl | rfl <;> cases done
  | closed here joined_ => cases joins_; exact ⟨fits,whole,joined,depth,nofun⟩
  | flushed here => cases joins_; exact ⟨fits,whole,joined,depth,nofun⟩
  | committed here => cases joins_; exact ⟨fits,whole,joined,depth,nofun⟩
  | ended here => cases joins_; exact ⟨fits,whole,joined,depth,nofun⟩
  | failed working => cases joins_; exact ⟨fits,whole,joined,depth,fun _ => roomy rfl⟩
  | commits here sidecar wrote =>
    rcases sidecar with ⟨ok,rfl⟩ | ⟨more,rfl⟩
    · cases joins_; exact ⟨fits,whole,joined,depth,nofun⟩
    · cases joins_; exact ⟨fits,whole,joined,depth,nofun⟩

/-- A run is sinking after its seek, or after a step of its sink. -/
theorem runStep_sinking {disk next : Disk} {r moved : Running} {act : RunAct} {start : Nat} {sink : Sink}
    (taken : runStep body disk r act = some (next,moved)) (at_ : moved.phase = .sinking start sink) :
    (∃ offset, r.phase = .seeking offset) ∧ act = .io true ∨
    ∃ before, r.phase = .sinking start before ∧ moved.root = r.root ∧ SinkMoves r.root disk before act next sink := by
  obtain ⟨root,truncated,phase⟩ := r
  cases runStep_moves taken with
  | sought => exact .inl ⟨⟨_,rfl⟩,rfl⟩
  | @sinks begun before sink' act disk' sank =>
    cases at_
    exact .inr ⟨before,rfl,rfl,sinkStep_moves sank⟩
  | _ => cases at_

/-- The joiner of a run that is sinking has a plan. -/
def Plans (body : Root → Body) (w : Watched) : Prop :=
  ∀ r start sink, w.sys.running = some r → r.phase = .sinking start sink → Planned body r.root w.todo w.verdict sink

theorem plans_fetch {w : Watched} {next : System} {act : Fetch.Act} {todo : List Nat} (plans : Plans body w)
    (roomy : Roomy w (.fetch act)) (sought_ : ¬ ((seeks w).isSome && sought act) = true) (joins_ : joins w act = some todo)
    (taken : Fetch.step body w.sys act = some next) (synced : Nat) : Plans body ⟨next,todo,w.verdict,synced⟩ := by
  intro moved start sink' running at_
  cases act with
  | start root =>
    simp only [Fetch.step] at taken
    split at taken
    · cases taken; cases running; cases at_
    · cases taken
  | kill =>
    simp only [Fetch.step] at taken
    split at taken
    · cases taken; cases running
    · cases taken
  | run act =>
    simp only [Fetch.step] at taken
    obtain ⟨r,there,rest⟩ := Option.bind_eq_some_iff.mp taken
    obtain ⟨⟨disk',r'⟩,moves,rfl⟩ := Option.map_eq_some_iff.mp rest
    cases running
    rcases runStep_sinking moves at_ with ⟨⟨offset,seeking⟩,rfl⟩ | ⟨before,phase,root,sank⟩
    · exact absurd (by simp [seeks,there,seeking,sought]) sought_
    · have planned := plans r start before there phase
      have room : act = .sink false → before.queue.length + w.todo.length ≤ sinkPipeDepth := by
        rintro rfl
        exact roomy before (by simp [Watched.sink,there,phase])
      show Planned body r'.root todo w.verdict sink'
      rw [root]
      exact planned_sink planned room joins_ sank

/-- What holds of every state that is reached. -/
structure Inv (body : Root → Body) (w : Watched) : Prop where
  truth : Truth body w.sys
  secured : Secured w.sys w.synced
  plans : Plans body w

theorem inv_step {w next : Watched} {act : Act} (inv : Inv body w) (met : Roomy w act ∧ Truthful body w act)
    (taken : step body w act = some next) : Inv body next := by
  cases act with
  | fetch act =>
    simp only [step] at taken
    split at taken
    · cases taken
    · rename_i elsewhere
      obtain ⟨todo,joins_,rest⟩ := Option.bind_eq_some_iff.mp taken
      obtain ⟨sys,moved,rfl⟩ := Option.map_eq_some_iff.mp rest
      exact ⟨truth_step w.sys act sys inv.truth met.2 moved,secured_step inv.truth inv.secured met.2 moved,
        plans_fetch inv.plans met.1 elsewhere joins_ moved _⟩
  | sinks todo verdict =>
    simp only [step] at taken
    obtain ⟨⟨root,start⟩,seeking,rest⟩ := Option.bind_eq_some_iff.mp taken
    split at rest
    · rename_i fits
      obtain ⟨sys,moved,rfl⟩ := Option.map_eq_some_iff.mp rest
      have calm : Fetch.Truthful body w.sys (.run (.io true)) := trivial
      have secured := secured_step inv.truth inv.secured calm moved
      obtain ⟨r,there,phase⟩ := Option.bind_eq_some_iff.mp seeking
      split at phase
      · rename_i offset at_
        cases phase
        -- The output holds what the run resumes from.
        have sound : Sound body w.sys.disk r := by
          have truth := inv.truth
          unfold Truth at truth
          rwa [there] at truth
        have holds := sound.progress
        rw [at_] at holds
        have within : start ≤ (body r.root).bytes.length := holds.2.length ▸ holds.2.along.length_le
        have same : syncedBy w.sys (.run (.io true)) w.synced = w.synced := by simp [syncedBy,there,syncedIn,at_]
        rw [same] at secured
        refine ⟨truth_step w.sys (.run (.io true)) sys inv.truth calm moved,secured,?_⟩
        intro moved' begun sink running sinking
        simp only [Fetch.step,there,Option.bind_some,runStep,at_,Option.map_some] at moved
        cases moved
        cases running
        cases sinking
        have sum : todo.sum ≤ (body r.root).bytes.length - start := fits.1
        refine ⟨?_,fun good => ?_,by rintro ⟨⟩,Nat.zero_le _,by rintro ⟨⟩⟩
        · show start + todo.sum ≤ (body r.root).bytes.length; omega
        · have whole : todo.sum = (body r.root).bytes.length - start := fits.2 good
          show start + todo.sum = (body r.root).bytes.length; omega
      · cases phase
    · cases rest

/-! ### The end of a fetch whose sink has failed -/

/-- The sink has failed and its run has not returned, or has returned the error. -/
def Failing (body : Root → Body) (w : Watched) : Prop :=
  ∃ r, w.sys.running = some r ∧
    ((∃ start sink, r.phase = .sinking start sink ∧ sink.consumer = .done false ∧
        Planned body r.root w.todo w.verdict sink) ∨
      r.phase = .ending (.error .io) ∨ r.phase = .returned (.error .io))

/-- How much is left to do. -/
def left (w : Watched) : Nat :=
  match w.sys.running with
  | none => 0
  | some r =>
    match r.phase with
    | .sinking _ sink => w.todo.length + (if sink.joined.isSome then 2 else 3)
    | .ending _ => 1
    | _ => 0

/-- A joiner that has not returned can go on, as its plan fits. -/
theorem failing_enabled {w : Watched} {r : Running} {start : Nat} {sink : Sink} (there : w.sys.running = some r)
    (at_ : r.phase = .sinking start sink) (failed : sink.consumer = .done false)
    (planned : Planned body r.root w.todo w.verdict sink) : ∃ act next, Going act ∧ step body w act = some next := by
  have elsewhere : seeks w = none := by simp [seeks,there,at_]
  have free : ∀ act, ¬ ((seeks w).isSome && sought act) = true := by rw [elsewhere]; simp
  have able : ∀ (act : RunAct) (todo : List Nat), joins w (.run act) = some todo →
      (runStep body w.sys.disk r act).isSome = true → ∃ act next, Going act ∧ step body w act = some next := by
    intro act todo joins_ enabled
    obtain ⟨moved,taken⟩ := Option.isSome_iff_exists.mp enabled
    refine ⟨.fetch (.run act),⟨⟨moved.1,some moved.2⟩,todo,w.verdict,syncedBy w.sys (.run act) w.synced⟩,nofun,?_⟩
    simp only [step,if_neg (free _),joins_,Option.bind_some,Fetch.step,there,taken,Option.map_some]
  cases joined : sink.joined with
  | some result => exact able .go w.todo rfl (by simp only [runStep,at_,failed,joined]; rfl)
  | none =>
    cases plan : w.todo with
    | nil =>
      have whole : w.verdict = true → sink.sent = (body r.root).bytes.length := by
        intro good
        have all := planned.whole good
        rwa [plan,List.sum_nil,Nat.add_zero] at all
      refine able (.joined w.verdict) [] (by simp [joins,plan]) ?_
      simp only [runStep,at_,sinkStep,joined,true_and,if_pos whole]
      rfl
    | cons n rest =>
      have room := planned.room failed
      have fits := planned.fits
      rw [plan,List.length_cons] at room
      rw [plan,List.sum_cons] at fits
      have sends : sink.queue.length < sinkPipeDepth ∧ sink.sent + n ≤ (body r.root).bytes.length :=
        ⟨by omega,by omega⟩
      refine able (.deliver n) rest (by simp [joins,plan]) ?_
      simp only [runStep,at_,sinkStep,joined,true_and,if_pos sends]
      rfl

/-- Nothing but the joiner moves a sink that has failed. -/
theorem failed_moves {root : Root} {disk next : Disk} {sink moved : Sink} {act : RunAct}
    (failed : sink.consumer = .done false) (moves : SinkMoves root disk sink act next moved) :
    moved.consumer = .done false ∧
      ((∃ n, act = .deliver n ∧ moved.joined = sink.joined ∧ sink.joined = none ∧ sink.queue.length < sinkPipeDepth) ∨
        ∃ ok, act = .joined ok ∧ moved.joined = some ok ∧ sink.joined = none) := by
  cases moves with
  | delivered sends free piece => exact ⟨failed,.inl ⟨_,rfl,rfl,sends,free⟩⟩
  | joined sends => exact ⟨failed,.inr ⟨_,rfl,rfl,sends⟩⟩
  | landed busy out pos rest => exact absurd failed (busy _)
  | failed working => exact absurd failed (working _)
  | received at_ queue consumer next => rw [failed] at at_; cases at_
  | closed at_ joined => rw [failed] at at_; cases at_
  | flushed at_ => rw [failed] at at_; cases at_
  | committed at_ => rw [failed] at at_; cases at_
  | ended at_ => rw [failed] at at_; cases at_
  | commits at_ sidecar wrote => rw [failed] at at_; cases at_

/-- Short of its return, every step of a failing fetch leaves less to do. -/
theorem failing_step {w next : Watched} {act : Act} (failing : Failing body w) (short : ¬ ReturnedIo w) (going : Going act)
    (taken : step body w act = some next) : Failing body next ∧ left next < left w := by
  obtain ⟨r,there,stage⟩ := failing
  have busy : r.isOver = false := by
    rcases stage with ⟨start,sink,at_,-,-⟩ | at_ | at_
    · simp [Running.isOver,at_]
    · simp [Running.isOver,at_]
    · exact absurd ⟨r,there,at_⟩ short
  have elsewhere : seeks w = none := by
    rcases stage with ⟨start,sink,at_,-,-⟩ | at_ | at_ <;> simp [seeks,there,at_]
  cases act with
  | sinks todo verdict => simp [step,elsewhere] at taken
  | fetch act =>
    simp only [step,elsewhere,Option.isSome_none,Bool.false_and,Bool.false_eq_true,if_false] at taken
    obtain ⟨todo,joins_,rest⟩ := Option.bind_eq_some_iff.mp taken
    obtain ⟨sys,moved,rfl⟩ := Option.map_eq_some_iff.mp rest
    cases act with
    | kill => exact absurd rfl going
    | start root => simp [Fetch.step,there,busy] at moved
    | run act =>
      simp only [Fetch.step,there,Option.bind_some] at moved
      obtain ⟨⟨disk',r'⟩,moves,rfl⟩ := Option.map_eq_some_iff.mp moved
      obtain ⟨root,truncated,phase⟩ := r
      rcases stage with ⟨start,sink,at_,failed,planned⟩ | at_ | at_
      · obtain rfl : phase = .sinking start sink := at_
        cases runStep_moves moves with
        | unsunk here joined =>
          refine ⟨⟨_,rfl,.inr (.inl rfl)⟩,?_⟩
          simp only [left,there,joined,Option.isSome_some,if_true]; omega
        | unjoined here joined | sunk here joined => rw [failed] at here; cases here
        | @sinks start sink sink' act disk'' sank =>
          have inversion := sinkStep_moves sank
          obtain ⟨failed',which⟩ := failed_moves failed inversion
          have room : act = .sink false → sink.queue.length + w.todo.length ≤ sinkPipeDepth := fun _ => planned.room failed
          have planned' : Planned body root todo w.verdict sink' := planned_sink planned room joins_ inversion
          refine ⟨⟨_,rfl,.inl ⟨start,sink',rfl,failed',planned'⟩⟩,?_⟩
          simp only [left,there]
          rcases which with ⟨n,rfl,same,sends,-⟩ | ⟨ok,rfl,some_,sends⟩
          · have plan := joins_deliver joins_
            rw [same,plan,List.length_cons]; omega
          · obtain ⟨-,rfl⟩ := joins_joined joins_
            rw [some_,sends]; simp
      · obtain rfl : phase = .ending (.error .io) := at_
        cases runStep_moves moves with
        | returns =>
          refine ⟨⟨_,rfl,.inr (.inr rfl)⟩,?_⟩
          simp only [left,there]; omega
      · exact absurd ⟨_,there,at_⟩ short

/-- A failing fetch returns the error, whatever the schedule. -/
theorem failing_returns {w : Watched} (failing : Failing body w) : Inevitable (step body) Going ReturnedIo w := by
  refine inevitable_of_measure left (fun s stage => ?_) failing
  by_cases short : ReturnedIo s
  · exact .inl short
  · refine .inr ⟨?_,fun act next going taken => failing_step stage short going taken⟩
    obtain ⟨r,there,⟨start,sink,at_,failed,planned⟩ | at_ | at_⟩ := stage
    · exact failing_enabled there at_ failed planned
    · have enabled : (step body s (.fetch (.run .go))).isSome = true := by
        simp [step,seeks,there,at_,joins,Fetch.step,runStep]
      obtain ⟨next,taken⟩ := Option.isSome_iff_exists.mp enabled
      exact ⟨.fetch (.run .go),next,by rintro ⟨⟩,taken⟩
    · exact absurd ⟨r,there,at_⟩ short

/-- Nothing moves a fetch whose joiner waits on a failed sink. -/
theorem wedged_stuck {w : Watched} (waits : Wedged w) {act : Act} (going : Going act) : step body w act = none := by
  obtain ⟨sink,at_,failed,sends,more,full⟩ := waits
  obtain ⟨r,there,phase⟩ := Option.bind_eq_some_iff.mp at_
  split at phase
  · rename_i start here sinking
    cases phase
    have elsewhere : seeks w = none := by simp [seeks,there,sinking]
    cases act with
    | sinks todo verdict => simp [step,elsewhere]
    | fetch act =>
      cases act with
      | kill => exact absurd rfl going
      | start root => simp [step,elsewhere,joins,Fetch.step,there,Running.isOver,sinking]
      | run act =>
        by_contra moves
        obtain ⟨next,taken⟩ := Option.ne_none_iff_exists'.mp moves
        simp only [step,elsewhere,Option.isSome_none,Bool.false_and,Bool.false_eq_true,if_false] at taken
        obtain ⟨todo,joins_,rest⟩ := Option.bind_eq_some_iff.mp taken
        obtain ⟨sys,moved,-⟩ := Option.map_eq_some_iff.mp rest
        simp only [Fetch.step,there,Option.bind_some] at moved
        obtain ⟨⟨disk',r'⟩,steps,-⟩ := Option.map_eq_some_iff.mp moved
        obtain ⟨root,truncated,phase⟩ := r
        obtain rfl : phase = .sinking start sink := sinking
        cases runStep_moves steps with
        | unsunk here joined => rw [sends] at joined; cases joined
        | unjoined here joined | sunk here joined => rw [failed] at here; cases here
        | sinks sank =>
          rcases (failed_moves failed (sinkStep_moves sank)).2 with ⟨n,rfl,-,-,free⟩ | ⟨ok,rfl,-,-⟩
          · omega
          · exact absurd (joins_joined joins_).1 more
  · cases phase

/-- In every run whose sinks fail only when what is still to be sent fits the channel,
    and whose steps leave the sidecar true, no joiner waits on a sink that has failed;
    a fetch whose sink has failed returns the error, whatever the schedule; and what
    the sidecar says when a fetch has returned is synced. -/
theorem sink_failure_ends (body : Root → Body) (out : Option (List Byte)) {acts : List Act} {final : Watched}
    (met : Meets (step body) (fun w act => Roomy w act ∧ Truthful body w act) (fresh out) acts)
    (reached : run (step body) (fresh out) acts = some final) :
    ¬ Wedged final ∧ (Failed final → Inevitable (step body) Going ReturnedIo final) ∧
      ∀ r, final.sys.running = some r → r.isOver = true → ∀ state, final.sys.disk.sidecar.bind parse = some state →
        state.offset ≤ final.synced := by
  have start : Inv body (fresh out) := by
    refine ⟨show Tied body ⟨out,none⟩ from tied_silent rfl,nofun,?_⟩
    intro r start sink there
    cases there
  have keep : ∀ w act next, Inv body w → Roomy w act ∧ Truthful body w act → step body w act = some next → Inv body next :=
    fun _ _ _ inv ok taken => inv_step inv ok taken
  have inv := run_guarded keep start met reached
  have sinking : ∀ sink, final.sink = some sink → ∃ r begun, final.sys.running = some r ∧ r.phase = .sinking begun sink := by
    intro sink at_
    obtain ⟨r,there,phase⟩ := Option.bind_eq_some_iff.mp at_
    split at phase
    · rename_i begun here at_
      cases phase; exact ⟨r,begun,there,at_⟩
    · cases phase
  refine ⟨?_,?_,?_⟩
  · rintro ⟨sink,at_,failed,-,more,full⟩
    obtain ⟨r,begun,there,phase⟩ := sinking sink at_
    have room := (inv.plans r begun sink there phase).room failed
    have some_ := List.length_pos_iff.mpr more
    omega
  · rintro ⟨sink,at_,failed⟩
    obtain ⟨r,begun,there,phase⟩ := sinking sink at_
    exact failing_returns ⟨r,there,.inl ⟨begun,sink,phase,failed,inv.plans r begun sink there phase⟩⟩
  · intro r there ended state found
    have secured := inv.secured
    unfold Secured at secured
    rw [there] at secured
    exact secured.all (.inr ended) state found

/-! ### Runs of 67 buffers -/

/-- A root whose body is 67 bytes. -/
def someRoot : Root := List.Vector.replicate 32 0xc3
def sixtySeven (_ : Root) : Body := ⟨List.replicate 67 7,by decide⟩

/-- A fetch up to the call of its joiner. -/
def begins (todo : List Nat) : List Act :=
  .fetch (.start someRoot) :: ([.root .wire,.read true,.io true,.io true] : List RunAct).map (fun act => .fetch (.run act)) ++
    ([.sinks todo true] : List Act)

/-- The write of a small buffer is done behind the sink's back, and that it failed is
    said when the next one is to be written. So the sink takes two buffers and ends
    with the error; by then the joiner has sent what the channel takes. -/
def sinkFails : List Nat → List RunAct
  | n :: m :: rest => [.deliver n,.deliver m,.receive,.receive] ++ (rest.take sinkPipeDepth).map .deliver ++ [.sink false]
  | _ => []

def failingRun (todo : List Nat) : List Act := begins todo ++ (sinkFails todo).map fun act => .fetch (.run act)

/-- Whether the joiner waits on a failed sink. -/
def wedged (w : Watched) : Bool :=
  match w.sink with
  | some sink => sink.consumer = .done false && sink.joined = none && w.todo ≠ [] && sink.queue.length = sinkPipeDepth
  | none => false

theorem wedged_iff (w : Watched) : wedged w = true ↔ Wedged w := by
  unfold wedged Wedged
  cases at_ : w.sink with
  | none => simp
  | some sink => simp [and_assoc]

/-- Of 67 buffers the last one waits for a slot in a channel that nobody empties:
    nothing but the end of the process is left. -/
theorem sink_failure_wedges : ∃ w, run (step sixtySeven) (fresh none) (failingRun (List.replicate 67 1)) = some w ∧
    Wedged w ∧ ∀ act, Going act → step sixtySeven w act = none := by
  have stuck : (run (step sixtySeven) (fresh none) (failingRun (List.replicate 67 1))).any wedged = true := by
    decide +kernel
  obtain ⟨w,reached,waits⟩ := (Option.any_eq_true _ _).mp stuck
  rw [wedged_iff] at waits
  exact ⟨w,reached,waits,fun act going => wedged_stuck waits going⟩

/-- A sink that fails with the last 64 of 66 buffers in the channel. -/
theorem sink_failure_ends_full : ∃ w, run (step sixtySeven) (fresh none) (failingRun (2 :: List.replicate 65 1)) = some w ∧
    Inevitable (step sixtySeven) Going ReturnedIo w := by
  let acts := failingRun (2 :: List.replicate 65 1)
  have reaches : (run (step sixtySeven) (fresh none) acts).any
      (fun w => w.sink.any fun sink => sink.consumer = .done false) = true := by decide +kernel
  have met : Meets (step sixtySeven) (fun w act => Roomy w act ∧ Truthful sixtySeven w act) (fresh none) acts := by
    decide +kernel
  obtain ⟨w,reached,fails⟩ := (Option.any_eq_true _ _).mp reaches
  obtain ⟨sink,at_,failed⟩ := (Option.any_eq_true _ _).mp fails
  exact ⟨w,reached,(sink_failure_ends sixtySeven none met reached).2.1 ⟨sink,at_,of_decide_eq_true failed⟩⟩

end Directswarm.SinkFailure
