import Directswarm.Fetch

/-!
Resuming over a file that was deleted or cut in between (`fetch_to_file` again).
Beside the files of `Fetch` goes a mark for each byte of the output, whether a
joiner delivered it; the bytes that `set_len` fills in have none. The sidecar's
offset is not checked against the file: a file shorter than the offset is filled
with zeros up to it, and an offset of the whole span is taken for the whole file
(`zero_filled`). `delivered_iff` says when a run that returns `Ok` leaves
delivered bytes only.
-/
namespace Directswarm.Restarts
open Directswarm.Runs Directswarm.Files Directswarm.Fetch Directswarm.Resume Directswarm.Text

/-- The system of `Fetch`, and whether a joiner delivered each byte of the output. -/
structure Tracked where
  sys : System
  marks : List Bool

inductive TrackedAct
  | fetch (act : Act)
  /-- Between runs the output is deleted, or given a length. -/
  | resize (length : Option Nat)

/-- What a step does to the marks. -/
def mark (r : Running) (marks : List Bool) (act : RunAct) : List Bool :=
  match r.phase, act with
  | .truncating start, .io true => setLen false marks start
  | .sinking _ sink, .land more => poke false marks sink.pos ((sink.pending.take (more + 1)).map fun _ => true)
  | _, _ => marks

/-- The output after a change from outside. -/
def resized (disk : Disk) (length : Option Nat) : Disk := { disk with out := length.map (setLen 0 disk.file) }

variable (body : Root → Body)

def trackedStep (t : Tracked) : TrackedAct → Option Tracked
  | .fetch (.run act) => t.sys.running.bind fun r =>
    (runStep body t.sys.disk r act).map fun moved => ⟨⟨moved.1,some moved.2⟩,mark r t.marks act⟩
  | .fetch act => (step body t.sys act).map fun sys => ⟨sys,t.marks⟩
  | .resize length =>
    if t.sys.running.all Running.isOver then
      some ⟨⟨resized t.sys.disk length,t.sys.running⟩,(length.map (setLen false t.marks)).getD []⟩
    else none

/-- At first nothing in the output is known to be delivered. -/
def unmarked (out : Option (List Byte)) : Tracked := ⟨fresh out,(out.getD []).map fun _ => false⟩

/-- The output exists with the span's length, every byte of it delivered. -/
def Delivered (t : Tracked) (totalSpan : Nat) : Prop :=
  t.sys.disk.out.map List.length = some totalSpan ∧ t.marks = List.replicate totalSpan true

instance (t : Tracked) (totalSpan : Nat) : Decidable (Delivered t totalSpan) :=
  inferInstanceAs (Decidable (_ ∧ _))

/-- The output has what the sidecar's offset for the root stands for: the bytes up
    to it, and where it is the whole span, those bytes only. -/
def Backed (disk : Disk) (root : Root) : Prop :=
  let totalSpan := (body root).bytes.length
  let start := readResumeOffset disk.sidecar root totalSpan
  if 0 < totalSpan ∧ totalSpan ≤ start then disk.out.map List.length = some totalSpan else start ≤ disk.file.length

instance (disk : Disk) (root : Root) : Decidable (Backed body disk root) := by unfold Backed; infer_instance

/-- The steps of an untroubled history: a run that reads the sidecar finds the
    output that goes with it, and from outside the output is deleted or cut only. -/
def Untroubled (t : Tracked) : TrackedAct → Prop
  | .fetch (.run (.read true)) => ∀ r ∈ t.sys.running, Backed body t.sys.disk r.root
  | .fetch _ => True
  | .resize length => ∀ n ∈ length, n ≤ t.sys.disk.file.length

instance (t : Tracked) : (act : TrackedAct) → Decidable (Untroubled body t act)
  | .fetch (.run (.read true)) => inferInstanceAs (Decidable (∀ r ∈ t.sys.running, Backed body t.sys.disk r.root))
  | .resize length => inferInstanceAs (Decidable (∀ n ∈ length, n ≤ t.sys.disk.file.length))
  | .fetch (.start _) | .fetch .kill | .fetch (.run (.read false)) | .fetch (.run (.root _)) | .fetch (.run (.io _))
    | .fetch (.run (.deliver _)) | .fetch (.run (.joined _)) | .fetch (.run .receive) | .fetch (.run .close)
    | .fetch (.run (.land _)) | .fetch (.run (.landText _)) | .fetch (.run (.sink _)) | .fetch (.run .go) => isTrue trivial

/-! ### What the joiner and the sink can do -/

/-- What was sent is accepted, in the channel, or landed, by its length. -/
structure Counted (totalSpan : Nat) (sink : Sink) : Prop where
  accepted : sink.pos + sink.pending.length = sink.written
  sent : sink.written + sink.queue.flatten.length = sink.sent
  complete : sink.joined = some true → sink.sent = totalSpan
  closed : sink.consumer = .closing ∨ sink.consumer = .done true → sink.queue = [] ∧ sink.joined.isSome
  landed : sink.consumer = .done true → sink.pending = []

/-- What a step of the joiner, of the file, or of the sink can be. Only a landing
    touches the output; where the sink ends, nothing is left to receive or to land. -/
inductive SinkMove (root : Root) (disk : Disk) (sink : Sink) : RunAct → Disk → Sink → Prop
  | deliver (n : Nat) (on : sink.joined = none) (fits : sink.sent + n ≤ (body root).bytes.length) :
    SinkMove root disk sink (.deliver n) disk { sink with
      sent := sink.sent + n, queue := sink.queue ++ [((body root).bytes.drop sink.sent).take n] }
  | joined (ok : Bool) (on : sink.joined = none) (all : ok = true → sink.sent = (body root).bytes.length) :
    SinkMove root disk sink (.joined ok) disk { sink with joined := some ok }
  | land (more : Nat) (on : ∀ ok, sink.consumer ≠ .done ok) :
    SinkMove root disk sink (.land more)
      { disk with out := some (poke 0 disk.file sink.pos (sink.pending.take (more + 1))) }
      { sink with pos := sink.pos + (sink.pending.take (more + 1)).length, pending := sink.pending.drop (more + 1) }
  | receive {buf : List Byte} {rest : List (List Byte)} {consumer : Consumer} (queue : sink.queue = buf :: rest)
    (on : consumer = .flushing ∨ consumer = .receiving) :
    SinkMove root disk sink .receive disk { sink with
      queue := rest, pending := sink.pending ++ buf, written := sink.written + buf.length, consumer := consumer }
  | goes {act : RunAct} {next : Disk} {lastCommit : Nat} {consumer : Consumer} (out : next.out = disk.out)
    (other : (∀ more, act ≠ .land more) ∧ ∀ ok, act ≠ .read ok)
    (closes : consumer = .closing → sink.queue = [] ∧ sink.joined.isSome)
    (ends : consumer = .done true → sink.consumer = .closing ∧ sink.pending = []) :
    SinkMove root disk sink act next { sink with lastCommit := lastCommit, consumer := consumer }

variable {body}

theorem sidecarStep_out {disk next : Disk} {root : Root} {offset : Nat} {w moved : SidecarWrite} {act : RunAct}
    (taken : sidecarStep root offset disk w act = some (next,moved)) :
    next.out = disk.out ∧ (∀ more, act ≠ .land more) ∧ ∀ ok, act ≠ .read ok := by
  unfold sidecarStep at taken
  split at taken
  · cases taken; exact ⟨rfl,nofun,nofun⟩
  · split at taken
    · cases taken
    · cases taken; exact ⟨rfl,nofun,nofun⟩
  · split at taken
    · cases taken; exact ⟨rfl,nofun,nofun⟩
    · cases taken
  · cases taken; exact ⟨rfl,nofun,nofun⟩
  · cases taken; exact ⟨rfl,nofun,nofun⟩
  · cases taken

theorem sinkStep_move {disk next : Disk} {root : Root} {sink moved : Sink} {act : RunAct}
    (taken : sinkStep body root disk sink act = some (next,moved)) : SinkMove body root disk sink act next moved := by
  cases sinkStep_turns taken with
  | delivered on free fits => exact .deliver _ on fits
  | joined on all => exact .joined _ on all
  | landed working some_ => exact .land _ working
  | received at_ queue onward => exact .receive queue onward
  | closed at_ all => exact .goes rfl ⟨nofun,nofun⟩ (fun _ => all) nofun
  | flushed at_ landed | committed at_ | failed working => exact .goes rfl ⟨nofun,nofun⟩ nofun nofun
  | ended at_ landed => exact .goes rfl ⟨nofun,nofun⟩ nofun fun _ => ⟨at_,landed⟩
  | commits at_ wrote =>
    obtain ⟨out,other⟩ := sidecarStep_out wrote
    exact .goes out other nofun nofun

theorem counted_move {disk next : Disk} {root : Root} {sink moved : Sink} {act : RunAct}
    (counted : Counted (body root).bytes.length sink) (move : SinkMove body root disk sink act next moved) :
    Counted (body root).bytes.length moved := by
  obtain ⟨accepted,sent,complete,closed,landed⟩ := counted
  cases move with
  | deliver n on fits =>
    refine ⟨accepted,?_,by simp [on],fun ends => ?_,landed⟩
    · have room : n ≤ (body root).bytes.length - sink.sent := by omega
      simp only [List.flatten_append,List.length_append,List.flatten_cons,List.flatten_nil,List.append_nil,
        List.length_take,List.length_drop,Nat.min_eq_left room]
      omega
    · have none_ := (closed ends).2
      rw [on] at none_
      cases none_
  | joined ok on all =>
    refine ⟨accepted,sent,fun same => all (Option.some.inj same),fun ends => ?_,landed⟩
    exact ⟨(closed ends).1,rfl⟩
  | land more on =>
    refine ⟨?_,sent,complete,closed,fun ends => absurd ends (on true)⟩
    simp only [List.length_take,List.length_drop]
    omega
  | receive queue on =>
    rw [queue,List.flatten_cons,List.length_append] at sent
    refine ⟨?_,?_,complete,?_,?_⟩
    · simp only [List.length_append]; omega
    · simp only; omega
    · rcases on with rfl | rfl <;> simp
    · rcases on with rfl | rfl <;> simp
  | goes out other closes ends =>
    refine ⟨accepted,sent,complete,?_,fun last => (ends last).2⟩
    rintro (last | last)
    · exact closes last
    · exact closed (.inl (ends last).1)

/-! ### One run -/

variable (body) in
/-- How far a run is that has read its sidecar, and that the bytes below the offset
    it resumes from were delivered where `backed` says so. -/
def Follows (backed : Prop) (t : Tracked) (root : Root) : Phase → Prop
  | .root | .resume => False
  | .opening start | .truncating start => t.marks.take start = List.replicate start true ↔ backed
  | .seeking start => t.marks.length = start ∧ t.sys.disk.out.map List.length = some start ∧
      (t.marks = List.replicate start true ↔ backed)
  | .sinking _ sink => t.marks.length = sink.pos ∧ t.sys.disk.out.map List.length = some sink.pos ∧
      Counted (body root).bytes.length sink ∧ (t.marks = List.replicate sink.pos true ↔ backed)
  | .preserving _ _ => t.marks = List.replicate t.marks.length true ↔ backed
  | .cleaning _ | .ending (.ok _) | .returned (.ok _) => Delivered t (body root).bytes.length ↔ backed
  | .ending (.error _) | .returned (.error _) => True

theorem replicate_append_true {marks : List Bool} {n k : Nat} (length : marks.length = n) :
    marks ++ List.replicate k true = List.replicate (n + k) true ↔ marks = List.replicate n true := by
  rw [List.replicate_add]
  constructor
  · intro same
    exact (List.append_inj same (by simpa using length)).1
  · rintro rfl
    rfl

theorem setLen_marks {marks : List Bool} {start : Nat} :
    setLen false marks start = List.replicate start true ↔ marks.take start = List.replicate start true := by
  constructor
  · intro same
    have inside : start - marks.length = 0 := by
      by_contra short
      have last : false ∈ setLen false marks start :=
        List.mem_append_right _ (List.mem_replicate.mpr ⟨short,rfl⟩)
      rw [same] at last
      exact absurd (List.eq_of_mem_replicate last) (by decide)
    rwa [setLen,inside,List.replicate_zero,List.append_nil] at same
  · intro same
    have length := congrArg List.length same
    rw [List.length_take,List.length_replicate] at length
    rw [setLen_cut false (by omega)]
    exact same

/-- What a step of a run that has read its sidecar leaves the next phase to rely on. -/
theorem follows_sink {backed : Prop} {disk next : Disk} {marks : List Bool} {root : Root} (truncated : Bool) {start : Nat}
    {sink moved : Sink} {act : RunAct} (running : Option Running)
    (follows : Follows body backed ⟨⟨disk,running⟩,marks⟩ root (.sinking start sink))
    (move : SinkMove body root disk sink act next moved) (after : Option Running) :
    Follows body backed ⟨⟨next,after⟩,mark ⟨root,truncated,.sinking start sink⟩ marks act⟩ root (.sinking start moved) := by
  obtain ⟨length,out,counted,kept⟩ := follows
  have counted' := counted_move counted move
  cases move with
  | deliver n on fits => exact ⟨length,out,counted',kept⟩
  | joined ok on all => exact ⟨length,out,counted',kept⟩
  | receive queue on => exact ⟨length,out,counted',kept⟩
  | goes same other closes ends =>
    have unmoved : mark ⟨root,truncated,.sinking start sink⟩ marks act = marks := by
      cases act with
      | land more => exact absurd rfl (other.1 more)
      | _ => rfl
    rw [unmoved]
    exact ⟨length,by rw [same]; exact out,counted',kept⟩
  | land more on =>
    have grown : mark ⟨root,truncated,.sinking start sink⟩ marks (.land more) =
        marks ++ List.replicate (sink.pending.take (more + 1)).length true := by
      show poke false marks sink.pos _ = _
      rw [← length,poke_end,List.map_const']
    have file : disk.file.length = sink.pos := by
      obtain ⟨bytes,at_,size⟩ := Option.map_eq_some_iff.mp out
      rw [Disk.file,at_]
      exact size
    rw [grown]
    refine ⟨by rw [List.length_append,List.length_replicate,length],?_,counted',?_⟩
    · rw [← file,poke_end,Option.map_some,List.length_append]
    · exact (replicate_append_true length).trans kept

theorem follows_step {backed : Prop} {t next : Tracked} {r : Running} {act : RunAct} (on : t.sys.running = some r)
    (follows : Follows body backed t r.root r.phase) (taken : trackedStep body t (.fetch (.run act)) = some next) :
    ∃ r', next.sys.running = some r' ∧ r'.root = r.root ∧ Follows body backed next r.root r'.phase ∧
      (∀ ok, act ≠ .read ok) ∧
      (next.sys.disk.sidecar = t.sys.disk.sidecar ∧ next.marks = t.marks ∨ next.sys.disk.sidecar = none ∨
        (next.marks = List.replicate next.marks.length true ↔ backed)) := by
  obtain ⟨⟨disk,running⟩,marks⟩ := t
  obtain rfl : running = some r := on
  obtain ⟨⟨disk',r'⟩,moved,rfl⟩ := Option.map_eq_some_iff.mp taken
  obtain ⟨root,truncated,phase⟩ := r
  refine ⟨r',rfl,?_⟩
  cases runStep_moves moved with
  | unfetchable | short few | wire | whole start_ all | resumed start_ more => cases follows
  | unopened | uncut | unsought | unsunk at_ joined | preserved => exact ⟨rfl,trivial,nofun,.inl ⟨rfl,rfl⟩⟩
  | opened => exact ⟨rfl,follows,nofun,.inl ⟨rfl,rfl⟩⟩
  | @cut start =>
    have cut : setLen false marks start = List.replicate start true ↔ backed := setLen_marks.trans follows
    refine ⟨rfl,⟨setLen_length false marks start,?_,cut⟩,nofun,.inr (.inr ?_)⟩
    · exact congrArg some (setLen_length 0 disk.file start)
    · show setLen false marks start = List.replicate (setLen false marks start).length true ↔ backed
      rw [setLen_length]
      exact cut
  | sought =>
    obtain ⟨length,out,kept⟩ := follows
    exact ⟨rfl,⟨length,out,⟨rfl,rfl,nofun,by simp,nofun⟩,kept⟩,nofun,.inl ⟨rfl,rfl⟩⟩
  | @sinks start sink sink' act disk' sank =>
    have move := sinkStep_move sank
    have onward := follows_sink truncated _ follows move (some ⟨root,truncated,.sinking start sink'⟩)
    refine ⟨rfl,onward,?_,.inr (.inr ?_)⟩
    · rintro ok rfl
      cases move with
      | goes out other closes ends => exact other.2 ok rfl
    · have kept := onward.2.2.2
      rw [← onward.1] at kept
      exact kept
  | unjoined at_ joined =>
    obtain ⟨length,out,counted,kept⟩ := follows
    refine ⟨rfl,?_,nofun,.inl ⟨rfl,rfl⟩⟩
    show marks = List.replicate marks.length true ↔ backed
    rw [length]
    exact kept
  | @sunk start sink at_ joined =>
    obtain ⟨length,out,counted,kept⟩ := follows
    refine ⟨rfl,?_,nofun,.inl ⟨rfl,rfl⟩⟩
    have whole : sink.pos = (body root).bytes.length := by
      have accepted := counted.accepted
      have sent := counted.sent
      rw [counted.landed at_,List.length_nil] at accepted
      rw [(counted.closed (.inr at_)).1,List.flatten_nil,List.length_nil] at sent
      have complete : sink.sent = (body root).bytes.length := counted.complete joined
      omega
    rw [whole] at out kept
    exact ⟨fun delivered => kept.mp delivered.2,fun held => ⟨out,kept.mpr held⟩⟩
  | preserves wrote =>
    obtain ⟨-,-,other⟩ := sidecarStep_out wrote
    exact ⟨rfl,follows,other,.inr (.inr follows)⟩
  | @cleaned outcome ok =>
    cases ok with
    | false => exact ⟨rfl,follows,nofun,.inl ⟨rfl,rfl⟩⟩
    | true => exact ⟨rfl,follows,nofun,.inr (.inl rfl)⟩
  | @returns result => cases result <;> exact ⟨rfl,follows,nofun,.inl ⟨rfl,rfl⟩⟩

theorem follows_run {backed : Prop} {acts : List RunAct} {t final : Tracked} {r : Running} (on : t.sys.running = some r)
    (follows : Follows body backed t r.root r.phase)
    (reached : run (trackedStep body) t (acts.map fun act => .fetch (.run act)) = some final) :
    (∃ r', final.sys.running = some r' ∧ r'.root = r.root ∧ Follows body backed final r.root r'.phase) ∧
      ∀ ok, .read ok ∉ acts := by
  induction acts generalizing t r with
  | nil => cases reached; exact ⟨⟨r,on,rfl,follows⟩,nofun⟩
  | cons act rest ih =>
    obtain ⟨next,taken,onward⟩ := run_cons_some.mp reached
    obtain ⟨r',on',same,follows',silent,-⟩ := follows_step on follows taken
    rw [← same] at follows'
    obtain ⟨⟨last,lastOn,lastRoot,lastFollows⟩,rest_⟩ := ih on' follows' onward
    rw [same] at lastRoot lastFollows
    refine ⟨⟨last,lastOn,lastRoot,lastFollows⟩,fun ok member => ?_⟩
    rcases List.mem_cons.mp member with here | later
    · exact silent ok here.symm
    · exact rest_ ok later

variable (body) in
/-- The marks of the bytes below the offset that the sidecar gives. -/
def Marked (t : Tracked) (root : Root) : Prop :=
  let totalSpan := (body root).bytes.length
  let start := readResumeOffset t.sys.disk.sidecar root totalSpan
  if 0 < totalSpan ∧ totalSpan ≤ start then Delivered t totalSpan else t.marks.take start = List.replicate start true

/-- A run that reads its sidecar leaves delivered bytes only where the sidecar
    cannot be read, or where the bytes below its offset are delivered ones. -/
theorem follows_read {ok : Bool} {t next : Tracked} {r : Running} (on : t.sys.running = some r) (phase : r.phase = .resume)
    (taken : trackedStep body t (.fetch (.run (.read ok))) = some next) :
    ∃ r', next.sys.running = some r' ∧ r'.root = r.root ∧ next.marks = t.marks ∧ next.sys.disk = t.sys.disk ∧
      Follows body (ok = false ∨ Marked body t r.root) next r.root r'.phase := by
  obtain ⟨⟨disk,running⟩,marks⟩ := t
  obtain rfl : running = some r := on
  obtain ⟨⟨disk',r'⟩,moved,rfl⟩ := Option.map_eq_some_iff.mp taken
  obtain ⟨root,truncated,_⟩ := r
  obtain rfl := phase
  simp only [runStep] at moved
  cases ok with
  | false =>
    have fresh_ : ¬(0 < (body root).bytes.length ∧ (body root).bytes.length ≤ 0) := by omega
    simp only [Bool.false_eq_true,↓reduceIte,if_neg fresh_] at moved
    cases moved
    refine ⟨_,rfl,rfl,rfl,rfl,?_⟩
    exact ⟨fun _ => .inl rfl,fun _ => rfl⟩
  | true =>
    simp only [↓reduceIte] at moved
    by_cases whole : 0 < (body root).bytes.length ∧
        (body root).bytes.length ≤ readResumeOffset disk.sidecar root (body root).bytes.length
    · rw [if_pos whole] at moved
      cases moved
      refine ⟨_,rfl,rfl,rfl,rfl,?_⟩
      have marked : Marked body ⟨⟨disk,some ⟨root,truncated,.resume⟩⟩,marks⟩ root ↔
          Delivered ⟨⟨disk,some ⟨root,truncated,.resume⟩⟩,marks⟩ (body root).bytes.length := by
        unfold Marked; simp only [if_pos whole]
      exact ⟨fun delivered => .inr (marked.mpr delivered),fun either => marked.mp (either.resolve_left (by decide))⟩
    · rw [if_neg whole] at moved
      cases moved
      refine ⟨_,rfl,rfl,rfl,rfl,?_⟩
      have marked : Marked body ⟨⟨disk,some ⟨root,truncated,.resume⟩⟩,marks⟩ root ↔
          marks.take (readResumeOffset disk.sidecar root (body root).bytes.length) =
            List.replicate (readResumeOffset disk.sidecar root (body root).bytes.length) true := by
        unfold Marked; simp only [if_neg whole]
      exact ⟨fun delivered => .inr (marked.mpr delivered),fun either => marked.mp (either.resolve_left (by decide))⟩

theorem act_of_resume {t next : Tracked} {r : Running} {act : RunAct} (on : t.sys.running = some r)
    (phase : r.phase = .resume) (taken : trackedStep body t (.fetch (.run act)) = some next) : ∃ ok, act = .read ok := by
  obtain ⟨⟨disk,running⟩,marks⟩ := t
  obtain rfl : running = some r := on
  obtain ⟨⟨disk',r'⟩,moved,-⟩ := Option.map_eq_some_iff.mp taken
  obtain ⟨root,truncated,_⟩ := r
  obtain rfl := phase
  cases runStep_moves moved with
  | whole start_ all | resumed start_ more => exact ⟨_,rfl⟩

theorem resume_run {acts : List RunAct} {t final : Tracked} {r last : Running} {outcome : FetchOutcome}
    (on : t.sys.running = some r) (phase : r.phase = .resume)
    (reached : run (trackedStep body) t (acts.map fun act => .fetch (.run act)) = some final)
    (ended : final.sys.running = some last) (returned : last.phase = .returned (.ok outcome)) :
    Delivered final (body r.root).bytes.length ↔ .read false ∈ acts ∨ Marked body t r.root := by
  cases acts with
  | nil =>
    cases reached
    cases on.symm.trans ended
    rw [phase] at returned
    cases returned
  | cons act rest =>
    obtain ⟨next,taken,onward⟩ := run_cons_some.mp reached
    obtain ⟨ok,rfl⟩ := act_of_resume on phase taken
    obtain ⟨r',on',same,-,-,follows⟩ := follows_read on phase taken
    rw [← same] at follows
    obtain ⟨⟨last',lastOn,lastRoot,lastFollows⟩,silent⟩ := follows_run on' follows onward
    cases lastOn.symm.trans ended
    rw [returned,same] at lastFollows
    refine Iff.trans lastFollows ?_
    cases ok <;> simp [silent false]

/-- A run from its start. -/
theorem started_run {acts : List RunAct} {t final : Tracked} {r last : Running} {outcome : FetchOutcome}
    (on : t.sys.running = some r) (phase : r.phase = .root)
    (reached : run (trackedStep body) t (acts.map fun act => .fetch (.run act)) = some final)
    (ended : final.sys.running = some last) (returned : last.phase = .returned (.ok outcome)) :
    Delivered final (body r.root).bytes.length ↔ .read false ∈ acts ∨ Marked body t r.root := by
  cases acts with
  | nil =>
    cases reached
    cases on.symm.trans ended
    rw [phase] at returned
    cases returned
  | cons act rest =>
    obtain ⟨next,taken,onward⟩ := run_cons_some.mp reached
    obtain ⟨⟨disk,running⟩,marks⟩ := t
    obtain rfl : running = some r := on
    obtain ⟨⟨disk',r'⟩,moved,rfl⟩ := Option.map_eq_some_iff.mp taken
    obtain ⟨root,truncated,_⟩ := r
    obtain rfl := phase
    -- A run that fails does not return `Ok`.
    have failed : ∀ answer error, r' = ⟨root,truncated,.ending (.error error)⟩ →
        (Delivered final (body root).bytes.length ↔ .read false ∈ RunAct.root answer :: rest ∨
          Marked body ⟨⟨disk,some ⟨root,truncated,.root⟩⟩,marks⟩ root) := by
      rintro answer error rfl
      obtain ⟨⟨last',lastOn,-,follows⟩,-⟩ := follows_run (r := ⟨root,truncated,.ending (.error error)⟩) rfl trivial onward
      cases lastOn.symm.trans ended
      rw [returned] at follows
      exact follows
    cases runStep_moves moved with
    | unfetchable | short few => exact failed _ _ rfl
    | wire =>
      have later := resume_run (t := ⟨⟨disk,some ⟨root,truncated,.resume⟩⟩,marks⟩) rfl rfl onward ended returned
      refine later.trans ?_
      rw [List.mem_cons,or_iff_right (by nofun : RunAct.read false ≠ .root .wire)]
      rfl

/-! ### Runs after runs -/

theorem length_poke {C D : Type} (fill : C) (fill' : D) {xs chunk : List C} {ys chunk' : List D} (pos : Nat)
    (same : xs.length = ys.length) (size : chunk.length = chunk'.length) :
    (poke fill xs pos chunk).length = (poke fill' ys pos chunk').length := by
  simp only [poke,List.length_append,List.length_take,List.length_replicate,List.length_drop,same,size]

/-- There is a mark for each byte. -/
theorem length_run {disk next : Disk} {r moved : Running} {act : RunAct} {marks : List Bool}
    (same : marks.length = disk.file.length) (taken : runStep body disk r act = some (next,moved)) :
    (mark r marks act).length = next.file.length := by
  obtain ⟨root,truncated,phase⟩ := r
  cases runStep_moves taken with
  | @cut start => exact (setLen_length false marks start).trans (setLen_length 0 disk.file start).symm
  | @sinks start sink sink' act disk' sank =>
    cases sinkStep_move sank with
    | deliver n on fits => exact same
    | joined ok on all => exact same
    | receive queue on => exact same
    | land more on => exact length_poke false 0 sink.pos same (List.length_map _)
    | goes out other closes ends =>
      have file : next.file = disk.file := congrArg (·.getD []) out
      rw [file]
      cases act with
      | land more => exact absurd rfl (other.1 more)
      | _ => exact same
  | preserves wrote =>
    have file : next.file = disk.file := congrArg (·.getD []) (sidecarStep_out wrote).1
    rw [file]
    exact same
  | @cleaned outcome ok => cases ok <;> exact same
  | _ => exact same

variable (body) in
/-- In an untroubled history, once there is a sidecar every byte of the output is a
    delivered one. -/
structure Whole (t : Tracked) : Prop where
  length : t.marks.length = t.sys.disk.file.length
  marks : t.sys.disk.sidecar = none ∨ t.marks = List.replicate t.marks.length true
  going : ∀ r ∈ t.sys.running, r.isOver = false →
    r.phase = .root ∨ r.phase = .resume ∨ Follows body True t r.root r.phase

/-- Delivered bytes that are cut, and filled up again. -/
theorem take_setLen {size n o : Nat} :
    (setLen false (List.replicate size true) n).take o = List.replicate o true ↔ o ≤ size ∧ o ≤ n := by
  constructor
  · intro same
    have length := congrArg List.length same
    rw [List.length_take,setLen_length,List.length_replicate] at length
    refine ⟨?_,by omega⟩
    by_contra past
    have here := congrArg (·[size]?) same
    have filled : ((List.replicate size true).take n ++ List.replicate (n - size) false)[size]? = some false := by
      rw [List.take_replicate,Nat.min_eq_right (by omega),List.getElem?_append_right (by simp),
        List.length_replicate,Nat.sub_self,List.getElem?_replicate,if_pos (by omega)]
    simp only [List.length_replicate,setLen] at here
    rw [List.getElem?_take_of_lt (by omega),filled,List.getElem?_replicate,if_pos (by omega)] at here
    cases here
  · rintro ⟨old,new⟩
    rw [setLen,List.take_replicate,List.take_append_of_le_length (by rw [List.length_replicate]; omega),
      List.take_replicate,Nat.min_eq_left (by omega)]

theorem readResumeOffset_le (text : Option (List Char)) (root : Root) (totalSpan : Nat) :
    readResumeOffset text root totalSpan ≤ totalSpan := by
  unfold readResumeOffset
  split
  · split
    · next fits => exact fits.2
    · exact Nat.zero_le _
  · exact Nat.zero_le _

/-- Bytes are delivered up to an offset that the output reaches, before and after a
    change of its length. -/
theorem marked_iff {t : Tracked} (inv : Whole body t) (length : Option Nat) (root : Root) (running : Option Running) :
    Marked body ⟨⟨resized t.sys.disk length,running⟩,(length.map (setLen false t.marks)).getD []⟩ root ↔
      readResumeOffset t.sys.disk.sidecar root (body root).bytes.length ≤ t.sys.disk.file.length ∧
        Backed body (resized t.sys.disk length) root := by
  have inside := readResumeOffset_le t.sys.disk.sidecar root (body root).bytes.length
  have sidecar : (resized t.sys.disk length).sidecar = t.sys.disk.sidecar := rfl
  simp only [Marked,Backed,sidecar]
  -- Without a sidecar the offset is zero.
  have unsaid : t.sys.disk.sidecar = none → readResumeOffset t.sys.disk.sidecar root (body root).bytes.length = 0 := by
    intro none_
    rw [none_]
    rfl
  generalize readResumeOffset t.sys.disk.sidecar root (body root).bytes.length = start at inside unsaid ⊢
  rcases inv.marks with none_ | whole
  · have never : ¬(0 < (body root).bytes.length ∧ (body root).bytes.length ≤ 0) := by omega
    rw [unsaid none_,if_neg never,if_neg never]
    simp
  · rw [whole,← inv.length]
    split
    · next all =>
      have same : start = (body root).bytes.length := by omega
      cases length with
      | none => simp [Delivered,resized]
      | some n =>
        simp only [Delivered,resized,Option.map_some,Option.getD_some,setLen_length,Option.some.injEq]
        have cut := @take_setLen t.marks.length n n
        rw [List.take_of_length_le (setLen_length _ _ _).le] at cut
        constructor
        · rintro ⟨rfl,held⟩
          exact ⟨by rw [same]; exact (cut.mp held).1,rfl⟩
        · rintro ⟨reaches,rfl⟩
          exact ⟨rfl,cut.mpr ⟨by rwa [same] at reaches,le_rfl⟩⟩
    · cases length with
      | none =>
        simp only [resized,Option.map_none,Option.getD_none,List.take_nil,Disk.file,List.length_nil]
        constructor
        · intro nothing
          have zero := congrArg List.length nothing
          simp only [List.length_nil,List.length_replicate] at zero
          omega
        · rintro ⟨-,zero⟩
          rw [Nat.le_zero.mp zero]
          rfl
      | some n =>
        simp only [resized,Option.map_some,Option.getD_some,Disk.file,setLen_length]
        exact take_setLen

theorem marked_of_backed {t : Tracked} {root : Root} (inv : Whole body t) (backed : Backed body t.sys.disk root) :
    Marked body t root := by
  simp only [Backed] at backed
  simp only [Marked]
  rcases inv.marks with none_ | whole
  · have never : ¬(0 < (body root).bytes.length ∧ (body root).bytes.length ≤ 0) := by omega
    simp only [none_,readResumeOffset,Option.bind_none,if_neg never,List.take_zero,List.replicate_zero]
  · split
    · next all =>
      rw [if_pos all] at backed
      obtain ⟨bytes,at_,size⟩ := Option.map_eq_some_iff.mp backed
      have length := inv.length
      rw [Disk.file,at_,Option.getD_some,size] at length
      rw [length] at whole
      exact ⟨backed,whole⟩
    · next short =>
      rw [if_neg short,← inv.length] at backed
      rw [whole,List.take_replicate,Nat.min_eq_left backed]

/-- One step of a run in an untroubled history. -/
theorem whole_running {t next : Tracked} {r : Running} {act : RunAct} (inv : Whole body t)
    (met : Untroubled body t (.fetch (.run act))) (on : t.sys.running = some r)
    (taken : trackedStep body t (.fetch (.run act)) = some next) : Whole body next := by
  have length : next.marks.length = next.sys.disk.file.length := by
    obtain ⟨r',on',moves⟩ := Option.bind_eq_some_iff.mp taken
    obtain ⟨⟨disk',_⟩,moved,rfl⟩ := Option.map_eq_some_iff.mp moves
    exact length_run inv.length moved
  -- Before the sidecar is read neither the files nor the marks change.
  have early : ∀ r', next.sys.running = some r' → next.marks = t.marks → next.sys.disk = t.sys.disk →
      (r'.phase = .root ∨ r'.phase = .resume ∨ Follows body True next r'.root r'.phase) → Whole body next := by
    intro r' on' marks disk phase
    refine ⟨length,by rw [marks,disk]; exact inv.marks,?_⟩
    intro last same _
    cases on'.symm.trans same
    exact phase
  have unread : r.isOver = false → Whole body next := by
    intro going
    rcases inv.going r on going with root_ | resume_ | follows
    · obtain ⟨⟨disk,running⟩,m⟩ := t
      obtain rfl : running = some r := on
      obtain ⟨⟨disk',r'⟩,moved,rfl⟩ := Option.map_eq_some_iff.mp taken
      obtain ⟨root,truncated,_⟩ := r
      obtain rfl := root_
      cases runStep_moves moved with
      | unfetchable | short few => exact early _ rfl rfl rfl (.inr (.inr trivial))
      | wire => exact early _ rfl rfl rfl (.inr (.inl rfl))
    · obtain ⟨ok,rfl⟩ := act_of_resume on resume_ taken
      obtain ⟨r',on',same,marks,disk,follows⟩ := follows_read on resume_ taken
      have held : ok = false ∨ Marked body t r.root := by
        cases ok with
        | false => exact .inl rfl
        | true => exact .inr (marked_of_backed inv (met r on))
      rw [eq_true held,← same] at follows
      exact early r' on' marks disk (.inr (.inr follows))
    · obtain ⟨last,lastOn,same,onward,-,said⟩ := follows_step on follows taken
      refine ⟨length,?_,?_⟩
      · rcases said with ⟨sidecar,kept⟩ | none_ | held
        · rw [sidecar,kept]; exact inv.marks
        · exact .inl none_
        · exact .inr (held.mpr trivial)
      · intro r' on' _
        cases lastOn.symm.trans on'
        rw [same]
        exact .inr (.inr onward)
  cases going : r.isOver with
  | false => exact unread going
  | true =>
    obtain ⟨⟨disk,running⟩,m⟩ := t
    obtain rfl : running = some r := on
    obtain ⟨⟨disk',r'⟩,moved,-⟩ := Option.map_eq_some_iff.mp taken
    obtain ⟨root,truncated,phase⟩ := r
    cases runStep_moves moved <;> cases going

theorem whole_step (t : Tracked) (act : TrackedAct) (next : Tracked) (inv : Whole body t) (met : Untroubled body t act)
    (taken : trackedStep body t act = some next) : Whole body next := by
  cases act with
  | fetch act =>
    cases act with
    | start root =>
      obtain ⟨sys,begun,rfl⟩ := Option.map_eq_some_iff.mp taken
      simp only [step] at begun
      split at begun
      · cases begun
        refine ⟨inv.length,inv.marks,?_⟩
        rintro r same -
        cases same
        exact .inl rfl
      · cases begun
    | kill =>
      obtain ⟨sys,killed,rfl⟩ := Option.map_eq_some_iff.mp taken
      simp only [step] at killed
      split at killed
      · cases killed; exact ⟨inv.length,inv.marks,by rintro r ⟨⟩⟩
      · cases killed
    | run act =>
      obtain ⟨r,on,-⟩ := Option.bind_eq_some_iff.mp taken
      exact whole_running inv met on taken
  | resize n =>
    simp only [trackedStep] at taken
    split at taken
    · next past =>
      cases taken
      refine ⟨?_,?_,?_⟩
      · cases n with
        | none => rfl
        | some n => exact (setLen_length false t.marks n).trans (setLen_length 0 t.sys.disk.file n).symm
      · rcases inv.marks with none_ | whole
        · exact .inl none_
        · refine .inr ?_
          cases n with
          | none => rfl
          | some n =>
            have inside : n ≤ t.marks.length := by rw [inv.length]; exact met n rfl
            show setLen false t.marks n = List.replicate (setLen false t.marks n).length true
            rw [setLen_length,setLen_cut false inside,whole,List.take_replicate,Nat.min_eq_left inside]
      · intro r same on
        rw [show t.sys.running = some r from same,Option.all_some,on] at past
        cases past
    · cases taken

/-- After an untroubled history the output may have any length. A run that returns
    `Ok` then leaves an output of the span's length with delivered bytes only,
    exactly where its sidecar cannot be read, or where the output reached the
    sidecar's offset when the history ended and goes with it at the restart. -/
theorem delivered_iff (body : Root → Body) (out : Option (List Byte)) (earlier : List TrackedAct) (t : Tracked)
    (met : Meets (trackedStep body) (Untroubled body) (unmarked out) earlier)
    (reached : run (trackedStep body) (unmarked out) earlier = some t) (length : Option Nat) (root : Root)
    (acts : List RunAct) (final : Tracked) (r : Running) (outcome : FetchOutcome)
    (again : run (trackedStep body) t (.resize length :: .fetch (.start root) :: acts.map fun act => .fetch (.run act)) =
      some final) (last : final.sys.running = some r) (returned : r.phase = .returned (.ok outcome)) :
    Delivered final (body root).bytes.length ↔
      .read false ∈ acts ∨ readResumeOffset t.sys.disk.sidecar root (body root).bytes.length ≤ t.sys.disk.file.length ∧
        Backed body (resized t.sys.disk length) root := by
  have start : Whole body (unmarked out) := ⟨by simp [unmarked,fresh,Disk.file],.inl rfl,nofun⟩
  have inv := run_guarded whole_step start met reached
  obtain ⟨changed,resizes,onward⟩ := run_cons_some.mp again
  obtain ⟨started,starts,onward⟩ := run_cons_some.mp onward
  simp only [trackedStep] at resizes
  by_cases past : t.sys.running.all Running.isOver = true
  · rw [if_pos past] at resizes
    cases resizes
    simp only [trackedStep,step,if_pos past,Option.map_some] at starts
    cases starts
    have runs := started_run rfl rfl onward last returned
    exact runs.trans (or_congr Iff.rfl (marked_iff inv length root _))
  · rw [if_neg past] at resizes
    cases resizes

/-! ### A file that is gone -/

/-- The output gets a length, and a run begins. -/
def restarted (length : Option Nat) (acts : List RunAct) : List TrackedAct :=
  .resize length :: .fetch (.start rootA) :: acts.map fun act => .fetch (.run act)

/-- A run that gets the last two bytes. -/
def lastTwo : List RunAct :=
  [.root .wire,.read true,.io true,.io true,.io true,.deliver 2,.receive,.land 1,.joined true,.close,.sink true,.go,.io true,.go]

/-- A run whose joiner fails after all four bytes, which are committed. -/
def late : List Act :=
  begins rootA ++ List.map Act.run [.io true,.deliver 4,.receive,.land 3,.joined false,.close,.sink true,.go,
    .io true,.landText 200,.io true,.go,.go]

/-- A run that takes the offset of the whole span for the whole file. -/
def allThere : List RunAct := [.root .wire,.read true,.io true,.go]

/-- The run that is on, or was last, has returned `Ok`. -/
def returnedOk (t : Tracked) : Bool := t.sys.running.any fun r => match r.phase with | .returned (.ok _) => true | _ => false

theorem returned_of_ok {t : Tracked} (ok : returnedOk t = true) :
    ∃ r outcome, t.sys.running = some r ∧ r.phase = .returned (.ok outcome) := by
  obtain ⟨r,last,matched⟩ := (Option.any_eq_true _ _).mp ok
  split at matched
  · rename_i outcome at_
    exact ⟨r,outcome,last,at_⟩
  · cases matched

/-- The output is deleted after two bytes of four are committed, and after all four
    are. The next run returns `Ok`, over two zeros, and without any output. -/
theorem zero_filled :
    (∃ t final r outcome, run (trackedStep twoBodies) (unmarked none) ((interrupted rootA).map .fetch) = some t ∧
      run (trackedStep twoBodies) t (restarted none lastTwo) = some final ∧ final.sys.running = some r ∧
      r.phase = .returned (.ok outcome) ∧ final.sys.disk.out = some [0,0,3,4] ∧
      final.marks = [false,false,true,true] ∧ ¬Delivered final (twoBodies rootA).bytes.length) ∧
    ∃ t final r outcome, run (trackedStep twoBodies) (unmarked none) (late.map .fetch) = some t ∧
      run (trackedStep twoBodies) t (restarted none allThere) = some final ∧ final.sys.running = some r ∧
      r.phase = .returned (.ok outcome) ∧ final.sys.disk.out = none ∧
      ¬Delivered final (twoBodies rootA).bytes.length := by
  constructor
  · have facts : (run (trackedStep twoBodies) (unmarked none) ((interrupted rootA).map .fetch)).any (fun t =>
        (run (trackedStep twoBodies) t (restarted none lastTwo)).any fun final => returnedOk final &&
          decide (final.sys.disk.out = some [0,0,3,4] ∧ final.marks = [false,false,true,true] ∧
            ¬Delivered final (twoBodies rootA).bytes.length)) = true := by decide +kernel
    obtain ⟨t,reached,again⟩ := (Option.any_eq_true _ _).mp facts
    obtain ⟨final,reached',both⟩ := (Option.any_eq_true _ _).mp again
    rw [Bool.and_eq_true,decide_eq_true_eq] at both
    obtain ⟨r,outcome,last,returned⟩ := returned_of_ok both.1
    exact ⟨t,final,r,outcome,reached,reached',last,returned,both.2⟩
  · have facts : (run (trackedStep twoBodies) (unmarked none) (late.map .fetch)).any (fun t =>
        (run (trackedStep twoBodies) t (restarted none allThere)).any fun final => returnedOk final &&
          decide (final.sys.disk.out = none ∧ ¬Delivered final (twoBodies rootA).bytes.length)) = true := by
      decide +kernel
    obtain ⟨t,reached,again⟩ := (Option.any_eq_true _ _).mp facts
    obtain ⟨final,reached',both⟩ := (Option.any_eq_true _ _).mp again
    rw [Bool.and_eq_true,decide_eq_true_eq] at both
    obtain ⟨r,outcome,last,returned⟩ := returned_of_ok both.1
    exact ⟨t,final,r,outcome,reached,reached',last,returned,both.2⟩

/-- The output is left as it is. -/
theorem delivered_iff_left : ∃ final, run (trackedStep twoBodies) (unmarked none)
      ((interrupted rootA).map .fetch ++ restarted (some 2) lastTwo) = some final ∧
    Delivered final (twoBodies rootA).bytes.length := by
  have facts : (run (trackedStep twoBodies) (unmarked none) ((interrupted rootA).map .fetch)).any (fun t =>
      decide (readResumeOffset t.sys.disk.sidecar rootA (twoBodies rootA).bytes.length ≤ t.sys.disk.file.length ∧
        Backed twoBodies (resized t.sys.disk (some 2)) rootA) &&
      (run (trackedStep twoBodies) t (restarted (some 2) lastTwo)).any returnedOk) = true := by decide +kernel
  obtain ⟨t,reached,both⟩ := (Option.any_eq_true _ _).mp facts
  rw [Bool.and_eq_true,decide_eq_true_eq] at both
  obtain ⟨final,again,ok⟩ := (Option.any_eq_true _ _).mp both.2
  obtain ⟨r,outcome,last,returned⟩ := returned_of_ok ok
  refine ⟨final,(run_append _ reached).trans again,?_⟩
  have whole := delivered_iff twoBodies none ((interrupted rootA).map .fetch) t (by decide +kernel) reached (some 2) rootA
    lastTwo final r outcome again last returned
  exact whole.mpr (.inr both.1)

end Directswarm.Restarts
