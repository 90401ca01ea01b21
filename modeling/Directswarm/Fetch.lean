import Directswarm.Files
import Directswarm.Resume
import Directswarm.Runs

/-!
`fetch_to_file` (`fetch.rs`), run after run against one output path. A run reads
the sidecar, cuts the output at the offset it resumes from, and lets the joiner
fill a channel that the sink writes to the file; the file buffers, so what the
sink has written lands later. Every 8 MiB, and when the joiner fails, the sidecar
is rewritten. The sidecar of another root stays on disk while the output is
already cut and rewritten; a run that ends in that stretch leaves a sidecar that
vouches for bytes that are not there (`stale_sidecar`). Where no run ends so, a
fetch that returns has the body of its root (`fetched_exactly`).
-/
namespace Directswarm.Fetch
open Directswarm.Runs Directswarm.Text Directswarm.Files Directswarm.Resume

/-- `COMMIT_INTERVAL`. -/
def commitInterval : Nat := 8 * 2 ^ 20
/-- `SINK_PIPE_DEPTH`. -/
def sinkPipeDepth : Nat := 64

/-- The body of a root. Its length is what the root chunk declares as the span. -/
structure Body where
  bytes : List Byte
  length_lt : bytes.length < 2 ^ 64

/-- The two files. -/
structure Disk where
  out : Option (List Byte)
  sidecar : Option (List Char)

/-- What the output holds, nothing when it is missing. -/
def Disk.file (disk : Disk) : List Byte := disk.out.getD []

/-- `FetchError`. -/
inductive FetchError
  | root
  | malformedRoot (length : Nat)
  | join
  | io
  deriving DecidableEq

/-- `FetchOutcome`. -/
structure FetchOutcome where
  totalSpan : Nat
  bytesWritten : Nat
  resumedFrom : Nat
  deriving DecidableEq

/-- `commit_sidecar`: the file is emptied, and then filled. -/
inductive SidecarWrite
  | creating
  | writing (rest : List Char)
  | wrote (ok : Bool)
  deriving DecidableEq

/-- Where the sink stands. -/
inductive Consumer
  | receiving
  /-- `flush` and `sync_data` before a commit. -/
  | flushing
  | committing (sidecar : SidecarWrite)
  /-- `flush` and `sync_data` at the end. -/
  | closing
  | done (ok : Bool)
  deriving DecidableEq

/-- The joiner and the sink at work. -/
structure Sink where
  /-- The offset up to which the joiner has sent. -/
  sent : Nat
  /-- What the joiner returned. -/
  joined : Option Bool
  queue : List (List Byte)
  /-- What `write_all` has accepted and the file does not hold yet. -/
  pending : List Byte
  /-- The offset at which the file goes on. -/
  pos : Nat
  written : Nat
  lastCommit : Nat
  consumer : Consumer
  deriving DecidableEq

inductive Phase
  /-- The root chunk is fetched. -/
  | root
  /-- `read_resume_offset` is next. -/
  | resume
  | opening (start : Nat)
  | truncating (start : Nat)
  | seeking (start : Nat)
  | sinking (start : Nat) (sink : Sink)
  /-- The joiner failed, what the sink has is committed. -/
  | preserving (written : Nat) (sidecar : SidecarWrite)
  /-- `remove_file` of the sidecar is next. -/
  | cleaning (outcome : FetchOutcome)
  | ending (result : Except FetchError FetchOutcome)
  | returned (result : Except FetchError FetchOutcome)

/-- One run. -/
structure Running where
  root : Root
  /-- The output was cut by this run. -/
  truncated : Bool
  phase : Phase

/-- What the fetcher answers for the root chunk. -/
inductive RootAnswer
  | unfetchable
  | short (length : Nat)
  | wire
  deriving DecidableEq

inductive RunAct
  | root (answer : RootAnswer)
  /-- The sidecar is read, or cannot be. -/
  | read (ok : Bool)
  /-- The operation that the function awaits succeeds or fails. -/
  | io (ok : Bool)
  /-- The joiner sends some bytes. -/
  | deliver (n : Nat)
  | joined (ok : Bool)
  | receive
  | close
  /-- Some bytes reach the output. -/
  | land (more : Nat)
  /-- Some characters reach the sidecar. -/
  | landText (more : Nat)
  /-- The operation that the sink awaits succeeds or fails. -/
  | sink (ok : Bool)
  /-- The function goes on by itself. -/
  | go
  deriving DecidableEq

variable (body : Root → Body)

/-- `read_resume_offset`, of what was read. -/
def readResumeOffset (text : Option (List Char)) (root : Root) (totalSpan : Nat) : Nat :=
  match text.bind parse with
  | some state => if state.root = root ∧ state.offset ≤ totalSpan then state.offset else 0
  | none => 0

/-- The state that is committed. -/
def committed (root : Root) (offset : Nat) : ResumeState := ⟨root,offset % 2 ^ 64,Nat.mod_lt _ (by decide)⟩

/-- One step of `commit_sidecar`. -/
def sidecarStep (root : Root) (offset : Nat) (disk : Disk) (w : SidecarWrite) (act : RunAct) :
    Option (Disk × SidecarWrite) :=
  match w, act with
  | .creating, .io true => some ({ disk with sidecar := some [] },.writing (render (committed root offset)))
  | .writing rest, .landText more =>
    if rest = [] then none else
    some ({ disk with sidecar := some (disk.sidecar.getD [] ++ rest.take (more + 1)) },.writing (rest.drop (more + 1)))
  | .writing rest, .io true => if rest = [] then some (disk,.wrote true) else none
  | .creating, .io false | .writing _, .io false => some (disk,.wrote false)
  | _, _ => none

/-- One step of the joiner, of the file, or of the sink. -/
def sinkStep (root : Root) (disk : Disk) (sink : Sink) (act : RunAct) : Option (Disk × Sink) :=
  match act, sink.consumer with
  | .deliver n, _ =>
    if sink.joined = none ∧ sink.queue.length < sinkPipeDepth ∧ sink.sent + n ≤ (body root).bytes.length then
      some (disk,{ sink with sent := sink.sent + n, queue := sink.queue ++ [((body root).bytes.drop sink.sent).take n] })
    else none
  | .joined ok, _ =>
    if sink.joined = none ∧ (ok = true → sink.sent = (body root).bytes.length) then
      some (disk,{ sink with joined := some ok })
    else none
  | .land _, .done _ => none
  | .land more, _ =>
    if sink.pending = [] then none else
    some ({ disk with out := some (poke 0 disk.file sink.pos (sink.pending.take (more + 1))) },
      { sink with pos := sink.pos + (sink.pending.take (more + 1)).length, pending := sink.pending.drop (more + 1) })
  | .receive, .receiving =>
    match sink.queue with
    | [] => none
    | buf :: rest =>
      let written := sink.written + buf.length
      some (disk,{ sink with
        queue := rest, pending := sink.pending ++ buf, written := written,
        consumer := if commitInterval ≤ written - sink.lastCommit then .flushing else .receiving })
  | .close, .receiving =>
    if sink.queue = [] ∧ sink.joined.isSome then some (disk,{ sink with consumer := .closing }) else none
  | .sink true, .flushing =>
    if sink.pending = [] then some (disk,{ sink with consumer := .committing .creating }) else none
  | .sink true, .committing (.wrote true) =>
    some (disk,{ sink with lastCommit := sink.written, consumer := .receiving })
  | .sink true, .closing =>
    if sink.pending = [] then some (disk,{ sink with consumer := .done true }) else none
  | .sink false, .receiving | .sink false, .flushing | .sink false, .closing
    | .sink false, .committing (.wrote false) => some (disk,{ sink with consumer := .done false })
  | act, .committing w =>
    (sidecarStep root sink.written disk w act).map fun moved => (moved.1,{ sink with consumer := .committing moved.2 })
  | _, _ => none

/-- One step of a run. -/
def runStep (disk : Disk) (r : Running) (act : RunAct) : Option (Disk × Running) :=
  let totalSpan := (body r.root).bytes.length
  match r.phase, act with
  | .root, .root .unfetchable => some (disk,{ r with phase := .ending (.error .root) })
  | .root, .root (.short length) =>
    if length < 8 then some (disk,{ r with phase := .ending (.error (.malformedRoot length)) }) else none
  | .root, .root .wire => some (disk,{ r with phase := .resume })
  | .resume, .read ok =>
    let start := if ok then readResumeOffset disk.sidecar r.root totalSpan else 0
    if 0 < totalSpan ∧ totalSpan ≤ start then some (disk,{ r with phase := .cleaning ⟨totalSpan,0,start⟩ })
    else some (disk,{ r with phase := .opening start })
  | .opening start, .io true => some ({ disk with out := some disk.file },{ r with phase := .truncating start })
  | .truncating start, .io true =>
    some ({ disk with out := some (setLen 0 disk.file start) },⟨r.root,true,.seeking start⟩)
  | .seeking start, .io true =>
    some (disk,{ r with phase := .sinking start ⟨start,none,[],[],start,start,start,.receiving⟩ })
  | .opening _, .io false | .truncating _, .io false | .seeking _, .io false =>
    some (disk,{ r with phase := .ending (.error .io) })
  | .sinking start sink, .go =>
    match sink.consumer, sink.joined with
    | .done false, some _ => some (disk,{ r with phase := .ending (.error .io) })
    | .done true, some false => some (disk,{ r with phase := .preserving sink.written .creating })
    | .done true, some true =>
      some (disk,{ r with phase := .cleaning ⟨totalSpan,sink.written - start,start⟩ })
    | _, _ => none
  | .sinking start sink, act =>
    (sinkStep body r.root disk sink act).map fun moved => (moved.1,{ r with phase := .sinking start moved.2 })
  | .preserving _ (.wrote ok), .go =>
    some (disk,{ r with phase := .ending (.error (if ok then .join else .io)) })
  | .preserving written w, act =>
    (sidecarStep r.root written disk w act).map fun moved => (moved.1,{ r with phase := .preserving written moved.2 })
  | .cleaning outcome, .io ok =>
    some (if ok then { disk with sidecar := none } else disk,{ r with phase := .ending (.ok outcome) })
  | .ending result, .go => some (disk,{ r with phase := .returned result })
  | _, _ => none

/-- The files, and the run that is on or has returned last. -/
structure System where
  disk : Disk
  running : Option Running

inductive Act
  | start (root : Root)
  | run (act : RunAct)
  /-- The process is killed. -/
  | kill

/-- The run has returned. -/
def Running.isOver (r : Running) : Bool :=
  match r.phase with
  | .returned _ => true
  | _ => false

def step (sys : System) : Act → Option System
  | .start root => if sys.running.all Running.isOver then some ⟨sys.disk,some ⟨root,false,.root⟩⟩ else none
  | .run act => sys.running.bind fun r => (runStep body sys.disk r act).map fun moved => ⟨moved.1,some moved.2⟩
  | .kill => if sys.running.any fun r => !r.isOver then some ⟨sys.disk,none⟩ else none

/-- No sidecar is there at first; the output may be. -/
def fresh (out : Option (List Byte)) : System := ⟨⟨out,none⟩,none⟩

/-! ### What has to hold of the steps -/

/-- The sidecar vouches for a prefix of another root's body. -/
def Foreign (disk : Disk) (root : Root) : Prop := ∃ state ∈ disk.sidecar.bind parse, state.root ≠ root ∧ 0 < state.offset

instance (disk : Disk) (root : Root) : Decidable (Foreign disk root) :=
  match found : disk.sidecar.bind parse with
  | none => isFalse (by simp [Foreign,found])
  | some state => decidable_of_iff (state.root ≠ root ∧ 0 < state.offset) (by simp [Foreign,found])

/-- The run is about to return. -/
def Running.leaving (r : Running) : Bool :=
  match r.phase with
  | .ending _ => true
  | _ => false

/-- The steps that leave the sidecar true: a run that has cut the output neither
    returns nor is killed while the sidecar is another root's, and a sidecar that
    gives an offset can be read. -/
def Truthful (sys : System) : Act → Prop
  | .start _ => True
  | .kill => ∀ r ∈ sys.running, r.truncated = true → ¬ Foreign sys.disk r.root
  | .run .go => ∀ r ∈ sys.running, r.truncated = true → r.leaving = true → ¬ Foreign sys.disk r.root
  | .run (.read ok) => ∀ r ∈ sys.running,
      ok = true ∨ readResumeOffset sys.disk.sidecar r.root (body r.root).bytes.length = 0
  | .run _ => True

instance (sys : System) : (act : Act) → Decidable (Truthful body sys act)
  | .kill => inferInstanceAs (Decidable (∀ r ∈ sys.running, r.truncated = true → ¬ Foreign sys.disk r.root))
  | .run .go => inferInstanceAs (Decidable (∀ r ∈ sys.running, r.truncated = true → r.leaving = true →
      ¬ Foreign sys.disk r.root))
  | .run (.read ok) => inferInstanceAs (Decidable (∀ r ∈ sys.running,
      ok = true ∨ readResumeOffset sys.disk.sidecar r.root (body r.root).bytes.length = 0))
  | .start _ | .run (.root _) | .run (.io _) | .run (.deliver _) | .run (.joined _) | .run .receive | .run .close
    | .run (.land _) | .run (.landText _) | .run (.sink _) => isTrue trivial

/-! ### The invariant -/

/-- What a committed state vouches for: the output is a prefix of the body of its
    root, up to the offset at least. -/
def Vouches (file : List Byte) (state : ResumeState) : Prop :=
  0 < state.offset → file <+: (body state.root).bytes ∧ state.offset ≤ file.length

/-- What the sidecar says is so. -/
def Tied (disk : Disk) : Prop := ∀ state, disk.sidecar.bind parse = some state → Vouches body disk.file state

/-- What the sidecar says of a root is so. -/
def TiedTo (disk : Disk) (root : Root) : Prop :=
  ∀ state, disk.sidecar.bind parse = some state → state.root = root → Vouches body disk.file state

/-- The output is there, as the prefix of a length of the root's body. -/
structure Holds (disk : Disk) (root : Root) (length : Nat) : Prop where
  present : disk.out = some disk.file
  along : disk.file <+: (body root).bytes
  length : disk.file.length = length

/-- A commit writes the state of what the output holds. -/
def Committing (disk : Disk) (root : Root) (offset : Nat) : SidecarWrite → Prop
  | .creating => True
  | .writing rest => ∃ text, disk.sidecar = some text ∧ text ++ rest = render (committed root offset)
  | .wrote _ => True

/-- What was sent is, in order, in the file, accepted, or in the channel. -/
structure Flowing (disk : Disk) (root : Root) (sink : Sink) : Prop where
  present : disk.out = some disk.file
  order : disk.file ++ sink.pending ++ sink.queue.flatten <+: (body root).bytes
  landed : disk.file.length = sink.pos
  accepted : sink.pos + sink.pending.length = sink.written
  sent : sink.written + sink.queue.flatten.length = sink.sent
  complete : sink.joined = some true → sink.sent = (body root).bytes.length

/-- Where the sink stands agrees with what it has done. -/
def Stands (disk : Disk) (root : Root) (sink : Sink) : Prop :=
  match sink.consumer with
  | .receiving | .flushing | .done false => True
  | .committing w => sink.pending = [] ∧ Committing disk root sink.written w
  | .closing => sink.queue = [] ∧ sink.joined.isSome
  | .done true => sink.queue = [] ∧ sink.joined.isSome ∧ sink.pending = []

/-- How far a run is. -/
def Progress (disk : Disk) (r : Running) : Phase → Prop
  | .root | .resume => r.truncated = false
  | .opening start | .truncating start => r.truncated = false ∧ start ≤ disk.file.length ∧
      disk.file.take start <+: (body r.root).bytes ∧
      ∀ state, disk.sidecar.bind parse = some state → state.root = r.root → 0 < state.offset → state.offset = start
  | .seeking start => r.truncated = true ∧ Holds body disk r.root start
  | .sinking _ sink => r.truncated = true ∧ Flowing body disk r.root sink ∧ Stands disk r.root sink
  | .preserving written w => r.truncated = true ∧ Holds body disk r.root written ∧ Committing disk r.root written w
  | .cleaning _ | .ending (.ok _) | .returned (.ok _) => disk.file = (body r.root).bytes ∧ disk.out = some disk.file
  | .ending (.error _) | .returned (.error _) => True

/-- A run that has cut the output keeps the sidecar true of its own root. -/
structure Sound (disk : Disk) (r : Running) : Prop where
  own : TiedTo body disk r.root
  tied : r.truncated = false ∨ r.isOver = true → Tied body disk
  progress : Progress body disk r r.phase

variable {body}

theorem tiedTo_of_tied {disk : Disk} (tied : Tied body disk) (root : Root) : TiedTo body disk root :=
  fun state found _ => tied state found

/-- A sidecar of no other root is true when it is true of this one. -/
theorem tied_of_tiedTo {disk : Disk} {root : Root} (own : TiedTo body disk root) (mine : ¬ Foreign disk root) :
    Tied body disk := by
  intro state found positive
  by_cases same : state.root = root
  · exact own state found same positive
  · exact absurd ⟨state,found,same,positive⟩ mine

/-- Emptying the output's sidecar says nothing. -/
theorem tiedTo_silent {disk : Disk} (silent : disk.sidecar.bind parse = none) (root : Root) : TiedTo body disk root := by
  intro state found
  rw [silent] at found; cases found

theorem tied_silent {disk : Disk} (silent : disk.sidecar.bind parse = none) : Tied body disk := by
  intro state found
  rw [silent] at found; cases found

/-- An output that grows along the body keeps what was said of it. -/
theorem tiedTo_grows {disk next : Disk} {root : Root} (own : TiedTo body disk root) (sidecar : next.sidecar = disk.sidecar)
    (along : next.file <+: (body root).bytes) (grows : disk.file.length ≤ next.file.length) : TiedTo body next root := by
  intro state found same positive
  rw [sidecar] at found
  obtain ⟨-,inside⟩ := own state found same positive
  rw [same]
  exact ⟨along,inside.trans grows⟩

/-- A commit in progress says no more than the output holds. -/
theorem tiedTo_committing {disk : Disk} {root : Root} {offset : Nat} {text rest : List Char}
    (holds : Holds body disk root offset) (cut : text ++ rest = render (committed root offset)) :
    TiedTo body { disk with sidecar := some text } root := by
  intro state found same _
  obtain ⟨-,below⟩ := parse_prefix ⟨rest,cut⟩ found
  have mod : (committed root offset).offset ≤ offset := Nat.mod_le _ _
  rw [same]
  have length := holds.length
  exact ⟨holds.along,by show state.offset ≤ disk.file.length; omega⟩

theorem parse_nil : parse [] = none := by decide

/-- One step of a commit. -/
theorem sidecar_step {disk next : Disk} {root : Root} {offset : Nat} {w moved : SidecarWrite} {act : RunAct}
    (own : TiedTo body disk root) (holds : Holds body disk root offset) (committing : Committing disk root offset w)
    (taken : sidecarStep root offset disk w act = some (next,moved)) :
    TiedTo body next root ∧ next.out = disk.out ∧ Committing next root offset moved := by
  unfold sidecarStep at taken
  split at taken
  · cases taken
    have silent : (Disk.mk disk.out (some [])).sidecar.bind parse = none := parse_nil
    exact ⟨tiedTo_silent silent root,rfl,[],rfl,rfl⟩
  · rename_i rest more
    obtain ⟨text,sidecar,cut⟩ := committing
    by_cases past : rest = []
    · simp [past] at taken
    · rw [if_neg past] at taken
      cases taken
      have onward : (text ++ rest.take (more + 1)) ++ rest.drop (more + 1) = render (committed root offset) := by
        rw [List.append_assoc,List.take_append_drop,cut]
      have lands : (disk.sidecar.getD [] ++ rest.take (more + 1)) = text ++ rest.take (more + 1) := by rw [sidecar]; rfl
      rw [lands]
      exact ⟨tiedTo_committing holds onward,rfl,_,rfl,onward⟩
  · rename_i rest
    by_cases past : rest = []
    · rw [if_pos past] at taken; cases taken; exact ⟨own,rfl,trivial⟩
    · rw [if_neg past] at taken; cases taken
  · cases taken; exact ⟨own,rfl,trivial⟩
  · cases taken; exact ⟨own,rfl,trivial⟩
  · cases taken

/-- The file, when everything accepted has landed, is the prefix that was written. -/
theorem holds_of_flowing {disk : Disk} {root : Root} {sink : Sink} (flow : Flowing body disk root sink)
    (landed : sink.pending = []) : Holds body disk root sink.written := by
  have order := flow.order
  have accepted := flow.accepted
  rw [landed,List.length_nil] at accepted
  rw [List.append_assoc] at order
  exact ⟨flow.present,(List.prefix_append _ _).trans order,by have := flow.landed; omega⟩

theorem flowing_same_out {disk next : Disk} {root : Root} {sink : Sink} (flow : Flowing body disk root sink)
    (out : next.out = disk.out) : Flowing body next root sink := by
  have file : next.file = disk.file := congrArg (·.getD []) out
  exact ⟨by rw [out,file]; exact flow.present,by rw [file]; exact flow.order,by rw [file]; exact flow.landed,
    flow.accepted,flow.sent,flow.complete⟩

/-- Sending the next bytes of the body. -/
theorem prefix_extend {α : Type} {sent whole : List α} (n : Nat) (along : sent <+: whole) :
    sent ++ (whole.drop sent.length).take n <+: whole := by
  obtain ⟨rest,rfl⟩ := along
  rw [List.drop_left]
  exact (List.prefix_append_right_inj _).mpr (List.take_prefix n rest)

/-- The joiner sends. -/
theorem flowing_deliver {disk : Disk} {root : Root} {sink : Sink} {n : Nat} (flow : Flowing body disk root sink)
    (more : sink.joined = none) (fits : sink.sent + n ≤ (body root).bytes.length) :
    Flowing body disk root { sink with
      sent := sink.sent + n, queue := sink.queue ++ [((body root).bytes.drop sink.sent).take n] } := by
  obtain ⟨present,order,landed,accepted,sent,complete⟩ := flow
  have total : (disk.file ++ sink.pending ++ sink.queue.flatten).length = sink.sent := by
    simp only [List.length_append]; omega
  refine ⟨present,?_,landed,accepted,?_,by simp [more]⟩
  · have extended := prefix_extend n order
    rw [total] at extended
    simpa [List.append_assoc] using extended
  · simp only [List.flatten_append,List.length_append,List.flatten_cons,List.flatten_nil,List.append_nil,
      List.length_take,List.length_drop]
    omega

/-- Accepted bytes land at the end of the file. -/
theorem flowing_land {disk : Disk} {root : Root} {sink : Sink} (more : Nat) (flow : Flowing body disk root sink) :
    Flowing body { disk with out := some (poke 0 disk.file sink.pos (sink.pending.take (more + 1))) } root
      { sink with pos := sink.pos + (sink.pending.take (more + 1)).length, pending := sink.pending.drop (more + 1) } ∧
    (poke 0 disk.file sink.pos (sink.pending.take (more + 1))) <+: (body root).bytes ∧
    disk.file.length ≤ (poke 0 disk.file sink.pos (sink.pending.take (more + 1))).length := by
  obtain ⟨present,order,landed,accepted,sent,complete⟩ := flow
  have atEnd : poke 0 disk.file sink.pos (sink.pending.take (more + 1)) = disk.file ++ sink.pending.take (more + 1) := by
    rw [← landed,poke_end]
  have split : disk.file ++ sink.pending ++ sink.queue.flatten =
      (disk.file ++ sink.pending.take (more + 1)) ++ (sink.pending.drop (more + 1) ++ sink.queue.flatten) := by
    conv_lhs => rw [← List.take_append_drop (more + 1) sink.pending]
    simp only [List.append_assoc]
  rw [split] at order
  rw [atEnd]
  refine ⟨⟨rfl,?_,?_,?_,sent,complete⟩,(List.prefix_append _ _).trans order,by simp⟩
  · show disk.file ++ sink.pending.take (more + 1) ++ sink.pending.drop (more + 1) ++ sink.queue.flatten <+: _
    rw [List.append_assoc]; exact order
  · simp only [Disk.file,Option.getD_some,List.length_append]
    have := landed
    unfold Disk.file at this
    omega
  · simp only [List.length_take,List.length_drop]
    omega

/-- The sink takes a buffer from the channel. -/
theorem flowing_receive {disk : Disk} {root : Root} {sink : Sink} {buf : List Byte} {rest : List (List Byte)}
    {consumer : Consumer} (flow : Flowing body disk root sink) (queue : sink.queue = buf :: rest) :
    Flowing body disk root { sink with
      queue := rest, pending := sink.pending ++ buf, written := sink.written + buf.length, consumer := consumer } := by
  obtain ⟨present,order,landed,accepted,sent,complete⟩ := flow
  rw [queue,List.flatten_cons] at order
  rw [queue,List.flatten_cons,List.length_append] at sent
  refine ⟨present,?_,landed,?_,?_,complete⟩
  · simpa [List.append_assoc] using order
  · simp only [List.length_append]; omega
  · simp only; omega

/-- What the joiner and the channel do leaves the sink where it stands. -/
theorem stands_same {disk : Disk} {root : Root} {sink moved : Sink} (stands : Stands disk root sink)
    (consumer : moved.consumer = sink.consumer) (pending : moved.pending = sink.pending)
    (written : moved.written = sink.written)
    (queue : sink.joined.isSome → moved.queue = sink.queue ∧ moved.joined.isSome) : Stands disk root moved := by
  unfold Stands at stands ⊢
  rw [consumer]
  cases at_ : sink.consumer with
  | receiving | flushing => trivial
  | committing w => simp only [at_] at stands; rw [pending,written]; exact stands
  | closing =>
    simp only [at_] at stands
    obtain ⟨same,joined⟩ := queue stands.2
    rw [same]; exact ⟨stands.1,joined⟩
  | done ok =>
    cases ok with
    | false => trivial
    | true =>
      simp only [at_] at stands
      obtain ⟨same,joined⟩ := queue stands.2.1
      rw [same,pending]; exact ⟨stands.1,joined,stands.2.2⟩

/-- The sink goes on to where nothing more is asked of it. -/
theorem flowing_consumer {disk : Disk} {root : Root} {sink : Sink} (flow : Flowing body disk root sink)
    (lastCommit : Nat) (consumer : Consumer) :
    Flowing body disk root { sink with lastCommit := lastCommit, consumer := consumer } :=
  ⟨flow.present,flow.order,flow.landed,flow.accepted,flow.sent,flow.complete⟩

variable (body) in
/-- What the joiner, the file and the sink can do: one constructor for each way
    through `sinkStep`. -/
inductive SinkTurns (root : Root) (disk : Disk) (sink : Sink) : RunAct → Disk → Sink → Prop
  | delivered {n : Nat} (on : sink.joined = none) (free : sink.queue.length < sinkPipeDepth)
      (fits : sink.sent + n ≤ (body root).bytes.length) :
      SinkTurns root disk sink (.deliver n) disk { sink with
        sent := sink.sent + n, queue := sink.queue ++ [((body root).bytes.drop sink.sent).take n] }
  | joined {ok : Bool} (on : sink.joined = none) (all : ok = true → sink.sent = (body root).bytes.length) :
      SinkTurns root disk sink (.joined ok) disk { sink with joined := some ok }
  | landed {more : Nat} (working : ∀ ok, sink.consumer ≠ .done ok) (some_ : sink.pending ≠ []) :
      SinkTurns root disk sink (.land more)
        { disk with out := some (poke 0 disk.file sink.pos (sink.pending.take (more + 1))) }
        { sink with pos := sink.pos + (sink.pending.take (more + 1)).length, pending := sink.pending.drop (more + 1) }
  | received {buf : List Byte} {rest : List (List Byte)} {consumer : Consumer} (at_ : sink.consumer = .receiving)
      (queue : sink.queue = buf :: rest) (onward : consumer = .flushing ∨ consumer = .receiving) :
      SinkTurns root disk sink .receive disk { sink with
        queue := rest, pending := sink.pending ++ buf, written := sink.written + buf.length, consumer := consumer }
  | closed (at_ : sink.consumer = .receiving) (all : sink.queue = [] ∧ sink.joined.isSome) :
      SinkTurns root disk sink .close disk { sink with consumer := .closing }
  | flushed (at_ : sink.consumer = .flushing) (landed : sink.pending = []) :
      SinkTurns root disk sink (.sink true) disk { sink with consumer := .committing .creating }
  | committed (at_ : sink.consumer = .committing (.wrote true)) :
      SinkTurns root disk sink (.sink true) disk { sink with lastCommit := sink.written, consumer := .receiving }
  | ended (at_ : sink.consumer = .closing) (landed : sink.pending = []) :
      SinkTurns root disk sink (.sink true) disk { sink with consumer := .done true }
  | failed (working : ∀ ok, sink.consumer ≠ .done ok) :
      SinkTurns root disk sink (.sink false) disk { sink with consumer := .done false }
  | commits {act : RunAct} {w w' : SidecarWrite} {next : Disk} (at_ : sink.consumer = .committing w)
      (wrote : sidecarStep root sink.written disk w act = some (next,w')) :
      SinkTurns root disk sink act next { sink with consumer := .committing w' }

theorem sinkStep_turns {disk next : Disk} {root : Root} {sink moved : Sink} {act : RunAct}
    (taken : sinkStep body root disk sink act = some (next,moved)) : SinkTurns body root disk sink act next moved := by
  unfold sinkStep at taken
  split at taken
  · -- The joiner sends, or returns.
    split at taken
    · next free => cases taken; exact .delivered free.1 free.2.1 free.2.2
    · cases taken
  · split at taken
    · next ends => cases taken; exact .joined ends.1 ends.2
    · cases taken
  · cases taken
  · next more working =>
    split at taken
    · cases taken
    · next some_ => cases taken; exact .landed working some_
  · next at_ =>
    split at taken
    · cases taken
    · next buf rest queue =>
      cases taken
      refine .received at_ queue ?_
      split
      · exact .inl rfl
      · exact .inr rfl
  · next at_ =>
    split at taken
    · next all => cases taken; exact .closed at_ all
    · cases taken
  · next at_ =>
    split at taken
    · next landed => cases taken; exact .flushed at_ landed
    · cases taken
  · next at_ => cases taken; exact .committed at_
  · next at_ =>
    split at taken
    · next landed => cases taken; exact .ended at_ landed
    · cases taken
  -- The sink fails.
  · next at_ => cases taken; exact .failed (by rw [at_]; nofun)
  · next at_ => cases taken; exact .failed (by rw [at_]; nofun)
  · next at_ => cases taken; exact .failed (by rw [at_]; nofun)
  · next at_ => cases taken; exact .failed (by rw [at_]; nofun)
  · next at_ =>
    obtain ⟨⟨disk',w'⟩,wrote,same⟩ := Option.map_eq_some_iff.mp taken
    cases same
    exact .commits at_ wrote
  · cases taken

/-- One step of the joiner, of the file, or of the sink. -/
theorem sink_step {disk next : Disk} {root : Root} {sink moved : Sink} {act : RunAct} (own : TiedTo body disk root)
    (flow : Flowing body disk root sink) (stands : Stands disk root sink)
    (taken : sinkStep body root disk sink act = some (next,moved)) :
    TiedTo body next root ∧ Flowing body next root moved ∧ Stands next root moved := by
  cases sinkStep_turns taken with
  | delivered on free fits =>
    refine ⟨own,flowing_deliver flow on fits,stands_same stands rfl rfl rfl fun joined => ?_⟩
    rw [on] at joined; cases joined
  | joined on all =>
    obtain ⟨present,order,landed,accepted,sent,-⟩ := flow
    exact ⟨own,⟨present,order,landed,accepted,sent,fun same => all (Option.some.inj same)⟩,
      stands_same stands rfl rfl rfl fun _ => ⟨rfl,rfl⟩⟩
  | @landed more working some_ =>
    obtain ⟨flows,along,grows⟩ := flowing_land more flow
    refine ⟨tiedTo_grows own rfl along grows,flows,?_⟩
    unfold Stands at stands ⊢
    cases at_ : sink.consumer with
    | closing => simp only [at_] at stands ⊢; exact stands
    | done ok => exact absurd at_ (working ok)
    | receiving | flushing => trivial
    | committing w => simp only [at_] at stands; exact absurd stands.1 some_
  | received at_ queue onward =>
    refine ⟨own,flowing_receive flow queue,?_⟩
    rcases onward with rfl | rfl <;> trivial
  | closed at_ all => exact ⟨own,flowing_consumer flow sink.lastCommit .closing,all⟩
  | flushed at_ landed => exact ⟨own,flowing_consumer flow sink.lastCommit (.committing .creating),landed,trivial⟩
  | committed at_ => exact ⟨own,flowing_consumer flow sink.written .receiving,trivial⟩
  | ended at_ landed =>
    simp only [Stands,at_] at stands
    exact ⟨own,flowing_consumer flow sink.lastCommit (.done true),stands.1,stands.2,landed⟩
  | failed working => exact ⟨own,flowing_consumer flow sink.lastCommit (.done false),trivial⟩
  | commits at_ wrote =>
    simp only [Stands,at_] at stands
    obtain ⟨own',out,committing⟩ := sidecar_step own (holds_of_flowing flow stands.1) stands.2 wrote
    obtain ⟨present,order,landed,accepted,sent,complete⟩ := flowing_same_out flow out
    exact ⟨own',⟨present,order,landed,accepted,sent,complete⟩,stands.1,committing⟩

/-- What a run resumes from is there, and is what the sidecar says. -/
theorem resume_offset {disk : Disk} {root : Root} {start : Nat} (tied : Tied body disk)
    (resumes : readResumeOffset disk.sidecar root (body root).bytes.length = start) :
    start ≤ disk.file.length ∧ (0 < start → disk.file <+: (body root).bytes) ∧
      ∀ state, disk.sidecar.bind parse = some state → state.root = root → 0 < state.offset → state.offset = start := by
  unfold readResumeOffset at resumes
  cases found : disk.sidecar.bind parse with
  | none =>
    simp only [found] at resumes
    subst resumes
    exact ⟨Nat.zero_le _,fun positive => absurd positive (Nat.lt_irrefl 0),fun state other => by cases other⟩
  | some state =>
    simp only [found] at resumes
    have vouches := tied state found
    by_cases mine : state.root = root ∧ state.offset ≤ (body root).bytes.length
    · rw [if_pos mine] at resumes
      subst resumes
      obtain ⟨same,-⟩ := mine
      rcases Nat.eq_zero_or_pos state.offset with zero | positive
      · refine ⟨by omega,fun positive => by omega,?_⟩
        intro other read _ _
        cases read; rfl
      · obtain ⟨along,inside⟩ := vouches positive
        rw [same] at along
        refine ⟨inside,fun _ => along,?_⟩
        intro other read _ _
        cases read; rfl
    · rw [if_neg mine] at resumes
      subst resumes
      refine ⟨Nat.zero_le _,fun positive => absurd positive (Nat.lt_irrefl 0),?_⟩
      intro other read same positive
      cases read
      obtain ⟨along,inside⟩ := vouches positive
      rw [same] at along
      exact absurd ⟨same,inside.trans along.length_le⟩ mine

/-- A run that finds the whole body there. -/
theorem whole_body {disk : Disk} {root : Root} (span : 0 < (body root).bytes.length)
    (inside : (body root).bytes.length ≤ disk.file.length) (along : disk.file <+: (body root).bytes) :
    disk.file = (body root).bytes ∧ disk.out = some disk.file := by
  have same := along.eq_of_length (Nat.le_antisymm along.length_le inside)
  refine ⟨same,?_⟩
  cases out : disk.out with
  | some file => simp [Disk.file,out]
  | none =>
    have empty : disk.file = [] := by simp [Disk.file,out]
    rw [empty,List.length_nil] at inside
    omega

/-- The sink that has everything has the body. -/
theorem sunk_body {disk : Disk} {root : Root} {sink : Sink} (flow : Flowing body disk root sink)
    (queue : sink.queue = []) (pending : sink.pending = []) (joined : sink.joined = some true) :
    disk.file = (body root).bytes ∧ disk.out = some disk.file := by
  have holds := holds_of_flowing flow pending
  have sent := flow.sent
  have complete := flow.complete joined
  rw [queue,List.flatten_nil,List.length_nil] at sent
  exact ⟨holds.along.eq_of_length (by have := holds.length; omega),holds.present⟩

/-- The function moves to a phase that asks for nothing new. -/
theorem sound_phase {disk : Disk} {r : Running} {phase : Phase} (inv : Sound body disk r)
    (on : (Running.mk r.root r.truncated phase).isOver = true → Tied body disk)
    (progress : Progress body disk ⟨r.root,r.truncated,phase⟩ phase) : Sound body disk ⟨r.root,r.truncated,phase⟩ :=
  ⟨inv.own,fun either => either.elim (fun uncut => inv.tied (.inl uncut)) on,progress⟩

/-- Until the sink is done, a run at work does what the joiner and the sink do. -/
theorem sinking_act {disk next : Disk} {root : Root} {truncated : Bool} {start : Nat} {sink : Sink} {moved : Running}
    {act : RunAct} (going : ¬ (act = .go ∧ ∃ ok, sink.consumer = .done ok))
    (taken : runStep body disk ⟨root,truncated,.sinking start sink⟩ act = some (next,moved)) :
    ((sinkStep body root disk sink act).map fun m => (m.1,Running.mk root truncated (.sinking start m.2))) =
      some (next,moved) := by
  cases act with
  | go =>
    exfalso
    cases at_ : sink.consumer with
    | done ok => exact going ⟨rfl,ok,at_⟩
    | receiving | flushing | closing | committing w => simp [runStep,at_] at taken
  | _ => exact taken

/-- Until the sidecar is written, a run that preserves does what the commit does. -/
theorem preserving_act {disk next : Disk} {root : Root} {truncated : Bool} {written : Nat} {w : SidecarWrite}
    {moved : Running} {act : RunAct} (going : ¬ (act = .go ∧ ∃ ok, w = .wrote ok))
    (taken : runStep body disk ⟨root,truncated,.preserving written w⟩ act = some (next,moved)) :
    ((sidecarStep root written disk w act).map fun m => (m.1,Running.mk root truncated (.preserving written m.2))) =
      some (next,moved) := by
  cases w with
  | wrote ok =>
    cases act with
    | go => exact absurd ⟨rfl,ok,rfl⟩ going
    | _ => exact taken
  | creating | writing rest => exact taken

variable (body) in
/-- What a run can do, by its phase: one constructor for each way through `runStep`. -/
inductive RunMoves (root : Root) (truncated : Bool) (disk : Disk) : Phase → RunAct → Disk → Running → Prop
  | unfetchable : RunMoves root truncated disk .root (.root .unfetchable) disk ⟨root,truncated,.ending (.error .root)⟩
  | short {length : Nat} (few : length < 8) :
      RunMoves root truncated disk .root (.root (.short length)) disk
        ⟨root,truncated,.ending (.error (.malformedRoot length))⟩
  | wire : RunMoves root truncated disk .root (.root .wire) disk ⟨root,truncated,.resume⟩
  | whole {ok : Bool} {start : Nat}
      (start_ : start = if ok = true then readResumeOffset disk.sidecar root (body root).bytes.length else 0)
      (all : 0 < (body root).bytes.length ∧ (body root).bytes.length ≤ start) :
      RunMoves root truncated disk .resume (.read ok) disk
        ⟨root,truncated,.cleaning ⟨(body root).bytes.length,0,start⟩⟩
  | resumed {ok : Bool} {start : Nat}
      (start_ : start = if ok = true then readResumeOffset disk.sidecar root (body root).bytes.length else 0)
      (more : ¬(0 < (body root).bytes.length ∧ (body root).bytes.length ≤ start)) :
      RunMoves root truncated disk .resume (.read ok) disk ⟨root,truncated,.opening start⟩
  -- The output.
  | opened {start : Nat} :
      RunMoves root truncated disk (.opening start) (.io true) { disk with out := some disk.file }
        ⟨root,truncated,.truncating start⟩
  | cut {start : Nat} :
      RunMoves root truncated disk (.truncating start) (.io true)
        { disk with out := some (setLen 0 disk.file start) } ⟨root,true,.seeking start⟩
  | sought {start : Nat} :
      RunMoves root truncated disk (.seeking start) (.io true) disk
        ⟨root,truncated,.sinking start ⟨start,none,[],[],start,start,start,.receiving⟩⟩
  | unopened {start : Nat} :
      RunMoves root truncated disk (.opening start) (.io false) disk ⟨root,truncated,.ending (.error .io)⟩
  | uncut {start : Nat} :
      RunMoves root truncated disk (.truncating start) (.io false) disk ⟨root,truncated,.ending (.error .io)⟩
  | unsought {start : Nat} :
      RunMoves root truncated disk (.seeking start) (.io false) disk ⟨root,truncated,.ending (.error .io)⟩
  -- The joiner and the sink, until both have returned.
  | sinks {start : Nat} {sink sink' : Sink} {act : RunAct} {next : Disk}
      (sank : sinkStep body root disk sink act = some (next,sink')) :
      RunMoves root truncated disk (.sinking start sink) act next ⟨root,truncated,.sinking start sink'⟩
  | unsunk {start : Nat} {sink : Sink} {ok : Bool} (at_ : sink.consumer = .done false) (joined : sink.joined = some ok) :
      RunMoves root truncated disk (.sinking start sink) .go disk ⟨root,truncated,.ending (.error .io)⟩
  | unjoined {start : Nat} {sink : Sink} (at_ : sink.consumer = .done true) (joined : sink.joined = some false) :
      RunMoves root truncated disk (.sinking start sink) .go disk ⟨root,truncated,.preserving sink.written .creating⟩
  | sunk {start : Nat} {sink : Sink} (at_ : sink.consumer = .done true) (joined : sink.joined = some true) :
      RunMoves root truncated disk (.sinking start sink) .go disk
        ⟨root,truncated,.cleaning ⟨(body root).bytes.length,sink.written - start,start⟩⟩
  -- The end.
  | preserves {written : Nat} {w w' : SidecarWrite} {act : RunAct} {next : Disk}
      (wrote : sidecarStep root written disk w act = some (next,w')) :
      RunMoves root truncated disk (.preserving written w) act next ⟨root,truncated,.preserving written w'⟩
  | preserved {written : Nat} {ok : Bool} :
      RunMoves root truncated disk (.preserving written (.wrote ok)) .go disk
        ⟨root,truncated,.ending (.error (if ok then .join else .io))⟩
  | cleaned {outcome : FetchOutcome} {ok : Bool} :
      RunMoves root truncated disk (.cleaning outcome) (.io ok) (if ok then { disk with sidecar := none } else disk)
        ⟨root,truncated,.ending (.ok outcome)⟩
  | returns {result : Except FetchError FetchOutcome} :
      RunMoves root truncated disk (.ending result) .go disk ⟨root,truncated,.returned result⟩

theorem runStep_moves {disk next : Disk} {root : Root} {truncated : Bool} {phase : Phase} {moved : Running} {act : RunAct}
    (taken : runStep body disk ⟨root,truncated,phase⟩ act = some (next,moved)) :
    RunMoves body root truncated disk phase act next moved := by
  cases phase with
  | root =>
    cases act with
    | root answer =>
      cases answer with
      | unfetchable => cases taken; exact .unfetchable
      | wire => cases taken; exact .wire
      | short length =>
        simp only [runStep] at taken
        by_cases few : length < 8
        · rw [if_pos few] at taken
          cases taken
          exact .short few
        · rw [if_neg few] at taken
          cases taken
    | _ => simp [runStep] at taken
  | resume =>
    cases act with
    | read ok =>
      simp only [runStep] at taken
      generalize start_ : (if ok = true then readResumeOffset disk.sidecar root (body root).bytes.length else 0) = start
        at taken
      by_cases all : 0 < (body root).bytes.length ∧ (body root).bytes.length ≤ start
      · rw [if_pos all] at taken
        cases taken
        exact .whole start_.symm all
      · rw [if_neg all] at taken
        cases taken
        exact .resumed start_.symm all
    | _ => simp [runStep] at taken
  | opening start =>
    cases act with
    | io ok =>
      cases ok with
      | false => cases taken; exact .unopened
      | true => cases taken; exact .opened
    | _ => simp [runStep] at taken
  | truncating start =>
    cases act with
    | io ok =>
      cases ok with
      | false => cases taken; exact .uncut
      | true => cases taken; exact .cut
    | _ => simp [runStep] at taken
  | seeking start =>
    cases act with
    | io ok =>
      cases ok with
      | false => cases taken; exact .unsought
      | true => cases taken; exact .sought
    | _ => simp [runStep] at taken
  | sinking start sink =>
    by_cases going : act = .go ∧ ∃ ok, sink.consumer = .done ok
    · obtain ⟨rfl,ok,at_⟩ := going
      cases joined : sink.joined with
      | none => simp [runStep,at_,joined] at taken
      | some result =>
        cases ok with
        | false =>
          simp only [runStep,at_,joined] at taken
          cases taken
          exact .unsunk at_ joined
        | true =>
          cases result with
          | false =>
            simp only [runStep,at_,joined] at taken
            cases taken
            exact .unjoined at_ joined
          | true =>
            simp only [runStep,at_,joined] at taken
            cases taken
            exact .sunk at_ joined
    · obtain ⟨⟨disk',sink'⟩,sank,same⟩ := Option.map_eq_some_iff.mp (sinking_act going taken)
      cases same
      exact .sinks sank
  | preserving written w =>
    by_cases going : act = .go ∧ ∃ ok, w = .wrote ok
    · obtain ⟨rfl,ok,rfl⟩ := going
      simp only [runStep] at taken
      cases taken
      exact .preserved
    · obtain ⟨⟨disk',w'⟩,wrote,same⟩ := Option.map_eq_some_iff.mp (preserving_act going taken)
      cases same
      exact .preserves wrote
  | cleaning outcome =>
    cases act with
    | io ok => cases taken; exact .cleaned
    | _ => simp [runStep] at taken
  | ending result =>
    cases act with
    | go => cases taken; exact .returns
    | _ => simp [runStep] at taken
  | returned result => simp [runStep] at taken

theorem holds_same_out {disk next : Disk} {root : Root} {length : Nat} (holds : Holds body disk root length)
    (out : next.out = disk.out) : Holds body next root length := by
  have file : next.file = disk.file := congrArg (·.getD []) out
  exact ⟨by rw [out,file]; exact holds.present,by rw [file]; exact holds.along,by rw [file]; exact holds.length⟩

/-- A run that has cut the output and goes on. -/
theorem sound_cut {disk : Disk} {r : Running} (own : TiedTo body disk r.root) (cut : r.truncated = true)
    (on : r.isOver = false) (progress : Progress body disk r r.phase) : Sound body disk r := by
  refine ⟨own,fun either => ?_,progress⟩
  rcases either with uncut | past
  · rw [cut] at uncut; cases uncut
  · rw [on] at past; cases past

/-- One step of a run. -/
theorem run_step {disk next : Disk} {r moved : Running} {act : RunAct} (inv : Sound body disk r)
    (leaves : act = .go → r.truncated = true → r.leaving = true → ¬ Foreign disk r.root)
    (reads : ∀ ok, act = .read ok → ok = true ∨ readResumeOffset disk.sidecar r.root (body r.root).bytes.length = 0)
    (taken : runStep body disk r act = some (next,moved)) : Sound body next moved := by
  obtain ⟨root,truncated,phase⟩ := r
  have progress := inv.progress
  -- A sidecar that cannot be read gives the offset that it gives anyway.
  have offset_ : ∀ ok, act = .read ok →
      readResumeOffset disk.sidecar root (body root).bytes.length =
        if ok = true then readResumeOffset disk.sidecar root (body root).bytes.length else 0 := by
    intro ok same
    rcases reads ok same with rfl | zero
    · rfl
    · cases ok
      · exact zero
      · rfl
  cases runStep_moves taken with
  | unfetchable | short few => exact sound_phase inv nofun trivial
  | wire => exact sound_phase inv nofun progress
  | whole start_ all =>
    obtain ⟨inside,along,-⟩ := resume_offset (inv.tied (.inl progress)) ((offset_ _ rfl).trans start_.symm)
    exact sound_phase inv nofun (whole_body all.1 (all.2.trans inside) (along (by omega)))
  | @resumed ok start start_ more =>
    obtain ⟨inside,along,offset⟩ := resume_offset (inv.tied (.inl progress)) ((offset_ ok rfl).trans start_.symm)
    refine sound_phase inv nofun ⟨progress,inside,?_,offset⟩
    rcases Nat.eq_zero_or_pos start with zero | positive
    · rw [zero]; exact List.nil_prefix
    · exact (List.take_prefix _ _).trans (along positive)
  | unopened | uncut | unsought => exact sound_phase inv nofun trivial
  | opened => exact ⟨inv.own,fun _ => inv.tied (.inl progress.1),progress⟩
  | @cut start =>
    obtain ⟨uncut,inside,along,offset⟩ := progress
    have file : ({ disk with out := some (setLen 0 disk.file start) } : Disk).file = disk.file.take start :=
      setLen_cut 0 inside
    have length : (disk.file.take start).length = start := by rw [List.length_take]; omega
    refine ⟨?_,nofun,rfl,rfl,by rw [file]; exact along,by rw [file]; exact length⟩
    intro state found same positive
    rw [file,offset state found same positive,same]
    exact ⟨along,length.ge⟩
  | sought =>
    obtain ⟨cut,holds⟩ := progress
    exact sound_phase inv nofun ⟨cut,⟨holds.present,by simpa using holds.along,holds.length,rfl,rfl,nofun⟩,trivial⟩
  | sinks sank =>
    obtain ⟨cut,flow,stands⟩ := progress
    obtain ⟨own',flow',stands'⟩ := sink_step inv.own flow stands sank
    exact sound_cut own' cut rfl ⟨cut,flow',stands'⟩
  | unsunk at_ joined => exact sound_phase inv nofun trivial
  | unjoined at_ joined =>
    obtain ⟨cut,flow,stands⟩ := progress
    simp only [Stands,at_] at stands
    obtain ⟨queue,-,pending⟩ := stands
    exact sound_phase inv nofun ⟨cut,holds_of_flowing flow pending,trivial⟩
  | sunk at_ joined =>
    obtain ⟨cut,flow,stands⟩ := progress
    simp only [Stands,at_] at stands
    obtain ⟨queue,-,pending⟩ := stands
    exact sound_phase inv nofun (sunk_body flow queue pending joined)
  | preserves wrote =>
    obtain ⟨cut,holds,committing⟩ := progress
    obtain ⟨own',out,committing'⟩ := sidecar_step inv.own holds committing wrote
    exact sound_cut own' cut rfl ⟨cut,holds_same_out holds out,committing'⟩
  | preserved => exact sound_phase inv nofun trivial
  | @cleaned outcome ok =>
    cases ok with
    | false => exact sound_phase inv nofun progress
    | true => exact ⟨tiedTo_silent rfl root,fun _ => tied_silent rfl,progress⟩
  | @returns result =>
    refine sound_phase inv (fun _ => ?_) ?_
    · cases truncated with
      | false => exact inv.tied (.inl rfl)
      | true => exact tied_of_tiedTo inv.own (leaves rfl rfl rfl)
    · cases result <;> exact progress

/-! ### Runs after runs -/

/-- Between runs the sidecar is true, and a run is sound. -/
def Truth (body : Root → Body) (sys : System) : Prop :=
  match sys.running with
  | none => Tied body sys.disk
  | some r => Sound body sys.disk r

theorem truth_step (sys : System) (act : Act) (next : System) (inv : Truth body sys) (met : Truthful body sys act)
    (taken : step body sys act = some next) : Truth body next := by
  obtain ⟨disk,running⟩ := sys
  cases act with
  | start root =>
    have tied : Tied body disk ∧ next = ⟨disk,some ⟨root,false,.root⟩⟩ := by
      cases running with
      | none => cases taken; exact ⟨inv,rfl⟩
      | some r =>
        simp only [step,Option.all_some] at taken
        by_cases past : r.isOver = true
        · rw [if_pos past] at taken; cases taken; exact ⟨inv.tied (.inr past),rfl⟩
        · rw [if_neg past] at taken; cases taken
    obtain ⟨tied,rfl⟩ := tied
    exact ⟨tiedTo_of_tied tied root,fun _ => tied,rfl⟩
  | run act =>
    simp only [step] at taken
    obtain ⟨r,rfl,rest⟩ := Option.bind_eq_some_iff.mp taken
    obtain ⟨⟨disk',r'⟩,moved,rfl⟩ := Option.map_eq_some_iff.mp rest
    refine run_step inv ?_ ?_ moved
    · rintro rfl; exact met r rfl
    · rintro ok rfl; exact met r rfl
  | kill =>
    cases running with
    | none => simp [step] at taken
    | some r =>
      simp only [step,Option.any_some] at taken
      by_cases on : (!r.isOver) = true
      · rw [if_pos on] at taken
        cases taken
        cases cut : r.truncated with
        | false => exact inv.tied (.inl cut)
        | true => exact tied_of_tiedTo inv.own (met r rfl cut)
      · rw [if_neg on] at taken; cases taken

/-- After any sequence of runs, killed and failed ones included, whose steps leave
    the sidecar true, a run that returns `Ok` has the body of its root in the file. -/
theorem fetched_exactly (body : Root → Body) (out : Option (List Byte)) (acts : List Act) (sys : System)
    (met : Meets (step body) (Truthful body) (fresh out) acts) (reached : run (step body) (fresh out) acts = some sys)
    (r : Running) (outcome : FetchOutcome) (last : sys.running = some r) (returned : r.phase = .returned (.ok outcome)) :
    sys.disk.out = some (body r.root).bytes := by
  have start : Truth body (fresh out) := show Tied body ⟨out,none⟩ from tied_silent rfl
  have inv := run_guarded truth_step start met reached
  unfold Truth at inv
  rw [last] at inv
  have progress := inv.progress
  rw [returned] at progress
  obtain ⟨whole,present⟩ := progress
  rw [present,whole]

/-! ### A sidecar that outlives its output -/

def rootA : Root := List.Vector.replicate 32 0xa1
def rootB : Root := List.Vector.replicate 32 0xb2

/-- Two bodies of four bytes. -/
def twoBodies (root : Root) : Body := if root = rootA then ⟨[1,2,3,4],by decide⟩ else ⟨[9,9,9,9],by decide⟩

/-- A run up to its seek, when nothing fails. -/
def begins (root : Root) : List Act := .start root :: [.root .wire,.read true,.io true,.io true].map .run

/-- A run whose joiner fails after two bytes, which are committed. -/
def interrupted (root : Root) : List Act :=
  begins root ++ List.map Act.run [.io true,.deliver 2,.receive,.land 1,.joined false,.close,.sink true,.go,
    .io true,.landText 200,.io true,.go,.go]

/-- A run that gets the last two bytes and returns. -/
def completed (root : Root) : List Act :=
  begins root ++ List.map Act.run [.io true,.deliver 2,.receive,.land 1,.joined true,.close,.sink true,.go,.io true,.go]

/-- A run for one root is interrupted, one for another is killed after it has cut
    the output, and the first root is fetched again. -/
def crossed : List Act := interrupted rootA ++ begins rootB ++ [.kill] ++ completed rootA

theorem stale_sidecar : ∃ sys r outcome, run (step twoBodies) (fresh none) crossed = some sys ∧
    sys.running = some r ∧ r.phase = .returned (.ok outcome) ∧
    sys.disk.out = some [0,0,3,4] ∧ (twoBodies r.root).bytes = [1,2,3,4] := by
  have facts : (run (step twoBodies) (fresh none) crossed).any (fun sys => sys.running.any fun r =>
      (match r.phase with | .returned (.ok _) => true | _ => false) &&
      decide (sys.disk.out = some [0,0,3,4] ∧ (twoBodies r.root).bytes = [1,2,3,4])) = true := by decide +kernel
  obtain ⟨sys,reached,holds⟩ := (Option.any_eq_true _ _).mp facts
  obtain ⟨r,last,both⟩ := (Option.any_eq_true _ _).mp holds
  rw [Bool.and_eq_true] at both
  obtain ⟨returned,contents⟩ := both
  split at returned
  · rename_i outcome at_
    exact ⟨sys,r,outcome,reached,last,at_,of_decide_eq_true contents⟩
  · cases returned

/-- The same without the run in between. -/
def resumed : List Act := interrupted rootA ++ completed rootA

theorem fetched_exactly_resumed : ∃ sys, run (step twoBodies) (fresh none) resumed = some sys ∧
    sys.disk.out = some (twoBodies rootA).bytes := by
  have facts : (run (step twoBodies) (fresh none) resumed).any (fun sys => sys.running.any fun r =>
      (match r.phase with | .returned (.ok _) => true | _ => false) && decide (r.root = rootA)) = true := by
    decide +kernel
  obtain ⟨sys,reached,holds⟩ := (Option.any_eq_true _ _).mp facts
  obtain ⟨r,last,both⟩ := (Option.any_eq_true _ _).mp holds
  rw [Bool.and_eq_true,decide_eq_true_eq] at both
  obtain ⟨returned,mine⟩ := both
  split at returned
  · rename_i outcome at_
    have whole := fetched_exactly twoBodies none resumed sys (by decide +kernel) reached r outcome last at_
    rw [mine] at whole
    exact ⟨sys,reached,whole⟩
  · cases returned

end Directswarm.Fetch
