import Directswarm.Files
import Directswarm.Interleaving
import Directswarm.LedgerText

/-!
`FastLedger` (`ledger.rs`): the map in memory, the dirty flag, the background
persister and the calls of `flush`. Both write the same temporary name and rename
it over the same path, each from a snapshot of its own, and both clear the flag
before they write. The disk keeps up as long as they take turns and no flush
fails that had something to write (`disk_keeps_up`). A snapshot that is renamed
after a later one stays on disk with nothing marked dirty (`stale_snapshot_last`),
and so does what was there before a flush that failed (`failed_flush_forgets`).
-/
namespace Directswarm.FastLedger
open Directswarm.Runs Directswarm.Interleaving Directswarm.Files Directswarm.Cheques Directswarm.LedgerText

/-- Whose persist it is: the background persister's, or that of a call of `flush`,
    with the flag as that call found it. -/
inductive Owner
  | persister
  | flush (wasDirty : Bool)
  deriving DecidableEq

/-- Where a persist stands. -/
inductive Phase
  /-- The persister sleeps, the flush has returned. -/
  | idle
  /-- The dirty flag is cleared, the snapshot is next. -/
  | swapped
  /-- `create_dir_all` is next. -/
  | snapshotted (entries : Entries)
  /-- `File::create` is next. -/
  | directory (entries : Entries)
  /-- Inside `write_all`, at an offset, with the rest of the text. -/
  | writing (entries : Entries) (inode pos : Nat) (rest : List Char)
  /-- `sync_all` is next. -/
  | syncing (entries : Entries)
  /-- `rename` is next. -/
  | synced (entries : Entries)
  /-- `persist_map` has returned. -/
  | finished (ok : Bool)
  deriving DecidableEq

structure Writer where
  owner : Owner
  phase : Phase
  deriving DecidableEq

/-- What the writers share. -/
structure Memory where
  map : LedgerMap
  dirty : Bool
  /-- The calls of `record_issued` that have inserted and not set the flag yet. -/
  unmarked : Nat
  files : Replacing Char

/-- What moves a writer. -/
inductive WriterAct
  /-- The 200 ms are over. -/
  | wake
  /-- The map is enumerated, in the order that the hash map has. -/
  | snapshot (entries : Entries)
  /-- A file operation succeeds or fails. -/
  | io (ok : Bool)
  /-- Some characters of `write_all` reach the file. -/
  | land (more : Nat)
  /-- What follows `persist_map`. -/
  | go

/-- One step of a writer: an iteration of the persister, `flush`, and `persist_map`. -/
def writerStep (codec : U256Text) (mem : Memory) (w : Writer) (act : WriterAct) : Option (Memory × Writer) :=
  match w.phase, act with
  | .idle, .wake =>
    if w.owner ≠ .persister then none else
    if mem.dirty then some ({ mem with dirty := false },{ w with phase := .swapped }) else some (mem,w)
  | .swapped, .snapshot entries =>
    if (entries : Multiset _) = mem.map.entries then some (mem,{ w with phase := .snapshotted entries }) else none
  | .snapshotted entries, .io true => some (mem,{ w with phase := .directory entries })
  | .directory entries, .io true =>
    some ({ mem with files := mem.files.create.1 },
      { w with phase := .writing entries mem.files.create.2 0 (body codec entries) })
  | .writing entries inode pos rest, .land more =>
    if rest = [] then none else
    some ({ mem with files := mem.files.pokeAt '\x00' inode pos (rest.take (more + 1)) },
      { w with phase := .writing entries inode (pos + (rest.take (more + 1)).length) (rest.drop (more + 1)) })
  | .writing entries _ _ rest, .io true =>
    if rest = [] then some (mem,{ w with phase := .syncing entries }) else none
  | .syncing entries, .io true => some (mem,{ w with phase := .synced entries })
  | .synced _, .io true =>
    match mem.files.rename with
    | some files => some ({ mem with files := files },{ w with phase := .finished true })
    | none => some (mem,{ w with phase := .finished false })
  | .snapshotted _, .io false | .directory _, .io false | .writing _ _ _ _, .io false | .syncing _, .io false
    | .synced _, .io false => some (mem,{ w with phase := .finished false })
  | .finished ok, .go =>
    -- The persister marks the map dirty again when its write failed; `flush` does not.
    some (if w.owner = .persister ∧ ok = false then { mem with dirty := true } else mem,{ w with phase := .idle })
  | _, _ => none

/-- What a step of a writer can do, by where it stood. -/
inductive WriterMoves (codec : U256Text) (mem : Memory) (w : Writer) : WriterAct → Memory → Phase → Prop
  | slept (rests : w.phase = .idle) (mine : w.owner = .persister) (clean : mem.dirty = false) :
      WriterMoves codec mem w .wake mem .idle
  | woke (rests : w.phase = .idle) (mine : w.owner = .persister) (dirty : mem.dirty = true) :
      WriterMoves codec mem w .wake { mem with dirty := false } .swapped
  | enumerated {entries : Entries} (at_ : w.phase = .swapped) (all : (entries : Multiset _) = mem.map.entries) :
      WriterMoves codec mem w (.snapshot entries) mem (.snapshotted entries)
  | made {entries : Entries} (at_ : w.phase = .snapshotted entries) :
      WriterMoves codec mem w (.io true) mem (.directory entries)
  | created {entries : Entries} (at_ : w.phase = .directory entries) :
      WriterMoves codec mem w (.io true) { mem with files := mem.files.create.1 }
        (.writing entries mem.files.create.2 0 (body codec entries))
  | landed {entries : Entries} {inode pos more : Nat} {rest : List Char} (at_ : w.phase = .writing entries inode pos rest) :
      WriterMoves codec mem w (.land more)
        { mem with files := mem.files.pokeAt '\x00' inode pos (rest.take (more + 1)) }
        (.writing entries inode (pos + (rest.take (more + 1)).length) (rest.drop (more + 1)))
  | landedAll {entries : Entries} {inode pos : Nat} (at_ : w.phase = .writing entries inode pos []) :
      WriterMoves codec mem w (.io true) mem (.syncing entries)
  | synced {entries : Entries} (at_ : w.phase = .syncing entries) :
      WriterMoves codec mem w (.io true) mem (.synced entries)
  | renamed {entries : Entries} {files : Replacing Char} (at_ : w.phase = .synced entries)
      (past : mem.files.rename = some files) :
      WriterMoves codec mem w (.io true) { mem with files := files } (.finished true)
  | vanished {entries : Entries} (at_ : w.phase = .synced entries) (gone : mem.files.rename = none) :
      WriterMoves codec mem w (.io true) mem (.finished false)
  | failed (busy : w.phase ≠ .idle) : WriterMoves codec mem w (.io false) mem (.finished false)
  | gaveUp (at_ : w.phase = .finished false) (mine : w.owner = .persister) :
      WriterMoves codec mem w .go { mem with dirty := true } .idle
  | returned {ok : Bool} (at_ : w.phase = .finished ok) (other : w.owner = .persister → ok = true) :
      WriterMoves codec mem w .go mem .idle

theorem writerStep_moves {codec : U256Text} {mem next : Memory} {w moved : Writer} {act : WriterAct}
    (taken : writerStep codec mem w act = some (next,moved)) :
    WriterMoves codec mem w act next moved.phase ∧ moved.owner = w.owner := by
  obtain ⟨owner,phase⟩ := w
  cases phase with
  | idle =>
    cases act with
    | wake =>
      simp only [writerStep] at taken
      by_cases mine : owner = .persister
      · subst mine
        cases dirty : mem.dirty with
        | true =>
          simp only [dirty,ne_eq,not_true_eq_false,↓reduceIte] at taken
          cases taken; exact ⟨.woke rfl rfl dirty,rfl⟩
        | false =>
          simp only [dirty,ne_eq,not_true_eq_false,↓reduceIte,Bool.false_eq_true] at taken
          cases taken; exact ⟨.slept rfl rfl dirty,rfl⟩
      · simp [mine] at taken
    | snapshot _ | io _ | land _ | go => simp [writerStep] at taken
  | swapped =>
    cases act with
    | snapshot entries =>
      simp only [writerStep] at taken
      by_cases all : (entries : Multiset _) = mem.map.entries
      · rw [if_pos all] at taken
        cases taken; exact ⟨.enumerated rfl all,rfl⟩
      · simp [all] at taken
    | wake | io _ | land _ | go => simp [writerStep] at taken
  | snapshotted entries =>
    cases act with
    | io ok =>
      cases ok with
      | false => cases taken; exact ⟨.failed nofun,rfl⟩
      | true => cases taken; exact ⟨.made rfl,rfl⟩
    | wake | snapshot _ | land _ | go => simp [writerStep] at taken
  | directory entries =>
    cases act with
    | io ok =>
      cases ok with
      | false => cases taken; exact ⟨.failed nofun,rfl⟩
      | true => cases taken; exact ⟨.created rfl,rfl⟩
    | wake | snapshot _ | land _ | go => simp [writerStep] at taken
  | writing entries inode pos rest =>
    cases act with
    | land more =>
      simp only [writerStep] at taken
      by_cases past : rest = []
      · simp [past] at taken
      · rw [if_neg past] at taken
        cases taken; exact ⟨.landed rfl,rfl⟩
    | io ok =>
      cases ok with
      | false => cases taken; exact ⟨.failed nofun,rfl⟩
      | true =>
        simp only [writerStep] at taken
        by_cases past : rest = []
        · subst past
          rw [if_pos rfl] at taken
          cases taken; exact ⟨.landedAll rfl,rfl⟩
        · simp [past] at taken
    | wake | snapshot _ | go => simp [writerStep] at taken
  | syncing entries =>
    cases act with
    | io ok =>
      cases ok with
      | false => cases taken; exact ⟨.failed nofun,rfl⟩
      | true => cases taken; exact ⟨.synced rfl,rfl⟩
    | wake | snapshot _ | land _ | go => simp [writerStep] at taken
  | synced entries =>
    cases act with
    | io ok =>
      cases ok with
      | false => cases taken; exact ⟨.failed nofun,rfl⟩
      | true =>
        simp only [writerStep] at taken
        cases past : mem.files.rename with
        | none => simp only [past] at taken; cases taken; exact ⟨.vanished rfl past,rfl⟩
        | some files => simp only [past] at taken; cases taken; exact ⟨.renamed rfl past,rfl⟩
    | wake | snapshot _ | land _ | go => simp [writerStep] at taken
  | finished ok =>
    cases act with
    | go =>
      simp only [writerStep] at taken
      cases taken
      by_cases gaveUp : owner = .persister ∧ ok = false
      · obtain ⟨rfl,rfl⟩ := gaveUp
        rw [if_pos ⟨rfl,rfl⟩]; exact ⟨.gaveUp rfl rfl,rfl⟩
      · rw [if_neg gaveUp]
        exact ⟨.returned rfl fun mine => by cases ok <;> simp_all,rfl⟩
    | wake | snapshot _ | io _ | land _ => simp [writerStep] at taken

/-- The ledger and those that persist it. -/
abbrev Ledger := Shared Memory Writer

inductive Act
  /-- The first half of `record_issued`, with the key of the beneficiary. -/
  | insert (key : HexKey) (cumulative : U256)
  /-- Its second half. -/
  | mark
  /-- `flush` is called, and clears the flag. -/
  | flush
  | writer (i : Nat) (act : WriterAct)

def step (codec : U256Text) (sys : Ledger) : Act → Option Ledger
  | .insert key cumulative =>
    some { sys with common := { sys.common with
      map := sys.common.map.insert key cumulative, unmarked := sys.common.unmarked + 1 } }
  | .mark =>
    if sys.common.unmarked = 0 then none else
    some { sys with common := { sys.common with dirty := true, unmarked := sys.common.unmarked - 1 } }
  | .flush =>
    some ⟨{ sys.common with dirty := false },sys.parties ++ [⟨.flush sys.common.dirty,.swapped⟩]⟩
  | .writer i act => stepAt (writerStep codec) sys i act

/-- `FastLedger::open`. -/
def opened (codec : U256Text) (files : Replacing Char) : Ledger :=
  ⟨⟨loadMap codec files.read,false,0,files⟩,[⟨.persister,.idle⟩]⟩

/-- No persist is in progress. -/
def Resting (sys : Ledger) : Prop := ∀ w ∈ sys.parties, w.phase = .idle

instance (sys : Ledger) : Decidable (Resting sys) := inferInstanceAs (Decidable (∀ w ∈ sys.parties, w.phase = .idle))

/-- The steps that let the disk keep up: a persist begins while no other is in
    progress, and a flush that ends in failure found the flag clear or leaves it set. -/
def KeepsUp (sys : Ledger) : Act → Prop
  | .flush => Resting sys
  | .writer _ .wake => sys.common.dirty = true → Resting sys
  | .writer i .go => ∀ w ∈ sys.parties[i]?, w.phase = .finished false → w.owner = .flush true → sys.common.dirty = true
  | _ => True

instance (sys : Ledger) : (act : Act) → Decidable (KeepsUp sys act)
  | .flush => inferInstanceAs (Decidable (Resting sys))
  | .writer _ .wake => inferInstanceAs (Decidable (sys.common.dirty = true → Resting sys))
  | .writer i .go => inferInstanceAs (Decidable (∀ w ∈ sys.parties[i]?, w.phase = .finished false →
      w.owner = .flush true → sys.common.dirty = true))
  | .insert _ _ | .mark | .writer _ (.snapshot _) | .writer _ (.io _) | .writer _ (.land _) => isTrue trivial

/-! ### The invariant -/

/-- A map read from the disk is that in memory, unless a record is on its way to
    be written. -/
def Fresh (mem : Memory) (map : LedgerMap) : Prop := mem.dirty = true ∨ 0 < mem.unmarked ∨ map = mem.map

/-- The disk is up to date, unless a record is on its way. -/
def Settled (codec : U256Text) (mem : Memory) : Prop := Fresh mem (loadMap codec mem.files.read)

/-- The temporary name holds the text of some entries. -/
def Written (codec : U256Text) (files : Replacing Char) (entries : Entries) : Prop :=
  ∃ i, files.tmp = some i ∧ files.content i = body codec entries

/-- What the one persist in progress has done so far. -/
def Progress (codec : U256Text) (mem : Memory) : Phase → Prop
  | .idle => Settled codec mem
  | .swapped => True
  | .snapshotted entries => Fresh mem (loadMap codec (some (body codec entries)))
  | .directory entries => Fresh mem (loadMap codec (some (body codec entries)))
  | .writing entries inode pos rest => Fresh mem (loadMap codec (some (body codec entries))) ∧
      mem.files.tmp = some inode ∧ pos = (mem.files.content inode).length ∧
      mem.files.content inode ++ rest = body codec entries
  | .syncing entries => Fresh mem (loadMap codec (some (body codec entries))) ∧ Written codec mem.files entries
  | .synced entries => Fresh mem (loadMap codec (some (body codec entries))) ∧ Written codec mem.files entries
  | .finished true => Settled codec mem
  | .finished false => True

/-- A writer that works alone: a flush that found the flag clear has an up to date
    disk throughout. -/
structure Working (codec : U256Text) (mem : Memory) (w : Writer) : Prop where
  progress : Progress codec mem w.phase
  clear : w.owner = .flush false → Settled codec mem

/-- At most one writer is not idle. -/
def Kept (codec : U256Text) (sys : Ledger) : Prop :=
  ∃ i w, sys.parties[i]? = some w ∧ (∀ (j : Nat) (other : Writer), sys.parties[j]? = some other → j ≠ i → other.phase = .idle) ∧
    Working codec sys.common w

theorem kept_opened (codec : U256Text) (files : Replacing Char) : Kept codec (opened codec files) := by
  refine ⟨0,⟨.persister,.idle⟩,rfl,?_,⟨.inr (.inr rfl),by simp⟩⟩
  intro j other found elsewhere
  cases j with
  | zero => exact absurd rfl elsewhere
  | succ j => simp [opened] at found

/-- Whatever is on disk, a record on its way keeps the invariant. -/
theorem working_recording {codec : U256Text} {mem next : Memory} {w : Writer} (inv : Working codec mem w)
    (files : next.files = mem.files) (onItsWay : next.dirty = true ∨ 0 < next.unmarked) : Working codec next w := by
  have fresh : ∀ map, Fresh next map := fun map => onItsWay.imp id Or.inl
  refine ⟨?_,fun _ => fresh _⟩
  have progress := inv.progress
  cases phase : w.phase with
  | idle => exact fresh _
  | swapped => trivial
  | snapshotted entries | directory entries => exact fresh _
  | writing entries inode pos rest =>
    simp only [phase,Progress] at progress ⊢
    rw [files]
    exact ⟨fresh _,progress.2⟩
  | syncing entries | synced entries =>
    simp only [phase,Progress] at progress ⊢
    rw [files]
    exact ⟨fresh _,progress.2⟩
  | finished ok =>
    cases ok
    · trivial
    · exact fresh _

/-- A step that touches neither the map nor the path nor the flags. -/
theorem settled_same {codec : U256Text} {mem : Memory} {files : Replacing Char} (same : files.read = mem.files.read)
    (settled : Settled codec mem) : Settled codec { mem with files := files } := by
  unfold Settled at *
  rw [show ({ mem with files := files } : Memory).files.read = mem.files.read from same]
  exact settled

/-- Renaming a text of the map in memory over the path. -/
theorem settled_renamed {codec : U256Text} {mem : Memory} {files : Replacing Char} {entries : Entries} {inode : Nat}
    (fresh : Fresh mem (loadMap codec (some (body codec entries)))) (named : mem.files.tmp = some inode)
    (text : mem.files.content inode = body codec entries) (past : mem.files.rename = some files) :
    Settled codec { mem with files := files } := by
  have reads := Replacing.read_rename named past
  rw [text] at reads
  unfold Settled
  rw [show ({ mem with files := files } : Memory).files.read = _ from reads]
  exact fresh

/-- One step of the writer that works alone. -/
theorem working_step {codec : U256Text} {mem next : Memory} {w moved : Writer} {act : WriterAct}
    (inv : Working codec mem w) (met : act = .go → w.phase = .finished false → w.owner = .flush true → mem.dirty = true)
    (moves : WriterMoves codec mem w act next moved.phase) (owner : moved.owner = w.owner) :
    Working codec next moved := by
  obtain ⟨progress,clear⟩ := inv
  generalize stands : moved.phase = phase at moves
  refine ⟨?_,fun found => ?_⟩
  · rw [stands]
    cases moves with
    | slept rests _ _ => rw [rests] at progress; exact progress
    | woke _ _ _ | vanished _ _ | failed _ => trivial
    | enumerated _ all => exact .inr (.inr (loadMap_body codec all))
    | made at_ => rw [at_] at progress; exact progress
    | created at_ =>
      rw [at_] at progress
      have empty : (mem.files.create.1).content mem.files.create.2 = [] := mem.files.content_create
      refine ⟨progress,mem.files.create_tmp,?_,?_⟩
      · simp only [empty,List.length_nil]
      · simp only [empty,List.nil_append]
    | @landed entries inode pos more rest at_ =>
      rw [at_] at progress
      obtain ⟨fresh,named,atEnd,text⟩ := progress
      have content : (mem.files.pokeAt '\x00' inode pos (rest.take (more + 1))).content inode =
          poke '\x00' (mem.files.content inode) pos (rest.take (more + 1)) := Replacing.content_pokeAt named
      rw [atEnd,poke_end] at content
      refine ⟨fresh,named,?_,?_⟩
      · rw [atEnd]
        simp only [content,List.length_append]
      · rw [atEnd]
        simp only [content,List.append_assoc,List.take_append_drop]
        exact text
    | landedAll at_ =>
      rw [at_] at progress
      obtain ⟨fresh,named,-,text⟩ := progress
      exact ⟨fresh,_,named,by rw [← text,List.append_nil]⟩
    | synced at_ => rw [at_] at progress; exact progress
    | renamed at_ past =>
      rw [at_] at progress
      obtain ⟨fresh,inode,named,text⟩ := progress
      exact settled_renamed fresh named text past
    | gaveUp _ _ => exact .inl rfl
    | @returned ok at_ other =>
      rw [at_] at progress
      cases ok with
      | true => exact progress
      | false =>
        -- Only a flush comes here, and the flag says whether it had something to write.
        cases whose : w.owner with
        | persister => exact absurd (other whose) (by decide)
        | flush wasDirty =>
          cases wasDirty with
          | true => exact .inl (met rfl at_ whose)
          | false => exact clear whose
  · rw [owner] at found
    have settled := clear found
    cases moves with
    | slept _ mine _ | woke _ mine _ | gaveUp _ mine => rw [mine] at found; cases found
    | enumerated _ _ | made _ | landedAll _ | synced _ | vanished _ _ | failed _ | returned _ _ => exact settled
    | created _ => exact settled_same mem.files.read_create settled
    | landed at_ =>
      rw [at_] at progress
      exact settled_same (mem.files.read_pokeAt progress.2.1) settled
    | renamed at_ past =>
      rw [at_] at progress
      obtain ⟨fresh,inode,named,text⟩ := progress
      exact settled_renamed fresh named text past

/-- One step of one writer. -/
theorem kept_writer {codec : U256Text} {sys : Ledger} {j : Nat} {act : WriterAct} {mem' : Memory} {x x' : Writer}
    (inv : Kept codec sys) (met : KeepsUp sys (.writer j act)) (found : sys.parties[j]? = some x)
    (moves : WriterMoves codec sys.common x act mem' x'.phase) (owner : x'.owner = x.owner) :
    Kept codec ⟨mem',sys.parties.set j x'⟩ := by
  obtain ⟨i,w,at_,others,working⟩ := inv
  by_cases same : j = i
  · subst same
    cases found.symm.trans at_
    refine ⟨j,x',getElem?_set_moved found,?_,working_step working ?_ moves owner⟩
    · intro k other there elsewhere
      rw [getElem?_set_other (Ne.symm elsewhere)] at there
      exact others k other there elsewhere
    · intro going failed owned
      subst going
      exact met x found failed owned
  · have rests := others j x found same
    generalize stands : x'.phase = phase at moves
    cases moves with
    | slept _ _ _ =>
      refine ⟨i,w,by rw [getElem?_set_other same]; exact at_,?_,working⟩
      intro k other there elsewhere
      by_cases moved : k = j
      · subst moved
        rw [getElem?_set_moved found] at there
        cases there; exact stands
      · rw [getElem?_set_other (Ne.symm moved)] at there
        exact others k other there elsewhere
    | woke _ mine dirty =>
      -- The persister begins, so nobody else is at work.
      refine ⟨j,x',getElem?_set_moved found,?_,⟨by rw [stands]; trivial,by simp [owner,mine]⟩⟩
      intro k other there elsewhere
      rw [getElem?_set_other (Ne.symm elsewhere)] at there
      exact met dirty other (mem_of_found there)
    | enumerated at_ _ | made at_ | created at_ | landed at_ | landedAll at_ | synced at_ | renamed at_ _
      | vanished at_ _ | gaveUp at_ _ | returned at_ _ => rw [rests] at at_; cases at_
    | failed busy => exact absurd rests busy

theorem kept_step {codec : U256Text} (sys : Ledger) (act : Act) (next : Ledger) (inv : Kept codec sys)
    (met : KeepsUp sys act) (taken : step codec sys act = some next) : Kept codec next := by
  cases act with
  | insert key cumulative =>
    cases taken
    obtain ⟨i,w,at_,others,working⟩ := inv
    exact ⟨i,w,at_,others,working_recording working rfl (.inr (Nat.succ_pos _))⟩
  | mark =>
    simp only [step] at taken
    by_cases none_ : sys.common.unmarked = 0
    · simp [none_] at taken
    · rw [if_neg none_] at taken
      cases taken
      obtain ⟨i,w,at_,others,working⟩ := inv
      exact ⟨i,w,at_,others,working_recording working rfl (.inl rfl)⟩
  | flush =>
    cases taken
    obtain ⟨i,w,at_,others,working⟩ := inv
    have settled : Settled codec sys.common := by
      have progress := working.progress
      rw [met w (mem_of_found at_)] at progress
      exact progress
    refine ⟨sys.parties.length,⟨.flush sys.common.dirty,.swapped⟩,by simp,?_,⟨trivial,?_⟩⟩
    · intro j other there elsewhere
      have inside : j < sys.parties.length := by
        have := (List.getElem?_eq_some_iff.mp there).1
        simp only [List.length_append,List.length_singleton] at this
        omega
      rw [List.getElem?_append_left inside] at there
      exact met other (mem_of_found there)
    · intro clear
      have clean : sys.common.dirty = false := by simpa using clear
      refine settled.elim (fun dirty => ?_) .inr
      rw [clean] at dirty; cases dirty
  | writer j act =>
    obtain ⟨x,mem',x',found,moved,rfl⟩ := stepAt_some.mp taken
    obtain ⟨moves,owner⟩ := writerStep_moves moved
    exact kept_writer inv met found moves owner

/-! ### What a writer leaves alone -/

theorem writer_frame {codec : U256Text} {mem next : Memory} {w : Writer} {act : WriterAct} {phase : Phase}
    (moves : WriterMoves codec mem w act next phase) : next.map = mem.map ∧ next.unmarked = mem.unmarked := by
  cases moves <;> exact ⟨rfl,rfl⟩

/-- Only a persist that failed sets the flag. -/
theorem writer_clean {codec : U256Text} {mem next : Memory} {w : Writer} {act : WriterAct} {phase : Phase}
    (moves : WriterMoves codec mem w act next phase) (untorn : w.phase ≠ .finished false) (clean : mem.dirty = false) :
    next.dirty = false := by
  cases moves with
  | woke _ _ _ => rfl
  | gaveUp at_ _ => exact absurd at_ untorn
  | slept _ _ _ | enumerated _ _ | made _ | created _ | landed _ | landedAll _ | synced _ | renamed _ _ | vanished _ _
    | failed _ | returned _ _ => exact clean

/-- Under the invariant a persist fails only where a file operation does. -/
theorem writer_untorn {codec : U256Text} {sys : Ledger} {j : Nat} {mem' : Memory} {x : Writer} {act : WriterAct}
    {phase : Phase} (inv : Kept codec sys) (found : sys.parties[j]? = some x)
    (moves : WriterMoves codec sys.common x act mem' phase) (writable : act ≠ .io false) : phase ≠ .finished false := by
  cases moves with
  | vanished at_ gone =>
    obtain ⟨i,w,there,others,working⟩ := inv
    by_cases same : j = i
    · subst same
      cases found.symm.trans there
      have progress := working.progress
      rw [at_] at progress
      obtain ⟨-,inode,named,-⟩ := progress
      obtain ⟨files,past⟩ := Replacing.rename_named named
      rw [past] at gone; cases gone
    · rw [others j x found same] at at_; cases at_
  | failed _ => exact absurd rfl writable
  | slept _ _ _ | woke _ _ _ | enumerated _ _ | made _ | created _ | landed _ | landedAll _ | synced _ | renamed _ _
    | gaveUp _ _ | returned _ _ => exact nofun

/-- At rest, with nothing half-done and a clear flag, the disk is up to date. -/
theorem kept_resting {codec : U256Text} {sys : Ledger} (inv : Kept codec sys) (resting : Resting sys)
    (recorded : sys.common.unmarked = 0) (clean : sys.common.dirty = false) :
    loadMap codec sys.common.files.read = sys.common.map := by
  obtain ⟨i,w,at_,-,working⟩ := inv
  have progress := working.progress
  rw [resting w (mem_of_found at_)] at progress
  rcases progress with dirty | pending | same
  · rw [clean] at dirty; cases dirty
  · omega
  · exact same

/-- In every run in which persists take turns and no flush fails that had something
    to write, whenever nothing is in progress and the flag is clear, the file loads
    as the map in memory. -/
theorem disk_keeps_up (codec : U256Text) (files : Replacing Char) (acts : List Act) (sys : Ledger)
    (met : Meets (step codec) KeepsUp (opened codec files) acts)
    (reached : run (step codec) (opened codec files) acts = some sys)
    (resting : Resting sys) (recorded : sys.common.unmarked = 0) (clean : sys.common.dirty = false) :
    loadMap codec sys.common.files.read = sys.common.map :=
  kept_resting (run_guarded kept_step (kept_opened codec files) met reached) resting recorded clean

/-! ### A snapshot that is renamed last -/

/-- The key of a beneficiary. -/
def someone : HexKey := hexEncode (List.Vector.replicate 20 0xab)

/-- The map in which the beneficiary was paid an amount. -/
def paid (cumulative : U256) : Entries := [⟨someone,cumulative⟩]

/-- A persist from its snapshot to the end, when nothing fails. -/
def persisting (i : Nat) (entries : Entries) : List Act :=
  [.writer i (.snapshot entries),.writer i (.io true),.writer i (.io true),
    .writer i (.land (body plainText entries).length),.writer i (.io true),.writer i (.io true),.writer i (.io true),
    .writer i .go]

/-- The persister takes its snapshot of a first cheque. A flush writes the second
    one to disk, and then the persister writes what it has. -/
def overtaken : List Act :=
  .insert someone 100 :: .mark :: .writer 0 .wake :: .writer 0 (.snapshot (paid 100)) ::
    .insert someone 250 :: .mark :: .flush :: (persisting 1 (paid 250) ++ (persisting 0 (paid 100)).tail)

theorem stale_snapshot_last : ∃ sys, run (step plainText) (opened plainText (Replacing.holding none)) overtaken = some sys ∧
    Resting sys ∧ sys.common.unmarked = 0 ∧ sys.common.dirty = false ∧
    sys.common.map.lookup someone = some 250 ∧
    (loadMap plainText sys.common.files.read).lookup someone = some 100 := by
  have facts : (run (step plainText) (opened plainText (Replacing.holding none)) overtaken).any (fun sys =>
      Resting sys ∧ sys.common.unmarked = 0 ∧ sys.common.dirty = false ∧
      sys.common.map.lookup someone = some 250 ∧
      sys.common.files.read = some (body plainText (paid 100))) = true := by decide +kernel
  obtain ⟨sys,reached,holds⟩ := (Option.any_eq_true _ _).mp facts
  obtain ⟨resting,recorded,clean,inMemory,onDisk⟩ := of_decide_eq_true holds
  have stale : loadMap plainText (some (body plainText (paid 100))) = (∅ : LedgerMap).insert someone 100 :=
    loadMap_body plainText rfl
  refine ⟨sys,reached,resting,recorded,clean,inMemory,?_⟩
  rw [onDisk,stale,Finmap.lookup_insert]

/-- A flush whose directory cannot be made, after one cheque. -/
def unflushed : List Act :=
  [.insert someone 100,.mark,.flush,.writer 1 (.snapshot (paid 100)),.writer 1 (.io false),.writer 1 .go]

theorem failed_flush_forgets : (run (step plainText) (opened plainText (Replacing.holding none)) unflushed).any (fun sys =>
    Resting sys ∧ sys.common.unmarked = 0 ∧ sys.common.dirty = false ∧
    sys.common.map.lookup someone = some 100 ∧ sys.common.files.read = none) = true := by
  decide +kernel

/-- The persister writes a first cheque, and a flush the second one. -/
def inTurn : List Act :=
  .insert someone 100 :: .mark :: .writer 0 .wake :: persisting 0 (paid 100) ++
    .insert someone 250 :: .mark :: .flush :: persisting 1 (paid 250)

theorem disk_keeps_up_inTurn : ∃ sys, run (step plainText) (opened plainText (Replacing.holding none)) inTurn = some sys ∧
    loadMap plainText sys.common.files.read = sys.common.map := by
  have rests : (run (step plainText) (opened plainText (Replacing.holding none)) inTurn).any (fun sys =>
      Resting sys ∧ sys.common.unmarked = 0 ∧ sys.common.dirty = false) = true := by decide +kernel
  obtain ⟨sys,reached,holds⟩ := (Option.any_eq_true _ _).mp rests
  obtain ⟨resting,recorded,clean⟩ := of_decide_eq_true holds
  exact ⟨sys,reached,disk_keeps_up plainText (Replacing.holding none) inTurn sys (by decide +kernel) reached
    resting recorded clean⟩

end Directswarm.FastLedger
