import Mathlib.Data.Vector.Basic
import Directswarm.Files
import Directswarm.Maps
import Directswarm.Resume
import Directswarm.Words

/-!
The chunk store (`store.rs`): a data file that chunks are appended to, and an
index of extents that `flush` writes to a sidecar and `open` reads back. The two
files live on independently: a crash may leave any of the bytes written since the
last flush, and `cleanup` may get no further than its first removal. What was
written to the sidecar is what is read (`entriesOf_sidecarText`).
-/
namespace Directswarm.Store
open Directswarm.Runs Directswarm.Files Directswarm.Text Directswarm.Maps Directswarm.Resume Directswarm.Words

/-- The address of a chunk. -/
abbrev Address := List.Vector Byte 32

/-- Where the bytes of a chunk are in the data file. -/
structure Extent where
  offset : Fin (2 ^ 64)
  length : Fin (2 ^ 32)
  deriving DecidableEq

/-- The offset after an extent. -/
def Extent.reach (e : Extent) : Nat := e.offset.val + e.length.val

abbrev Index := Finmap fun _ : Address => Extent
abbrev Entries := List (Σ _ : Address, Extent)

/-- The bytes of an extent. -/
def slice (data : List Byte) (e : Extent) : List Byte := (data.drop e.offset.val).take e.length.val

/-- Bytes that agree up to an offset agree in the extents below it. -/
theorem slice_congr {data other : List Byte} {limit : Nat} {e : Extent} (same : data.take limit = other.take limit)
    (below : e.reach ≤ limit) : slice data e = slice other e := by
  have cut : ∀ bytes : List Byte, slice bytes e = slice (bytes.take limit) e := by
    intro bytes
    unfold Extent.reach at below
    simp only [slice,List.drop_take,List.take_take]
    congr 1; omega
  rw [cut,cut other,same]

/-! ### What the store is for -/

/-- A map of which a copy is kept: what is put first under a key stays, and a
    reopening goes back to the copy. -/
structure Shelf (K V : Type) where
  memory : Finmap fun _ : K => V
  durable : Finmap fun _ : K => V

namespace Shelf
variable {K V : Type} [DecidableEq K]

def put (shelf : Shelf K V) (key : K) (value : V) : Shelf K V :=
  if key ∈ shelf.memory then shelf else { shelf with memory := shelf.memory.insert key value }
def flush (shelf : Shelf K V) : Shelf K V := { shelf with durable := shelf.memory }
def reopen (shelf : Shelf K V) : Shelf K V := { shelf with memory := shelf.durable }

theorem put_fresh {shelf : Shelf K V} {key : K} (absent : key ∉ shelf.memory) (value : V) :
    shelf.put key value = { shelf with memory := shelf.memory.insert key value } := if_neg absent

end Shelf

/-! ### The sidecar -/

/-- `INDEX_MAGIC`. -/
def indexMagic : List Char := "directswarm-chunkstore v1".toList

/-- The columns of an entry. -/
def columns (e : Σ _ : Address, Extent) : List (List Char) :=
  [hexOf e.1.toList,decimal e.2.offset.val,decimal e.2.length.val]

/-- The text that `flush_locked` writes. -/
def sidecarText (finish : Nat) (entries : Entries) : List Char :=
  indexMagic ++ '\n' :: ("end=".toList ++ decimal finish ++ '\n' :: csvRows columns entries)

/-- The entry of a line, when it has one. -/
def readEntry (line : List Char) : Option (Σ _ : Address, Extent) :=
  match line.splitOn ',' with
  | addr :: off :: len :: _ =>
    (parseHex32 addr).bind fun addr => (parseWord 64 off).bind fun off => (parseWord 32 len).map fun len =>
      ⟨addr,off,len⟩
  | _ => none

/-- The entries of a sidecar. -/
def entriesOf (text : List Char) : Entries :=
  match lines text with
  | first :: more => if first = indexMagic then (more.drop 1).filterMap readEntry else []
  | [] => []

/-- `load_index`, on the text of the sidecar; a missing one is empty. -/
def loadIndex (sidecar : Option (List Char)) (dataEnd : Nat) : Index :=
  match sidecar with
  | none => ∅
  | some text => insertAll ((entriesOf text).filter fun e => wrapAdd e.2.offset.val e.2.length.val ≤ dataEnd) ∅

theorem columns_clean (e : Σ _ : Address, Extent) : ∀ column ∈ columns e, Clean column := by
  intro column member
  simp only [columns,List.mem_cons,List.not_mem_nil,or_false] at member
  rcases member with rfl | rfl | rfl
  · exact hexOf_clean _
  · exact decimal_clean _
  · exact decimal_clean _

theorem readEntry_csvRow (e : Σ _ : Address, Extent) : readEntry (csvRow (columns e)) = some e := by
  have split := splitOn_csvRow (columns_clean e) (List.cons_ne_nil _ _)
  obtain ⟨addr,extent⟩ := e
  simp only [readEntry,split]
  simp only [columns,parseHex32_hexOf,parseWord_decimal,Option.bind_some,Option.map_some]

private theorem indexMagic_line : '\n' ∉ indexMagic ∧ indexMagic.getLast? ≠ some '\r' := by decide

/-- What `flush_locked` writes reads back entry by entry. -/
theorem entriesOf_sidecarText (finish : Nat) (entries : Entries) : entriesOf (sidecarText finish entries) = entries := by
  have bare : '\n' ∉ "end=".toList ++ decimal finish := by simp [(decimal_no_break finish).1]
  have ended : ("end=".toList ++ decimal finish).getLast? ≠ some '\r' := by
    intro last
    have member := List.mem_of_getLast? last
    simp [(decimal_no_break finish).2] at member
  simp only [entriesOf,sidecarText,lines_cons indexMagic_line.1 indexMagic_line.2,lines_cons bare ended,
    lines_csvRows columns_clean,if_true,List.drop_one,List.tail_cons,filterMap_csvRows readEntry_csvRow]

/-! ### The store -/

/-- `FLUSH_EVERY`. -/
def flushEvery : Nat := 2048

/-- The largest offset of a file. -/
def maxOffset : Nat := 2 ^ 63 - 1

/-- `Inner`, without the handle. -/
structure Inner where
  finish : Nat
  index : Index
  dirty : Nat

/-- What has happened so far, which no operation reads. -/
structure Past where
  /-- The puts that stored their bytes. -/
  stored : List (Address × List Byte)
  /-- The lengths at which opens found the data file since the sidecar was renamed. -/
  founds : List Nat
  /-- The index of the last completed flush. -/
  flushed : Index
  /-- What the store is meant to hold. -/
  shelf : Shelf Address (List Byte)

/-- The files, and the store when it is open. -/
structure World where
  data : Option (List Byte)
  sidecar : Option (List Char)
  inner : Option Inner
  /-- How much of the data file the last completed flush has made durable. -/
  synced : Nat
  past : Past

/-- No file exists and nothing has happened. -/
def fresh : World := ⟨none,none,none,0,⟨[],[],∅,⟨∅,∅⟩⟩⟩

def World.contents (w : World) : List Byte := w.data.getD []

/-- The entries of the sidecar on disk. -/
def World.entries (w : World) : Entries :=
  match w.sidecar with
  | none => []
  | some text => entriesOf text

inductive StoreError
  /-- `NotFound`: "chunk not in store". -/
  | notInStore
  /-- `InvalidData`: "chunk too large". -/
  | tooLarge
  /-- A file operation fails. -/
  | io
  deriving DecidableEq

/-- How the writes of a put end: after some bytes with an error, or after all. -/
inductive WriteEnd
  | failed (landed : Nat)
  | done

/-- How a flush ends: with an error, or with the sidecar renamed, written in the
    order in which the index was enumerated. -/
inductive FlushEnd
  | failed
  | done (entries : Entries)

/-- Writing at an offset. Writing nothing does not extend the file. -/
def writeAt (data : List Byte) (pos : Nat) (chunk : List Byte) : List Byte :=
  if chunk = [] then data else poke 0 data pos chunk

/-- `flush_locked`, in a store that is open with an index. -/
def flushLocked (w : World) (g : Inner) : FlushEnd → Option (World × Except StoreError Unit)
  | .failed => some ({ w with inner := some g },.error .io)
  | .done entries =>
    if (entries : Multiset _) = g.index.entries then
      some ({ w with
        sidecar := some (sidecarText g.finish entries)
        inner := some { g with dirty := 0 }
        synced := g.finish
        past := { w.past with founds := [], flushed := g.index, shelf := w.past.shelf.flush } },.ok ())
    else none

/-- `ChunkStore::put`. -/
def put (w : World) (g : Inner) (addr : Address) (wire : List Byte) (writes : WriteEnd) (flush : FlushEnd) :
    Option (World × Except StoreError Unit) :=
  if addr ∈ g.index then some (w,.ok ()) else
  match writes with
  | .failed landed =>
    if landed ≤ wire.length ∧ g.finish + landed ≤ maxOffset then
      some ({ w with data := some (writeAt w.contents g.finish (wire.take landed)) },.error .io)
    else none
  | .done =>
    if room : g.finish + wire.length ≤ maxOffset then
      let data := writeAt w.contents g.finish wire
      if small : wire.length < 2 ^ 32 then
        let extent : Extent := ⟨⟨g.finish,by unfold maxOffset at room; omega⟩,⟨wire.length,small⟩⟩
        let stored : Inner := ⟨g.finish + wire.length,g.index.insert addr extent,g.dirty + 1⟩
        let past := { w.past with stored := (addr,wire) :: w.past.stored, shelf := w.past.shelf.put addr wire }
        let written := { w with data := some data, inner := some stored, past := past }
        if flushEvery ≤ stored.dirty then (flushLocked written stored flush).map fun flushed => (flushed.1,.ok ())
        else some (written,.ok ())
      else some ({ w with data := some data },.error .tooLarge)
    else none

/-- `ChunkStore::get`; a read may fail. -/
def get (w : World) (g : Inner) (addr : Address) (reads : Bool) : Except StoreError (List Byte) :=
  match g.index.lookup addr with
  | none => .error .notInStore
  | some e => if reads = true ∧ e.reach ≤ w.contents.length then .ok (slice w.contents e) else .error .io

/-- `ChunkStore::open`. -/
def openStore (w : World) : World :=
  { w with
    data := some w.contents
    inner := some ⟨w.contents.length,loadIndex w.sidecar w.contents.length,0⟩
    past := { w.past with founds := w.contents.length :: w.past.founds, shelf := w.past.shelf.reopen } }

inductive Act
  | open_
  | put (addr : Address) (wire : List Byte) (writes : WriteEnd) (flush : FlushEnd)
  | get (addr : Address)
  | flush (out : FlushEnd)
  /-- The store is dropped, or its process ends. -/
  | close
  /-- `cleanup`, with the removals that it got to and that did not fail. -/
  | cleanup (data index : Bool)
  /-- The machine stops, and the data file is found with these bytes. -/
  | crash (kept : List Byte)

def step (w : World) : Act → Option World
  | .open_ => if w.inner.isSome then none else some (openStore w)
  | .put addr wire writes flush => w.inner.bind fun g => (put w g addr wire writes flush).map (·.1)
  | .get _ => w.inner.map fun _ => w
  | .flush out => w.inner.bind fun g => (flushLocked w g out).map (·.1)
  | .close => w.inner.map fun _ => { w with inner := none }
  | .cleanup data index => w.inner.map fun _ =>
    { w with
      data := if data then none else w.data
      sidecar := if index then none else w.sidecar
      inner := none
      synced := if data then 0 else w.synced }
  | .crash kept =>
    -- What was flushed is as it was, as far as the file still goes; the rest is anything.
    if kept.length ≤ w.contents.length ∧ kept.take w.synced <+: w.contents.take w.synced then
      some { w with data := w.data.map fun _ => kept, inner := none, synced := min w.synced kept.length }
    else none

/-! ### What the operations do -/

theorem writeAt_take (data : List Byte) {pos limit : Nat} (chunk : List Byte) (below : limit ≤ pos)
    (inside : pos ≤ data.length) : (writeAt data pos chunk).take limit = data.take limit := by
  unfold writeAt
  by_cases empty : chunk = []
  · rw [if_pos empty]
  · have front : limit ≤ (data.take pos).length := by rw [List.length_take]; omega
    rw [if_neg empty,poke,List.append_assoc,List.append_assoc,List.take_append_of_le_length front,List.take_take,
      Nat.min_eq_left below]

theorem writeAt_length (data : List Byte) {pos : Nat} (chunk : List Byte) (inside : pos ≤ data.length) :
    data.length ≤ (writeAt data pos chunk).length ∧ pos + chunk.length ≤ (writeAt data pos chunk).length := by
  unfold writeAt
  by_cases empty : chunk = []
  · simp [empty,inside]
  · rw [if_neg empty]
    simp only [poke,List.length_append,List.length_take,List.length_replicate,List.length_drop]
    omega

theorem writeAt_length_le (data : List Byte) {pos limit : Nat} (chunk : List Byte) (inside : data.length ≤ limit)
    (room : pos + chunk.length ≤ limit) : (writeAt data pos chunk).length ≤ limit := by
  unfold writeAt
  by_cases empty : chunk = []
  · rw [if_pos empty]; exact inside
  · rw [if_neg empty]
    simp only [poke,List.length_append,List.length_take,List.length_replicate,List.length_drop]
    omega

/-- What was written is what is read. -/
theorem slice_writeAt (data : List Byte) {e : Extent} {chunk : List Byte} (inside : e.offset.val ≤ data.length)
    (length : e.length.val = chunk.length) : slice (writeAt data e.offset.val chunk) e = chunk := by
  unfold writeAt
  by_cases empty : chunk = []
  · subst empty
    simp [slice,length]
  · have front : (data.take e.offset.val).length = e.offset.val := by rw [List.length_take]; omega
    have noGap : e.offset.val - data.length = 0 := by omega
    rw [if_neg empty,poke,noGap,List.replicate_zero,List.append_nil,slice,List.append_assoc,
      List.drop_append_of_le_length (by omega),List.drop_of_length_le (by omega),List.nil_append,length,
      List.take_left]

/-- What a put does: nothing, or it writes at the end; and then it stores its bytes
    unless it fails. -/
inductive Puts (w : World) (g : Inner) (addr : Address) (wire : List Byte) : World → Except StoreError Unit → Prop
  | known (there : addr ∈ g.index) : Puts w g addr wire w (.ok ())
  | failed (absent : addr ∉ g.index) {piece : List Byte} (room : g.finish + piece.length ≤ maxOffset)
      (error : StoreError) :
      Puts w g addr wire { w with data := some (writeAt w.contents g.finish piece) } (.error error)
  | stored (absent : addr ∉ g.index) (room : g.finish + wire.length ≤ maxOffset) {extent : Extent}
      (offset : extent.offset.val = g.finish) (length : extent.length.val = wire.length) {next : World}
      (past : next = { w with
        data := some (writeAt w.contents g.finish wire)
        inner := some ⟨g.finish + wire.length,g.index.insert addr extent,g.dirty + 1⟩
        past := { w.past with stored := (addr,wire) :: w.past.stored, shelf := w.past.shelf.put addr wire } }) :
      Puts w g addr wire next (.ok ())
  | storedFlushed (absent : addr ∉ g.index) (room : g.finish + wire.length ≤ maxOffset) {extent : Extent}
      (offset : extent.offset.val = g.finish) (length : extent.length.val = wire.length) {written next : World}
      {stored : Inner} {out : FlushEnd} {result : Except StoreError Unit}
      (inner : stored = ⟨g.finish + wire.length,g.index.insert addr extent,g.dirty + 1⟩)
      (past : written = { w with
        data := some (writeAt w.contents g.finish wire)
        inner := some stored
        past := { w.past with stored := (addr,wire) :: w.past.stored, shelf := w.past.shelf.put addr wire } })
      (flushed : flushLocked written stored out = some (next,result)) :
      Puts w g addr wire next (.ok ())

theorem put_puts {w next : World} {g : Inner} {addr : Address} {wire : List Byte} {writes : WriteEnd} {flush : FlushEnd}
    {result : Except StoreError Unit} (taken : put w g addr wire writes flush = some (next,result)) :
    Puts w g addr wire next result := by
  unfold put at taken
  by_cases there : addr ∈ g.index
  · rw [if_pos there] at taken
    cases taken; exact .known there
  · rw [if_neg there] at taken
    cases writes with
    | failed landed =>
      by_cases room : landed ≤ wire.length ∧ g.finish + landed ≤ maxOffset
      · simp only [if_pos room] at taken
        cases taken
        refine .failed there ?_ _
        rw [List.length_take]; omega
      · simp [if_neg room] at taken
    | done =>
      by_cases room : g.finish + wire.length ≤ maxOffset
      · by_cases small : wire.length < 2 ^ 32
        · simp only [dif_pos room,dif_pos small] at taken
          by_cases full : flushEvery ≤ g.dirty + 1
          · rw [if_pos full,Option.map_eq_some_iff] at taken
            obtain ⟨⟨flushed,out⟩,done,same⟩ := taken
            cases same
            exact .storedFlushed there room rfl rfl rfl rfl done
          · rw [if_neg full] at taken
            cases taken
            exact .stored there room rfl rfl rfl
        · simp only [dif_pos room,dif_neg small] at taken
          cases taken
          exact .failed there room _
      · simp [dif_neg room] at taken

/-- What a flush that does not fail leaves behind. -/
theorem flushLocked_cases {w next : World} {g : Inner} {out : FlushEnd} {result : Except StoreError Unit}
    (taken : flushLocked w g out = some (next,result)) :
    next = { w with inner := some g } ∨
    ∃ entries : Entries, (entries : Multiset _) = g.index.entries ∧
      next = { w with
        sidecar := some (sidecarText g.finish entries)
        inner := some { g with dirty := 0 }
        synced := g.finish
        past := { w.past with founds := [], flushed := g.index, shelf := w.past.shelf.flush } } := by
  cases out with
  | failed => cases taken; exact .inl rfl
  | done entries =>
    simp only [flushLocked] at taken
    split at taken
    · rename_i all; cases taken; exact .inr ⟨entries,all,rfl⟩
    · cases taken

/-- What `load_index` finds is an entry of the sidecar that is within the data, as
    the sum of its offset and length is taken. -/
theorem mem_of_lookup_loadIndex {w : World} {dataEnd : Nat} {addr : Address} {e : Extent}
    (found : (loadIndex w.sidecar dataEnd).lookup addr = some e) :
    (⟨addr,e⟩ : Σ _ : Address, Extent) ∈ w.entries ∧ wrapAdd e.offset.val e.length.val ≤ dataEnd := by
  unfold World.entries
  cases text : w.sidecar with
  | none => rw [text] at found; cases found
  | some text' =>
    rw [text,loadIndex] at found
    rcases mem_of_lookup_insertAll found with member | before
    · rw [List.mem_filter] at member
      exact ⟨member.1,by simpa using member.2⟩
    · cases before

theorem entries_of {w : World} {finish : Nat} {entries : Entries} (text : w.sidecar = some (sidecarText finish entries)) :
    w.entries = entries := by
  rw [World.entries,text]; exact entriesOf_sidecarText finish entries

theorem contents_crash {w : World} {kept : List Byte} (shorter : kept.length ≤ w.contents.length) :
    World.contents { w with data := w.data.map fun _ => kept, inner := none, synced := min w.synced kept.length } = kept := by
  cases there : w.data with
  | some bytes => rfl
  | none =>
    simp only [World.contents,there,Option.getD_none,List.length_nil,Nat.le_zero,List.length_eq_zero_iff] at shorter
    simp [World.contents,shorter]

/-! ### A short run -/

/-- The addresses of two chunks, and the bytes of the first. -/
def oneAddress : Address := List.Vector.replicate 32 1
def otherAddress : Address := List.Vector.replicate 32 2
def oneChunk : List Byte := [1,2]

/-- A chunk is stored and flushed. -/
def oneLife : List Act := [.open_,.put oneAddress oneChunk .done .failed,.flush (.done [⟨oneAddress,0,2⟩])]

/-- What a run leads to, as far as reading an address goes. -/
def reading (acts : List Act) (addr : Address) : Option (Option (Except StoreError (List Byte)) × List (Address × List Byte)) :=
  (run step fresh acts).map fun w => (w.inner.map fun g => get w g addr true,w.past.stored)

theorem reading_some {acts : List Act} {addr : Address} {bytes : List Byte} {stored : List (Address × List Byte)}
    (read : reading acts addr = some (some (.ok bytes),stored)) : ∃ final g, run step fresh acts = some final ∧
      final.inner = some g ∧ get final g addr true = .ok bytes ∧ final.past.stored = stored := by
  obtain ⟨final,reached,both⟩ := Option.map_eq_some_iff.mp read
  obtain ⟨got,past⟩ := Prod.mk.inj both
  obtain ⟨g,opened,gave⟩ := Option.map_eq_some_iff.mp got
  exact ⟨final,g,reached,opened,gave,past⟩

end Directswarm.Store
