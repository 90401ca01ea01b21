import Directswarm.Store

/-!
What a store keeps over a crash. The files carry a map with a copy of it: the
index and the bytes of its extents carry the map as it is, the sidecar and what
was made durable carry the copy of the last completed flush (`Carries`). A store
that is opened after a crash goes back to that copy, and goes on above it
(`reopened_as_flushed`).
-/
namespace Directswarm.StoreReopen
open Directswarm.Runs Directswarm.Text Directswarm.Maps Directswarm.Words Directswarm.Store

/-- Nothing is cleaned up, and a crash keeps what the last completed flush synced. -/
def Tame (w : World) : Act → Prop
  | .cleanup _ _ => False
  | .crash kept => w.synced ≤ kept.length
  | _ => True

instance (w : World) : (act : Act) → Decidable (Tame w act)
  | .cleanup _ _ => isFalse id
  | .crash kept => inferInstanceAs (Decidable (w.synced ≤ kept.length))
  | .open_ | .put _ _ _ _ | .get _ | .flush _ | .close => isTrue trivial

/-- An index whose extents are below a limit and hold the values of a map. -/
structure Filled (data : List Byte) (limit : Nat) (index : Index) (map : Finmap fun _ : Address => List Byte) : Prop where
  below : ∀ addr e, index.lookup addr = some e → e.reach ≤ limit
  bytes : ∀ addr, map.lookup addr = (index.lookup addr).map (slice data)

theorem filled_congr {data other : List Byte} {limit : Nat} {index : Index} {map : Finmap fun _ : Address => List Byte}
    (filled : Filled data limit index map) (same : other.take limit = data.take limit) : Filled other limit index map := by
  refine ⟨filled.below,fun addr => ?_⟩
  rw [filled.bytes addr]
  cases found : index.lookup addr with
  | none => rfl
  | some e => exact congrArg some (slice_congr same (filled.below addr e found)).symm

/-- What a store has in memory and on disk is what it is meant to hold. -/
structure Carries (w : World) : Prop where
  room : w.contents.length ≤ maxOffset
  sidecar : w.sidecar = none ∧ w.past.flushed = ∅ ∨
    ∃ finish entries, w.sidecar = some (sidecarText finish entries) ∧ (entries : Multiset _) = w.past.flushed.entries
  synced : w.synced ≤ w.contents.length
  durable : Filled w.contents w.synced w.past.flushed w.past.shelf.durable
  inside : ∀ g, w.inner = some g → w.synced ≤ g.finish ∧ g.finish ≤ w.contents.length
  memory : ∀ g, w.inner = some g → Filled w.contents g.finish g.index w.past.shelf.memory
  grown : ∀ g, w.inner = some g → ∀ addr e, w.past.flushed.lookup addr = some e → g.index.lookup addr = some e

theorem carries_fresh : Carries fresh := by
  refine ⟨Nat.zero_le _,.inl ⟨rfl,rfl⟩,Nat.le_refl 0,⟨?_,fun addr => rfl⟩,nofun,nofun,nofun⟩
  intro addr e found
  cases found

/-- `load_index` gives the index of the last completed flush. -/
theorem loadIndex_flushed {w : World} (inv : Carries w) : loadIndex w.sidecar w.contents.length = w.past.flushed := by
  rcases inv.sidecar with ⟨none_,empty⟩ | ⟨finish,entries,text,all⟩
  · rw [none_,empty]; rfl
  · have within : ∀ e ∈ entries, wrapAdd e.2.offset.val e.2.length.val ≤ w.contents.length := by
      intro e member
      have reach := inv.durable.below e.1 e.2 ((mem_iff_lookup all).mp member)
      exact Nat.le_trans (wrapAdd_le _ _) (Nat.le_trans reach inv.synced)
    have every : entries.filter (fun e => wrapAdd e.2.offset.val e.2.length.val ≤ w.contents.length) = entries := by
      rw [List.filter_eq_self]
      intro e member
      simpa using within e member
    rw [text,loadIndex,entriesOf_sidecarText,every,insertAll_entries all]

theorem carries_open {w : World} (inv : Carries w) : Carries (openStore w) := by
  refine ⟨inv.room,inv.sidecar,inv.synced,inv.durable,?_,?_,?_⟩
  · intro g opened; cases opened; exact ⟨inv.synced,Nat.le_refl _⟩
  · intro g opened
    cases opened
    show Filled w.contents w.contents.length (loadIndex w.sidecar w.contents.length) w.past.shelf.durable
    rw [loadIndex_flushed inv]
    exact ⟨fun addr e found => Nat.le_trans (inv.durable.below addr e found) inv.synced,inv.durable.bytes⟩
  · intro g opened addr e found
    cases opened
    show (loadIndex w.sidecar w.contents.length).lookup addr = some e
    rw [loadIndex_flushed inv]; exact found

theorem carries_flush {w next : World} {g : Inner} {out : FlushEnd} {result : Except StoreError Unit} (inv : Carries w)
    (opened : w.inner = some g) (taken : flushLocked w g out = some (next,result)) : Carries next := by
  rcases flushLocked_cases taken with rfl | ⟨entries,all,rfl⟩
  · rw [← opened]; exact inv
  · have inside := inv.inside g opened
    have memory := inv.memory g opened
    refine ⟨inv.room,.inr ⟨g.finish,entries,rfl,all⟩,inside.2,memory,?_,?_,?_⟩
    · intro h same; cases same; exact ⟨Nat.le_refl _,inside.2⟩
    · intro h same; cases same; exact memory
    · intro h same addr e found; cases same; exact found

/-- Writing at the end of an open store. -/
theorem carries_write {w : World} {g : Inner} {piece : List Byte} (inv : Carries w) (opened : w.inner = some g)
    (room : g.finish + piece.length ≤ maxOffset) :
    Carries { w with data := some (writeAt w.contents g.finish piece) } := by
  obtain ⟨low,inside⟩ := inv.inside g opened
  have longer := (writeAt_length w.contents piece inside).1
  refine ⟨writeAt_length_le _ _ inv.room room,inv.sidecar,Nat.le_trans inv.synced longer,
    filled_congr inv.durable (writeAt_take _ _ low inside),?_,?_,inv.grown⟩
  · intro h same
    cases opened.symm.trans same
    exact ⟨low,Nat.le_trans inside longer⟩
  · intro h same
    cases opened.symm.trans same
    exact filled_congr (inv.memory g opened) (writeAt_take _ _ (Nat.le_refl _) inside)

/-- Storing what was written. -/
theorem carries_store {w : World} {g : Inner} {addr : Address} {wire : List Byte} {extent : Extent} (inv : Carries w)
    (opened : w.inner = some g) (absent : addr ∉ g.index) (room : g.finish + wire.length ≤ maxOffset)
    (offset : extent.offset.val = g.finish) (length : extent.length.val = wire.length) :
    Carries { w with
      data := some (writeAt w.contents g.finish wire)
      inner := some ⟨g.finish + wire.length,g.index.insert addr extent,g.dirty + 1⟩
      past := { w.past with stored := (addr,wire) :: w.past.stored, shelf := w.past.shelf.put addr wire } } := by
  have written := carries_write inv opened room
  obtain ⟨low,inside⟩ := inv.inside g opened
  have whole := (writeAt_length w.contents wire inside).2
  have memory := written.memory g opened
  have nothing : g.index.lookup addr = none := Finmap.lookup_eq_none.mpr absent
  have unheld : addr ∉ w.past.shelf.memory := by
    rw [← Finmap.lookup_eq_none,memory.bytes addr,nothing]; rfl
  refine ⟨written.room,written.sidecar,written.synced,?_,?_,?_,?_⟩
  · have durable := written.durable
    rw [Shelf.put_fresh unheld]
    exact durable
  · intro h same; cases same; exact ⟨by show w.synced ≤ g.finish + wire.length; omega,whole⟩
  · intro h same
    cases same
    rw [Shelf.put_fresh unheld]
    refine ⟨fun other e found => ?_,fun other => ?_⟩
    · by_cases here : other = addr
      · subst here
        rw [Finmap.lookup_insert] at found
        cases found
        show extent.offset.val + extent.length.val ≤ g.finish + wire.length
        omega
      · rw [Finmap.lookup_insert_of_ne _ here] at found
        exact Nat.le_trans (memory.below other e found) (Nat.le_add_right _ _)
    · by_cases here : other = addr
      · subst here
        rw [Finmap.lookup_insert,Finmap.lookup_insert,Option.map_some]
        have read : slice (writeAt w.contents g.finish wire) extent = wire := by
          rw [← offset]; exact slice_writeAt _ (by omega) length
        exact congrArg some read.symm
      · rw [Finmap.lookup_insert_of_ne _ here,Finmap.lookup_insert_of_ne _ here]
        exact memory.bytes other
  · intro h same other e found
    cases same
    have old := inv.grown g opened other e found
    have here : other ≠ addr := by
      rintro rfl
      rw [nothing] at old; cases old
    rw [Finmap.lookup_insert_of_ne _ here]; exact old

theorem carries_put {w next : World} {g : Inner} {addr : Address} {wire : List Byte} {result : Except StoreError Unit}
    (inv : Carries w) (opened : w.inner = some g) (puts : Puts w g addr wire next result) : Carries next := by
  cases puts with
  | known there => exact inv
  | failed absent room error => exact carries_write inv opened room
  | stored absent room offset length past => subst past; exact carries_store inv opened absent room offset length
  | storedFlushed absent room offset length inner past flushed =>
    subst past inner
    exact carries_flush (carries_store inv opened absent room offset length) rfl flushed

theorem carries_crash {w : World} {kept : List Byte} (inv : Carries w) (whole : w.synced ≤ kept.length)
    (shorter : kept.length ≤ w.contents.length) (agree : kept.take w.synced <+: w.contents.take w.synced) :
    Carries { w with data := w.data.map fun _ => kept, inner := none, synced := min w.synced kept.length } := by
  have contents : World.contents { w with data := w.data.map fun _ => kept, inner := none, synced := min w.synced kept.length } =
      kept := contents_crash shorter
  have same : kept.take w.synced = w.contents.take w.synced := by
    refine List.IsPrefix.eq_of_length agree ?_
    have := inv.synced
    simp only [List.length_take]; omega
  refine ⟨by rw [contents]; exact Nat.le_trans shorter inv.room,inv.sidecar,by rw [contents]; exact Nat.min_le_right _ _,?_,
    nofun,nofun,nofun⟩
  rw [contents]
  show Filled kept (min w.synced kept.length) _ _
  rw [Nat.min_eq_left whole]
  exact filled_congr inv.durable same

theorem carries_step {w next : World} {act : Act} (inv : Carries w) (tame : Tame w act)
    (taken : step w act = some next) : Carries next := by
  cases act with
  | open_ =>
    simp only [step] at taken
    split at taken
    · cases taken
    · cases taken; exact carries_open inv
  | put addr wire writes flush =>
    obtain ⟨g,opened,puts⟩ := Option.bind_eq_some_iff.mp taken
    obtain ⟨⟨after,result⟩,done,rfl⟩ := Option.map_eq_some_iff.mp puts
    exact carries_put inv opened (put_puts done)
  | get addr =>
    obtain ⟨g,opened,rfl⟩ := Option.map_eq_some_iff.mp taken
    exact inv
  | flush out =>
    obtain ⟨g,opened,flushes⟩ := Option.bind_eq_some_iff.mp taken
    obtain ⟨⟨after,result⟩,done,rfl⟩ := Option.map_eq_some_iff.mp flushes
    exact carries_flush inv opened done
  | close =>
    obtain ⟨g,opened,rfl⟩ := Option.map_eq_some_iff.mp taken
    exact ⟨inv.room,inv.sidecar,inv.synced,inv.durable,nofun,nofun,nofun⟩
  | cleanup data index => cases tame
  | crash kept =>
    simp only [step] at taken
    split at taken
    · rename_i fits; cases taken; exact carries_crash inv tame fits.1 fits.2
    · cases taken

theorem carries_run {acts : List Act} {w final : World} (inv : Carries w) (tame : Meets step Tame w acts)
    (reached : run step w acts = some final) : Carries final := by
  have keep : ∀ w act next, Carries w → Tame w act → step w act = some next → Carries next :=
    fun _ _ _ inv ok taken => carries_step inv ok taken
  exact run_guarded keep inv tame reached

/-- What was flushed once stays in the index of every later flush. -/
theorem flushed_step {w next : World} {act : Act} (inv : Carries w) (taken : step w act = some next) {addr : Address}
    {e : Extent} (found : w.past.flushed.lookup addr = some e) : next.past.flushed.lookup addr = some e := by
  have flushing : ∀ {v after : World} {g : Inner} {out : FlushEnd} {result : Except StoreError Unit},
      flushLocked v g out = some (after,result) → v.past.flushed = w.past.flushed → g.index.lookup addr = some e →
      after.past.flushed.lookup addr = some e := by
    intro v after g out result done same indexed
    rcases flushLocked_cases done with rfl | ⟨entries,-,rfl⟩
    · show v.past.flushed.lookup addr = some e
      rw [same]; exact found
    · exact indexed
  cases act with
  | open_ =>
    simp only [step] at taken
    split at taken
    · cases taken
    · cases taken; exact found
  | put addr' wire writes flush =>
    obtain ⟨g,opened,puts⟩ := Option.bind_eq_some_iff.mp taken
    obtain ⟨⟨after,result⟩,done,rfl⟩ := Option.map_eq_some_iff.mp puts
    have indexed := inv.grown g opened addr e found
    cases put_puts done with
    | known there => exact found
    | failed absent room error => exact found
    | stored absent room offset length past => subst past; exact found
    | storedFlushed absent room offset length inner past flushed =>
      subst past inner
      have other : addr ≠ addr' := by
        rintro rfl
        rw [Finmap.lookup_eq_none.mpr absent] at indexed; cases indexed
      exact flushing flushed rfl (by rw [Finmap.lookup_insert_of_ne _ other]; exact indexed)
  | get addr =>
    obtain ⟨g,opened,rfl⟩ := Option.map_eq_some_iff.mp taken
    exact found
  | flush out =>
    obtain ⟨g,opened,flushes⟩ := Option.bind_eq_some_iff.mp taken
    obtain ⟨⟨after,result⟩,done,rfl⟩ := Option.map_eq_some_iff.mp flushes
    exact flushing done rfl (inv.grown g opened addr e found)
  | close | cleanup _ _ =>
    obtain ⟨g,opened,rfl⟩ := Option.map_eq_some_iff.mp taken
    exact found
  | crash kept =>
    simp only [step] at taken
    split at taken
    · cases taken; exact found
    · cases taken

theorem flushed_run {acts : List Act} {w final : World} (inv : Carries w) (tame : Meets step Tame w acts)
    (reached : run step w acts = some final) {addr : Address} {e : Extent} (found : w.past.flushed.lookup addr = some e) :
    final.past.flushed.lookup addr = some e := by
  have keep : ∀ w act next, Carries w ∧ w.past.flushed.lookup addr = some e → Tame w act → step w act = some next →
      Carries next ∧ next.past.flushed.lookup addr = some e :=
    fun _ _ _ inv ok taken => ⟨carries_step inv.1 ok taken,flushed_step inv.1 taken inv.2⟩
  exact (run_guarded keep ⟨inv,found⟩ tame reached).2

/-- A put writes above the end of the store. -/
theorem put_above {w next : World} {g : Inner} {addr : Address} {wire : List Byte} {result : Except StoreError Unit}
    (inside : g.finish ≤ w.contents.length) (puts : Puts w g addr wire next result) :
    next.contents.take g.finish = w.contents.take g.finish := by
  have above := fun piece : List Byte => writeAt_take w.contents piece (Nat.le_refl g.finish) inside
  cases puts with
  | known there => rfl
  | failed absent room error => exact above _
  | stored absent room offset length past => subst past; exact above _
  | storedFlushed absent room offset length inner past flushed =>
    subst past inner
    rcases flushLocked_cases flushed with rfl | ⟨entries,-,rfl⟩ <;> exact above _

/-- After any run, and a crash that keeps what the last completed flush synced, the
    store reopens with the index of that flush; each of its gets gives the bytes that
    were put first under the address; and however it goes on, what is indexed stays
    indexed and no put writes below the end of an indexed extent. -/
theorem reopened_as_flushed {acts : List Act} {w crashed reopened : World} {kept : List Byte}
    (tame : Meets step Tame fresh acts) (reached : run step fresh acts = some w) (whole : w.synced ≤ kept.length)
    (stopped : step w (.crash kept) = some crashed) (opened : step crashed .open_ = some reopened) :
    ∃ g, reopened.inner = some g ∧ g.index = w.past.flushed ∧
      (∀ addr, addr ∈ g.index → ∃ bytes, w.past.shelf.durable.lookup addr = some bytes ∧
        Store.get reopened g addr true = .ok bytes) ∧
      ∀ later t h, Meets step Tame reopened later → run step reopened later = some t → t.inner = some h →
        (∀ addr e, g.index.lookup addr = some e → h.index.lookup addr = some e) ∧
        ∀ addr e, h.index.lookup addr = some e → e.reach ≤ h.finish ∧
          ∀ other wire writes flush next, step t (.put other wire writes flush) = some next →
            next.contents.take e.reach = t.contents.take e.reach := by
  have before := carries_run carries_fresh tame reached
  have between : Carries crashed := carries_step before (show Tame w (.crash kept) from whole) stopped
  have after : Carries reopened := carries_step between (show Tame crashed .open_ from trivial) opened
  have flushed : crashed.past = w.past := by
    simp only [step] at stopped
    split at stopped
    · cases stopped; rfl
    · cases stopped
  obtain rfl : reopened = openStore crashed := by
    simp only [step] at opened
    split at opened
    · cases opened
    · cases opened; rfl
  have loaded : loadIndex crashed.sidecar crashed.contents.length = w.past.flushed := by
    rw [loadIndex_flushed between,flushed]
  refine ⟨⟨crashed.contents.length,loadIndex crashed.sidecar crashed.contents.length,0⟩,rfl,loaded,?_,?_⟩
  · intro addr member
    obtain ⟨e,found⟩ := Finmap.mem_iff.mp member
    refine ⟨slice crashed.contents e,?_,?_⟩
    · rw [loaded,← flushed] at found
      rw [← flushed,between.durable.bytes addr,found]; rfl
    · have reach : e.reach ≤ crashed.contents.length := (after.memory _ rfl).below addr e found
      unfold Store.get
      rw [found]
      exact if_pos ⟨rfl,reach⟩
  · intro later t h calm onward going
    have inv := carries_run after calm onward
    obtain ⟨-,inside⟩ := inv.inside h going
    refine ⟨fun addr e found => ?_,fun addr e found => ?_⟩
    · have there : (openStore crashed).past.flushed.lookup addr = some e := by
        show crashed.past.flushed.lookup addr = some e
        rw [flushed,← loaded]; exact found
      exact inv.grown h going addr e (flushed_run after calm onward there)
    · have reach := (inv.memory h going).below addr e found
      refine ⟨reach,fun other wire writes flush next taken => ?_⟩
      obtain ⟨i,same,puts⟩ := Option.bind_eq_some_iff.mp taken
      cases going.symm.trans same
      obtain ⟨⟨result,out⟩,done,rfl⟩ := Option.map_eq_some_iff.mp puts
      have above := congrArg (List.take e.reach) (put_above inside (put_puts done))
      rwa [List.take_take,List.take_take,Nat.min_eq_left reach] at above

/-- A flushed chunk, a put that failed half way, and a crash that loses what it wrote. -/
theorem reopened_as_flushed_torn : ∃ w crashed reopened g,
    run step fresh (oneLife ++ [.put otherAddress [3,4] (.failed 1) .failed]) = some w ∧
      step w (.crash oneChunk) = some crashed ∧ step crashed .open_ = some reopened ∧
      reopened.inner = some g ∧ g.index = w.past.flushed ∧ Store.get reopened g oneAddress true = .ok oneChunk := by
  have computed : reading (oneLife ++ [.put otherAddress [3,4] (.failed 1) .failed] ++ [.crash oneChunk,.open_]) oneAddress =
      some (some (.ok oneChunk),[(oneAddress,oneChunk)]) := by rfl
  have tame : Meets step Tame fresh (oneLife ++ [.put otherAddress [3,4] (.failed 1) .failed] ++ [.crash oneChunk,.open_]) := by
    decide
  obtain ⟨reopened,g,through,inner,gave,-⟩ := reading_some computed
  obtain ⟨w,reached,onward⟩ := run_append_some.mp through
  obtain ⟨crashed,stopped,last⟩ := run_cons_some.mp onward
  obtain ⟨_,opened,same⟩ := run_cons_some.mp last
  cases same
  obtain ⟨calm,rest⟩ := meets_append tame reached
  obtain ⟨h,found,index,-⟩ := reopened_as_flushed calm reached rest.1 stopped opened
  cases inner.symm.trans found
  exact ⟨w,crashed,reopened,g,reached,stopped,opened,inner,index,gave⟩

end Directswarm.StoreReopen
