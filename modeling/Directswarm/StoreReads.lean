import Directswarm.Store

/-!
What a store reads over several lives of its files. `load_index` skips entries
that reach beyond the data file, and they stay in the sidecar; bytes that are
appended in their place bring them back into range. As long as no open finds such
an entry in range, every read gives bytes that were put under its address
(`reads_stored`). After a cleanup that got no further than the data file, one that
does reads the bytes of another chunk (`reads_another`).
-/
namespace Directswarm.StoreReads
open Directswarm.Runs Directswarm.Text Directswarm.Maps Directswarm.Words Directswarm.Store

/-- No entry that an open has skipped since the sidecar was written is in range. -/
def Unskipped (w : World) : Act → Prop
  | .open_ => ∀ e ∈ w.entries, e.2.reach ≤ w.contents.length → ∀ n ∈ w.past.founds, e.2.reach ≤ n
  | _ => True

instance (w : World) : (act : Act) → Decidable (Unskipped w act)
  | .open_ => inferInstanceAs (Decidable (∀ e ∈ w.entries, e.2.reach ≤ w.contents.length → ∀ n ∈ w.past.founds, e.2.reach ≤ n))
  | .put _ _ _ _ | .get _ | .flush _ | .close | .cleanup _ _ | .crash _ => isTrue trivial

/-- An extent below a limit holds bytes that were stored under the address. -/
def Holds (data : List Byte) (stored : List (Address × List Byte)) (limit : Nat) (e : Σ _ : Address, Extent) : Prop :=
  e.2.reach ≤ limit ∧ (e.1,slice data e.2) ∈ stored

theorem holds_mono {data other : List Byte} {stored more : List (Address × List Byte)} {limit bound : Nat}
    {e : Σ _ : Address, Extent} (holds : Holds data stored limit e) (same : other.take limit = data.take limit)
    (kept : ∀ p ∈ stored, p ∈ more) (higher : limit ≤ bound) : Holds other more bound e :=
  ⟨Nat.le_trans holds.1 higher,by rw [slice_congr same holds.1]; exact kept _ holds.2⟩

/-- The entry has been in range at every open since the sidecar was written. -/
def Seen (w : World) (e : Σ _ : Address, Extent) : Prop := ∀ n ∈ w.past.founds, e.2.reach ≤ n

structure Truthful (w : World) : Prop where
  room : w.contents.length ≤ maxOffset
  small : ∀ e ∈ w.entries, e.2.reach ≤ maxOffset
  durable : w.synced ≤ w.contents.length
  side : ∀ e ∈ w.entries, Seen w e → e.2.reach ≤ w.contents.length → Holds w.contents w.past.stored w.synced e
  /-- An open store ends within its file, and after what it and its sidecar hold. -/
  inside : ∀ g, w.inner = some g → g.finish ≤ w.contents.length
  indexed : ∀ g, w.inner = some g → ∀ addr e, g.index.lookup addr = some e →
    Holds w.contents w.past.stored g.finish ⟨addr,e⟩
  after : ∀ g, w.inner = some g → ∀ e ∈ w.entries, Seen w e → e.2.reach ≤ g.finish

theorem truthful_fresh : Truthful fresh :=
  ⟨by decide,by simp [fresh,World.entries],by decide,by simp [fresh,World.entries],by simp [fresh],by simp [fresh],
    by simp [fresh]⟩

/-- Opening: what is loaded was in range at every open so far. -/
theorem truthful_open {w : World} (inv : Truthful w) (met : Unskipped w .open_) : Truthful (openStore w) := by
  have contents : (openStore w).contents = w.contents := rfl
  have entries : (openStore w).entries = w.entries := rfl
  have seen : ∀ e, Seen (openStore w) e → e.2.reach ≤ w.contents.length ∧ Seen w e := by
    intro e all
    exact ⟨all _ List.mem_cons_self,fun n member => all n (List.mem_cons_of_mem _ member)⟩
  refine ⟨inv.room,inv.small,inv.durable,?_,?_,?_,?_⟩
  · intro e member all _
    obtain ⟨reach,before⟩ := seen e all
    exact inv.side e member before reach
  · intro g opened
    cases opened; exact Nat.le_refl _
  · intro g opened addr e found
    cases opened
    obtain ⟨member,guard⟩ := mem_of_lookup_loadIndex found
    have exact_ : wrapAdd e.offset.val e.length.val = e.reach := by
      have := inv.small _ member
      unfold maxOffset at this
      exact wrapAdd_exact (by simp only [Extent.reach] at this; omega)
    rw [exact_] at guard
    have held := inv.side _ member (met _ member guard) guard
    exact ⟨guard,held.2⟩
  · intro g opened e member all
    cases opened
    exact (seen e all).1

/-- Flushing: the sidecar has the entries of the index. -/
theorem truthful_flush {w next : World} {g : Inner} {out : FlushEnd} {result : Except StoreError Unit} (inv : Truthful w)
    (opened : w.inner = some g) (taken : flushLocked w g out = some (next,result)) : Truthful next := by
  rcases flushLocked_cases taken with rfl | ⟨entries,all,rfl⟩
  · rw [← opened]; exact inv
  · have listed : ∀ e ∈ World.entries { w with sidecar := some (sidecarText g.finish entries) },
        g.index.lookup e.1 = some e.2 := by
      intro e member
      rw [entries_of rfl] at member
      exact (mem_iff_lookup all).mp member
    have held : ∀ e ∈ World.entries { w with sidecar := some (sidecarText g.finish entries) },
        Holds w.contents w.past.stored g.finish e := fun e member => inv.indexed g opened e.1 e.2 (listed e member)
    have inside := inv.inside g opened
    refine ⟨inv.room,?_,inside,fun e member _ _ => held e member,?_,?_,?_⟩
    · intro e member
      exact Nat.le_trans (held e member).1 (Nat.le_trans inside inv.room)
    · intro h same; cases same; exact inside
    · intro h same; cases same; exact inv.indexed g opened
    · intro h same; cases same; exact fun e member _ => (held e member).1

/-- Writing at the end of an open store. -/
theorem truthful_write {w : World} {g : Inner} {piece : List Byte} (inv : Truthful w) (opened : w.inner = some g)
    (room : g.finish + piece.length ≤ maxOffset) :
    Truthful { w with data := some (writeAt w.contents g.finish piece) } := by
  have inside := inv.inside g opened
  have below : ∀ {limit : Nat}, limit ≤ g.finish → (writeAt w.contents g.finish piece).take limit = w.contents.take limit :=
    fun low => writeAt_take w.contents piece low inside
  have longer := (writeAt_length w.contents piece inside).1
  refine ⟨writeAt_length_le _ _ inv.room room,inv.small,Nat.le_trans inv.durable longer,?_,?_,?_,inv.after⟩
  · intro e member seen _
    have reach := inv.after g opened e member seen
    have held := inv.side e member seen (Nat.le_trans reach inside)
    refine ⟨held.1,?_⟩
    rw [show World.contents { w with data := some (writeAt w.contents g.finish piece) } = writeAt w.contents g.finish piece from rfl,
      slice_congr (below (Nat.le_refl _)) reach]
    exact held.2
  · intro h same
    cases opened.symm.trans same
    exact Nat.le_trans inside longer
  · intro h same addr e found
    cases opened.symm.trans same
    exact holds_mono (inv.indexed g opened addr e found) (below (Nat.le_refl _)) (fun p => id) (Nat.le_refl _)

/-- Storing what was written. -/
theorem truthful_store {w : World} {g : Inner} {addr : Address} {wire : List Byte} {extent : Extent}
    (inv : Truthful w) (opened : w.inner = some g) (room : g.finish + wire.length ≤ maxOffset)
    (offset : extent.offset.val = g.finish) (length : extent.length.val = wire.length) :
    Truthful { w with
      data := some (writeAt w.contents g.finish wire)
      inner := some ⟨g.finish + wire.length,g.index.insert addr extent,g.dirty + 1⟩
      past := { w.past with stored := (addr,wire) :: w.past.stored, shelf := w.past.shelf.put addr wire } } := by
  have written := truthful_write inv opened room
  have inside := inv.inside g opened
  have whole := (writeAt_length w.contents wire inside).2
  have more : ∀ p ∈ w.past.stored, p ∈ (addr,wire) :: w.past.stored := fun p => List.mem_cons_of_mem _
  refine ⟨written.room,written.small,written.durable,?_,?_,?_,?_⟩
  · intro e member seen reach
    exact holds_mono (written.side e member seen reach) rfl more (Nat.le_refl _)
  · intro h same; cases same; exact whole
  · intro h same other e found
    cases same
    by_cases here : other = addr
    · subst here
      rw [Finmap.lookup_insert] at found
      cases found
      refine ⟨?_,?_⟩
      · show extent.offset.val + extent.length.val ≤ g.finish + wire.length
        omega
      · have read : slice (writeAt w.contents g.finish wire) extent = wire := by
          rw [← offset]; exact slice_writeAt _ (by omega) length
        show (other,slice (writeAt w.contents g.finish wire) extent) ∈ _
        rw [read]; exact List.mem_cons_self
    · rw [Finmap.lookup_insert_of_ne _ here] at found
      exact holds_mono (written.indexed g opened other e found) rfl more (Nat.le_add_right _ _)
  · intro h same e member seen
    cases same
    exact Nat.le_trans (inv.after g opened e member seen) (Nat.le_add_right _ _)

theorem truthful_put {w next : World} {g : Inner} {addr : Address} {wire : List Byte} {result : Except StoreError Unit}
    (inv : Truthful w) (opened : w.inner = some g) (puts : Puts w g addr wire next result) : Truthful next := by
  cases puts with
  | known there => exact inv
  | failed absent room error => exact truthful_write inv opened room
  | stored absent room offset length past => subst past; exact truthful_store inv opened room offset length
  | storedFlushed absent room offset length inner past flushed =>
    subst past inner
    exact truthful_flush (truthful_store inv opened room offset length) rfl flushed

/-- A crash keeps what was flushed, as far as the file still goes. -/
theorem truthful_crash {w : World} {kept : List Byte} (inv : Truthful w) (shorter : kept.length ≤ w.contents.length)
    (agree : kept.take w.synced <+: w.contents.take w.synced) :
    Truthful { w with data := w.data.map fun _ => kept, inner := none, synced := min w.synced kept.length } := by
  have contents : World.contents { w with data := w.data.map fun _ => kept, inner := none, synced := min w.synced kept.length } =
      kept := contents_crash shorter
  have same : kept.take (min w.synced kept.length) = w.contents.take (min w.synced kept.length) := by
    have cut := List.prefix_iff_eq_take.mp agree
    rw [List.take_take,List.length_take] at cut
    rw [Nat.min_eq_left (Nat.min_le_left _ _)] at cut
    rw [← cut,List.take_eq_take_iff]; omega
  refine ⟨by rw [contents]; exact Nat.le_trans shorter inv.room,inv.small,by rw [contents]; exact Nat.min_le_right _ _,?_,
    nofun,nofun,nofun⟩
  intro e member seen reach
  rw [contents] at reach ⊢
  have held := inv.side e member seen (Nat.le_trans reach shorter)
  have both : e.2.reach ≤ min w.synced kept.length := Nat.le_min.mpr ⟨held.1,reach⟩
  refine ⟨both,?_⟩
  rw [slice_congr same both]; exact held.2

/-- A cleanup leaves any of the two files. -/
theorem truthful_cleanup {w : World} (data index : Bool) (inv : Truthful w) :
    Truthful { w with
      data := if data then none else w.data
      sidecar := if index then none else w.sidecar
      inner := none
      synced := if data then 0 else w.synced } := by
  have kept : ∀ e ∈ World.entries { w with sidecar := if index then none else w.sidecar }, e ∈ w.entries := by
    intro e member
    cases index with
    | true => cases member
    | false => exact member
  cases data with
  | false =>
    exact ⟨inv.room,fun e member => inv.small e (kept e member),inv.durable,
      fun e member seen reach => inv.side e (kept e member) seen reach,nofun,nofun,nofun⟩
  | true =>
    refine ⟨Nat.zero_le _,fun e member => inv.small e (kept e member),Nat.le_refl 0,?_,nofun,nofun,nofun⟩
    intro e member seen reach
    -- An extent within no file is empty, and stays what it was.
    have zero : e.2.reach ≤ 0 := reach
    have held := inv.side e (kept e member) seen (by omega)
    have empty : slice w.contents e.2 = slice [] e.2 := @slice_congr _ _ 0 _ rfl zero
    have listed := held.2
    rw [empty] at listed
    exact ⟨zero,listed⟩

theorem truthful_step {w next : World} {act : Act} (inv : Truthful w) (met : Unskipped w act)
    (taken : step w act = some next) : Truthful next := by
  cases act with
  | open_ =>
    simp only [step] at taken
    split at taken
    · cases taken
    · cases taken; exact truthful_open inv met
  | put addr wire writes flush =>
    obtain ⟨g,opened,puts⟩ := Option.bind_eq_some_iff.mp taken
    obtain ⟨⟨after,result⟩,done,rfl⟩ := Option.map_eq_some_iff.mp puts
    exact truthful_put inv opened (put_puts done)
  | get addr =>
    obtain ⟨g,opened,rfl⟩ := Option.map_eq_some_iff.mp taken
    exact inv
  | flush out =>
    obtain ⟨g,opened,flushes⟩ := Option.bind_eq_some_iff.mp taken
    obtain ⟨⟨after,result⟩,done,rfl⟩ := Option.map_eq_some_iff.mp flushes
    exact truthful_flush inv opened done
  | close =>
    obtain ⟨g,opened,rfl⟩ := Option.map_eq_some_iff.mp taken
    exact ⟨inv.room,inv.small,inv.durable,inv.side,nofun,nofun,nofun⟩
  | cleanup data index =>
    obtain ⟨g,opened,rfl⟩ := Option.map_eq_some_iff.mp taken
    exact truthful_cleanup data index inv
  | crash kept =>
    simp only [step] at taken
    split at taken
    · rename_i fits; cases taken; exact truthful_crash inv fits.1 fits.2
    · cases taken

/-- In every run in which no open finds in range what an earlier open has skipped, what
    a get returns was stored by a put under its address. -/
theorem reads_stored {acts : List Act} {final : World} {g : Inner} {addr : Address} {reads : Bool} {bytes : List Byte}
    (met : Meets step Unskipped fresh acts) (reached : run step fresh acts = some final) (opened : final.inner = some g)
    (read : Store.get final g addr reads = .ok bytes) : (addr,bytes) ∈ final.past.stored := by
  have keep : ∀ w act next, Truthful w → Unskipped w act → step w act = some next → Truthful next :=
    fun _ _ _ inv ok taken => truthful_step inv ok taken
  have inv := run_guarded keep truthful_fresh met reached
  unfold Store.get at read
  cases found : g.index.lookup addr with
  | none => rw [found] at read; cases read
  | some e =>
    simp only [found] at read
    split at read
    · cases read; exact (inv.indexed g opened addr e found).2
    · cases read

/-- A chunk that was flushed is read back after a reopening. -/
theorem reads_stored_back : ∃ final g, run step fresh (oneLife ++ [.close,.open_]) = some final ∧ final.inner = some g ∧
    Store.get final g oneAddress true = .ok oneChunk ∧ (oneAddress,oneChunk) ∈ final.past.stored := by
  have computed : reading (oneLife ++ [.close,.open_]) oneAddress = some (some (.ok oneChunk),[(oneAddress,oneChunk)]) := by rfl
  have met : Meets step Unskipped fresh (oneLife ++ [.close,.open_]) := by decide
  obtain ⟨final,g,reached,opened,gave,-⟩ := reading_some computed
  exact ⟨final,g,reached,opened,gave,reads_stored met reached opened gave⟩

/-! ### Entries that come back -/

/-- After `oneLife` the store is cleaned up as far as its data file, and another
    chunk is stored in the place of the first one and not flushed. -/
def twoLives : List Act :=
  oneLife ++ ([.cleanup true false,.open_,.put otherAddress [3,4] .done .failed,.close,.open_] : List Act)

/-- The entry of the first chunk is in range again, and reads as the second one. -/
theorem reads_another : ∃ acts final g bytes, run step fresh acts = some final ∧ final.inner = some g ∧
    Store.get final g oneAddress true = .ok bytes ∧ (oneAddress,bytes) ∉ final.past.stored := by
  have computed : reading twoLives oneAddress =
      some (some (.ok [3,4]),[(otherAddress,[3,4]),(oneAddress,oneChunk)]) := by rfl
  obtain ⟨final,g,reached,opened,gave,stored⟩ := reading_some computed
  refine ⟨twoLives,final,g,_,reached,opened,gave,?_⟩
  rw [stored]; decide

end Directswarm.StoreReads
