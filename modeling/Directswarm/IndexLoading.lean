import Directswarm.Store

/-!
What `load_index` makes of a damaged sidecar (`store.rs`). Lines that are no entries
are passed over, and so are entries that reach past the data file. Where an entry
ends is an unchecked sum, though, so that a line with an offset close to `2 ^ 64`
either stops the program or wraps around and is admitted. On a sidecar without such
a line the loading is robust, and on one with such a line it is not
(`load_robust_iff`).
-/
namespace Directswarm.IndexLoading
open Directswarm.Text Directswarm.Maps Directswarm.Words Directswarm.Store

/-! ### Loading with checked sums -/

/-- One turn of the loop, where the sum does not overflow. -/
def loadLine (dataEnd : Nat) (index : Index) (line : List Char) : Option Index :=
  match readEntry line with
  | none => some index
  | some e => (checkedAdd 64 e.2.offset.val e.2.length.val).map fun reach =>
      if reach ≤ dataEnd then index.insert e.1 e.2 else index

/-- `load_index`, on the lines of the sidecar. -/
def loadLines (dataEnd : Nat) : List (List Char) → Option Index
  | [] => some ∅
  | first :: more => if first = indexMagic then (more.drop 1).foldlM (loadLine dataEnd) ∅ else some ∅

/-- `load_index`, where it does not overflow. -/
def loadChecked (sidecar : Option (List Char)) (dataEnd : Nat) : Option Index :=
  match sidecar with
  | none => some ∅
  | some text => loadLines dataEnd (lines text)

/-- A line whose entry lies inside the data. -/
def inRange (dataEnd : Nat) (line : List Char) : Bool := (readEntry line).any fun e => e.2.reach ≤ dataEnd

/-- The extent that a line in range gives an address. -/
def extentFor (dataEnd : Nat) (addr : Address) (line : List Char) : Option Extent :=
  (readEntry line).bind fun e => if e.1 = addr ∧ e.2.reach ≤ dataEnd then some e.2 else none

/-- No sum overflows, so that it makes no difference whether sums wrap; what is
    admitted lies inside the data; and the index is that of the lines in range. -/
def Robust (sidecar : Option (List Char)) (dataEnd : Nat) : Prop :=
  ∃ index, loadChecked sidecar dataEnd = some index ∧ loadIndex sidecar dataEnd = index ∧
    (∀ addr e, index.lookup addr = some e → e.offset.val + e.length.val ≤ dataEnd) ∧
    ∀ text ∈ sidecar, ∀ second body, lines text = indexMagic :: second :: body →
      loadLines dataEnd (indexMagic :: second :: body.filter (inRange dataEnd)) = some index ∧
      ∀ addr, index.lookup addr = (body.filterMap (extentFor dataEnd addr)).getLast?

/-- Every entry of the sidecar ends at an offset of 64 bits. -/
def Ends (sidecar : Option (List Char)) : Prop :=
  ∀ text ∈ sidecar, ∀ e ∈ entriesOf text, e.2.offset.val + e.2.length.val < 2 ^ 64

/-! ### The loop -/

/-- The entries of some lines that lie inside the data. -/
def kept (dataEnd : Nat) (body : List (List Char)) : Entries :=
  (body.filterMap readEntry).filter fun e => e.2.reach ≤ dataEnd

theorem loadLine_fits {dataEnd : Nat} {index : Index} {line : List Char} {e : Σ _ : Address, Extent}
    (read : readEntry line = some e) (fits : e.2.reach < 2 ^ 64) :
    loadLine dataEnd index line = some (if e.2.reach ≤ dataEnd then index.insert e.1 e.2 else index) := by
  have sum : checkedAdd 64 e.2.offset.val e.2.length.val = some e.2.reach := if_pos fits
  rw [loadLine,read]
  simp only [sum,Option.map_some]

theorem loadLine_stuck {dataEnd : Nat} {index : Index} {line : List Char} {e : Σ _ : Address, Extent}
    (read : readEntry line = some e) (beyond : ¬e.2.reach < 2 ^ 64) : loadLine dataEnd index line = none := by
  have sum : checkedAdd 64 e.2.offset.val e.2.length.val = none := if_neg beyond
  rw [loadLine,read]
  simp only [sum,Option.map_none]

/-- Without an overflow the entries in range are inserted one after the other. -/
theorem foldlM_fits {dataEnd : Nat} {body : List (List Char)} (fits : ∀ e ∈ body.filterMap readEntry, e.2.reach < 2 ^ 64)
    (index : Index) : body.foldlM (loadLine dataEnd) index = some (insertAll (kept dataEnd body) index) := by
  induction body generalizing index with
  | nil => rfl
  | cons line rest ih =>
    rw [List.foldlM_cons]
    cases read : readEntry line with
    | none =>
      rw [List.filterMap_cons_none read] at fits
      have passed : loadLine dataEnd index line = some index := by rw [loadLine,read]
      have same : kept dataEnd (line :: rest) = kept dataEnd rest := by rw [kept,List.filterMap_cons_none read]; rfl
      rw [passed,same]
      exact ih fits index
    | some e =>
      rw [List.filterMap_cons_some read] at fits
      rw [loadLine_fits read (fits e List.mem_cons_self)]
      have onward := ih (fun d member => fits d (List.mem_cons_of_mem _ member))
      by_cases inside : e.2.reach ≤ dataEnd
      · have more : kept dataEnd (line :: rest) = e :: kept dataEnd rest := by
          rw [kept,List.filterMap_cons_some read,List.filter_cons_of_pos (by simpa using inside)]
          rfl
        rw [if_pos inside,more,insertAll_cons]
        exact onward _
      · have same : kept dataEnd (line :: rest) = kept dataEnd rest := by
          rw [kept,List.filterMap_cons_some read,List.filter_cons_of_neg (by simpa using inside)]
          rfl
        rw [if_neg inside,same]
        exact onward _

/-- An overflow anywhere stops the loading. -/
theorem foldlM_stuck {dataEnd : Nat} {body : List (List Char)} {e : Σ _ : Address, Extent}
    (member : e ∈ body.filterMap readEntry) (beyond : ¬e.2.reach < 2 ^ 64) (index : Index) :
    body.foldlM (loadLine dataEnd) index = none := by
  induction body generalizing index with
  | nil => cases member
  | cons line rest ih =>
    rw [List.foldlM_cons]
    cases read : readEntry line with
    | none =>
      rw [List.filterMap_cons_none read] at member
      have passed : loadLine dataEnd index line = some index := by rw [loadLine,read]
      rw [passed]
      exact ih member index
    | some d =>
      rw [List.filterMap_cons_some read] at member
      by_cases fits : d.2.reach < 2 ^ 64
      · rw [loadLine_fits read fits]
        rcases List.mem_cons.mp member with rfl | later
        · exact absurd fits beyond
        · exact ih later _
      · rw [loadLine_stuck read fits]
        rfl

/-- The lines out of range make no difference. -/
theorem kept_filter (dataEnd : Nat) (body : List (List Char)) :
    kept dataEnd (body.filter (inRange dataEnd)) = kept dataEnd body := by
  induction body with
  | nil => rfl
  | cons line rest ih =>
    rw [kept] at ih ⊢
    cases read : readEntry line with
    | none =>
      have out : ¬inRange dataEnd line = true := by simp [inRange,read]
      rw [List.filter_cons_of_neg out,ih,kept,kept,List.filterMap_cons_none read]
    | some e =>
      by_cases inside : e.2.reach ≤ dataEnd
      · have there : inRange dataEnd line = true := by simpa [inRange,read] using inside
        rw [List.filter_cons_of_pos there,List.filterMap_cons_some read,List.filter_cons_of_pos (by simpa using inside),ih,
          kept,kept,List.filterMap_cons_some read,List.filter_cons_of_pos (by simpa using inside)]
      · have out : ¬inRange dataEnd line = true := by simpa [inRange,read] using inside
        rw [List.filter_cons_of_neg out,ih,kept,kept,List.filterMap_cons_some read,
          List.filter_cons_of_neg (by simpa using inside)]

theorem lookup_kept (dataEnd : Nat) (body : List (List Char)) (addr : Address) :
    (insertAll (kept dataEnd body) ∅ : Index).lookup addr = (body.filterMap (extentFor dataEnd addr)).getLast? := by
  have pieces : (kept dataEnd body).filterMap (fun e => if e.1 = addr then some e.2 else none) =
      body.filterMap (extentFor dataEnd addr) := by
    rw [kept,List.filterMap_filter,List.filterMap_filterMap]
    refine List.filterMap_congr fun line _ => ?_
    cases read : readEntry line with
    | none => simp [extentFor,read]
    | some e =>
      by_cases own : e.1 = addr <;> by_cases inside : e.2.reach ≤ dataEnd <;> simp [extentFor,read,own,inside]
  rw [lookup_insertAll,pieces]
  exact Option.or_none

/-! ### Sidecars -/

theorem entriesOf_lines {text : List Char} {more : List (List Char)} (header : lines text = indexMagic :: more) :
    entriesOf text = (more.drop 1).filterMap readEntry := by
  rw [entriesOf,header]
  exact if_pos rfl

theorem loadLines_fits {dataEnd : Nat} {more : List (List Char)}
    (fits : ∀ e ∈ (more.drop 1).filterMap readEntry, e.2.reach < 2 ^ 64) :
    loadLines dataEnd (indexMagic :: more) = some (insertAll (kept dataEnd (more.drop 1)) ∅) := by
  rw [loadLines,if_pos rfl,foldlM_fits fits]

/-- What is loaded without an overflow is what wrapping sums give as well. -/
theorem loadIndex_checked {sidecar : Option (List Char)} {dataEnd : Nat} {index : Index} (ends : Ends sidecar)
    (loaded : loadChecked sidecar dataEnd = some index) : loadIndex sidecar dataEnd = index := by
  cases sidecar with
  | none => exact Option.some.inj loaded
  | some text =>
    have exact_ : ∀ e ∈ entriesOf text, wrapAdd e.2.offset.val e.2.length.val = e.2.reach :=
      fun e member => wrapAdd_exact (ends text rfl e member)
    have same : (entriesOf text).filter (fun e => wrapAdd e.2.offset.val e.2.length.val ≤ dataEnd) =
        (entriesOf text).filter fun e => e.2.reach ≤ dataEnd :=
      List.filter_congr fun e member => by rw [exact_ e member]
    rw [loadIndex,same]
    cases split : lines text with
    | nil =>
      rw [loadChecked,split] at loaded
      rw [entriesOf,split]
      exact Option.some.inj loaded
    | cons first more =>
      rw [loadChecked,split] at loaded
      by_cases magic : first = indexMagic
      · subst magic
        have fits : ∀ e ∈ (more.drop 1).filterMap readEntry, e.2.reach < 2 ^ 64 := by
          rw [← entriesOf_lines split]
          exact ends text rfl
        rw [loadLines_fits fits] at loaded
        rw [entriesOf_lines split]
        exact Option.some.inj loaded
      · rw [loadLines,if_neg magic] at loaded
        rw [entriesOf,split]
        simp only [if_neg magic]
        exact Option.some.inj loaded

/-- What was inserted lies inside the data. -/
theorem kept_inside {dataEnd : Nat} {body : List (List Char)} {addr : Address} {e : Extent}
    (found : (insertAll (kept dataEnd body) ∅ : Index).lookup addr = some e) : e.offset.val + e.length.val ≤ dataEnd := by
  rcases mem_of_lookup_insertAll found with member | before
  · have inside := (List.mem_filter.mp member).2
    exact of_decide_eq_true inside
  · cases before

theorem robust_of_ends {sidecar : Option (List Char)} (ends : Ends sidecar) (dataEnd : Nat) : Robust sidecar dataEnd := by
  suffices checked : ∃ index, loadChecked sidecar dataEnd = some index ∧
      (∀ addr e, index.lookup addr = some e → e.offset.val + e.length.val ≤ dataEnd) ∧
      ∀ text ∈ sidecar, ∀ second body, lines text = indexMagic :: second :: body →
        loadLines dataEnd (indexMagic :: second :: body.filter (inRange dataEnd)) = some index ∧
        ∀ addr, index.lookup addr = (body.filterMap (extentFor dataEnd addr)).getLast? by
    obtain ⟨index,loaded,inside,others⟩ := checked
    exact ⟨index,loaded,loadIndex_checked ends loaded,inside,others⟩
  cases sidecar with
  | none => exact ⟨∅,rfl,fun _ _ found => absurd found nofun,nofun⟩
  | some text =>
    cases split : lines text with
    | nil =>
      refine ⟨∅,by rw [loadChecked,split]; rfl,fun _ _ found => absurd found nofun,?_⟩
      intro other same second body header
      cases same
      rw [split] at header
      cases header
    | cons first more =>
      by_cases magic : first = indexMagic
      · subst magic
        have fits : ∀ e ∈ (more.drop 1).filterMap readEntry, e.2.reach < 2 ^ 64 := by
          rw [← entriesOf_lines split]
          exact ends text rfl
        refine ⟨insertAll (kept dataEnd (more.drop 1)) ∅,?_,fun _ _ found => kept_inside found,?_⟩
        · rw [loadChecked,split]
          exact loadLines_fits fits
        · intro other same second body header
          cases same
          rw [split] at header
          cases header
          have fewer : ∀ e ∈ ((second :: body.filter (inRange dataEnd)).drop 1).filterMap readEntry, e.2.reach < 2 ^ 64 := by
            intro e member
            exact fits e ((List.filter_sublist.filterMap readEntry).subset member)
          refine ⟨?_,fun addr => lookup_kept dataEnd body addr⟩
          rw [loadLines_fits fewer]
          exact congrArg (fun entries => some (insertAll entries ∅)) (kept_filter dataEnd body)
      · refine ⟨∅,?_,fun _ _ found => absurd found nofun,?_⟩
        · rw [loadChecked,split]
          exact if_neg magic
        · intro other same second body header
          cases same
          rw [split] at header
          cases header
          exact absurd rfl magic

/-- Loading a sidecar is robust exactly when no entry of it ends past the offsets of
    64 bits. -/
theorem load_robust_iff (sidecar : Option (List Char)) (dataEnd : Nat) : Robust sidecar dataEnd ↔ Ends sidecar := by
  refine ⟨?_,fun ends => robust_of_ends ends dataEnd⟩
  rintro ⟨index,loaded,-⟩ text rfl e member
  by_contra beyond
  cases split : lines text with
  | nil =>
    rw [entriesOf,split] at member
    cases member
  | cons first more =>
    by_cases magic : first = indexMagic
    · subst magic
      rw [entriesOf_lines split] at member
      rw [loadChecked,split,loadLines,if_pos rfl,foldlM_stuck member beyond] at loaded
      cases loaded
    · rw [entriesOf,split] at member
      simp only [if_neg magic] at member
      cases member

/-- An entry of one byte at the last offset of 64 bits. -/
def lastByte : Entries := [⟨List.Vector.replicate 32 0,⟨2 ^ 64 - 1,1⟩⟩]

/-- A sidecar with that entry, of a data file of four bytes: its loading overflows, and
    where sums wrap the entry is admitted. -/
theorem lastByte_admitted : ¬Robust (some (sidecarText 4 lastByte)) 4 ∧
    ∃ addr e, (loadIndex (some (sidecarText 4 lastByte)) 4).lookup addr = some e ∧ 4 < e.offset.val + e.length.val := by
  constructor
  · intro robust
    have ends := (load_robust_iff _ 4).mp robust (sidecarText 4 lastByte) rfl
    rw [entriesOf_sidecarText] at ends
    exact absurd (ends _ List.mem_cons_self) (by decide)
  · refine ⟨List.Vector.replicate 32 0,⟨2 ^ 64 - 1,1⟩,?_,by decide⟩
    rw [loadIndex,entriesOf_sidecarText]
    rfl

end Directswarm.IndexLoading
