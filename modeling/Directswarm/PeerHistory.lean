import Mathlib.Order.Bounds.Basic
import Directswarm.PeerRecords

/-!
What a store of peers remembers over many runs of the program (`peerstate.rs`).
Calls of `record` follow one another, each writes the whole table, and the store
may be opened again between any two of them, so that what it knows of a peer has
gone through the text of the table any number of times. It is the fold of the
observations of that peer all the same, from what the first file said of it
(`history_kept`): a maximum, sums that saturate, halving averages and last values
(`Remembers`). The first file may have been written before the last columns
existed (`openText_layout`).
-/
namespace Directswarm.PeerHistory
open Directswarm.Runs Directswarm.Text Directswarm.Files Directswarm.Maps Directswarm.PeerTable Directswarm.PeerRecords

/-! ### Calls one after the other -/

inductive Act
  /-- A call of `record` at a time, with the order in which the map is enumerated
      and the file operations of its `save`. -/
  | record (overlay : Overlay) (obs : PeerObservation) (now : Word) (snapshot : Entries) (saves : List SaveAct)
  /-- `PeerStateStore::open`, by a new process. -/
  | reopen

/-- The save of a text, from its beginning. -/
def saveFrom (files : Replacing Char) (text : List Char) (saves : List SaveAct) : Option (Replacing Char × Saving Char) :=
  run (fun state act => saveStep '\x00' state.1 state.2 act) (files,.directory text) saves

/-- One call, in a run in which every save is done. -/
def step (store : Store) : Act → Option Store
  | .record overlay obs now snapshot saves =>
    let map := recordEntry store.map overlay obs now
    if (snapshot : Multiset _) = map.entries then
      match saveFrom store.files (table snapshot) saves with
      | some (files,.finished true) => some ⟨map,files⟩
      | _ => none
    else none
  | .reopen => some ⟨openText store.files.read,store.files⟩

/-- The store of the first process. -/
def started (files : Replacing Char) : Store := ⟨openText files.read,files⟩

/-- `PeerStateStore::get`. -/
def get (store : Store) (overlay : Overlay) : Option PeerState := store.map.lookup overlay

/-- The observations of a peer, with their times. -/
def seenOf (overlay : Overlay) (acts : List Act) : List (PeerObservation × Word) :=
  acts.filterMap fun act =>
    match act with
    | .record other obs now _ _ => if other = overlay then some (obs,now) else none
    | .reopen => none

/-- A done save leaves its text under the path. -/
theorem saveFrom_read {files next : Replacing Char} {text : List Char} {saves : List SaveAct}
    (saved : saveFrom files text saves = some (next,.finished true)) : next.read = some text := by
  have keep : ∀ (state : Replacing Char × Saving Char) (act : SaveAct) (after : Replacing Char × Saving Char),
      Stands state.1 text state.2 → saveStep '\x00' state.1 state.2 act = some after → Stands after.1 text after.2 :=
    fun _ _ _ stands taken => (save_step stands taken).1
  exact run_invariant keep (show Stands files text (.directory text) from rfl) saved

/-- What a call of `record` does when its save is done. -/
theorem step_record {store next : Store} {overlay : Overlay} {obs : PeerObservation} {now : Word} {snapshot : Entries}
    {saves : List SaveAct} (taken : step store (.record overlay obs now snapshot saves) = some next) :
    next.map = recordEntry store.map overlay obs now ∧ openText next.files.read = next.map := by
  simp only [step] at taken
  split at taken
  · rename_i all
    split at taken
    · rename_i files saved
      cases taken
      refine ⟨rfl,?_⟩
      rw [saveFrom_read saved,openText_table all]
    · cases taken
  · cases taken

/-- Every call can be made, and its save be done. -/
theorem record_enabled (store : Store) (overlay : Overlay) (obs : PeerObservation) (now : Word) :
    ∃ snapshot saves next, step store (.record overlay obs now snapshot saves) = some next := by
  obtain ⟨snapshot,all⟩ := Quotient.exists_rep (recordEntry store.map overlay obs now).entries
  obtain ⟨files,saved,-⟩ := save_alone '\x00' store.files (table_ne_nil snapshot)
  refine ⟨snapshot,savedWhole (table snapshot),⟨recordEntry store.map overlay obs now,files⟩,?_⟩
  have done : saveFrom store.files (table snapshot) (savedWhole (table snapshot)) = some (files,.finished true) := saved
  rw [step,done]
  exact if_pos all

theorem lookup_recordEntry (map : PeerMap) (overlay : Overlay) (obs : PeerObservation) (now : Word) :
    (recordEntry map overlay obs now).lookup overlay =
      some (merge now ((map.lookup overlay).getD PeerState.default) obs) := Finmap.lookup_insert map

theorem lookup_recordEntry_other {overlay other : Overlay} (apart : other ≠ overlay) (map : PeerMap)
    (obs : PeerObservation) (now : Word) : (recordEntry map overlay obs now).lookup other = map.lookup other :=
  Finmap.lookup_insert_of_ne map apart

/-! ### What is remembered of a peer -/

/-- A sample joins the average, which begins with the first sample above zero. -/
def halving (average sample : Half) : Half := if average = 0 then sample else midpoint average sample

/-- What is known of a peer after its observations, beginning with what was known. -/
structure Remembers (before : PeerState) (seen : List (PeerObservation × Word)) (e : PeerState) : Prop where
  /-- The largest threshold. -/
  threshold : IsGreatest {t | t = before.threshold_last ∨ ∃ o ∈ seen, t = o.1.threshold} e.threshold_last
  /-- The last latency that was measured. -/
  lambda : e.lambda_ms = ((seen.filterMap fun o => o.1.lambda_ms).getLast?).or before.lambda_ms
  /-- All the units settled, or as many as a word holds. -/
  settled : e.settled_units.val =
    min (before.settled_units.val + (seen.map fun o => o.1.settled_units_delta.val).sum) (2 ^ 64 - 1)
  /-- The average of the samples. -/
  service : e.service_cps_x10 = (seen.filterMap fun o => o.1.service_cps_x10).foldl halving before.service_cps_x10
  /-- The last surplus. -/
  surplus : e.surplus_units = ((seen.filterMap fun o => o.1.surplus_units_abs).getLast?).getD before.surplus_units
  /-- The time of the last clean close. -/
  last_ok : e.last_ok_unix =
    (((seen.filter fun o => o.1.clean_close).map Prod.snd).getLast?).getD before.last_ok_unix

theorem saturatingAdd_val (a b : Word) : (saturatingAdd a b).val = min (a.val + b.val) (2 ^ 64 - 1) := by
  unfold saturatingAdd
  split <;> simp only <;> omega

theorem remembers_nil (before : PeerState) : Remembers before [] before where
  threshold := by
    refine ⟨.inl rfl,?_⟩
    rintro t (rfl | ⟨o,member,-⟩)
    · exact le_refl _
    · cases member
  lambda := rfl
  settled := by
    have fits := before.settled_units.isLt
    simp only [List.map_nil,List.sum_nil]
    omega
  service := rfl
  surplus := rfl
  last_ok := rfl

/-- One more observation. -/
theorem remembers_merge {before e : PeerState} {seen : List (PeerObservation × Word)} (known : Remembers before seen e)
    (obs : PeerObservation) (now : Word) : Remembers before (seen ++ [(obs,now)]) (merge now e obs) where
  threshold := by
    obtain ⟨here,most⟩ := known.threshold
    refine ⟨?_,?_⟩
    · show max e.threshold_last obs.threshold = before.threshold_last ∨
        ∃ o ∈ seen ++ [(obs,now)], max e.threshold_last obs.threshold = o.1.threshold
      rcases max_choice e.threshold_last obs.threshold with same | same <;> rw [same]
      · rcases here with old | ⟨o,member,old⟩
        · exact .inl old
        · exact .inr ⟨o,List.mem_append_left _ member,old⟩
      · exact .inr ⟨(obs,now),List.mem_append_right _ (List.mem_singleton_self _),rfl⟩
    · show ∀ t, _ → t ≤ max e.threshold_last obs.threshold
      rintro t (rfl | ⟨o,member,rfl⟩)
      · exact le_max_of_le_left (most (.inl rfl))
      · rcases List.mem_append.mp member with old | new
        · exact le_max_of_le_left (most (.inr ⟨o,old,rfl⟩))
        · rw [List.mem_singleton.mp new]
          exact le_max_right _ _
  lambda := by
    show (if obs.lambda_ms.isSome then obs.lambda_ms else e.lambda_ms) = _
    rw [List.filterMap_append,known.lambda]
    cases at_ : obs.lambda_ms with
    | none => simp [at_]
    | some l => simp [at_]
  settled := by
    show (saturatingAdd e.settled_units obs.settled_units_delta).val = _
    rw [saturatingAdd_val,known.settled,List.map_append,List.sum_append]
    show _ = min (_ + (_ + (obs.settled_units_delta.val + 0))) _
    omega
  service := by
    rw [List.filterMap_append,List.foldl_append,← known.service]
    cases at_ : obs.service_cps_x10 with
    | none => simp [merge,at_]
    | some r => simp [merge,at_,halving]
  surplus := by
    show obs.surplus_units_abs.getD e.surplus_units = _
    rw [List.filterMap_append,known.surplus]
    cases at_ : obs.surplus_units_abs with
    | none => simp [at_]
    | some units => simp [at_]
  last_ok := by
    show (if obs.clean_close then now else e.last_ok_unix) = _
    rw [List.filter_append,List.map_append,known.last_ok]
    cases at_ : obs.clean_close with
    | false => simp [at_]
    | true => simp [at_]

/-! ### Over a run -/

/-- What a store that began with one entry of a peer finds for it after some
    observations of that peer. -/
def Tracks (before : Option PeerState) (seen : List (PeerObservation × Word)) (found : Option PeerState) : Prop :=
  (seen = [] → found = before) ∧ (seen ≠ [] → ∃ e, found = some e ∧ Remembers (before.getD PeerState.default) seen e)

/-- What there was of the peer, or the default, remembers in either case. -/
theorem tracks_remembers {before found : Option PeerState} {seen : List (PeerObservation × Word)}
    (tracks : Tracks before seen found) :
    Remembers (before.getD PeerState.default) seen (found.getD PeerState.default) := by
  by_cases none_ : seen = []
  · subst none_
    rw [tracks.1 rfl]
    exact remembers_nil _
  · obtain ⟨e,rfl,known⟩ := tracks.2 none_
    exact known

/-- The table always reads as the map, and each peer is tracked. -/
def Kept (files : Replacing Char) (past : List Act) (store : Store) : Prop :=
  openText store.files.read = store.map ∧
    ∀ overlay, Tracks ((openText files.read).lookup overlay) (seenOf overlay past) (store.map.lookup overlay)

theorem kept_step {files : Replacing Char} {past : List Act} {store next : Store} {act : Act}
    (kept : Kept files past store) (taken : step store act = some next) : Kept files (past ++ [act]) next := by
  obtain ⟨disk,tracks⟩ := kept
  cases act with
  | reopen =>
    cases taken
    refine ⟨rfl,fun overlay => ?_⟩
    have nothing : seenOf overlay (past ++ [.reopen]) = seenOf overlay past := by simp [seenOf]
    rw [nothing]
    show Tracks _ _ ((openText store.files.read).lookup overlay)
    rw [disk]
    exact tracks overlay
  | record overlay obs now snapshot saves =>
    obtain ⟨map,written⟩ := step_record taken
    refine ⟨written,fun other => ?_⟩
    rw [map]
    by_cases same : overlay = other
    · subst same
      have more : seenOf overlay (past ++ [.record overlay obs now snapshot saves]) = seenOf overlay past ++ [(obs,now)] := by
        simp [seenOf]
      rw [more,lookup_recordEntry]
      refine ⟨fun empty => ?_,fun _ => ⟨_,rfl,remembers_merge (tracks_remembers (tracks overlay)) obs now⟩⟩
      simp at empty
    · have nothing : seenOf other (past ++ [.record overlay obs now snapshot saves]) = seenOf other past := by
        simp [seenOf,same]
      rw [nothing,lookup_recordEntry_other (Ne.symm same)]
      exact tracks other

/-- What a store finds after a run of calls and restarts. -/
theorem history_kept {files : Replacing Char} {acts : List Act} {final : Store}
    (reached : run step (started files) acts = some final) (overlay : Overlay) :
    Tracks ((openText files.read).lookup overlay) (seenOf overlay acts) (get final overlay) := by
  have start : Kept files [] (started files) := ⟨rfl,fun overlay => ⟨fun _ => rfl,fun some_ => absurd rfl some_⟩⟩
  have keep : ∀ past store act next, Kept files past store → (fun _ _ => True) store act → step store act = some next →
      Kept files (past ++ [act]) next := fun _ _ _ _ kept _ taken => kept_step kept taken
  exact (run_history keep start (meets_true _ acts) reached).2 overlay

/-! ### Tables with fewer columns -/

/-- How many columns a table was written with. -/
inductive Layout
  | five
  | six
  | seven

def Layout.width : Layout → Nat
  | .five => 5
  | .six => 6
  | .seven => 7

/-- What a table of a layout says of an entry: the columns it lacks are zero. -/
def Layout.said : Layout → PeerState → PeerState
  | .five, s => { s with service_cps_x10 := 0, surplus_units := 0 }
  | .six, s => { s with surplus_units := 0 }
  | .seven, s => s

/-- The names of the columns of a layout, with which the header of today begins. -/
def Layout.header : Layout → List Char
  | .five => PeerTable.header.take 63
  | .six => PeerTable.header.take 79
  | .seven => PeerTable.header

/-- The table as it was written in a layout. -/
def layoutTable (layout : Layout) (entries : Entries) : List Char :=
  layout.header ++ '\n' :: csvRows (fun e => (columns e).take layout.width) entries

/-- The layout of today is that of `save`. -/
theorem layoutTable_seven (entries : Entries) : layoutTable .seven entries = table entries := rfl

theorem layout_clean (layout : Layout) (e : Σ _ : Overlay, PeerState) :
    ∀ column ∈ (columns e).take layout.width, Clean column :=
  fun column member => columns_clean e column (List.mem_of_mem_take member)

theorem readRow_layout (layout : Layout) (e : Σ _ : Overlay, PeerState) :
    readRow (csvRow ((columns e).take layout.width)) = some ⟨e.1,layout.said e.2⟩ := by
  have some_ : (columns e).take layout.width ≠ [] := by cases layout <;> exact List.cons_ne_nil _ _
  have split := splitOn_csvRow (layout_clean layout e) some_
  obtain ⟨overlay,s⟩ := e
  unfold readRow
  rw [split]
  cases layout <;>
    simp only [columns,Layout.width,Layout.said,List.take_succ_cons,List.take_zero,Resume.parseHex32_hexOf,Option.map_some,
      parseWord_decimal,parseWord_lambdaColumn,Option.getD_some,List.getElem?_cons_zero,List.getElem?_cons_succ,
      List.getElem?_nil,Option.bind_some,Option.bind_none,Option.getD_none]

private theorem layout_line (layout : Layout) : '\n' ∉ layout.header ∧ layout.header.getLast? ≠ some '\r' := by
  have part : ∀ c ∈ layout.header, c ∈ PeerTable.header := by
    intro c member
    cases layout with
    | five | six => exact List.mem_of_mem_take member
    | seven => exact member
  exact ⟨fun member => header_bare.1 (part _ member),
    fun last => header_bare.2 (part _ (List.mem_of_getLast? last))⟩

/-- A table of any layout reads as its rows, in their order. -/
theorem openText_layout (layout : Layout) (entries : Entries) :
    openText (some (layoutTable layout entries)) = insertAll (entries.map fun e => ⟨e.1,layout.said e.2⟩) ∅ := by
  obtain ⟨bare,ended⟩ := layout_line layout
  have rows : (entries.map fun e => csvRow ((columns e).take layout.width)).filterMap readRow =
      entries.map fun e => ⟨e.1,layout.said e.2⟩ := by
    rw [List.filterMap_map,← List.filterMap_eq_map]
    exact List.filterMap_congr fun e _ => readRow_layout layout e
  rw [openText,layoutTable,lines_cons bare ended,List.drop_one,List.tail_cons,lines_csvRows (layout_clean layout),rows]

/-! ### Across restarts -/

/-- The file that the first process finds, if there is one. -/
def firstFile : Option (Layout × Entries) → Option (List Char)
  | none => none
  | some (layout,entries) => some (layoutTable layout entries)

/-- What that file says of the peers: of two rows of one peer, the later one counts. -/
def firstMap : Option (Layout × Entries) → PeerMap
  | none => ∅
  | some (layout,entries) => insertAll (entries.map fun e => ⟨e.1,layout.said e.2⟩) ∅

theorem openText_firstFile (first : Option (Layout × Entries)) : openText (firstFile first) = firstMap first := by
  cases first with
  | none => rfl
  | some written => exact openText_layout written.1 written.2

/-- Calls of `record` one after the other, with restarts anywhere between them and
    from a file of any layout: what is known of a peer is what its own observations
    make of what the file said of it. -/
theorem folds_across_restarts {first : Option (Layout × Entries)} {files : Replacing Char} {acts : List Act} {final : Store}
    (file : files.read = firstFile first) (reached : run step (started files) acts = some final) (overlay : Overlay) :
    Tracks ((firstMap first).lookup overlay) (seenOf overlay acts) (get final overlay) := by
  rw [← openText_firstFile,← file]
  exact history_kept reached overlay

/-- A row from before the service rate was kept. -/
def oldRow : Σ _ : Overlay, PeerState := ⟨someOverlay,{ PeerState.default with threshold_last := 9450000, settled_units := 500 }⟩

/-- Two sessions with a restart between them, from a file of five columns. -/
theorem folds_across_restarts_two : ∃ acts final,
    run step (started (.holding (firstFile (some (.five,[oldRow]))))) acts = some final ∧
    seenOf someOverlay acts = [(settledOnce,0),(leftSurplus,0)] ∧
    Tracks (some oldRow.2) [(settledOnce,0),(leftSurplus,0)] (get final someOverlay) := by
  obtain ⟨one,saves,middle,first⟩ :=
    record_enabled (started (.holding (firstFile (some (.five,[oldRow]))))) someOverlay settledOnce 0
  obtain ⟨two,more,final,second⟩ := record_enabled ⟨openText middle.files.read,middle.files⟩ someOverlay leftSurplus 0
  have reached : run step (started (.holding (firstFile (some (.five,[oldRow])))))
      [.record someOverlay settledOnce 0 one saves,.reopen,.record someOverlay leftSurplus 0 two more] = some final := by
    rw [run_cons,first,Option.bind_some,run_cons,step,Option.bind_some,run_one second]
  refine ⟨_,final,reached,rfl,?_⟩
  exact folds_across_restarts (Replacing.read_holding (firstFile (some (.five,[oldRow])))) reached someOverlay

end Directswarm.PeerHistory
