import Directswarm.Files
import Directswarm.Interleaving
import Directswarm.PeerTable

/-!
Concurrent calls of `PeerStateStore::record`. Each call merges its observation and
takes a snapshot under the lock, and saves the snapshot with the lock released, so
the saves of different calls interleave through one temporary name. Snapshots that
are written in the order in which they were taken, one at a time, leave the map on
disk (`records_kept`); a snapshot that is renamed after a later one leaves the map
of an earlier moment there (`record_lost`).
-/
namespace Directswarm.PeerRecords
open Directswarm.Runs Directswarm.Interleaving Directswarm.Files Directswarm.PeerTable

/-- What the calls share. -/
structure Store where
  map : PeerMap
  files : Replacing Char

/-- A call of `record` that has released the lock. -/
structure Call where
  snapshot : Entries
  saving : Saving Char
  deriving DecidableEq

/-- The store and the calls that were made of it, in the order of their snapshots. -/
abbrev Records := Shared Store Call

inductive Act
  /-- The part under the lock, at a time, with the order in which the hash map is
      enumerated. -/
  | record (overlay : Overlay) (obs : PeerObservation) (now : Word) (snapshot : Entries)
  /-- A call goes on with `save`. -/
  | save (i : Nat) (act : SaveAct)

/-- One step of the `save` of a call. -/
def callStep (store : Store) (call : Call) (act : SaveAct) : Option (Store × Call) :=
  (saveStep '\x00' store.files call.saving act).map fun moved =>
    ({ store with files := moved.1 },{ call with saving := moved.2 })

def step (sys : Records) : Act → Option Records
  | .record overlay obs now snapshot =>
    let map := recordEntry sys.common.map overlay obs now
    if (snapshot : Multiset _) = map.entries then
      some ⟨{ sys.common with map := map },sys.parties ++ [⟨snapshot,.directory (table snapshot)⟩]⟩
    else none
  | .save i act => stepAt callStep sys i act

/-- `PeerStateStore::open`, before any call. -/
def opened (files : Replacing Char) : Records := ⟨⟨openText files.read,files⟩,[]⟩

def Saving.returned : Saving Char → Bool
  | .finished _ => true
  | _ => false

/-- `File::create` is next. -/
def Saving.creates : Saving Char → Bool
  | .creating _ => true
  | _ => false

/-- Every call has returned. -/
def Quiet (sys : Records) : Prop := ∀ call ∈ sys.parties, Saving.returned call.saving = true

/-- No file operation fails. -/
def NoError (_ : Records) : Act → Prop
  | .save _ (.io false) => False
  | _ => True

/-- A call creates its temporary file when those that took their snapshots before
    it have returned. -/
def InTurn (sys : Records) : Act → Prop
  | .save i (.io true) => ∀ call ∈ sys.parties[i]?, Saving.creates call.saving = true →
      ∀ earlier ∈ sys.parties.take i, Saving.returned earlier.saving = true
  | _ => True

instance (sys : Records) : (act : Act) → Decidable (NoError sys act)
  | .save _ (.io false) => isFalse id
  | .save _ (.io true) | .save _ (.land _) | .record _ _ _ _ => isTrue trivial

instance (sys : Records) : (act : Act) → Decidable (InTurn sys act)
  | .save i (.io true) => inferInstanceAs (Decidable (∀ call ∈ sys.parties[i]?, Saving.creates call.saving = true →
      ∀ earlier ∈ sys.parties.take i, Saving.returned earlier.saving = true))
  | .save _ (.io false) | .save _ (.land _) | .record _ _ _ _ => isTrue trivial

/-! ### The invariant -/

/-- The save has not touched the files. -/
def Waits (text : List Char) (saving : Saving Char) : Prop := saving = .directory text ∨ saving = .creating text

/-- The calls before the `k`-th have returned, those after it have not touched the
    files, and the last snapshot is of the map as it is. -/
structure Ordered (sys : Records) (k : Nat) : Prop where
  inside : k ≤ sys.parties.length
  before : ∀ (j : Nat) (call : Call), j < k → sys.parties[j]? = some call → call.saving = .finished true
  current : ∀ call, sys.parties[k]? = some call →
    Stands sys.common.files (table call.snapshot) call.saving ∧ Saving.returned call.saving = false
  after : ∀ (j : Nat) (call : Call), k < j → sys.parties[j]? = some call → Waits (table call.snapshot) call.saving
  last : ∀ call, sys.parties.getLast? = some call → (call.snapshot : Multiset _) = sys.common.map.entries
  disk : sys.parties.length = k → openText sys.common.files.read = sys.common.map

theorem ordered_opened (files : Replacing Char) : Ordered (opened files) 0 :=
  ⟨Nat.le_refl 0,by simp,by simp [opened],by simp [opened],by simp [opened],fun _ => rfl⟩

theorem ordered_record {sys : Records} {k : Nat} (inv : Ordered sys k) {map : PeerMap} {snapshot : Entries}
    (all : (snapshot : Multiset _) = map.entries) :
    Ordered ⟨{ sys.common with map := map },sys.parties ++ [⟨snapshot,.directory (table snapshot)⟩]⟩ k := by
  have inside := inv.inside
  have found : ∀ (j : Nat) (call : Call), (sys.parties ++ [⟨snapshot,.directory (table snapshot)⟩])[j]? = some call →
      sys.parties[j]? = some call ∨ j = sys.parties.length ∧ call = ⟨snapshot,.directory (table snapshot)⟩ := by
    intro j call there
    by_cases old : j < sys.parties.length
    · rw [List.getElem?_append_left old] at there; exact .inl there
    · rw [List.getElem?_append_right (by omega),List.getElem?_singleton] at there
      split at there
      · exact .inr ⟨by omega,(Option.some.inj there).symm⟩
      · cases there
  refine ⟨?_,?_,?_,?_,?_,?_⟩
  · rw [List.length_append]; omega
  · intro j call low there
    rcases found j call there with old | ⟨rfl,-⟩
    · exact inv.before j call low old
    · omega
  · intro call there
    rcases found k call there with old | ⟨-,rfl⟩
    · exact inv.current call old
    · exact ⟨rfl,rfl⟩
  · intro j call high there
    rcases found j call there with old | ⟨-,rfl⟩
    · exact inv.after j call high old
    · exact .inl rfl
  · intro call there
    rw [List.getLast?_concat] at there
    cases there; exact all
  · intro short
    rw [List.length_append,List.length_singleton] at short; omega

/-- A waiting save goes on to wait, unless it creates its file. -/
theorem waits_step {fs next : Replacing Char} {text : List Char} {saving moved : Saving Char} {act : SaveAct}
    (waits : Waits text saving) (quiet : act ≠ .io false) (still : Saving.creates saving = false)
    (taken : saveStep '\x00' fs saving act = some (next,moved)) : next = fs ∧ Waits text moved := by
  rcases waits with rfl | rfl
  · cases act with
    | land more => cases taken
    | io ok =>
      cases ok with
      | false => exact absurd rfl quiet
      | true => cases taken; exact ⟨rfl,.inr rfl⟩
  · cases still

/-- The call that is at work goes on, and hands over to the next one. -/
theorem ordered_turn {sys : Records} {k : Nat} (inv : Ordered sys k) {call : Call} {next : Replacing Char}
    {moved : Saving Char} {act : SaveAct} (found : sys.parties[k]? = some call) (quiet : act ≠ .io false)
    (taken : saveStep '\x00' sys.common.files call.saving act = some (next,moved)) :
    ∃ k', Ordered ⟨{ sys.common with files := next },sys.parties.set k { call with saving := moved }⟩ k' := by
  obtain ⟨stands,-⟩ := inv.current call found
  obtain ⟨kept,fails,-⟩ := save_step stands taken
  have inside : k < sys.parties.length := (List.getElem?_eq_some_iff.mp found).1
  have here := @getElem?_set_moved _ sys.parties k call { call with saving := moved } found
  have last : ∀ other, (sys.parties.set k { call with saving := moved }).getLast? = some other →
      (other.snapshot : Multiset _) = sys.common.map.entries := by
    intro other there
    rw [List.getLast?_eq_getElem?,List.length_set] at there
    by_cases same : k = sys.parties.length - 1
    · rw [← same,here] at there
      cases there
      exact inv.last call (by rw [List.getLast?_eq_getElem?,← same,found])
    · rw [getElem?_set_other same] at there
      exact inv.last other (by rw [List.getLast?_eq_getElem?,there])
  have early : ∀ (j : Nat) (other : Call), j < k → (sys.parties.set k { call with saving := moved })[j]? = some other →
      other.saving = .finished true := by
    intro j other low there
    rw [getElem?_set_other (by omega)] at there
    exact inv.before j other low there
  have late : ∀ (j : Nat) (other : Call), k < j → (sys.parties.set k { call with saving := moved })[j]? = some other →
      Waits (table other.snapshot) other.saving := by
    intro j other high there
    rw [getElem?_set_other (by omega)] at there
    exact inv.after j other high there
  by_cases done : Saving.returned moved = true
  · -- It returned, and without an error it renamed its text over the path.
    obtain ⟨ok,rfl⟩ : ∃ ok, moved = .finished ok := by
      cases moved <;> first | exact ⟨_,rfl⟩ | cases done
    have well : ok = true := by
      cases ok with
      | true => rfl
      | false => exact absurd (fails rfl) quiet
    subst well
    refine ⟨k + 1,by rw [List.length_set]; omega,?_,?_,fun j other high there => late j other (by omega) there,last,?_⟩
    · intro j other low there
      rcases Nat.lt_succ_iff_lt_or_eq.mp low with before | rfl
      · exact early j other before there
      · rw [here] at there; cases there; rfl
    · intro other there
      rcases late (k + 1) other (by omega) there with waits | waits <;> rw [waits] <;> exact ⟨rfl,rfl⟩
    · intro short
      rw [List.length_set] at short
      have snapshot := inv.last call (by rw [List.getLast?_eq_getElem?,short,Nat.add_sub_cancel,found])
      show openText next.read = _
      rw [show next.read = some (table call.snapshot) from kept,openText_table snapshot]
  · refine ⟨k,by rw [List.length_set]; omega,early,?_,late,last,?_⟩
    · intro other there
      rw [here] at there
      cases there
      exact ⟨kept,by simpa using done⟩
    · intro short
      rw [List.length_set] at short; omega

theorem ordered_step {sys next : Records} {k : Nat} {act : Act} (inv : Ordered sys k)
    (met : NoError sys act ∧ InTurn sys act) (taken : step sys act = some next) : ∃ k', Ordered next k' := by
  cases act with
  | record overlay obs now snapshot =>
    simp only [step] at taken
    split at taken
    · rename_i all; cases taken; exact ⟨k,ordered_record inv all⟩
    · cases taken
  | save i act =>
    obtain ⟨call,store,call',found,moves,rfl⟩ := stepAt_some.mp taken
    obtain ⟨⟨files,saving⟩,saved,both⟩ := Option.map_eq_some_iff.mp moves
    cases both
    have quiet : act ≠ .io false := by rintro rfl; exact met.1
    rcases Nat.lt_trichotomy i k with low | rfl | high
    · rw [inv.before i call low found] at saved
      cases act <;> cases saved
    · exact ordered_turn inv found quiet saved
    · -- A later call waits: its turn to create comes when the current one has returned.
      have still : Saving.creates call.saving = false := by
        by_contra creates
        rw [Bool.not_eq_false] at creates
        have isIo : act = .io true := by
          rcases inv.after i call high found with waits | waits <;> rw [waits] at saved creates
          · cases creates
          · cases act with
            | land more => cases saved
            | io ok =>
              cases ok with
              | false => exact absurd rfl quiet
              | true => rfl
        subst isIo
        have inside : k < sys.parties.length := by
          have := (List.getElem?_eq_some_iff.mp found).1; omega
        have busy := (inv.current sys.parties[k] (List.getElem?_eq_getElem inside)).2
        have member : sys.parties[k] ∈ sys.parties.take i := by
          rw [List.mem_take_iff_getElem]; exact ⟨k,by omega,rfl⟩
        rw [met.2 call found creates _ member] at busy
        cases busy
      obtain ⟨rfl,waits⟩ := waits_step (inv.after i call high found) quiet still saved
      have elsewhere : ∀ {j : Nat}, j < i → (sys.parties.set i { call with saving := saving })[j]? = sys.parties[j]? :=
        fun low => getElem?_set_other (by omega)
      refine ⟨k,by rw [List.length_set]; exact inv.inside,?_,?_,?_,?_,?_⟩
      · intro j other low there
        rw [elsewhere (by omega)] at there
        exact inv.before j other low there
      · intro other there
        rw [elsewhere high] at there
        exact inv.current other there
      · intro j other later there
        by_cases same : i = j
        · subst same
          rw [getElem?_set_moved found] at there
          cases there; exact waits
        · rw [getElem?_set_other same] at there
          exact inv.after j other later there
      · intro other there
        rw [List.getLast?_eq_getElem?,List.length_set] at there
        by_cases same : i = sys.parties.length - 1
        · rw [← same,getElem?_set_moved found] at there
          cases there
          exact inv.last call (by rw [List.getLast?_eq_getElem?,← same,found])
        · rw [getElem?_set_other same] at there
          exact inv.last other (by rw [List.getLast?_eq_getElem?,there])
      · intro short
        rw [List.length_set] at short
        exact inv.disk short

/-- Once the calls of a run without errors have all returned, and each created its
    temporary file in its turn, opening the file again gives the map. -/
theorem records_kept {files : Replacing Char} {acts : List Act} {final : Records}
    (met : Meets step (fun sys act => NoError sys act ∧ InTurn sys act) (opened files) acts)
    (reached : run step (opened files) acts = some final) (quiet : Quiet final) :
    openText final.common.files.read = final.common.map := by
  have keep : ∀ sys act next, (∃ k, Ordered sys k) → NoError sys act ∧ InTurn sys act → step sys act = some next →
      ∃ k, Ordered next k := by
    rintro sys act next ⟨k,inv⟩ turn taken
    exact ordered_step inv turn taken
  obtain ⟨k,inv⟩ := run_guarded keep ⟨0,ordered_opened files⟩ met reached
  refine inv.disk (Nat.le_antisymm ?_ inv.inside)
  by_contra short
  have inside : k < final.parties.length := by omega
  have busy := (inv.current final.parties[k] (List.getElem?_eq_getElem inside)).2
  rw [quiet _ (List.getElem_mem inside)] at busy
  cases busy

/-! ### Runs of two calls -/

theorem table_ne_nil (entries : Entries) : table entries ≠ [] := by simp [table]

/-- A call that saves while the others rest leaves its snapshot on disk. -/
theorem save_leads {condition : Records → Act → Prop} {sys : Records} {i : Nat} {snapshot : Entries}
    (found : sys.parties[i]? = some ⟨snapshot,.directory (table snapshot)⟩)
    (allowed : ∀ store call, ∀ act ∈ savedWhole (table snapshot), condition ⟨store,sys.parties.set i call⟩ (.save i act)) :
    ∃ files, files.read = some (table snapshot) ∧
      Leads step condition sys ⟨{ sys.common with files := files },sys.parties.set i ⟨snapshot,.finished true⟩⟩ := by
  obtain ⟨files,saved,read⟩ := save_alone '\x00' sys.common.files (table_ne_nil snapshot)
  have called : ∀ (acts : List SaveAct) (store : Store) (saving after : Saving Char) (left : Replacing Char),
      run (fun state act => saveStep '\x00' state.1 state.2 act) (store.files,saving) acts = some (left,after) →
      run (fun (state : Store × Call) act => callStep state.1 state.2 act) (store,⟨snapshot,saving⟩) acts =
        some ({ store with files := left },⟨snapshot,after⟩) := by
    intro acts
    induction acts with
    | nil => intro store saving after left reached; cases reached; rfl
    | cons act rest ih =>
      intro store saving after left reached
      obtain ⟨⟨next,moved⟩,taken,onward⟩ := run_cons_some.mp reached
      refine run_cons_some.mpr ⟨({ store with files := next },⟨snapshot,moved⟩),?_,ih _ _ _ _ onward⟩
      exact Option.map_eq_some_iff.mpr ⟨_,taken,rfl⟩
  have agrees : ∀ (state : Records) (act : SaveAct), step state (.save i act) = stepAt callStep state i act := fun _ _ => rfl
  exact ⟨files,read,leads_party agrees found allowed (called _ sys.common _ _ _ saved)⟩

theorem savedWhole_noError {text : List Char} {act : SaveAct} (member : act ∈ savedWhole text) (sys : Records) (i : Nat) :
    NoError sys (.save i act) := by
  simp only [savedWhole,List.mem_cons,List.not_mem_nil,or_false] at member
  rcases member with rfl | rfl | rfl | rfl | rfl | rfl <;> trivial

/-- The overlay of the examples. -/
def someOverlay : Overlay := List.Vector.replicate 32 7
/-- A session that settled some units. -/
def settledOnce : PeerObservation := { PeerObservation.default with threshold := 1350000, settled_units_delta := 1000 }
/-- A session that left a surplus. -/
def leftSurplus : PeerObservation := { PeerObservation.default with surplus_units_abs := some 42 }

/-- The snapshots of the two sessions. -/
def firstSnapshot : Entries := [⟨someOverlay,merge 0 PeerState.default settledOnce⟩]
def secondSnapshot : Entries := [⟨someOverlay,merge 0 (merge 0 PeerState.default settledOnce) leftSurplus⟩]

/-- A store whose file does not exist. -/
def empty : Records := opened (.holding none)

/-- Both calls have released the lock, and neither has touched the files. -/
def bothMerged : Records :=
  ⟨⟨recordEntry (recordEntry ∅ someOverlay settledOnce 0) someOverlay leftSurplus 0,.holding none⟩,
    [⟨firstSnapshot,.directory (table firstSnapshot)⟩,⟨secondSnapshot,.directory (table secondSnapshot)⟩]⟩

theorem first_merged : (firstSnapshot : Multiset _) = (recordEntry ∅ someOverlay settledOnce 0).entries := by decide

theorem second_merged : (secondSnapshot : Multiset _) =
    (recordEntry (recordEntry ∅ someOverlay settledOnce 0) someOverlay leftSurplus 0).entries := by decide

/-- Both calls take their snapshots before either saves. -/
theorem merge_leads {condition : Records → Act → Prop}
    (allowed : ∀ sys overlay obs now snapshot, condition sys (.record overlay obs now snapshot)) :
    Leads step condition empty bothMerged := by
  have first : step empty (.record someOverlay settledOnce 0 firstSnapshot) =
      some ⟨⟨recordEntry ∅ someOverlay settledOnce 0,.holding none⟩,
        [⟨firstSnapshot,.directory (table firstSnapshot)⟩]⟩ := by
    rw [step]; exact if_pos first_merged
  have second : step ⟨⟨recordEntry ∅ someOverlay settledOnce 0,.holding none⟩,
        [⟨firstSnapshot,.directory (table firstSnapshot)⟩]⟩
      (.record someOverlay leftSurplus 0 secondSnapshot) = some bothMerged := by
    rw [step]; exact if_pos second_merged
  exact leads_cons _ (allowed _ _ _ _ _) first (leads_cons _ (allowed _ _ _ _ _) second (leads_refl _))

/-- Two calls that overlap and save in the order of their snapshots. -/
theorem records_kept_two : ∃ acts final, run step empty acts = some final ∧ final.parties.length = 2 ∧
    openText final.common.files.read = final.common.map := by
  have allowed : ∀ (sys : Records) (overlay : Overlay) (obs : PeerObservation) (now : Word) (snapshot : Entries),
      NoError sys (.record overlay obs now snapshot) ∧ InTurn sys (.record overlay obs now snapshot) :=
    fun _ _ _ _ _ => ⟨trivial,trivial⟩
  have alone : ∀ (sys : Records) (act : SaveAct), InTurn sys (.save 0 act) := by
    intro sys act
    cases act with
    | land more => trivial
    | io ok =>
      cases ok with
      | false => trivial
      | true => intro call _ _ earlier member; cases member
  obtain ⟨firstFiles,-,first⟩ := @save_leads (fun sys act => NoError sys act ∧ InTurn sys act) bothMerged 0
    firstSnapshot rfl (fun _ _ _ member => ⟨savedWhole_noError member _ _,alone _ _⟩)
  obtain ⟨secondFiles,-,second⟩ := @save_leads (fun sys act => NoError sys act ∧ InTurn sys act)
    ⟨{ bothMerged.common with files := firstFiles },bothMerged.parties.set 0 ⟨firstSnapshot,.finished true⟩⟩ 1
    secondSnapshot rfl (by
      intro store call act member
      refine ⟨savedWhole_noError member _ _,?_⟩
      cases act with
      | land more => trivial
      | io ok =>
        cases ok with
        | false => trivial
        | true =>
          -- The first call is the only one before it, and has returned.
          intro other _ _ earlier inTake
          rw [List.mem_singleton.mp inTake]; rfl)
  obtain ⟨acts,met,reached⟩ := leads_trans (merge_leads allowed) (leads_trans first second)
  refine ⟨acts,_,reached,rfl,records_kept met reached ?_⟩
  intro call member
  rcases List.mem_cons.mp member with rfl | later
  · rfl
  · rw [List.mem_singleton.mp later]; rfl

/-- Two calls that overlap: the one with the earlier snapshot renames last, and the
    surplus that the other recorded is not on disk when both have returned. -/
theorem record_lost : ∃ acts final, Meets step NoError empty acts ∧ run step empty acts = some final ∧ Quiet final ∧
    openText final.common.files.read ≠ final.common.map := by
  obtain ⟨secondFiles,-,second⟩ := @save_leads NoError bothMerged 1 secondSnapshot rfl
    (fun _ _ _ member => savedWhole_noError member _ _)
  obtain ⟨firstFiles,read,first⟩ := @save_leads NoError
    ⟨{ bothMerged.common with files := secondFiles },bothMerged.parties.set 1 ⟨secondSnapshot,.finished true⟩⟩ 0
    firstSnapshot rfl (fun _ _ _ member => savedWhole_noError member _ _)
  obtain ⟨acts,met,reached⟩ := leads_trans (merge_leads fun _ _ _ _ _ => trivial) (leads_trans second first)
  refine ⟨acts,_,met,reached,?_,?_⟩
  · intro call member
    rcases List.mem_cons.mp member with rfl | later
    · rfl
    · rw [List.mem_singleton.mp later]; rfl
  · show openText firstFiles.read ≠ bothMerged.common.map
    rw [read,openText_table first_merged]
    intro same
    have surplus := congrArg (fun map : PeerMap => (map.lookup someOverlay).map PeerState.surplus_units) same
    revert surplus
    decide

end Directswarm.PeerRecords
