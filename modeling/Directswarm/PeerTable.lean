import Mathlib.Data.Vector.Basic
import Mathlib.Data.Fin.Basic
import Mathlib.Order.Fin.Basic
import Directswarm.Maps
import Directswarm.Resume
import Directswarm.Words

/-!
What is remembered of each peer (`peerstate.rs`): the record of a peer, how an
observation is merged into it, and the table that `save` writes and `open` reads.
A table is read leniently, a column at a time, but what `save` wrote reads back as
the map it was taken from, whatever the order of the rows (`openText_table`).
-/
namespace Directswarm.PeerTable
open Directswarm.Text Directswarm.Maps Directswarm.Resume

abbrev Word := Fin (2 ^ 64)
abbrev Half := Fin (2 ^ 32)
/-- An overlay address. -/
abbrev Overlay := List.Vector Byte 32

/-- `PeerState`. -/
structure PeerState where
  threshold_last : Word
  lambda_ms : Option Word
  settled_units : Word
  service_cps_x10 : Half
  surplus_units : Word
  last_ok_unix : Word
  deriving DecidableEq

/-- `PeerState::default`. -/
def PeerState.default : PeerState := ⟨0,none,0,0,0,0⟩

/-- `PeerObservation`. -/
structure PeerObservation where
  threshold : Word
  lambda_ms : Option Word
  settled_units_delta : Word
  service_cps_x10 : Option Half
  surplus_units_abs : Option Word
  clean_close : Bool
  deriving DecidableEq

/-- `PeerObservation::default`. -/
def PeerObservation.default : PeerObservation := ⟨0,none,0,none,none,false⟩

/-- The map of a store. -/
abbrev PeerMap := Finmap fun _ : Overlay => PeerState
/-- An enumeration of its entries. -/
abbrev Entries := List (Σ _ : Overlay, PeerState)

/-- `u64::saturating_add`. -/
def saturatingAdd (a b : Word) : Word :=
  if fits : a.val + b.val < 2 ^ 64 then ⟨a.val + b.val,fits⟩ else ⟨2 ^ 64 - 1,by decide⟩

/-- `u32::midpoint`. -/
def midpoint (a b : Half) : Half := ⟨(a.val + b.val) / 2,by omega⟩

/-- What `record` makes of the entry of a peer, at a time in seconds. -/
def merge (now : Word) (e : PeerState) (obs : PeerObservation) : PeerState where
  threshold_last := max e.threshold_last obs.threshold
  lambda_ms := if obs.lambda_ms.isSome then obs.lambda_ms else e.lambda_ms
  settled_units := saturatingAdd e.settled_units obs.settled_units_delta
  surplus_units := obs.surplus_units_abs.getD e.surplus_units
  service_cps_x10 :=
    match obs.service_cps_x10 with
    | none => e.service_cps_x10
    | some r => if e.service_cps_x10 = 0 then r else midpoint e.service_cps_x10 r
  last_ok_unix := if obs.clean_close then now else e.last_ok_unix

/-- The part of `record` under the lock. -/
def recordEntry (map : PeerMap) (overlay : Overlay) (obs : PeerObservation) (now : Word) : PeerMap :=
  map.insert overlay (merge now ((map.lookup overlay).getD PeerState.default) obs)

/-! ### Writing -/

/-- `HEADER`. -/
def header : List Char :=
  "overlay_hex,threshold_last,lambda_ms,settled_units,last_ok_unix,service_cps_x10,surplus_units".toList

/-- The column of a latency that may never have been measured. -/
def lambdaColumn : Option Word → List Char
  | none => []
  | some l => decimal l.val

/-- The columns of an entry, in the order of the header. -/
def columns (e : Σ _ : Overlay, PeerState) : List (List Char) :=
  let s := e.2
  [hexOf e.1.toList,decimal s.threshold_last.val,lambdaColumn s.lambda_ms,decimal s.settled_units.val,
    decimal s.last_ok_unix.val,decimal s.service_cps_x10.val,decimal s.surplus_units.val]

/-- The text that `save` writes. -/
def table (entries : Entries) : List Char := header ++ '\n' :: csvRows columns entries

/-! ### Reading -/

/-- The entry of a line of the table, when it has one. -/
def readRow (line : List Char) : Option (Σ _ : Overlay, PeerState) :=
  let cols := line.splitOn ','
  match cols with
  | oh :: t :: l :: s :: ok :: later =>
    (parseHex32 oh).map fun overlay => ⟨overlay,{
      threshold_last := (parseWord 64 t).getD 0
      lambda_ms := parseWord 64 l
      settled_units := (parseWord 64 s).getD 0
      service_cps_x10 := ((later[0]?).bind (parseWord 32)).getD 0
      surplus_units := ((later[1]?).bind (parseWord 64)).getD 0
      last_ok_unix := (parseWord 64 ok).getD 0 }⟩
  | _ => none

/-- `PeerStateStore::open`, on the text of the file; a missing file is empty. -/
def openText : Option (List Char) → PeerMap
  | none => ∅
  | some text => insertAll (((lines text).drop 1).filterMap readRow) ∅

/-! ### What is written is what is read -/

theorem parseWord_lambdaColumn (lambda : Option Word) : parseWord 64 (lambdaColumn lambda) = lambda := by
  cases lambda with
  | none => rfl
  | some l => exact parseWord_decimal l

theorem columns_clean (e : Σ _ : Overlay, PeerState) : ∀ column ∈ columns e, Clean column := by
  have lambda : Clean (lambdaColumn e.2.lambda_ms) := by
    cases e.2.lambda_ms with
    | none => simp [lambdaColumn,Clean]
    | some l => exact decimal_clean l.val
  intro column member
  simp only [columns,List.mem_cons,List.not_mem_nil,or_false] at member
  rcases member with rfl | rfl | rfl | rfl | rfl | rfl | rfl
  · exact hexOf_clean _
  · exact decimal_clean _
  · exact lambda
  all_goals exact decimal_clean _

theorem readRow_csvRow (e : Σ _ : Overlay, PeerState) : readRow (csvRow (columns e)) = some e := by
  have split := splitOn_csvRow (columns_clean e) (List.cons_ne_nil _ _)
  obtain ⟨overlay,s⟩ := e
  unfold readRow
  rw [split]
  simp only [columns,parseHex32_hexOf,Option.map_some,parseWord_decimal,parseWord_lambdaColumn,Option.getD_some,
    List.getElem?_cons_zero,List.getElem?_cons_succ,Option.bind_some]

/-- The header is one line. -/
theorem header_bare : '\n' ∉ header ∧ '\r' ∉ header := by decide +kernel

/-- Reading the table of a map's entries, in any order, gives the map. -/
theorem openText_table {entries : Entries} {map : PeerMap} (all : (entries : Multiset _) = map.entries) :
    openText (some (table entries)) = map := by
  rw [openText,table,lines_cons header_bare.1 fun last => header_bare.2 (List.mem_of_getLast? last),List.drop_one,
    List.tail_cons,lines_csvRows columns_clean,filterMap_csvRows readRow_csvRow,insertAll_entries all]

end Directswarm.PeerTable
