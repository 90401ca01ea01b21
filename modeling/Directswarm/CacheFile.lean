import Directswarm.Routing
import Directswarm.Runs

/-!
The file of the topology cache, written by `write_cache_csv` (`ds-cli/src/crawl.rs`)
and read by `load_topology` (`fetchdirect.rs`), and the crawl that fills the cache
from seeds and gossip (`ds-net/src/crawl.rs`, `hive.rs`). The multiaddresses and the
protobuf message are those of the libraries: `tryFrom` reads one from bytes,
`toText` is how it is displayed, `peerOf` finds its peer id, `decodePb` reads the
message. What a peer wrote into a multiaddress comes to the file as it is displayed,
so the file gives the cache back exactly when the underlays of its records are
without the separators of the file (`topology_read_back`).
-/
namespace Directswarm.CacheFile
open Directswarm.Text Directswarm.PeerTable Directswarm.Proximity Directswarm.Routing Directswarm.Runs

/-! ### Writing -/

/-- The header that `write_cache_csv` writes. -/
def header : List Char := "overlay_hex,dialed_ok,rtt_ms,last_seen_ms,underlays".toList

def rttColumn : Option Half → List Char
  | none => []
  | some v => decimal v.val

/-- `underlays.join("|")`. -/
def joined (r : NodeRecord) : List Char := ['|'].intercalate r.underlays

/-- The first four columns of a record. -/
def fixedColumns (r : NodeRecord) : List (List Char) :=
  [hexOf r.overlay.toList,[if r.dialed_ok then '1' else '0'],rttColumn r.rtt_ms,decimal r.last_seen_tick.val]

/-- `write_cache_csv`, with the records in the order in which the map is gone through. -/
def writeCacheCsv (records : List NodeRecord) : List Char :=
  header ++ '\n' :: csvRows (fun r => fixedColumns r ++ [joined r]) records

/-! ### Reading -/

/-- `trim_start_matches` of a text of two characters. -/
def trimStartMatches (a b : Char) : List Char → List Char
  | c :: d :: rest => if c = a ∧ d = b then trimStartMatches a b rest else c :: d :: rest
  | cs => cs

/-- `parse_hex::<32>`. -/
def parseHexOverlay (s : List Char) : Option SwarmAddress :=
  (parseHex (trimStartMatches '0' 'X' (trimStartMatches '0' 'x' (trim s)))).bind fun bytes =>
    if length : bytes.length = 32 then some ⟨bytes,length⟩ else none

/-- The record of a line, when it has one. -/
def readRow (line : List Char) : Option NodeRecord :=
  match line.splitOn ',' with
  | oh :: dialed :: rtt :: seen :: under :: _ =>
    (parseHexOverlay oh).map fun overlay => {
      overlay
      underlays := under.splitOn '|'
      rtt_ms := parseWord 32 rtt
      last_seen_tick := (parseWord 64 seen).getD 0
      dialed_ok := dialed == ['1'] }
  | _ => none

/-- `load_topology`, on the text of the file. -/
def loadTopology (text : List Char) : TopologyCache :=
  (((lines text).drop 1).filterMap readRow).foldl TopologyCache.upsert .new

/-! ### The records of a cache -/

theorem mem_records {cache : TopologyCache} {r : NodeRecord} :
    r ∈ cache.records ↔ cache.nodes.lookup r.overlay = some r := by
  constructor
  · intro member
    obtain ⟨⟨key,_⟩,entry,rfl⟩ := List.mem_map.mp member
    have own := cache.keyed _ entry
    simp only at own
    subst own
    exact AList.mem_lookup_iff.mpr entry
  · intro found
    exact List.mem_map.mpr ⟨⟨r.overlay,r⟩,AList.mem_lookup_iff.mp found,rfl⟩

theorem records_inj {cache : TopologyCache} {r r' : NodeRecord} (member : r ∈ cache.records)
    (member' : r' ∈ cache.records) (same : r.overlay = r'.overlay) : r = r' := by
  have found := mem_records.mp member
  rw [same,mem_records.mp member'] at found
  exact (Option.some.inj found).symm

/-- What is under an overlay after an insertion or a refresh. -/
theorem nodes_upsert (cache : TopologyCache) (record : NodeRecord) :
    (cache.upsert record).nodes = cache.nodes.insert record.overlay
      (((cache.nodes.lookup record.overlay).map fun existing => existing.refresh record).getD record) := by
  unfold TopologyCache.upsert
  split
  · rename_i existing found
    simp only [found,Option.map_some,Option.getD_some]
  · rename_i none_
    simp only [none_,Option.map_none,Option.getD_none]

theorem mem_upsert {cache : TopologyCache} {record r : NodeRecord} (member : r ∈ (cache.upsert record).records) :
    r ∈ cache.records ∨ r = record ∨ ∃ existing ∈ cache.records, r = existing.refresh record := by
  have found := mem_records.mp member
  rw [nodes_upsert] at found
  by_cases same : r.overlay = record.overlay
  · rw [same,AList.lookup_insert,Option.some.injEq] at found
    cases known : cache.nodes.lookup record.overlay with
    | none => rw [known] at found; exact .inr (.inl found.symm)
    | some existing =>
      rw [known] at found
      have old : existing.overlay = record.overlay := cache.keyed _ (AList.mem_lookup_iff.mp known)
      exact .inr (.inr ⟨existing,mem_records.mpr (by rw [old,known]),found.symm⟩)
  · rw [AList.lookup_insert_ne same] at found
    exact .inl (mem_records.mpr found)

theorem mem_upsert_fresh {cache : TopologyCache} {record : NodeRecord} (fresh : cache.nodes.lookup record.overlay = none)
    {r : NodeRecord} : r ∈ (cache.upsert record).records ↔ r = record ∨ r ∈ cache.records := by
  rw [mem_records,mem_records,nodes_upsert,fresh]
  show (cache.nodes.insert record.overlay record).lookup r.overlay = some r ↔ _
  by_cases same : r.overlay = record.overlay
  · rw [same,AList.lookup_insert,fresh]
    simp [eq_comm]
  · rw [AList.lookup_insert_ne same]
    have other : r ≠ record := fun equal => same (congrArg _ equal)
    simp [other]

/-- The underlays of a refreshed record are those of the two records. -/
theorem mem_refresh {existing record : NodeRecord} {u : List Char} :
    u ∈ (existing.refresh record).underlays ↔ u ∈ existing.underlays ∨ u ∈ record.underlays := by
  unfold NodeRecord.refresh
  generalize existing.underlays = known
  simp only
  induction record.underlays generalizing known with
  | nil => simp
  | cons v rest ih =>
    rw [List.foldl_cons,ih]
    by_cases there : v ∈ known
    · rw [if_pos there,List.mem_cons]
      constructor
      · rintro (inside | later)
        · exact .inl inside
        · exact .inr (.inr later)
      · rintro (inside | rfl | later)
        · exact .inl inside
        · exact .inl there
        · exact .inr later
    · rw [if_neg there]
      simp only [List.mem_append,List.mem_cons,List.not_mem_nil,or_false,or_assoc]

/-- A property of underlays that all records share is kept when one is added. -/
theorem upsert_keeps {Q : List Char → Prop} {cache : TopologyCache} {record : NodeRecord}
    (all : ∀ r ∈ cache.records, ∀ u ∈ r.underlays, Q u) (new : ∀ u ∈ record.underlays, Q u) :
    ∀ r ∈ (cache.upsert record).records, ∀ u ∈ r.underlays, Q u := by
  intro r member u inside
  rcases mem_upsert member with old | rfl | ⟨existing,old,rfl⟩
  · exact all r old u inside
  · exact new u inside
  · rcases mem_refresh.mp inside with known | added
    · exact all existing old u known
    · exact new u added

/-- So is having underlays. -/
theorem upsert_some {cache : TopologyCache} {record : NodeRecord}
    (all : ∀ r ∈ cache.records, r.underlays ≠ []) (new : record.underlays ≠ []) :
    ∀ r ∈ (cache.upsert record).records, r.underlays ≠ [] := by
  intro r member
  rcases mem_upsert member with old | rfl | ⟨existing,old,rfl⟩
  · exact all r old
  · exact new
  · obtain ⟨u,rest,has⟩ := List.exists_cons_of_ne_nil (all existing old)
    have kept : u ∈ (existing.refresh record).underlays := mem_refresh.mpr (.inl (has ▸ List.mem_cons_self))
    exact List.ne_nil_of_mem kept

/-- Records of different overlays are all there after they are added. -/
theorem mem_foldl_upsert {records : List NodeRecord} {cache : TopologyCache}
    (distinct : (records.map NodeRecord.overlay).Nodup)
    (fresh : ∀ r ∈ records, cache.nodes.lookup r.overlay = none) {r : NodeRecord} :
    r ∈ (records.foldl TopologyCache.upsert cache).records ↔ r ∈ records ∨ r ∈ cache.records := by
  induction records generalizing cache with
  | nil => simp
  | cons first rest ih =>
    rw [List.map_cons,List.nodup_cons] at distinct
    have later : ∀ r ∈ rest, (cache.upsert first).nodes.lookup r.overlay = none := by
      intro r member
      have other : r.overlay ≠ first.overlay := fun same => distinct.1 (same ▸ List.mem_map_of_mem member)
      rw [nodes_upsert,AList.lookup_insert_ne other]
      exact fresh r (List.mem_cons_of_mem _ member)
    rw [List.foldl_cons,ih distinct.2 later,mem_upsert_fresh (fresh first List.mem_cons_self),List.mem_cons]
    constructor
    · rintro (inRest | rfl | old)
      · exact .inl (.inr inRest)
      · exact .inl (.inl rfl)
      · exact .inr old
    · rintro ((rfl | inRest) | old)
      · exact .inr (.inl rfl)
      · exact .inl inRest
      · exact .inr (.inr old)

/-! ### What is written and read back -/

/-- A text that stands as one underlay in a row. -/
def Separate (u : List Char) : Prop := ',' ∉ u ∧ '|' ∉ u ∧ '\n' ∉ u
  deriving Decidable

/-- A record whose row is read as it was meant. The line of a text loses one carriage
    return at its end, and the last underlay is what the row ends with. -/
def Plain (r : NodeRecord) : Prop :=
  (∀ u ∈ r.underlays, Separate u) ∧ ∀ u ∈ r.underlays.getLast?, u.getLast? ≠ some '\r'
  deriving Decidable

/-- What comes back for a record whose row stays one row of five columns. -/
def readBack (r : NodeRecord) : NodeRecord := { r with underlays := (chomp (joined r)).splitOn '|' }

theorem chomp_subset (line : List Char) : ∀ c ∈ chomp line, c ∈ line := by
  unfold chomp
  split
  · exact fun c member => List.dropLast_subset _ member
  · exact fun c member => member

/-- The end of a line is the end of its last column. -/
theorem chomp_append (lead tail : List Char) : chomp (lead ++ ',' :: tail) = lead ++ ',' :: chomp tail := by
  cases tail with
  | nil => simp [chomp]
  | cons c rest =>
    have last : (lead ++ ',' :: c :: rest).getLast? = (c :: rest).getLast? := by
      rw [List.getLast?_append_cons,List.getLast?_cons_cons]
    have init : (lead ++ ',' :: c :: rest).dropLast = lead ++ ',' :: (c :: rest).dropLast := by
      rw [List.dropLast_append_of_ne_nil (List.cons_ne_nil _ _)]; rfl
    unfold chomp
    rw [last]
    split
    · exact init
    · rfl

theorem chomp_eq_self {line : List Char} : chomp line = line ↔ line.getLast? ≠ some '\r' := by
  constructor
  · intro same last
    rw [chomp,if_pos last] at same
    have shorter : line.dropLast.length = line.length := congrArg _ same
    have some_ : 0 < line.length := List.length_pos_of_mem (List.mem_of_getLast? last)
    rw [List.length_dropLast] at shorter
    omega
  · intro last
    rw [chomp,if_neg last]

/-- A record's underlays, put together, end as the last of them does. -/
theorem joined_last (r : NodeRecord) :
    (joined r).getLast? = some '\r' ↔ ∃ u ∈ r.underlays.getLast?, u.getLast? = some '\r' := by
  unfold joined
  generalize r.underlays = pieces
  induction pieces with
  | nil => simp
  | cons piece rest ih =>
    cases rest with
    | nil => simp
    | cons next more =>
      rw [List.getLast?_cons_cons,← ih,List.intercalate_cons_cons,List.append_assoc]
      cases tail : ['|'].intercalate (next :: more) with
      | nil => simp
      | cons c after => simp

theorem separators_joined {r : NodeRecord} (clean : ∀ u ∈ r.underlays, Separate u) : ',' ∉ joined r ∧ '\n' ∉ joined r := by
  refine ⟨fun comma => ?_,fun feed => ?_⟩
  · rcases mem_intercalate comma with same | ⟨u,member,inside⟩
    · cases same
    · exact (clean u member).1 inside
  · rcases mem_intercalate feed with same | ⟨u,member,inside⟩
    · cases same
    · exact (clean u member).2.2 inside

/-- A record with underlays comes back as it was when its row is read as it was meant. -/
theorem readBack_eq {r : NodeRecord} (clean : ∀ u ∈ r.underlays, Separate u) (some_ : r.underlays ≠ []) :
    readBack r = r ↔ ∀ u ∈ r.underlays.getLast?, u.getLast? ≠ some '\r' := by
  have whole : (joined r).splitOn '|' = r.underlays :=
    List.splitOn_intercalate '|' (fun u member => (clean u member).2.1) some_
  have last : chomp (joined r) = joined r ↔ ∀ u ∈ r.underlays.getLast?, u.getLast? ≠ some '\r' := by
    rw [chomp_eq_self,ne_eq,joined_last]
    simp only [not_exists,not_and]
  rw [← last]
  constructor
  · intro same
    have pieces : (chomp (joined r)).splitOn '|' = r.underlays := congrArg NodeRecord.underlays same
    calc chomp (joined r) = ['|'].intercalate ((chomp (joined r)).splitOn '|') := (List.intercalate_splitOn '|').symm
      _ = joined r := by rw [pieces,joined]
  · intro same
    unfold readBack
    rw [same,whole]

/-! ### Rows -/

theorem rttColumn_clean (rtt : Option Half) : Clean (rttColumn rtt) := by
  cases rtt with
  | none => simp [rttColumn,Clean]
  | some v => exact decimal_clean v.val

theorem parseWord_rttColumn (rtt : Option Half) : parseWord 32 (rttColumn rtt) = rtt := by
  cases rtt with
  | none => rfl
  | some v => exact parseWord_decimal v

theorem fixedColumns_clean (r : NodeRecord) : ∀ column ∈ fixedColumns r, Clean column := by
  intro column member
  simp only [fixedColumns,List.mem_cons,List.not_mem_nil,or_false] at member
  rcases member with rfl | rfl | rfl | rfl
  · exact hexOf_clean _
  · cases r.dialed_ok <;> simp [Clean]
  · exact rttColumn_clean _
  · exact decimal_clean _

private theorem hexDigit_bare : ∀ nibble, whiteSpace (hexDigit nibble) = false ∧ hexDigit nibble ≠ 'x' ∧
    hexDigit nibble ≠ 'X' := by decide

theorem trimStartMatches_absent {a b : Char} {cs : List Char} (absent : b ∉ cs) : trimStartMatches a b cs = cs := by
  match cs with
  | [] => rfl
  | [_] => rfl
  | c :: d :: rest =>
    have other : ¬(c = a ∧ d = b) := by
      rintro ⟨-,rfl⟩
      exact absent (List.mem_cons_of_mem _ List.mem_cons_self)
    rw [trimStartMatches,if_neg other]

theorem parseHexOverlay_hexOf (overlay : SwarmAddress) : parseHexOverlay (hexOf overlay.toList) = some overlay := by
  have digits := hexOf_digits overlay.toList
  have bare : ∀ c ∈ hexOf overlay.toList, whiteSpace c = false := by
    intro c member
    obtain ⟨nibble,rfl⟩ := digits c member
    exact (hexDigit_bare nibble).1
  have small : 'x' ∉ hexOf overlay.toList := by
    intro member
    obtain ⟨nibble,same⟩ := digits _ member
    exact (hexDigit_bare nibble).2.1 same.symm
  have capital : 'X' ∉ hexOf overlay.toList := by
    intro member
    obtain ⟨nibble,same⟩ := digits _ member
    exact (hexDigit_bare nibble).2.2 same.symm
  rw [parseHexOverlay,trim_bare bare,trimStartMatches_absent small,trimStartMatches_absent capital,parseHex_hexOf,
    Option.bind_some,dif_pos overlay.toList_length]
  exact congrArg some (List.Vector.eq _ _ rfl)

theorem csvRow_fixed (r : NodeRecord) (last : List Char) :
    csvRow (fixedColumns r ++ [last]) = csvRow (fixedColumns r) ++ ',' :: last := by
  simp [csvRow,fixedColumns,List.intercalate_cons_cons]

/-- A row of five columns is read for what its columns say. -/
theorem readRow_row {r : NodeRecord} {last : List Char} (single : ',' ∉ last) :
    readRow (csvRow (fixedColumns r ++ [last])) = some { r with underlays := last.splitOn '|' } := by
  have split : (csvRow (fixedColumns r ++ [last])).splitOn ',' = fixedColumns r ++ [last] := by
    refine List.splitOn_intercalate ',' (fun column member => ?_) (by simp)
    rcases List.mem_append.mp member with fixed | own
    · exact (fixedColumns_clean r column fixed).1
    · rwa [List.mem_singleton.mp own]
  have dialed : ([if r.dialed_ok then '1' else '0'] == ['1']) = r.dialed_ok := by cases r.dialed_ok <;> rfl
  unfold readRow
  rw [split]
  simp only [fixedColumns,List.cons_append,List.nil_append,parseHexOverlay_hexOf,Option.map_some,parseWord_rttColumn,
    parseWord_decimal,Option.getD_some,dialed]

/-- The line of a record whose underlays do not break it. -/
theorem line_of_row {r : NodeRecord} (clean : ∀ u ∈ r.underlays, Separate u) (rest : List Char) :
    lines (csvRow (fixedColumns r ++ [joined r]) ++ '\n' :: rest) =
      csvRow (fixedColumns r ++ [chomp (joined r)]) :: lines rest := by
  have fixed := (csvRow_line (fixedColumns_clean r)).1
  have bare : '\n' ∉ csvRow (fixedColumns r ++ [joined r]) := by
    rw [csvRow_fixed]
    intro feed
    rcases List.mem_append.mp feed with before | after
    · exact fixed before
    · rcases List.mem_cons.mp after with same | inside
      · cases same
      · exact (separators_joined clean).2 inside
  rw [lines_chomp bare,csvRow_fixed,chomp_append,csvRow_fixed]

/-- Rows that stay rows come back one by one. -/
theorem read_rows {records : List NodeRecord} (clean : ∀ r ∈ records, ∀ u ∈ r.underlays, Separate u) :
    (lines (csvRows (fun r => fixedColumns r ++ [joined r]) records)).filterMap readRow = records.map readBack := by
  induction records with
  | nil => rfl
  | cons r rest ih =>
    have laidOut : csvRows (fun r => fixedColumns r ++ [joined r]) (r :: rest) =
        csvRow (fixedColumns r ++ [joined r]) ++ '\n' :: csvRows (fun r => fixedColumns r ++ [joined r]) rest := by
      simp [csvRows]
    have own := clean r List.mem_cons_self
    have single : ',' ∉ chomp (joined r) := fun comma => (separators_joined own).1 (chomp_subset _ _ comma)
    rw [laidOut,line_of_row own,List.filterMap_cons,readRow_row single,
      ih fun r member => clean r (List.mem_cons_of_mem _ member)]
    rfl

/-- What is read from a file has no separator in it. -/
theorem read_separate (text : List Char) : ∀ r ∈ (loadTopology text).records, ∀ u ∈ r.underlays, Separate u := by
  have rows : ∀ line, '\n' ∉ line → ∀ r, readRow line = some r → ∀ u ∈ r.underlays, Separate u := by
    intro line bare r read u member
    unfold readRow at read
    split at read
    · rename_i oh dialed rtt seen under more cols
      obtain ⟨overlay,-,rfl⟩ := Option.map_eq_some_iff.mp read
      have column : under ∈ line.splitOn ',' := by rw [cols]; simp
      obtain ⟨noComma,ofLine⟩ := splitOn_pieces column
      obtain ⟨noBar,ofColumn⟩ := splitOn_pieces member
      exact ⟨fun comma => noComma (ofColumn _ comma),noBar,fun feed => bare (ofLine _ (ofColumn _ feed))⟩
    · cases read
  have kept : ∀ (read : List NodeRecord) (cache : TopologyCache), (∀ r ∈ cache.records, ∀ u ∈ r.underlays, Separate u) →
      (∀ r ∈ read, ∀ u ∈ r.underlays, Separate u) →
      ∀ r ∈ (read.foldl TopologyCache.upsert cache).records, ∀ u ∈ r.underlays, Separate u := by
    intro read
    induction read with
    | nil => exact fun cache all _ => all
    | cons first rest ih =>
      intro cache all new
      exact ih _ (upsert_keeps all (new first List.mem_cons_self)) fun r member => new r (List.mem_cons_of_mem _ member)
  refine kept _ _ (fun r member => absurd member List.not_mem_nil) fun r member => ?_
  obtain ⟨line,inText,read⟩ := List.mem_filterMap.mp member
  exact rows line (lines_bare (List.mem_of_mem_drop inText)) r read

private theorem header_line : '\n' ∉ header ∧ header.getLast? ≠ some '\r' := by decide

/-- The file of records whose underlays do not break their rows, read again. -/
theorem mem_load {records : List NodeRecord} (distinct : (records.map NodeRecord.overlay).Nodup)
    (clean : ∀ r ∈ records, ∀ u ∈ r.underlays, Separate u) {r : NodeRecord} :
    r ∈ (loadTopology (writeCacheCsv records)).records ↔ r ∈ records.map readBack := by
  have overlays : (records.map readBack).map NodeRecord.overlay = records.map NodeRecord.overlay := by
    rw [List.map_map]
    exact List.map_congr_left fun r _ => rfl
  rw [loadTopology,writeCacheCsv,lines_cons header_line.1 header_line.2,List.drop_one,List.tail_cons,read_rows clean,
    mem_foldl_upsert (overlays ▸ distinct) fun r _ => AList.lookup_empty r.overlay]
  exact or_iff_left List.not_mem_nil

/-- The file gives the records of a cache back exactly when every one of them is plain. -/
theorem read_back_iff {cache : TopologyCache} (some_ : ∀ r ∈ cache.records, r.underlays ≠ []) {order : List NodeRecord}
    (all : order.Perm cache.records) :
    (∀ r, r ∈ (loadTopology (writeCacheCsv order)).records ↔ r ∈ cache.records) ↔ ∀ r ∈ cache.records, Plain r := by
  have distinct : (order.map NodeRecord.overlay).Nodup := (all.map _).nodup_iff.mpr cache.nodup
  constructor
  · intro same r member
    have clean : ∀ r ∈ cache.records, ∀ u ∈ r.underlays, Separate u :=
      fun r here => read_separate _ r ((same r).mpr here)
    have clean' : ∀ r ∈ order, ∀ u ∈ r.underlays, Separate u := fun r here => clean r (all.mem_iff.mp here)
    obtain ⟨source,written,back⟩ := List.mem_map.mp ((mem_load distinct clean').mp ((same r).mpr member))
    have itself : source = r :=
      records_inj (all.mem_iff.mp written) member (by rw [← back]; rfl)
    rw [itself] at back
    exact ⟨clean r member,(readBack_eq (clean r member) (some_ r member)).mp back⟩
  · intro plain r
    have clean : ∀ r ∈ order, ∀ u ∈ r.underlays, Separate u := fun r here => (plain r (all.mem_iff.mp here)).1
    have back : order.map readBack = order := by
      refine (List.map_congr_left fun r here => ?_).trans (List.map_id order)
      have inCache := all.mem_iff.mp here
      exact (readBack_eq (clean r here) (some_ r inCache)).mpr (plain r inCache).2
    rw [mem_load distinct clean,back]
    exact all.mem_iff

/-! ### Gossip -/

variable {A P : Type}

/-- What `decode_peers` and the crawl use of the libraries. -/
structure Libraries (A P : Type) where
  /-- `Multiaddr::try_from`, on bytes. -/
  tryFrom : List Byte → Option A
  /-- `Multiaddr`, displayed. -/
  toText : A → List Char
  /-- The peer of the first `p2p` protocol of an address: `extract_peer_id`. -/
  peerOf : A → Option P
  /-- `PeersPb::decode`: the underlay and the overlay of each peer. -/
  decodePb : List Byte → Option (List (List Byte × List Byte))
  /-- `unsigned_varint::decode::u64`. -/
  decodeU64 : List Byte → Option (Nat × List Byte)

/-- `PeerHint`. -/
structure PeerHint (A P : Type) where
  peer_id : P
  overlay : SwarmAddress
  underlays : List A

/-- `UnderlayError`. -/
inductive UnderlayError
  | empty | tooLarge | tooMany | varint | multiaddr
  deriving DecidableEq

def underlayListPrefix : Byte := 0x99
def maxUnderlayBytes : Nat := 2048
def maxUnderlaysPerPeer : Nat := 20

variable (lib : Libraries A P)

/-- `deserialize_list`, with room for so many more. -/
def deserializeList : Nat → List A → List Byte → Except UnderlayError (List A)
  | _, out, [] => .ok out
  | 0, _, _ :: _ => .error .tooMany
  | room + 1, out, first :: more =>
    match lib.decodeU64 (first :: more) with
    | none => .error .varint
    | some (len,rest) =>
      if rest.length < len then .error .empty else
      match lib.tryFrom (rest.take len) with
      | none => .error .multiaddr
      | some addr => deserializeList room (out ++ [addr]) (rest.drop len)

/-- `deserialize_underlays`. -/
def deserializeUnderlays (data : List Byte) : Except UnderlayError (List A) :=
  match data with
  | [] => .error .empty
  | first :: rest =>
    if maxUnderlayBytes < data.length then .error .tooLarge
    else if first = underlayListPrefix then deserializeList lib maxUnderlaysPerPeer [] rest
    else match lib.tryFrom data with
      | none => .error .multiaddr
      | some addr => .ok [addr]

/-- The hint of an entry, when it is well formed. -/
def hintOf (p : List Byte × List Byte) : Option (PeerHint A P) :=
  if length : p.2.length = 32 then
    match deserializeUnderlays lib p.1 with
    | .error _ => none
    | .ok underlays => (underlays.findSome? lib.peerOf).map fun peer_id => ⟨peer_id,⟨p.2,length⟩,underlays⟩
  else none

/-- `decode_peers`. -/
def decodePeers (body : List Byte) : List (PeerHint A P) :=
  match lib.decodePb body with
  | none => []
  | some peers => peers.filterMap (hintOf lib)

/-- A peer id was found in some underlay. -/
theorem hint_underlays {p : List Byte × List Byte} {hint : PeerHint A P} (found : hintOf lib p = some hint) :
    hint.underlays ≠ [] := by
  unfold hintOf at found
  split at found
  · split at found
    · cases found
    · rename_i underlays _
      obtain ⟨peer,has,rfl⟩ := Option.map_eq_some_iff.mp found
      obtain ⟨addr,member,-⟩ := List.exists_of_findSome?_eq_some has
      exact List.ne_nil_of_mem member
  · cases found

theorem decodePeers_underlays {body : List Byte} : ∀ hint ∈ decodePeers lib body, hint.underlays ≠ [] := by
  intro hint member
  unfold decodePeers at member
  split at member
  · cases member
  · obtain ⟨p,-,found⟩ := List.mem_filterMap.mp member
    exact hint_underlays lib found

/-! ### The crawl -/

/-- The crawl between two of its steps, without its statistics beyond the dials. -/
structure Crawl (A P : Type) where
  cache : TopologyCache
  frontier : List (PeerHint A P)
  queued : List P
  dials_attempted : Nat
  /-- Hints of decoded gossip that the sink tasks still have to send. -/
  sinks : List (List (PeerHint A P))
  /-- Hints that were sent and not received. -/
  channel : List (PeerHint A P)
  /-- A harvest window is open. -/
  harvesting : Bool

/-- What the crawl and its sink tasks do, in any order. -/
inductive Act where
  /-- A sink reads a body. -/
  | gossip (body : List Byte)
  /-- A sink task sends its next hint. -/
  | send (task : Nat)
  /-- The next candidate is dialed: its overlay and the time taken, when the handshake succeeds. -/
  | dial (outcome : Option (SwarmAddress × Half)) (tick : Word)
  /-- A hint is received in the window. -/
  | hear (tick : Word)
  /-- The window closes. -/
  | close

def maxBody : Nat := 64 * 1024
def channelCapacity : Nat := 1024

/-- A record of the texts of a hint's underlays. -/
def hintRecord (overlay : SwarmAddress) (hint : PeerHint A P) (rtt_ms : Option Half) (tick : Word) (dialed_ok : Bool) :
    NodeRecord := ⟨overlay,hint.underlays.map lib.toText,rtt_ms,tick,dialed_ok⟩

/-- Where `crawl` starts. -/
def startCrawl (seeds : List A) : Crawl A P :=
  let known := seeds.filterMap fun seed => (lib.peerOf seed).map fun peer_id => (seed,peer_id)
  { cache := .new
    frontier := known.map fun (seed,peer_id) => ⟨peer_id,List.Vector.replicate 32 0,[seed]⟩
    queued := known.map Prod.snd
    dials_attempted := 0, sinks := [], channel := [], harvesting := false }

/-- Whatever is dialed, sent or recorded has underlays. -/
structure Addressed (s : Crawl A P) : Prop where
  cache : ∀ r ∈ s.cache.records, r.underlays ≠ []
  frontier : ∀ hint ∈ s.frontier, hint.underlays ≠ []
  sinks : ∀ task ∈ s.sinks, ∀ hint ∈ task, hint.underlays ≠ []
  channel : ∀ hint ∈ s.channel, hint.underlays ≠ []

theorem addressed_start (seeds : List A) : Addressed (startCrawl lib seeds) where
  cache := fun _ member => absurd member List.not_mem_nil
  frontier := by
    intro hint member
    obtain ⟨known,-,rfl⟩ := List.mem_map.mp member
    exact List.cons_ne_nil _ _
  sinks := nofun
  channel := nofun

theorem hintRecord_underlays (overlay : SwarmAddress) {hint : PeerHint A P} (some_ : hint.underlays ≠ [])
    (rtt_ms : Option Half) (tick : Word) (dialed_ok : Bool) :
    (hintRecord lib overlay hint rtt_ms tick dialed_ok).underlays ≠ [] := by
  simpa [hintRecord] using some_

variable [DecidableEq P]

/-- A step of `crawl`, of `harvest` or of a sink task. -/
def crawlStep (maxDials : Nat) (s : Crawl A P) : Act → Option (Crawl A P)
  | .gossip body =>
    if maxBody < body.length then none else some { s with sinks := s.sinks ++ [decodePeers lib body] }
  | .send task =>
    match s.sinks[task]? with
    | some (hint :: later) =>
      if s.channel.length < channelCapacity then
        some { s with sinks := s.sinks.set task later, channel := s.channel ++ [hint] }
      else none
    | _ => none
  | .dial outcome tick =>
    if s.harvesting ∨ maxDials ≤ s.dials_attempted then none else
    match s.frontier with
    | [] => none
    | hint :: rest =>
      let s := { s with frontier := rest, dials_attempted := s.dials_attempted + 1 }
      match hint.underlays with
      | [] => some s
      | _ :: _ =>
        match outcome with
        | none => some s
        | some (overlay,rtt) =>
          some { s with cache := s.cache.upsert (hintRecord lib overlay hint (some rtt) tick true), harvesting := true }
  | .hear tick =>
    if s.harvesting then
      match s.channel with
      | [] => none
      | hint :: rest =>
        let s := { s with
          channel := rest
          cache := s.cache.upsert (hintRecord lib hint.overlay hint none tick false) }
        if hint.peer_id ∈ s.queued then some s
        else some { s with queued := s.queued ++ [hint.peer_id], frontier := s.frontier ++ [hint] }
    else none
  | .close => if s.harvesting then some { s with harvesting := false } else none

theorem addressed_step {maxDials : Nat} (s : Crawl A P) (a : Act) (next : Crawl A P) (inv : Addressed s)
    (taken : crawlStep lib maxDials s a = some next) : Addressed next := by
  cases a with
  | gossip body =>
    simp only [crawlStep] at taken
    split at taken
    · cases taken
    · cases taken
      refine { inv with sinks := fun task member => ?_ }
      rcases List.mem_append.mp member with old | new
      · exact inv.sinks task old
      · rw [List.mem_singleton.mp new]
        exact decodePeers_underlays lib
  | send task =>
    simp only [crawlStep] at taken
    split at taken
    · rename_i hint later found
      have all := inv.sinks _ (List.mem_of_getElem? found)
      split at taken
      · cases taken
        refine { inv with sinks := fun other member => ?_, channel := fun sent member => ?_ }
        · rcases List.mem_or_eq_of_mem_set member with old | rfl
          · exact inv.sinks other old
          · exact fun hint inside => all hint (List.mem_cons_of_mem _ inside)
        · rcases List.mem_append.mp member with old | new
          · exact inv.channel sent old
          · rw [List.mem_singleton.mp new]
            exact all hint List.mem_cons_self
      · cases taken
    · cases taken
  | dial outcome tick =>
    simp only [crawlStep] at taken
    split at taken
    · cases taken
    · split at taken
      · cases taken
      · rename_i hint rest front
        have all : ∀ hint' ∈ hint :: rest, hint'.underlays ≠ [] := front ▸ inv.frontier
        have fewer : ∀ hint' ∈ rest, hint'.underlays ≠ [] := fun hint' member => all hint' (List.mem_cons_of_mem _ member)
        split at taken
        · cases taken
          exact { inv with frontier := fewer }
        · cases outcome with
          | none =>
            cases taken
            exact { inv with frontier := fewer }
          | some dialed =>
            cases taken
            have own := hintRecord_underlays lib dialed.1 (all hint List.mem_cons_self) (some dialed.2) tick true
            exact { inv with frontier := fewer, cache := upsert_some inv.cache own }
  | hear tick =>
    simp only [crawlStep] at taken
    split at taken
    · split at taken
      · cases taken
      · rename_i hint rest front
        have all : ∀ hint' ∈ hint :: rest, hint'.underlays ≠ [] := front ▸ inv.channel
        have own := all hint List.mem_cons_self
        have fewer : ∀ hint' ∈ rest, hint'.underlays ≠ [] := fun hint' member => all hint' (List.mem_cons_of_mem _ member)
        have records := upsert_some inv.cache (hintRecord_underlays lib hint.overlay own none tick false)
        split at taken
        · cases taken
          exact { inv with channel := fewer, cache := records }
        · cases taken
          refine { inv with channel := fewer, cache := records, frontier := fun hint' member => ?_ }
          rcases List.mem_append.mp member with old | new
          · exact inv.frontier hint' old
          · rw [List.mem_singleton.mp new]
            exact own
    · cases taken
  | close =>
    simp only [crawlStep] at taken
    split at taken
    · cases taken
      exact { inv with }
    · cases taken

/-- The file of a crawled cache, in whatever order its records are written, gives the
    records back exactly when none of their underlays holds a separator of the file. -/
theorem topology_read_back (lib : Libraries A P) (maxDials : Nat) (seeds : List A) (acts : List Act) (s : Crawl A P)
    (reached : run (crawlStep lib maxDials) (startCrawl lib seeds) acts = some s) (order : List NodeRecord)
    (all : order.Perm s.cache.records) :
    (∀ r, r ∈ (loadTopology (writeCacheCsv order)).records ↔ r ∈ s.cache.records) ↔ ∀ r ∈ s.cache.records, Plain r :=
  read_back_iff (run_invariant (addressed_step lib) (addressed_start lib seeds) reached).cache all

/-! ### A name with a comma -/

/-- The seed of the runs below. -/
def seedAddr : List Char := "/ip4/10.1.2.3/tcp/1634/p2p/15X".toList

/-- `/dns4/a,b/p2p/15W`, in bytes. -/
def namedBytes : List Byte := [0x36,3,0x61,0x2c,0x62,0xa5,0x03,3,0,1,5]

def namedAddr : List Char := "/dns4/a,b/p2p/15W".toList

/-- `/ip4/10.1.2.4/tcp/1634/p2p/15Y` and `/ip4/10.1.2.5/tcp/1634/p2p/15Y`, in bytes. -/
def firstBytes : List Byte := [4,10,1,2,4,6,0x06,0x62,0xa5,0x03,3,0,1,7]
def secondBytes : List Byte := [4,10,1,2,5,6,0x06,0x62,0xa5,0x03,3,0,1,7]

def firstAddr : List Char := "/ip4/10.1.2.4/tcp/1634/p2p/15Y".toList
def secondAddr : List Char := "/ip4/10.1.2.5/tcp/1634/p2p/15Y".toList

/-- The two addresses in a list. -/
def listBytes : List Byte := [0x99,14] ++ firstBytes ++ [14] ++ secondBytes

def seedOverlay : SwarmAddress := List.Vector.replicate 32 0x11
def namedOverlay : SwarmAddress := List.Vector.replicate 32 0x22
def listOverlay : SwarmAddress := List.Vector.replicate 32 0x33

/-- A `Peers` message with one peer at the named address, and one with a peer at the two
    others. -/
def namedBody : List Byte := [0x0a,47,0x0a,11] ++ namedBytes ++ [0x1a,32] ++ namedOverlay.toList
def listBody : List Byte := [0x0a,67,0x0a,31] ++ listBytes ++ [0x1a,32] ++ listOverlay.toList

/-- What the libraries make of these addresses and of these messages. -/
def sampleLibraries : Libraries (List Char) Nat where
  tryFrom data :=
    if data = namedBytes then some namedAddr
    else if data = firstBytes then some firstAddr
    else if data = secondBytes then some secondAddr
    else none
  toText addr := addr
  peerOf addr :=
    if addr = seedAddr then some 6
    else if addr = namedAddr then some 5
    else if addr = firstAddr ∨ addr = secondAddr then some 7
    else none
  decodePb body :=
    if body = namedBody then some [(namedBytes,namedOverlay.toList)]
    else if body = listBody then some [(listBytes,listOverlay.toList)]
    else none
  decodeU64
    | byte :: rest => if byte.val < 128 then some (byte.val,rest) else none
    | [] => none

/-- The seed is dialed and sends the peer with two addresses, which is dialed then. -/
def listRun : List Act :=
  [.gossip listBody,.dial (some (seedOverlay,40)) 7,.send 0,.hear 9,.close,.dial (some (listOverlay,25)) 11,.close]

/-- Two rows, written the other way round, one of them with two underlays. -/
theorem topology_read_back_list : ∃ s : Crawl (List Char) Nat,
    run (crawlStep sampleLibraries 10) (startCrawl sampleLibraries [seedAddr]) listRun = some s ∧
    s.cache.records.map NodeRecord.underlays = [[firstAddr,secondAddr],[seedAddr]] ∧
    ∀ r, r ∈ (loadTopology (writeCacheCsv s.cache.records.reverse)).records ↔ r ∈ s.cache.records := by
  refine ⟨_,rfl,by decide +kernel,?_⟩
  exact (topology_read_back sampleLibraries 10 [seedAddr] listRun _ rfl _ (List.reverse_perm _)).mpr (by decide +kernel)

/-- The seed is dialed, and it sends the peer at the named address. -/
def namedRun : List Act := [.gossip namedBody,.dial (some (seedOverlay,40)) 7,.send 0,.hear 9,.close]

/-- The record of the gossiped peer is in the cache, and not what the file gives back. -/
theorem named_lost : ∃ s : Crawl (List Char) Nat,
    run (crawlStep sampleLibraries 10) (startCrawl sampleLibraries [seedAddr]) namedRun = some s ∧
    ¬∀ r, r ∈ (loadTopology (writeCacheCsv s.cache.records)).records ↔ r ∈ s.cache.records := by
  let named : NodeRecord := ⟨namedOverlay,[namedAddr],none,9,false⟩
  refine ⟨_,rfl,fun same => ?_⟩
  have kept : named ∈ _ := (same named).mpr (by decide +kernel)
  exact (read_separate _ named kept namedAddr List.mem_cons_self).1 (by decide)

end Directswarm.CacheFile
