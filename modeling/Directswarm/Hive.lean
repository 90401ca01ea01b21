import Directswarm.CacheFile
import Directswarm.Wire

/-!
What gossip says (`hive.rs`). The underlays of a record are one multiaddress, or
after a marker byte a list of them, each behind its length (`Underlays`). A hint is
made of a record exactly when it is as the format wants it (`hintOf_iff`), so that
records stand each for themselves: one that is malformed neither drops nor shifts
the hints of the others (`decodePeers_exact`). A list that is framed is read back
(`deserializeUnderlays_framed`). A lone address that begins with the marker's byte is
lost (`webrtc_dropped`). What the protobuf decoder, the multiaddresses and
their varints do is the libraries'.
-/
namespace Directswarm.Hive
open Directswarm.Text Directswarm.Proximity Directswarm.CacheFile

variable {A P : Type}

/-! ### The format -/

/-- Multiaddresses, each behind its length. -/
inductive Framed (lib : Libraries A P) : List Byte → List A → Prop
  | done : Framed lib [] []
  | next {data rest : List Byte} {len : Nat} {addr : A} {more : List A} (some_ : data ≠ [])
      (length : lib.decodeU64 data = some (len,rest)) (inside : len ≤ rest.length)
      (reads : lib.tryFrom (rest.take len) = some addr) (others : Framed lib (rest.drop len) more) :
      Framed lib data (addr :: more)

/-- What the field stands for. The marker alone decides which of the two forms it has:
    a lone multiaddress that begins with the marker's byte, as `/webrtc` does, is of
    neither, unless the rest of it happens to be a list. -/
inductive Underlays (lib : Libraries A P) : List Byte → List A → Prop
  | single {first : Byte} {rest : List Byte} {addr : A} (plain : first ≠ underlayListPrefix)
      (reads : lib.tryFrom (first :: rest) = some addr) : Underlays lib (first :: rest) [addr]
  | list {rest : List Byte} {addrs : List A} (framed : Framed lib rest addrs)
      (few : addrs.length ≤ maxUnderlaysPerPeer) : Underlays lib (underlayListPrefix :: rest) addrs

/-- The hint that a record stands for. -/
structure Meant (lib : Libraries A P) (p : List Byte × List Byte) (hint : PeerHint A P) : Prop where
  overlay : p.2 = hint.overlay.toList
  size : p.1.length ≤ maxUnderlayBytes
  underlays : Underlays lib p.1 hint.underlays
  /-- The first peer id that is named. -/
  peer : hint.underlays.findSome? lib.peerOf = some hint.peer_id

/-- The hints of a batch, in the order of their records. -/
inductive Batch (lib : Libraries A P) : List (List Byte × List Byte) → List (PeerHint A P) → Prop
  | done : Batch lib [] []
  | hint {p : List Byte × List Byte} {h : PeerHint A P} {records : List (List Byte × List Byte)} {hints : List (PeerHint A P)}
      (meant : Meant lib p h) (others : Batch lib records hints) : Batch lib (p :: records) (h :: hints)
  | skip {p : List Byte × List Byte} {records : List (List Byte × List Byte)} {hints : List (PeerHint A P)}
      (malformed : ∀ h, ¬Meant lib p h) (others : Batch lib records hints) : Batch lib (p :: records) hints

/-! ### What is decoded -/

variable {lib : Libraries A P}

/-- The loop over a list accepts what is framed, if there is room for it. -/
theorem deserializeList_iff {room : Nat} {out all : List A} {data : List Byte} :
    deserializeList lib room out data = .ok all ↔
      ∃ addrs, Framed lib data addrs ∧ addrs.length ≤ room ∧ all = out ++ addrs := by
  induction room generalizing out data with
  | zero =>
    cases data with
    | nil =>
      constructor
      · intro read
        cases read
        exact ⟨[],.done,Nat.le_refl 0,(List.append_nil _).symm⟩
      · rintro ⟨addrs,-,none_,rfl⟩
        rw [List.length_eq_zero_iff.mp (Nat.le_zero.mp none_),List.append_nil]
        rfl
    | cons first more =>
      constructor
      · intro read; cases read
      · rintro ⟨addrs,framed,none_,-⟩
        rw [List.length_eq_zero_iff.mp (Nat.le_zero.mp none_)] at framed
        cases framed
  | succ room ih =>
    cases data with
    | nil =>
      constructor
      · intro read
        cases read
        exact ⟨[],.done,Nat.zero_le _,(List.append_nil _).symm⟩
      · rintro ⟨addrs,framed,-,rfl⟩
        cases framed with
        | done => rw [List.append_nil]; rfl
        | next some_ => exact absurd rfl some_
    | cons first more =>
      rw [deserializeList]
      constructor
      · intro read
        split at read
        · cases read
        · rename_i len rest length
          split at read
          · cases read
          · rename_i inside
            split at read
            · cases read
            · rename_i addr reads
              obtain ⟨addrs,framed,few,rfl⟩ := ih.mp read
              refine ⟨addr :: addrs,.next (List.cons_ne_nil _ _) length (by omega) reads framed,?_,?_⟩
              · rw [List.length_cons]
                omega
              · rw [List.append_assoc,List.singleton_append]
      · rintro ⟨addrs,framed,few,rfl⟩
        cases framed with
        | @next _ rest len addr others _ length inside reads framed =>
          rw [length]
          simp only
          rw [if_neg (by omega),reads]
          refine ih.mpr ⟨others,framed,?_,?_⟩
          · rw [List.length_cons] at few
            omega
          · rw [List.append_assoc,List.singleton_append]

theorem deserializeUnderlays_iff {data : List Byte} {addrs : List A} :
    deserializeUnderlays lib data = .ok addrs ↔ data.length ≤ maxUnderlayBytes ∧ Underlays lib data addrs := by
  cases data with
  | nil =>
    constructor
    · intro read; cases read
    · rintro ⟨-,underlays⟩; cases underlays
  | cons first rest =>
    rw [deserializeUnderlays]
    by_cases large : maxUnderlayBytes < (first :: rest).length
    · rw [if_pos large]
      constructor
      · intro read; cases read
      · rintro ⟨small,-⟩; omega
    · have small : (first :: rest).length ≤ maxUnderlayBytes := by omega
      rw [if_neg large]
      by_cases marked : first = underlayListPrefix
      · rw [if_pos marked,deserializeList_iff]
        constructor
        · rintro ⟨all,framed,few,rfl⟩
          exact ⟨small,marked ▸ .list framed few⟩
        · rintro ⟨-,underlays⟩
          cases underlays with
          | single plain => exact absurd marked plain
          | list framed few => exact ⟨addrs,framed,few,rfl⟩
      · rw [if_neg marked]
        constructor
        · intro read
          split at read
          · cases read
          · rename_i addr reads
            cases read
            exact ⟨small,.single marked reads⟩
        · rintro ⟨-,underlays⟩
          cases underlays with
          | single plain reads => rw [reads]
          | list => exact absurd rfl marked

/-- A hint is made of a record exactly when the record stands for it. -/
theorem hintOf_iff {p : List Byte × List Byte} {hint : PeerHint A P} : hintOf lib p = some hint ↔ Meant lib p hint := by
  unfold hintOf
  constructor
  · intro made
    split at made
    · split at made
      · cases made
      · rename_i length underlays read
        obtain ⟨peer,named,rfl⟩ := Option.map_eq_some_iff.mp made
        obtain ⟨size,form⟩ := deserializeUnderlays_iff.mp read
        exact ⟨rfl,size,form,named⟩
    · cases made
  · rintro ⟨overlay,size,form,named⟩
    have length : p.2.length = 32 := by rw [overlay,List.Vector.toList_length]
    rw [dif_pos length,deserializeUnderlays_iff.mpr ⟨size,form⟩]
    simp only [named,Option.map_some,Option.some.injEq]
    obtain ⟨peer_id,bytes,underlays⟩ := hint
    congr 1
    exact List.Vector.eq _ _ overlay

/-- A record stands for one hint at most. -/
theorem meant_unique {p : List Byte × List Byte} {h h' : PeerHint A P} (meant : Meant lib p h) (meant' : Meant lib p h') :
    h = h' := Option.some.inj ((hintOf_iff.mpr meant).symm.trans (hintOf_iff.mpr meant'))

theorem batch_filterMap (records : List (List Byte × List Byte)) : Batch lib records (records.filterMap (hintOf lib)) := by
  induction records with
  | nil => exact .done
  | cons p rest ih =>
    cases made : hintOf lib p with
    | none =>
      rw [List.filterMap_cons_none made]
      refine .skip (fun h meant => ?_) ih
      rw [hintOf_iff.mpr meant] at made
      cases made
    | some h =>
      rw [List.filterMap_cons_some made]
      exact .hint (hintOf_iff.mp made) ih

/-! ### The framing -/

/-- What is used of the libraries when a list is read that was framed by them. -/
structure RoundTrips (lib : Libraries A P) (toBytes : A → List Byte) (encodeU64 : Nat → List Byte) : Prop where
  address : ∀ addr, lib.tryFrom (toBytes addr) = some addr
  length : ∀ n < 2 ^ 64, ∀ rest, lib.decodeU64 (encodeU64 n ++ rest) = some (n,rest)
  /-- A length is a byte at least. -/
  some_ : ∀ n, encodeU64 n ≠ []

/-- Addresses behind their lengths. -/
def frameAll (toBytes : A → List Byte) (encodeU64 : Nat → List Byte) (addrs : List A) : List Byte :=
  addrs.flatMap fun addr => encodeU64 (toBytes addr).length ++ toBytes addr

theorem framed_frameAll {toBytes : A → List Byte} {encodeU64 : Nat → List Byte} (trips : RoundTrips lib toBytes encodeU64)
    {addrs : List A} (small : (frameAll toBytes encodeU64 addrs).length < 2 ^ 64) :
    Framed lib (frameAll toBytes encodeU64 addrs) addrs := by
  induction addrs with
  | nil => exact .done
  | cons addr rest ih =>
    have laidOut : frameAll toBytes encodeU64 (addr :: rest) =
        encodeU64 (toBytes addr).length ++ (toBytes addr ++ frameAll toBytes encodeU64 rest) := by
      rw [frameAll,List.flatMap_cons,List.append_assoc]
      rfl
    rw [laidOut] at small ⊢
    simp only [List.length_append] at small
    refine .next ?_ (trips.length _ (by omega) _) ?_ ?_ ?_
    · exact List.append_ne_nil_of_left_ne_nil (trips.some_ _) _
    · rw [List.length_append]
      omega
    · rw [List.take_left]
      exact trips.address addr
    · rw [List.drop_left]
      exact ih (by omega)

/-- A list that was framed behind the marker is read back. -/
theorem deserializeUnderlays_framed {toBytes : A → List Byte} {encodeU64 : Nat → List Byte}
    (trips : RoundTrips lib toBytes encodeU64) {addrs : List A} (few : addrs.length ≤ maxUnderlaysPerPeer)
    (small : (underlayListPrefix :: frameAll toBytes encodeU64 addrs).length ≤ maxUnderlayBytes) :
    deserializeUnderlays lib (underlayListPrefix :: frameAll toBytes encodeU64 addrs) = .ok addrs := by
  refine deserializeUnderlays_iff.mpr ⟨small,.list (framed_frameAll trips ?_) few⟩
  rw [List.length_cons] at small
  exact Nat.lt_of_lt_of_le (Nat.lt_of_succ_le small) (by decide)

/-- A decoded message gives the hints of its records in their order, one for each
    record that stands for one and none for the others, and a framed list of one to
    twenty addresses reads back. -/
theorem decodePeers_exact (lib : Libraries A P) :
    (∀ (body : List Byte) (records : List (List Byte × List Byte)), lib.decodePb body = some records →
      Batch lib records (decodePeers lib body)) ∧
    ∀ (toBytes : A → List Byte) (encodeU64 : Nat → List Byte), RoundTrips lib toBytes encodeU64 →
      ∀ addrs : List A, 1 ≤ addrs.length → addrs.length ≤ 20 →
        (underlayListPrefix :: frameAll toBytes encodeU64 addrs).length ≤ 2048 →
          deserializeUnderlays lib (underlayListPrefix :: frameAll toBytes encodeU64 addrs) = .ok addrs := by
  constructor
  · intro body records decoded
    rw [decodePeers,decoded]
    exact batch_filterMap records
  · intro toBytes encodeU64 trips addrs _ few small
    exact deserializeUnderlays_framed trips few small

/-- A message with a list that is cut short, between a record of one address and a
    record of a list. -/
def batchRecords : List (List Byte × List Byte) :=
  [(namedBytes,namedOverlay.toList),
    ([underlayListPrefix,11] ++ namedBytes.take 4,seedOverlay.toList),
    (underlayListPrefix :: frameAll id Wire.encodeVarint [namedBytes,namedBytes],seedOverlay.toList)]

/-- `encode_to_vec` of records without signatures and nonces. -/
def peersBody (records : List (List Byte × List Byte)) : List Byte :=
  records.flatMap fun (underlay,overlay) =>
    0x0a :: Wire.encodeDelimited (0x0a :: Wire.encodeDelimited underlay ++ 0x1a :: Wire.encodeDelimited overlay)

/-- Addresses that are kept as their bytes. -/
def plainLibraries : Libraries (List Byte) Nat where
  tryFrom data := some data
  toText addr := hexOf addr
  peerOf addr := if addr = namedBytes then some 5 else none
  decodePb body := if body = peersBody batchRecords then some batchRecords else none
  decodeU64 := Wire.decodeVarint

theorem plainLibraries_trips : RoundTrips plainLibraries id Wire.encodeVarint where
  address := fun _ => rfl
  length := fun _ word rest => Wire.decodeVarint_encode word rest
  some_ := fun n => List.ne_nil_of_length_pos (Wire.encodeVarint_pos n)

/-- The message with the short list in its middle, and a list that names an address twice. -/
theorem decodePeers_exact_named :
    Batch plainLibraries batchRecords (decodePeers plainLibraries (peersBody batchRecords)) ∧
    (decodePeers plainLibraries (peersBody batchRecords)).map PeerHint.underlays = [[namedBytes],[namedBytes,namedBytes]] ∧
    deserializeUnderlays plainLibraries (underlayListPrefix :: frameAll id Wire.encodeVarint [namedBytes,namedBytes]) =
      .ok [namedBytes,namedBytes] :=
  ⟨(decodePeers_exact plainLibraries).1 (peersBody batchRecords) _ rfl,by decide +kernel,
    (decodePeers_exact plainLibraries).2 id Wire.encodeVarint plainLibraries_trips _ (by decide) (by decide) (by decide)⟩

/-! ### An address that begins with the marker's byte -/

/-- `/webrtc/p2p/15W`, in bytes. The code of `/webrtc` is 281, which is 0x99 0x02. -/
def webrtcBytes : List Byte := [0x99,0x02,0xa5,0x03,3,0,1,5]

def webrtcAddr : List Char := "/webrtc/p2p/15W".toList

/-- A record of that address alone. -/
def webrtcRecords : List (List Byte × List Byte) := [(webrtcBytes,namedOverlay.toList)]

def webrtcLibraries : Libraries (List Char) Nat where
  tryFrom data := if data = webrtcBytes then some webrtcAddr else none
  toText addr := addr
  peerOf addr := if addr = webrtcAddr then some 5 else none
  decodePb body := if body = peersBody webrtcRecords then some webrtcRecords else none
  decodeU64 := Wire.decodeVarint

/-- The field is one multiaddress that names a peer, and no hint is made of it: it is
    read as a list, whose first address would be the two bytes of `/p2p`. -/
theorem webrtc_dropped :
    webrtcLibraries.decodePb (peersBody webrtcRecords) = some [(webrtcBytes,namedOverlay.toList)] ∧
    webrtcBytes.length ≤ maxUnderlayBytes ∧
    (∃ addr, webrtcLibraries.tryFrom webrtcBytes = some addr ∧ webrtcLibraries.peerOf addr = some 5) ∧
    decodePeers webrtcLibraries (peersBody webrtcRecords) = [] := by
  refine ⟨rfl,by decide,⟨webrtcAddr,rfl,rfl⟩,?_⟩
  decide +kernel

end Directswarm.Hive
