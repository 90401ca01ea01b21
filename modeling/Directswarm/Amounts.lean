import Directswarm.Cheques
import Directswarm.Messages
import Directswarm.Proximity

/-!
Amounts in messages: the payment threshold that a peer announces (`direct.rs`) and
what it accepts of a refresh (`growth.rs`). Two readers walk over the fields by
hand. The first one returns at the field 1, the second one reads on and takes the
last; on a message that is a list of fields they say what the list says
(`parseAnnounceThreshold_fields`, `parseAckAmount_fields`). The amount that
`refresh_probe` writes, in as few bytes as it needs, is read as itself
(`parseAckAmount_payment`).
-/
namespace Directswarm.Amounts
open Directswarm.Text Directswarm.Proximity Directswarm.Cheques Directswarm.Wire Directswarm.Messages

/-! ### The readers -/

/-- The loop of `parse_announce_threshold`. Each turn reads a byte at least. -/
def announceFrom : Nat → List Byte → Option Nat
  | _, [] => none
  | 0, _ :: _ => none
  | fuel + 1, b :: rest => do
    let (tag,rest) ← decodeVarint (b :: rest)
    let field := tag >>> 3
    let wire := tag &&& 0x7
    match wire with
    | 2 =>
      let (value,rest) ← decodeDelimited rest
      if field = 1 then
        if 32 < value.length then none else some (beWord value)
      else announceFrom fuel rest
    | 0 =>
      let (_,rest) ← decodeVarint rest
      announceFrom fuel rest
    | _ => none

/-- `parse_announce_threshold`. -/
def parseAnnounceThreshold (body : List Byte) : Option Nat := announceFrom body.length body

/-- `u64::from_be_bytes` of at most eight bytes, behind zeros. -/
def padded (value : List Byte) : Nat := beWord (List.replicate (8 - value.length) 0 ++ value)

/-- The loop of `parse_ack_amount`. -/
def ackFrom : Nat → List Byte → Option Nat → Option (Option Nat)
  | _, [], amount => some amount
  | 0, _ :: _, _ => none
  | fuel + 1, b :: rest, amount => do
    let (tag,rest) ← decodeVarint (b :: rest)
    match tag &&& 0x7 with
    | 2 =>
      let (value,rest) ← decodeDelimited rest
      if tag >>> 3 = 1 then
        if 8 < value.length then none else ackFrom fuel rest (some (padded value))
      else ackFrom fuel rest amount
    | 0 =>
      let (_,rest) ← decodeVarint rest
      ackFrom fuel rest amount
    | _ => none

/-- `parse_ack_amount`. -/
def parseAckAmount (body : List Byte) : Option Nat := (ackFrom body.length body none).bind fun amount => amount.or (some 0)

/-- The lowest bytes of a number, the most significant first. -/
def beBytes : Nat → Nat → List Byte
  | 0, _ => []
  | n + 1, v => Fin.ofNat 256 (v / 2 ^ (8 * n)) :: beBytes n v

/-- The `Payment` of `refresh_probe`. -/
def payment (attempted : Fin (2 ^ 64)) : List Byte :=
  let be := beBytes 8 attempted.val
  let first := (be.findIdx? fun b => b ≠ 0).getD 7
  let amount := be.drop first
  0x0a :: Fin.ofNat 256 amount.length :: amount

/-! ### What the fields say -/

/-- The string of a field 1. -/
def Field.one (f : Field) : Option (List Byte) :=
  match f.payload with
  | .bytes data => if f.number = 1 then some data else none
  | .varint _ => none

/-- The first field 1 is the threshold. -/
def announced (fields : List Field) : Option Nat :=
  (fields.findSome? Field.one).bind fun value => if 32 < value.length then none else some (beWord value)

/-- The last field 1 is the amount, and none is too long. -/
def accepted (fields : List Field) : Option Nat :=
  if ∀ value ∈ fields.filterMap Field.one, value.length ≤ 8 then
    some (((fields.filterMap Field.one).getLast?.map beWord).getD 0)
  else none

/-- A turn of the first loop, by the field that it reads. -/
theorem announceFrom_cons {fuel : Nat} {body rest : List Byte} {f : Field} (read : readField body = some (f,rest)) :
    announceFrom (fuel + 1) body =
      match Field.one f with
      | some value => if 32 < value.length then none else some (beWord value)
      | none => announceFrom fuel rest := by
  cases body with
  | nil => cases read
  | cons b more =>
    obtain ⟨tag,after,tagged,⟨wire,data,delimited,rfl⟩ | ⟨wire,value,number,rfl⟩⟩ := readField_cases read
    · rw [announceFrom,tagged]
      simp only [Option.bind_eq_bind,Option.bind_some,wire,delimited,Field.one]
      by_cases one : tag >>> 3 = 1
      · rw [if_pos one,if_pos one]
      · rw [if_neg one,if_neg one]
    · rw [announceFrom,tagged]
      simp only [Option.bind_eq_bind,Option.bind_some,wire,number,Field.one]

/-- A turn of the second loop. -/
theorem ackFrom_cons {fuel : Nat} {body rest : List Byte} {f : Field} (read : readField body = some (f,rest))
    (amount : Option Nat) : ackFrom (fuel + 1) body amount =
      match Field.one f with
      | some value => if 8 < value.length then none else ackFrom fuel rest (some (padded value))
      | none => ackFrom fuel rest amount := by
  cases body with
  | nil => cases read
  | cons b more =>
    obtain ⟨tag,after,tagged,⟨wire,data,delimited,rfl⟩ | ⟨wire,value,number,rfl⟩⟩ := readField_cases read
    · rw [ackFrom,tagged]
      simp only [Option.bind_eq_bind,Option.bind_some,wire,delimited,Field.one]
      by_cases one : tag >>> 3 = 1
      · rw [if_pos one,if_pos one]
      · rw [if_neg one,if_neg one]
    · rw [ackFrom,tagged]
      simp only [Option.bind_eq_bind,Option.bind_some,wire,number,Field.one]

theorem announceFrom_fields {fields : List Field} {fuel : Nat} {body : List Byte} (enough : body.length ≤ fuel)
    (read : readFields body = some fields) : announceFrom fuel body = announced fields := by
  induction fields generalizing fuel body with
  | nil =>
    rw [readFields_nil.mp read]
    cases fuel <;> rfl
  | cons f others ih =>
    obtain ⟨rest,front,after⟩ := readFields_cons.mp read
    have shorter := readField_shorter front
    obtain ⟨left,rfl⟩ : ∃ left, fuel = left + 1 := ⟨fuel - 1,by omega⟩
    rw [announceFrom_cons front,announced,List.findSome?_cons]
    cases at_ : Field.one f with
    | none => exact ih (by omega) after
    | some value => rfl

/-- The announced threshold is that of the first field 1. -/
theorem parseAnnounceThreshold_fields {fields : List Field} {body : List Byte} (read : readFields body = some fields) :
    parseAnnounceThreshold body = announced fields := announceFrom_fields le_rfl read

theorem beWord_zeros (n : Nat) (bytes : List Byte) : beWord (List.replicate n 0 ++ bytes) = beWord bytes := by
  induction n with
  | zero => rfl
  | succ n ih =>
    rw [List.replicate_succ,List.cons_append,beWord,ih]
    simp

theorem padded_eq (value : List Byte) : padded value = beWord value := beWord_zeros _ _

theorem ackFrom_fields {fields : List Field} {fuel : Nat} {body : List Byte} (enough : body.length ≤ fuel)
    (read : readFields body = some fields) (amount : Option Nat) : ackFrom fuel body amount =
      if ∀ value ∈ fields.filterMap Field.one, value.length ≤ 8 then
        some (((fields.filterMap Field.one).getLast?.map beWord).or amount)
      else none := by
  induction fields generalizing fuel body amount with
  | nil =>
    rw [readFields_nil.mp read]
    cases fuel <;> simp [ackFrom]
  | cons f others ih =>
    obtain ⟨rest,front,after⟩ := readFields_cons.mp read
    have shorter := readField_shorter front
    obtain ⟨left,rfl⟩ : ∃ left, fuel = left + 1 := ⟨fuel - 1,by omega⟩
    rw [ackFrom_cons front,List.filterMap_cons]
    cases at_ : Field.one f with
    | none => exact ih (by omega) after amount
    | some value =>
      simp only
      by_cases long : 8 < value.length
      · rw [if_pos long,if_neg]
        intro short
        have own := short value List.mem_cons_self
        omega
      · have own : value.length ≤ 8 := by omega
        rw [if_neg long,ih (by omega) after,padded_eq]
        simp only [List.mem_cons,forall_eq_or_imp,own,true_and,List.getLast?_cons,Option.map_some,Option.some_or]
        cases (others.filterMap Field.one).getLast? <;> rfl

/-- The accepted amount is that of the last field 1, or zero. -/
theorem parseAckAmount_fields {fields : List Field} {body : List Byte} (read : readFields body = some fields) :
    parseAckAmount body = accepted fields := by
  rw [parseAckAmount,ackFrom_fields le_rfl read,accepted]
  split
  · cases (fields.filterMap Field.one).getLast? <;> rfl
  · rfl

/-! ### The amount of a refresh -/

theorem beBytes_length (n v : Nat) : (beBytes n v).length = n := by
  induction n with
  | zero => rfl
  | succ n ih => rw [beBytes,List.length_cons,ih]

theorem beWord_beBytes (n v : Nat) : beWord (beBytes n v) = v % 2 ^ (8 * n) := by
  induction n with
  | zero => simp [beBytes,beWord,Nat.mod_one]
  | succ n ih =>
    have byte : (Fin.ofNat 256 (v / 2 ^ (8 * n))).val = v / 2 ^ (8 * n) % 2 ^ 8 := rfl
    rw [beBytes,beWord,ih,beBytes_length,byte,Nat.mul_succ,Nat.pow_add,Nat.mod_mul,Nat.mul_comm,Nat.add_comm]

/-- Zeros in front may be dropped. -/
theorem beWord_drop {bytes : List Byte} {n : Nat} (zeros : ∀ b ∈ bytes.take n, b = 0) : beWord (bytes.drop n) = beWord bytes := by
  have front : bytes.take n = List.replicate (bytes.take n).length 0 := List.eq_replicate_of_mem zeros
  conv_rhs => rw [← List.take_append_drop n bytes,front]
  exact (beWord_zeros _ _).symm

/-- What `refresh_probe` leaves of the eight bytes: the amount, in one to eight. -/
theorem payment_amount (attempted : Fin (2 ^ 64)) : ∃ amount : List Byte, payment attempted =
    0x0a :: Fin.ofNat 256 amount.length :: amount ∧ amount.length ≤ 8 ∧ beWord amount = attempted.val := by
  have eight := beBytes_length 8 attempted.val
  have whole : beWord (beBytes 8 attempted.val) = attempted.val := by
    rw [beWord_beBytes]
    exact Nat.mod_eq_of_lt attempted.isLt
  refine ⟨_,rfl,?_,?_⟩
  · rw [List.length_drop]
    omega
  · rw [beWord_drop,whole]
    intro b member
    cases at_ : (beBytes 8 attempted.val).findIdx? fun b => b ≠ 0 with
    | none =>
      have all := List.findIdx?_eq_none_iff.mp at_ b (List.mem_of_mem_take member)
      simpa using all
    | some i =>
      rw [at_] at member
      obtain ⟨j,inside,rfl⟩ := List.mem_take_iff_getElem.mp member
      obtain ⟨_,_,before⟩ := List.findIdx?_eq_some_iff_getElem.mp at_
      have zero := before j (by simp only [Option.getD_some] at inside; omega)
      simpa using zero

theorem readFields_payment (attempted : Fin (2 ^ 64)) :
    ∃ amount, readFields (payment attempted) = some [⟨1,.bytes amount⟩] ∧ amount.length ≤ 8 ∧ beWord amount = attempted.val := by
  obtain ⟨amount,body,short,means⟩ := payment_amount attempted
  have tag : encodeVarint (8 * 1 + 2) = [0x0a] := by decide
  have length : ∀ n ≤ 8, encodeVarint n = [Fin.ofNat 256 n] := by decide
  have written : payment attempted = encodeFields [⟨1,.bytes amount⟩] := by
    simp only [body,encodeFields,List.flatMap_cons,List.flatMap_nil,Field.encode,Field.tag,Payload.encode,encodeDelimited,tag,
      length _ short]
    simp
  refine ⟨amount,?_,short,means⟩
  rw [written]
  refine readFields_encode fun f member => ?_
  rw [List.mem_singleton.mp member]
  exact ⟨show 1 < 2 ^ 61 by decide,show amount.length < 2 ^ 64 by omega⟩

theorem parseAckAmount_payment (attempted : Fin (2 ^ 64)) : parseAckAmount (payment attempted) = some attempted.val := by
  obtain ⟨amount,read,short,means⟩ := readFields_payment attempted
  rw [parseAckAmount_fields read,accepted]
  simp [Field.one,short,means]

/-! ### One field among others -/

/-- A field that is none of the amount. -/
def Other (f : Field) : Prop := f.Fits ∧ f.number ≠ 1

theorem one_other {f : Field} (other : Other f) : Field.one f = none := by
  obtain ⟨number,payload⟩ := f
  cases payload with
  | varint value => rfl
  | bytes data => exact if_neg other.2

theorem readFields_among {before after : List Field} {value : List Byte} (others : ∀ f ∈ before ++ after, Other f)
    (short : value.length < 2 ^ 64) :
    readFields (encodeFields (before ++ ⟨1,.bytes value⟩ :: after)) = some (before ++ ⟨1,.bytes value⟩ :: after) := by
  refine readFields_encode fun f member => ?_
  rcases List.mem_append.mp member with earlier | later
  · exact (others f (List.mem_append_left _ earlier)).1
  · rcases List.mem_cons.mp later with rfl | last
    · exact ⟨show 1 < 2 ^ 61 by decide,short⟩
    · exact (others f (List.mem_append_right _ last)).1

theorem filterMap_others {fields : List Field} (others : ∀ f ∈ fields, Other f) : fields.filterMap Field.one = [] :=
  List.filterMap_eq_nil_iff.mpr fun f member => one_other (others f member)

theorem findSome?_others {fields : List Field} (others : ∀ f ∈ fields, Other f) : fields.findSome? Field.one = none :=
  List.findSome?_eq_none_iff.mpr fun f member => one_other (others f member)

/-- A threshold or an amount is read as what was sent, whatever fields stand around
    it; an answer without an amount is zero, and an attempted amount reads back. -/
theorem amounts_decoded :
    (∀ (threshold : U256) (value : List Byte) (before after : List Field), value.length ≤ 32 → beWord value = threshold.val →
      (∀ f ∈ before ++ after, Other f) →
      parseAnnounceThreshold (encodeFields (before ++ ⟨1,.bytes value⟩ :: after)) = some threshold.val) ∧
    (∀ (amount : Fin (2 ^ 64)) (value : List Byte) (before after : List Field), value.length ≤ 8 → beWord value = amount.val →
      (∀ f ∈ before ++ after, Other f) →
      parseAckAmount (encodeFields (before ++ ⟨1,.bytes value⟩ :: after)) = some amount.val) ∧
    (∀ fields : List Field, (∀ f ∈ fields, Other f) → parseAckAmount (encodeFields fields) = some 0) ∧
    ∀ attempted : Fin (2 ^ 64), parseAckAmount (payment attempted) = some attempted.val := by
  refine ⟨?_,?_,?_,parseAckAmount_payment⟩
  · intro threshold value before after short means others
    have earlier := findSome?_others fun f member => others f (List.mem_append_left after member)
    rw [parseAnnounceThreshold_fields (readFields_among others (by omega)),announced,List.findSome?_append,earlier,
      List.findSome?_cons]
    show (if 32 < value.length then none else some (beWord value)) = _
    rw [if_neg (by omega),means]
  · intro amount value before after short means others
    have earlier := filterMap_others fun f member => others f (List.mem_append_left after member)
    have later := filterMap_others fun f member => others f (List.mem_append_right before member)
    have only : (before ++ ⟨1,.bytes value⟩ :: after).filterMap Field.one = [value] := by
      rw [List.filterMap_append,earlier,List.filterMap_cons,later]
      rfl
    rw [parseAckAmount_fields (readFields_among others (by omega)),accepted,only]
    simp [short,means]
  · intro fields others
    rw [parseAckAmount_fields (readFields_encode fun f member => (others f member).1),accepted,filterMap_others others]
    simp

/-- A threshold of 864000 behind a negative timestamp, an amount of 50000 with a
    zero in front and a timestamp after it, and an answer that is empty. -/
theorem amounts_decoded_small :
    parseAnnounceThreshold (encodeFields ([⟨2,.varint (2 ^ 64 - 1)⟩] ++ ⟨1,.bytes [13,47,0]⟩ :: [])) = some 864000 ∧
    parseAckAmount (encodeFields ([] ++ ⟨1,.bytes [0,195,80]⟩ :: [⟨2,.varint 1234⟩])) = some 50000 ∧
    parseAckAmount (encodeFields []) = some 0 := by
  refine ⟨?_,?_,amounts_decoded.2.2.1 [] nofun⟩
  · refine amounts_decoded.1 864000 [13,47,0] _ _ (by decide) (by decide) fun f member => ?_
    rw [List.append_nil,List.mem_singleton] at member
    rw [member]
    exact ⟨⟨show 2 < 2 ^ 61 by decide,show 2 ^ 64 - 1 < 2 ^ 64 by decide⟩,show 2 ≠ 1 by decide⟩
  · refine amounts_decoded.2.1 50000 [0,195,80] _ _ (by decide) (by decide) fun f member => ?_
    rw [List.nil_append,List.mem_singleton] at member
    rw [member]
    exact ⟨⟨show 2 < 2 ^ 61 by decide,show 1234 < 2 ^ 64 by decide⟩,show 2 ≠ 1 by decide⟩

end Directswarm.Amounts
