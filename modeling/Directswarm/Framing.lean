import Directswarm.Messages

/-!
Messages behind their length on a stream (`direct.rs`). `read_delimited` reads the
length a byte at a time and stops by its shift, `decode_varint` takes it off a
slice of ten bytes; they accept the same lengths and leave the same bytes
(`readLength_eq`). So a message that is written behind its length is read back
(`readDelimited_framed`), and the one that `emit_settlement_cheque` writes is a
single field with the cheque in it (`readFields_chequeMessage`).
-/
namespace Directswarm.Framing
open Directswarm.Text Directswarm.Wire Directswarm.Messages

/-! ### Reading from a stream -/

/-- Why `read_delimited` fails. -/
inductive ReadError
  /-- The stream ended before the bytes that `read_exact` wanted. -/
  | unexpectedEof
  | invalidData (text : List Char)
  deriving DecidableEq

/-- The loop that reads the length. -/
def readLength : Nat → Nat → List Byte → Except ReadError (Nat × List Byte)
  | _, _, [] => .error .unexpectedEof
  | shift, len, byte :: stream =>
    let len := len ||| ((byte.val &&& 0x7f) <<< shift) % 2 ^ 64
    if byte.val &&& 0x80 = 0 then .ok (len,stream)
    else if 63 < shift + 7 then .error (.invalidData "varint too long".toList)
    else readLength (shift + 7) len stream

/-- `read_delimited`, with the bytes that it leaves on the stream. -/
def readDelimited (stream : List Byte) (max : Fin (2 ^ 64)) : Except ReadError (List Byte × List Byte) := do
  let (len,stream) ← readLength 0 0 stream
  -- `usize::try_from`, where a `usize` has 64 bits.
  if 2 ^ 64 ≤ len then .error (.invalidData "varint overflow".toList)
  else if max.val < len then
    .error (.invalidData ("message too large: ".toList ++ decimal len ++ " bytes (cap ".toList ++ decimal max.val ++ [')']))
  else if stream.length < len then .error .unexpectedEof
  else .ok (stream.take len,stream.drop len)

/-! ### Writing a cheque -/

/-- `EmitCheque`, the message of `emit_settlement_cheque`. -/
def chequeMessage (chequeJson : List Byte) : List Byte := 0x0a :: (encodeVarint chequeJson.length ++ chequeJson)

/-- The message behind its length, as it goes out. -/
def chequeFrame (chequeJson : List Byte) : List Byte :=
  let msg := chequeMessage chequeJson
  encodeVarint msg.length ++ msg

/-! ### The two loops -/

/-- At the same group, with the same bits so far, both go on alike. -/
theorem readLength_from {i : Nat} (inside : i ≤ 9) (len : Nat) (stream : List Byte) :
    (readLength (7 * i) len stream).toOption = decodeFrom i len stream := by
  induction stream generalizing i len with
  | nil => rfl
  | cons byte rest ih =>
    have begun : ¬10 ≤ i := by omega
    rw [readLength,decodeFrom,if_neg begun]
    simp only
    by_cases stops : byte.val &&& 0x80 = 0
    · rw [if_pos stops,if_pos stops]
      rfl
    · rw [if_neg stops,if_neg stops]
      by_cases last : i = 9
      · -- The tenth byte must be the last one of either loop.
        subst last
        rw [if_pos (by decide)]
        cases rest <;> rfl
      · rw [if_neg (by omega),show 7 * i + 7 = 7 * (i + 1) by omega]
        exact ih (by omega) _

theorem readLength_eq (stream : List Byte) : (readLength 0 0 stream).toOption = decodeVarint stream :=
  readLength_from (Nat.zero_le 9) 0 stream

theorem readLength_ok {stream rest : List Byte} {len : Nat} :
    readLength 0 0 stream = .ok (len,rest) ↔ decodeVarint stream = some (len,rest) := by
  rw [← readLength_eq]
  cases readLength 0 0 stream with
  | error e => simp [Except.toOption]
  | ok read => simp [Except.toOption]

/-! ### What is written is what is read -/

/-- A message behind its length is read, and what follows is left. -/
theorem readDelimited_framed {m : List Byte} {max : Fin (2 ^ 64)} (fits : m.length ≤ max.val) (rest : List Byte) :
    readDelimited (encodeVarint m.length ++ m ++ rest) max = .ok (m,rest) := by
  have word : m.length < 2 ^ 64 := fits.trans_lt max.isLt
  have length : readLength 0 0 (encodeVarint m.length ++ m ++ rest) = .ok (m.length,m ++ rest) := by
    rw [readLength_ok,List.append_assoc]
    exact decodeVarint_encode word (m ++ rest)
  rw [readDelimited,length]
  show (if 2 ^ 64 ≤ m.length then _ else _) = _
  have whole : ¬(m ++ rest).length < m.length := by
    rw [List.length_append]
    omega
  rw [if_neg (by omega),if_neg (by omega),if_neg whole,List.take_left,List.drop_left]

/-- The message of a cheque is the field 1 of `EmitCheque`. -/
theorem chequeMessage_eq (chequeJson : List Byte) : chequeMessage chequeJson = encodeFields [⟨1,.bytes chequeJson⟩] := by
  have tag : encodeVarint (8 * 1 + 2) = [0x0a] := by decide
  simp only [encodeFields,List.flatMap_cons,List.flatMap_nil,Field.encode,Field.tag,Payload.encode,encodeDelimited,tag]
  simp [chequeMessage]

theorem readFields_chequeMessage {chequeJson : List Byte} (word : chequeJson.length < 2 ^ 64) :
    readFields (chequeMessage chequeJson) = some [⟨1,.bytes chequeJson⟩] := by
  rw [chequeMessage_eq]
  refine readFields_encode fun f member => ?_
  rw [List.mem_singleton.mp member]
  exact ⟨show 1 < 2 ^ 61 by decide,word⟩

/-- Numbers and messages read back with what follows them left, the two readers of a
    length agree on every stream, and the frame of a cheque is read as a message
    whose only field is the cheque. -/
theorem framing_agrees :
    (∀ (value : Fin (2 ^ 64)) (rest : List Byte), decodeVarint (encodeVarint value.val ++ rest) = some (value.val,rest)) ∧
    (∀ (m rest : List Byte) (cap : Fin (2 ^ 64)), m.length ≤ cap.val →
      readDelimited (encodeVarint m.length ++ m ++ rest) cap = .ok (m,rest)) ∧
    (∀ (stream rest : List Byte) (len : Nat),
      readLength 0 0 stream = .ok (len,rest) ↔ decodeVarint stream = some (len,rest)) ∧
    ∀ (chequeJson rest : List Byte) (cap : Fin (2 ^ 64)), (chequeMessage chequeJson).length ≤ cap.val →
      ∃ message, readDelimited (chequeFrame chequeJson ++ rest) cap = .ok (message,rest) ∧
        readFields message = some [⟨1,.bytes chequeJson⟩] := by
  refine ⟨fun value rest => decodeVarint_encode value.isLt rest,fun m rest cap fits => readDelimited_framed fits rest,
    fun stream rest len => readLength_ok,?_⟩
  intro chequeJson rest cap fits
  have word : chequeJson.length < 2 ^ 64 := by
    have inside := cap.isLt
    simp only [chequeMessage,List.length_cons,List.length_append] at fits
    omega
  exact ⟨chequeMessage chequeJson,readDelimited_framed fits rest,readFields_chequeMessage word⟩

/-- Three bytes under a cap of 2048, and a cheque of two bytes before another message. -/
theorem framing_agrees_small :
    readDelimited (encodeVarint 3 ++ [7,8,9] ++ [0x99]) 2048 = .ok ([7,8,9],[0x99]) ∧
    ∃ message, readDelimited (chequeFrame [0x7b,0x7d] ++ [5]) 2048 = .ok (message,[5]) ∧
      readFields message = some [⟨1,.bytes [0x7b,0x7d]⟩] :=
  ⟨framing_agrees.2.1 [7,8,9] [0x99] 2048 (by decide),framing_agrees.2.2.2 [0x7b,0x7d] [5] 2048 (by decide)⟩

end Directswarm.Framing
