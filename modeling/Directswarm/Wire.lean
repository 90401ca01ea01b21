import Mathlib.Data.Nat.Bitwise
import Directswarm.Text

/-!
The wire format of protobuf messages: numbers in groups of seven bits, the lowest
first, and byte strings behind their length. What is encoded is read back, and what
follows it is left (`decodeVarint_encode`, `decodeDelimited_encode`).
-/
namespace Directswarm.Wire
open Directswarm.Text

/-! ### Numbers -/

/-- `encode_varint`, for a number of at most so many groups. -/
def encodeFrom : Nat → Nat → List Byte
  | 0, _ => []
  | groups + 1, value =>
    let byte := value &&& 0x7f
    let value := value >>> 7
    if value = 0 then [Fin.ofNat 256 byte] else Fin.ofNat 256 (byte ||| 0x80) :: encodeFrom groups value

/-- `encode_varint`. A 64-bit number has ten groups at most. -/
def encodeVarint (value : Nat) : List Byte := encodeFrom 10 value

/-- The loop of `decode_varint`. -/
def decodeFrom : Nat → Nat → List Byte → Option (Nat × List Byte)
  | _, _, [] => none
  | i, value, byte :: rest =>
    if 10 ≤ i then none else
    let value := value ||| ((byte.val &&& 0x7f) <<< (7 * i)) % 2 ^ 64
    if byte.val &&& 0x80 = 0 then some (value,rest) else decodeFrom (i + 1) value rest

/-- `decode_varint`. -/
def decodeVarint (buf : List Byte) : Option (Nat × List Byte) := decodeFrom 0 0 buf

theorem low_bits (n : Nat) : n &&& 0x7f = n % 128 := Nat.and_two_pow_sub_one_eq_mod n 7

/-- The flag of a group that another one follows. -/
theorem high_bit : ∀ n < 128, n &&& 0x80 = 0 ∧ n + 128 &&& 0x80 ≠ 0 := by decide +kernel

theorem last_group {n : Nat} (small : n < 128) : (Fin.ofNat 256 n).val = n := Nat.mod_eq_of_lt (by omega)

theorem more_groups {n : Nat} (small : n < 128) : (Fin.ofNat 256 (n ||| 0x80)).val = n + 128 := by
  have sum := Nat.two_pow_add_eq_or_of_lt (i := 7) small 1
  have flag : n ||| 0x80 = n + 128 := by
    rw [Nat.or_comm]
    show 2 ^ 7 * 1 ||| n = n + 128
    omega
  rw [flag]
  exact Nat.mod_eq_of_lt (by omega)

/-- The groups so far and the next one do not overlap. -/
theorem or_group {acc i v : Nat} (below : acc < 2 ^ (7 * i)) (fits : v * 2 ^ (7 * i) < 2 ^ 64) :
    acc ||| (v <<< (7 * i)) % 2 ^ 64 = acc + v * 2 ^ (7 * i) := by
  have sum := Nat.two_pow_add_eq_or_of_lt below v
  rw [Nat.shiftLeft_eq,Nat.mod_eq_of_lt fits,Nat.or_comm,Nat.mul_comm,← sum]
  omega

theorem decodeFrom_encode {groups i : Nat} (count : groups + i = 10) {value acc : Nat} (some_ : 0 < groups)
    (word : value * 2 ^ (7 * i) < 2 ^ 64) (below : acc < 2 ^ (7 * i)) (rest : List Byte) :
    decodeFrom i acc (encodeFrom groups value ++ rest) = some (acc + value * 2 ^ (7 * i),rest) := by
  induction groups generalizing i value acc with
  | zero => cases some_
  | succ groups ih =>
    have inside : ¬10 ≤ i := by omega
    have group : value % 128 < 128 := Nat.mod_lt _ (by decide)
    have low : value % 128 * 2 ^ (7 * i) < 2 ^ 64 :=
      (Nat.mul_le_mul_right _ (Nat.mod_le _ _)).trans_lt word
    have shift : value >>> 7 = value / 128 := Nat.shiftRight_eq_div_pow value 7
    simp only [encodeFrom,low_bits,shift]
    by_cases last : value / 128 = 0
    · have whole : value % 128 = value := Nat.mod_eq_of_lt (by omega)
      rw [if_pos last,List.singleton_append,decodeFrom,if_neg inside]
      simp only [last_group group,low_bits,Nat.mod_eq_of_lt group,or_group below low,if_pos (high_bit _ group).1]
      rw [whole]
    · rw [if_neg last,List.cons_append,decodeFrom,if_neg inside]
      have bits : (value % 128 + 128) % 128 = value % 128 := by omega
      simp only [more_groups group,low_bits,bits,or_group below low,if_neg (high_bit _ group).2]
      -- A group more is still to come, so the value reaches past it.
      have power : (2 : Nat) ^ (7 * (i + 1)) = 128 * 2 ^ (7 * i) := by rw [Nat.mul_add,Nat.pow_add,Nat.mul_comm]
      have split : value * 2 ^ (7 * i) = value % 128 * 2 ^ (7 * i) + value / 128 * 2 ^ (7 * (i + 1)) := by
        rw [power,← Nat.mul_assoc,← Nat.add_mul]
        congr 1
        omega
      have onward : 0 < groups := by
        by_contra none_
        have top : 2 ^ (7 * (i + 1)) ≤ value / 128 * 2 ^ (7 * (i + 1)) := Nat.le_mul_of_pos_left _ (Nat.pos_of_ne_zero last)
        have nine : i = 9 := by omega
        subst nine
        omega
      have below' : acc + value % 128 * 2 ^ (7 * i) < 2 ^ (7 * (i + 1)) := by
        rw [power]
        have most : value % 128 * 2 ^ (7 * i) ≤ 127 * 2 ^ (7 * i) := Nat.mul_le_mul_right _ (by omega)
        omega
      rw [ih (by omega) onward (by omega) below',split,Nat.add_assoc]

theorem decodeVarint_encode {value : Nat} (word : value < 2 ^ 64) (rest : List Byte) :
    decodeVarint (encodeVarint value ++ rest) = some (value,rest) := by
  have read := @decodeFrom_encode 10 0 rfl value 0 (by decide) (by omega) (by decide) rest
  rwa [Nat.mul_zero,Nat.pow_zero,Nat.mul_one,Nat.zero_add] at read

theorem encodeVarint_pos (value : Nat) : 0 < (encodeVarint value).length := by
  unfold encodeVarint encodeFrom
  simp only
  split <;> simp

/-! ### Byte strings -/

/-- A byte string behind its length. -/
def encodeDelimited (bytes : List Byte) : List Byte := encodeVarint bytes.length ++ bytes

/-- Its length and the bytes themselves are read off. -/
def decodeDelimited (buf : List Byte) : Option (List Byte × List Byte) := do
  let (len,after) ← decodeVarint buf
  if len ≤ after.length then some (after.take len,after.drop len) else none

theorem decodeDelimited_encode {bytes : List Byte} (word : bytes.length < 2 ^ 64) (rest : List Byte) :
    decodeDelimited (encodeDelimited bytes ++ rest) = some (bytes,rest) := by
  rw [decodeDelimited,encodeDelimited,List.append_assoc,decodeVarint_encode word]
  simp

end Directswarm.Wire
