import Mathlib.Data.Vector.Basic
import Mathlib.Data.LawfulXor.Basic
import Directswarm.Text

/-!
Neighborhoods of addresses: the proximity order of `swarm.rs`, the bucket keys of
`schedule.rs`, and that the two agree (`le_proximity_iff`). Both are read as the
number of leading bits that two byte strings share.
-/
namespace Directswarm.Proximity
open Directswarm.Text

/-! ### Byte strings that share leading bits -/

/-- Two byte strings agree on their first `n` bits, as far as both go. -/
def Agrees : Nat → List Byte → List Byte → Prop
  | n, x :: xs, y :: ys =>
    if n ≤ 8 then x.val / 2 ^ (8 - n) = y.val / 2 ^ (8 - n) else x = y ∧ Agrees (n - 8) xs ys
  | _, _, _ => True

/-- The bytes of a word, the most significant first. -/
def beWord : List Byte → Nat
  | [] => 0
  | b :: rest => b.val * 2 ^ (8 * rest.length) + beWord rest

theorem beWord_lt (bytes : List Byte) : beWord bytes < 2 ^ (8 * bytes.length) := by
  induction bytes with
  | nil => simp [beWord]
  | cons b rest ih =>
    have byte := b.isLt
    rw [beWord,List.length_cons]
    calc b.val * 2 ^ (8 * rest.length) + beWord rest
        < b.val * 2 ^ (8 * rest.length) + 2 ^ (8 * rest.length) := Nat.add_lt_add_left ih _
      _ = (b.val + 1) * 2 ^ (8 * rest.length) := by rw [Nat.add_mul,Nat.one_mul]
      _ ≤ 2 ^ 8 * 2 ^ (8 * rest.length) := Nat.mul_le_mul_right _ byte
      _ = 2 ^ (8 * (rest.length + 1)) := by rw [← Nat.pow_add]; congr 1; omega

theorem high_part {d q r : Nat} (low : r < d) : (q * d + r) / d = q := by
  rw [Nat.mul_comm,Nat.mul_add_div (by omega),Nat.div_eq_of_lt low,Nat.add_zero]

/-- Agreement is equality of the words without their last bits. -/
theorem agrees_iff_beWord {n : Nat} {xs ys : List Byte} (same : xs.length = ys.length) (inside : n ≤ 8 * xs.length) :
    Agrees n xs ys ↔ beWord xs / 2 ^ (8 * xs.length - n) = beWord ys / 2 ^ (8 * ys.length - n) := by
  induction xs generalizing n ys with
  | nil =>
    have none_ : ys = [] := List.length_eq_zero_iff.mp same.symm
    simp [none_,Agrees]
  | cons x xs ih =>
    obtain _ | ⟨y,ys⟩ := ys
    · simp at same
    have tails : xs.length = ys.length := by simpa using same
    have xBelow := beWord_lt xs
    have yBelow := beWord_lt ys
    rw [← tails] at yBelow
    simp only [List.length_cons] at inside ⊢
    simp only [Agrees,beWord,← tails]
    generalize xs.length = m at *
    split
    · next short =>
      -- The bits compared all lie in the first bytes.
      have exponent : 8 * (m + 1) - n = 8 * m + (8 - n) := by omega
      have head : ∀ b rest : Nat, rest < 2 ^ (8 * m) →
          (b * 2 ^ (8 * m) + rest) / 2 ^ (8 * (m + 1) - n) = b / 2 ^ (8 - n) := by
        intro b rest below
        rw [exponent,Nat.pow_add,← Nat.div_div_eq_div_mul,high_part below]
      rw [head _ _ xBelow,head _ _ yBelow]
    · next long =>
      -- The first bytes are compared whole.
      have exponent : 8 * (m + 1) - n = 8 * m - (n - 8) := by omega
      have split_ : 2 ^ (8 * m) = 2 ^ (8 * m - (n - 8)) * 2 ^ (n - 8) := by
        rw [← Nat.pow_add]; congr 1; omega
      have parts : ∀ b rest : Nat, (b * 2 ^ (8 * m) + rest) / 2 ^ (8 * (m + 1) - n) =
          b * 2 ^ (n - 8) + rest / 2 ^ (8 * m - (n - 8)) := by
        intro b rest
        rw [exponent,split_,← Nat.mul_assoc,Nat.mul_right_comm,Nat.mul_comm _ (2 ^ (8 * m - (n - 8))),
          Nat.mul_add_div (Nat.two_pow_pos _)]
      have low : ∀ rest : Nat, rest < 2 ^ (8 * m) → rest / 2 ^ (8 * m - (n - 8)) < 2 ^ (n - 8) := by
        intro rest below
        rw [Nat.div_lt_iff_lt_mul (Nat.two_pow_pos _),Nat.mul_comm,← split_]
        exact below
      rw [parts,parts,ih tails (by omega),← tails]
      have xLow := low _ xBelow
      have yLow := low _ yBelow
      constructor
      · rintro ⟨rfl,rest⟩
        rw [rest]
      · intro equal
        have heads : x.val = y.val := by
          have := congrArg (· / 2 ^ (n - 8)) equal
          simpa only [high_part xLow,high_part yLow] using this
        refine ⟨Fin.ext heads,?_⟩
        rw [heads] at equal
        omega

/-! ### The proximity order -/

/-- `MAX_PO`. -/
def maxPo : Nat := 31

/-- `u8::leading_zeros`. -/
def leadingZeros (d : Nat) : Nat := if d = 0 then 8 else 7 - Nat.log2 d

/-- The loop of `proximity`, at byte `i`. -/
def proximityFrom (i : Nat) : List Byte → List Byte → Nat
  | x :: xs, y :: ys =>
    let diff := x.val ^^^ y.val
    if diff ≠ 0 then min (i * 8 + leadingZeros diff) maxPo else proximityFrom (i + 1) xs ys
  | _, _ => maxPo

/-- A 32-byte address. -/
abbrev SwarmAddress := List.Vector Byte 32

def proximity (a b : SwarmAddress) : Nat := proximityFrom 0 a.toList b.toList

/-- Two different bytes share as many bits as the leading zeros of their difference. -/
theorem le_leadingZeros_iff {x y : Byte} {n : Nat} (differ : x ≠ y) (inside : n ≤ 8) :
    n ≤ leadingZeros (x.val ^^^ y.val) ↔ x.val / 2 ^ (8 - n) = y.val / 2 ^ (8 - n) := by
  have nonzero : x.val ^^^ y.val ≠ 0 := by
    intro zero
    exact differ (Fin.ext (xor_eq_zero_iff.mp zero))
  have small : Nat.log2 (x.val ^^^ y.val) < 8 := by
    rw [Nat.log2_lt nonzero]
    exact Nat.xor_lt_two_pow x.isLt y.isLt
  have bits : x.val / 2 ^ (8 - n) = y.val / 2 ^ (8 - n) ↔ x.val ^^^ y.val < 2 ^ (8 - n) := by
    rw [← Nat.shiftRight_eq_div_pow,← Nat.shiftRight_eq_div_pow,← xor_eq_zero_iff,← Nat.shiftRight_xor_distrib,
      Nat.shiftRight_eq_div_pow,Nat.div_eq_zero_iff]
    simp
  rw [bits,← Nat.log2_lt nonzero,leadingZeros,if_neg nonzero]
  omega

theorem le_proximityFrom (i : Nat) (xs ys : List Byte) : min (i * 8) maxPo ≤ proximityFrom i xs ys := by
  induction xs generalizing i ys with
  | nil => simp [proximityFrom]
  | cons x xs ih =>
    obtain _ | ⟨y,ys⟩ := ys
    · simp [proximityFrom]
    · have later := ih (i + 1) ys
      simp only [proximityFrom]
      split <;> omega

theorem le_proximityFrom_iff {i n : Nat} {xs ys : List Byte} (inside : i * 8 + n ≤ maxPo) :
    i * 8 + n ≤ proximityFrom i xs ys ↔ Agrees n xs ys := by
  induction xs generalizing i n ys with
  | nil => simpa [proximityFrom,Agrees] using inside
  | cons x xs ih =>
    obtain _ | ⟨y,ys⟩ := ys
    · simpa [proximityFrom,Agrees] using inside
    by_cases same : x = y
    · subst same
      have onward : proximityFrom i (x :: xs) (x :: ys) = proximityFrom (i + 1) xs ys := by simp [proximityFrom]
      rw [onward,Agrees]
      split
      · next short =>
        have least := le_proximityFrom (i + 1) xs ys
        simp only [iff_true]
        omega
      · next long =>
        have later := @ih (i + 1) (n - 8) ys (by omega)
        rw [← later]
        constructor
        · exact fun le => ⟨rfl,by omega⟩
        · exact fun both => by omega
    · have nonzero : x.val ^^^ y.val ≠ 0 := by
        intro zero
        exact same (Fin.ext (xor_eq_zero_iff.mp zero))
      have here : proximityFrom i (x :: xs) (y :: ys) = min (i * 8 + leadingZeros (x.val ^^^ y.val)) maxPo := by
        simp [proximityFrom,nonzero]
      have most : leadingZeros (x.val ^^^ y.val) ≤ 7 := by rw [leadingZeros,if_neg nonzero]; omega
      rw [here,Agrees]
      split
      · next short =>
        rw [← le_leadingZeros_iff same short]
        omega
      · next long =>
        constructor
        · omega
        · exact fun both => absurd both.1 same

/-! ### Bucket keys -/

/-- `bucket_prefix`: the first `depth` bits of an address. -/
def bucketPrefix (addr : SwarmAddress) (depth : Nat) : Nat :=
  let v := beWord (addr.toList.take 8)
  if depth = 0 then 0 else v >>> (64 - min depth 63)

theorem agrees_take (n : Nat) (xs ys : List Byte) (m : Nat) (inside : n ≤ 8 * m) :
    Agrees n (xs.take m) (ys.take m) ↔ Agrees n xs ys := by
  induction m generalizing n xs ys with
  | zero =>
    have zero : n = 0 := by omega
    subst zero
    obtain _ | ⟨x,xs⟩ := xs <;> obtain _ | ⟨y,ys⟩ := ys <;> simp [Agrees]
    omega
  | succ m ih =>
    obtain _ | ⟨x,xs⟩ := xs
    · simp [Agrees]
    obtain _ | ⟨y,ys⟩ := ys
    · simp [Agrees]
    simp only [List.take_succ_cons,Agrees]
    split
    · rfl
    · rw [ih (n - 8) xs ys (by omega)]

/-- A peer is as close as the depth exactly when its bucket is that of the chunk. -/
theorem le_proximity_iff {a b : SwarmAddress} {depth : Nat} (inside : depth ≤ maxPo) :
    depth ≤ proximity a b ↔ bucketPrefix a depth = bucketPrefix b depth := by
  have loop := @le_proximityFrom_iff 0 depth a.toList b.toList (by omega)
  have lengthA : (a.toList.take 8).length = 8 := by simp
  have lengthB : (b.toList.take 8).length = 8 := by simp
  rw [Nat.zero_mul,Nat.zero_add] at loop
  unfold maxPo at inside
  rw [proximity,loop,← agrees_take depth _ _ 8 (by omega),agrees_iff_beWord (lengthA.trans lengthB.symm) (by omega),lengthA,lengthB]
  unfold bucketPrefix
  by_cases zero : depth = 0
  · subst zero
    have a64 := beWord_lt (a.toList.take 8)
    have b64 := beWord_lt (b.toList.take 8)
    rw [lengthA] at a64
    rw [lengthB] at b64
    rw [Nat.sub_zero,Nat.div_eq_of_lt a64,Nat.div_eq_of_lt b64]
    simp
  · simp only [if_neg zero,Nat.shiftRight_eq_div_pow,Nat.min_eq_left (show depth ≤ 63 by omega)]

end Directswarm.Proximity
