import Mathlib.Algebra.Order.Ring.Nat
import Mathlib.Data.ZMod.Defs
import Mathlib.Tactic.Common

/-!
Unsigned machine arithmetic on natural numbers below a power of two, in the
three manners a program chooses between: saturating, wrapping and checked.
Saturating subtraction is the truncated subtraction of `Nat`.
-/
namespace Directswarm.Words

/-- The largest 64-bit value. -/
def u64Max : Nat := 2 ^ 64 - 1

theorem u64Max_succ : u64Max + 1 = 2 ^ 64 := by decide

/-! The widths of words and amounts, as the numerals of these types need them. -/

instance neZero_u32 : NeZero (2 ^ 32) := ⟨by decide⟩
instance neZero_u64 : NeZero (2 ^ 64) := ⟨by decide⟩
instance neZero_u256 : NeZero (2 ^ 256) := ⟨by decide⟩

/-- Saturating addition of 64-bit values. -/
def satAdd (a b : Nat) : Nat := min (a + b) u64Max
/-- Saturating multiplication of 64-bit values. -/
def satMul (a b : Nat) : Nat := min (a * b) u64Max
/-- Wrapping addition of 64-bit values. -/
def wrapAdd (a b : Nat) : Nat := (a + b) % 2 ^ 64
/-- Wrapping multiplication of 64-bit values. -/
def wrapMul (a b : Nat) : Nat := (a * b) % 2 ^ 64
/-- Wrapping subtraction of 64-bit values. -/
def wrapSub (a b : Nat) : Nat := (a + (2 ^ 64 - b)) % 2 ^ 64
/-- Checked addition at a width. -/
def checkedAdd (width a b : Nat) : Option Nat := if a + b < 2 ^ width then some (a + b) else none
/-- Checked multiplication at a width. -/
def checkedMul (width a b : Nat) : Option Nat := if a * b < 2 ^ width then some (a * b) else none
/-- The value as 64 bits, the largest one standing for all that do not fit. -/
def clamp64 (a : Nat) : Nat := if a < 2 ^ 64 then a else u64Max

theorem satAdd_le_max (a b : Nat) : satAdd a b ≤ u64Max := Nat.min_le_right _ _
theorem satAdd_le (a b : Nat) : satAdd a b ≤ a + b := Nat.min_le_left _ _
theorem le_satAdd {a : Nat} (small : a ≤ u64Max) (b : Nat) : a ≤ satAdd a b := by
  unfold satAdd
  omega
theorem satAdd_exact {a b : Nat} (fits : a + b ≤ u64Max) : satAdd a b = a + b := Nat.min_eq_left fits

/-- A saturating sum under a limit below the ceiling is the exact sum. -/
theorem satAdd_lt {a b limit : Nat} (under : satAdd a b ≤ limit) (low : limit < u64Max) : a + b ≤ limit := by
  unfold satAdd at under; omega

theorem satMul_le (a b : Nat) : satMul a b ≤ a * b := Nat.min_le_left _ _

theorem wrapAdd_exact {a b : Nat} (fits : a + b < 2 ^ 64) : wrapAdd a b = a + b := Nat.mod_eq_of_lt fits
theorem wrapAdd_le (a b : Nat) : wrapAdd a b ≤ a + b := Nat.mod_le _ _
theorem wrapAdd_lt (a b : Nat) : wrapAdd a b < 2 ^ 64 := Nat.mod_lt _ (by decide)

theorem wrapSub_exact {a b : Nat} (order : b ≤ a) (small : a < 2 ^ 64) : wrapSub a b = a - b := by
  unfold wrapSub
  have shift : a + (2 ^ 64 - b) = (a - b) + 2 ^ 64 := by omega
  rw [shift,Nat.add_mod_right,Nat.mod_eq_of_lt (by omega)]

/-- Taking back what was added wraps to the value before. -/
theorem wrapSub_wrapAdd {a b : Nat} (ha : a < 2 ^ 64) (hb : b < 2 ^ 64) : wrapSub (wrapAdd a b) b = a := by
  unfold wrapSub wrapAdd; omega

/-- And adding back what was taken. -/
theorem wrapAdd_wrapSub {a b : Nat} (ha : a < 2 ^ 64) (hb : b < 2 ^ 64) : wrapAdd (wrapSub a b) b = a := by
  unfold wrapSub wrapAdd; omega

theorem clamp64_lt (a : Nat) : clamp64 a < 2 ^ 64 := by
  unfold clamp64 u64Max; split <;> omega
theorem clamp64_exact {a : Nat} (fits : a < 2 ^ 64) : clamp64 a = a := if_pos fits

/-- A saturating sum with a clamped value under a limit below the ceiling is exact. -/
theorem clamp64_small {a b limit : Nat} (under : satAdd a (clamp64 b) ≤ limit) (low : limit < u64Max) : b < 2 ^ 64 := by
  by_contra large
  have top : clamp64 b = u64Max := if_neg large
  rw [top] at under
  have := satAdd_lt under low
  omega

theorem checkedAdd_some {width a b c : Nat} : checkedAdd width a b = some c ↔ a + b < 2 ^ width ∧ c = a + b := by
  unfold checkedAdd
  by_cases fits : a + b < 2 ^ width
  · simp [fits,eq_comm]
  · simp [fits]
theorem checkedMul_some {width a b c : Nat} : checkedMul width a b = some c ↔ a * b < 2 ^ width ∧ c = a * b := by
  unfold checkedMul
  by_cases fits : a * b < 2 ^ width
  · simp [fits,eq_comm]
  · simp [fits]

end Directswarm.Words
