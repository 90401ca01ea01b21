import Mathlib.Algebra.BigOperators.Group.List.Basic
import Directswarm.Words

/-!
Operations on 64-bit values that a program leaves unchecked, as values: what a step
of it computes is a list of them, and the step is free of overflows when each one is
exact. The operands are the exact values, since an operation that is not exact makes
the list fail at that place already.
-/
namespace Directswarm.Unchecked
open Directswarm.Words

/-- An operation with its operands. -/
inductive Op
  | add (a b : Nat)
  | sub (a b : Nat)
  | mul (a b : Nat)
  deriving DecidableEq

/-- The result fits into 64 bits. -/
def Op.Exact : Op → Prop
  | .add a b => a + b < 2 ^ 64
  | .sub a b => b ≤ a
  | .mul a b => a * b < 2 ^ 64

instance : (op : Op) → Decidable op.Exact
  | .add _ _ | .mul _ _ => inferInstanceAs (Decidable (_ < _))
  | .sub _ _ => inferInstanceAs (Decidable (_ ≤ _))

/-- Every operation of a list is exact. -/
def AllExact (ops : List Op) : Prop := ∀ op ∈ ops, op.Exact

instance (ops : List Op) : Decidable (AllExact ops) := inferInstanceAs (Decidable (∀ op ∈ ops, op.Exact))

@[simp] theorem allExact_nil : AllExact [] := by simp [AllExact]
@[simp] theorem allExact_cons {op : Op} {ops : List Op} : AllExact (op :: ops) ↔ op.Exact ∧ AllExact ops := by
  simp [AllExact]
@[simp] theorem allExact_append {left right : List Op} :
    AllExact (left ++ right) ↔ AllExact left ∧ AllExact right := by
  simp [AllExact,or_imp,forall_and]

@[simp] theorem exact_add {a b : Nat} : (Op.add a b).Exact ↔ a + b < 2 ^ 64 := Iff.rfl
@[simp] theorem exact_sub {a b : Nat} : (Op.sub a b).Exact ↔ b ≤ a := Iff.rfl
@[simp] theorem exact_mul {a b : Nat} : (Op.mul a b).Exact ↔ a * b < 2 ^ 64 := Iff.rfl

/-- The additions of a sum that is begun at some value. -/
def sumOps : Nat → List Nat → List Op
  | _, [] => []
  | start, n :: rest => .add start n :: sumOps (start + n) rest

/-- A sum is exact all the way if it ends within 64 bits. -/
theorem allExact_sumOps {start : Nat} {terms : List Nat} (fits : start + terms.sum < 2 ^ 64) :
    AllExact (sumOps start terms) := by
  induction terms generalizing start with
  | nil => exact allExact_nil
  | cons n rest ih =>
    rw [List.sum_cons] at fits
    exact allExact_cons.mpr ⟨exact_add.mpr (by omega),ih (by omega)⟩

end Directswarm.Unchecked
