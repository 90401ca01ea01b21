import Mathlib.Algebra.BigOperators.Group.List.Basic
import Mathlib.Data.List.TakeWhile
import Directswarm.Cheques

/-!
`Mirror` (`growth.rs`), the books one connection keeps on what it owes its peer,
and `Pacer` (`schedule.rs`), which gates fetches on them. Times are in
nanoseconds. The sums that the source leaves unchecked wrap at 64 bits, as its
release build does.
-/
namespace Directswarm.Pacing
open Directswarm.Words Directswarm.Cheques

/-- One millisecond. -/
def ms : Nat := 1000000

/-- The fresh light-peer threshold, before any announcement. -/
def defaultThreshold : Nat := 1350000
def defaultLambdaMs : Nat := 3000
def lambdaMinMs : Nat := 800
def lambdaMaxMs : Nat := 25000
/-- The exchange rate assumed before the first cheque. -/
def defaultRate : Nat := 100000

/-- `(balance, reserved)`. -/
structure Mirror where
  balance : Nat
  reserved : Nat
  deriving DecidableEq

namespace Mirror

/-- `try_reserve`: reserve a price if balance, reservations and price stay within a limit. -/
def tryReserve (m : Mirror) (price limit : Nat) : Option Mirror :=
  if limit < satAdd (satAdd m.balance m.reserved) price then none
  else some { m with reserved := wrapAdd m.reserved price }

/-- Served: the price moves from the reservations into the debt. -/
def apply (m : Mirror) (price : Nat) : Mirror := ⟨satAdd m.balance price,m.reserved - price⟩

/-- The fetch failed. -/
def release (m : Mirror) (price : Nat) : Mirror := { m with reserved := m.reserved - price }

/-- A settlement was accepted. -/
def credit (m : Mirror) (amount : Nat) : Mirror := { m with balance := m.balance - amount }

theorem tryReserve_some {m m' : Mirror} {price limit : Nat} : m.tryReserve price limit = some m' ↔
    satAdd (satAdd m.balance m.reserved) price ≤ limit ∧ m' = ⟨m.balance,wrapAdd m.reserved price⟩ := by
  unfold tryReserve
  by_cases past : limit < satAdd (satAdd m.balance m.reserved) price
  · simp [past]
  · simp [past,not_lt.mp past,eq_comm]

/-- Under a limit below the largest 64-bit value a reservation is what the
    source's comment says: the exact sum is within the limit. -/
theorem tryReserve_exact {m m' : Mirror} {price limit : Nat} (low : limit < u64Max)
    (reserved : m.tryReserve price limit = some m') :
    m.balance + m.reserved + price ≤ limit ∧ m' = ⟨m.balance,m.reserved + price⟩ := by
  obtain ⟨within,rfl⟩ := tryReserve_some.mp reserved
  have outer := satAdd_lt within low
  have inner : m.balance + m.reserved ≤ limit := satAdd_lt (by omega) low
  have whole : satAdd m.balance m.reserved = m.balance + m.reserved := satAdd_exact (by omega)
  rw [whole] at outer
  refine ⟨outer,?_⟩
  rw [wrapAdd_exact]
  have := u64Max_succ
  omega

end Mirror

/-- Units that fit into 64 bits together are added up exactly. -/
theorem foldl_wrapAdd {units : List Nat} (fits : units.sum < 2 ^ 64) : units.foldl wrapAdd 0 = units.sum := by
  have from_ : ∀ (units : List Nat) (start : Nat), start + units.sum < 2 ^ 64 →
      units.foldl wrapAdd start = start + units.sum := by
    intro units
    induction units with
    | nil => intro start _; simp
    | cons u rest ih =>
      intro start small
      rw [List.sum_cons] at small
      rw [List.foldl_cons,wrapAdd_exact (by omega),ih _ (by omega),List.sum_cons]
      omega
  rw [from_ units 0 (by omega),Nat.zero_add]

/-- What the settlement side of one connection keeps. -/
structure Pacer where
  mirror : Mirror
  /-- The last announced threshold, as the watch channel holds it. -/
  announced : Option U256
  lambdaMs : Nat
  /-- Emission time and units of the cheques that may still be validating. -/
  unvalidated : List (Nat × Nat)
  rate : Nat
  settledUnits : Nat
  prepaid : Nat
  avgPrice : Nat
  lastRefresh : Option Nat
  lastCheque : Option Nat
  deriving DecidableEq

namespace Pacer

def threshold (p : Pacer) : Nat :=
  match p.announced with
  | none => defaultThreshold
  | some t => if t.val < 2 ^ 64 then t.val else defaultThreshold

/-- How long a cheque counts as validating. -/
def window (p : Pacer) : Nat := max lambdaMinMs (min p.lambdaMs lambdaMaxMs) * 3 / 2 * ms

/-- The queue without the cheques at its front that are older than the window. -/
def prune (p : Pacer) (now : Nat) : Pacer :=
  { p with unvalidated := p.unvalidated.dropWhile fun entry => p.window < now - entry.1 }

/-- The units of the queue, added up in 64 bits. -/
def queued (p : Pacer) : Nat := (p.unvalidated.map Prod.snd).foldl wrapAdd 0

/-- What `admit` lets balance, reservations and price add up to. -/
def admitLimit (p : Pacer) : Nat := wrapAdd p.prepaid (satMul p.threshold 105 / 100) - p.queued

/-- The exposure gate for one more reservation. `unvalidated_sum` prunes the
    queue first, and the pruned queue stays whatever the answer is. -/
def admitOne (p : Pacer) (now price : Nat) : Pacer × Bool :=
  match (p.prune now).mirror.tryReserve price (p.prune now).admitLimit with
  | none => (p.prune now,false)
  | some mirror => ({ p.prune now with mirror := mirror },true)

/-- What `emit` and `emit_prepay` note of a cheque that went out. -/
def noteCheque (p : Pacer) (now units rate : Nat) : Pacer :=
  { p with
    settledUnits := wrapAdd p.settledUnits units
    unvalidated := p.unvalidated ++ [(now,units)]
    lastCheque := some now
    rate := if rate < 2 ^ 64 then rate else defaultRate }

/-- `emit`, after the cheque: the mirror is credited at once. -/
def emitted (p : Pacer) (now units rate : Nat) : Pacer :=
  { p.noteCheque now units rate with mirror := p.mirror.credit units }

/-- `emit_prepay`, after the cheque: no credit, the units wait as surplus. -/
def prepaidBy (p : Pacer) (now units rate : Nat) : Pacer :=
  { p.noteCheque now units rate with prepaid := wrapAdd p.prepaid units }

/-- `refresh`, after the peer's answer: the accepted units are credited. -/
def refreshed (p : Pacer) (now : Nat) (accepted : Option Nat) : Pacer :=
  { p with
    mirror := p.mirror.credit (accepted.getD 0)
    settledUnits := wrapAdd p.settledUnits (accepted.getD 0)
    lastRefresh := some now }

/-- What the connection owes beyond what it prepaid. -/
def unpaid (p : Pacer) : Nat := p.mirror.balance - p.prepaid

/-- Whether a time stamp is missing or at least so old. -/
def isDue (last : Option Nat) (now interval : Nat) : Bool := last.all fun at_ => interval ≤ now - at_

theorem threshold_lt (p : Pacer) : p.threshold < 2 ^ 64 := by
  unfold threshold
  split
  · decide
  · split
    · assumption
    · decide

/-- 105% of the threshold, at 64 bits, is at most that. -/
theorem gate_le (p : Pacer) : satMul p.threshold 105 / 100 ≤ p.threshold * 105 / 100 :=
  Nat.div_le_div_right (satMul_le _ _)

theorem prune_suffix (p : Pacer) (now : Nat) : (p.prune now).unvalidated <:+ p.unvalidated :=
  List.dropWhile_suffix _

theorem admit_refused {p p' : Pacer} {now price : Nat} (refused : p.admitOne now price = (p',false)) :
    p' = p.prune now := by
  unfold admitOne at refused
  split at refused
  · cases refused; rfl
  · cases refused

theorem admit_admitted {p p' : Pacer} {now price : Nat} (admitted : p.admitOne now price = (p',true)) :
    ∃ mirror, p.mirror.tryReserve price (p.prune now).admitLimit = some mirror ∧
      p' = { p.prune now with mirror := mirror } := by
  unfold admitOne at admitted
  split at admitted
  · cases admitted
  · next mirror reserved => cases admitted; exact ⟨mirror,reserved,rfl⟩

end Pacer

end Directswarm.Pacing
