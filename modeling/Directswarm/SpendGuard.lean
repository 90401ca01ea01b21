import Directswarm.Cheques

/-!
The global spend cap under concurrency. The counter is exact as long as no
`fetch_add` wraps: then it is the sum of what was written and of what is still
reserved, and the calls that pass the comparison stay within the cap together
(`frames_within_cap`). A reservation that wraps makes the counter smaller than
what was spent, and another call passes in the meantime (`cap_exceeded`).
-/
namespace Directswarm.SpendGuard
open Directswarm.Words Directswarm.Runs Directswarm.Interleaving Directswarm.Cheques

variable {B : Type}

/-- The PLUR that the frames written to peers move. -/
def framesPlur (bank : Bank B) : Nat := (bank.frames.map (·.plur)).sum

/-- What a call holds of the counter and has not turned into a frame. -/
def held : Phase → Nat
  | .reserved _ plur _ => clamp64 plur
  | .refused plur => clamp64 plur
  | .passed _ plur => clamp64 plur
  | .drawn _ plur _ => clamp64 plur
  | .signed _ plur _ => clamp64 plur
  | .failed plur _ => clamp64 plur
  | _ => 0

/-- What a call that has passed the comparison, or is going to, may still write. -/
def going (lim : Limits) : Phase → Nat
  | .reserved _ plur before => if satAdd before (clamp64 plur) ≤ lim.maxIssuePlur then clamp64 plur else 0
  | .passed _ plur => clamp64 plur
  | .drawn _ plur _ => clamp64 plur
  | .signed _ plur _ => clamp64 plur
  | _ => 0

/-- The counter stands for the amount itself, not for a clipped one, wherever
    the comparison can pass. -/
def Unclipped (lim : Limits) : Phase → Prop
  | .reserved _ plur _ => plur < 2 ^ 64 ∨ lim.maxIssuePlur < u64Max
  | .passed _ plur => plur < 2 ^ 64
  | .drawn _ plur _ => plur < 2 ^ 64
  | .signed _ plur _ => plur < 2 ^ 64
  | _ => True

/-- The moves of a call at which the guard counts exactly: a reservation neither
    wraps the counter nor is clipped to a value that the cap admits, and a frame
    that was written is not given back. -/
def countsAt (lim : Limits) (bank : Bank B) : Phase → CallAct → Bool
  | .priced _ plur, .go =>
    bank.issuedPlur + clamp64 plur < 2 ^ 64 && (plur < 2 ^ 64 || lim.maxIssuePlur < u64Max)
  | .written _ _ _, .io ok => ok
  | _, _ => true

/-- The guard counts exactly at a step. -/
def CountsExactly (lim : Limits) (sys : Emissions B) : Act B → Prop
  | .start _ _ => True
  | .call i act => ∀ call ∈ sys.parties[i]?, countsAt lim sys.common call.phase act

instance (lim : Limits) (sys : Emissions B) : (act : Act B) → Decidable (CountsExactly lim sys act)
  | .start _ _ => isTrue trivial
  | .call i act => inferInstanceAs (Decidable (∀ call ∈ sys.parties[i]?, countsAt lim sys.common call.phase act))

/-- The counter is the sum of the frames and the reservations, and the frames
    with what is going to be written stay within the cap. -/
structure Counted (lim : Limits) (sys : Emissions B) : Prop where
  exact : sys.common.issuedPlur = framesPlur sys.common + total (fun call => held call.phase) sys.parties
  small : sys.common.issuedPlur < 2 ^ 64
  within : framesPlur sys.common + total (fun call => going lim call.phase) sys.parties ≤ lim.maxIssuePlur
  unclipped : ∀ call ∈ sys.parties, Unclipped lim call.phase

theorem going_le_held (lim : Limits) (phase : Phase) : going lim phase ≤ held phase := by
  cases phase <;> simp only [going,held,le_refl,Nat.zero_le]
  split <;> omega

theorem counted_opening (lim : Limits) (ledger : Finmap fun _ : B => U256) : Counted lim (opening ledger) :=
  ⟨rfl,Nat.two_pow_pos 64,Nat.zero_le _,by simp [opening]⟩

/-- A step of one call that changes neither the counter nor the frames, and
    holds and may write no more than before. -/
theorem counted_quiet {lim : Limits} {sys : Emissions B} {i : Nat} {call call' : Call B} (inv : Counted lim sys)
    (found : sys.parties[i]? = some call) (same : held call'.phase = held call.phase)
    (less : going lim call'.phase ≤ going lim call.phase) (unclipped : Unclipped lim call'.phase)
    (ledger : Finmap fun _ : B => U256) :
    Counted lim ⟨{ sys.common with ledger := ledger },sys.parties.set i call'⟩ := by
  have heldSum := total_set (fun call => held call.phase) call' found
  have goingSum := total_set (fun call => going lim call.phase) call' found
  have exact_ := inv.exact
  have within := inv.within
  refine ⟨?_,inv.small,?_,forall_set inv.unclipped unclipped⟩
  · simp only [framesPlur] at *; omega
  · simp only [framesPlur] at *; omega

/-- Giving a reservation back. -/
theorem counted_release {lim : Limits} {sys : Emissions B} {i : Nat} {call call' : Call B} {plur : Nat}
    (inv : Counted lim sys) (found : sys.parties[i]? = some call) (holds : held call.phase = clamp64 plur)
    (nothing : held call'.phase = 0) (unclipped : Unclipped lim call'.phase) :
    Counted lim ⟨{ sys.common with issuedPlur := wrapSub sys.common.issuedPlur (clamp64 plur) },
      sys.parties.set i call'⟩ := by
  have heldSum := total_set (fun call => held call.phase) call' found
  have goingSum := total_set (fun call => going lim call.phase) call' found
  have goes := going_le_held lim call'.phase
  have share := le_total (fun call : Call B => held call.phase) (mem_of_found found)
  have exact_ := inv.exact
  have small := inv.small
  have within := inv.within
  have back : wrapSub sys.common.issuedPlur (clamp64 plur) = sys.common.issuedPlur - clamp64 plur :=
    wrapSub_exact (by omega) small
  refine ⟨?_,?_,?_,forall_set inv.unclipped unclipped⟩
  · simp only [framesPlur,back] at *; omega
  · simp only [back]; omega
  · simp only [framesPlur] at *; omega

variable [DecidableEq B]

/-- One step of one call keeps the count. -/
theorem counted_call {lim : Limits} {sys : Emissions B} {i : Nat} {act : CallAct} {call call' : Call B}
    {bank' : Bank B} (inv : Counted lim sys) (met : CountsExactly lim sys (.call i act))
    (found : sys.parties[i]? = some call) (moves : Moves lim sys.common call act bank' call'.phase) :
    Counted lim ⟨bank',sys.parties.set i call'⟩ := by
  have meets := met call found
  have old := inv.unclipped call (mem_of_found found)
  have heldSum := total_set (fun call => held call.phase) call' found
  have goingSum := total_set (fun call => going lim call.phase) call' found
  have exact_ := inv.exact
  have within := inv.within
  generalize stands : call'.phase = phase' at moves heldSum goingSum
  cases moves with
  | opened at_ | unopened at_ | unanswered at_ | rateless at_ | unpriced at_ _ | priced at_ _ =>
    exact counted_quiet inv found (by simp [at_,stands,held]) (by simp [at_,stands,going])
      (by simp [stands,Unclipped]) _
  | @reserved rate plur at_ =>
    simp only [at_] at heldSum goingSum
    simp only [at_,countsAt,Bool.and_eq_true,Bool.or_eq_true,decide_eq_true_eq] at meets
    have added : wrapAdd sys.common.issuedPlur (clamp64 plur) = sys.common.issuedPlur + clamp64 plur :=
      wrapAdd_exact meets.1
    have passing := satAdd_exact (a := sys.common.issuedPlur) (b := clamp64 plur) (by unfold u64Max; omega)
    have sums : total (fun call => going lim call.phase) sys.parties ≤ total (fun call => held call.phase) sys.parties :=
      total_mono fun call _ => going_le_held lim call.phase
    refine ⟨?_,?_,?_,forall_set inv.unclipped (by rw [stands]; exact meets.2)⟩
    · simp only [added,framesPlur,held] at *; omega
    · simp only [added]; exact meets.1
    · simp only [framesPlur,going,passing] at *
      split at goingSum <;> omega
  | @refused rate plur before at_ past =>
    exact counted_quiet inv found (by simp [at_,stands,held]) (by simp [at_,stands,going])
      (by simp [stands,Unclipped]) _
  | @passed rate plur before at_ fits =>
    -- A clipped amount passes under no cap but the largest, which the reservation excluded.
    have whole : plur < 2 ^ 64 := by
      simp only [at_,Unclipped] at old
      rcases old with whole | low
      · exact whole
      · exact clamp64_small fits low
    exact counted_quiet inv found (by simp [at_,stands,held]) (by simp [at_,stands,going,fits])
      (by simpa [stands,Unclipped] using whole) _
  | @givenUp plur at_ =>
    exact counted_release inv found (by simp [at_,held]) (by simp [stands,held]) (by simp [stands,Unclipped])
  | @undrawn rate plur why at_ _ =>
    exact counted_quiet inv found (by simp [at_,stands,held]) (by simp [at_,stands,going])
      (by simp [stands,Unclipped]) _
  | @drawn rate plur cumulative at_ _ =>
    exact counted_quiet inv found (by simp [at_,stands,held]) (by simp [at_,stands,going])
      (by simpa [stands,at_,Unclipped] using old) _
  | @signed rate plur cumulative at_ =>
    exact counted_quiet inv found (by simp [at_,stands,held]) (by simp [at_,stands,going])
      (by simpa [stands,at_,Unclipped] using old) _
  | @unsigned rate plur cumulative at_ =>
    exact counted_quiet inv found (by simp [at_,stands,held]) (by simp [at_,stands,going])
      (by simp [stands,Unclipped]) _
  | @written rate plur cumulative at_ =>
    have whole : clamp64 plur = plur := clamp64_exact (by simpa [at_,Unclipped] using old)
    refine ⟨?_,inv.small,?_,forall_set inv.unclipped (by simp [stands,Unclipped])⟩
    · simp only [framesPlur,List.map_append,List.map_cons,List.map_nil,List.sum_append,List.sum_singleton,
        at_,held,whole] at *
      omega
    · simp only [framesPlur,List.map_append,List.map_cons,List.map_nil,List.sum_append,List.sum_singleton,
        at_,going,whole] at *
      omega
  | @unwritten rate plur cumulative at_ =>
    exact counted_quiet inv found (by simp [at_,stands,held]) (by simp [at_,stands,going])
      (by simp [stands,Unclipped]) _
  | @flushed rate plur cumulative at_ =>
    exact counted_quiet inv found (by simp [at_,stands,held]) (by simp [at_,stands,going])
      (by simp [stands,Unclipped]) _
  | @unflushed rate plur cumulative at_ => simp [at_,countsAt] at meets
  | @recorded rate plur cumulative at_ =>
    exact counted_quiet inv found (by simp [at_,stands,held]) (by simp [at_,stands,going])
      (by simp [stands,Unclipped]) _
  | @ended rate plur cumulative at_ =>
    exact counted_quiet inv found (by simp [at_,stands,held]) (by simp [at_,stands,going])
      (by simp [stands,Unclipped]) _
  | @givenBack plur why at_ =>
    exact counted_release inv found (by simp [at_,held]) (by simp [stands,held]) (by simp [stands,Unclipped])

theorem counted_step {lim : Limits} (sys : Emissions B) (act : Act B) (next : Emissions B) (inv : Counted lim sys)
    (met : CountsExactly lim sys act) (taken : step lim sys act = some next) : Counted lim next := by
  cases act with
  | start b units =>
    have started := step_start taken
    subst started
    refine ⟨?_,inv.small,?_,forall_append inv.unclipped trivial⟩
    · simpa [held] using inv.exact
    · simpa [going] using inv.within
  | call i act =>
    obtain ⟨call,bank',call',found,moved,rfl⟩ := stepAt_some.mp taken
    exact counted_call inv met found (callStep_moves moved).1

/-- In every run in which the guard counts exactly at each step, the cheques
    written to peers move at most `max_issue_plur` together. -/
theorem frames_within_cap (lim : Limits) (ledger : Finmap fun _ : B => U256) (acts : List (Act B))
    (sys : Emissions B) (met : Meets (step lim) (CountsExactly lim) (opening ledger) acts)
    (reached : run (step lim) (opening ledger) acts = some sys) :
    framesPlur sys.common ≤ lim.maxIssuePlur := by
  have inv := run_guarded counted_step (counted_opening lim ledger) met reached
  have := inv.within
  omega

/-! ### A wrapped reservation -/

/-- A cap of 1000 PLUR on a chequebook of 10000. -/
def capOf1000 : Limits := ⟨10000,1000,thousand_fits⟩

/-- An honest peer is paid 1000. A second peer asks for `2⁶⁴ - 1000`, which takes
    the counter back to zero until it is refused; a third one is paid 1000 then. -/
def wrapped : List (Act (BitVec 160)) :=
  ([.start 1 1000] : List (Act (BitVec 160))) ++ calling 0 (reserving 1 0 ++ signing ++ finishing) ++
    ([.start 2 1] : List (Act (BitVec 160))) ++ calling 1 (reserving 1 (2 ^ 64 - 1001)) ++
    ([.start 3 1000] : List (Act (BitVec 160))) ++ calling 2 (reserving 1 0 ++ signing ++ finishing)

theorem cap_exceeded : (run (step capOf1000) (opening ∅) wrapped).map (fun sys => framesPlur sys.common) = some 2000 ∧
    capOf1000.maxIssuePlur < 2000 := by
  decide +kernel

/-- Two peers are paid 400 and 600 under the cap of 1000. -/
def shared : List (Act (BitVec 160)) :=
  [.start 1 400,.start 2 600] ++ calling 0 (reserving 1 0) ++ calling 1 (reserving 1 0 ++ signing) ++
    calling 0 (signing ++ finishing) ++ calling 1 finishing

theorem frames_within_cap_shared : ∃ sys, run (step capOf1000) (opening ∅) shared = some sys ∧
    framesPlur sys.common ≤ 1000 := by
  obtain ⟨sys,reached⟩ := Option.isSome_iff_exists.mp
    (show (run (step capOf1000) (opening ∅) shared).isSome = true by decide +kernel)
  exact ⟨sys,reached,frames_within_cap capOf1000 ∅ shared sys (by decide +kernel) reached⟩

end Directswarm.SpendGuard
