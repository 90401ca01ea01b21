import Directswarm.Cheques

/-!
The order of the cheques of one beneficiary. A call reads the ledger, and records
its own cumulative only after the frame was written and flushed. Between the two,
a second call for the same beneficiary reads the same entry; and a frame whose
flush fails is never recorded. Where neither happens and every cheque moves
something, the frames of each beneficiary carry strictly increasing cumulatives
(`frames_increase`): every frame written is covered by the ledger entry of its
beneficiary, or by the one call that is about to record.
-/
namespace Directswarm.ChequeOrder
open Directswarm.Runs Directswarm.Interleaving Directswarm.Cheques

variable {B : Type}

/-- What a call has written and not recorded yet. -/
def unrecorded : Phase → Option U256
  | .written _ _ cumulative => some cumulative
  | .flushed _ _ cumulative => some cumulative
  | _ => none

/-- Every frame carries more than each earlier frame of the same beneficiary. -/
def Increasing (frames : List (Frame B)) : Prop :=
  frames.Pairwise fun earlier later => earlier.beneficiary = later.beneficiary → earlier.cumulative < later.cumulative

variable [DecidableEq B]

instance (frames : List (Frame B)) : Decidable (Increasing frames) :=
  inferInstanceAs (Decidable (List.Pairwise _ _))

/-- The moves of a call after which the ledger covers what was written: it writes a
    cumulative that is not below the entry that the ledger has now, while no other
    cheque of the same beneficiary waits to be recorded; and a written frame is flushed. -/
def coversAt (sys : Emissions B) (call : Call B) : Phase → CallAct → Bool
  | .signed _ _ cumulative, .io true =>
    (cumulativeFor sys.common.ledger call.beneficiary).val ≤ cumulative.val &&
      sys.parties.all fun other => !(other.beneficiary = call.beneficiary && (unrecorded other.phase).isSome)
  | .written _ _ _, .io ok => ok
  | _, _ => true

/-- The moves that keep the order: what is written is also a positive amount over
    the entry that the ledger has now. -/
def inOrderAt (sys : Emissions B) (call : Call B) : Phase → CallAct → Bool
  | .signed rate plur cumulative, .io true =>
    0 < plur && (cumulativeFor sys.common.ledger call.beneficiary).val + plur = cumulative.val &&
      coversAt sys call (.signed rate plur cumulative) (.io true)
  | phase, act => coversAt sys call phase act

/-- A step leaves the ledger covering what was written. -/
def Covers (sys : Emissions B) : Act B → Prop
  | .start _ _ => True
  | .call i act => ∀ call ∈ sys.parties[i]?, coversAt sys call call.phase act

/-- A step keeps the order. -/
def InOrder (sys : Emissions B) : Act B → Prop
  | .start _ _ => True
  | .call i act => ∀ call ∈ sys.parties[i]?, inOrderAt sys call call.phase act

instance (sys : Emissions B) : (act : Act B) → Decidable (Covers sys act)
  | .start _ _ => isTrue trivial
  | .call i act => inferInstanceAs (Decidable (∀ call ∈ sys.parties[i]?, coversAt sys call call.phase act))

instance (sys : Emissions B) : (act : Act B) → Decidable (InOrder sys act)
  | .start _ _ => isTrue trivial
  | .call i act => inferInstanceAs (Decidable (∀ call ∈ sys.parties[i]?, inOrderAt sys call call.phase act))

theorem covers_of_inOrder {sys : Emissions B} {act : Act B} (ordered : InOrder sys act) : Covers sys act := by
  cases act with
  | start b units => trivial
  | call i act =>
    intro call found
    have here := ordered call found
    generalize call.phase = phase at here ⊢
    unfold inOrderAt at here
    split at here
    · rw [Bool.and_eq_true] at here
      exact here.2
    · exact here

/-- Every frame is covered by the ledger or by a call that is about to record,
    and such a call covers every frame of its beneficiary. -/
structure Covered (sys : Emissions B) : Prop where
  covered : ∀ f ∈ sys.common.frames, f.cumulative ≤ cumulativeFor sys.common.ledger f.beneficiary ∨
    ∃ call ∈ sys.parties, call.beneficiary = f.beneficiary ∧ (unrecorded call.phase).isSome
  highest : ∀ call ∈ sys.parties, ∀ cumulative, unrecorded call.phase = some cumulative →
    ∀ f ∈ sys.common.frames, f.beneficiary = call.beneficiary → f.cumulative ≤ cumulative

theorem covered_opening (ledger : Finmap fun _ : B => U256) : Covered (opening ledger) :=
  ⟨by simp [opening],by simp [opening]⟩

/-- A step of one call that neither writes nor records, and waits to record what
    it waited to record before. -/
theorem covered_quiet {sys : Emissions B} {i : Nat} {call call' : Call B} (inv : Covered sys)
    (found : sys.parties[i]? = some call) (same : unrecorded call'.phase = unrecorded call.phase)
    (for_ : call'.beneficiary = call.beneficiary) (issuedPlur : Nat) :
    Covered ⟨{ sys.common with issuedPlur := issuedPlur },sys.parties.set i call'⟩ := by
  refine ⟨?_,?_⟩
  · intro f member
    rcases inv.covered f member with below | ⟨other,there,whose,waits⟩
    · exact .inl below
    · rcases mem_set_or_moved call' there found with rfl | stays
      · exact .inr ⟨call',mem_set_moved call' found,for_.trans whose,same ▸ waits⟩
      · exact .inr ⟨other,stays,whose,waits⟩
  · refine forall_set inv.highest ?_
    rw [same,for_]
    exact inv.highest call (mem_of_found found)

/-- Where nobody waits to record for a beneficiary, the ledger covers its frames. -/
theorem covered_alone {sys : Emissions B} {b : B} (inv : Covered sys)
    (alone : ∀ other ∈ sys.parties, other.beneficiary = b → unrecorded other.phase = none) :
    ∀ f ∈ sys.common.frames, f.beneficiary = b → f.cumulative ≤ cumulativeFor sys.common.ledger b := by
  intro f member whose
  rcases inv.covered f member with below | ⟨other,there,same,waiting⟩
  · rw [whose] at below; exact below
  · rw [alone other there (same.trans whose)] at waiting; cases waiting

/-- Writing a frame over what the ledger covers. -/
theorem covered_written {sys : Emissions B} {i : Nat} {call call' : Call B} {plur : Nat} {cumulative : U256}
    (inv : Covered sys) (found : sys.parties[i]? = some call) (for_ : call'.beneficiary = call.beneficiary)
    (past : cumulativeFor sys.common.ledger call.beneficiary ≤ cumulative)
    (alone : ∀ other ∈ sys.parties, other.beneficiary = call.beneficiary → unrecorded other.phase = none)
    (waits : unrecorded call'.phase = some cumulative) :
    Covered ⟨{ sys.common with frames := sys.common.frames ++ [⟨call.beneficiary,plur,cumulative⟩] },
      sys.parties.set i call'⟩ := by
  have below := covered_alone inv alone
  refine ⟨?_,?_⟩
  · intro f member
    rcases List.mem_append.mp member with old | last
    · rcases inv.covered f old with below | ⟨other,there,whose,waiting⟩
      · exact .inl below
      · rcases mem_set_or_moved call' there found with rfl | stays
        · rw [alone other there rfl] at waiting; cases waiting
        · exact .inr ⟨other,stays,whose,waiting⟩
    · rw [List.mem_singleton.mp last]
      exact .inr ⟨call',mem_set_moved call' found,for_,by simp [waits]⟩
  · intro other there c waiting f member whose
    rcases List.mem_or_eq_of_mem_set there with old | rfl
    · rcases List.mem_append.mp member with earlier | last
      · exact inv.highest other old c waiting f earlier whose
      · rw [List.mem_singleton.mp last] at whose
        rw [alone other old whose.symm] at waiting; cases waiting
    · cases waits.symm.trans waiting
      rcases List.mem_append.mp member with earlier | last
      · exact (below f earlier (whose.trans for_)).trans past
      · rw [List.mem_singleton.mp last]

/-- Recording what was written. -/
theorem covered_recorded {sys : Emissions B} {i : Nat} {call call' : Call B} {cumulative : U256}
    (inv : Covered sys) (found : sys.parties[i]? = some call) (waits : unrecorded call.phase = some cumulative)
    (done : unrecorded call'.phase = none) :
    Covered ⟨{ sys.common with ledger := sys.common.ledger.insert call.beneficiary cumulative },
      sys.parties.set i call'⟩ := by
  refine ⟨?_,?_⟩
  · intro f member
    show f.cumulative ≤ cumulativeFor (sys.common.ledger.insert call.beneficiary cumulative) f.beneficiary ∨ _
    rw [cumulativeFor_insert]
    by_cases whose : f.beneficiary = call.beneficiary
    · rw [if_pos whose]
      exact .inl (inv.highest call (mem_of_found found) cumulative waits f member whose)
    · rw [if_neg whose]
      rcases inv.covered f member with below | ⟨other,there,same,waiting⟩
      · exact .inl below
      · rcases mem_set_or_moved call' there found with rfl | stays
        · exact absurd same.symm whose
        · exact .inr ⟨other,stays,same,waiting⟩
  · refine forall_set inv.highest ?_
    intro c waiting
    rw [done] at waiting; cases waiting

/-- What the condition on a write says. -/
theorem coversAt_signed {sys : Emissions B} {call : Call B} {rate plur : Nat} {cumulative : U256}
    (covers : coversAt sys call (.signed rate plur cumulative) (.io true) = true) :
    cumulativeFor sys.common.ledger call.beneficiary ≤ cumulative ∧
      ∀ other ∈ sys.parties, other.beneficiary = call.beneficiary → unrecorded other.phase = none := by
  simp only [coversAt,Bool.and_eq_true,decide_eq_true_eq,List.all_eq_true,Bool.not_eq_true',
    Bool.and_eq_false_iff,decide_eq_false_iff_not,Option.isSome_eq_false_iff,Option.isNone_iff_eq_none] at covers
  exact ⟨Fin.le_def.mpr covers.1,fun other there whose => (covers.2 other there).resolve_left fun differ => differ whose⟩

theorem covered_call {lim : Limits} {sys : Emissions B} {i : Nat} {act : CallAct} {call call' : Call B}
    {bank' : Bank B} (inv : Covered sys) (met : Covers sys (.call i act))
    (found : sys.parties[i]? = some call) (moves : Moves lim sys.common call act bank' call'.phase)
    (for_ : call'.beneficiary = call.beneficiary) : Covered ⟨bank',sys.parties.set i call'⟩ := by
  have meets := met call found
  generalize stands : call'.phase = phase' at moves
  cases moves with
  | opened at_ | unopened at_ | unanswered at_ | rateless at_ | unpriced at_ _ | priced at_ _ | reserved at_
    | refused at_ _ | passed at_ _ | givenUp at_ | undrawn at_ _ | drawn at_ _ | signed at_ | unsigned at_
    | unwritten at_ | flushed at_ | ended at_ | givenBack at_ =>
    exact covered_quiet inv found (by simp [at_,stands,unrecorded]) for_ _
  | unflushed at_ => simp [at_,coversAt] at meets
  | @written rate plur cumulative at_ =>
    rw [at_] at meets
    obtain ⟨past,alone⟩ := coversAt_signed meets
    exact covered_written inv found for_ past alone (by rw [stands]; rfl)
  | @recorded rate plur cumulative at_ =>
    exact covered_recorded inv found (by rw [at_]; rfl) (by rw [stands]; rfl)

/-- A call that was made has written nothing. -/
theorem covered_start {sys : Emissions B} (inv : Covered sys) (b : B) (units : Nat) :
    Covered ⟨sys.common,sys.parties ++ [⟨b,units,.opening⟩]⟩ := by
  refine ⟨?_,forall_append inv.highest (by simp [unrecorded])⟩
  intro f member
  rcases inv.covered f member with below | ⟨other,there,whose,waiting⟩
  · exact .inl below
  · exact .inr ⟨other,List.mem_append_left _ there,whose,waiting⟩

/-- The frames stay increasing when one is written in order. -/
theorem increasing_call {lim : Limits} {sys : Emissions B} {i : Nat} {act : CallAct} {call call' : Call B}
    {bank' : Bank B} (inv : Covered sys) (increasing : Increasing sys.common.frames) (met : InOrder sys (.call i act))
    (found : sys.parties[i]? = some call) (moves : Moves lim sys.common call act bank' call'.phase) :
    Increasing bank'.frames := by
  have meets := met call found
  generalize call'.phase = phase' at moves
  cases moves with
  | @written rate plur cumulative at_ =>
    simp only [at_,inOrderAt,Bool.and_eq_true,decide_eq_true_eq] at meets
    obtain ⟨⟨positive,fresh⟩,covers⟩ := meets
    obtain ⟨-,alone⟩ := coversAt_signed covers
    have step : cumulativeFor sys.common.ledger call.beneficiary < cumulative := Fin.lt_def.mpr (by omega)
    refine List.pairwise_append.mpr ⟨increasing,List.pairwise_singleton _ _,?_⟩
    intro f member last inLast whose
    rw [List.mem_singleton.mp inLast] at whose ⊢
    exact lt_of_le_of_lt (covered_alone inv alone f member whose) step
  | _ => exact increasing

theorem ordered_step {lim : Limits} (sys : Emissions B) (act : Act B) (next : Emissions B)
    (inv : Covered sys ∧ Increasing sys.common.frames) (met : InOrder sys act) (taken : step lim sys act = some next) :
    Covered next ∧ Increasing next.common.frames := by
  cases act with
  | start b units =>
    have started := step_start taken
    subst started
    exact ⟨covered_start inv.1 b units,inv.2⟩
  | call i act =>
    obtain ⟨call,bank',call',found,moved,rfl⟩ := stepAt_some.mp taken
    obtain ⟨moves,for_,-⟩ := callStep_moves moved
    exact ⟨covered_call inv.1 (covers_of_inOrder met) found moves for_,increasing_call inv.1 inv.2 met found moves⟩

/-- In every run whose steps keep the order, every cheque written carries a
    strictly greater cumulative than the earlier ones of its beneficiary. -/
theorem frames_increase (lim : Limits) (ledger : Finmap fun _ : B => U256) (acts : List (Act B)) (sys : Emissions B)
    (met : Meets (step lim) InOrder (opening ledger) acts) (reached : run (step lim) (opening ledger) acts = some sys) :
    Increasing sys.common.frames :=
  (run_guarded ordered_step ⟨covered_opening ledger,List.Pairwise.nil⟩ met reached).2

/-! ### One beneficiary on two connections -/

/-- A cap of 1000 PLUR on a chequebook of 10000. -/
def roomy : Limits := ⟨10000,1000,thousand_fits⟩

/-- Two connections to one beneficiary sign over the same ledger entry. -/
def sameAddress : List (Act (BitVec 160)) :=
  [.start 7 100,.start 7 100] ++ calling 0 (reserving 1 0 ++ signing) ++ calling 1 (reserving 1 0 ++ signing) ++
    calling 0 finishing ++ calling 1 finishing

theorem cumulative_repeated : ∃ sys, run (step roomy) (opening ∅) sameAddress = some sys ∧
    sys.common.frames = [⟨7,100,100⟩,⟨7,100,100⟩] ∧ ¬ Increasing sys.common.frames := by
  have two : (run (step roomy) (opening ∅) sameAddress).map (fun sys => sys.common.frames) =
      some [⟨7,100,100⟩,⟨7,100,100⟩] := by decide +kernel
  obtain ⟨sys,reached,frames⟩ := Option.map_eq_some_iff.mp two
  refine ⟨sys,reached,frames,?_⟩
  rw [frames]
  decide +kernel

/-- One after the other, the same two cheques carry 100 and 200. -/
def inTurn : List (Act (BitVec 160)) :=
  [.start 7 100,.start 7 100] ++ calling 0 (reserving 1 0 ++ signing ++ finishing) ++
    calling 1 (reserving 1 0 ++ signing ++ finishing)

theorem frames_increase_inTurn : ∃ sys, run (step roomy) (opening ∅) inTurn = some sys ∧
    Increasing sys.common.frames := by
  obtain ⟨sys,reached⟩ := Option.isSome_iff_exists.mp
    (show (run (step roomy) (opening ∅) inTurn).isSome = true by decide +kernel)
  exact ⟨sys,reached,frames_increase roomy ∅ inTurn sys (by decide +kernel) reached⟩

end Directswarm.ChequeOrder
