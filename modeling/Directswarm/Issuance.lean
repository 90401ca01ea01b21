import Mathlib.Algebra.BigOperators.Group.Finset.Basic
import Mathlib.Algebra.Order.BigOperators.Group.Finset
import Directswarm.Cheques

/-!
What is issued against the chequebook in all. `emitSettlementCheque` is a call
from its start to its end with nobody in between, and is a run of `callStep`
(`emit_is_run`). `issuable` is the ceiling on the payouts to all beneficiaries
together, but a call compares it with the payout to its own beneficiary only.
The spend cap of the run therefore has to fit into what the ledger leaves of the
ceiling, and `never_over_issued_iff` says that this is the exact condition.
-/
namespace Directswarm.Issuance
open Directswarm.Words Directswarm.Runs Directswarm.Cheques

variable {B : Type} [DecidableEq B]

/-- What a call meets: whether the stream opens, the peer's headers (`none` when
    the exchange fails), and whether the signature, the write and the flush succeed. -/
structure Answers where
  opened : Bool
  preamble : Option (Option (U256 × U256))
  issueCheque : Bool
  write : Bool
  flush : Bool

/-- `fetch_sub` of what was reserved. -/
def release (bank : Bank B) (plur : Nat) : Bank B :=
  { bank with issuedPlur := wrapSub bank.issuedPlur (clamp64 plur) }

/-- The body that runs on a reservation: read, sign, write, flush, record. -/
def emitReserved (lim : Limits) (bank : Bank B) (beneficiary : B) (plur : Nat) (env : Answers) :
    Bank B × Except EmitError U256 :=
  match drawCumulative lim (cumulativeFor bank.ledger beneficiary) plur with
  | .error why => (bank,.error why)
  | .ok cumulative =>
    if !env.issueCheque then (bank,.error .issueCheque) else
    if !env.write then (bank,.error .write) else
    let written := { bank with frames := bank.frames ++ [⟨beneficiary,plur,cumulative⟩] }
    if !env.flush then (written,.error .flush) else
    ({ written with ledger := written.ledger.insert beneficiary cumulative },.ok cumulative)

/-- The rest of the call once the amount is known. -/
def emitPriced (lim : Limits) (bank : Bank B) (beneficiary : B) (rate plur : Nat) (env : Answers) :
    Bank B × Except EmitError Outcome :=
  let reserved := { bank with issuedPlur := wrapAdd bank.issuedPlur (clamp64 plur) }
  if lim.maxIssuePlur < satAdd bank.issuedPlur (clamp64 plur) then
    (release reserved plur,.error (.spendGuard plur lim.maxIssuePlur))
  else
    match emitReserved lim reserved beneficiary plur env with
    | (after,.error why) => (release after plur,.error why)
    | (after,.ok cumulative) => (after,.ok ⟨plur,min rate (2 ^ 128 - 1),cumulative⟩)

/-- `emit_settlement_cheque`. -/
def emitSettlementCheque (lim : Limits) (bank : Bank B) (beneficiary : B) (debtUnits : Nat) (env : Answers) :
    Bank B × Except EmitError Outcome :=
  if !env.opened then (bank,.error .openSwapStream) else
  match env.preamble with
  | none => (bank,.error .preamble)
  | some none => (bank,.error .noExchangeRate)
  | some (some (rate,deduction)) =>
    match chequeAmount rate deduction debtUnits with
    | .error why => (bank,.error why)
    | .ok plur => emitPriced lim bank beneficiary rate.val plur env

/-! ### The call is a run of its steps -/

/-- One call alone with the bank. -/
def soloStep (lim : Limits) (state : Bank B × Call B) (act : CallAct) : Option (Bank B × Call B) :=
  callStep lim state.1 state.2 act

/-- A move and a run from where it leads make a run. -/
theorem solo_cons {lim : Limits} {bank bank' : Bank B} {b : B} {units : Nat} {from_ to_ : Phase} {act : CallAct}
    {acts : List CallAct} {final : Bank B × Call B} (moves : Moves lim bank ⟨b,units,from_⟩ act bank' to_)
    (onward : run (soloStep lim) (bank',⟨b,units,to_⟩) acts = some final) :
    run (soloStep lim) (bank,⟨b,units,from_⟩) (act :: acts) = some final :=
  run_cons_some.mpr ⟨_,callStep_of_moves moves,onward⟩

/-- A call that has passed the guard ends as its body does. -/
theorem emitReserved_is_run (lim : Limits) (bank : Bank B) (b : B) (units rate plur : Nat) (env : Answers) :
    ∃ acts, run (soloStep lim) (bank,⟨b,units,.passed rate plur⟩) acts =
      some (match emitReserved lim bank b plur env with
        | (after,.error why) => (after,⟨b,units,.failed plur why⟩)
        | (after,.ok cumulative) => (after,⟨b,units,.recorded rate plur cumulative⟩)) := by
  unfold emitReserved
  cases draw : drawCumulative lim (cumulativeFor bank.ledger b) plur with
  | error why => exact ⟨[.go],solo_cons (.undrawn rfl draw) rfl⟩
  | ok cumulative =>
    obtain ⟨opened,preamble,issueCheque,write,flush⟩ := env
    cases issueCheque with
    | false => exact ⟨[.go,.io false],solo_cons (.drawn rfl draw) (solo_cons (.unsigned rfl) rfl)⟩
    | true =>
      cases write with
      | false =>
        exact ⟨[.go,.io true,.io false],solo_cons (.drawn rfl draw) (solo_cons (.signed rfl) (solo_cons (.unwritten rfl) rfl))⟩
      | true =>
        cases flush with
        | false =>
          refine ⟨[.go,.io true,.io true,.io false],?_⟩
          apply solo_cons (.drawn rfl draw)
          apply solo_cons (.signed rfl)
          apply solo_cons (.written rfl)
          exact solo_cons (.unflushed rfl) rfl
        | true =>
          refine ⟨[.go,.io true,.io true,.io true,.go],?_⟩
          apply solo_cons (.drawn rfl draw)
          apply solo_cons (.signed rfl)
          apply solo_cons (.written rfl)
          apply solo_cons (.flushed rfl)
          exact solo_cons (.recorded rfl) rfl

theorem emitPriced_is_run (lim : Limits) (bank : Bank B) (b : B) (units rate plur : Nat) (env : Answers) :
    ∃ acts, run (soloStep lim) (bank,⟨b,units,.priced rate plur⟩) acts =
      some ((emitPriced lim bank b rate plur env).1,⟨b,units,.ended (emitPriced lim bank b rate plur env).2⟩) := by
  unfold emitPriced
  by_cases past : lim.maxIssuePlur < satAdd bank.issuedPlur (clamp64 plur)
  · rw [if_pos past]
    refine ⟨[.go,.go,.go],?_⟩
    apply solo_cons (.reserved rfl)
    apply solo_cons (.refused rfl past)
    exact solo_cons (.givenUp rfl) rfl
  · rw [if_neg past]
    obtain ⟨acts,body⟩ := emitReserved_is_run lim
      { bank with issuedPlur := wrapAdd bank.issuedPlur (clamp64 plur) } b units rate plur env
    refine ⟨.go :: .go :: (acts ++ [.go]),?_⟩
    apply solo_cons (.reserved rfl)
    apply solo_cons (.passed rfl (not_lt.mp past))
    rw [run_append _ body]
    rcases emitReserved lim { bank with issuedPlur := wrapAdd bank.issuedPlur (clamp64 plur) } b plur env with
      ⟨after,why | cumulative⟩
    · exact solo_cons (.givenBack rfl) rfl
    · exact solo_cons (.ended rfl) rfl

/-- A call from its start to its end, with nobody in between, is a run of its steps. -/
theorem emit_is_run (lim : Limits) (bank : Bank B) (b : B) (units : Nat) (env : Answers) :
    ∃ acts, run (soloStep lim) (bank,⟨b,units,.opening⟩) acts =
      some ((emitSettlementCheque lim bank b units env).1,
        ⟨b,units,.ended (emitSettlementCheque lim bank b units env).2⟩) := by
  unfold emitSettlementCheque
  obtain ⟨opened,preamble,issueCheque,write,flush⟩ := env
  cases opened with
  | false => exact ⟨[.io false],solo_cons (.unopened rfl) rfl⟩
  | true =>
    rcases preamble with _ | _ | ⟨rate,deduction⟩
    · exact ⟨[.io true,.io false],solo_cons (.opened rfl) (solo_cons (.unanswered rfl) rfl)⟩
    · exact ⟨[.io true,.headers none],solo_cons (.opened rfl) (solo_cons (.rateless rfl) rfl)⟩
    · cases amount : chequeAmount rate deduction units with
      | error why =>
        refine ⟨[.io true,.headers (some (rate,deduction))],?_⟩
        simp only [amount]
        exact solo_cons (.opened rfl) (solo_cons (.unpriced rfl amount) rfl)
      | ok plur =>
        obtain ⟨acts,rest⟩ := emitPriced_is_run lim bank b units rate.val plur
          ⟨true,some (some (rate,deduction)),issueCheque,write,flush⟩
        refine ⟨.io true :: .headers (some (rate,deduction)) :: acts,?_⟩
        simp only [amount]
        exact solo_cons (.opened rfl) (solo_cons (.priced rfl amount) rest)

/-! ### The payouts to all beneficiaries -/

/-- The cumulative payouts of a ledger, summed over its beneficiaries. -/
def ledgerTotal (ledger : Finmap fun _ : B => U256) : Nat := ∑ b ∈ ledger.keys, (cumulativeFor ledger b).val

theorem cumulativeFor_absent {ledger : Finmap fun _ : B => U256} {b : B} (absent : b ∉ ledger) :
    cumulativeFor ledger b = 0 := by
  unfold cumulativeFor
  rw [Finmap.lookup_eq_none.mpr absent]; rfl

/-- Keys that are not in the ledger add nothing. -/
theorem ledgerTotal_over (ledger : Finmap fun _ : B => U256) {keys : Finset B} (all : ledger.keys ⊆ keys) :
    ledgerTotal ledger = ∑ b ∈ keys, (cumulativeFor ledger b).val := by
  refine Finset.sum_subset all fun b _ outside => ?_
  rw [cumulativeFor_absent fun member => outside (Finmap.mem_keys.mpr member)]
  rfl

/-- Replacing one entry changes the sum by what it changes at that entry. -/
theorem ledgerTotal_insert (ledger : Finmap fun _ : B => U256) (b : B) (v : U256) :
    ledgerTotal (ledger.insert b v) + (cumulativeFor ledger b).val = ledgerTotal ledger + v.val := by
  have here : b ∈ insert b ledger.keys := Finset.mem_insert_self b _
  have after : (ledger.insert b v).keys ⊆ insert b ledger.keys := by
    intro c member
    rw [Finset.mem_insert,Finmap.mem_keys]
    exact Finmap.mem_insert.mp (Finmap.mem_keys.mp member)
  rw [ledgerTotal_over _ after,ledgerTotal_over ledger (Finset.subset_insert b _),
    ← Finset.add_sum_erase _ _ here,← Finset.add_sum_erase (insert b ledger.keys) _ here,cumulativeFor_insert,if_pos rfl]
  have others : ∑ c ∈ (insert b ledger.keys).erase b, (cumulativeFor (ledger.insert b v) c).val =
      ∑ c ∈ (insert b ledger.keys).erase b, (cumulativeFor ledger c).val := by
    refine Finset.sum_congr rfl fun c member => ?_
    rw [cumulativeFor_insert,if_neg (Finset.ne_of_mem_erase member)]
  omega

/-- Two beneficiaries together hold at most the sum. -/
theorem pair_le_ledgerTotal (ledger : Finmap fun _ : B => U256) {b c : B} (distinct : b ≠ c) :
    (cumulativeFor ledger b).val + (cumulativeFor ledger c).val ≤ ledgerTotal ledger := by
  have all : ledger.keys ⊆ ({b,c} : Finset B) ∪ ledger.keys := Finset.subset_union_right
  rw [ledgerTotal_over ledger all,← Finset.sum_pair (f := fun b => (cumulativeFor ledger b).val) distinct]
  exact Finset.sum_le_sum_of_subset Finset.subset_union_left

/-! ### Sequences of calls -/

/-- A call that is asked for: the peer, its debt, and what the call is going to meet. -/
structure Request (B : Type) where
  beneficiary : B
  debtUnits : Fin (2 ^ 64)
  answers : Answers

/-- The bank after one call after the other. -/
def emitAll (lim : Limits) (bank : Bank B) (requests : List (Request B)) : Bank B :=
  requests.foldl (fun bank r => (emitSettlementCheque lim bank r.beneficiary r.debtUnits.val r.answers).1) bank

theorem drawCumulative_ok {lim : Limits} {prev cumulative : U256} {plur : Nat} :
    drawCumulative lim prev plur = .ok cumulative ↔
      prev.val + plur = cumulative.val ∧ cumulative ≤ lim.issuable := by
  unfold drawCumulative
  by_cases fits : prev.val + plur < 2 ^ 256
  · rw [dif_pos fits]
    by_cases past : lim.issuable < (⟨prev.val + plur,fits⟩ : U256)
    · rw [if_pos past]
      constructor
      · intro impossible; cases impossible
      · rintro ⟨sum,within⟩
        rw [Fin.lt_def] at past
        rw [Fin.le_def] at within
        simp only at past
        omega
    · rw [if_neg past,Except.ok.injEq]
      constructor
      · rintro rfl; exact ⟨rfl,not_lt.mp past⟩
      · rintro ⟨sum,-⟩; exact Fin.ext sum
  · rw [dif_neg fits]
    constructor
    · intro impossible; cases impossible
    · rintro ⟨sum,-⟩
      exact absurd (sum ▸ cumulative.isLt) fits

/-- What a call leaves of the bank: as it was (a failure), with a frame that
    nobody recorded, or with the cheque recorded and counted. -/
inductive Leaves (lim : Limits) (bank : Bank B) (b : B) (after : Bank B) : Prop
  | asWas (counter : after.issuedPlur = bank.issuedPlur) (ledger : after.ledger = bank.ledger)
  | recorded (plur : Nat) (cumulative : U256)
      (within : satAdd bank.issuedPlur (clamp64 plur) ≤ lim.maxIssuePlur)
      (sum : (cumulativeFor bank.ledger b).val + plur = cumulative.val) (bounded : cumulative ≤ lim.issuable)
      (counter : after.issuedPlur = wrapAdd bank.issuedPlur (clamp64 plur))
      (ledger : after.ledger = bank.ledger.insert b cumulative)

theorem emitPriced_leaves (lim : Limits) (bank : Bank B) (b : B) (rate plur : Nat) (env : Answers)
    (small : bank.issuedPlur < 2 ^ 64) : Leaves lim bank b (emitPriced lim bank b rate plur env).1 := by
  have back : wrapSub (wrapAdd bank.issuedPlur (clamp64 plur)) (clamp64 plur) = bank.issuedPlur :=
    wrapSub_wrapAdd small (clamp64_lt plur)
  unfold emitPriced
  by_cases past : lim.maxIssuePlur < satAdd bank.issuedPlur (clamp64 plur)
  · rw [if_pos past]
    exact .asWas back rfl
  · rw [if_neg past]
    unfold emitReserved
    cases draw : drawCumulative lim (cumulativeFor bank.ledger b) plur with
    | error why => exact .asWas back rfl
    | ok cumulative =>
      obtain ⟨sum,bounded⟩ := drawCumulative_ok.mp draw
      obtain ⟨opened,preamble,issueCheque,write,flush⟩ := env
      cases issueCheque with
      | false => exact .asWas back rfl
      | true =>
        cases write with
        | false => exact .asWas back rfl
        | true =>
          cases flush with
          | false => exact .asWas back rfl
          | true => exact .recorded plur cumulative (not_lt.mp past) sum bounded rfl rfl

theorem emit_leaves (lim : Limits) (bank : Bank B) (b : B) (units : Nat) (env : Answers)
    (small : bank.issuedPlur < 2 ^ 64) : Leaves lim bank b (emitSettlementCheque lim bank b units env).1 := by
  unfold emitSettlementCheque
  cases env.opened with
  | false => exact .asWas rfl rfl
  | true =>
    rcases env.preamble with _ | _ | ⟨rate,deduction⟩
    · exact .asWas rfl rfl
    · exact .asWas rfl rfl
    · cases amount : chequeAmount rate deduction units with
      | error why => simp only [amount]; exact .asWas rfl rfl
      | ok plur => simp only [amount]; exact emitPriced_leaves lim bank b rate.val plur env small

/-- What the cap keeps over a sequence of calls: the ledger grows by what the
    counter counts. -/
structure CappedGrowth (lim : Limits) (start : Nat) (bank : Bank B) : Prop where
  small : bank.issuedPlur < 2 ^ 64
  capped : bank.issuedPlur ≤ lim.maxIssuePlur
  grown : ledgerTotal bank.ledger = start + bank.issuedPlur

theorem cappedGrowth_call {lim : Limits} {start : Nat} {bank after : Bank B} {b : B} (low : lim.maxIssuePlur < u64Max)
    (inv : CappedGrowth lim start bank) (leaves : Leaves lim bank b after) : CappedGrowth lim start after := by
  cases leaves with
  | asWas counter ledger => exact ⟨counter ▸ inv.small,counter ▸ inv.capped,by rw [ledger,counter]; exact inv.grown⟩
  | recorded plur cumulative within sum bounded counter ledger =>
    have whole : clamp64 plur = plur := clamp64_exact (clamp64_small within low)
    rw [whole] at within counter
    have exact_ := satAdd_lt within low
    have fits : bank.issuedPlur + plur < 2 ^ 64 := by
      have := lim.maxIssuePlur_lt
      omega
    rw [wrapAdd_exact fits] at counter
    have moved := ledgerTotal_insert bank.ledger b cumulative
    have grown := inv.grown
    refine ⟨by omega,by omega,?_⟩
    rw [ledger,counter]
    omega

/-- On a chequebook that can issue nothing, the ledger stays empty of amounts. -/
theorem nothing_call {lim : Limits} {bank after : Bank B} {b : B} (nothing : lim.issuable.val = 0)
    (zero : ledgerTotal bank.ledger = 0) (leaves : Leaves lim bank b after) : ledgerTotal after.ledger = 0 := by
  cases leaves with
  | asWas counter ledger => rw [ledger]; exact zero
  | recorded plur cumulative within sum bounded counter ledger =>
    have moved := ledgerTotal_insert bank.ledger b cumulative
    have none_ : cumulative.val = 0 := by
      have := Fin.le_def.mp bounded
      omega
    rw [ledger]
    omega

theorem issued_small {lim : Limits} {bank after : Bank B} {b : B} (small : bank.issuedPlur < 2 ^ 64)
    (leaves : Leaves lim bank b after) : after.issuedPlur < 2 ^ 64 := by
  cases leaves with
  | asWas counter ledger => rw [counter]; exact small
  | recorded plur cumulative within sum bounded counter ledger => rw [counter]; exact wrapAdd_lt _ _

/-- A property that what a call leaves keeps holds after every sequence of calls. -/
theorem emitAll_keeps {lim : Limits} (Inv : Bank B → Prop)
    (keep : ∀ bank b after, Inv bank → Leaves lim bank b after → Inv after)
    (requests : List (Request B)) (bank : Bank B) (small : bank.issuedPlur < 2 ^ 64) (start : Inv bank) :
    Inv (emitAll lim bank requests) := by
  induction requests generalizing bank with
  | nil => exact start
  | cons r rest ih =>
    have leaves := emit_leaves lim bank r.beneficiary r.debtUnits.val r.answers small
    exact ih _ (issued_small small leaves) (keep bank r.beneficiary _ start leaves)

/-! ### Issuing one PLUR at a time -/

/-- A call for one unit at a rate of one, in which nothing fails. -/
def onePlur (b : B) : Request B := ⟨b,1,⟨true,some (some (1,0)),true,true,true⟩⟩

/-- A guard that lets one more PLUR pass. -/
def Admits (lim : Limits) (issuedPlur plur : Nat) : Prop := issuedPlur + plur ≤ lim.maxIssuePlur ∨ lim.maxIssuePlur = u64Max

theorem emit_onePlur {lim : Limits} {bank : Bank B} {b : B} (admits : Admits lim bank.issuedPlur 1)
    (room : (cumulativeFor bank.ledger b).val + 1 ≤ lim.issuable.val) :
    ∃ cumulative : U256, cumulative.val = (cumulativeFor bank.ledger b).val + 1 ∧
      (emitAll lim bank [onePlur b]).ledger = bank.ledger.insert b cumulative ∧
      (emitAll lim bank [onePlur b]).issuedPlur = wrapAdd bank.issuedPlur 1 := by
  have fits : (cumulativeFor bank.ledger b).val + 1 < 2 ^ 256 := lt_of_le_of_lt room lim.issuable.isLt
  have draw : drawCumulative lim (cumulativeFor bank.ledger b) 1 = .ok ⟨_,fits⟩ :=
    drawCumulative_ok.mpr ⟨rfl,Fin.le_def.mpr room⟩
  have within : ¬ lim.maxIssuePlur < satAdd bank.issuedPlur (clamp64 1) := by
    rw [show clamp64 1 = 1 from rfl]
    rcases admits with under | top
    · exact not_lt.mpr ((satAdd_le _ _).trans under)
    · rw [top]; exact not_lt.mpr (satAdd_le_max _ _)
  have amount : chequeAmount 1 0 1 = .ok 1 := by decide +kernel
  refine ⟨⟨_,fits⟩,rfl,?_,?_⟩
  · simp [emitAll,onePlur,emitSettlementCheque,amount,emitPriced,within,emitReserved,draw]
  · simp [emitAll,onePlur,emitSettlementCheque,amount,emitPriced,within,emitReserved,draw]; rfl

/-- One beneficiary can be paid up to the ceiling, one PLUR at a time, as far as
    the guard admits. -/
theorem emit_many (lim : Limits) (b : B) (n : Nat) (bank : Bank B) (admits : Admits lim bank.issuedPlur n)
    (room : (cumulativeFor bank.ledger b).val + n ≤ lim.issuable.val) :
    ∃ requests, ledgerTotal (emitAll lim bank requests).ledger = ledgerTotal bank.ledger + n ∧
      (∀ c, c ≠ b → cumulativeFor (emitAll lim bank requests).ledger c = cumulativeFor bank.ledger c) ∧
      (emitAll lim bank requests).issuedPlur ≤ bank.issuedPlur + n := by
  induction n generalizing bank with
  | zero => exact ⟨[],rfl,fun _ _ => rfl,le_refl _⟩
  | succ n ih =>
    have admitsOne : Admits lim bank.issuedPlur 1 := admits.imp (fun under => by omega) id
    obtain ⟨cumulative,value,ledger,counter⟩ := emit_onePlur (b := b) admitsOne (by omega)
    have counted : (emitAll lim bank [onePlur b]).issuedPlur ≤ bank.issuedPlur + 1 := counter ▸ wrapAdd_le _ _
    have entry : cumulativeFor (emitAll lim bank [onePlur b]).ledger b = cumulative := by
      rw [ledger,cumulativeFor_insert,if_pos rfl]
    obtain ⟨requests,total,others,issued⟩ := ih (emitAll lim bank [onePlur b])
      (admits.imp (fun under => by omega) id) (by rw [entry]; omega)
    have split : emitAll lim bank (onePlur b :: requests) = emitAll lim (emitAll lim bank [onePlur b]) requests := rfl
    have moved := ledgerTotal_insert bank.ledger b cumulative
    refine ⟨onePlur b :: requests,?_,?_,?_⟩
    · rw [split,total,ledger]; omega
    · intro c other
      rw [split,others c other,ledger,cumulativeFor_insert,if_neg other]
    · rw [split]; omega

/-- Where the cap does not fit, two beneficiaries are paid more than the ceiling. -/
theorem over_issued {lim : Limits} {ledger : Finmap fun _ : B => U256} {b c : B} (distinct : b ≠ c)
    (start : ledgerTotal ledger ≤ lim.issuable.val) (something : lim.issuable.val ≠ 0)
    (unfit : lim.maxIssuePlur = u64Max ∨ lim.issuable.val < ledgerTotal ledger + lim.maxIssuePlur) :
    ∃ requests, ledgerTotal (emitAll lim ⟨0,ledger,[]⟩ requests).ledger = lim.issuable.val + 1 := by
  have pair := pair_le_ledgerTotal ledger distinct
  -- What is missing to one more than the ceiling, split between the two.
  obtain ⟨first,second,split,roomB,roomC⟩ : ∃ first second,
      first + second = lim.issuable.val + 1 - ledgerTotal ledger ∧
      (cumulativeFor ledger b).val + first ≤ lim.issuable.val ∧
      (cumulativeFor ledger c).val + second ≤ lim.issuable.val :=
    ⟨min (lim.issuable.val + 1 - ledgerTotal ledger) (lim.issuable.val - (cumulativeFor ledger b).val),
      (lim.issuable.val + 1 - ledgerTotal ledger) -
        min (lim.issuable.val + 1 - ledgerTotal ledger) (lim.issuable.val - (cumulativeFor ledger b).val),
      by omega,by omega,by omega⟩
  have admits : lim.maxIssuePlur = u64Max ∨ first + second ≤ lim.maxIssuePlur := unfit.imp id fun past => by omega
  obtain ⟨toB,totalB,others,issuedB⟩ := emit_many lim b first ⟨0,ledger,[]⟩
    (admits.symm.imp (fun under => by simp only; omega) id) roomB
  obtain ⟨toC,totalC,-,-⟩ := emit_many lim c second (emitAll lim ⟨0,ledger,[]⟩ toB)
    (admits.symm.imp (fun under => by simp only at issuedB; omega) id) (by rw [others c distinct.symm]; exact roomC)
  refine ⟨toB ++ toC,?_⟩
  have joined : emitAll lim ⟨0,ledger,[]⟩ (toB ++ toC) = emitAll lim (emitAll lim ⟨0,ledger,[]⟩ toB) toC :=
    List.foldl_append
  rw [joined,totalC,totalB]
  simp only
  omega

/-- No sequence of calls issues more than the chequebook can pay if and only if it
    can issue nothing, or the cap is a proper one and fits into what the ledger
    leaves of the ceiling. -/
theorem never_over_issued_iff (lim : Limits) (ledger : Finmap fun _ : BitVec 160 => U256)
    (start : ledgerTotal ledger ≤ lim.issuable.val) :
    (∀ requests : List (Request (BitVec 160)), ledgerTotal (emitAll lim ⟨0,ledger,[]⟩ requests).ledger ≤ lim.issuable.val) ↔
      lim.issuable.val = 0 ∨
        (lim.maxIssuePlur < u64Max ∧ ledgerTotal ledger + lim.maxIssuePlur ≤ lim.issuable.val) := by
  constructor
  · intro safe
    by_contra unfit
    rw [not_or,not_and_or] at unfit
    obtain ⟨something,unfit⟩ := unfit
    have top : lim.maxIssuePlur ≤ u64Max := by
      have := lim.maxIssuePlur_lt
      have := u64Max_succ
      omega
    obtain ⟨requests,past⟩ := over_issued (b := (0 : BitVec 160)) (c := 1) (by decide) start something
      (unfit.imp (fun high => by omega) fun past => by omega)
    have := safe requests
    omega
  · rintro (nothing | ⟨low,fits⟩) requests
    · have stays := emitAll_keeps (fun bank => ledgerTotal bank.ledger = 0)
        (fun bank b after zero leaves => nothing_call nothing zero leaves) requests ⟨0,ledger,[]⟩
        (Nat.two_pow_pos 64) (by simp only; omega)
      rw [stays]; exact Nat.zero_le _
    · have grown := emitAll_keeps (CappedGrowth lim (ledgerTotal ledger))
        (fun bank b after inv leaves => cappedGrowth_call low inv leaves) requests ⟨0,ledger,[]⟩
        (Nat.two_pow_pos 64) ⟨Nat.two_pow_pos 64,Nat.zero_le _,rfl⟩
      have := grown.grown
      have := grown.capped
      omega

/-- A chequebook of 1000 under a cap of 1200. -/
def thousand : Limits := ⟨1000,1200,by decide⟩

/-- A call for some units at a rate of one, in which nothing fails. -/
def paying (b : BitVec 160) (units : Fin (2 ^ 64)) : Request (BitVec 160) :=
  ⟨b,units,⟨true,some (some (1,0)),true,true,true⟩⟩

/-- 600 to one peer and 600 to another pass every guard. -/
theorem two_peers_over_issue : ledgerTotal (∅ : Finmap fun _ : BitVec 160 => U256) ≤ thousand.issuable.val ∧
    ledgerTotal (emitAll thousand ⟨0,∅,[]⟩ [paying 1 600,paying 2 600]).ledger = 1200 ∧
    thousand.issuable.val < 1200 := by
  decide +kernel

theorem never_over_issued_thousand :
    (∀ requests : List (Request (BitVec 160)), ledgerTotal (emitAll thousand ⟨0,∅,[]⟩ requests).ledger ≤ 1000) ↔
      (1000 = 0 ∨ (1200 < u64Max ∧ ledgerTotal (∅ : Finmap fun _ : BitVec 160 => U256) + 1200 ≤ 1000)) :=
  never_over_issued_iff thousand ∅ (by decide +kernel)

end Directswarm.Issuance
