import Directswarm.ChequeOrder
import Directswarm.FastLedger

/-!
The ledger over a whole run. Three drivers open a `FastLedger`, make calls of
`emit_settlement_cheque` on it and return: `probe_storer`, `probe_growth` and
`fetch_scheduled`, each told here as the stages from the opening on, with every
place at which it can return early. The persister stops when the last reference
to the ledger is gone. What was written is on disk at the end as long as the
function returns with a clear dirty flag (`cheques_on_disk`). `probe_storer`
never flushes (`probe_storer_unrecorded`), and `fetch_scheduled` leaves before
its flush when the chunk store cannot be flushed.
-/
namespace Directswarm.Durability
open Directswarm.Runs Directswarm.Interleaving Directswarm.Files Directswarm.Cheques Directswarm.ChequeOrder
open Directswarm.LedgerText Directswarm.FastLedger

/-- A stage of a driver, after the ledger was opened. -/
inductive Stage
  /-- An operation whose failure returns. -/
  | fallible
  /-- Calls are made, any number at a time, and all of them are waited for. -/
  | cheques
  /-- `ledger.flush()`, whose failure is logged. -/
  | flush
  /-- The last reference to the ledger is dropped. -/
  | dropLedger
  deriving DecidableEq

inductive Driver
  | probeStorer
  | probeGrowth
  | fetchScheduled

/-- The stages from the opening of the ledger to the return. -/
def stages : Driver → List Stage
  -- TCP, sinks, dial, connection, handshake, overlay; the settlement task, which
  -- takes the ledger with it; its join.
  | .probeStorer => List.replicate 6 .fallible ++ [.cheques,.dropLedger,.fallible]
  -- The same way in; the growth, λ, prepay, ceiling and sweep phases; the flush.
  | .probeGrowth => List.replicate 6 .fallible ++ [.cheques,.flush]
  -- The selection, the fallback client; the dispatch loop; the store's flush, the
  -- ledger's, and the check that some connection was established.
  | .fetchScheduled => [.fallible,.fallible,.cheques,.fallible,.flush,.fallible]

/-- Where a driver stands. -/
inductive Control
  | running (rest : List Stage)
  /-- Inside the flush that a writer carries out. -/
  | flushing (writer : Nat) (rest : List Stage)
  | returned
  deriving DecidableEq

/-- A driver, its calls and its ledger. Beneficiaries go by the key of their address. -/
structure System where
  issuedPlur : Nat
  frames : List (Frame HexKey)
  calls : List (Call HexKey)
  ledger : Ledger
  /-- A reference to the ledger is left for the persister to find. -/
  held : Bool
  control : Control

/-- The calls around the bank that the ledger is part of. -/
def emissions (sys : System) : Emissions HexKey := ⟨⟨sys.issuedPlur,sys.ledger.common.map,sys.frames⟩,sys.calls⟩

inductive Act
  /-- The driver goes on; `ok` is the outcome of a fallible operation. -/
  | driver (ok : Bool)
  | start (beneficiary : Address) (debtUnits : Nat)
  | call (i : Nat) (act : CallAct)
  | writer (i : Nat) (act : WriterAct)

/-- A call has returned. -/
def Ended (call : Call HexKey) : Prop := ∃ result, call.phase = .ended result

instance (call : Call HexKey) : Decidable (Ended call) :=
  match phase : call.phase with
  | .ended result => isTrue ⟨result,phase⟩
  | .opening | .preamble | .priced _ _ | .reserved _ _ _ | .refused _ | .passed _ _ | .drawn _ _ _ | .signed _ _ _
    | .written _ _ _ | .flushed _ _ _ | .recorded _ _ _ | .failed _ _ => isFalse fun ⟨_,same⟩ => by simp [phase] at same

/-- What a step of a call does to the ledger besides reading it. -/
def recordAct (call : Call HexKey) : Option FastLedger.Act :=
  match call.phase with
  | .flushed _ _ cumulative => some (.insert call.beneficiary cumulative)
  | .recorded _ _ _ => some .mark
  | _ => none

/-- One turn of the driver. -/
def driverStep (codec : U256Text) (sys : System) (ok : Bool) : Option System :=
  match sys.control with
  | .running [] => some { sys with control := .returned, held := false }
  | .running (.fallible :: rest) =>
    if ok then some { sys with control := .running rest }
    else some { sys with control := .returned, held := false }
  | .running (.cheques :: rest) =>
    if ∀ call ∈ sys.calls, Ended call then some { sys with control := .running rest } else none
  | .running (.flush :: rest) =>
    (FastLedger.step codec sys.ledger .flush).map fun ledger =>
      { sys with ledger := ledger, control := .flushing sys.ledger.parties.length rest }
  | .running (.dropLedger :: rest) => some { sys with control := .running rest, held := false }
  | .flushing writer rest =>
    match sys.ledger.parties[writer]? with
    | some w => if w.phase = .idle then some { sys with control := .running rest } else none
    | none => none
  | .returned => none

/-- Calls are being made. -/
def Emitting (sys : System) : Prop := ∃ rest, sys.control = .running (.cheques :: rest)

instance (sys : System) : Decidable (Emitting sys) :=
  match control : sys.control with
  | .running (.cheques :: rest) => isTrue ⟨rest,control⟩
  | .running [] | .running (.fallible :: _) | .running (.flush :: _) | .running (.dropLedger :: _) | .flushing _ _
    | .returned => isFalse fun ⟨_,same⟩ => by simp [control] at same

def step (codec : U256Text) (lim : Limits) (sys : System) : Act → Option System
  | .driver ok => driverStep codec sys ok
  | .start beneficiary debtUnits =>
    if Emitting sys ∧ debtUnits < 2 ^ 64 then
      some { sys with calls := sys.calls ++ [⟨hexEncode beneficiary,debtUnits,.opening⟩] }
    else none
  | .call i act =>
    match sys.calls[i]? with
    | none => none
    | some call =>
      (callStep lim (emissions sys).common call act).bind fun moved =>
        ((recordAct call).elim (some sys.ledger) (FastLedger.step codec sys.ledger)).map fun ledger =>
          ⟨moved.1.issuedPlur,moved.1.frames,sys.calls.set i moved.2,ledger,sys.held,sys.control⟩
  | .writer i act =>
    match act, sys.held with
    | .wake, false => none
    | act, _ => (FastLedger.step codec sys.ledger (.writer i act)).map fun ledger => { sys with ledger := ledger }

/-- A run begins where the ledger was just opened. -/
def begun (codec : U256Text) (files : Replacing Char) (driver : Driver) : System :=
  ⟨0,[],[],opened codec files,true,.running (stages driver)⟩

/-! ### What has to hold of the steps -/

/-- The steps after which everything is on disk at the end: the ledger covers what
    is written, persists take turns, no file operation fails, and the function
    returns with a clear dirty flag. -/
def Durable (sys : System) : Act → Prop
  | .driver ok =>
    match sys.control with
    | .running [] => sys.ledger.common.dirty = false
    | .running (.fallible :: _) => ok = true ∨ sys.ledger.common.dirty = false
    | .running (.flush :: _) => Resting sys.ledger
    | _ => True
  | .start _ _ => True
  | .call i act => Covers (emissions sys) (.call i act)
  | .writer _ .wake => sys.ledger.common.dirty = true → Resting sys.ledger
  | .writer _ (.io ok) => ok = true
  | .writer _ _ => True

instance (sys : System) : (act : Act) → Decidable (Durable sys act)
  | .driver ok =>
    match control : sys.control with
    | .running [] => decidable_of_iff (sys.ledger.common.dirty = false) (by simp only [Durable,control])
    | .running (.fallible :: _) =>
      decidable_of_iff (ok = true ∨ sys.ledger.common.dirty = false) (by simp only [Durable,control])
    | .running (.flush :: _) => decidable_of_iff (Resting sys.ledger) (by simp only [Durable,control])
    | .running (.cheques :: _) | .running (.dropLedger :: _) | .flushing _ _ | .returned =>
      isTrue (by simp only [Durable,control])
  | .call i act => inferInstanceAs (Decidable (Covers (emissions sys) (.call i act)))
  | .writer _ .wake => inferInstanceAs (Decidable (sys.ledger.common.dirty = true → Resting sys.ledger))
  | .writer _ (.io ok) => inferInstanceAs (Decidable (ok = true))
  | .start _ _ | .writer _ (.snapshot _) | .writer _ (.land _) | .writer _ .go => isTrue trivial

/-! ### The invariant -/

/-- A call that has inserted and not set the flag. -/
def halfRecorded : Cheques.Phase → Nat
  | .recorded _ _ _ => 1
  | _ => 0

/-- The ledger keeps up, covers what was written and counts the half-done records;
    no persist has failed; outside the stage that makes calls all of them have
    ended; and at the return nothing was left to write. -/
structure Sound (codec : U256Text) (sys : System) : Prop where
  kept : Kept codec sys.ledger
  covered : Covered (emissions sys)
  counted : sys.ledger.common.unmarked = total (fun call => halfRecorded call.phase) sys.calls
  untorn : ∀ w ∈ sys.ledger.parties, w.phase ≠ .finished false
  ended : ¬ Emitting sys → ∀ call ∈ sys.calls, Ended call
  clean : sys.control = .returned → sys.ledger.common.dirty = false

theorem sound_begun (codec : U256Text) (files : Replacing Char) (driver : Driver) : Sound codec (begun codec files driver) where
  kept := kept_opened codec files
  covered := covered_opening _
  counted := rfl
  untorn := by simp [begun,opened]
  ended := by simp [begun]
  clean := by simp [begun]

/-- A turn of the driver that leaves the calls and the ledger alone. -/
theorem sound_control {codec : U256Text} {sys : System} (inv : Sound codec sys) (control : Control) (held : Bool)
    (ended : ∀ call ∈ sys.calls, Ended call) (clean : control = .returned → sys.ledger.common.dirty = false) :
    Sound codec { sys with control := control, held := held } :=
  ⟨inv.kept,inv.covered,inv.counted,inv.untorn,fun _ => ended,clean⟩

theorem sound_driver {codec : U256Text} {sys next : System} {ok : Bool} (inv : Sound codec sys)
    (met : Durable sys (.driver ok)) (taken : driverStep codec sys ok = some next) : Sound codec next := by
  unfold driverStep at taken
  unfold Durable at met
  split at taken
  · rename_i control
    cases taken
    rw [control] at met
    exact sound_control inv _ _ (inv.ended (by simp [Emitting,control])) fun _ => met
  · rename_i rest control
    have quiet := inv.ended (by simp [Emitting,control])
    rw [control] at met
    cases ok with
    | true => cases taken; exact sound_control inv _ _ quiet nofun
    | false => cases taken; exact sound_control inv _ _ quiet fun _ => met.resolve_left nofun
  · by_cases past : ∀ call ∈ sys.calls, Ended call
    · rw [if_pos past] at taken
      cases taken
      exact sound_control inv _ _ past nofun
    · simp [past] at taken
  · rename_i rest control
    rw [control] at met
    obtain ⟨ledger,flushed,rfl⟩ := Option.map_eq_some_iff.mp taken
    have kept := kept_step sys.ledger .flush ledger inv.kept met flushed
    cases flushed
    exact ⟨kept,inv.covered,inv.counted,forall_append inv.untorn nofun,
      fun _ => inv.ended (by simp [Emitting,control]),nofun⟩
  · rename_i rest control
    cases taken
    exact sound_control inv _ _ (inv.ended (by simp [Emitting,control])) nofun
  · rename_i writer rest control
    split at taken
    · rename_i w found
      by_cases done : w.phase = .idle
      · rw [if_pos done] at taken
        cases taken
        exact sound_control inv _ _ (inv.ended (by simp [Emitting,control])) nofun
      · simp [done] at taken
    · cases taken
  · cases taken

/-- What a step of a call does to the ledger agrees with what it does to the bank. -/
theorem record_agrees {codec : U256Text} {lim : Limits} {bank bank' : Bank HexKey} {call call' : Call HexKey}
    {act : CallAct} {ledger ledger' : Ledger} (same : ledger.common.map = bank.ledger)
    (moves : Moves lim bank call act bank' call'.phase)
    (recorded : (recordAct call).elim (some ledger) (FastLedger.step codec ledger) = some ledger') :
    ledger'.common.map = bank'.ledger ∧ ledger'.parties = ledger.parties ∧
      ledger'.common.unmarked + halfRecorded call.phase = ledger.common.unmarked + halfRecorded call'.phase := by
  generalize stands : call'.phase = phase at moves
  cases moves with
  | recorded at_ =>
    simp only [recordAct,at_,Option.elim,FastLedger.step] at recorded
    cases recorded
    simp [at_,halfRecorded,same]
  | ended at_ =>
    simp only [recordAct,at_,Option.elim,FastLedger.step] at recorded
    by_cases none_ : ledger.common.unmarked = 0
    · simp [none_] at recorded
    · rw [if_neg none_] at recorded
      cases recorded
      refine ⟨same,rfl,?_⟩
      simp only [at_,halfRecorded]
      omega
  | opened at_ | unopened at_ | unanswered at_ | rateless at_ | unpriced at_ _ | priced at_ _ | reserved at_
    | refused at_ _ | passed at_ _ | givenUp at_ | undrawn at_ _ | drawn at_ _ | signed at_ | unsigned at_ | written at_
    | unwritten at_ | flushed at_ | unflushed at_ | givenBack at_ =>
    simp only [recordAct,at_,Option.elim] at recorded
    cases recorded
    exact ⟨same,rfl,by simp [at_,halfRecorded]⟩

theorem kept_record {codec : U256Text} {call : Call HexKey} {ledger ledger' : Ledger} (kept : Kept codec ledger)
    (recorded : (recordAct call).elim (some ledger) (FastLedger.step codec ledger) = some ledger') :
    Kept codec ledger' := by
  cases does : recordAct call with
  | none => rw [does] at recorded; cases recorded; exact kept
  | some act =>
    rw [does] at recorded
    refine kept_step ledger act ledger' kept ?_ recorded
    unfold recordAct at does
    split at does
    · cases does; trivial
    · cases does; trivial
    · cases does

theorem not_ended_of_moves {lim : Limits} {bank bank' : Bank HexKey} {call : Call HexKey} {act : CallAct}
    {phase : Cheques.Phase} (moves : Moves lim bank call act bank' phase) : ¬ Ended call := by
  rintro ⟨result,same⟩
  cases moves <;> simp_all

theorem sound_call {codec : U256Text} {lim : Limits} {sys next : System} {i : Nat} {act : CallAct}
    (inv : Sound codec sys) (met : Durable sys (.call i act)) (taken : step codec lim sys (.call i act) = some next) :
    Sound codec next := by
  simp only [step] at taken
  cases found : sys.calls[i]? with
  | none => simp [found] at taken
  | some call =>
    simp only [found] at taken
    obtain ⟨⟨bank',call'⟩,moved,rest⟩ := Option.bind_eq_some_iff.mp taken
    obtain ⟨ledger,recorded,rfl⟩ := Option.map_eq_some_iff.mp rest
    obtain ⟨moves,for_,-⟩ := callStep_moves moved
    obtain ⟨map,parties,half⟩ := record_agrees rfl moves recorded
    -- A call moves only while calls are being made.
    have emitting : Emitting sys := by
      by_contra outside
      exact not_ended_of_moves moves (inv.ended outside call (mem_of_found found))
    have covered := covered_call inv.covered met found moves for_
    refine ⟨kept_record inv.kept recorded,?_,?_,?_,fun outside => absurd emitting outside,?_⟩
    · simp only [emissions,map]; exact covered
    · have counted := inv.counted
      have sums := total_set (fun call => halfRecorded call.phase) call' found
      simp only at sums ⊢
      omega
    · simp only [parties]; exact inv.untorn
    · intro returned
      obtain ⟨rest,running⟩ := emitting
      rw [running] at returned; cases returned

theorem sound_writer {codec : U256Text} {lim : Limits} {sys next : System} {i : Nat} {act : WriterAct}
    (inv : Sound codec sys) (met : Durable sys (.writer i act)) (taken : step codec lim sys (.writer i act) = some next) :
    Sound codec next := by
  have moved : ∃ ledger, FastLedger.step codec sys.ledger (.writer i act) = some ledger ∧
      next = { sys with ledger := ledger } := by
    simp only [step] at taken
    split at taken
    · cases taken
    · obtain ⟨ledger,stepped,rfl⟩ := Option.map_eq_some_iff.mp taken
      exact ⟨ledger,stepped,rfl⟩
  obtain ⟨ledger,stepped,rfl⟩ := moved
  have writable : act ≠ .io false := by
    rintro rfl; cases met
  have turns : KeepsUp sys.ledger (.writer i act) := by
    cases act with
    | wake => exact met
    | go => intro w found torn; exact absurd torn (inv.untorn w (mem_of_found found))
    | snapshot _ | io _ | land _ => trivial
  have kept := kept_step sys.ledger (.writer i act) ledger inv.kept turns stepped
  obtain ⟨w,mem',w',found,wrote,rfl⟩ := stepAt_some.mp stepped
  obtain ⟨moves,-⟩ := writerStep_moves wrote
  obtain ⟨map,unmarked⟩ := writer_frame moves
  refine ⟨kept,?_,?_,?_,inv.ended,?_⟩
  · simp only [emissions,map]; exact inv.covered
  · simp only [unmarked]; exact inv.counted
  · exact forall_set inv.untorn (writer_untorn inv.kept found moves writable)
  · intro returned
    exact writer_clean moves (inv.untorn w (mem_of_found found)) (inv.clean returned)

theorem sound_step {codec : U256Text} {lim : Limits} (sys : System) (act : Act) (next : System) (inv : Sound codec sys)
    (met : Durable sys act) (taken : step codec lim sys act = some next) : Sound codec next := by
  cases act with
  | driver ok => exact sound_driver inv met taken
  | start beneficiary units =>
    simp only [step] at taken
    by_cases open_ : Emitting sys ∧ units < 2 ^ 64
    · rw [if_pos open_] at taken
      cases taken
      exact ⟨inv.kept,covered_start inv.covered _ _,by simpa [halfRecorded] using inv.counted,inv.untorn,
        fun outside => absurd open_.1 outside,inv.clean⟩
    · rw [if_neg open_] at taken; cases taken
  | call i act => exact sound_call inv met taken
  | writer i act => exact sound_writer inv met taken

/-- In every run of a driver whose steps are durable, when the function has returned
    and no persist is in progress, the file records at least what was written. -/
theorem cheques_on_disk (codec : U256Text) (lim : Limits) (files : Replacing Char) (driver : Driver) (acts : List Act)
    (sys : System) (met : Meets (step codec lim) Durable (begun codec files driver) acts)
    (reached : run (step codec lim) (begun codec files driver) acts = some sys)
    (returned : sys.control = .returned) (resting : Resting sys.ledger) :
    ∀ f ∈ sys.frames, f.cumulative ≤ cumulativeFor (loadMap codec sys.ledger.common.files.read) f.beneficiary := by
  have inv := run_guarded sound_step (sound_begun codec files driver) met reached
  have ended := inv.ended (by simp [Emitting,returned])
  have recorded : sys.ledger.common.unmarked = 0 := by
    rw [inv.counted]
    have none_ : total (fun call => halfRecorded call.phase) sys.calls ≤ sys.calls.length * 0 :=
      total_le_mul fun call member => by obtain ⟨result,at_⟩ := ended call member; simp [at_,halfRecorded]
    omega
  have same := kept_resting inv.kept resting recorded (inv.clean returned)
  intro f member
  rw [same]
  rcases inv.covered.covered f member with below | ⟨call,there,-,waits⟩
  · exact below
  · obtain ⟨result,at_⟩ := ended call there
    rw [at_] at waits; cases waits

/-! ### A probe that does not flush -/

/-- A cap of 1000 PLUR on a chequebook of 10000. -/
def probeLimits : Limits := ⟨10000,1000,thousand_fits⟩

/-- A storer's address. -/
def storer : Address := List.Vector.replicate 20 0x5a

/-- The driver reaches its calls, pays the storer 100 and lets the call end. -/
def oneCheque (setup : Nat) : List Act :=
  List.replicate setup (.driver true) ++ .start storer 100 ::
    List.map (Act.call 0) (reserving 1 0 ++ signing ++ finishing) ++ ([.driver true] : List Act)

/-- `probe_storer` with one cheque, in which nothing fails. -/
def probed : List Act := oneCheque 6 ++ [.driver true,.driver true,.driver true]

theorem probe_storer_unrecorded : ∃ sys,
    run (step plainText probeLimits) (begun plainText (Replacing.holding none) .probeStorer) probed = some sys ∧
    sys.control = .returned ∧ Resting sys.ledger ∧ sys.frames = [⟨hexEncode storer,100,100⟩] ∧
    sys.ledger.common.files.read = none ∧ ¬ ∀ f ∈ sys.frames,
      f.cumulative ≤ cumulativeFor (loadMap plainText sys.ledger.common.files.read) f.beneficiary := by
  have facts : (run (step plainText probeLimits) (begun plainText (Replacing.holding none) .probeStorer) probed).any
      (fun sys => sys.control = .returned ∧ Resting sys.ledger ∧ sys.frames = [⟨hexEncode storer,100,100⟩] ∧
        sys.ledger.common.files.read = none ∧ ¬ ∀ f ∈ sys.frames,
          f.cumulative ≤ cumulativeFor (loadMap plainText sys.ledger.common.files.read) f.beneficiary) = true := by
    decide +kernel
  obtain ⟨sys,reached,holds⟩ := (Option.any_eq_true _ _).mp facts
  exact ⟨sys,reached,of_decide_eq_true holds⟩

/-- `probe_growth` with one cheque, which its flush writes to disk. -/
def grown : List Act :=
  oneCheque 6 ++ .driver true :: List.map (Act.writer 1) [.snapshot [⟨hexEncode storer,100⟩],.io true,.io true,
    .land (body plainText [⟨hexEncode storer,100⟩]).length,.io true,.io true,.io true,.go] ++
      ([.driver true,.driver true] : List Act)

theorem cheques_on_disk_grown : ∃ sys,
    run (step plainText probeLimits) (begun plainText (Replacing.holding none) .probeGrowth) grown = some sys ∧
    ∀ f ∈ sys.frames, f.cumulative ≤ cumulativeFor (loadMap plainText sys.ledger.common.files.read) f.beneficiary := by
  have facts : (run (step plainText probeLimits) (begun plainText (Replacing.holding none) .probeGrowth) grown).any
      (fun sys => sys.control = .returned ∧ Resting sys.ledger) = true := by decide +kernel
  obtain ⟨sys,reached,holds⟩ := (Option.any_eq_true _ _).mp facts
  obtain ⟨returned,resting⟩ := of_decide_eq_true holds
  exact ⟨sys,reached,cheques_on_disk plainText probeLimits (Replacing.holding none) .probeGrowth grown sys
    (by decide +kernel) reached returned resting⟩

end Directswarm.Durability
