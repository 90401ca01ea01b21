import Mathlib.Data.List.ReduceOption
import Directswarm.SweepRoom
import Directswarm.Overflow

/-!
The 64-bit sums and products that `run_fetch_phase` and `lambda_sample` leave
unchecked, with those of `Conn` (`probeOps`), over the probe and the counters that it
reports. As with a connection of the scheduler, the reservations and the queue of
cheques stay small by themselves, and `Within` says where the rest does: a threshold
that is multiplied by 105, the units of a cheque in advance, and what is counted. A
probe whose steps are all taken within it is free of overflows (`probe_exact`), and so
is all of the pacing (`pacing_exact`).
-/
namespace Directswarm.GrowthOverflow
open Directswarm.Words Directswarm.Runs Directswarm.Interleaving Directswarm.Cheques Directswarm.Pacing Directswarm.Growth
  Directswarm.SweepRoom Directswarm.Unchecked Directswarm.Overflow

/-! ### What is counted -/

/-- The counters of `Conn` and of the phase that runs. -/
structure Counters where
  cheques : Nat
  chequeUnits : Nat
  refreshes : Nat
  refreshUnits : Nat
  unitsAtStart : Nat
  fetchesOk : Nat
  fetchesErr : Nat
  bytes : Nat
  sampleFetches : Nat
  sampleAt : Nat
  /-- The fetches that ended and are not joined, with the size of the chunk. -/
  landed : List (Option Nat)

namespace Counters

def zero : Counters := ⟨0,0,0,0,0,0,0,0,0,0,[]⟩

/-- `cheque_units + refresh_units`. -/
def units (k : Counters) : Nat := k.chequeUnits + k.refreshUnits

/-- The start of `run_fetch_phase`. -/
def start (k : Counters) (now : Nat) : Counters :=
  { k with
    unitsAtStart := wrapAdd k.chequeUnits k.refreshUnits
    fetchesOk := 0
    fetchesErr := 0
    bytes := 0
    sampleFetches := 0
    sampleAt := now }

/-- A fetch is joined. -/
def join (k : Counters) : Option Nat → Counters
  | some size => { k with
      fetchesOk := wrapAdd k.fetchesOk 1
      sampleFetches := wrapAdd k.sampleFetches 1
      bytes := wrapAdd k.bytes size }
  | none => { k with fetchesErr := wrapAdd k.fetchesErr 1 }

/-- A refresh or a probe was accepted. -/
def accept (k : Counters) (units : Nat) : Counters :=
  if 0 < units then { k with refreshes := wrapAdd k.refreshes 1, refreshUnits := wrapAdd k.refreshUnits units } else k

/-- A cheque went out. -/
def pay (k : Counters) (units : Nat) : Counters :=
  { k with cheques := wrapAdd k.cheques 1, chequeUnits := wrapAdd k.chequeUnits units }

end Counters

variable {A B : Type}

/-- The ceiling phase is run. -/
def soars (opts : Options A) (s : Probe B) : Prop := 0 < opts.ceilingSecs ∧ s.conn.alive = true ∧ s.spendCapped = false

instance (opts : Options A) (s : Probe B) : Decidable (soars opts s) := inferInstanceAs (Decidable (_ ∧ _))

/-- The counters after a step, in which a fetch returned a chunk of some size. -/
def counted (opts : Options A) (s : Probe B) (k : Counters) (act : Growth.Act) (size : Nat) : Counters :=
  match act, s.phase with
  | .task _ ok, _ => { k with landed := k.landed ++ [if ok then some size else none] }
  | .go, .begin_ => if 0 < opts.growthSecs then k.start s.now else k
  | .go, .ceiling => if soars opts s then k.start s.now else k
  | .go, .joining _ => { k.landed.foldl Counters.join k with landed := [] }
  | .go, .closing _ => if 30000 * ms ≤ s.now - k.sampleAt then { k with sampleFetches := 0, sampleAt := s.now } else k
  | .accepted units, .refreshing _ | .accepted units, .probing _ _ _ => k.accept ((units.map Fin.val).getD 0)
  | .cheque .go, .emitting _ units ⟨_,_,.recorded _ _ _⟩ => k.pay units
  | _, _ => k

/-- A step of the probe is counted. -/
def countStep [DecidableEq B] (opts : Options A) (st : Probe B × Counters) (event : Growth.Act × Nat) :
    Option (Probe B × Counters) :=
  (growthStep opts st.1 event.1).map fun s => (s,counted opts st.1 st.2 event.1 event.2)

/-! ### What is computed -/

/-- `spend_would_exceed`. -/
def spendOps (conn : Growth.Conn) (nextPrice : Nat) : List Op :=
  [.add conn.acct.balance conn.acct.reserved,.add (conn.acct.balance + conn.acct.reserved) nextPrice]

/-- The limit of `run_fetch_phase`. -/
def gateOps (s : Probe B) (l : Loop) : List Op :=
  match l.mode with
  | .growth => []
  | .ceiling window => sumOps 0 ((s.conn.prune s.now window).unvalidated.map Prod.snd) ++
      [.mul l.lastThreshold 105,.add s.conn.prepaid (l.lastThreshold * 105 / 100)]

/-- The fetches that ended are joined. -/
def joinOps : Counters → List (Option Nat) → List Op
  | _, [] => []
  | k, some size :: rest =>
    .add k.fetchesOk 1 :: .add k.sampleFetches 1 :: .add k.bytes size :: joinOps (k.join (some size)) rest
  | k, none :: rest => .add k.fetchesErr 1 :: joinOps (k.join none) rest

def acceptOps (k : Counters) (units : Nat) : List Op :=
  if 0 < units then [.add k.refreshes 1,.add k.refreshUnits units] else []

/-- What a step of the probe computes. -/
def probeOps (opts : Options A) (s : Probe B) (k : Counters) (act : Growth.Act) : List Op :=
  match act, s.phase with
  -- `run_fetch_phase`.
  | .go, .begin_ => if 0 < opts.growthSecs then [.add k.chequeUnits k.refreshUnits] else []
  | .go, .ceiling => if soars opts s then [.add k.chequeUnits k.refreshUnits] else []
  | .go, .spawning _ => if asks opts s .go then spendOps s.conn (opts.priceAt s.cycleIdx) else []
  | .go, .asking l => gateOps s l ++ reserveOps s.conn.acct (opts.priceAt s.cycleIdx) (gate s l).2
  | .go, .joining _ => joinOps k k.landed
  | .go, .closing l =>
    if l.stopping && s.tasks.isEmpty then [.add k.chequeUnits k.refreshUnits,.sub k.units k.unitsAtStart] else []
  -- `lambda_sample`.
  | .go, .sampling (_ + 1) => if s.conn.alive = false ∨ s.spendCapped = true then [] else [.mul s.conn.threshold 4]
  | .go, .building _ threshold _ =>
    if asks opts s .go then
      spendOps s.conn (opts.priceAt s.cycleIdx) ++
        if s.conn.spendWouldExceed opts.lim s.bank.issuedPlur (opts.priceAt s.cycleIdx) then []
        else reserveOps s.conn.acct (opts.priceAt s.cycleIdx) (threshold / 2)
    else []
  | .go, .built _ => [.mul lambdaProbeUnits 4]
  -- `refresh`, the probes of `lambda_sample`, and `emit` and `prepay` after the cheque.
  | .accepted units, .refreshing _ | .accepted units, .probing _ _ _ => acceptOps k ((units.map Fin.val).getD 0)
  | .cheque .go, .emitting _ units ⟨_,_,.recorded _ _ _⟩ => [.add k.cheques 1,.add k.chequeUnits units]
  | _, _ => []

/-! ### Where it may overflow -/

/-- The ceiling's limit is one of 64 bits below `u64::MAX`. -/
structure Gated (s : Probe B) (l : Loop) : Prop where
  scaled : l.lastThreshold * 105 < 2 ^ 64
  sum : s.conn.prepaid + l.lastThreshold * 105 / 100 < 2 ^ 64
  low : (gate s l).2 < u64Max

instance (s : Probe B) (l : Loop) : Decidable (Gated s l) :=
  decidable_of_iff (l.lastThreshold * 105 < 2 ^ 64 ∧ s.conn.prepaid + l.lastThreshold * 105 / 100 < 2 ^ 64 ∧
    (gate s l).2 < u64Max) ⟨fun h => ⟨h.1,h.2.1,h.2.2⟩,fun h => ⟨h.scaled,h.sum,h.low⟩⟩

/-- The counters of a phase fit after the fetches that ended are joined. -/
structure Countable (k : Counters) : Prop where
  ok : k.fetchesOk + k.landed.reduceOption.length < 2 ^ 64
  err : k.fetchesErr + (k.landed.length - k.landed.reduceOption.length) < 2 ^ 64
  bytes : k.bytes + k.landed.reduceOption.sum < 2 ^ 64

instance (k : Counters) : Decidable (Countable k) :=
  decidable_of_iff (k.fetchesOk + k.landed.reduceOption.length < 2 ^ 64 ∧
    k.fetchesErr + (k.landed.length - k.landed.reduceOption.length) < 2 ^ 64 ∧
    k.bytes + k.landed.reduceOption.sum < 2 ^ 64) ⟨fun h => ⟨h.1,h.2.1,h.2.2⟩,fun h => ⟨h.ok,h.err,h.bytes⟩⟩

/-- The loop whose gate a step asks. -/
def asking (s : Probe B) (act : Growth.Act) : Option Loop :=
  match act, s.phase with
  | .go, .asking l => some l
  | _, _ => none

/-- The step begins a latency sample. -/
def sampling (s : Probe B) (act : Growth.Act) : Bool :=
  match act, s.phase with
  | .go, .sampling (_ + 1) => s.conn.alive && !s.spendCapped
  | _, _ => false

/-- The step joins the fetches that ended. -/
def joining (s : Probe B) (act : Growth.Act) : Bool :=
  match act, s.phase with
  | .go, .joining _ => true
  | _, _ => false

/-- The units that a step is accepted. -/
def accepts (s : Probe B) (act : Growth.Act) : Nat :=
  match act, s.phase with
  | .accepted units, .refreshing _ | .accepted units, .probing _ _ _ => (units.map Fin.val).getD 0
  | _, _ => 0

/-- The units of the cheque that a step has sent. -/
def sends (s : Probe B) (act : Growth.Act) : Option Nat :=
  match act, s.phase with
  | .cheque .go, .emitting _ units ⟨_,_,.recorded _ _ _⟩ => some units
  | _, _ => none

/-- The spend gate projects within 64 bits, and so does the limit of the ceiling phase;
    a latency sample begins at a threshold below `2 ^ 62`; and what is counted fits. -/
structure Within (opts : Options A) (st : Probe B × Counters) (event : Growth.Act × Nat) : Prop where
  project : asks opts st.1 event.1 = true →
    st.1.conn.acct.balance + st.1.conn.acct.reserved + opts.priceAt st.1.cycleIdx < 2 ^ 64
  gated : ∀ l ∈ asking st.1 event.1, grows l = false → Gated st.1 l
  sample : sampling st.1 event.1 = true → st.1.conn.threshold < 2 ^ 62
  join : joining st.1 event.1 = true → Countable st.2
  accept : st.2.units + accepts st.1 event.1 < 2 ^ 64
  send : ∀ units ∈ sends st.1 event.1, st.2.cheques + 1 < 2 ^ 64 ∧ st.2.units + units < 2 ^ 64

instance (opts : Options A) (st : Probe B × Counters) (event : Growth.Act × Nat) : Decidable (Within opts st event) :=
  decidable_of_iff ((asks opts st.1 event.1 = true →
        st.1.conn.acct.balance + st.1.conn.acct.reserved + opts.priceAt st.1.cycleIdx < 2 ^ 64) ∧
      (∀ l ∈ asking st.1 event.1, grows l = false → Gated st.1 l) ∧
      (sampling st.1 event.1 = true → st.1.conn.threshold < 2 ^ 62) ∧ (joining st.1 event.1 = true → Countable st.2) ∧
      st.2.units + accepts st.1 event.1 < 2 ^ 64 ∧
      ∀ units ∈ sends st.1 event.1, st.2.cheques + 1 < 2 ^ 64 ∧ st.2.units + units < 2 ^ 64)
    ⟨fun h => ⟨h.1,h.2.1,h.2.2.1,h.2.2.2.1,h.2.2.2.2.1,h.2.2.2.2.2⟩,
      fun h => ⟨h.project,h.gated,h.sample,h.join,h.accept,h.send⟩⟩

/-- Nothing that a step computes overflows. -/
def Exact (opts : Options A) (st : Probe B × Counters) (event : Growth.Act × Nat) : Prop :=
  AllExact (probeOps opts st.1 st.2 event.1)

instance (opts : Options A) (st : Probe B × Counters) (event : Growth.Act × Nat) : Decidable (Exact opts st event) :=
  inferInstanceAs (Decidable (AllExact _))

/-! ### What a step does to the books -/

/-- The limit under which a step may reserve. -/
def limit (s : Probe B) : Nat :=
  match s.phase with
  | .asking l => (gate s l).2
  | .building _ threshold _ => threshold / 2
  | _ => 0

/-- What a step adds to the units paid by cheques. -/
def pays (s : Probe B) (act : Growth.Act) : Nat := (sends s act).getD 0

/-- The mirror, the prices in flight and the queue of cheques after a step. -/
inductive Posts (s : Probe B) (act : Growth.Act) : Mirror → Nat → List (Nat × Nat) → Prop
  | rest {queue : List (Nat × Nat)} (pruned : queue <:+ s.conn.unvalidated) : Posts s act s.conn.acct (inFlight s) queue
  | reserve {queue : List (Nat × Nat)} {price : Nat} {acct : Mirror} (go : act = .go) (pruned : queue <:+ s.conn.unvalidated)
      (taken : s.conn.acct.tryReserve price (limit s) = some acct) : Posts s act acct (inFlight s + price) queue
  | serve {price rest : Nat} (flying : inFlight s = rest + price) :
      Posts s act (s.conn.acct.apply price) rest s.conn.unvalidated
  | fail {price rest : Nat} (flying : inFlight s = rest + price) :
      Posts s act (s.conn.acct.release price) rest s.conn.unvalidated
  | refresh {units : Nat} : Posts s act (s.conn.acct.credit units) (inFlight s) s.conn.unvalidated
  | cheque {acct : Mirror} {now : Nat} (credited : acct = s.conn.acct ∨ acct = s.conn.acct.credit (pays s act)) :
      Posts s act acct (inFlight s) (s.conn.unvalidated ++ [(now,pays s act)])

/-- The thresholds that are held back are of 64 bits. -/
def Narrow : Growth.Phase B → Prop
  | .turn l | .spawning l | .asking l | .joining l | .refreshing l | .settling l | .closing l | .sleeping l _
  | .emitting (.pace l) _ _ => l.lastThreshold < 2 ^ 64
  | .building _ threshold _ | .retrieving _ threshold _ _ | .resting _ threshold _ _ => threshold < 2 ^ 64
  | _ => True

/-- What a step does. -/
structure Steps (s : Probe B) (act : Growth.Act) (s' : Probe B) : Prop where
  posts : Posts s act s'.conn.acct (inFlight s') s'.conn.unvalidated
  narrow : Narrow s.phase → Narrow s'.phase

section
variable {opts : Options A} {s s' : Probe B} {act : Growth.Act}

theorem steps_calm (acct : s'.conn.acct = s.conn.acct) (flight : inFlight s' = inFlight s)
    (queue : s'.conn.unvalidated <:+ s.conn.unvalidated) (narrow : Narrow s.phase → Narrow s'.phase) : Steps s act s' := by
  refine ⟨?_,narrow⟩
  rw [acct,flight]
  exact .rest queue

theorem steps_reserve {price : Nat} (go : act = .go) (taken : s.conn.acct.tryReserve price (limit s) = some s'.conn.acct)
    (flight : inFlight s' = inFlight s + price) (queue : s'.conn.unvalidated <:+ s.conn.unvalidated)
    (narrow : Narrow s.phase → Narrow s'.phase) : Steps s act s' := by
  refine ⟨?_,narrow⟩
  rw [flight]
  exact .reserve go queue taken

theorem conn_threshold_lt (conn : Growth.Conn) : conn.threshold < 2 ^ 64 := by
  unfold Growth.Conn.threshold
  split
  · decide
  · split
    · assumption
    · decide

theorem track_narrow {l : Loop} (narrow : l.lastThreshold < 2 ^ 64) (s : Probe B) : (l.track s).lastThreshold < 2 ^ 64 := by
  have now := conn_threshold_lt s.conn
  unfold Loop.track
  simp only
  split <;> split <;> split <;> assumption

theorem gate_queue (s : Probe B) (l : Loop) : (gate s l).1.unvalidated <:+ s.conn.unvalidated := by
  unfold gate
  split
  · exact List.suffix_refl _
  · exact List.dropWhile_suffix _

theorem steps_pace (taken : paceStep opts s act = some s') : Steps s act s' := by
  obtain ⟨now,bank,conn,beneficiary,cycleIdx,lambdaMs,capped,tasks,phase⟩ := s
  unfold paceStep at taken
  split at taken
  · next l at_ =>
    cases at_
    cases taken
    exact steps_calm rfl rfl (List.suffix_refl _) fun narrow => track_narrow narrow _
  · next l at_ =>
    cases at_
    split at taken
    · split at taken <;> cases taken <;> exact steps_calm rfl rfl (List.suffix_refl _) id
    · cases taken
      exact steps_calm rfl rfl (List.suffix_refl _) id
  · next l at_ =>
    cases at_
    obtain ⟨books,-,-⟩ := gate_conn ⟨now,bank,conn,beneficiary,cycleIdx,lambdaMs,capped,tasks,.asking l⟩ l
    have queue := gate_queue ⟨now,bank,conn,beneficiary,cycleIdx,lambdaMs,capped,tasks,.asking l⟩ l
    split at taken
    · cases taken
      exact steps_calm books rfl queue id
    · next acct reserved =>
      cases taken
      rw [books] at reserved
      exact steps_reserve rfl reserved (by simp [inFlight,flying,retrieved]) queue id
  · next l at_ =>
    cases at_
    have flown := flying_filter tasks
    simp only at taken
    split at taken
    · split at taken <;> cases taken <;> exact steps_calm rfl (congrArg (· + 0) flown) (List.suffix_refl _) id
    · cases taken
      exact steps_calm rfl (congrArg (· + 0) flown) (List.suffix_refl _) id
  · next l units at_ =>
    cases at_
    cases taken
    exact ⟨.refresh,id⟩
  · next l at_ =>
    cases at_
    split at taken <;> cases taken <;> exact steps_calm rfl rfl (List.suffix_refl _) id
  · next l at_ =>
    cases at_
    split at taken
    · split at taken <;> cases taken <;> exact steps_calm rfl rfl (List.suffix_refl _) fun _ => trivial
    · cases taken
      exact steps_calm rfl rfl (List.suffix_refl _) id
  · next l wake at_ =>
    cases at_
    split at taken <;> cases taken
    exact steps_calm rfl rfl (List.suffix_refl _) id
  · cases taken

theorem steps_probeAgain {later t0 : Nat} {zeroAt : Option Nat} (landed : retrieved s.phase = 0) :
    Steps s act (probeAgain s later t0 zeroAt) := by
  have flight : total flying s.tasks + 0 = inFlight s := by rw [← landed]; rfl
  unfold probeAgain
  split <;> exact steps_calm rfl flight (List.suffix_refl _) fun _ => trivial

theorem steps_sample (taken : sampleStep opts s act = some s') : Steps s act s' := by
  obtain ⟨now,bank,conn,beneficiary,cycleIdx,lambdaMs,capped,tasks,phase⟩ := s
  unfold sampleStep at taken
  split at taken
  · next at_ =>
    cases at_
    cases taken
    exact steps_calm rfl rfl (List.suffix_refl _) id
  · next later at_ =>
    cases at_
    split at taken <;> cases taken
    · exact steps_calm rfl rfl (List.suffix_refl _) id
    · exact steps_calm rfl rfl (List.suffix_refl _) fun _ => conn_threshold_lt conn
  · next later threshold deadline at_ =>
    cases at_
    split at taken
    · cases taken
      exact steps_calm rfl rfl (List.suffix_refl _) fun _ => trivial
    · split at taken
      · cases taken
        exact steps_calm rfl rfl (List.suffix_refl _) fun _ => trivial
      · split at taken
        · cases taken
          exact steps_calm rfl rfl (List.suffix_refl _) fun _ => trivial
        · split at taken
          · cases taken
            exact steps_calm rfl rfl (List.suffix_refl _) fun _ => trivial
          · next acct reserved =>
            cases taken
            exact steps_reserve rfl reserved rfl (List.suffix_refl _) id
  · next later threshold deadline price at_ =>
    cases at_
    cases taken
    exact ⟨.serve rfl,id⟩
  · next later threshold deadline price at_ =>
    cases at_
    cases taken
    exact ⟨.fail rfl,id⟩
  · next later threshold deadline wake at_ =>
    cases at_
    split at taken <;> cases taken
    exact steps_calm rfl rfl (List.suffix_refl _) id
  · next later at_ =>
    cases at_
    split at taken <;> cases taken <;> exact steps_calm rfl rfl (List.suffix_refl _) id
  · next later debt wake at_ =>
    cases at_
    split at taken <;> cases taken
    exact steps_calm rfl rfl (List.suffix_refl _) id
  · next later t0 zeroAt wake at_ =>
    cases at_
    split at taken <;> cases taken
    exact steps_calm rfl rfl (List.suffix_refl _) id
  · next later t0 zeroAt at_ =>
    cases at_
    cases taken
    exact steps_probeAgain rfl
  · next later t0 zeroAt units at_ =>
    cases at_
    split at taken <;> cases taken
    · exact steps_calm rfl rfl (List.suffix_refl _) id
    · exact steps_probeAgain rfl
    · exact steps_probeAgain rfl
  · cases taken

theorem steps_probe (taken : probeStep opts s act = some s') : Steps s act s' := by
  obtain ⟨now,bank,conn,beneficiary,cycleIdx,lambdaMs,capped,tasks,phase⟩ := s
  unfold probeStep at taken
  split at taken
  · next at_ =>
    cases at_
    split at taken <;> cases taken
    · exact steps_calm rfl rfl (List.suffix_refl _) fun _ => conn_threshold_lt conn
    · exact steps_calm rfl rfl (List.suffix_refl _) id
  · next at_ =>
    cases at_
    split at taken <;> cases taken <;> exact steps_calm rfl rfl (List.suffix_refl _) id
  · next wake at_ =>
    cases at_
    split at taken <;> cases taken
    exact steps_calm rfl rfl (List.suffix_refl _) id
  · next at_ =>
    cases at_
    split at taken <;> cases taken
    · exact steps_calm rfl rfl (List.suffix_refl _) fun _ => conn_threshold_lt conn
    · exact steps_calm rfl rfl (List.suffix_refl _) id
  · next round at_ =>
    cases at_
    split at taken <;> cases taken <;> exact steps_calm rfl rfl (List.suffix_refl _) id
  · next round wake at_ =>
    cases at_
    split at taken <;> cases taken
    exact steps_calm rfl rfl (List.suffix_refl _) id
  · next at_ =>
    cases at_
    split at taken <;> cases taken <;> exact steps_calm rfl rfl (List.suffix_refl _) id
  · next wake at_ =>
    cases at_
    split at taken <;> cases taken
    exact steps_calm rfl rfl (List.suffix_refl _) id
  · next units at_ =>
    cases at_
    cases taken
    exact steps_calm rfl rfl (List.suffix_refl _) id
  · cases taken

theorem steps_task {k : Nat} {ok : Bool} (taken : taskStep s k ok = some s') : Steps s (.task k ok) s' := by
  unfold taskStep at taken
  split at taken
  · next price found =>
    cases taken
    have flown := total_set flying ⟨price,true⟩ found
    have flight : inFlight s = total flying (s.tasks.set k ⟨price,true⟩) + retrieved s.phase + price := by
      simp only [flying,inFlight,if_true,Bool.false_eq_true,if_false] at flown ⊢
      omega
    cases ok with
    | true => exact ⟨.serve flight,id⟩
    | false => exact ⟨.fail flight,id⟩
  · cases taken

variable [DecidableEq B]

theorem steps_emit {cheque : CallAct} (taken : emitStep opts s cheque = some s') : Steps s (.cheque cheque) s' := by
  obtain ⟨now,bank,conn,beneficiary,cycleIdx,lambdaMs,capped,tasks,phase⟩ := s
  unfold emitStep at taken
  split at taken
  · next purpose units call at_ =>
    cases at_
    split at taken
    · cases taken
    · next bank' call' stepped =>
      obtain ⟨moves,-,-⟩ := callStep_moves stepped
      split at taken
      · next outcome ended =>
        rw [ended] at moves
        obtain ⟨b,debt,stage⟩ := call
        cases moves with
        | ended here =>
          cases here
          cases taken
          cases purpose with
          | pace l => exact ⟨.cheque (.inr rfl),id⟩
          | lambda later | sweep round => exact ⟨.cheque (.inr rfl),fun _ => trivial⟩
          | prepay => exact ⟨.cheque (.inl rfl),fun _ => trivial⟩
      · cases taken
        cases purpose with
        | pace l => exact steps_calm rfl rfl (List.suffix_refl _) id
        | lambda later | sweep round | prepay => exact steps_calm rfl rfl (List.suffix_refl _) fun _ => trivial
      · cases taken
        exact steps_calm rfl rfl (List.suffix_refl _) (by cases purpose <;> exact id)
  · cases taken

theorem steps_growth (taken : growthStep opts s act = some s') : Steps s act s' := by
  unfold growthStep at taken
  split at taken
  · exact steps_emit taken
  · exact steps_task taken
  · cases taken
    exact steps_calm rfl rfl (List.suffix_refl _) id
  · cases taken
    exact steps_calm rfl rfl (List.suffix_refl _) id
  · split at taken <;> cases taken
    exact steps_calm rfl rfl (List.suffix_refl _) id
  · rw [Option.or_eq_some_iff,Option.or_eq_some_iff] at taken
    rcases taken with pace | ⟨-,sample | ⟨-,probe⟩⟩
    · exact steps_pace pace
    · exact steps_sample sample
    · exact steps_probe probe

end

/-! ### What stays small -/

/-- The reservations are the prices in flight, and fit into 64 bits with the debt. -/
structure Held (s : Probe B) : Prop where
  reserved : s.conn.acct.reserved = inFlight s
  small : s.conn.acct.balance + inFlight s < 2 ^ 64
  narrow : Narrow s.phase

/-- What was settled, the refreshes and the fetches of a phase are counted in order. -/
structure Tallied (k : Counters) : Prop where
  total : k.units < 2 ^ 64
  refreshed : k.refreshes ≤ k.refreshUnits
  started : k.unitsAtStart ≤ k.units
  sampled : k.sampleFetches ≤ k.fetchesOk

/-- What holds of a probe whose steps are taken within it. -/
structure Sized (st : Probe B × Counters) : Prop where
  held : Held st.1
  tallied : Tallied st.2
  queued : queuedUnits st.1.conn.unvalidated ≤ st.2.chequeUnits

theorem held_step {s s' : Probe B} {act : Growth.Act} (held : Held s) (low : act = .go → limit s < u64Max)
    (steps : Steps s act s') : Held s' := by
  obtain ⟨reserved,small,narrow⟩ := held
  have top := u64Max_succ
  obtain ⟨posts,onward⟩ := steps
  suffices books : s'.conn.acct.reserved = inFlight s' ∧ s'.conn.acct.balance + inFlight s' < 2 ^ 64 from
    ⟨books.1,books.2,onward narrow⟩
  generalize s'.conn.acct = acct, inFlight s' = flight, s'.conn.unvalidated = queue at posts ⊢
  cases posts with
  | rest pruned => exact ⟨reserved,small⟩
  | @reserve queue price _ go pruned taken =>
    have below := low go
    obtain ⟨within,rfl⟩ := Mirror.tryReserve_exact below taken
    simp only
    omega
  | @serve price _ flying =>
    have whole : satAdd s.conn.acct.balance price = s.conn.acct.balance + price := satAdd_exact (by omega)
    simp only [Mirror.apply,whole]
    omega
  | fail flying =>
    simp only [Mirror.release]
    omega
  | refresh =>
    simp only [Mirror.credit]
    omega
  | cheque credited =>
    rcases credited with rfl | rfl
    · exact ⟨reserved,small⟩
    · simp only [Mirror.credit]
      omega

theorem queued_units {s s' : Probe B} {act : Growth.Act} (steps : Steps s act s') :
    queuedUnits s'.conn.unvalidated ≤ queuedUnits s.conn.unvalidated + pays s act := by
  have posts := steps.posts
  generalize s'.conn.acct = acct, inFlight s' = flight, s'.conn.unvalidated = queue at posts ⊢
  cases posts with
  | rest pruned | reserve go pruned taken => exact (queuedUnits_suffix pruned).trans (Nat.le_add_right _ _)
  | serve flying | fail flying | refresh => exact Nat.le_add_right _ _
  | cheque credited => exact (queuedUnits_append _ _ _).le

/-! ### The counters -/

/-- Joining the fetches that ended counts them all, and changes nothing else. -/
theorem join_all {landed : List (Option Nat)} {k : Counters} (ok : k.fetchesOk + landed.reduceOption.length < 2 ^ 64)
    (err : k.fetchesErr + (landed.length - landed.reduceOption.length) < 2 ^ 64)
    (bytes : k.bytes + landed.reduceOption.sum < 2 ^ 64) (sampled : k.sampleFetches ≤ k.fetchesOk) :
    AllExact (joinOps k landed) ∧ (landed.foldl Counters.join k).sampleFetches ≤ (landed.foldl Counters.join k).fetchesOk ∧
      (landed.foldl Counters.join k).cheques = k.cheques ∧ (landed.foldl Counters.join k).chequeUnits = k.chequeUnits ∧
      (landed.foldl Counters.join k).refreshes = k.refreshes ∧
      (landed.foldl Counters.join k).refreshUnits = k.refreshUnits ∧
      (landed.foldl Counters.join k).unitsAtStart = k.unitsAtStart := by
  induction landed generalizing k with
  | nil => exact ⟨allExact_nil,sampled,rfl,rfl,rfl,rfl,rfl⟩
  | cons outcome rest ih =>
    have fewer := List.reduceOption_length_le rest
    cases outcome with
    | none =>
      rw [List.reduceOption_cons_of_none] at ok err bytes
      rw [List.length_cons] at err
      have one : wrapAdd k.fetchesErr 1 = k.fetchesErr + 1 := wrapAdd_exact (by omega)
      obtain ⟨ops,later⟩ := @ih (k.join none) ok (by simp only [Counters.join,one]; omega) bytes sampled
      refine ⟨?_,later⟩
      simp only [joinOps,allExact_cons,exact_add]
      exact ⟨by omega,ops⟩
    | some size =>
      rw [List.reduceOption_cons_of_some] at ok err bytes
      simp only [List.length_cons,List.sum_cons] at ok err bytes
      have one : wrapAdd k.fetchesOk 1 = k.fetchesOk + 1 := wrapAdd_exact (by omega)
      have sample : wrapAdd k.sampleFetches 1 = k.sampleFetches + 1 := wrapAdd_exact (by omega)
      have more : wrapAdd k.bytes size = k.bytes + size := wrapAdd_exact (by omega)
      obtain ⟨ops,later⟩ := @ih (k.join (some size)) (by simp only [Counters.join,one]; omega)
        (by simp only [Counters.join]; omega) (by simp only [Counters.join,more]; omega)
        (by simp only [Counters.join,one,sample]; omega)
      refine ⟨?_,later⟩
      simp only [joinOps,allExact_cons,exact_add]
      exact ⟨by omega,by omega,by omega,ops⟩

theorem tallied_start {k : Counters} (tallied : Tallied k) (now : Nat) : Tallied (k.start now) := by
  obtain ⟨total,refreshed,started,sampled⟩ := tallied
  have whole : wrapAdd k.chequeUnits k.refreshUnits = k.units := wrapAdd_exact total
  exact ⟨total,refreshed,whole.le,Nat.le_refl _⟩

theorem accept_units {k : Counters} {units : Nat} (tallied : Tallied k) (fits : k.units + units < 2 ^ 64) :
    AllExact (acceptOps k units) ∧ Tallied (k.accept units) ∧ (k.accept units).chequeUnits = k.chequeUnits := by
  obtain ⟨total,refreshed,started,sampled⟩ := tallied
  unfold Counters.units at total fits started
  by_cases some_ : 0 < units
  · have one : wrapAdd k.refreshes 1 = k.refreshes + 1 := wrapAdd_exact (by omega)
    have more : wrapAdd k.refreshUnits units = k.refreshUnits + units := wrapAdd_exact (by omega)
    simp only [acceptOps,Counters.accept,if_pos some_,allExact_cons,exact_add,allExact_nil,and_true]
    refine ⟨⟨by omega,by omega⟩,?_,?_,?_,sampled⟩
    · simp only [Counters.units,more]
      omega
    · simp only [one,more]
      omega
    · simp only [Counters.units,more]
      omega
  · simp only [acceptOps,Counters.accept,if_neg some_,allExact_nil,true_and,and_true]
    exact ⟨total,refreshed,started,sampled⟩

theorem pay_units {k : Counters} {units : Nat} (tallied : Tallied k) (cheques : k.cheques + 1 < 2 ^ 64)
    (fits : k.units + units < 2 ^ 64) :
    AllExact [.add k.cheques 1,.add k.chequeUnits units] ∧ Tallied (k.pay units) ∧
      (k.pay units).chequeUnits = k.chequeUnits + units := by
  obtain ⟨total,refreshed,started,sampled⟩ := tallied
  unfold Counters.units at total fits started
  have more : wrapAdd k.chequeUnits units = k.chequeUnits + units := wrapAdd_exact (by omega)
  simp only [allExact_cons,exact_add,allExact_nil,and_true]
  refine ⟨⟨cheques,by omega⟩,⟨?_,refreshed,?_,sampled⟩,more⟩
  · simp only [Counters.units,Counters.pay,more]
    omega
  · simp only [Counters.units,Counters.pay,more]
    omega

/-- The counters after a step that is taken within it. -/
theorem tallied_step {opts : Options A} {s : Probe B} {k : Counters} {event : Growth.Act × Nat} (tallied : Tallied k)
    (within : Within opts (s,k) event) : Tallied (counted opts s k event.1 event.2) ∧
      (counted opts s k event.1 event.2).chequeUnits = k.chequeUnits + pays s event.1 := by
  obtain ⟨act,size⟩ := event
  obtain ⟨total,refreshed,started,sampled⟩ := tallied
  unfold counted
  simp only
  split
  · exact ⟨⟨total,refreshed,started,sampled⟩,rfl⟩
  · next at_ =>
    split
    · exact ⟨tallied_start ⟨total,refreshed,started,sampled⟩ s.now,rfl⟩
    · exact ⟨⟨total,refreshed,started,sampled⟩,rfl⟩
  · next at_ =>
    split
    · exact ⟨tallied_start ⟨total,refreshed,started,sampled⟩ s.now,rfl⟩
    · exact ⟨⟨total,refreshed,started,sampled⟩,rfl⟩
  · next l at_ =>
    have fits := within.join (by simp only [joining,at_])
    obtain ⟨-,inOrder,-,cheques,refreshes,refreshUnits,begun⟩ := join_all fits.ok fits.err fits.bytes sampled
    refine ⟨⟨?_,?_,?_,inOrder⟩,cheques⟩
    · simp only [Counters.units,cheques,refreshUnits]
      exact total
    · simp only [refreshes,refreshUnits]
      exact refreshed
    · simp only [Counters.units,cheques,refreshUnits,begun]
      exact started
  · next l at_ =>
    split
    · exact ⟨⟨total,refreshed,started,Nat.zero_le _⟩,rfl⟩
    · exact ⟨⟨total,refreshed,started,sampled⟩,rfl⟩
  · next l units at_ =>
    have fits := within.accept
    simp only [accepts,at_] at fits
    have accepted := accept_units ⟨total,refreshed,started,sampled⟩ fits
    exact ⟨accepted.2.1,accepted.2.2⟩
  · next units later t0 zeroAt at_ =>
    have fits := within.accept
    simp only [accepts,at_] at fits
    have accepted := accept_units ⟨total,refreshed,started,sampled⟩ fits
    exact ⟨accepted.2.1,accepted.2.2⟩
  · next purpose units b debt rate plur cumulative at_ =>
    have sent : sends s (.cheque .go) = some units := by simp only [sends,at_]
    have fits := within.send units sent
    have paid := pay_units ⟨total,refreshed,started,sampled⟩ fits.1 fits.2
    exact ⟨paid.2.1,by simpa only [pays,sent,Option.getD_some] using paid.2.2⟩
  · next unpaid =>
    refine ⟨⟨total,refreshed,started,sampled⟩,?_⟩
    unfold pays sends
    split
    · exact absurd ‹s.phase = _› (unpaid _ _ _ _ _ _ _ rfl)
    · rfl

/-! ### Whole probes -/

theorem limit_low {opts : Options A} {s : Probe B} {k : Counters} {size : Nat} (narrow : Narrow s.phase)
    (within : Within opts (s,k) (.go,size)) : limit s < u64Max := by
  have top := u64Max_succ
  unfold limit
  split
  · next l at_ =>
    rw [at_] at narrow
    cases mode : l.mode with
    | growth =>
      have narrow : l.lastThreshold < 2 ^ 64 := narrow
      have half : (gate s l).2 = l.lastThreshold / 2 := by simp only [gate,mode]
      omega
    | ceiling window => exact (within.gated l (by simp only [asking,at_]; rfl) (by simp only [grows,mode])).low
  · next later threshold deadline at_ =>
    rw [at_] at narrow
    have narrow : threshold < 2 ^ 64 := narrow
    omega
  · omega

theorem sized_start (now : Nat) (ledger : Finmap fun _ : B => U256) (beneficiary : B) (announced : Option U256) :
    Sized (start now ledger beneficiary announced,Counters.zero) :=
  ⟨⟨rfl,Nat.two_pow_pos 64,trivial⟩,⟨Nat.two_pow_pos 64,Nat.le_refl _,Nat.le_refl _,Nat.le_refl _⟩,Nat.le_refl _⟩

theorem sized_step [DecidableEq B] {opts : Options A} {st next : Probe B × Counters} {event : Growth.Act × Nat}
    (sized : Sized st) (within : Within opts st event) (taken : countStep opts st event = some next) : Sized next := by
  obtain ⟨s,k⟩ := st
  obtain ⟨act,size⟩ := event
  obtain ⟨held,tallied,queued⟩ := sized
  obtain ⟨s',moved,rfl⟩ := Option.map_eq_some_iff.mp taken
  have steps := steps_growth moved
  obtain ⟨kept,more⟩ := tallied_step tallied within
  refine ⟨held_step held ?_ steps,kept,?_⟩
  · rintro rfl
    exact limit_low held.narrow within
  · have fewer := queued_units steps
    simp only at more queued fewer ⊢
    omega

theorem allExact_spend {opts : Options A} {s : Probe B}
    (fits : s.conn.acct.balance + s.conn.acct.reserved + opts.priceAt s.cycleIdx < 2 ^ 64) :
    AllExact (spendOps s.conn (opts.priceAt s.cycleIdx)) := by
  simp only [spendOps,allExact_cons,exact_add,allExact_nil,and_true]
  omega

theorem allExact_gate {s : Probe B} {l : Loop} (queued : queuedUnits s.conn.unvalidated < 2 ^ 64)
    (gated : grows l = false → Gated s l) : AllExact (gateOps s l) := by
  unfold gateOps
  cases mode : l.mode with
  | growth => exact allExact_nil
  | ceiling window =>
    obtain ⟨scaled,sum,-⟩ := gated (by simp only [grows,mode])
    have fewer := queuedUnits_suffix
      (List.dropWhile_suffix (l := s.conn.unvalidated) fun entry => decide (window < s.now - entry.1))
    have pruned : 0 + queuedUnits (s.conn.prune s.now window).unvalidated < 2 ^ 64 := by
      show 0 + queuedUnits (s.conn.unvalidated.dropWhile fun entry => decide (window < s.now - entry.1)) < 2 ^ 64
      omega
    simp only [allExact_append,allExact_cons,exact_add,exact_mul,allExact_nil,and_true]
    exact ⟨allExact_sumOps pruned,scaled,sum⟩

/-- A step that is taken within it does not overflow. -/
theorem probe_step {opts : Options A} {st : Probe B × Counters} {event : Growth.Act × Nat} (sized : Sized st)
    (within : Within opts st event) : Exact opts st event := by
  obtain ⟨s,k⟩ := st
  obtain ⟨act,size⟩ := event
  obtain ⟨held,tallied,queued⟩ := sized
  have total : k.chequeUnits + k.refreshUnits < 2 ^ 64 := tallied.total
  simp only at held tallied queued
  have units : AllExact [.add k.chequeUnits k.refreshUnits] := by simpa using total
  show AllExact (probeOps opts s k act)
  unfold probeOps
  split
  · split
    · exact units
    · exact allExact_nil
  · split
    · exact units
    · exact allExact_nil
  · split
    · next asked => exact allExact_spend (within.project asked)
    · exact allExact_nil
  · next l at_ =>
    have low := limit_low held.narrow within
    simp only [limit,at_] at low
    exact allExact_append.mpr ⟨allExact_gate (by omega) (within.gated l (by simp only [asking,at_]; rfl)),allExact_reserve low⟩
  · next l at_ =>
    have fits := within.join (by simp only [joining,at_])
    exact (join_all fits.ok fits.err fits.bytes tallied.sampled).1
  · split
    · simp only [allExact_cons,exact_add,exact_sub,allExact_nil,and_true]
      exact ⟨total,tallied.started⟩
    · exact allExact_nil
  · next later at_ =>
    split
    · exact allExact_nil
    · next onward =>
      simp only [not_or,Bool.not_eq_false,Bool.not_eq_true] at onward
      have low : s.conn.threshold < 2 ^ 62 := within.sample (by simp [sampling,at_,onward])
      simp only [allExact_cons,exact_mul,allExact_nil,and_true]
      omega
  · next later threshold deadline at_ =>
    have low := limit_low held.narrow within
    simp only [limit,at_] at low
    split
    · next asked =>
      refine allExact_append.mpr ⟨allExact_spend (within.project asked),?_⟩
      split
      · exact allExact_nil
      · exact allExact_reserve low
    · exact allExact_nil
  · simp only [allExact_cons,exact_mul,allExact_nil,and_true]
    decide
  · next at_ =>
    have fits := within.accept
    simp only [accepts,at_] at fits
    exact (accept_units tallied fits).1
  · next at_ =>
    have fits := within.accept
    simp only [accepts,at_] at fits
    exact (accept_units tallied fits).1
  · next units b debt rate plur cumulative at_ =>
    have fits := within.send _ (by simp only [sends,at_]; rfl)
    exact (pay_units tallied fits.1 fits.2).1
  · exact allExact_nil

variable [DecidableEq B]

/-- A probe whose steps are all taken within it is free of overflows. -/
theorem probe_exact {opts : Options A} {now : Nat} {ledger : Finmap fun _ : B => U256} {beneficiary : B}
    {announced : Option U256} {events : List (Growth.Act × Nat)}
    (within : Meets (countStep opts) (Within opts) (start now ledger beneficiary announced,Counters.zero) events) :
    Meets (countStep opts) (Exact opts) (start now ledger beneficiary announced,Counters.zero) events :=
  meets_of_invariant (fun _ _ _ => sized_step) (fun _ _ => probe_step) (sized_start now ledger beneficiary announced)
    within

omit [DecidableEq B] in
/-- The pacing is free of overflows, in `Pacer`, `measure_lambda`, `drive`,
    `run_fetch_phase` and `lambda_sample`: on every run of a connection, and on every
    run of a probe, whose steps are all taken within the bounds. -/
theorem pacing_exact {C D : Type} [DecidableEq A] [DecidableEq B] [DecidableEq D] (plan : Connection.Plan A)
    (c : Connection.Common A B) (overlay : A) (bucket : Nat) (beneficiary : B) (known : Option Connection.Known)
    (warm : Option (Nat × Option U256)) (events : List (Seen (Connection.Common A B) Connection.Act))
    (opts : Options C) (now : Nat) (ledger : Finmap fun _ : D => U256) (payee : D) (announced : Option U256)
    (acts : List (Growth.Act × Nat))
    (within : Meets (Accounts.audit plan) (Overflow.Within plan)
      ⟨c,Connection.spawn overlay bucket beneficiary known warm,0,0⟩ events)
    (within' : Meets (countStep opts) (Within opts) (start now ledger payee announced,Counters.zero) acts) :
    Meets (Accounts.audit plan) (Overflow.Exact plan) ⟨c,Connection.spawn overlay bucket beneficiary known warm,0,0⟩
        events ∧
      Meets (countStep opts) (Exact opts) (start now ledger payee announced,Counters.zero) acts :=
  ⟨conn_exact within,probe_exact within'⟩

/-- The peer that hung up unpaid, and a fetch that is served and paid for. -/
theorem pacing_exact_small :
    Meets (Accounts.audit Accounts.prepaying) (Overflow.Exact Accounts.prepaying)
        ⟨Accounts.oneChunk 0 (AList.singleton (5 : Nat) [7]),Connection.spawn 1 5 2 none none,0,0⟩ Accounts.hungUpUnpaid ∧
      Meets (countStep (SweepRoom.probing 1000000000000 0)) (Exact (SweepRoom.probing 1000000000000 0))
        (start 0 ∅ (1 : BitVec 160) none,Counters.zero) (oneFetch.map fun act => (act,4096)) :=
  pacing_exact Accounts.prepaying (Accounts.oneChunk 0 (AList.singleton (5 : Nat) [7])) 1 5 2 none none
    Accounts.hungUpUnpaid (SweepRoom.probing 1000000000000 0) 0 ∅ (1 : BitVec 160) none
    (oneFetch.map fun act => (act,4096)) (by decide +kernel) (by decide +kernel)

/-- A run that measures the latency of a peer. -/
def measuringOnce : Connection.Plan Nat := { Accounts.prepaying with
  measureLambda := true
  prepay := false }

/-- A threshold of `2 ^ 62` is multiplied by 4 when its latency is measured or sampled,
    one of `2 ^ 60` by 105 in the ceiling phase, and 105% of the threshold is added to a
    surplus of `u64::MAX` that the peer-state file holds. -/
theorem overflows :
    ¬ Meets (Accounts.audit measuringOnce) (Overflow.Exact measuringOnce)
        ⟨Accounts.oneChunk 0 ∅,Connection.spawn 1 5 2 none none,0,0⟩
        (List.map Seen.own [.answer true,.announce (2 ^ 62),.go]) ∧
      ¬ Meets (Accounts.audit Accounts.prepaying) (Overflow.Exact Accounts.prepaying)
        ⟨Accounts.oneChunk 0 (AList.singleton (5 : Nat) [7]),Connection.spawn 1 5 2 (some ⟨none,Fin.last _⟩) none,0,0⟩
        (List.map Seen.own [.answer true,.go,.go,.go,.go,.go,.go]) ∧
      ¬ Meets (countStep { SweepRoom.probing 1000000000000 0 with lambdaSamples := 1 })
        (Exact { SweepRoom.probing 1000000000000 0 with lambdaSamples := 1 })
        (start 0 ∅ (1 : BitVec 160) none,Counters.zero) [(.announce (2 ^ 62),0),(.go,0),(.go,0)] ∧
      ¬ Meets (countStep (SweepRoom.probing 1000000000000 0)) (Exact (SweepRoom.probing 1000000000000 0))
        (start 0 ∅ (1 : BitVec 160) none,Counters.zero)
        ((.announce (2 ^ 60),0) :: List.replicate 7 (.go,0)) := by
  refine ⟨?_,?_,?_,?_⟩ <;> decide +kernel

end Directswarm.GrowthOverflow
