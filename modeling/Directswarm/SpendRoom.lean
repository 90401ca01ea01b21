import Directswarm.Accounts
import Directswarm.Fates

/-!
Whether the spend projection of `drive` leaves room for the final sweeps. It stops a
connection once 92% of the cap is issued, but it is asked once a turn, before the
fetches of that turn are admitted. What is issued and what is owed stay within the
cap together when the other 8% are enough for all that the connections may owe
(`room_left`), and not otherwise (`no_room`). The potential of the proof counts a
connection for what it owes, and for all that it may owe while it reserves.
-/
namespace Directswarm.SpendRoom
open Directswarm.Words Directswarm.Runs Directswarm.Interleaving Directswarm.Cheques Directswarm.Pacing
  Directswarm.WorkPool Directswarm.Connection Directswarm.Accounts Directswarm.Scheduler Directswarm.Fates

variable {M A B : Type}

/-- The part of the cap up to which `drive` fetches. -/
def projected (lim : Limits) : Nat := lim.maxIssuePlur * 92 / 100

/-- What a connection owes, and will owe for what is in flight, beyond what it has prepaid. -/
def owes (s : Session A B) : Nat := s.pacer.mirror.balance + s.pacer.mirror.reserved - s.pacer.prepaid

/-- Where prices may be reserved before the projection is asked again. -/
def reserving (s : Session A B) : Bool :=
  match s.phase with
  | .measuring _ | .measurePopped _ _ | .measureRetrieving _ _ _ | .measureServed _ _ | .popped _ => true
  | .admitting => !s.halted
  | _ => false

/-- The phases that hold the units of a cheque. -/
def holding : Phase A B → Bool
  | .emitting _ _ _ | .measurePause _ _ => true
  | _ => false

theorem holding_none {s : Session A B} (free : holding s.phase = false) :
    (∀ wake debt, s.phase ≠ .measurePause wake debt) ∧ ∀ purpose units call, s.phase ≠ .emitting purpose units call := by
  constructor
  · intro wake debt at_
    rw [at_] at free
    cases free
  · intro purpose units call at_
    rw [at_] at free
    cases free

/-- Whether a cheque pays a debt, or prepays. -/
def pays : Purpose → Bool
  | .lambdaSweep | .settle => true
  | _ => false

/-- Whether the counter holds the amount of a call. -/
def counted : Cheques.Phase → Bool
  | .reserved _ _ _ | .refused _ | .passed _ _ | .drawn _ _ _ | .signed _ _ _ | .written _ _ _ | .flushed _ _ _
  | .recorded _ _ _ | .failed _ _ | .ended (.ok _) => true
  | _ => false

/-- The units of a cheque that the counter holds and the mirror does not know of yet. -/
def underway (s : Session A B) : Nat :=
  match s.phase with
  | .emitting _ units call => if counted call.phase then units else 0
  | _ => 0

/-- Those of them that pay a debt. -/
def paying (s : Session A B) : Nat :=
  match s.phase with
  | .emitting purpose units call => if counted call.phase && pays purpose then units else 0
  | _ => 0

/-- What a connection counts for: all that it may owe while it reserves, and
    else what it owes and the counter does not hold. -/
def weight (gate : Nat) (s : Session A B) : Nat := if reserving s then gate else owes s - paying s

/-- A call is for the price of its units, and its reservation was within the cap. -/
def Priced (rate cap units : Nat) : Cheques.Phase → Prop
  | .priced _ plur => plur = rate * units
  | .reserved _ plur before => plur = rate * units ∧ before + plur ≤ cap
  | .refused _ => False
  | .passed _ plur | .drawn _ plur _ | .signed _ plur _ | .written _ plur _ | .flushed _ plur _ | .recorded _ plur _
  | .failed plur _ => plur = rate * units ∧ plur ≤ cap
  | _ => True

/-- `measure_lambda`, before its cheque. -/
def metering : Connection.Phase A B → Bool
  | .measuring _ | .measurePopped _ _ | .measureRetrieving _ _ _ | .measureServed _ _ | .measureFailed _ | .measureSweep => true
  | _ => false

/-- What is known of a connection at any time. -/
structure Sound (rate cap gate : Nat) (s : Session A B) : Prop where
  flight : s.pacer.mirror.reserved = inFlight s
  small : s.pacer.mirror.balance ≤ u64Max
  within : owes s ≤ gate
  metered : metering s.phase = true → s.pacer.prepaid = 0 ∧ half s.phase < u64Max
  waiting : ∀ wake debt, s.phase = .measurePause wake debt → debt ≤ s.pacer.unpaid
  emitting : ∀ purpose units call, s.phase = .emitting purpose units call →
    call.debtUnits = units ∧ (pays purpose = true → units ≤ s.pacer.unpaid) ∧ Priced rate cap units call.phase

/-- The peers announce one rate, and no deduction. -/
def constant (rate : Nat) : Act → Bool
  | .cheque (.headers (some (announced,deduction))) => announced.val = rate && deduction.val = 0
  | _ => true

/-- What a step of a connection must be: the gate is no wider than what room is
    kept for and no surplus wraps, and what no projection watches (a measurement,
    a prepayment) begins within the 92%. -/
def fitting (plan : Plan A) (rate gate : Nat) (c : Common A B) (s : Session A B) (act : Act) : Bool :=
  match act, s.phase with
  | .cheque .go, .emitting purpose units ⟨_,_,.priced _ _⟩ =>
    pays purpose || c.bank.issuedPlur + rate * units ≤ projected plan.lim
  | .go, .emitting purpose units _ => pays purpose || s.pacer.prepaid + units < 2 ^ 64
  | .go, .established => c.bank.issuedPlur ≤ projected plan.lim || !plan.measureLambda || plan.prepay ||
      (s.known.bind Known.lambdaMs).isSome
  | .go, .measurePopped m _ => m.half ≤ gate
  | .go, .popped _ => satMul s.pacer.threshold 105 / 100 ≤ gate && (s.pacer.prune c.now).admitLimit < u64Max
  | _, _ => true

/-! ### One connection -/

/-- How a step changes what a connection counts for. The counter grows at least as
    the units it holds do. Counter and weight together do not grow, or the counter
    is within the 92%. -/
structure Fares (plan : Plan A) (rate gate : Nat) (c c' : Common A B) (s s' : Session A B) : Prop where
  sound : Sound rate plan.lim.maxIssuePlur gate s'
  backed : rate * underway s' + c.bank.issuedPlur ≤ rate * underway s + c'.bank.issuedPlur
  room : c'.bank.issuedPlur + rate * weight gate s' ≤ c.bank.issuedPlur + rate * weight gate s ∨
    c'.bank.issuedPlur ≤ projected plan.lim

section Session
variable {plan : Plan A} {rate gate : Nat} {c c' : Common A B} {s s' : Session A B} {act : Act}

theorem paying_le (s : Session A B) : paying s ≤ underway s := by
  unfold paying underway
  split
  · next purpose units call at_ => cases counted call.phase <;> cases pays purpose <;> simp
  · exact Nat.zero_le _

theorem weight_le {cap : Nat} (sound : Sound rate cap gate s) : weight gate s ≤ gate := by
  have within := sound.within
  unfold weight
  split <;> omega

theorem owes_le_weight {cap : Nat} (sound : Sound rate cap gate s) (done : underway s = 0) : owes s ≤ weight gate s := by
  have within := sound.within
  have less := paying_le s
  unfold weight
  split <;> omega

theorem sound_free {cap : Nat} (flight : s.pacer.mirror.reserved = inFlight s) (small : s.pacer.mirror.balance ≤ u64Max)
    (within : owes s ≤ gate) (metered : metering s.phase = true → s.pacer.prepaid = 0 ∧ half s.phase < u64Max)
    (free : holding s.phase = false) : Sound rate cap gate s where
  flight := flight
  small := small
  within := within
  metered := metered
  waiting wake debt at_ := absurd at_ ((holding_none free).1 wake debt)
  emitting purpose units call at_ := absurd at_ ((holding_none free).2 purpose units call)

/-- A step to where no cheque is in hand, owing no more than what was counted for. -/
theorem fares_plain (sound : Sound rate plan.lim.maxIssuePlur gate s) (bank : c'.bank = c.bank)
    (less : owes s' ≤ weight gate s) (flight : s'.pacer.mirror.reserved = inFlight s')
    (small : s'.pacer.mirror.balance ≤ u64Max) (free : holding s'.phase = false)
    (metered : metering s'.phase = true → s'.pacer.prepaid = 0 ∧ half s'.phase < u64Max) (still : reserving s' = true → reserving s = true) :
    Fares plan rate gate c c' s s' := by
  have none_ : underway s' = 0 := by
    unfold underway
    split
    · next at_ => rw [at_] at free; cases free
    · rfl
  refine ⟨sound_free flight small (less.trans (weight_le sound)) metered free,?_,.inl ?_⟩
  · rw [none_,bank,Nat.mul_zero]
    omega
  · rw [bank]
    refine Nat.add_le_add_left (Nat.mul_le_mul_left _ ?_) _
    by_cases busy : reserving s' = true
    · rw [weight,weight,if_pos busy,if_pos (still busy)]
    · rw [weight,if_neg busy]
      omega

/-- A step that touches no fetch, and awaits none. -/
theorem inFlight_kept {p : Connection.Phase A B} (at_ : s.phase = p) (tasks : s'.tasks = s.tasks)
    (same : measured s'.phase = measured p) : inFlight s' = inFlight s := by
  rw [inFlight,inFlight,at_,tasks,same]

/-- A step that changes neither the mirror nor the counter. -/
theorem fares_quiet (sound : Sound rate plan.lim.maxIssuePlur gate s) (bank : c'.bank = c.bank) (done : underway s = 0)
    (mirror : s'.pacer.mirror = s.pacer.mirror) (prepaid : s'.pacer.prepaid = s.pacer.prepaid)
    (flight : inFlight s' = inFlight s) (free : holding s'.phase = false)
    (metered : metering s'.phase = true → metering s.phase = true ∧ half s'.phase ≤ half s.phase) (still : reserving s' = true → reserving s = true) :
    Fares plan rate gate c c' s s' := by
  have same : owes s' = owes s := by rw [owes,mirror,prepaid]; rfl
  refine fares_plain sound bank ?_ ?_ ?_ free ?_ still
  · rw [same]
    exact owes_le_weight sound done
  · rw [mirror,flight]
    exact sound.flight
  · rw [mirror]
    exact sound.small
  · intro here
    obtain ⟨before,less⟩ := metered here
    obtain ⟨nothing,low⟩ := sound.metered before
    exact ⟨prepaid.trans nothing,less.trans_lt low⟩

/-- A step that leaves the connection where it stands, and owing no more. -/
theorem fares_landed (sound : Sound rate plan.lim.maxIssuePlur gate s) (bank : c'.bank = c.bank)
    (phase : s'.phase = s.phase) (halted : s'.halted = s.halted) (less : owes s' ≤ owes s)
    (prepaid : s'.pacer.prepaid = s.pacer.prepaid) (flight : s'.pacer.mirror.reserved = inFlight s')
    (grown : s.pacer.mirror.balance ≤ s'.pacer.mirror.balance) (small : s'.pacer.mirror.balance ≤ u64Max) :
    Fares plan rate gate c c' s s' := by
  have unpaid : s.pacer.unpaid ≤ s'.pacer.unpaid := by
    unfold Pacer.unpaid
    omega
  have busy : reserving s' = reserving s := by rw [reserving,reserving,phase,halted]
  have same : paying s' = paying s := by rw [paying,paying,phase]
  refine ⟨⟨flight,small,less.trans sound.within,?_,?_,?_⟩,?_,.inl ?_⟩
  · rw [phase,prepaid]
    exact sound.metered
  · exact fun wake debt at_ => (sound.waiting wake debt (phase ▸ at_)).trans unpaid
  · intro purpose units call at_
    obtain ⟨own,under,priced⟩ := sound.emitting purpose units call (phase ▸ at_)
    exact ⟨own,fun pays_ => (under pays_).trans unpaid,priced⟩
  · rw [bank,underway,underway,phase]
  · rw [bank]
    refine Nat.add_le_add_left (Nat.mul_le_mul_left _ ?_) _
    rw [weight,weight,busy,same]
    split <;> omega

/-- A price is reserved. -/
theorem fares_reserved {price limit : Nat} {mirror : Mirror} (sound : Sound rate plan.lim.maxIssuePlur gate s)
    (bank : c'.bank = c.bank) (busy : reserving s = true) (reserved : s.pacer.mirror.tryReserve price limit = some mirror)
    (low : limit < u64Max) (gated : limit ≤ s.pacer.prepaid + gate) (mirror' : s'.pacer.mirror = mirror)
    (prepaid : s'.pacer.prepaid = s.pacer.prepaid) (flight : inFlight s' = inFlight s + price)
    (done : underway s = 0) (free : holding s'.phase = false) (metered : metering s'.phase = true → metering s.phase = true ∧ half s'.phase ≤ half s.phase) :
    Fares plan rate gate c c' s s' := by
  obtain ⟨within,rfl⟩ := Mirror.tryReserve_exact low reserved
  have owed : owes s' ≤ gate := by
    rw [owes,mirror',prepaid]
    show s.pacer.mirror.balance + (s.pacer.mirror.reserved + price) - s.pacer.prepaid ≤ gate
    omega
  have none_ : underway s' = 0 := by
    unfold underway
    split
    · next at_ => rw [at_] at free; cases free
    · rfl
  refine ⟨⟨?_,?_,owed,?_,?_,?_⟩,?_,.inl ?_⟩
  · rw [mirror',flight,← sound.flight]
  · rw [mirror']
    exact sound.small
  · intro here
    obtain ⟨before,less⟩ := metered here
    obtain ⟨nothing,low⟩ := sound.metered before
    exact ⟨prepaid.trans nothing,less.trans_lt low⟩
  · intro wake debt at_
    rw [at_] at free
    cases free
  · intro purpose units call at_
    rw [at_] at free
    cases free
  · rw [done,none_,bank]
  · rw [bank]
    refine Nat.add_le_add_left (Nat.mul_le_mul_left _ ?_) _
    rw [weight,weight,if_pos busy]
    split
    · exact le_rfl
    · omega

/-! ### A cheque -/

variable [DecidableEq B]

omit [DecidableEq B] in
theorem weight_emitting {purpose : Purpose} {units : Nat} {call : Call B} (at_ : s.phase = .emitting purpose units call) :
    weight gate s = owes s - paying s := by
  have still : reserving s = false := by rw [reserving,at_]
  simp [weight,still]

omit [DecidableEq B] in
/-- The connection itself is as it was while its call moves. -/
theorem sound_emitting {cap : Nat} {purpose : Purpose} {units : Nat} {call call' : Call B} (sound : Sound rate cap gate s)
    (at_ : s.phase = .emitting purpose units call) (own : call'.debtUnits = call.debtUnits)
    (priced : Priced rate cap units call'.phase) :
    Sound rate cap gate { s with phase := .emitting purpose units call' } := by
  obtain ⟨owns,under,-⟩ := sound.emitting purpose units call at_
  refine ⟨?_,sound.small,sound.within,nofun,nofun,?_⟩
  · have flight := sound.flight
    rw [inFlight,at_] at flight
    exact flight
  · rintro _ _ _ ⟨⟩
    exact ⟨own.trans owns,under,priced⟩

omit [DecidableEq B] in
/-- The call of a cheque moves, and leaves the counter alone. -/
theorem fares_called {bank : Bank B} {purpose : Purpose} {units : Nat} {call call' : Call B}
    (sound : Sound rate plan.lim.maxIssuePlur gate s) (at_ : s.phase = .emitting purpose units call)
    (issued : bank.issuedPlur = c.bank.issuedPlur) (own : call'.debtUnits = call.debtUnits)
    (held : counted call'.phase = counted call.phase) (priced : Priced rate plan.lim.maxIssuePlur units call'.phase) :
    Fares plan rate gate c { c with bank := bank } s { s with phase := .emitting purpose units call' } := by
  have same : underway { s with phase := .emitting purpose units call' } = underway s := by
    simp only [underway,at_,held]
  have less : weight gate { s with phase := .emitting purpose units call' } = weight gate s := by
    simp only [weight,reserving,paying,at_,held]
    rfl
  refine ⟨sound_emitting sound at_ own priced,?_,.inl ?_⟩
  · rw [same,issued]
  · rw [less]
    simp [issued]

omit [DecidableEq B] in
/-- The amount is added to the counter. -/
theorem fares_added {bank : Bank B} {purpose : Purpose} {units r : Nat} {call call' : Call B}
    (sound : Sound rate plan.lim.maxIssuePlur gate s) (at_ : s.phase = .emitting purpose units call)
    (uncounted : counted call.phase = false) (own : call'.debtUnits = call.debtUnits)
    (issued : bank.issuedPlur = wrapAdd c.bank.issuedPlur (clamp64 (rate * units)))
    (at' : call'.phase = .reserved r (rate * units) c.bank.issuedPlur)
    (watched : pays purpose = true ∨ c.bank.issuedPlur + rate * units ≤ projected plan.lim)
    (low : c.bank.issuedPlur + rate * weight gate s ≤ plan.lim.maxIssuePlur) :
    Fares plan rate gate c { c with bank := bank } s { s with phase := .emitting purpose units call' } := by
  obtain ⟨-,under,-⟩ := sound.emitting purpose units call at_
  have capped := plan.lim.maxIssuePlur_lt
  have share : projected plan.lim ≤ plan.lim.maxIssuePlur := by
    unfold projected
    omega
  have free : paying s = 0 := by simp [paying,at_,uncounted]
  have owed : pays purpose = true → units ≤ owes s := by
    intro pays_
    have units_ := under pays_
    unfold Pacer.unpaid at units_
    unfold owes
    omega
  have whole : weight gate s = owes s := by rw [weight_emitting at_,free,Nat.sub_zero]
  have fits : c.bank.issuedPlur + rate * units ≤ plan.lim.maxIssuePlur := by
    rcases watched with pays_ | within
    · have part := Nat.mul_le_mul_left rate (owed pays_)
      rw [whole] at low
      omega
    · omega
  have exact_ : bank.issuedPlur = c.bank.issuedPlur + rate * units := by
    rw [issued,clamp64_exact (by omega),wrapAdd_exact (by omega)]
  refine ⟨sound_emitting sound at_ own (by rw [at']; exact ⟨rfl,fits⟩),?_,?_⟩
  · simp only [underway,at',counted,if_true,exact_]
    omega
  · cases pays_ : pays purpose with
    | false =>
      rw [pays_] at watched
      have within := watched.resolve_left (by decide)
      exact .inr (by simp only [exact_]; exact within)
    | true =>
      left
      have later : weight gate { s with phase := .emitting purpose units call' } = owes s - units := by
        rw [weight_emitting rfl]
        simp only [paying,at',counted,pays_,Bool.and_self,if_true]
        rfl
      have split_ : rate * (owes s - units) + rate * units = rate * owes s := by
        rw [← Nat.mul_add,Nat.sub_add_cancel (owed pays_)]
      simp only [later,whole,exact_]
      omega

omit [DecidableEq B] in
/-- The amount is given back. -/
theorem fares_released {bank : Bank B} {purpose : Purpose} {units : Nat} {call call' : Call B} {why : EmitError}
    (sound : Sound rate plan.lim.maxIssuePlur gate s) (at_ : s.phase = .emitting purpose units call)
    (held : counted call.phase = true) (own : call'.debtUnits = call.debtUnits) (small : rate * units ≤ plan.lim.maxIssuePlur)
    (issued : bank.issuedPlur = wrapSub c.bank.issuedPlur (clamp64 (rate * units)))
    (at' : call'.phase = .ended (.error why)) (backed : rate * underway s ≤ c.bank.issuedPlur)
    (low : c.bank.issuedPlur ≤ plan.lim.maxIssuePlur) :
    Fares plan rate gate c { c with bank := bank } s { s with phase := .emitting purpose units call' } := by
  have capped := plan.lim.maxIssuePlur_lt
  have stake : underway s = units := by simp [underway,at_,held]
  rw [stake] at backed
  have exact_ : bank.issuedPlur = c.bank.issuedPlur - rate * units := by
    rw [issued,clamp64_exact (by omega),wrapSub_exact backed (by omega)]
  refine ⟨sound_emitting sound at_ own (by rw [at']; trivial),?_,.inl ?_⟩
  · have none_ : underway { s with phase := .emitting purpose units call' } = 0 := by
      simp [underway,at',counted]
    rw [none_,stake]
    simp only [exact_]
    omega
  · have later : weight gate { s with phase := .emitting purpose units call' } = owes s := by
      rw [weight_emitting rfl]
      simp [paying,at',counted]
      rfl
    have before : owes s ≤ weight gate s + units := by
      have less := paying_le s
      rw [weight_emitting at_]
      omega
    have part := Nat.mul_le_mul_left rate before
    rw [Nat.mul_add] at part
    simp only [later,exact_]
    omega

omit [DecidableEq B] in
theorem chequeAmount_steady {announced deduction : U256} {units plur : Nat}
    (steady : constant rate (.cheque (.headers (some (announced,deduction)))) = true)
    (amount : chequeAmount announced deduction units = .ok plur) : plur = rate * units := by
  simp only [constant,Bool.and_eq_true,decide_eq_true_eq] at steady
  obtain ⟨rate_,none_⟩ := steady
  rw [chequeAmount_ok amount,rate_,none_,Nat.add_zero]

theorem fares_calling {bank : Bank B} {purpose : Purpose} {units : Nat} {call call' : Call B} {act : CallAct}
    (sound : Sound rate plan.lim.maxIssuePlur gate s) (at_ : s.phase = .emitting purpose units call)
    (taken : callStep plan.lim c.bank call act = some (bank,call')) (steady : constant rate (.cheque act) = true)
    (fits : fitting plan rate gate c s (.cheque act) = true) (backed : rate * underway s ≤ c.bank.issuedPlur)
    (low : c.bank.issuedPlur + rate * weight gate s ≤ plan.lim.maxIssuePlur) :
    Fares plan rate gate c { c with bank := bank } s { s with phase := .emitting purpose units call' } := by
  obtain ⟨moves,-,own⟩ := callStep_moves taken
  obtain ⟨owns,under,priced⟩ := sound.emitting purpose units call at_
  have capped := plan.lim.maxIssuePlur_lt
  obtain ⟨b,debt,phase⟩ := call
  obtain ⟨b',debt',phase'⟩ := call'
  simp only at moves own owns priced
  cases moves with
  | opened here | unopened here | unanswered here | rateless here | unpriced here _ =>
    cases here
    exact fares_called sound at_ rfl own rfl trivial
  | @priced announced deduction plur here amount =>
    cases here
    exact fares_called sound at_ rfl own rfl ((chequeAmount_steady steady amount).trans (by rw [owns]))
  | @reserved r plur here =>
    cases here
    cases priced
    refine fares_added sound at_ rfl own rfl rfl ?_ low
    simpa [fitting,at_] using fits
  | @refused r plur before here past =>
    cases here
    obtain ⟨-,within⟩ := priced
    have sum := satAdd_le before (clamp64 plur)
    rw [clamp64_exact (by omega)] at sum past
    omega
  | @passed r plur before here within =>
    cases here
    exact fares_called sound at_ rfl own rfl ⟨priced.1,by have := priced.2; omega⟩
  | givenUp here =>
    cases here
    cases priced
  | undrawn here draw | drawn here draw | signed here | unsigned here | written here | unwritten here | flushed here
  | unflushed here | recorded here =>
    cases here
    exact fares_called sound at_ rfl own rfl priced
  | ended here =>
    cases here
    exact fares_called sound at_ rfl own rfl trivial
  | givenBack here =>
    cases here
    obtain ⟨rfl,small⟩ := priced
    exact fares_released sound at_ rfl own small rfl rfl backed (by omega)

/-- A condition that is not met asks for nothing. -/
theorem vacuous {p : Prop} (met : false = true) : p := absurd met Bool.false_ne_true

omit [DecidableEq B] in
/-- A cheque is begun. -/
theorem fares_begun {purpose : Purpose} {units : Nat} {b : B} (sound : Sound rate plan.lim.maxIssuePlur gate s)
    (done : underway s = 0) (mirror : s'.pacer.mirror = s.pacer.mirror) (prepaid : s'.pacer.prepaid = s.pacer.prepaid)
    (flight : inFlight s' = inFlight s) (at' : s'.phase = .emitting purpose units ⟨b,units,.opening⟩)
    (under : pays purpose = true → units ≤ s.pacer.unpaid) : Fares plan rate gate c c s s' := by
  have same : owes s' = owes s := by rw [owes,mirror,prepaid]; rfl
  refine ⟨⟨?_,?_,?_,?_,?_,?_⟩,?_,.inl ?_⟩
  · rw [mirror,flight]
    exact sound.flight
  · rw [mirror]
    exact sound.small
  · rw [same]
    exact sound.within
  · rw [at']
    nofun
  · rw [at']
    nofun
  · rw [at']
    rintro _ _ _ ⟨⟩
    refine ⟨rfl,fun pays_ => ?_,trivial⟩
    rw [Pacer.unpaid,mirror,prepaid]
    exact under pays_
  · simp [underway,at',counted]
  · refine Nat.add_le_add_left (Nat.mul_le_mul_left _ ?_) _
    have before := owes_le_weight sound done
    rw [weight_emitting at']
    omega

omit [DecidableEq B] in
/-- A cheque that went out is credited, or is surplus. -/
theorem fares_sent {purpose : Purpose} {units r : Nat} {call : Call B} {outcome : Outcome}
    (sound : Sound rate plan.lim.maxIssuePlur gate s) (at_ : s.phase = .emitting purpose units call)
    (ended : call.phase = .ended (.ok outcome)) (fits : fitting plan rate gate c s .go = true) :
    Fares plan rate gate c c s (chequeSent c s purpose units r) := by
  obtain ⟨-,under,-⟩ := sound.emitting purpose units call at_
  have flight := sound.flight
  have small := sound.small
  have counts : weight gate s = owes s - if pays purpose then units else 0 := by
    rw [weight_emitting at_]
    simp [paying,at_,ended,counted]
  rw [inFlight,at_] at flight
  cases purpose with
  | lambdaSweep | settle =>
    have paid := under rfl
    refine fares_plain sound rfl ?_ flight ?_ rfl vacuous vacuous
    · rw [counts]
      unfold Pacer.unpaid at paid
      simp only [owes,pays,if_true,chequeSent,Pacer.emitted,Pacer.noteCheque,Mirror.credit]
      omega
    · show s.pacer.mirror.balance - units ≤ u64Max
      omega
  | initialPrepay | topUp =>
    have fine : s.pacer.prepaid + units < 2 ^ 64 := by simpa [fitting,at_,pays] using fits
    refine fares_plain sound rfl ?_ flight small rfl vacuous vacuous
    rw [counts]
    simp only [owes,pays,chequeSent,Pacer.prepaidBy,Pacer.noteCheque,wrapAdd_exact fine,Bool.false_eq_true,if_false]
    omega

omit [DecidableEq B] in
/-- A cheque that did not go out. -/
theorem fares_unsent {purpose : Purpose} {units : Nat} {call : Call B} {why : EmitError}
    (sound : Sound rate plan.lim.maxIssuePlur gate s) (at_ : s.phase = .emitting purpose units call)
    (ended : call.phase = .ended (.error why)) : Fares plan rate gate c c s (chequeFailed c s purpose) := by
  have done : underway s = 0 := by simp [underway,at_,ended,counted]
  have flown : inFlight s = total flying s.tasks := by simp [inFlight,at_,measured]
  cases purpose with
  | lambdaSweep | initialPrepay | topUp => exact fares_quiet sound rfl done rfl rfl flown.symm rfl vacuous vacuous
  | settle =>
    unfold chequeFailed
    simp only
    split
    · split
      · exact fares_quiet sound rfl done rfl rfl flown.symm rfl vacuous vacuous
      · exact fares_quiet sound rfl done rfl rfl flown.symm rfl vacuous vacuous
    · exact fares_quiet sound rfl done rfl rfl flown.symm rfl vacuous vacuous

/-! ### Its steps -/

variable [DecidableEq A]

theorem fares {act : Act} (idle : Idle s) (sound : Sound rate plan.lim.maxIssuePlur gate s)
    (moves : Connection.Moves plan c s act c' s') (steady : constant rate act = true)
    (fits : fitting plan rate gate c s act = true) (backed : rate * underway s ≤ c.bank.issuedPlur)
    (low : c.bank.issuedPlur + rate * weight gate s ≤ plan.lim.maxIssuePlur) : Fares plan rate gate c c' s s' := by
  have flight := sound.flight
  have small := sound.small
  cases moves with
  | hungUp | announced t => exact fares_landed sound rfl rfl rfl le_rfl rfl flight le_rfl small
  | @taskServed k addr price at_ =>
    have flown := flying_set .served at_ (by decide)
    have sum := satAdd_le s.pacer.mirror.balance price
    rw [inFlight] at flight
    refine fares_landed sound rfl rfl rfl ?_ rfl ?_ (le_satAdd small _) (satAdd_le_max _ _)
    · simp only [owes,Mirror.apply]
      omega
    · simp only [inFlight,Mirror.apply]
      omega
  | @taskFailed k addr price at_ =>
    have flown := flying_set .failed at_ (by decide)
    rw [inFlight] at flight
    refine fares_landed sound rfl rfl rfl ?_ rfl ?_ le_rfl small
    · simp only [owes,Mirror.release]
      omega
    · simp only [inFlight,Mirror.release]
      omega
  | @taskStored k addr price ok at_ | @taskSent k addr price ok at_ =>
    have flown := flying_landed .done at_ (by decide) (by decide)
    refine fares_landed sound rfl rfl rfl le_rfl rfl ?_ le_rfl small
    simp only [inFlight,flown]
    exact flight
  | startMeasuring at_ unknown mode =>
    have none_ : s.tasks = [] := (idle.early (by rw [at_]; rfl)).1
    have issued : c.bank.issuedPlur ≤ projected plan.lim := by simpa [fitting,at_,unknown,mode] using fits
    have nothing : (newPacer plan s).prepaid = 0 := by simp [newPacer,mode]
    have threshold := (newPacer plan s).threshold_lt
    have halved : (newPacer plan s).threshold / 2 < u64Max := by
      unfold u64Max
      omega
    refine ⟨sound_free ?_ (Nat.zero_le _) ?_ (fun _ => ⟨nothing,halved⟩) rfl,?_,.inr issued⟩
    · simp [newPacer,inFlight,none_,measured]
    · simp [owes,newPacer]
    · simp only [underway,Nat.mul_zero]
      omega
  | unmeasured at_ =>
    have none_ : s.tasks = [] := (idle.early (by rw [at_]; rfl)).1
    refine fares_plain sound rfl ?_ ?_ (Nat.zero_le _) rfl vacuous vacuous
    · simp [owes,newPacer]
    · simp [newPacer,inFlight,none_,measured]
  | @measureReserve m addr mirror at_ absent reserved =>
    have half_ : m.half ≤ gate := by simpa [fitting,at_] using fits
    obtain ⟨-,low_⟩ := sound.metered (by rw [at_]; rfl)
    rw [at_] at low_
    exact fares_reserved sound rfl (by rw [reserving,at_]) reserved low_ (by omega) rfl rfl
      (by simp [inFlight,at_,measured]) (by rw [underway,at_]) rfl (fun _ => by rw [at_]; exact ⟨rfl,le_rfl⟩)
  | @measureServe m addr price at_ =>
    have sum := satAdd_le s.pacer.mirror.balance price
    rw [inFlight,at_] at flight
    simp only [measured] at flight
    have before := sound.metered (by rw [at_]; rfl)
    rw [at_] at before
    refine fares_plain sound rfl ?_ ?_ (satAdd_le_max _ _) rfl (fun _ => before) fun _ => by rw [reserving,at_]
    · refine le_trans ?_ (owes_le_weight sound (by rw [underway,at_]))
      simp only [owes,Mirror.apply]
      omega
    · simp only [inFlight,measured,Mirror.apply]
      omega
  | @measureFail m addr price at_ =>
    rw [inFlight,at_] at flight
    simp only [measured] at flight
    obtain ⟨nothing,-⟩ := sound.metered (by rw [at_]; rfl)
    refine fares_plain sound rfl ?_ ?_ small rfl (fun _ => ⟨nothing,Nat.two_pow_pos 63 |>.trans (by decide)⟩) vacuous
    · refine le_trans ?_ (owes_le_weight sound (by rw [underway,at_]))
      simp only [owes,Mirror.release]
      omega
    · simp only [inFlight,measured,Mirror.release]
      omega
  | measureWait at_ =>
    obtain ⟨nothing,-⟩ := sound.metered (by rw [at_]; rfl)
    refine ⟨⟨?_,small,sound.within,vacuous,?_,?_⟩,?_,.inl ?_⟩
    · rw [inFlight,at_] at flight
      exact flight
    · rintro wake debt ⟨⟩
      rw [Pacer.unpaid,nothing,Nat.sub_zero]
    · rintro purpose units call ⟨⟩
    · rw [underway,underway,at_]
    · rw [weight,weight,reserving,reserving,paying,paying,at_]
      rfl
  | sweepBegin at_ woken =>
    exact fares_begun sound (by rw [underway,at_]) rfl rfl (by simp [inFlight,at_,startEmit,measured]) rfl
      fun _ => sound.waiting _ _ at_
  | prepayBegin at_ mode short =>
    rw [noteLambda_eq]
    exact fares_begun sound (by rw [underway,at_]) rfl rfl (by simp [inFlight,at_,startEmit,measured]) rfl vacuous
  | driveBegin at_ enough =>
    rw [noteLambda_eq]
    exact fares_quiet sound rfl (by rw [underway,at_]) rfl rfl (inFlight_kept at_ rfl rfl) rfl vacuous vacuous
  | calling at_ taken => exact fares_calling sound at_ taken steady fits backed low
  | @called purpose units call outcome at_ ended => exact fares_sent sound at_ ended fits
  | @uncalled purpose units call why at_ ended => exact fares_unsent sound at_ ended
  | drained at_ joined =>
    refine fares_quiet sound rfl (by rw [underway,at_]) rfl rfl ?_ rfl vacuous vacuous
    rw [inFlight,inFlight,flying_joined joined,at_]
    rfl
  | halt at_ stopped halted =>
    exact fares_quiet sound rfl (by rw [underway,at_]) rfl rfl (inFlight_kept at_ rfl rfl) rfl vacuous vacuous
  | project at_ room onward =>
    refine ⟨sound_free ?_ small sound.within vacuous rfl,?_,.inr ?_⟩
    · rw [inFlight,at_] at flight
      exact flight
    · rw [underway,underway,at_]
    · unfold projected
      omega
  | @refuse addr pacer' at_ absent refused =>
    cases Pacer.admit_refused refused
    exact fares_quiet sound rfl (by rw [underway,at_]) rfl rfl (inFlight_kept at_ rfl rfl) rfl vacuous vacuous
  | @admitOne addr pacer' at_ absent admitted =>
    obtain ⟨mirror,reserved,rfl⟩ := Pacer.admit_admitted admitted
    have gate_ : satMul s.pacer.threshold 105 / 100 ≤ gate ∧ (s.pacer.prune c.now).admitLimit < u64Max := by
      simpa [fitting,at_] using fits
    have gated : (s.pacer.prune c.now).admitLimit ≤ s.pacer.prepaid + gate := by
      have sum := wrapAdd_le s.pacer.prepaid (satMul s.pacer.threshold 105 / 100)
      show wrapAdd s.pacer.prepaid (satMul s.pacer.threshold 105 / 100) - _ ≤ _
      omega
    refine fares_reserved sound rfl (by rw [reserving,at_]) reserved gate_.2 gated rfl rfl ?_ (by rw [underway,at_]) rfl
      vacuous
    simp [inFlight,at_,measured,flying]
  | refreshBegin at_ owes_ =>
    exact fares_quiet sound rfl (by rw [underway,at_]) rfl rfl (by simp [inFlight,at_,measured,flying_reap]) rfl vacuous vacuous
  | refreshSkip at_ lastRefresh =>
    exact fares_quiet sound rfl (by rw [underway,at_]) rfl rfl (by simp [inFlight,at_,measured,flying_reap]) rfl vacuous vacuous
  | @refreshed units at_ =>
    rw [inFlight,at_] at flight
    refine fares_plain sound rfl ?_ flight ?_ rfl vacuous vacuous
    · refine le_trans ?_ (owes_le_weight sound (by rw [underway,at_]))
      simp only [owes,Pacer.refreshed,Mirror.credit]
      omega
    · simp only [Pacer.refreshed,Mirror.credit]
      omega
  | settled at_ =>
    have done : underway s = 0 := by rw [underway,at_]
    have flown : inFlight s = total flying s.tasks := by simp [inFlight,at_,measured]
    rcases settle_cases plan c s with same | ⟨units,-,-,-,same⟩ | same <;> rw [same]
    · exact fares_quiet sound rfl done rfl rfl flown.symm rfl vacuous vacuous
    · exact fares_begun sound done rfl rfl flown.symm rfl vacuous
    · exact fares_begun sound done rfl rfl flown.symm rfl fun _ => le_rfl
  | @measureStore m addr ok at_ =>
    exact fares_quiet sound (by cases ok <;> rfl) (by rw [underway,at_]) rfl rfl (inFlight_kept at_ rfl rfl) rfl
      (fun _ => by rw [at_]; exact ⟨rfl,le_rfl⟩) fun _ => by rw [reserving,at_]
  | measurePop at_ popped | measureSkip at_ there =>
    exact fares_quiet sound rfl (by rw [underway,at_]) rfl rfl (inFlight_kept at_ rfl rfl) rfl
      (fun _ => by rw [at_]; exact ⟨rfl,le_rfl⟩) fun _ => by rw [reserving,at_]
  | measureEnd at_ | measureLost at_ absent refused | measureSend at_ =>
    exact fares_quiet sound rfl (by rw [underway,at_]) rfl rfl (inFlight_kept at_ rfl rfl) rfl
      (fun _ => by rw [at_]; exact ⟨rfl,Nat.zero_le _⟩) vacuous
  | resume at_ onward room held | take at_ onward room free popped =>
    exact fares_quiet sound rfl (by rw [underway,at_]) rfl rfl (inFlight_kept at_ rfl rfl) rfl vacuous
      fun _ => by rw [reserving,at_,onward.2]; rfl
  | skip at_ there =>
    exact fares_quiet sound rfl (by rw [underway,at_]) rfl rfl (inFlight_kept at_ rfl rfl) rfl vacuous
      fun _ => by rw [reserving,at_]
  | dialed at_ | undialed at_ | measureLittle at_ | probeBegin at_ woken | probeAgain at_ wake settled
  | probeEnd at_ lambda settled | dead at_ dead | turn at_ live sampled stopped | empty at_ onward free none_
  | full at_ stop | retry at_ woken | finish at_ idle_ settled ready | sleep at_ ready kept | wake at_ woken
  | confirmBegin at_ live | unconfirmed at_ why | confirmWake at_ woken | confirmed at_ | recorded at_ =>
    exact fares_quiet sound rfl (by rw [underway,at_]) rfl rfl (inFlight_kept at_ rfl rfl) rfl vacuous vacuous

end Session

/-! ### All of them -/

section Fetch
variable [DecidableEq A] [DecidableEq B] {job : Job M A} {rate gate most : Nat} {needed : List A} {r r' : Run M A B}
  {move : Move A B}

/-- What a step of a fetch must be: there are at most so many connections, the peers
    announce the one rate, and the step of a connection is fitting. -/
def Provided (job : Job M A) (rate gate most : Nat) (r : Run M A B) (move : Move A B) : Bool :=
  decide (r.actors.length ≤ most) && match move with
  | .session i act => (r.actors[i]?).all fun actor =>
      constant rate act && fitting job.plan rate gate r.common actor.session act
  | _ => true

/-- The counter holds what is under way, and leaves room for what connections count for. -/
structure Roomy (job : Job M A) (rate gate most : Nat) (r : Run M A B) : Prop where
  sound : ∀ actor ∈ r.actors, Sound rate job.plan.lim.maxIssuePlur gate actor.session
  backed : rate * total (fun actor : Actor A B => underway actor.session) r.actors ≤ r.common.bank.issuedPlur
  room : r.common.bank.issuedPlur + rate * total (fun actor : Actor A B => weight gate actor.session) r.actors ≤
    projected job.plan.lim + rate * (most * gate)

/-- One connection moves. -/
theorem roomy_actor (roomy : Roomy job rate gate most r) (few : r.actors.length ≤ most)
    (wide : projected job.plan.lim + rate * (most * gate) ≤ job.plan.lim.maxIssuePlur) {i : Nat} {actor : Actor A B}
    {act : Act} {common : Common A B} {session : Session A B} (at_ : r.actors[i]? = some actor) (idle : Idle actor.session)
    (moves : Connection.Moves job.plan r.common actor.session act common session) (steady : constant rate act = true)
    (fits : fitting job.plan rate gate r.common actor.session act = true) (actor' : Actor A B) (same : actor'.session = session)
    (conns : ConnPool A B) (log : Log A) (opened : Nat) :
    Roomy job rate gate most { r with
      common := common, conns := conns, actors := r.actors.set i actor', log := log, opened := opened } := by
  have member := mem_of_found at_
  have backed := roomy.backed
  have room := roomy.room
  have stake := le_total (fun actor : Actor A B => underway actor.session) member
  have share := le_total (fun actor : Actor A B => weight gate actor.session) member
  have fares_ := fares idle (roomy.sound _ member) moves steady fits
    ((Nat.mul_le_mul_left rate stake).trans backed) (by have part := Nat.mul_le_mul_left rate share; omega)
  rw [← same] at fares_
  have held := congrArg (rate * ·) (total_set (fun actor : Actor A B => underway actor.session) actor' at_)
  have counts := congrArg (rate * ·) (total_set (fun actor : Actor A B => weight gate actor.session) actor' at_)
  simp only [Nat.mul_add] at held counts
  have sound := forall_set roomy.sound fares_.sound (i := i)
  refine ⟨sound,?_,?_⟩
  · have grows := fares_.backed
    simp only
    omega
  · rcases fares_.room with less | within
    · simp only
      omega
    · -- The counter is within the 92%, and no connection counts for more than the gate.
      have each : total (fun actor : Actor A B => weight gate actor.session) (r.actors.set i actor') ≤ most * gate := by
        refine (total_le_mul fun actor inside => weight_le (sound actor inside)).trans ?_
        rw [List.length_set]
        exact Nat.mul_le_mul_right _ few
      have all := Nat.mul_le_mul_left rate each
      simp only
      omega

omit [DecidableEq A] [DecidableEq B] in
theorem sound_spawn (cap : Nat) (overlay : A) (bucket : Nat) (beneficiary : B) (known : Option Known)
    (warm : Option (Nat × Option U256)) :
    Sound rate cap gate (spawn overlay bucket beneficiary known warm) ∧
      underway (spawn overlay bucket beneficiary known warm) = 0 ∧
      weight gate (spawn overlay bucket beneficiary known warm) = 0 := by
  cases warm <;> exact ⟨sound_free rfl (Nat.zero_le _) (Nat.zero_le _) nofun rfl,rfl,rfl⟩

omit [DecidableEq B] in
/-- A connection is spawned. -/
theorem roomy_spawn (roomy : Roomy job rate gate most r) (fresh : Actor A B)
    (new : Sound rate job.plan.lim.maxIssuePlur gate fresh.session ∧ underway fresh.session = 0 ∧ weight gate fresh.session = 0)
    (conns : ConnPool A B) (dispatch : Dispatching.Dispatch M A) (opened : Nat) (main : Main) :
    Roomy job rate gate most { r with
      conns := conns, opened := opened, dispatch := dispatch, actors := r.actors ++ [fresh], main := main } := by
  obtain ⟨sound,none_,nothing⟩ := new
  refine ⟨forall_append roomy.sound sound,?_,?_⟩
  · simpa [none_] using roomy.backed
  · simpa [nothing] using roomy.room

theorem roomy_step (roomy : Roomy job rate gate most r) (standing : Ownership.Standing r)
    (wide : projected job.plan.lim + rate * (most * gate) ≤ job.plan.lim.maxIssuePlur)
    (provided : Provided job rate gate most r move = true) (steps : Steps job needed r move r') :
    Roomy job rate gate most r' := by
  simp only [Provided,Bool.and_eq_true,decide_eq_true_eq] at provided
  obtain ⟨few,fits⟩ := provided
  cases steps with
  | @acted i actor act common session at_ before moves =>
    simp only [at_,Option.all_some,Bool.and_eq_true] at fits
    exact roomy_actor roomy few wide at_ (standing.idle _ (mem_of_found at_)) moves fits.1 fits.2
      { actor with session := session } rfl _ _ _
  | @shaken i actor remote common session at_ dialing moves =>
    exact roomy_actor roomy few wide at_ (standing.idle _ (mem_of_found at_)) moves rfl (by simp [fitting])
      { actor with session := session, remote := if decide (remote = some actor.session.overlay) then remote else none } rfl _ _ _
  | dispatched at_ chosen =>
    unfold connect
    split
    · simp only
      split
      · exact roomy_spawn roomy _ (sound_spawn _ _ _ _ _ _) _ _ _ _
      · exact roomy_spawn roomy _ (sound_spawn _ _ _ _ _ _) _ _ _ _
    · exact roomy_spawn roomy _ (sound_spawn _ _ _ _ _ _) _ _ _ _
  | @joined i actor residual observed parked at_ there closed =>
    have held := total_set (fun actor : Actor A B => underway actor.session) { actor with joined := true } there
    have counts := total_set (fun actor : Actor A B => weight gate actor.session) { actor with joined := true } there
    refine ⟨forall_set roomy.sound (roomy.sound actor (mem_of_found there)),?_,?_⟩
    · have backed := roomy.backed
      rwa [← Nat.add_right_cancel held] at backed
    · have room := roomy.room
      rwa [← Nat.add_right_cancel counts] at room
  | _ => exact ⟨roomy.sound,roomy.backed,roomy.room⟩

omit [DecidableEq B] in
theorem launch_counter (job : Job M A) (opening : Opening A B) :
    (launch job opening).common.bank.issuedPlur = 0 ∧ (launch job opening).actors = [] := by
  unfold launch
  split
  · exact ⟨rfl,rfl⟩
  · simp only
    split
    · exact ⟨rfl,rfl⟩
    · split
      · exact ⟨rfl,rfl⟩
      · split
        · exact ⟨rfl,rfl⟩
        · split
          · exact ⟨rfl,rfl⟩
          · refine List.foldlRecOn (motive := fun r : Run M A B => r.common.bank.issuedPlur = 0 ∧ r.actors = []) _ _
              ⟨rfl,rfl⟩ ?_
            intro r empty addr _
            unfold route
            simp only
            split
            · exact empty
            · split
              · exact empty
              · exact empty

omit [DecidableEq B] in
theorem roomy_empty (issued : r.common.bank.issuedPlur = 0) (none_ : r.actors = []) : Roomy job rate gate most r := by
  refine ⟨fun actor member => ?_,?_,?_⟩
  · rw [none_] at member
    cases member
  · rw [none_,total_nil]
    exact Nat.zero_le _
  · rw [none_,issued,total_nil]
    exact Nat.zero_le _

/-- What is issued and what all connections owe are within the cap together whenever
    no cheque is being emitted, and no cheque is ever refused, in every run in which
    what 92% leaves of the cap is enough for all that the connections may owe. -/
theorem room_left (job : Job M A) (opening : Opening A B) (rate gate most : Nat)
    (wide : projected job.plan.lim + rate * (most * gate) ≤ job.plan.lim.maxIssuePlur) (moves : List (Move A B))
    (final : Run M A B)
    (met : Meets (step job (wanted job opening)) (fun r move => Provided job rate gate most r move = true)
      (launch job opening) moves)
    (reached : run (step job (wanted job opening)) (launch job opening) moves = some final) :
    ((∀ actor ∈ final.actors, ∀ purpose units call, actor.session.phase ≠ .emitting purpose units call) →
      final.common.bank.issuedPlur + rate * total (fun actor : Actor A B => owes actor.session) final.actors ≤
        job.plan.lim.maxIssuePlur) ∧
    ∀ actor ∈ final.actors, ∀ purpose units call plur, actor.session.phase = .emitting purpose units call →
      call.phase ≠ .refused plur := by
  obtain ⟨issued,none_⟩ := launch_counter job opening
  have start : Roomy job rate gate most (launch job opening) := roomy_empty issued none_
  obtain ⟨-,roomy⟩ : Ownership.Standing final ∧ Roomy job rate gate most final := by
    refine @run_guarded _ _ _ _ (fun r => Ownership.Standing r ∧ Roomy job rate gate most r) ?_ _ _ _
      ⟨(launch_started job opening).1,start⟩ met reached
    rintro r move r' ⟨standing,roomy⟩ provided taken
    have steps := step_steps taken
    exact ⟨Ownership.standing_step standing steps,roomy_step roomy standing wide provided steps⟩
  refine ⟨fun calm => ?_,fun actor member purpose units call plur at_ => ?_⟩
  · have each : total (fun actor : Actor A B => owes actor.session) final.actors ≤
        total (fun actor : Actor A B => weight gate actor.session) final.actors := by
      refine total_mono fun actor member => owes_le_weight (roomy.sound actor member) ?_
      unfold underway
      split
      · next at_ => exact absurd at_ (calm actor member _ _ _)
      · rfl
    have all := Nat.mul_le_mul_left rate each
    have room := roomy.room
    omega
  · obtain ⟨-,-,priced⟩ := (roomy.sound actor member).emitting purpose units call at_
    intro refused
    rw [refused] at priced
    exact priced

end Fetch

/-! ### Eight percent are not enough -/

def capped (cap : Nat) (small : cap < 2 ^ 64) : Job Unit Nat :=
  { oneStorer false [7] with plan := { storing false with lim := ⟨1000000000000000,cap,small⟩ } }

/-- A cap of 10¹⁰ PLUR, a seventieth of what one threshold of debt costs at the highest rate. -/
abbrev tight : Job Unit Nat := capped (10 ^ 10) tenBillion_fits
abbrev ample : Job Unit Nat := capped (2 * 10 ^ 12) (by decide)

/-- A chunk is admitted. -/
def admitted : List (Move Nat Nat) := dial 1 ++ ([.handshake 0 (some 1)] : List (Move Nat Nat)) ++ goes 6

/-- It is served, and the cheque that pays for it is refused. -/
def swept : List (Move Nat Nat) :=
  admitted ++ ([.session 0 (.task 0 true),.session 0 (.task 0 true)] : List (Move Nat Nat)) ++ goes 2 ++
    ([.session 0 (.accepted none)] : List (Move Nat Nat)) ++ goes 2 ++ ([.pass tick] : List (Move Nat Nat)) ++
    goes 6 ++
    ([.session 0 (.cheque (.io true)),.session 0 (.cheque (.headers (some (100000,0)))),.session 0 (.cheque .go),
      .session 0 (.cheque .go)] : List (Move Nat Nat))

def emits : Connection.Phase A B → Bool
  | .emitting _ _ _ => true
  | _ => false

theorem emits_none {phase : Connection.Phase A B} (rests : emits phase = false) (purpose : Purpose) (units : Nat)
    (call : Call B) : phase ≠ .emitting purpose units call := by
  rintro rfl
  cases rests

def refuses : Connection.Phase A B → Bool
  | .emitting .settle _ ⟨_,_,.refused _⟩ => true
  | _ => false

/-- A move at the rate that the runs below are about. -/
def atRate : Move Nat Nat → Bool
  | .session _ act => constant 100000 act
  | _ => true

/-- The projection of an empty counter admits a chunk that the cap cannot pay. -/
theorem no_room : (∀ move ∈ swept, ∀ i act, move = .session i act → constant 100000 act = true) ∧
    (∃ final, run (step tight (wanted tight opened)) (launch tight opened) admitted = some final ∧
      (∀ actor ∈ final.actors, ∀ purpose units call, actor.session.phase ≠ .emitting purpose units call) ∧
      tight.plan.lim.maxIssuePlur <
        final.common.bank.issuedPlur + 100000 * total (fun actor : Actor Nat Nat => owes actor.session) final.actors) ∧
    ∃ final, run (step tight (wanted tight opened)) (launch tight opened) swept = some final ∧
      ∃ actor ∈ final.actors, refuses actor.session.phase = true := by
  have owed : (run (step tight (wanted tight opened)) (launch tight opened) admitted).map (fun final =>
      (final.actors.any fun actor => emits actor.session.phase,final.common.bank.issuedPlur,
        total (fun actor : Actor Nat Nat => owes actor.session) final.actors)) = some (false,0,230000) := by decide +kernel
  have ends : (run (step tight (wanted tight opened)) (launch tight opened) swept).map (fun final =>
      final.actors.any fun actor => refuses actor.session.phase) = some true := by decide +kernel
  refine ⟨?_,?_,?_⟩
  · have all : swept.all atRate = true := by decide +kernel
    rintro move member i act rfl
    exact List.all_eq_true.mp all _ member
  · obtain ⟨final,reached,same⟩ := Option.map_eq_some_iff.mp owed
    simp only [Prod.mk.injEq] at same
    obtain ⟨calm,issued,sum⟩ := same
    refine ⟨final,reached,fun actor member purpose units call => emits_none ?_ _ _ _,?_⟩
    · simpa using List.any_eq_false.mp calm actor member
    · rw [issued,sum]
      decide
  · obtain ⟨final,reached,same⟩ := Option.map_eq_some_iff.mp ends
    exact ⟨final,reached,List.any_eq_true.mp same⟩

theorem room_left_ample : ∃ final, run (step ample (wanted ample opened)) (launch ample opened) admitted = some final ∧
    final.common.bank.issuedPlur + 100000 * total (fun actor : Actor Nat Nat => owes actor.session) final.actors ≤
      ample.plan.lim.maxIssuePlur := by
  have ends : (run (step ample (wanted ample opened)) (launch ample opened) admitted).map (fun final =>
      final.actors.any fun actor => emits actor.session.phase) = some false := by decide +kernel
  obtain ⟨final,reached,calm⟩ := Option.map_eq_some_iff.mp ends
  refine ⟨final,reached,(room_left ample opened 100000 1417500 1 (by decide) admitted final (by decide +kernel) reached).1 ?_⟩
  intro actor member
  exact emits_none (by simpa using List.any_eq_false.mp calm actor member)

end Directswarm.SpendRoom
