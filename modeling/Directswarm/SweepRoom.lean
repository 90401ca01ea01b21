import Directswarm.Growth

/-!
The room that the spend gate of `probe_growth` leaves for its sweeps. What was issued,
with what is owed beyond the prepaid units at the rate of the peer, stays within 92% of
the cap and the deductions paid, or the surplus covers the debt (`Roomy`): the gate
gives the first, a cheque moves units from the debt into what was issued, and a cheque
in advance pays for as much of the debt as it covers. A sweep then passes the
comparison with the cap (`sweeps_have_room`), except where the ceiling phase sends a
cheque over nothing: its deduction is paid from whatever room is left (`refused`).
-/
namespace Directswarm.SweepRoom
open Directswarm.Words Directswarm.Runs Directswarm.Interleaving Directswarm.Cheques Directswarm.Pacing Directswarm.Growth

/-! ### What a probe owes, and what was issued for it -/

/-- What was issued, what is owed and reserved, and what was prepaid and deducted. -/
structure Purse where
  spent : Nat
  balance : Nat
  reserved : Nat
  prepaid : Nat
  deducted : Nat

def Purse.owed (p : Purse) : Nat := p.balance + p.reserved

/-- What the spend gate keeps free is what the deductions may take. -/
def Roomy (cap rate : Nat) (p : Purse) : Prop :=
  p.spent + rate * (p.owed - p.prepaid) ≤ cap * 92 / 100 + p.deducted ∨ 0 < p.prepaid ∧ p.owed ≤ p.prepaid

/-- What can happen to a purse, at a cap and a rate. -/
inductive Entry (cap rate : Nat) (p : Purse) : Purse → Prop
  | none : Entry cap rate p p
  | reserve {price : Nat} (projected : p.spent + rate * (p.owed + price - p.prepaid) ≤ cap * 92 / 100) :
      Entry cap rate p { p with reserved := p.reserved + price }
  | serve {price rest : Nat} (flying : p.reserved = rest + price) :
      Entry cap rate p { p with balance := p.balance + price, reserved := rest }
  | fail {price rest : Nat} (flying : p.reserved = rest + price) : Entry cap rate p { p with reserved := rest }
  | refresh {units : Nat} : Entry cap rate p { p with balance := p.balance - units }
  | cheque {units deduction : Nat} (covered : units = 0 ∨ units + p.prepaid ≤ p.balance) :
      Entry cap rate p { p with
        spent := p.spent + (rate * units + deduction)
        balance := p.balance - units
        deducted := p.deducted + deduction }
  | prepay {units deduction spent : Nat} (first : p.prepaid = 0) (some_ : 0 < units)
      (counted : spent = p.spent + (rate * units + deduction) ∨ p.owed ≤ units) :
      Entry cap rate p { p with spent := spent, prepaid := units, deducted := p.deducted + deduction }

section
variable {cap rate : Nat} {p p' : Purse}

/-- Owing less leaves more room. -/
theorem roomy_less (roomy : Roomy cap rate p) (spent : p'.spent = p.spent) (prepaid : p'.prepaid = p.prepaid)
    (deducted : p'.deducted = p.deducted) (less : p'.owed ≤ p.owed) : Roomy cap rate p' := by
  unfold Roomy at *
  rw [spent,prepaid,deducted]
  refine roomy.imp (fun room => ?_) fun covered => ⟨covered.1,less.trans covered.2⟩
  have part := Nat.mul_le_mul_left rate (Nat.sub_le_sub_right less p.prepaid)
  omega

theorem roomy_entry (roomy : Roomy cap rate p) (entry : Entry cap rate p p') : Roomy cap rate p' := by
  cases entry with
  | none => exact roomy
  | @reserve price projected =>
    refine .inl ?_
    show p.spent + rate * (p.balance + (p.reserved + price) - p.prepaid) ≤ _
    rw [← Nat.add_assoc]
    exact projected.trans (Nat.le_add_right _ _)
  | serve flying => exact roomy_less roomy rfl rfl rfl (by simp only [Purse.owed]; omega)
  | fail flying => exact roomy_less roomy rfl rfl rfl (by simp only [Purse.owed]; omega)
  | refresh => exact roomy_less roomy rfl rfl rfl (by simp only [Purse.owed]; omega)
  | @cheque units deduction covered =>
    simp only [Roomy,Purse.owed] at roomy ⊢
    rcases covered with rfl | covered
    · rw [Nat.mul_zero,Nat.sub_zero]
      omega
    · rcases roomy with room | ⟨some_,under⟩
      · refine .inl ?_
        have split_ : p.balance + p.reserved - p.prepaid = units + (p.balance - units + p.reserved - p.prepaid) := by omega
        rw [split_,Nat.mul_add] at room
        omega
      · have nothing : units = 0 := by omega
        subst nothing
        exact .inr ⟨some_,under⟩
  | @prepay units deduction spent first some_ counted =>
    simp only [Roomy,Purse.owed] at roomy counted ⊢
    rcases Nat.lt_or_ge units (p.balance + p.reserved) with above | under
    · rcases counted with rfl | under
      · rcases roomy with room | ⟨advance,-⟩
        · refine .inl ?_
          have split_ : p.balance + p.reserved - p.prepaid = units + (p.balance + p.reserved - units) := by omega
          rw [split_,Nat.mul_add] at room
          omega
        · omega
      · omega
    · exact .inr ⟨some_,under⟩

/-- There is room for a cheque that is covered, with its deduction. -/
theorem room_for (roomy : Roomy cap rate p) {units deduction : Nat} (some_ : 0 < units)
    (covered : units + p.prepaid ≤ p.balance) (deductions : (p.deducted + deduction) * 100 ≤ cap * 8) :
    p.spent + (rate * units + deduction) ≤ cap := by
  simp only [Roomy,Purse.owed] at roomy
  rcases roomy with room | ⟨-,under⟩
  · have part := Nat.mul_le_mul_left rate (show units ≤ p.balance + p.reserved - p.prepaid by omega)
    omega
  · omega

/-- And for a cheque in advance over no more than is owed. -/
theorem room_ahead (roomy : Roomy cap rate p) {units deduction : Nat} (first : p.prepaid = 0) (under : units ≤ p.owed)
    (deductions : (p.deducted + deduction) * 100 ≤ cap * 8) : p.spent + (rate * units + deduction) ≤ cap := by
  simp only [Roomy] at roomy
  rcases roomy with room | ⟨advance,-⟩
  · have part := Nat.mul_le_mul_left rate (show units ≤ p.owed - p.prepaid by omega)
    omega
  · omega

end

/-! ### The purse of a probe -/

variable {A B : Type}

/-- What a call has added to the counter. -/
def counting : Cheques.Phase → Nat
  | .reserved _ plur _ | .refused plur | .passed _ plur | .drawn _ plur _ | .signed _ plur _ | .written _ plur _
  | .flushed _ plur _ | .recorded _ plur _ | .failed plur _ => clamp64 plur
  | _ => 0

def underway : Growth.Phase B → Nat
  | .emitting _ _ call => counting call.phase
  | _ => 0

/-- The purse of a probe; a cheque is counted when it ends. -/
def purse (s : Probe B) (deducted : Nat) : Purse :=
  ⟨wrapSub s.bank.issuedPlur (underway s.phase),s.conn.acct.balance,s.conn.acct.reserved,s.conn.prepaid,deducted⟩

def flying (task : FetchTask) : Nat := if task.finished then 0 else task.price

/-- The price of the fetch of a latency sample. -/
def retrieved : Growth.Phase B → Nat
  | .retrieving _ _ _ price => price
  | _ => 0

/-- The prices in flight. -/
def inFlight (s : Probe B) : Nat := total flying s.tasks + retrieved s.phase

/-- A cheque is being sent. -/
def emits : Growth.Phase B → Bool
  | .emitting _ _ _ => true
  | _ => false

def grows (l : Loop) : Bool :=
  match l.mode with
  | .growth => true
  | .ceiling _ => false

/-- Up to the cheque in advance. -/
def early : Growth.Phase B → Bool
  | .begin_ | .sampling _ | .building _ _ _ | .retrieving _ _ _ _ | .resting _ _ _ _ | .built _ | .quiet _ _ _
  | .probePause _ _ _ _ | .probing _ _ _ | .prepaying | .emitting (.lambda _) _ _ | .emitting .prepay _ _ => true
  | .turn l | .spawning l | .asking l | .joining l | .refreshing l | .settling l | .closing l | .sleeping l _
  | .emitting (.pace l) _ _ => grows l
  | _ => false

/-- The deduction of a cheque that is about to end well. -/
def paid (s : Probe B) : Growth.Act → Nat
  | .cheque .go =>
    match s.phase with
    | .emitting _ units ⟨_,_,.recorded rate plur _⟩ => plur - rate * units
    | _ => 0
  | _ => 0

/-- Whether the spend gate is asked. -/
def asks (opts : Options A) (s : Probe B) : Growth.Act → Bool
  | .go =>
    match s.phase with
    | .spawning l => !l.stopping && decide (s.tasks.length < l.mode.depth opts.pipelineDepth)
    | .building _ threshold deadline =>
      !decide (wrapMul threshold 4 / 10 ≤ s.conn.acct.balance ∨ deadline ≤ s.now) && s.conn.alive
    | _ => false
  | _ => false

/-- The deduction that is announced for a cheque over nothing. -/
def idleDeduction (s : Probe B) : Growth.Act → Nat
  | .cheque (.headers (some (_,deduction))) =>
    match s.phase with
    | .emitting _ 0 _ => deduction.val
    | _ => 0
  | _ => 0

/-- The probe, with the deductions paid. -/
def auditStep [DecidableEq B] (opts : Options A) (st : Probe B × Nat) (act : Growth.Act) : Option (Probe B × Nat) :=
  (growthStep opts st.1 act).map fun s => (s,st.2 + paid st.1 act)

/-- The peer announces one rate, and deductions within 8% of the cap. -/
def Steady (opts : Options A) (rate : Nat) (st : Probe B × Nat) : Growth.Act → Prop
  | .cheque (.headers (some (announced,deduction))) =>
    announced.val = rate ∧ (st.2 + deduction.val) * 100 ≤ opts.lim.maxIssuePlur * 8
  | _ => True

/-- The gate projects within 64 bits, and there is room for the deduction of a cheque over nothing. -/
def Ample (opts : Options A) (st : Probe B × Nat) (act : Growth.Act) : Prop :=
  (asks opts st.1 act = true → st.1.conn.acct.balance + st.1.conn.acct.reserved + opts.priceAt st.1.cycleIdx < 2 ^ 64) ∧
    (0 < idleDeduction st.1 act → st.1.bank.issuedPlur + idleDeduction st.1 act ≤ opts.lim.maxIssuePlur)

instance (opts : Options A) (rate : Nat) (st : Probe B × Nat) : (act : Growth.Act) → Decidable (Steady opts rate st act)
  | .cheque (.headers (some _)) => inferInstanceAs (Decidable (_ ∧ _))
  | .cheque (.headers none) | .cheque (.io _) | .cheque .go | .go | .answer _ | .accepted _ | .task _ _ | .hangUp
  | .announce _ | .clock _ => isTrue trivial

instance (opts : Options A) (st : Probe B × Nat) (act : Growth.Act) : Decidable (Ample opts st act) :=
  inferInstanceAs (Decidable (_ ∧ _))

/-! ### What every run keeps -/

/-- The amount of a cheque over some units; there is room for that of a sweep. -/
structure Amount (cap rate : Nat) (p : Purse) (sweep : Bool) (units announced plur : Nat) : Prop where
  agreed : announced = rate
  deduction : ∃ deduction, plur = rate * units + deduction ∧ (p.deducted + deduction) * 100 ≤ cap * 8
  room : sweep = true → p.spent + plur ≤ cap

/-- What is known of a call, by where it stands. -/
def Priced (cap rate : Nat) (p : Purse) (sweep : Bool) (units : Nat) : Cheques.Phase → Prop
  | .priced announced plur => Amount cap rate p sweep units announced plur
  | .reserved announced plur before => Amount cap rate p sweep units announced plur ∧ before = p.spent
  | .refused _ => sweep = false
  | .passed announced plur | .drawn announced plur _ | .signed announced plur _ | .written announced plur _
  | .flushed announced plur _ | .recorded announced plur _ =>
    Amount cap rate p sweep units announced plur ∧ satAdd p.spent (clamp64 plur) ≤ cap
  | .ended (.ok _) => False
  | _ => True

/-- All cheques but the one in advance. -/
def sweeps : Purpose → Bool
  | .prepay => false
  | _ => true

/-- The units of a sweep are owed beyond the prepaid ones. -/
def Covers (conn : Conn) (purpose : Purpose) (units : Nat) : Prop :=
  if sweeps purpose then units = 0 ∨ units + conn.prepaid ≤ conn.acct.balance else 0 < units

theorem covers_sweep {conn : Conn} {l : Loop} {units : Nat} :
    Covers conn (.pace l) units ↔ units = 0 ∨ units + conn.prepaid ≤ conn.acct.balance := Iff.rfl

/-- What a probe knows where it stands. -/
def Stands (opts : Options A) (rate : Nat) (s : Probe B) (deducted : Nat) : Prop :=
  match s.phase with
  | .asking _ =>
    s.conn.acct.balance + s.conn.acct.reserved + opts.priceAt s.cycleIdx < 2 ^ 64 ∧
      s.bank.issuedPlur + rate * (s.conn.acct.balance + s.conn.acct.reserved + opts.priceAt s.cycleIdx - s.conn.prepaid) ≤
        opts.lim.maxIssuePlur * 92 / 100
  | .quiet _ debt _ => debt ≤ s.conn.acct.balance
  | .emitting purpose units call =>
    call.debtUnits = units ∧ Covers s.conn purpose units ∧
      Priced opts.lim.maxIssuePlur rate (purse s deducted) (sweeps purpose) units call.phase
  | _ => True

/-- There is room, the mirror has reserved what is in flight, and the rate is that of the peer. -/
structure Sound (opts : Options A) (rate : Nat) (s : Probe B) (deducted : Nat) : Prop where
  roomy : Roomy opts.lim.maxIssuePlur rate (purse s deducted)
  reserved : s.conn.acct.reserved = inFlight s
  small : s.conn.acct.balance + s.conn.acct.reserved < 2 ^ 64
  issued : s.bank.issuedPlur < 2 ^ 64
  agreed : ∀ known ∈ s.conn.exchangeRate, known = rate
  within : (purse s deducted).spent ≤ opts.lim.maxIssuePlur
  first : early s.phase = true → s.conn.prepaid = 0
  stands : Stands opts rate s deducted

theorem wrapSub_zero {a : Nat} (small : a < 2 ^ 64) : wrapSub a 0 = a := by
  rw [wrapSub_exact (Nat.zero_le _) small,Nat.sub_zero]

section
variable {opts : Options A} {rate deducted : Nat} {s s' : Probe B}

/-- Between two cheques what was issued is what was spent. -/
theorem Sound.spent (sound : Sound opts rate s deducted) (idle : underway s.phase = 0) :
    (purse s deducted).spent = s.bank.issuedPlur := by
  show wrapSub s.bank.issuedPlur (underway s.phase) = s.bank.issuedPlur
  rw [idle,wrapSub_zero sound.issued]

/-- A step that leaves the books alone. -/
structure Calm (s s' : Probe B) : Prop where
  bank : s'.bank = s.bank
  acct : s'.conn.acct = s.conn.acct
  prepaid : s'.conn.prepaid = s.conn.prepaid
  known : s'.conn.exchangeRate = s.conn.exchangeRate
  flight : inFlight s' = inFlight s
  idle : underway s'.phase = underway s.phase
  onward : early s'.phase = true → early s.phase = true

theorem Calm.purse (calm : Calm s s') : SweepRoom.purse s' deducted = SweepRoom.purse s deducted := by
  simp only [SweepRoom.purse,calm.bank,calm.acct,calm.prepaid,calm.idle]

theorem sound_calm (sound : Sound opts rate s deducted) (calm : Calm s s') (stands : Stands opts rate s' deducted) :
    Sound opts rate s' deducted where
  roomy := by rw [calm.purse]; exact sound.roomy
  reserved := by rw [calm.acct,calm.flight]; exact sound.reserved
  small := by rw [calm.acct]; exact sound.small
  issued := by rw [calm.bank]; exact sound.issued
  agreed := by rw [calm.known]; exact sound.agreed
  within := by rw [calm.purse]; exact sound.within
  first := fun here => by rw [calm.prepaid]; exact sound.first (calm.onward here)
  stands := stands

/-- What the spend gate lets through is within 92% of the cap, at the rate of the peer. -/
theorem gate_room {conn : Conn} {lim : Limits} {issued price : Nat} (low : rate ≤ defaultRate)
    (agreed : ∀ known ∈ conn.exchangeRate, known = rate) (small : issued < 2 ^ 64)
    (fits : conn.acct.balance + conn.acct.reserved + price < 2 ^ 64)
    (passes : conn.spendWouldExceed lim issued price = false) :
    issued + rate * (conn.acct.balance + conn.acct.reserved + price - conn.prepaid) ≤ lim.maxIssuePlur * 92 / 100 := by
  have bounds : rate ≤ conn.rate ∧ conn.rate ≤ defaultRate := by
    unfold Conn.rate
    cases known : conn.exchangeRate with
    | none => exact ⟨low,le_rfl⟩
    | some r => cases agreed r known; exact ⟨le_rfl,low⟩
  unfold Conn.spendWouldExceed at passes
  rw [wrapAdd_exact (by omega : conn.acct.balance + conn.acct.reserved < 2 ^ 64),wrapAdd_exact fits] at passes
  generalize unpaid_ : conn.acct.balance + conn.acct.reserved + price - conn.prepaid = unpaid at passes ⊢
  have under : unpaid * conn.rate ≤ 2 ^ 64 * defaultRate := Nat.mul_le_mul (by omega) bounds.2
  have whole : (issued + unpaid * conn.rate) % 2 ^ 128 = issued + unpaid * conn.rate := by
    refine Nat.mod_eq_of_lt ?_
    simp only [defaultRate] at under
    omega
  simp only [whole,decide_eq_false_iff_not,not_lt] at passes
  have less : rate * unpaid ≤ unpaid * conn.rate := by
    rw [Nat.mul_comm]
    exact Nat.mul_le_mul_left unpaid bounds.1
  omega

/-- A fetch is reserved as the gate projected it. -/
theorem sound_reserve {price limit : Nat} {acct : Mirror} (sound : Sound opts rate s deducted)
    (idle : underway s.phase = 0 ∧ underway s'.phase = 0) (reserved : s.conn.acct.tryReserve price limit = some acct)
    (fits : s.conn.acct.balance + s.conn.acct.reserved + price < 2 ^ 64)
    (projected : s.bank.issuedPlur + rate * (s.conn.acct.balance + s.conn.acct.reserved + price - s.conn.prepaid) ≤
      opts.lim.maxIssuePlur * 92 / 100)
    (bank : s'.bank = s.bank) (books : s'.conn.acct = acct) (prepaid : s'.conn.prepaid = s.conn.prepaid)
    (known : s'.conn.exchangeRate = s.conn.exchangeRate) (flight : inFlight s' = inFlight s + price)
    (onward : early s'.phase = true → early s.phase = true) (stands : Stands opts rate s' deducted) :
    Sound opts rate s' deducted := by
  obtain ⟨-,rfl⟩ := Mirror.tryReserve_some.mp reserved
  rw [wrapAdd_exact (by omega)] at books
  have same : purse s' deducted = { purse s deducted with reserved := s.conn.acct.reserved + price } := by
    simp only [purse,bank,books,prepaid,idle.1,idle.2]
  have entry : Entry opts.lim.maxIssuePlur rate (purse s deducted) (purse s' deducted) := by
    rw [same]
    exact .reserve (by rw [sound.spent idle.1]; exact projected)
  refine ⟨roomy_entry sound.roomy entry,?_,?_,?_,?_,?_,?_,stands⟩
  · rw [books,flight,← sound.reserved]
  · rw [books]; simp only; omega
  · rw [bank]; exact sound.issued
  · rw [known]; exact sound.agreed
  · rw [same]; exact sound.within
  · intro here
    rw [prepaid]
    exact sound.first (onward here)

/-- The mirror alone moves, and no more is owed. -/
theorem sound_settle {acct : Mirror} (sound : Sound opts rate s deducted)
    (entry : Entry opts.lim.maxIssuePlur rate (purse s deducted)
      { purse s deducted with balance := acct.balance, reserved := acct.reserved })
    (less : acct.balance + acct.reserved ≤ s.conn.acct.balance + s.conn.acct.reserved)
    (idle : underway s'.phase = underway s.phase) (bank : s'.bank = s.bank) (books : s'.conn.acct = acct)
    (prepaid : s'.conn.prepaid = s.conn.prepaid) (known : s'.conn.exchangeRate = s.conn.exchangeRate)
    (flight : acct.reserved = inFlight s') (onward : early s'.phase = true → early s.phase = true)
    (stands : Stands opts rate s' deducted) : Sound opts rate s' deducted := by
  have same : purse s' deducted = { purse s deducted with balance := acct.balance, reserved := acct.reserved } := by
    simp only [purse,bank,books,prepaid,idle]
  have small := sound.small
  refine ⟨by rw [same]; exact roomy_entry sound.roomy entry,by rw [books,flight],?_,?_,?_,?_,?_,stands⟩
  · rw [books]; omega
  · rw [bank]; exact sound.issued
  · rw [known]; exact sound.agreed
  · rw [same]; exact sound.within
  · intro here
    rw [prepaid]
    exact sound.first (onward here)

theorem track_grows (l : Loop) (s : Probe B) : grows (l.track s) = grows l := by
  unfold Loop.track
  simp only
  split <;> split <;> split <;> rfl

theorem gate_conn (s : Probe B) (l : Loop) : (gate s l).1.acct = s.conn.acct ∧ (gate s l).1.prepaid = s.conn.prepaid ∧
    (gate s l).1.exchangeRate = s.conn.exchangeRate := by
  unfold gate
  split <;> exact ⟨rfl,rfl,rfl⟩

theorem flying_filter (tasks : List FetchTask) : total flying (tasks.filter fun task => !task.finished) = total flying tasks := by
  induction tasks with
  | nil => rfl
  | cons task rest ih =>
    obtain ⟨price,finished⟩ := task
    cases finished <;> simp [flying,ih]

/-- A cheque of the fetch loop is covered: a growing connection has prepaid nothing. -/
theorem wantCheque_covers (s : Probe B) (l : Loop) (first : grows l = true → s.conn.prepaid = 0) :
    Covers s.conn (.pace l) (wantCheque s l).2 := by
  refine covers_sweep.mpr ?_
  unfold wantCheque
  cases mode : l.mode with
  | growth =>
    have none_ := first (by unfold grows; rw [mode])
    simp only
    omega
  | ceiling window => simp only; omega

theorem sound_pace {act : Growth.Act} (low : rate ≤ defaultRate) (sound : Sound opts rate s deducted)
    (fits : asks opts s act = true → s.conn.acct.balance + s.conn.acct.reserved + opts.priceAt s.cycleIdx < 2 ^ 64)
    (taken : paceStep opts s act = some s') : Sound opts rate s' deducted := by
  obtain ⟨now,bank,conn,beneficiary,cycleIdx,lambdaMs,capped,tasks,phase⟩ := s
  unfold paceStep at taken
  split at taken
  · next l at_ =>
    cases at_
    cases taken
    exact sound_calm sound ⟨rfl,rfl,rfl,rfl,rfl,rfl,fun here => (track_grows l _).symm.trans here⟩ trivial
  · next l at_ =>
    cases at_
    split at taken
    · next more =>
      have small := fits more
      split at taken
      · cases taken
        exact sound_calm sound ⟨rfl,rfl,rfl,rfl,rfl,rfl,id⟩ trivial
      · next passes =>
        cases taken
        refine sound_calm sound ⟨rfl,rfl,rfl,rfl,rfl,rfl,id⟩ ⟨small,?_⟩
        exact gate_room low sound.agreed sound.issued small (Bool.eq_false_iff.mpr passes)
    · cases taken
      exact sound_calm sound ⟨rfl,rfl,rfl,rfl,rfl,rfl,id⟩ trivial
  · next l at_ =>
    cases at_
    obtain ⟨books,prepaid,known⟩ := gate_conn ⟨now,bank,conn,beneficiary,cycleIdx,lambdaMs,capped,tasks,.asking l⟩ l
    split at taken
    · cases taken
      exact sound_calm sound ⟨rfl,books,prepaid,known,rfl,rfl,id⟩ trivial
    · next acct reserved =>
      cases taken
      rw [books] at reserved
      obtain ⟨small,projected⟩ := sound.stands
      refine sound_reserve sound ⟨rfl,rfl⟩ reserved small projected rfl rfl prepaid known ?_ id trivial
      simp [inFlight,flying,retrieved]
  · next l at_ =>
    cases at_
    have flown := flying_filter tasks
    simp only at taken
    split at taken
    · split at taken <;> cases taken <;>
        exact sound_calm sound ⟨rfl,rfl,rfl,rfl,congrArg (· + 0) flown,rfl,id⟩ trivial
    · cases taken
      exact sound_calm sound ⟨rfl,rfl,rfl,rfl,congrArg (· + 0) flown,rfl,id⟩ trivial
  · next l units at_ =>
    cases at_
    cases taken
    refine sound_settle sound .refresh ?_ rfl rfl rfl rfl rfl sound.reserved id trivial
    simp only [Mirror.credit]
    omega
  · next l at_ =>
    cases at_
    split at taken
    · cases taken
      refine sound_calm sound ⟨rfl,rfl,rfl,rfl,rfl,rfl,id⟩ ⟨rfl,?_,trivial⟩
      exact wantCheque_covers _ l sound.first
    · cases taken
      exact sound_calm sound ⟨rfl,rfl,rfl,rfl,rfl,rfl,id⟩ trivial
  · next l at_ =>
    cases at_
    split at taken
    · split at taken
      · next mode =>
        cases taken
        exact sound_calm sound ⟨rfl,rfl,rfl,rfl,rfl,rfl,fun _ => by simp [early,grows,mode]⟩ trivial
      · cases taken
        exact sound_calm sound ⟨rfl,rfl,rfl,rfl,rfl,rfl,nofun⟩ trivial
    · cases taken
      exact sound_calm sound ⟨rfl,rfl,rfl,rfl,rfl,rfl,id⟩ trivial
  · next l wake at_ =>
    cases at_
    split at taken
    · cases taken
      exact sound_calm sound ⟨rfl,rfl,rfl,rfl,rfl,rfl,id⟩ trivial
    · cases taken
  · cases taken

theorem sound_probed {result : Option Nat} {later : Nat} (sound : Sound opts rate s deducted)
    (idle : underway s.phase = 0) (landed : retrieved s.phase = 0) (first : early s.phase = true) :
    Sound opts rate (probed s result later) deducted ∧ Sound opts rate (sampled s result later) deducted := by
  have flight : total flying s.tasks + 0 = inFlight s := by rw [← landed]; rfl
  exact ⟨sound_calm sound ⟨rfl,rfl,rfl,rfl,flight,idle.symm,fun _ => first⟩ trivial,
    sound_calm sound ⟨rfl,rfl,rfl,rfl,flight,idle.symm,fun _ => first⟩ trivial⟩

theorem sound_probeAgain {later t0 : Nat} {zeroAt : Option Nat} (sound : Sound opts rate s deducted)
    (idle : underway s.phase = 0) (landed : retrieved s.phase = 0) (first : early s.phase = true) :
    Sound opts rate (probeAgain s later t0 zeroAt) deducted := by
  have flight : total flying s.tasks + 0 = inFlight s := by rw [← landed]; rfl
  unfold probeAgain
  split
  · exact sound_calm sound ⟨rfl,rfl,rfl,rfl,flight,idle.symm,fun _ => first⟩ trivial
  · exact (sound_probed sound idle landed first).1

theorem sound_sample {act : Growth.Act} (low : rate ≤ defaultRate) (sound : Sound opts rate s deducted)
    (fits : asks opts s act = true → s.conn.acct.balance + s.conn.acct.reserved + opts.priceAt s.cycleIdx < 2 ^ 64)
    (taken : sampleStep opts s act = some s') : Sound opts rate s' deducted := by
  obtain ⟨now,bank,conn,beneficiary,cycleIdx,lambdaMs,capped,tasks,phase⟩ := s
  unfold sampleStep at taken
  split at taken
  · next at_ =>
    cases at_
    cases taken
    exact sound_calm sound ⟨rfl,rfl,rfl,rfl,rfl,rfl,id⟩ trivial
  · next later at_ =>
    cases at_
    split at taken <;> cases taken <;> exact sound_calm sound ⟨rfl,rfl,rfl,rfl,rfl,rfl,id⟩ trivial
  · next later threshold deadline at_ =>
    cases at_
    split at taken
    · cases taken
      exact sound_calm sound ⟨rfl,rfl,rfl,rfl,rfl,rfl,id⟩ trivial
    · next more =>
      split at taken
      · cases taken
        exact (sound_probed sound rfl rfl rfl).2
      · next alive =>
        have small := fits (by simp only [asks,more,decide_false,Bool.not_false,Bool.true_and]; simpa using alive)
        split at taken
        · cases taken
          exact sound_calm sound ⟨rfl,rfl,rfl,rfl,rfl,rfl,id⟩ trivial
        · next passes =>
          have projected := gate_room low sound.agreed sound.issued small (Bool.eq_false_iff.mpr passes)
          split at taken
          · cases taken
            exact sound_calm sound ⟨rfl,rfl,rfl,rfl,rfl,rfl,id⟩ trivial
          · next acct reserved =>
            cases taken
            exact sound_reserve sound ⟨rfl,rfl⟩ reserved small projected rfl rfl rfl rfl rfl id trivial
  · next later threshold deadline price at_ =>
    cases at_
    cases taken
    have flight : conn.acct.reserved = total flying tasks + price := sound.reserved
    have small : conn.acct.balance + conn.acct.reserved < 2 ^ 64 := sound.small
    have served : conn.acct.apply price = ⟨conn.acct.balance + price,total flying tasks⟩ := by
      unfold Mirror.apply
      rw [satAdd_exact (by unfold u64Max; omega),flight,Nat.add_sub_cancel]
    refine sound_settle sound ?_ ?_ rfl rfl rfl rfl rfl ?_ id trivial
    · rw [served]
      exact .serve flight
    · rw [served]
      simp only
      omega
    · rw [served]
      rfl
  · next later threshold deadline price at_ =>
    cases at_
    cases taken
    have flight : conn.acct.reserved = total flying tasks + price := sound.reserved
    have freed : conn.acct.release price = ⟨conn.acct.balance,total flying tasks⟩ := by
      unfold Mirror.release
      rw [flight,Nat.add_sub_cancel]
    refine sound_settle sound ?_ ?_ rfl rfl rfl rfl rfl ?_ id trivial
    · rw [freed]
      exact .fail flight
    · rw [freed]
      simp only
      omega
    · rw [freed]
      rfl
  · next later threshold deadline wake at_ =>
    cases at_
    split at taken <;> cases taken
    exact sound_calm sound ⟨rfl,rfl,rfl,rfl,rfl,rfl,id⟩ trivial
  · next later at_ =>
    cases at_
    split at taken <;> cases taken
    · exact (sound_probed sound rfl rfl rfl).2
    · exact sound_calm sound ⟨rfl,rfl,rfl,rfl,rfl,rfl,id⟩ le_rfl
  · next later debt wake at_ =>
    cases at_
    split at taken <;> cases taken
    have none_ : conn.prepaid = 0 := sound.first rfl
    have owed : debt ≤ conn.acct.balance := sound.stands
    refine sound_calm sound ⟨rfl,rfl,rfl,rfl,rfl,rfl,id⟩ ⟨rfl,.inr ?_,trivial⟩
    show debt + conn.prepaid ≤ conn.acct.balance
    rw [none_]
    exact owed
  · next later t0 zeroAt wake at_ =>
    cases at_
    split at taken <;> cases taken
    exact sound_calm sound ⟨rfl,rfl,rfl,rfl,rfl,rfl,id⟩ trivial
  · next later t0 zeroAt at_ =>
    cases at_
    cases taken
    exact sound_probeAgain sound rfl rfl rfl
  · next later t0 zeroAt units at_ =>
    cases at_
    split at taken <;> cases taken
    · exact (sound_probed sound rfl rfl rfl).1
    · exact sound_probeAgain sound rfl rfl rfl
    · exact sound_probeAgain sound rfl rfl rfl
  · cases taken

theorem sound_probe {act : Growth.Act} (sound : Sound opts rate s deducted) (taken : probeStep opts s act = some s') :
    Sound opts rate s' deducted := by
  obtain ⟨now,bank,conn,beneficiary,cycleIdx,lambdaMs,capped,tasks,phase⟩ := s
  unfold probeStep at taken
  split at taken
  · next at_ =>
    cases at_
    split at taken <;> cases taken <;> exact sound_calm sound ⟨rfl,rfl,rfl,rfl,rfl,rfl,fun _ => rfl⟩ trivial
  · next at_ =>
    cases at_
    split at taken
    · next wanted =>
      cases taken
      exact sound_calm sound ⟨rfl,rfl,rfl,rfl,rfl,rfl,id⟩ ⟨rfl,wanted.1,trivial⟩
    · cases taken
      exact sound_calm sound ⟨rfl,rfl,rfl,rfl,rfl,rfl,nofun⟩ trivial
  · next wake at_ =>
    cases at_
    split at taken <;> cases taken
    exact sound_calm sound ⟨rfl,rfl,rfl,rfl,rfl,rfl,id⟩ trivial
  · next at_ =>
    cases at_
    split at taken <;> cases taken <;> exact sound_calm sound ⟨rfl,rfl,rfl,rfl,rfl,rfl,nofun⟩ trivial
  · next round at_ =>
    cases at_
    split at taken
    · cases taken
      exact sound_calm sound ⟨rfl,rfl,rfl,rfl,rfl,rfl,id⟩ trivial
    · next owing =>
      cases taken
      refine sound_calm sound ⟨rfl,rfl,rfl,rfl,rfl,rfl,id⟩ ⟨rfl,.inr ?_,trivial⟩
      have some_ : ¬ conn.acct.balance - conn.prepaid = 0 := fun none_ => owing (.inr (.inl none_))
      show conn.acct.balance - conn.prepaid + conn.prepaid ≤ conn.acct.balance
      omega
  · next round wake at_ =>
    cases at_
    split at taken <;> cases taken
    exact sound_calm sound ⟨rfl,rfl,rfl,rfl,rfl,rfl,id⟩ trivial
  · next at_ =>
    cases at_
    split at taken <;> cases taken <;> exact sound_calm sound ⟨rfl,rfl,rfl,rfl,rfl,rfl,id⟩ trivial
  · next wake at_ =>
    cases at_
    split at taken <;> cases taken
    exact sound_calm sound ⟨rfl,rfl,rfl,rfl,rfl,rfl,id⟩ trivial
  · next units at_ =>
    cases at_
    cases taken
    exact sound_calm sound ⟨rfl,rfl,rfl,rfl,rfl,rfl,id⟩ trivial
  · cases taken

/-- What is known of a call does not depend on the debt. -/
theorem priced_same {cap units : Nat} {sweep : Bool} {p p' : Purse} {phase : Cheques.Phase}
    (priced : Priced cap rate p sweep units phase) (spent : p'.spent = p.spent) (deducted : p'.deducted = p.deducted) :
    Priced cap rate p' sweep units phase := by
  have amount : ∀ {announced plur : Nat}, Amount cap rate p sweep units announced plur →
      Amount cap rate p' sweep units announced plur := by
    rintro announced plur ⟨agreed,deduction,room⟩
    exact ⟨agreed,by rwa [deducted],by rwa [spent]⟩
  cases phase with
  | priced announced plur => exact amount priced
  | reserved announced plur before => exact ⟨amount priced.1,by rw [spent]; exact priced.2⟩
  | passed announced plur => exact ⟨amount priced.1,by rw [spent]; exact priced.2⟩
  | drawn announced plur cumulative | signed announced plur cumulative | written announced plur cumulative
  | flushed announced plur cumulative | recorded announced plur cumulative =>
    exact ⟨amount priced.1,by rw [spent]; exact priced.2⟩
  | ended result => cases result <;> exact priced
  | opening | preamble | refused | failed => exact priced

/-- A fetch that ends leaves what the probe knows. -/
theorem stands_landed {acct : Mirror} {tasks : List FetchTask} (stands : Stands opts rate s deducted)
    (more : s.conn.acct.balance ≤ acct.balance)
    (less : acct.balance + acct.reserved ≤ s.conn.acct.balance + s.conn.acct.reserved) :
    Stands opts rate { s with conn := { s.conn with acct := acct }, tasks := tasks } deducted := by
  obtain ⟨now,bank,conn,beneficiary,cycleIdx,lambdaMs,capped,old,phase⟩ := s
  cases phase with
  | asking l =>
    obtain ⟨small,projected⟩ := stands
    simp only at less small projected
    have part := Nat.mul_le_mul_left rate (show acct.balance + acct.reserved + opts.priceAt cycleIdx - conn.prepaid ≤
      conn.acct.balance + conn.acct.reserved + opts.priceAt cycleIdx - conn.prepaid by omega)
    refine ⟨?_,?_⟩
    · show acct.balance + acct.reserved + opts.priceAt cycleIdx < 2 ^ 64
      omega
    · show bank.issuedPlur + rate * (acct.balance + acct.reserved + opts.priceAt cycleIdx - conn.prepaid) ≤ _
      omega
  | quiet later debt wake => exact le_trans stands more
  | emitting purpose units call =>
    obtain ⟨own,covers,priced⟩ := stands
    refine ⟨own,?_,priced_same priced rfl rfl⟩
    cases purpose with
    | prepay => exact covers
    | pace | lambda | sweep => exact covers.imp_right fun owed => owed.trans more
  | _ => trivial

theorem sound_task {k : Nat} {ok : Bool} (sound : Sound opts rate s deducted) (taken : taskStep s k ok = some s') :
    Sound opts rate s' deducted := by
  unfold taskStep at taken
  split at taken
  · next price found =>
    cases taken
    have flown := total_set flying ⟨price,true⟩ found
    have flight : s.conn.acct.reserved = total flying (s.tasks.set k ⟨price,true⟩) + retrieved s.phase + price := by
      have reserved := sound.reserved
      simp only [flying,inFlight,if_true,Bool.false_eq_true,if_false] at flown reserved
      omega
    have small := sound.small
    cases ok with
    | true =>
      have served : s.conn.acct.apply price =
          ⟨s.conn.acct.balance + price,total flying (s.tasks.set k ⟨price,true⟩) + retrieved s.phase⟩ := by
        unfold Mirror.apply
        rw [satAdd_exact (by unfold u64Max; omega),flight,Nat.add_sub_cancel]
      simp only [if_true,served]
      refine sound_settle sound (.serve flight) ?_ rfl rfl rfl rfl rfl rfl id (stands_landed sound.stands ?_ ?_) <;>
        simp only <;> omega
    | false =>
      have freed : s.conn.acct.release price =
          ⟨s.conn.acct.balance,total flying (s.tasks.set k ⟨price,true⟩) + retrieved s.phase⟩ := by
        unfold Mirror.release
        rw [flight,Nat.add_sub_cancel]
      have entry : Entry opts.lim.maxIssuePlur rate (purse s deducted) { purse s deducted with
          balance := s.conn.acct.balance
          reserved := total flying (s.tasks.set k ⟨price,true⟩) + retrieved s.phase } := .fail flight
      simp only [Bool.false_eq_true,if_false,freed]
      refine sound_settle sound entry ?_ rfl rfl rfl rfl rfl rfl id (stands_landed sound.stands ?_ ?_) <;>
        simp only <;> omega
  · cases taken

/-- A call moves on, and the counter by what it counts. -/
theorem sound_calling {bank : Bank B} {purpose : Purpose} {units : Nat} {call call' : Call B}
    (sound : Sound opts rate s deducted) (at_ : s.phase = .emitting purpose units call) (small : bank.issuedPlur < 2 ^ 64)
    (counted : wrapSub bank.issuedPlur (counting call'.phase) = (purse s deducted).spent)
    (own : call'.debtUnits = call.debtUnits)
    (priced : Priced opts.lim.maxIssuePlur rate (purse s deducted) (sweeps purpose) units call'.phase) :
    Sound opts rate { s with bank := bank, phase := .emitting purpose units call' } deducted := by
  obtain ⟨now,old,conn,beneficiary,cycleIdx,lambdaMs,capped,tasks,phase⟩ := s
  cases at_
  obtain ⟨owns,covers,-⟩ := sound.stands
  have same : purse (⟨now,bank,conn,beneficiary,cycleIdx,lambdaMs,capped,tasks,.emitting purpose units call'⟩ : Probe B) deducted =
      purse ⟨now,old,conn,beneficiary,cycleIdx,lambdaMs,capped,tasks,.emitting purpose units call⟩ deducted := by
    unfold purse at counted ⊢
    simp only [Purse.mk.injEq,and_true]
    exact counted
  refine ⟨by rw [same]; exact sound.roomy,sound.reserved,sound.small,small,sound.agreed,by rw [same]; exact sound.within,
    ?_,own.trans owns,covers,by rw [same]; exact priced⟩
  cases purpose <;> exact sound.first

/-- A cheque that failed is taken back. -/
theorem sound_unsent {bank : Bank B} {purpose : Purpose} {units : Nat} {call : Call B} (sound : Sound opts rate s deducted)
    (at_ : s.phase = .emitting purpose units call) (small : bank.issuedPlur < 2 ^ 64)
    (counted : bank.issuedPlur = (purse s deducted).spent) :
    Sound opts rate (unsent { s with bank := bank } purpose) deducted := by
  obtain ⟨now,old,conn,beneficiary,cycleIdx,lambdaMs,capped,tasks,phase⟩ := s
  cases at_
  have same : ∀ phase' : Growth.Phase B, underway phase' = 0 →
      purse ⟨now,bank,conn,beneficiary,cycleIdx,lambdaMs,capped,tasks,phase'⟩ deducted =
        purse ⟨now,old,conn,beneficiary,cycleIdx,lambdaMs,capped,tasks,.emitting purpose units call⟩ deducted := by
    intro phase' idle
    unfold purse at counted ⊢
    simp only [Purse.mk.injEq,and_true,idle,wrapSub_zero small]
    exact counted
  have rest : ∀ (phase' : Growth.Phase B) (lambdaMs' : List (Option Nat)), underway phase' = 0 → retrieved phase' = 0 →
      (early phase' = true → conn.prepaid = 0) →
      Stands opts rate ⟨now,bank,conn,beneficiary,cycleIdx,lambdaMs',capped,tasks,phase'⟩ deducted →
      Sound opts rate ⟨now,bank,conn,beneficiary,cycleIdx,lambdaMs',capped,tasks,phase'⟩ deducted := by
    intro phase' lambdaMs' idle landed first stands
    have roomy := sound.roomy
    have within := sound.within
    rw [← same phase' idle] at roomy within
    refine ⟨roomy,?_,sound.small,small,sound.agreed,within,first,stands⟩
    show conn.acct.reserved = total flying tasks + retrieved phase'
    rw [landed]
    exact sound.reserved
  cases purpose with
  | pace l => exact rest (.closing l) lambdaMs rfl rfl sound.first trivial
  | lambda later => exact rest (.sampling later) _ rfl rfl sound.first trivial
  | prepay => exact rest .ceiling lambdaMs rfl rfl nofun trivial
  | sweep round => exact rest (.sweepPause (round + 1) (now + 2000 * ms)) lambdaMs rfl rfl nofun trivial

/-- The rate that is kept after a cheque is the one announced. -/
theorem agreed_after {known : Option Nat} {announced r : Nat} (low : rate ≤ defaultRate)
    (agreed : ∀ before ∈ known, before = rate) (same : announced = rate)
    (kept : r ∈ (known <|> some (min announced (2 ^ 128 - 1)))) : r = rate := by
  cases known with
  | some before => exact agreed r kept
  | none =>
    cases kept
    simp only [defaultRate] at low
    omega

/-- A sweep that went out turns debt into what was issued. -/
theorem sound_emitted {bank : Bank B} {conn : Conn} {purpose : Purpose} {units deduction plur r now cycleIdx : Nat} {call : Call B}
    {beneficiary : B} {lambdaMs : List (Option Nat)} {capped : Bool} {tasks : List FetchTask} {phase' : Growth.Phase B}
    (sound : Sound opts rate ⟨now,bank,conn,beneficiary,cycleIdx,lambdaMs,capped,tasks,.emitting purpose units call⟩ deducted)
    (covered : units = 0 ∨ units + conn.prepaid ≤ conn.acct.balance) (counts : counting call.phase = clamp64 plur)
    (amount : plur = rate * units + deduction)
    (room : wrapSub bank.issuedPlur (clamp64 plur) + plur ≤ opts.lim.maxIssuePlur)
    (known : ∀ rate' ∈ (conn.emitted now units r).exchangeRate, rate' = rate) (idle : underway phase' = 0)
    (landed : retrieved phase' = 0) (first : early phase' = true → conn.prepaid = 0)
    (stands : Stands opts rate ⟨now,bank,conn.emitted now units r,beneficiary,cycleIdx,lambdaMs,capped,tasks,phase'⟩
      (deducted + deduction)) :
    Sound opts rate ⟨now,bank,conn.emitted now units r,beneficiary,cycleIdx,lambdaMs,capped,tasks,phase'⟩
      (deducted + deduction) := by
  have capped64 := opts.lim.maxIssuePlur_lt
  have exact_ : clamp64 plur = plur := clamp64_exact (by omega)
  have issued : bank.issuedPlur = wrapSub bank.issuedPlur (clamp64 plur) + plur := calc
    bank.issuedPlur = wrapAdd (wrapSub bank.issuedPlur (clamp64 plur)) (clamp64 plur) :=
      (wrapAdd_wrapSub sound.issued (clamp64_lt plur)).symm
    _ = wrapSub bank.issuedPlur (clamp64 plur) + clamp64 plur := wrapAdd_exact (by omega)
    _ = wrapSub bank.issuedPlur (clamp64 plur) + plur := by omega
  have small : conn.acct.balance + conn.acct.reserved < 2 ^ 64 := sound.small
  have entry := @Entry.cheque opts.lim.maxIssuePlur rate (purse ⟨now,bank,conn,beneficiary,cycleIdx,lambdaMs,capped,tasks,
    .emitting purpose units call⟩ deducted) units deduction covered
  have after : purse (⟨now,bank,conn.emitted now units r,beneficiary,cycleIdx,lambdaMs,capped,tasks,phase'⟩ : Probe B)
      (deducted + deduction) = ⟨wrapSub bank.issuedPlur (clamp64 plur) + plur,conn.acct.balance - units,conn.acct.reserved,
        conn.prepaid,deducted + deduction⟩ := by
    unfold purse
    simp only [idle,wrapSub_zero sound.issued]
    rw [← issued]
    rfl
  have before : purse (⟨now,bank,conn,beneficiary,cycleIdx,lambdaMs,capped,tasks,.emitting purpose units call⟩ : Probe B)
      deducted = ⟨wrapSub bank.issuedPlur (clamp64 plur),conn.acct.balance,conn.acct.reserved,conn.prepaid,deducted⟩ := by
    rw [← counts]
    rfl
  rw [before] at entry
  have roomy := roomy_entry (before ▸ sound.roomy) entry
  refine ⟨?_,?_,?_,sound.issued,known,?_,first,stands⟩
  · rw [after,amount]
    rwa [amount] at roomy
  · show conn.acct.reserved = total flying tasks + retrieved phase'
    rw [landed]
    exact sound.reserved
  · show conn.acct.balance - units + conn.acct.reserved < 2 ^ 64
    omega
  · rw [after]
    exact room

/-- And a cheque in advance that went out covers what is owed later. -/
theorem sound_prepaid {bank : Bank B} {conn : Conn} {units deduction plur r now cycleIdx wake : Nat} {call : Call B}
    {beneficiary : B} {lambdaMs : List (Option Nat)} {capped : Bool} {tasks : List FetchTask}
    (sound : Sound opts rate ⟨now,bank,conn,beneficiary,cycleIdx,lambdaMs,capped,tasks,.emitting .prepay units call⟩ deducted)
    (some_ : 0 < units) (counts : counting call.phase = clamp64 plur) (amount : plur = rate * units + deduction)
    (deductions : (deducted + deduction) * 100 ≤ opts.lim.maxIssuePlur * 8)
    (passed : satAdd (wrapSub bank.issuedPlur (clamp64 plur)) (clamp64 plur) ≤ opts.lim.maxIssuePlur)
    (known : ∀ rate' ∈ (conn.prepaidBy now units r).exchangeRate, rate' = rate) :
    Sound opts rate ⟨now,bank,conn.prepaidBy now units r,beneficiary,cycleIdx,lambdaMs,capped,tasks,.prepayPause wake⟩
      (deducted + deduction) := by
  have capped64 := opts.lim.maxIssuePlur_lt
  have small : bank.issuedPlur < 2 ^ 64 := sound.issued
  have back : wrapAdd (wrapSub bank.issuedPlur (clamp64 plur)) (clamp64 plur) = bank.issuedPlur :=
    wrapAdd_wrapSub small (clamp64_lt plur)
  have before : purse (⟨now,bank,conn,beneficiary,cycleIdx,lambdaMs,capped,tasks,.emitting .prepay units call⟩ : Probe B)
      deducted = ⟨wrapSub bank.issuedPlur (clamp64 plur),conn.acct.balance,conn.acct.reserved,conn.prepaid,deducted⟩ := by
    rw [← counts]
    rfl
  have after : purse (⟨now,bank,conn.prepaidBy now units r,beneficiary,cycleIdx,lambdaMs,capped,tasks,.prepayPause wake⟩ : Probe B)
      (deducted + deduction) =
        ⟨bank.issuedPlur,conn.acct.balance,conn.acct.reserved,units,deducted + deduction⟩ := by
    unfold purse
    simp only [underway,wrapSub_zero small]
    rfl
  have roomy := sound.roomy
  have none_ : conn.prepaid = 0 := sound.first rfl
  rw [before] at roomy
  generalize base_ : wrapSub bank.issuedPlur (clamp64 plur) = base at *
  have counted : bank.issuedPlur = base + (rate * units + deduction) ∨ conn.acct.balance + conn.acct.reserved ≤ units := by
    rcases Nat.lt_or_ge units (conn.acct.balance + conn.acct.reserved) with above | under
    · have room := room_ahead roomy none_ (show units ≤ Purse.owed _ from above.le) deductions
      simp only at room
      refine .inl ?_
      rw [← amount] at room ⊢
      rw [← back,clamp64_exact (by omega),wrapAdd_exact (by omega)]
    · exact .inr under
  refine ⟨?_,sound.reserved,sound.small,small,known,?_,nofun,trivial⟩
  · rw [after]
    exact roomy_entry roomy (.prepay none_ some_ counted)
  · rw [after]
    show bank.issuedPlur ≤ opts.lim.maxIssuePlur
    unfold satAdd u64Max at passed
    unfold wrapAdd at back
    omega

/-- A sweep passes the comparison with the cap. -/
theorem sweep_passes {cap units announced plur : Nat} {p : Purse} (small : cap < 2 ^ 64)
    (amount : Amount cap rate p true units announced plur) : satAdd p.spent (clamp64 plur) ≤ cap := by
  have room := amount.room rfl
  rw [clamp64_exact (by omega)]
  exact (satAdd_le _ _).trans room

theorem wrapSub_lt (a b : Nat) : wrapSub a b < 2 ^ 64 := Nat.mod_lt _ (Nat.two_pow_pos 64)

/-- A sweep that is announced its deduction has room. -/
theorem sweep_room {conn : Conn} {purpose : Purpose} {units deduction now cycleIdx : Nat} {call : Call B} {bank : Bank B}
    {beneficiary : B} {lambdaMs : List (Option Nat)} {capped : Bool} {tasks : List FetchTask}
    (sound : Sound opts rate ⟨now,bank,conn,beneficiary,cycleIdx,lambdaMs,capped,tasks,.emitting purpose units call⟩ deducted)
    (counts : counting call.phase = 0) (sweep : sweeps purpose = true) (covers : Covers conn purpose units)
    (deductions : (deducted + deduction) * 100 ≤ opts.lim.maxIssuePlur * 8)
    (spare : units = 0 → 0 < deduction → bank.issuedPlur + deduction ≤ opts.lim.maxIssuePlur) :
    bank.issuedPlur + (rate * units + deduction) ≤ opts.lim.maxIssuePlur := by
  have spent := sound.spent counts
  have within := sound.within
  have roomy := sound.roomy
  unfold Covers at covers
  rw [if_pos sweep] at covers
  rw [spent] at within
  simp only at spent within
  rcases Nat.eq_zero_or_pos units with rfl | some_
  · rw [Nat.mul_zero,Nat.zero_add]
    rcases Nat.eq_zero_or_pos deduction with rfl | costs
    · exact within
    · exact spare rfl costs
  · have owed : units + conn.prepaid ≤ conn.acct.balance := covers.resolve_left some_.ne'
    have room := room_for roomy some_ owed deductions
    rwa [spent] at room

/-- What the peer and the clock do leaves the books alone. -/
theorem sound_around {now : Nat} {alive : Bool} {announced : Option U256} (sound : Sound opts rate s deducted) :
    Sound opts rate { s with now := now, conn := { s.conn with alive := alive, announced := announced } } deducted := by
  refine sound_calm sound ⟨rfl,rfl,rfl,rfl,rfl,rfl,id⟩ ?_
  obtain ⟨now',bank,conn,beneficiary,cycleIdx,lambdaMs,capped,tasks,phase⟩ := s
  have stands := sound.stands
  cases phase <;> exact stands

theorem sound_own {act : Growth.Act} (low : rate ≤ defaultRate) (sound : Sound opts rate s deducted)
    (ample : Ample opts (s,deducted) act)
    (taken : (paceStep opts s act).or ((sampleStep opts s act).or (probeStep opts s act)) = some s') :
    Sound opts rate s' deducted := by
  rw [Option.or_eq_some_iff,Option.or_eq_some_iff] at taken
  rcases taken with pace | ⟨-,sample | ⟨-,probe⟩⟩
  · exact sound_pace low sound ample.1 pace
  · exact sound_sample low sound ample.1 sample
  · exact sound_probe sound probe

theorem sound_start (opts : Options A) (rate now : Nat) (ledger : Finmap fun _ : B => U256) (beneficiary : B)
    (announced : Option U256) : Sound opts rate (start now ledger beneficiary announced) 0 := by
  have spent : (purse (start now ledger beneficiary announced) 0).spent = 0 := wrapSub_zero (Nat.two_pow_pos 64)
  have small : 0 < 2 ^ 64 := Nat.two_pow_pos 64
  refine ⟨.inl ?_,rfl,small,small,nofun,?_,fun _ => rfl,trivial⟩
  · have none_ : (purse (start now ledger beneficiary announced) 0).owed - 0 = 0 := rfl
    show _ + rate * ((purse (start now ledger beneficiary announced) 0).owed - 0) ≤ _
    rw [spent,none_,Nat.mul_zero]
    exact Nat.zero_le _
  · rw [spent]
    exact Nat.zero_le _

/-- Between two cheques there is room, or the surplus covers what is owed. -/
theorem Sound.room (sound : Sound opts rate s deducted) (between : emits s.phase = false) :
    s.bank.issuedPlur + rate * (s.conn.acct.balance + s.conn.acct.reserved - s.conn.prepaid) ≤
        opts.lim.maxIssuePlur * 92 / 100 + deducted ∨ s.conn.acct.balance + s.conn.acct.reserved ≤ s.conn.prepaid := by
  have idle : underway s.phase = 0 := by
    cases at_ : s.phase with
    | emitting purpose units call => rw [at_] at between; cases between
    | _ => rfl
  have roomy := sound.roomy
  unfold Roomy at roomy
  rw [sound.spent idle] at roomy
  exact roomy.imp_right And.right

/-- Only the cheque in advance can be refused by the spend guard. -/
theorem Sound.refused (sound : Sound opts rate s deducted) {purpose : Purpose} {units plur : Nat} {call : Call B}
    (at_ : s.phase = .emitting purpose units call) (refused : call.phase = .refused plur) : purpose = .prepay := by
  have stands := sound.stands
  unfold Stands at stands
  rw [at_] at stands
  obtain ⟨-,-,priced⟩ := stands
  rw [refused] at priced
  cases purpose with
  | prepay => rfl
  | pace | lambda | sweep => cases priced

variable [DecidableEq B]

theorem sound_emit {act : CallAct} (low : rate ≤ defaultRate) (sound : Sound opts rate s deducted)
    (steady : Steady opts rate (s,deducted) (.cheque act)) (ample : Ample opts (s,deducted) (.cheque act))
    (taken : emitStep opts s act = some s') : Sound opts rate s' (deducted + paid s (.cheque act)) := by
  obtain ⟨now,bank,conn,beneficiary,cycleIdx,lambdaMs,capped,tasks,phase⟩ := s
  unfold emitStep at taken
  split at taken
  · next purpose units call at_ =>
    cases at_
    split at taken
    · cases taken
    · next bank' call' stepped =>
      obtain ⟨moves,-,own⟩ := callStep_moves stepped
      obtain ⟨owns,covers,priced⟩ := sound.stands
      have capped64 := opts.lim.maxIssuePlur_lt
      obtain ⟨b,debt,stage⟩ := call
      obtain ⟨b',debt',stage'⟩ := call'
      simp only at owns own
      simp only at moves
      cases moves with
      | opened here =>
        cases here
        cases taken
        exact sound_calling sound rfl sound.issued rfl own trivial
      | unopened here | unanswered here | rateless here | unpriced here amount =>
        cases here
        cases taken
        exact sound_unsent sound rfl sound.issued (sound.spent rfl).symm
      | @priced announced deduction plur here amount =>
        cases here
        cases taken
        obtain ⟨rfl,deductions⟩ := steady
        have plur_ := chequeAmount_ok amount
        simp only [owns] at plur_
        refine sound_calling sound rfl sound.issued rfl own ⟨rfl,⟨_,plur_,deductions⟩,fun sweep => ?_⟩
        show wrapSub bank.issuedPlur 0 + plur ≤ _
        rw [wrapSub_zero sound.issued,plur_]
        refine sweep_room sound rfl sweep covers deductions fun none_ costs => ?_
        subst none_
        exact ample.2 costs
      | @reserved announced plur here =>
        cases here
        cases taken
        refine sound_calling sound rfl (wrapAdd_lt _ _) ?_ own ⟨priced,(sound.spent rfl).symm⟩
        show wrapSub (wrapAdd bank.issuedPlur (clamp64 plur)) (clamp64 plur) = wrapSub bank.issuedPlur 0
        rw [wrapSub_wrapAdd sound.issued (clamp64_lt plur),wrapSub_zero sound.issued]
      | @refused announced plur before here past =>
        cases here
        cases taken
        refine sound_calling sound rfl sound.issued rfl own ?_
        obtain ⟨amount,same⟩ := priced
        show sweeps purpose = false
        by_contra sweep
        rw [Bool.not_eq_false] at sweep
        have within := sweep_passes capped64 (sweep ▸ amount)
        rw [← same] at within
        exact absurd past (not_lt.mpr within)
      | passed here within =>
        cases here
        cases taken
        obtain ⟨amount,same⟩ := priced
        rw [same] at within
        exact sound_calling sound rfl sound.issued rfl own ⟨amount,within⟩
      | givenUp here | givenBack here =>
        cases here
        cases taken
        exact sound_unsent sound rfl (wrapSub_lt _ _) rfl
      | undrawn here | unsigned here | unwritten here | unflushed here =>
        cases here
        cases taken
        exact sound_calling sound rfl sound.issued rfl own trivial
      | drawn here | signed here | written here | flushed here | recorded here =>
        cases here
        cases taken
        exact sound_calling sound rfl sound.issued rfl own priced
      | @ended announced plur cumulative here =>
        cases here
        cases taken
        obtain ⟨⟨rfl,⟨deduction,plur_,deductions⟩,room⟩,passed⟩ := priced
        have paid_ : paid (⟨now,bank,conn,beneficiary,cycleIdx,lambdaMs,capped,tasks,
            .emitting purpose units ⟨b,debt,.recorded announced plur cumulative⟩⟩ : Probe B) (.cheque .go) = deduction := by
          show plur - announced * units = deduction
          omega
        have known : ∀ r ∈ (conn.exchangeRate <|> some (min announced (2 ^ 128 - 1))), r = announced :=
          fun r kept => agreed_after low sound.agreed rfl kept
        rw [paid_]
        cases purpose with
        | prepay => exact sound_prepaid sound covers rfl plur_ deductions passed known
        | pace l => exact sound_emitted sound covers rfl plur_ (room rfl) known rfl rfl sound.first trivial
        | lambda later => exact sound_emitted sound covers rfl plur_ (room rfl) known rfl rfl sound.first trivial
        | sweep round => exact sound_emitted sound covers rfl plur_ (room rfl) known rfl rfl nofun trivial
  · cases taken

theorem sound_step (low : rate ≤ defaultRate) (st : Probe B × Nat) (act : Growth.Act) (next : Probe B × Nat)
    (sound : Sound opts rate st.1 st.2) (met : Steady opts rate st act ∧ Ample opts st act)
    (taken : auditStep opts st act = some next) : Sound opts rate next.1 next.2 := by
  obtain ⟨s',stepped,rfl⟩ := Option.map_eq_some_iff.mp taken
  cases act with
  | cheque act => exact sound_emit low sound met.1 met.2 stepped
  | task k ok => exact sound_task sound stepped
  | hangUp => cases stepped; exact sound_around sound
  | announce t => cases stepped; exact sound_around sound
  | clock now =>
    simp only [growthStep] at stepped
    split at stepped <;> cases stepped
    exact sound_around sound
  | go | answer ok | accepted units => exact sound_own low sound met.2 stepped

end

/-- The spend gate of `probe_growth` leaves room for its sweeps. -/
theorem sweeps_have_room [DecidableEq B] (opts : Options A) (rate now : Nat) (low : rate ≤ 100000)
    (ledger : Finmap fun _ : B => U256) (beneficiary : B) (announced : Option U256) (acts : List Growth.Act)
    (s : Probe B) (deducted : Nat)
    (steady : Meets (auditStep opts) (Steady opts rate) (start now ledger beneficiary announced,0) acts)
    (ample : Meets (auditStep opts) (Ample opts) (start now ledger beneficiary announced,0) acts)
    (reached : run (auditStep opts) (start now ledger beneficiary announced,0) acts = some (s,deducted)) :
    (emits s.phase = false →
      s.bank.issuedPlur + rate * (s.conn.acct.balance + s.conn.acct.reserved - s.conn.prepaid) ≤
          opts.lim.maxIssuePlur * 92 / 100 + deducted ∨
        s.conn.acct.balance + s.conn.acct.reserved ≤ s.conn.prepaid) ∧
      ∀ purpose units plur call, s.phase = .emitting purpose units call → call.phase = .refused plur →
        purpose = .prepay := by
  have sound : Sound opts rate s deducted := @run_guarded (Probe B × Nat) Growth.Act (auditStep opts)
    (fun st act => Steady opts rate st act ∧ Ample opts st act) (fun st => Sound opts rate st.1 st.2) (sound_step low) _ _ _
    (sound_start opts rate now ledger beneficiary announced) (meets_and steady ample) reached
  exact ⟨sound.room,fun purpose units plur call at_ refused => sound.refused at_ refused⟩

/-- Twenty chunks at 320000 units, no growth phase and no latency samples. -/
def probing (maxIssuePlur : Fin (2 ^ 64)) (prepayUnits : Fin (2 ^ 64)) : Options Unit where
  lim := ⟨2 ^ 255,maxIssuePlur.val,maxIssuePlur.isLt⟩
  pipelineDepth := 1
  growthSecs := 0
  ceilingSecs := 60
  lambdaSamples := 0
  prepayUnits := prepayUnits.val
  prepayUnits_lt := prepayUnits.isLt
  chunks := List.replicate 20 ()
  enough := by decide
  peerPrice := fun _ => 320000

/-- The moves of a cheque that goes out. -/
def going (deduction : U256) : List Growth.Act := (Cheques.reserving 100000 deduction ++ signing ++ finishing).map .cheque

/-- One fetch of the ceiling phase is served and paid for. -/
def oneFetch : List Growth.Act :=
  ([.go,.go,.go,.go,.go,.go,.go,.go,.task 0 true,.go,.accepted none,.go] : List Growth.Act) ++ going 500

theorem sweeps_have_room_oneFetch : ∃ s deducted,
    run (auditStep (probing 1000000000000 0)) (start 0 ∅ (1 : BitVec 160) none,0) oneFetch = some (s,deducted) ∧
      (s.bank.issuedPlur,deducted) = (32000000500,500) ∧
      (s.bank.issuedPlur + 100000 * (s.conn.acct.balance + s.conn.acct.reserved - s.conn.prepaid) ≤
          1000000000000 * 92 / 100 + deducted ∨
        s.conn.acct.balance + s.conn.acct.reserved ≤ s.conn.prepaid) := by
  have ends : (run (auditStep (probing 1000000000000 0)) (start 0 ∅ (1 : BitVec 160) none,0) oneFetch).map
      (fun st => (emits st.1.phase,st.1.bank.issuedPlur,st.2)) = some (false,32000000500,500) := by decide +kernel
  obtain ⟨⟨s,deducted⟩,reached,last⟩ := Option.map_eq_some_iff.mp ends
  simp only [Prod.mk.injEq] at last
  refine ⟨s,deducted,reached,by rw [last.2.1,last.2.2],?_⟩
  exact (sweeps_have_room (probing 1000000000000 0) 100000 0 (by decide) ∅ (1 : BitVec 160) none oneFetch s deducted
    (by decide +kernel) (by decide +kernel) reached).1 last.1

/-- A cheque in advance that takes the whole cap, and the ceiling phase with a threshold
    below five: a cheque over nothing is due, with a deduction of one. -/
def overNothing : List Growth.Act :=
  ([.go,.go,.go] : List Growth.Act) ++ going 100000 ++
    ([.clock (5000 * ms),.go,.go,.go,.go,.go,.go] : List Growth.Act) ++ (Cheques.reserving 100000 1).map .cheque ++
    ([.cheque .go] : List Growth.Act)

/-- The units of a sweep that was refused by the spend guard. -/
def refusedUnits {B : Type} : Growth.Phase B → Option Nat
  | .emitting purpose units ⟨_,_,.refused _⟩ => if sweeps purpose then some units else none
  | _ => none

theorem refused :
    Meets (auditStep (probing 1000000000 9999)) (Steady (probing 1000000000 9999) 100000)
        (start 0 ∅ (1 : BitVec 160) (some 4),0) overNothing ∧
      (run (auditStep (probing 1000000000 9999)) (start 0 ∅ (1 : BitVec 160) (some 4),0) overNothing).map
        (fun st => (refusedUnits st.1.phase,st.1.conn.acct.balance - st.1.conn.prepaid)) = some (some 0,0) := by
  decide +kernel

end Directswarm.SweepRoom
