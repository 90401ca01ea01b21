import Mathlib
import Directswarm.GrowthOverflow
import Directswarm.Exposure

/-!
What the peer of `probe_growth` sees of our debt (`growth.rs`), over all interleavings.
The probe paces its phases in three ways. In the growth phase it owes at most half the
threshold and waits longer between two cheques than one is validated, so that at most
one is out; a latency sample owes at most half of it again, and ends late enough for the
cheques before its own; the ceiling phase counts the cheques within its window. So a peer
that validates in time never sees more than 105% of its threshold (`view_bounded`).
-/
namespace Directswarm.GrowthView
open Directswarm.Words Directswarm.Runs Directswarm.Interleaving Directswarm.Cheques Directswarm.Pacing Directswarm.Growth
open Directswarm.SweepRoom (early grows inFlight retrieved flying_filter track_grows)
open Directswarm.Accounts (Account Terms Payment Entry Covered covered_entry)
open Directswarm.Exposure (Peer hear units units_append units_eraseIdx units_sublist sublist_dropWhile within_reserve)

variable {A B : Type}

/-! ### The probe and its peer -/

/-- The price of the fetch that returns a chunk in a step. -/
def served (s : Probe B) (act : Growth.Act) : Nat :=
  match act, s.phase with
  | .task k true, _ =>
    match s.tasks[k]? with
    | some ⟨price,false⟩ => price
    | _ => 0
  | .answer true, .retrieving _ _ _ price => price
  | _, _ => 0

/-- What a step pays: a cheque that went out, or a refresh that was accepted. -/
def payment (s : Probe B) (act : Growth.Act) : Payment :=
  match act, s.phase with
  | .cheque .go, .emitting _ units ⟨_,_,.recorded _ _ _⟩ => .cheque units
  | .accepted units, .refreshing _ => .refresh ((units.map Fin.val).getD 0)
  | _, _ => .none

/-- A probe with what it consumed and paid, and its peer. -/
structure Watched (B : Type) where
  probe : Probe B
  consumed : Nat
  paid : Nat
  peer : Peer

/-- The probe takes a step; or the peer charges or drops a charge, credits something, or
    has validated a cheque. -/
inductive Event
  | own (act : Growth.Act)
  | charge (total : Nat)
  | credit (units : Nat)
  | validate (k : Nat)

def watch [DecidableEq B] (opts : Options A) (w : Watched B) : Event → Option (Watched B)
  | .own act => (growthStep opts w.probe act).map fun s =>
      ⟨s,w.consumed + served w.probe act,w.paid + (payment w.probe act).units,hear w.peer w.probe.now (payment w.probe act)⟩
  | .charge total => some { w with peer := { w.peer with charged := total } }
  | .credit units => some { w with peer := { w.peer with credited := w.peer.credited + units } }
  | .validate k =>
    match w.peer.validating[k]? with
    | none => none
    | some entry => some { w with
        peer := { w.peer with
          credited := w.peer.credited + entry.2
          validating := w.peer.validating.eraseIdx k } }

/-! ### The books of a probe -/

/-- The window that a step counts with: the ceiling phase asks its gate with its own. -/
def window (s : Probe B) : Nat :=
  match s.phase with
  | .asking l =>
    match l.mode with
    | .growth => s.now
    | .ceiling window => window
  | _ => s.now

/-- 105% of the threshold that the ceiling phase has seen. -/
def gated : Growth.Phase B → Nat
  | .asking l => wrapMul l.lastThreshold 105 / 100
  | _ => 0

/-- Half the threshold that the growth phase or a latency sample has seen. -/
def half : Growth.Phase B → Nat
  | .asking l => if grows l then l.lastThreshold / 2 else 0
  | .building _ threshold _ => threshold / 2
  | _ => 0

/-- The gate of the ceiling phase is asked. -/
def soars : Growth.Phase B → Bool
  | .asking l => !grows l
  | _ => false

def terms (s : Probe B) : Terms := ⟨s.now,window s,gated s.phase,half s.phase,soars s.phase⟩

def account (s : Probe B) : Account := ⟨s.conn.acct,s.conn.prepaid,s.conn.unvalidated,inFlight s⟩

/-- A cheque is validated before the growth phase or a sample may count on it, and within
    the window with which the ceiling phase counts. -/
def Prompt (s : Probe B) (sentAt : Nat) : Prop :=
  (early s.phase = true → s.now - sentAt < growthChequeInterval) ∧ s.now - sentAt ≤ window s

/-- The peer charges only what was served or is in flight, and validates in time. -/
structure Fair (w : Watched B) : Prop where
  charged : w.peer.charged ≤ w.consumed + inFlight w.probe
  validated : ∀ entry ∈ w.peer.validating, Prompt w.probe entry.1

/-- The threshold does not fall. -/
def Growing (w : Watched B) : Event → Prop
  | .own (.announce t) => w.probe.conn.threshold ≤ { w.probe.conn with announced := some t }.threshold
  | _ => True

/-- The gate of the ceiling phase compares the sums that it is meant to compare. -/
def GateSound (s : Probe B) : Prop :=
  soars s.phase = true → (account s).limit (terms s) < u64Max ∧ units ((account s).prune (terms s)).queue < 2 ^ 64

/-- What every step is taken under. -/
def Guarded (w : Watched B) (event : Event) : Prop := Fair w ∧ Growing w event ∧ GateSound w.probe

instance (s : Probe B) (sentAt : Nat) : Decidable (Prompt s sentAt) := inferInstanceAs (Decidable (_ ∧ _))

instance (w : Watched B) : Decidable (Fair w) :=
  decidable_of_iff (w.peer.charged ≤ w.consumed + inFlight w.probe ∧ ∀ entry ∈ w.peer.validating, Prompt w.probe entry.1)
    ⟨fun both => ⟨both.1,both.2⟩,fun fair => ⟨fair.1,fair.2⟩⟩

instance (w : Watched B) : (event : Event) → Decidable (Growing w event)
  | .own (.announce _) => inferInstanceAs (Decidable (_ ≤ _))
  | .own .go | .own (.answer _) | .own (.accepted _) | .own (.cheque _) | .own (.task _ _) | .own .hangUp | .own (.clock _)
  | .charge _ | .credit _ | .validate _ => isTrue trivial

instance (w : Watched B) (event : Event) : Decidable (Guarded w event) :=
  inferInstanceAs (Decidable (_ ∧ _ ∧ (_ → _)))

/-- 105% of the threshold. -/
def bound (s : Probe B) : Nat := s.conn.threshold * 105 / 100

/-! ### What the postings keep -/

/-- What was consumed and is in flight, less what was paid and is not validated, is within
    the gate; and the peer is missing what it validates. -/
structure Viewed (consumed paid gate : Nat) (a : Account) (peer : Peer) : Prop where
  within : consumed + a.inFlight + units peer.validating ≤ paid + gate
  credited : paid ≤ peer.credited + units peer.validating
  validating : peer.validating.Sublist a.queue

section Entries
variable {consumed paid gate price : Nat} {pays : Payment} {t : Terms} {a a' : Account} {peer : Peer}

theorem viewed_bound (viewed : Viewed consumed paid gate a peer) (fair : peer.charged ≤ consumed + a.inFlight) :
    peer.charged ≤ peer.credited + gate := by
  have within := viewed.within
  have credited := viewed.credited
  omega

theorem viewed_mono {gate' : Nat} (viewed : Viewed consumed paid gate a peer) (wider : gate ≤ gate') :
    Viewed consumed paid gate' a peer :=
  ⟨viewed.within.trans (by omega),viewed.credited,viewed.validating⟩

/-- A reservation leaves room for the cheques that are validating. -/
theorem viewed_reserve {limit : Nat} {mirror : Mirror} (covered : Covered 0 consumed paid a)
    (viewed : Viewed consumed paid gate a peer) (low : limit < u64Max)
    (reserved : a.mirror.tryReserve price limit = some mirror)
    (room : 0 < limit → limit + units peer.validating ≤ a.prepaid + gate) :
    consumed + (a.inFlight + price) + units peer.validating ≤ paid + gate := by
  have whole : Covered 0 consumed paid { a with queue := peer.validating } := ⟨covered.reserved,covered.fits,covered.owed⟩
  have within := within_reserve whole low reserved room le_rfl (by simpa using viewed.within)
  simpa using within

theorem viewed_entry (covered : Covered 0 consumed paid a) (viewed : Viewed consumed paid gate a peer)
    (entry : Entry t a price pays a') (validated : ∀ entry ∈ peer.validating, t.now - entry.1 ≤ t.window)
    (scaled : t.gate ≤ gate)
    (sound : t.asks = true → a.limit t < u64Max ∧ units (a.prune t).queue < 2 ^ 64)
    (measuring : 0 < t.half → t.half + units peer.validating ≤ gate) (low : t.half < u64Max) :
    Viewed (consumed + price) (paid + pays.units) gate a' (hear peer t.now pays) := by
  have young : peer.validating.Sublist (a.prune t).queue :=
    sublist_dropWhile viewed.validating fun entry member => by simpa using validated entry member
  obtain ⟨within,credited,validating⟩ := viewed
  cases entry with
  | none => exact ⟨within,credited,validating⟩
  | prune => exact ⟨within,credited,young⟩
  | @admitOne price mirror asked reserved =>
    obtain ⟨exact_,fits⟩ := sound asked
    refine ⟨viewed_reserve covered ⟨within,credited,validating⟩ exact_ reserved fun positive => ?_,credited,young⟩
    have sum : ((a.prune t).queue.map Prod.snd).foldl wrapAdd 0 = units (a.prune t).queue := foldl_wrapAdd fits
    have small := wrapAdd_le a.prepaid t.gate
    have fewer := units_sublist young
    show a.limit t + units peer.validating ≤ a.prepaid + gate
    unfold Account.limit at positive ⊢
    rw [sum] at positive ⊢
    omega
  | @measure price mirror reserved =>
    refine ⟨viewed_reserve covered ⟨within,credited,validating⟩ low reserved fun positive => ?_,credited,validating⟩
    have room := measuring positive
    show t.half + units peer.validating ≤ a.prepaid + gate
    omega
  | @serve price rest flying | @fail price rest flying =>
    refine ⟨?_,credited,validating⟩
    simp only [Payment.units,hear]
    omega
  | @cheque paid_ | @prepay paid_ =>
    have one : units [(t.now,paid_)] = paid_ := by simp [units]
    refine ⟨?_,?_,validating.append (List.Sublist.refl _)⟩
    · simp only [hear,units_append,one,Payment.units]
      omega
    · simp only [hear,units_append,one,Payment.units]
      omega
  | @refresh paid_ =>
    refine ⟨?_,?_,validating⟩ <;> simp only [hear,Payment.units] <;> omega

/-- The first cheque in advance. -/
theorem entry_prepay {ahead : Nat} (unpaid : a.prepaid = 0) (small : ahead < 2 ^ 64) :
    Entry t a 0 (.cheque ahead) { a with prepaid := ahead, queue := a.queue ++ [(t.now,ahead)] } := by
  have whole : wrapAdd a.prepaid ahead = ahead := by rw [unpaid,wrapAdd_exact (by omega),Nat.zero_add]
  have entry : Entry t a 0 (.cheque ahead)
      { a with prepaid := wrapAdd a.prepaid ahead, queue := a.queue ++ [(t.now,ahead)] } := .prepay
  rwa [whole] at entry

/-- What is owed and in flight stays within half the threshold while nothing else is reserved. -/
theorem low_entry {top : Nat} (covered : Covered 0 consumed paid a) (small : a.mirror.balance + a.inFlight ≤ top)
    (still : t.asks = false) (under : t.half ≤ top) (low : t.half < u64Max) (entry : Entry t a price pays a') :
    a'.mirror.balance + a'.inFlight ≤ top := by
  have reserved_ := covered.reserved
  cases entry with
  | none | prune | prepay => exact small
  | admitOne asked reserved =>
    rw [still] at asked
    cases asked
  | measure reserved =>
    obtain ⟨sum,rfl⟩ := Mirror.tryReserve_exact low reserved
    simp only
    omega
  | @serve price rest flying =>
    have sum := satAdd_le a.mirror.balance price
    simp only [Mirror.apply]
    omega
  | fail flying =>
    simp only [Mirror.release]
    omega
  | cheque | refresh =>
    simp only [Mirror.credit]
    omega

end Entries

/-! ### Where the probe stands -/

/-- What a latency sample waits before its cheque. -/
def quietTime : Nat := 1200 * ms

/-- The cheques of a time on are over no more than so many units, and the others went out
    before the quiet time. -/
structure Lapsing (top t0 : Nat) (validating : List (Nat × Nat)) : Prop where
  own : units (validating.filter fun entry => t0 ≤ entry.1) ≤ top
  older : ∀ entry ∈ validating, entry.1 < t0 → entry.1 + quietTime ≤ t0

/-- What is known of the cheques that are validating, by where the probe stands. -/
def Stands (s : Probe B) (validating : List (Nat × Nat)) : Prop :=
  match s.phase with
  | .begin_ => validating = []
  | .turn l | .spawning l | .asking l | .joining l | .refreshing l | .settling l | .closing l | .sleeping l _ =>
    grows l = true → (∀ entry ∈ validating, s.conn.lastCheque = some entry.1) ∧ units validating ≤ s.conn.threshold / 2
  | .emitting (.pace l) pays _ => grows l = true → validating = [] ∧ pays ≤ s.conn.threshold / 2
  | .sampling _ | .building _ _ _ | .retrieving _ _ _ _ | .resting _ _ _ _ | .built _ => units validating ≤ s.conn.threshold / 2
  | .quiet _ debt wake => (∀ entry ∈ validating, entry.1 + quietTime ≤ wake) ∧ debt ≤ s.conn.threshold / 2 ∧
      units validating ≤ s.conn.threshold / 2
  | .emitting (.lambda _) pays _ => (∀ entry ∈ validating, entry.1 + quietTime ≤ s.now) ∧ pays ≤ s.conn.threshold / 2 ∧
      units validating ≤ s.conn.threshold / 2
  | .probePause _ t0 zeroAt wake => Lapsing (s.conn.threshold / 2) t0 validating ∧ t0 + lambdaProbeInterval ≤ wake ∧
      (zeroAt.isSome = true → t0 + 2 * lambdaProbeInterval ≤ wake)
  | .probing _ t0 zeroAt => Lapsing (s.conn.threshold / 2) t0 validating ∧ t0 + lambdaProbeInterval ≤ s.now ∧
      (zeroAt.isSome = true → t0 + 2 * lambdaProbeInterval ≤ s.now)
  | .emitting .prepay pays _ => pays < 2 ^ 64
  | _ => True

/-- The thresholds that the phases have seen are at most the one announced. -/
def Tracked (s : Probe B) : Prop :=
  match s.phase with
  | .turn l | .spawning l | .asking l | .joining l | .refreshing l | .settling l | .closing l | .sleeping l _
  | .emitting (.pace l) _ _ => l.lastThreshold ≤ s.conn.threshold
  | .building _ threshold _ | .retrieving _ threshold _ _ | .resting _ threshold _ _ => threshold ≤ s.conn.threshold
  | _ => True

/-- What is known before a step. -/
structure Ready (s : Probe B) (validating : List (Nat × Nat)) : Prop where
  tracked : Tracked s
  stands : Stands s validating
  first : early s.phase = true → s.conn.prepaid = 0
  low : early s.phase = true → s.conn.acct.balance + inFlight s ≤ s.conn.threshold / 2
  past : ∀ entry ∈ validating, entry.1 ≤ s.now

/-- What the peer is validating after a step. -/
def heard (s : Probe B) (act : Growth.Act) (validating : List (Nat × Nat)) : List (Nat × Nat) :=
  match payment s act with
  | .cheque pays => validating ++ [(s.now,pays)]
  | _ => validating

/-- What a step does: it posts one entry, and knows where it stands. -/
structure Goes (s : Probe B) (act : Growth.Act) (validating : List (Nat × Nat)) (s' : Probe B) : Prop where
  entry : Entry (terms s) (account s) (served s act) (payment s act) (account s')
  onward : early s'.phase = true → early s.phase = true ∧ s'.conn.prepaid = s.conn.prepaid
  tracked : Tracked s'
  stands : Stands s' (heard s act validating)
  threshold : s.conn.threshold ≤ s'.conn.threshold
  now : s.now ≤ s'.now

section Steps
variable {opts : Options A} {s s' : Probe B} {act : Growth.Act} {v : List (Nat × Nat)}

/-- The clock, the peer and the fetches leave what is known. -/
theorem stands_frame {v' : List (Nat × Nat)} (stands : Stands s v) (phase : s'.phase = s.phase)
    (cheque : s'.conn.lastCheque = s.conn.lastCheque) (threshold : s.conn.threshold ≤ s'.conn.threshold) (now : s.now ≤ s'.now)
    (fewer : v'.Sublist v) : Stands s' v' := by
  have less := units_sublist fewer
  have lapse : ∀ {t0 : Nat}, Lapsing (s.conn.threshold / 2) t0 v → Lapsing (s'.conn.threshold / 2) t0 v' := by
    rintro t0 ⟨own,older⟩
    have own' := units_sublist (fewer.filter fun entry => decide (t0 ≤ entry.1))
    exact ⟨by omega,fun entry member => older entry (fewer.subset member)⟩
  obtain ⟨now_,bank,conn,beneficiary,cycleIdx,lambdaMs,capped,tasks,phase_⟩ := s
  obtain ⟨now',bank',conn',beneficiary',cycleIdx',lambdaMs',capped',tasks',phase'⟩ := s'
  simp only at phase cheque threshold now lapse
  subst phase
  cases phase' with
  | begin_ =>
    have none_ : v = [] := stands
    subst none_
    exact List.sublist_nil.mp fewer
  | turn l | spawning l | asking l | joining l | refreshing l | settling l | closing l | sleeping l wake =>
    intro growing
    obtain ⟨known,small⟩ := stands growing
    simp only at known small ⊢
    exact ⟨fun entry member => cheque.trans (known entry (fewer.subset member)),by omega⟩
  | sampling n | building n threshold_ deadline | retrieving n threshold_ deadline price | resting n threshold_ deadline wake
  | built n =>
    have small : units v ≤ conn.threshold / 2 := stands
    show units v' ≤ conn'.threshold / 2
    omega
  | quiet later debt wake =>
    obtain ⟨old,small,few⟩ := stands
    simp only at small few
    exact ⟨fun entry member => old entry (fewer.subset member),by simp only; omega,by simp only; omega⟩
  | probePause later t0 zeroAt wake => exact ⟨lapse stands.1,stands.2⟩
  | probing later t0 zeroAt => exact ⟨lapse stands.1,stands.2.1.trans now,fun twice => (stands.2.2 twice).trans now⟩
  | emitting purpose pays call =>
    cases purpose with
    | pace l =>
      intro growing
      obtain ⟨none_,small⟩ := stands growing
      subst none_
      simp only at small
      exact ⟨List.sublist_nil.mp fewer,by simp only; omega⟩
    | lambda later =>
      obtain ⟨old,small,few⟩ := stands
      simp only at small few
      exact ⟨fun entry member => (old entry (fewer.subset member)).trans now,by simp only; omega,by simp only; omega⟩
    | prepay => exact stands
    | sweep round => trivial
  | _ => trivial

/-- The step is not one of the phases that is spoken of. -/
theorem elsewhere {p : Prop} (here : false = true) : p := absurd here Bool.false_ne_true

/-- A step that leaves the books alone. -/
theorem goes_calm (serves : served s act = 0) (free : payment s act = .none) (books : account s' = account s)
    (onward : early s'.phase = true → early s.phase = true) (tracked : Tracked s') (stands : Stands s' v)
    (announced : s'.conn.announced = s.conn.announced) (now : s'.now = s.now) : Goes s act v s' where
  entry := by
    rw [serves,free,books]
    exact .none
  onward here := ⟨onward here,congrArg Account.prepaid books⟩
  tracked := tracked
  stands := by
    unfold heard
    rw [free]
    exact stands
  threshold := by
    unfold Growth.Conn.threshold
    rw [announced]
  now := now.ge

theorem track_last (l : Loop) (s : Probe B) : (l.track s).lastThreshold = s.conn.threshold := by
  unfold Loop.track
  by_cases same : s.conn.threshold = l.lastThreshold
  · simp only [same,if_true,apply_ite Loop.lastThreshold,ite_self]
  · simp only [if_neg same,apply_ite Loop.lastThreshold,ite_self]

/-- The growth phase sends a cheque when the one before is validated. -/
theorem due_validated {l : Loop} (growing : grows l = true) (known : ∀ entry ∈ v, s.conn.lastCheque = some entry.1)
    (prompt : ∀ entry ∈ v, s.now - entry.1 < growthChequeInterval) (due : (wantCheque s l).1 = true) : v = [] := by
  obtain ⟨mode,started,wallCap,lastThreshold,lastUpgrade,stopping,capped⟩ := l
  cases mode with
  | ceiling w => cases growing
  | growth =>
    refine List.eq_nil_iff_forall_not_mem.mpr fun entry member => ?_
    have young := prompt entry member
    simp only [wantCheque,known entry member,Pacer.isDue,Option.all_some,Bool.and_eq_true,decide_eq_true_eq] at due
    omega

theorem due_little {l : Loop} (growing : grows l = true) (seen : l.lastThreshold ≤ s.conn.threshold) :
    (wantCheque s l).2 ≤ s.conn.threshold / 2 := by
  obtain ⟨mode,started,wallCap,lastThreshold,lastUpgrade,stopping,capped⟩ := l
  cases mode with
  | ceiling w => cases growing
  | growth =>
    simp only [wantCheque] at seen ⊢
    omega

theorem goes_pace (ready : Ready s v) (prompt : ∀ entry ∈ v, Prompt s entry.1) (taken : paceStep opts s act = some s') :
    Goes s act v s' := by
  obtain ⟨tracked,stands,first,low,past⟩ := ready
  obtain ⟨now,bank,conn,beneficiary,cycleIdx,lambdaMs,capped,tasks,phase⟩ := s
  unfold paceStep at taken
  split at taken
  · next l at_ =>
    cases at_
    cases taken
    exact goes_calm rfl rfl rfl (fun here => (track_grows l _).symm.trans here) (track_last l _).le
      (fun here => stands ((track_grows l _).symm.trans here)) rfl rfl
  · next l at_ =>
    cases at_
    split at taken
    · split at taken <;> cases taken <;> exact goes_calm rfl rfl rfl id tracked stands rfl rfl
    · cases taken
      exact goes_calm rfl rfl rfl id tracked stands rfl rfl
  · next l at_ =>
    cases at_
    have flown : ∀ price, total SweepRoom.flying (tasks ++ [⟨price,false⟩]) + 0 =
        total SweepRoom.flying tasks + 0 + price := by
      intro price
      simp [SweepRoom.flying]
    obtain ⟨mode,started,wallCap,lastThreshold,lastUpgrade,stopping,spendCapped⟩ := l
    cases mode with
    | growth =>
      simp only [gate] at taken
      split at taken
      · cases taken
        exact goes_calm rfl rfl rfl id tracked stands rfl rfl
      · next acct reserved =>
        cases taken
        refine ⟨?_,fun here => ⟨here,rfl⟩,tracked,stands,le_rfl,le_rfl⟩
        unfold account inFlight
        simp only [retrieved]
        rw [flown]
        exact .measure reserved
    | ceiling w =>
      simp only [gate] at taken
      split at taken
      · cases taken
        exact ⟨.prune,elsewhere,tracked,elsewhere,le_rfl,le_rfl⟩
      · next acct reserved =>
        cases taken
        refine ⟨?_,elsewhere,tracked,elsewhere,le_rfl,le_rfl⟩
        unfold account inFlight
        simp only [retrieved]
        rw [flown]
        exact .admitOne rfl reserved
  · next l at_ =>
    cases at_
    have books : ∀ s' : Probe B, s'.conn.acct = conn.acct → s'.conn.prepaid = conn.prepaid →
        s'.conn.unvalidated = conn.unvalidated → s'.tasks = (tasks.filter fun task => !task.finished) → retrieved s'.phase = 0 →
        account s' = account ⟨now,bank,conn,beneficiary,cycleIdx,lambdaMs,capped,tasks,.joining l⟩ := by
      intro s' acct prepaid queue left idle
      simp only [account,inFlight,acct,prepaid,queue,left,idle,flying_filter]
      rfl
    simp only at taken
    split at taken
    · split at taken <;> cases taken <;> exact goes_calm rfl rfl (books _ rfl rfl rfl rfl rfl) id tracked stands rfl rfl
    · cases taken
      exact goes_calm rfl rfl (books _ rfl rfl rfl rfl rfl) id tracked stands rfl rfl
  · next l units at_ =>
    cases at_
    cases taken
    exact ⟨.refresh,fun here => ⟨here,rfl⟩,tracked,stands,le_rfl,le_rfl⟩
  · next l at_ =>
    cases at_
    split at taken
    · next wanted =>
      cases taken
      simp only [Bool.and_eq_true] at wanted
      refine goes_calm rfl rfl rfl id tracked (fun growing => ?_) rfl rfl
      exact ⟨due_validated growing (stands growing).1 (fun entry member => (prompt entry member).1 growing) wanted.1,
        due_little growing tracked⟩
    · cases taken
      exact goes_calm rfl rfl rfl id tracked stands rfl rfl
  · next l at_ =>
    cases at_
    obtain ⟨mode,started,wallCap,lastThreshold,lastUpgrade,stopping,spendCapped⟩ := l
    split at taken
    · cases mode <;> cases taken
      · exact goes_calm rfl rfl rfl (fun _ => rfl) trivial (stands rfl).2 rfl rfl
      · exact goes_calm rfl rfl rfl elsewhere trivial trivial rfl rfl
    · cases taken
      exact goes_calm rfl rfl rfl id tracked stands rfl rfl
  · next l wake at_ =>
    cases at_
    split at taken <;> cases taken
    exact goes_calm rfl rfl rfl id tracked stands rfl rfl
  · cases taken

/-- Two probes after a cheque, the cheques before it are validated. -/
theorem lapsed {top t0 now : Nat} (lapsing : Lapsing top t0 v) (prompt : ∀ entry ∈ v, now - entry.1 < growthChequeInterval)
    (late : t0 + 2 * lambdaProbeInterval ≤ now) : units v ≤ top := by
  have all : (v.filter fun entry => decide (t0 ≤ entry.1)) = v := by
    refine List.filter_eq_self.mpr fun entry member => decide_eq_true ?_
    by_contra before
    have gap := lapsing.older entry member (by omega)
    have young := prompt entry member
    simp only [growthChequeInterval,lambdaProbeInterval,quietTime,ms] at young gap late
    omega
  exact all ▸ lapsing.own

theorem goes_probed {later t0 : Nat} {zeroAt result : Option Nat} (ready : Ready s v)
    (prompt : ∀ entry ∈ v, Prompt s entry.1) (at_ : s.phase = .probing later t0 zeroAt) (serves : served s act = 0)
    (free : payment s act = .none) (late : t0 + 2 * lambdaProbeInterval ≤ s.now) : Goes s act v (probed s result later) := by
  obtain ⟨now,bank,conn,beneficiary,cycleIdx,lambdaMs,capped,tasks,phase⟩ := s
  cases at_
  exact goes_calm serves free rfl (fun _ => rfl) trivial
    (lapsed ready.stands.1 (fun entry member => (prompt entry member).1 rfl) late) rfl rfl

theorem goes_probeAgain {later t0 : Nat} {zeroAt zeroAt' : Option Nat} (ready : Ready s v)
    (prompt : ∀ entry ∈ v, Prompt s entry.1) (at_ : s.phase = .probing later t0 zeroAt) (serves : served s act = 0)
    (free : payment s act = .none) : Goes s act v (probeAgain s later t0 zeroAt') := by
  obtain ⟨now,bank,conn,beneficiary,cycleIdx,lambdaMs,capped,tasks,phase⟩ := s
  cases at_
  obtain ⟨lapsing,once,-⟩ := ready.stands
  simp only at once
  unfold probeAgain
  split
  · refine goes_calm serves free rfl (fun _ => rfl) trivial ⟨lapsing,?_,fun _ => ?_⟩ rfl rfl
    · show t0 + lambdaProbeInterval ≤ now + lambdaProbeInterval
      omega
    · show t0 + 2 * lambdaProbeInterval ≤ now + lambdaProbeInterval
      omega
  · next over_ =>
    refine goes_probed ready prompt rfl serves free ?_
    simp only [lambdaProbeTimeout,lambdaProbeInterval,ms] at over_ ⊢
    omega

theorem goes_sample (ready : Ready s v) (prompt : ∀ entry ∈ v, Prompt s entry.1) (taken : sampleStep opts s act = some s') :
    Goes s act v s' := by
  have knows := ready
  obtain ⟨tracked,stands,first,low,past⟩ := ready
  obtain ⟨now,bank,conn,beneficiary,cycleIdx,lambdaMs,capped,tasks,phase⟩ := s
  unfold sampleStep at taken
  split at taken
  · next at_ =>
    cases at_
    cases taken
    exact goes_calm rfl rfl rfl (fun _ => rfl) trivial trivial rfl rfl
  · next later at_ =>
    cases at_
    split at taken <;> cases taken
    · exact goes_calm rfl rfl rfl (fun _ => rfl) trivial trivial rfl rfl
    · exact goes_calm rfl rfl rfl (fun _ => rfl) le_rfl stands rfl rfl
  · next later threshold deadline at_ =>
    cases at_
    split at taken
    · cases taken
      exact goes_calm rfl rfl rfl (fun _ => rfl) trivial stands rfl rfl
    · split at taken
      · cases taken
        exact goes_calm rfl rfl rfl (fun _ => rfl) trivial stands rfl rfl
      · split at taken
        · cases taken
          exact goes_calm rfl rfl rfl (fun _ => rfl) trivial stands rfl rfl
        · split at taken
          · cases taken
            exact goes_calm rfl rfl rfl (fun _ => rfl) trivial stands rfl rfl
          · next acct reserved =>
            cases taken
            exact ⟨.measure reserved,fun _ => ⟨rfl,rfl⟩,tracked,stands,le_rfl,le_rfl⟩
  · next later threshold deadline price at_ =>
    cases at_
    cases taken
    exact ⟨.serve rfl,fun _ => ⟨rfl,rfl⟩,tracked,stands,le_rfl,le_rfl⟩
  · next later threshold deadline price at_ =>
    cases at_
    cases taken
    exact ⟨.fail rfl,fun _ => ⟨rfl,rfl⟩,tracked,stands,le_rfl,le_rfl⟩
  · next later threshold deadline wake at_ =>
    cases at_
    split at taken <;> cases taken
    exact goes_calm rfl rfl rfl (fun _ => rfl) tracked stands rfl rfl
  · next later at_ =>
    cases at_
    split at taken <;> cases taken
    · exact goes_calm rfl rfl rfl (fun _ => rfl) trivial stands rfl rfl
    · have owed := low rfl
      refine goes_calm rfl rfl rfl (fun _ => rfl) trivial ⟨fun entry member => ?_,?_,stands⟩ rfl rfl
      · exact Nat.add_le_add_right (past entry member) quietTime
      · simp only at owed ⊢
        omega
  · next later debt wake at_ =>
    cases at_
    split at taken
    · next woken =>
      cases taken
      exact goes_calm rfl rfl rfl (fun _ => rfl) trivial
        ⟨fun entry member => (stands.1 entry member).trans woken,stands.2.1,stands.2.2⟩ rfl rfl
    · cases taken
  · next later t0 zeroAt wake at_ =>
    cases at_
    split at taken
    · next woken =>
      cases taken
      exact goes_calm rfl rfl rfl (fun _ => rfl) trivial
        ⟨stands.1,stands.2.1.trans woken,fun twice => (stands.2.2 twice).trans woken⟩ rfl rfl
    · cases taken
  · next later t0 zeroAt at_ =>
    cases at_
    cases taken
    exact goes_probeAgain knows prompt rfl rfl rfl
  · next later t0 zeroAt units at_ =>
    cases at_
    split at taken <;> cases taken
    · exact goes_probed knows prompt rfl rfl rfl (stands.2.2 rfl)
    · exact goes_probeAgain knows prompt rfl rfl rfl
    · exact goes_probeAgain knows prompt rfl rfl rfl
  · cases taken

theorem goes_probe (ready : Ready s v) (taken : probeStep opts s act = some s') : Goes s act v s' := by
  obtain ⟨tracked,stands,first,low,past⟩ := ready
  obtain ⟨now,bank,conn,beneficiary,cycleIdx,lambdaMs,capped,tasks,phase⟩ := s
  unfold probeStep at taken
  split at taken
  · next at_ =>
    cases at_
    have none_ : v = [] := stands
    subst none_
    split at taken <;> cases taken
    · refine goes_calm rfl rfl rfl (fun _ => rfl) le_rfl (fun _ => ⟨fun entry member => ?_,Nat.zero_le _⟩) rfl rfl
      exact absurd member List.not_mem_nil
    · exact goes_calm rfl rfl rfl (fun _ => rfl) trivial (Nat.zero_le _) rfl rfl
  · next at_ =>
    cases at_
    split at taken <;> cases taken
    · exact goes_calm rfl rfl rfl (fun _ => rfl) trivial opts.prepayUnits_lt rfl rfl
    · exact goes_calm rfl rfl rfl elsewhere trivial trivial rfl rfl
  · next wake at_ =>
    cases at_
    split at taken <;> cases taken
    exact goes_calm rfl rfl rfl elsewhere trivial trivial rfl rfl
  · next at_ =>
    cases at_
    split at taken <;> cases taken
    · exact goes_calm rfl rfl rfl elsewhere le_rfl elsewhere rfl rfl
    · exact goes_calm rfl rfl rfl elsewhere trivial trivial rfl rfl
  · next round at_ =>
    cases at_
    split at taken <;> cases taken <;> exact goes_calm rfl rfl rfl elsewhere trivial trivial rfl rfl
  · next round wake at_ =>
    cases at_
    split at taken <;> cases taken
    exact goes_calm rfl rfl rfl elsewhere trivial trivial rfl rfl
  · next at_ =>
    cases at_
    split at taken <;> cases taken <;> exact goes_calm rfl rfl rfl elsewhere trivial trivial rfl rfl
  · next wake at_ =>
    cases at_
    split at taken <;> cases taken
    exact goes_calm rfl rfl rfl elsewhere trivial trivial rfl rfl
  · next units at_ =>
    cases at_
    cases taken
    exact goes_calm rfl rfl rfl elsewhere trivial trivial rfl rfl
  · cases taken

theorem goes_task {k : Nat} {ok : Bool} (ready : Ready s v) (taken : taskStep s k ok = some s') :
    Goes s (.task k ok) v s' := by
  unfold taskStep at taken
  split at taken
  · next price found =>
    cases taken
    have flown := total_set SweepRoom.flying ⟨price,true⟩ found
    have flight : inFlight s = total SweepRoom.flying (s.tasks.set k ⟨price,true⟩) + retrieved s.phase + price := by
      simp only [SweepRoom.flying,inFlight,if_true,Bool.false_eq_true,if_false] at flown ⊢
      omega
    have stands : Stands { s with
        conn := { s.conn with acct := if ok then s.conn.acct.apply price else s.conn.acct.release price }
        tasks := s.tasks.set k ⟨price,true⟩ } v :=
      stands_frame ready.stands rfl rfl le_rfl le_rfl (List.Sublist.refl v)
    have price_ : served s (.task k ok) = if ok then price else 0 := by
      cases ok <;> simp [served,found]
    have free : payment s (.task k ok) = .none := rfl
    refine ⟨?_,fun here => ⟨here,rfl⟩,ready.tracked,by unfold heard; rw [free]; exact stands,le_rfl,le_rfl⟩
    rw [price_,free]
    cases ok with
    | true => exact .serve flight
    | false => exact .fail flight
  · cases taken

variable [DecidableEq B]

/-- A cheque is paid for in the step in which its call ends well. -/
theorem payment_none {lim : Limits} {bank bank' : Bank B} {purpose : Purpose} {pays : Nat} {call call' : Call B}
    {cheque : CallAct} (at_ : s.phase = .emitting purpose pays call) (stepped : callStep lim bank call cheque = some (bank',call'))
    (other : ∀ outcome, call'.phase ≠ .ended (.ok outcome)) : payment s (.cheque cheque) = .none := by
  unfold payment
  split
  · next units b debt rate plur cumulative act_ here =>
    cases at_.symm.trans here
    cases act_
    simp only [callStep] at stepped
    cases stepped
    exact absurd rfl (other _)
  · next act_ here => cases act_
  · rfl

omit [DecidableEq B] in
/-- The cheque of a latency sample is the only one after its quiet time. -/
theorem lapsing_new {top now pays : Nat} (old : ∀ entry ∈ v, entry.1 + quietTime ≤ now) (small : pays ≤ top) :
    Lapsing top now (v ++ [(now,pays)]) := by
  have none_ : (v.filter fun entry => decide (now ≤ entry.1)) = [] := by
    refine List.filter_eq_nil_iff.mpr fun entry member => ?_
    have before := old entry member
    simp only [quietTime,ms] at before
    simp only [decide_eq_true_eq]
    omega
  constructor
  · rw [List.filter_append,none_]
    simpa [units] using small
  · intro entry member before
    rcases List.mem_append.mp member with known | new
    · exact old entry known
    · rw [List.mem_singleton.mp new] at before
      omega

theorem goes_emit {cheque : CallAct} (ready : Ready s v) (taken : emitStep opts s cheque = some s') :
    Goes s (.cheque cheque) v s' := by
  obtain ⟨tracked,stands,first,low,past⟩ := ready
  obtain ⟨now,bank,conn,beneficiary,cycleIdx,lambdaMs,capped,tasks,phase⟩ := s
  unfold emitStep at taken
  split at taken
  · next purpose pays call at_ =>
    cases at_
    split at taken
    · cases taken
    · next bank' call' stepped =>
      obtain ⟨moves,-,-⟩ := callStep_moves stepped
      split at taken
      · next outcome ended =>
        rw [ended] at moves
        obtain ⟨b,debt,stage⟩ := call
        cases moves with
        | ended here =>
          cases here
          cases taken
          cases purpose with
          | pace l =>
            refine ⟨.cheque,fun here => ⟨here,rfl⟩,tracked,fun growing => ?_,le_rfl,le_rfl⟩
            obtain ⟨none_,small⟩ := stands growing
            subst none_
            refine ⟨fun entry member => ?_,?_⟩
            · rw [List.mem_singleton.mp member]
              rfl
            · show units [(now,pays)] ≤ conn.threshold / 2
              simpa [units] using small
          | lambda later =>
            refine ⟨.cheque,fun _ => ⟨rfl,rfl⟩,trivial,⟨lapsing_new stands.1 stands.2.1,le_rfl,elsewhere⟩,le_rfl,le_rfl⟩
          | prepay =>
            exact ⟨entry_prepay (first rfl) stands,elsewhere,trivial,trivial,le_rfl,le_rfl⟩
          | sweep round => exact ⟨.cheque,elsewhere,trivial,trivial,le_rfl,le_rfl⟩
      · next error ended =>
        have free : payment ⟨now,bank,conn,beneficiary,cycleIdx,lambdaMs,capped,tasks,.emitting purpose pays call⟩
            (.cheque cheque) = .none := payment_none rfl stepped (by rw [ended]; rintro outcome ⟨⟩)
        cases taken
        cases purpose with
        | pace l =>
          refine goes_calm rfl free rfl id tracked (fun growing => ?_) rfl rfl
          obtain ⟨none_,small⟩ := stands growing
          subst none_
          exact ⟨fun _ member => absurd member List.not_mem_nil,Nat.zero_le _⟩
        | lambda later => exact goes_calm rfl free rfl (fun _ => rfl) trivial stands.2.2 rfl rfl
        | prepay => exact goes_calm rfl free rfl elsewhere trivial trivial rfl rfl
        | sweep round => exact goes_calm rfl free rfl elsewhere trivial trivial rfl rfl
      · next unended unfailed =>
        have free : payment ⟨now,bank,conn,beneficiary,cycleIdx,lambdaMs,capped,tasks,.emitting purpose pays call⟩
            (.cheque cheque) = .none := payment_none rfl stepped unended
        cases taken
        cases purpose with
        | pace l => exact goes_calm rfl free rfl id tracked stands rfl rfl
        | lambda later => exact goes_calm rfl free rfl id trivial stands rfl rfl
        | prepay => exact goes_calm rfl free rfl id trivial stands rfl rfl
        | sweep round => exact goes_calm rfl free rfl id trivial trivial rfl rfl
  · cases taken

omit [DecidableEq B] in
theorem tracked_frame (tracked : Tracked s) (phase : s'.phase = s.phase) (threshold : s.conn.threshold ≤ s'.conn.threshold) :
    Tracked s' := by
  unfold Tracked at tracked ⊢
  rw [phase]
  split <;> simp_all only <;> omega

theorem goes_growth (ready : Ready s v) (prompt : ∀ entry ∈ v, Prompt s entry.1)
    (growing : ∀ t, act = .announce t → s.conn.threshold ≤ { s.conn with announced := some t }.threshold)
    (taken : growthStep opts s act = some s') : Goes s act v s' := by
  unfold growthStep at taken
  split at taken
  · exact goes_emit ready taken
  · exact goes_task ready taken
  · cases taken
    exact goes_calm rfl rfl rfl id ready.tracked ready.stands rfl rfl
  · next t =>
    cases taken
    have wider := growing t rfl
    exact ⟨.none,fun here => ⟨here,rfl⟩,tracked_frame ready.tracked rfl wider,
      stands_frame ready.stands rfl rfl wider le_rfl (List.Sublist.refl v),wider,le_rfl⟩
  · next now =>
    split at taken
    · next later =>
      cases taken
      exact ⟨.none,fun here => ⟨here,rfl⟩,tracked_frame ready.tracked rfl le_rfl,
        stands_frame ready.stands rfl rfl le_rfl later (List.Sublist.refl v),le_rfl,later⟩
    · cases taken
  · rw [Option.or_eq_some_iff,Option.or_eq_some_iff] at taken
    rcases taken with pace | ⟨-,sample | ⟨-,probe⟩⟩
    · exact goes_pace ready prompt pace
    · exact goes_sample ready prompt sample
    · exact goes_probe ready probe

end Steps

/-! ### Whole runs -/

/-- What holds of a probe and its peer while every step is guarded. -/
structure Secured (w : Watched B) : Prop where
  ready : Ready w.probe w.peer.validating
  covered : Covered 0 w.consumed w.paid (account w.probe)
  viewed : Viewed w.consumed w.paid (bound w.probe) (account w.probe) w.peer

section Runs
variable {opts : Options A} {s s' : Probe B} {act : Growth.Act} {v : List (Nat × Nat)}

theorem half_le (tracked : Tracked s) : half s.phase ≤ s.conn.threshold / 2 := by
  unfold Tracked at tracked
  unfold half
  split
  · next l at_ =>
    rw [at_] at tracked
    split
    · exact Nat.div_le_div_right tracked
    · exact Nat.zero_le _
  · next later threshold deadline at_ =>
    rw [at_] at tracked
    exact Nat.div_le_div_right tracked
  · exact Nat.zero_le _

theorem half_low (tracked : Tracked s) : half s.phase < u64Max := by
  have small := GrowthOverflow.conn_threshold_lt s.conn
  have under := half_le tracked
  have top := u64Max_succ
  omega

theorem gated_le (tracked : Tracked s) : gated s.phase ≤ bound s := by
  unfold Tracked at tracked
  unfold gated bound
  split
  · next l at_ =>
    rw [at_] at tracked
    exact Nat.div_le_div_right ((Nat.mod_le _ _).trans (Nat.mul_le_mul_right _ tracked))
  · exact Nat.zero_le _

/-- What is reserved under half the threshold leaves room for the cheques that are out. -/
theorem half_room (tracked : Tracked s) (stands : Stands s v) (asked : 0 < half s.phase) :
    half s.phase + units v ≤ bound s := by
  have under := half_le tracked
  have few : units v ≤ s.conn.threshold / 2 := by
    unfold Stands at stands
    unfold half at asked
    split at asked
    · next l at_ =>
      rw [at_] at stands
      by_cases growing : grows l = true
      · exact (stands growing).2
      · rw [if_neg growing] at asked
        omega
    · next later threshold deadline at_ =>
      rw [at_] at stands
      exact stands
    · omega
  unfold bound
  omega

/-- Before the ceiling phase its gate is not asked. -/
theorem early_still (here : early s.phase = true) : soars s.phase = false := by
  cases at_ : s.phase with
  | asking l =>
    have growing : grows l = true := by simpa [at_,early] using here
    simp [soars,growing]
  | _ => rfl

theorem hear_heard (s : Probe B) (act : Growth.Act) (peer : Peer) :
    (hear peer s.now (payment s act)).validating = heard s act peer.validating := by
  unfold heard
  cases payment s act <;> rfl

variable [DecidableEq B]

theorem secured_own {w : Watched B} (secured : Secured w) (fair : Fair w) (growing : Growing w (.own act))
    (sound : GateSound w.probe) (taken : growthStep opts w.probe act = some s') :
    Secured ⟨s',w.consumed + served w.probe act,w.paid + (payment w.probe act).units,
      hear w.peer w.probe.now (payment w.probe act)⟩ := by
  obtain ⟨ready,covered,viewed⟩ := secured
  have goes := goes_growth ready fair.validated (by rintro t rfl; exact growing) taken
  have low := half_low ready.tracked
  refine ⟨⟨goes.tracked,?_,fun here => ?_,fun here => ?_,?_⟩,?_,?_⟩
  · rw [hear_heard]
    exact goes.stands
  · obtain ⟨early_,prepaid⟩ := goes.onward here
    exact prepaid.trans (ready.first early_)
  · obtain ⟨early_,-⟩ := goes.onward here
    have owed := low_entry covered (ready.low early_) (early_still early_) (half_le ready.tracked) low goes.entry
    exact owed.trans (Nat.div_le_div_right goes.threshold)
  · rw [hear_heard]
    unfold heard
    intro entry member
    split at member
    · rcases List.mem_append.mp member with known | new
      · exact (ready.past entry known).trans goes.now
      · rw [List.mem_singleton.mp new]
        exact goes.now
    · exact (ready.past entry member).trans goes.now
  · exact covered_entry covered (fun asked => (sound asked).1) low goes.entry
  · refine viewed_mono (viewed_entry covered viewed goes.entry (fun entry member => (fair.validated entry member).2)
      (gated_le ready.tracked) sound (half_room ready.tracked ready.stands) low) ?_
    exact Nat.div_le_div_right (Nat.mul_le_mul_right _ goes.threshold)

theorem secured_step (w : Watched B) (event : Event) (next : Watched B) (secured : Secured w) (guarded : Guarded w event)
    (taken : watch opts w event = some next) : Secured next := by
  obtain ⟨fair,growing,sound⟩ := guarded
  cases event with
  | own act =>
    obtain ⟨s',moved,rfl⟩ := Option.map_eq_some_iff.mp taken
    exact secured_own secured fair growing sound moved
  | charge total =>
    cases taken
    exact ⟨secured.ready,secured.covered,⟨secured.viewed.within,secured.viewed.credited,secured.viewed.validating⟩⟩
  | credit extra =>
    cases taken
    have credited := secured.viewed.credited
    exact ⟨secured.ready,secured.covered,⟨secured.viewed.within,by simp only; omega,secured.viewed.validating⟩⟩
  | validate k =>
    simp only [watch] at taken
    split at taken
    · cases taken
    · next entry found =>
      cases taken
      have fewer := List.eraseIdx_sublist w.peer.validating k
      have less := units_eraseIdx found
      obtain ⟨ready,covered,viewed⟩ := secured
      obtain ⟨within,credited,validating⟩ := viewed
      refine ⟨⟨ready.tracked,stands_frame ready.stands rfl rfl le_rfl le_rfl fewer,ready.first,ready.low,
        fun entry member => ready.past entry (fewer.subset member)⟩,covered,⟨?_,?_,fewer.trans validating⟩⟩
      · simp only
        omega
      · simp only
        omega

/-- The probe as it begins, unknown to its peer. -/
def opening (now : Nat) (ledger : Finmap fun _ : B => U256) (beneficiary : B) (announced : Option U256) : Watched B :=
  ⟨start now ledger beneficiary announced,0,0,⟨0,0,[]⟩⟩

omit [DecidableEq B] in
theorem secured_opening (now : Nat) (ledger : Finmap fun _ : B => U256) (beneficiary : B) (announced : Option U256) :
    Secured (opening now ledger beneficiary announced) where
  ready := ⟨trivial,rfl,fun _ => rfl,fun _ => Nat.zero_le _,fun _ member => absurd member List.not_mem_nil⟩
  covered := ⟨rfl,Nat.zero_le _,le_rfl⟩
  viewed := ⟨Nat.zero_le _,le_rfl,List.Sublist.refl _⟩

end Runs

/-- What the peer of `probe_growth` has charged beyond its credits is never more than 105%
    of the threshold that it announced, in every state of every run: the peer may charge,
    credit and validate in any order, as long as it validates each cheque in time, its
    threshold does not fall, and the gate of the ceiling phase compares sums of 64 bits. -/
theorem view_bounded [DecidableEq B] (opts : Options A) (now : Nat) (ledger : Finmap fun _ : B => U256) (beneficiary : B)
    (announced : Option U256) (events : List Event) (w : Watched B)
    (guarded : Meets (watch opts) Guarded (opening now ledger beneficiary announced) events)
    (reached : run (watch opts) (opening now ledger beneficiary announced) events = some w)
    (fair : w.peer.charged ≤ w.consumed + inFlight w.probe) : w.peer.charged ≤ w.peer.credited + bound w.probe := by
  have secured : Secured w := run_guarded secured_step (secured_opening now ledger beneficiary announced) guarded reached
  exact viewed_bound secured.viewed fair

/-- One fetch of the ceiling phase is charged, and its cheque is validated. -/
def chargedOnce : List Event := SweepRoom.oneFetch.map .own ++ [.charge 320000,.validate 0]

theorem view_bounded_chargedOnce : ∃ w,
    run (watch (SweepRoom.probing 1000000000000 0)) (opening 0 ∅ (1 : BitVec 160) none) chargedOnce = some w ∧
    (w.peer.charged,w.peer.credited) = (320000,320000) ∧ w.peer.charged ≤ w.peer.credited + bound w.probe := by
  have ends : (run (watch (SweepRoom.probing 1000000000000 0)) (opening 0 ∅ (1 : BitVec 160) none) chargedOnce).map
      (fun w => ((w.peer.charged,w.peer.credited),decide (w.peer.charged ≤ w.consumed + inFlight w.probe))) =
        some ((320000,320000),true) := by decide +kernel
  obtain ⟨w,reached,same⟩ := Option.map_eq_some_iff.mp ends
  simp only [Prod.mk.injEq,decide_eq_true_eq] at same
  exact ⟨w,reached,by rw [same.1.1,same.1.2],view_bounded (SweepRoom.probing 1000000000000 0) 0 ∅ (1 : BitVec 160) none
    chargedOnce w (by decide +kernel) reached same.2⟩

end Directswarm.GrowthView
