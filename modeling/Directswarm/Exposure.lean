import Mathlib.Algebra.Order.BigOperators.Group.List
import Mathlib.Algebra.Order.Group.Nat
import Directswarm.Accounts

/-!
The exposure gate against the peer's own books. The peer charges what it served or
is serving, credits each accepted refresh, and validates each cheque within the
window; in between, a cheque is in its `validating` list, which is part of our
queue. While the gate is exact, the peer's net view of the debt stays within 105%
of the threshold. `try_reserve` compares a saturated sum, so against a limit of
`u64::MAX` it refuses nothing, and the bound fails.
-/
namespace Directswarm.Exposure
open Directswarm.Words Directswarm.Runs Directswarm.Interleaving Directswarm.Cheques Directswarm.Pacing
  Directswarm.Connection Directswarm.Accounts Directswarm.WorkPool

/-- The peer's books: what it has charged, what it has credited (the surplus it
    held, validated cheques, refreshes), and the cheques it is validating. -/
structure Peer where
  charged : Nat
  credited : Nat
  validating : List (Nat × Nat)

/-- A connection, tallied, and its peer. -/
structure Watched (A B : Type) where
  audited : Audited A B
  peer : Peer

/-- The connection or the others act; or the peer charges or drops a charge,
    credits something, or has validated a cheque. -/
inductive Event (A B : Type)
  | seen (event : Seen (Common A B) Act)
  | charge (total : Nat)
  | credit (units : Nat)
  | validate (k : Nat)

variable {A B : Type} [DecidableEq A] [DecidableEq B]

/-- What the peer books when it is paid. -/
def hear (peer : Peer) (now : Nat) : Payment → Peer
  | .none => peer
  | .cheque units => { peer with validating := peer.validating ++ [(now,units)] }
  | .refresh units => { peer with credited := peer.credited + units }

def watch (plan : Plan A) (w : Watched A B) (event : Event A B) : Option (Watched A B) :=
  match event with
  | .seen (.own act) => (audit plan w.audited (.own act)).map fun audited =>
      ⟨audited,hear w.peer w.audited.common.now (payment w.audited.session act)⟩
  | .seen (.others c) => (audit plan w.audited (.others c)).map fun audited => ⟨audited,w.peer⟩
  | .charge total => some { w with peer := { w.peer with charged := total } }
  | .credit units => some { w with peer := { w.peer with credited := w.peer.credited + units } }
  | .validate k =>
    match w.peer.validating[k]? with
    | none => none
    | some entry => some { w with
        peer := { w.peer with
          credited := w.peer.credited + entry.2
          validating := w.peer.validating.eraseIdx k } }

/-- The peer charges only what was served or is in flight, and has validated every
    cheque that is older than the window. -/
structure Fair (w : Watched A B) : Prop where
  charged : w.peer.charged ≤ w.audited.consumed + inFlight w.audited.session
  validated : ∀ entry ∈ w.peer.validating, w.audited.common.now - entry.1 ≤ w.audited.session.pacer.window

/-- The threshold as `threshold()` reads it does not fall. -/
def Growing (w : Watched A B) : Event A B → Prop
  | .seen (.own act) => w.audited.session.pacer.threshold ≤
      { w.audited.session.pacer with announced := announcement w.audited.session.pacer.announced act }.threshold
  | _ => True

/-- The gate compares the sums it is meant to compare: when a fetch is admitted, the
    limit is below the largest 64-bit value and the queue adds up within 64 bits. -/
def GateSound (plan : Plan A) (w : Watched A B) : Event A B → Prop
  | .seen (.own act) => admits plan w.audited.common w.audited.session act = true →
    (w.audited.session.pacer.prune w.audited.common.now).admitLimit < u64Max ∧
      ((w.audited.session.pacer.prune w.audited.common.now).unvalidated.map Prod.snd).sum < 2 ^ 64
  | _ => True

/-- What every step is taken under: a fair peer, a threshold that does not fall,
    and a sound gate. -/
def Guarded (plan : Plan A) (w : Watched A B) (event : Event A B) : Prop :=
  Fair w ∧ Growing w event ∧ GateSound plan w event

instance (w : Watched A B) : Decidable (Fair w) :=
  decidable_of_iff (w.peer.charged ≤ w.audited.consumed + inFlight w.audited.session ∧
    ∀ entry ∈ w.peer.validating, w.audited.common.now - entry.1 ≤ w.audited.session.pacer.window)
    ⟨fun both => ⟨both.1,both.2⟩,fun fair => ⟨fair.1,fair.2⟩⟩

instance (w : Watched A B) : (event : Event A B) → Decidable (Growing w event)
  | .seen (.own _) => inferInstanceAs (Decidable (_ ≤ _))
  | .seen (.others _) | .charge _ | .credit _ | .validate _ => isTrue trivial

instance (plan : Plan A) (w : Watched A B) : (event : Event A B) → Decidable (GateSound plan w event)
  | .seen (.own _) => inferInstanceAs (Decidable (_ → _))
  | .seen (.others _) | .charge _ | .credit _ | .validate _ => isTrue trivial

instance (plan : Plan A) (w : Watched A B) (event : Event A B) : Decidable (Guarded plan w event) :=
  inferInstanceAs (Decidable (_ ∧ _ ∧ _))

/-! ### Exposure over the entries of an account -/

/-- The units of a queue of cheques. -/
def units (queue : List (Nat × Nat)) : Nat := (queue.map Prod.snd).sum

/-- What was consumed and is in flight, less what was paid and has left the queue,
    is within the gate; and the peer is missing at most what is in the queue. -/
structure Exposed (surplus consumed paid gate : Nat) (a : Account) (peer : Peer) : Prop where
  within : consumed + a.inFlight + units a.queue ≤ surplus + paid + gate
  credited : surplus + paid ≤ peer.credited + units peer.validating
  validating : peer.validating.Sublist a.queue

theorem units_append (left right : List (Nat × Nat)) : units (left ++ right) = units left + units right := by
  simp [units]

theorem units_eraseIdx {queue : List (Nat × Nat)} {k : Nat} {entry : Nat × Nat} (found : queue[k]? = some entry) :
    units (queue.eraseIdx k) + entry.2 = units queue := by
  induction queue generalizing k with
  | nil => simp at found
  | cons head rest ih =>
    cases k with
    | zero =>
      cases found
      simp only [units,List.eraseIdx_cons_zero,List.map_cons,List.sum_cons]
      omega
    | succ k =>
      have later := ih (k := k) (by simpa using found)
      simp only [units,List.eraseIdx_cons_succ,List.map_cons,List.sum_cons] at later ⊢
      omega

theorem units_sublist {few many : List (Nat × Nat)} (sub : few.Sublist many) : units few ≤ units many :=
  (sub.map Prod.snd).sum_le_sum (by simp)

/-- The bound on the peer's view that exposure gives. -/
theorem exposed_bound {surplus consumed paid gate : Nat} {a : Account} {peer : Peer}
    (exposed : Exposed surplus consumed paid gate a peer) (fair : peer.charged ≤ consumed + a.inFlight) :
    peer.charged ≤ peer.credited + gate := by
  have missing := units_sublist exposed.validating
  have within := exposed.within
  have credited := exposed.credited
  omega

/-- What is not dropped from a list stays when a sublist holds nothing of what is dropped. -/
theorem sublist_dropWhile {L : Type} {p : L → Bool} {few many : List L} (sub : few.Sublist many)
    (keep : ∀ x ∈ few, p x = false) : few.Sublist (many.dropWhile p) := by
  induction sub with
  | slnil => simp
  | @cons few many x sub ih =>
    rw [List.dropWhile_cons]
    split
    · exact ih keep
    · exact sub.cons x
  | @cons_cons few many x sub ih =>
    rw [List.dropWhile_cons,keep x List.mem_cons_self]
    exact sub.cons_cons x

theorem units_prune (a : Account) (t : Terms) : units (a.prune t).queue ≤ units a.queue :=
  units_sublist (List.dropWhile_suffix _).sublist

/-- A reservation under a limit that makes room for the queue stays within the gate. -/
theorem within_reserve {surplus consumed paid gate price limit : Nat} {a : Account} {mirror : Mirror} {queue : List (Nat × Nat)}
    (covered : Covered surplus consumed paid a) (low : limit < u64Max)
    (reserved : a.mirror.tryReserve price limit = some mirror)
    (room : 0 < limit → limit + units queue ≤ a.prepaid + gate) (fewer : units queue ≤ units a.queue)
    (within : consumed + a.inFlight + units a.queue ≤ surplus + paid + gate) :
    consumed + (a.inFlight + price) + units queue ≤ surplus + paid + gate := by
  obtain ⟨sum,-⟩ := Mirror.tryReserve_exact low reserved
  have flight := covered.reserved
  have owed := covered.owed
  by_cases positive : 0 < limit
  · have := room positive
    omega
  · omega

theorem exposed_entry {surplus consumed paid gate price : Nat} {payment : Payment} {t : Terms} {a a' : Account}
    {peer : Peer} (covered : Covered surplus consumed paid a) (exposed : Exposed surplus consumed paid gate a peer)
    (validated : ∀ entry ∈ peer.validating, t.now - entry.1 ≤ t.window) (gated : t.gate ≤ gate)
    (sound : t.asks = true → a.limit t < u64Max ∧ units (a.prune t).queue < 2 ^ 64)
    (measuring : 0 < t.half → a.queue = [] ∧ t.half ≤ gate) (low : t.half < u64Max)
    (entry : Entry t a price payment a') :
    Exposed surplus (consumed + price) (paid + payment.units) gate a' (hear peer t.now payment) := by
  obtain ⟨within,credited,validating⟩ := exposed
  have young : peer.validating.Sublist (a.prune t).queue :=
    sublist_dropWhile validating fun entry member => by simpa using validated entry member
  cases entry with
  | none => exact ⟨within,credited,validating⟩
  | prune =>
    have fewer := units_prune a t
    refine ⟨?_,credited,young⟩
    simp only [Account.prune,Payment.units] at fewer ⊢
    omega
  | @admitOne price mirror asked reserved =>
    obtain ⟨exact_,fits⟩ := sound asked
    refine ⟨within_reserve covered exact_ reserved (fun positive => ?_) (units_prune a t) within,credited,young⟩
    have sum : ((a.prune t).queue.map Prod.snd).foldl wrapAdd 0 = units (a.prune t).queue := foldl_wrapAdd fits
    have small := wrapAdd_le a.prepaid t.gate
    unfold Account.limit at positive ⊢
    rw [sum] at positive ⊢
    change wrapAdd a.prepaid t.gate - units (a.prune t).queue + units (a.prune t).queue ≤ a.prepaid + gate
    omega
  | @measure price mirror reserved =>
    refine ⟨within_reserve covered low reserved (fun positive => ?_) le_rfl within,credited,validating⟩
    obtain ⟨empty,half⟩ := measuring positive
    rw [empty]
    simp only [units,List.map_nil,List.sum_nil]
    omega
  | @serve price rest flying =>
    refine ⟨?_,credited,validating⟩
    simp only [Payment.units]
    omega
  | @fail price rest flying =>
    refine ⟨?_,credited,validating⟩
    simp only [Payment.units]
    omega
  | @cheque owed | @prepay owed =>
    have one : units [(t.now,owed)] = owed := by simp [units]
    refine ⟨?_,?_,validating.append (List.Sublist.refl _)⟩
    · simp only [units_append,one,Payment.units]
      omega
    · simp only [hear,units_append,one,Payment.units]
      omega
  | @refresh owed =>
    refine ⟨?_,?_,validating⟩ <;> simp only [hear,Payment.units] <;> omega

theorem exposed_mono {surplus consumed paid gate gate' : Nat} {a : Account} {peer : Peer} (wider : gate ≤ gate')
    (exposed : Exposed surplus consumed paid gate a peer) : Exposed surplus consumed paid gate' a peer :=
  ⟨exposed.within.trans (by omega),exposed.credited,exposed.validating⟩

/-! ### Whole sessions -/

/-- 105% of the threshold. -/
def bound (s : Session A B) : Nat := s.pacer.threshold * 105 / 100

/-- What holds of a session and its peer while every step is guarded. -/
structure Secured (plan : Plan A) (surplus : Nat) (w : Watched A B) : Prop where
  kept : Kept plan surplus w.audited
  measuring : 0 < half w.audited.session.phase →
    w.audited.session.pacer.unvalidated = [] ∧ half w.audited.session.phase ≤ w.audited.session.pacer.threshold / 2
  exposed : Exposed surplus w.audited.consumed w.audited.paid (bound w.audited.session)
    (account plan w.audited.session) w.peer

theorem threshold_of_announced {p q : Pacer} (same : p.announced = q.announced) : p.threshold = q.threshold := by
  unfold Pacer.threshold
  rw [same]

theorem threshold_some {p : Pacer} {t : U256} (announced : p.announced = some t) (small : t.val < 2 ^ 64) :
    p.threshold = t.val := by
  unfold Pacer.threshold
  rw [announced]
  exact if_pos small

omit [DecidableEq A] [DecidableEq B] in
theorem opened_of_measuring {s : Session A B} (measuring : 0 < half s.phase) : unopened s.phase = false := by
  cases phase : s.phase <;> simp [phase,half,unopened] at measuring ⊢

theorem secured_own {plan : Plan A} {surplus : Nat} {w : Watched A B} {act : Act} {next : Audited A B}
    (secured : Secured plan surplus w) (fair : Fair w) (growing : Growing w (.seen (.own act)))
    (sound : GateSound plan w (.seen (.own act)))
    (taken : audit plan w.audited (.own act) = some next) :
    Secured plan surplus ⟨next,hear w.peer w.audited.common.now (payment w.audited.session act)⟩ := by
  have exact_ : GateExact plan w.audited (.own act) := fun admitted => (sound admitted).1
  have kept := kept_step secured.kept exact_ taken
  obtain ⟨⟨c',s'⟩,moved,rfl⟩ := Option.map_eq_some_iff.mp taken
  have moves : Moves plan w.audited.common w.audited.session act c' s' := step_moves moved
  have grown : w.audited.session.pacer.threshold ≤ s'.pacer.threshold := by
    exact growing.trans (threshold_of_announced (announced_step moves).symm).le
  refine ⟨kept,?_,?_⟩
  · intro measuring
    rcases half_step moves with zero | ⟨same,queue⟩ | ⟨start,queue⟩
    · simp only at measuring; omega
    · simp only at measuring ⊢
      obtain ⟨empty,half_⟩ := secured.measuring (by omega)
      exact ⟨queue.trans empty,by omega⟩
    · simp only
      exact ⟨queue,by omega⟩
  · refine exposed_mono (show bound w.audited.session ≤ _ from ?_) ?_
    · unfold bound
      exact Nat.div_le_div_right (Nat.mul_le_mul_right _ grown)
    · refine exposed_entry secured.kept.covered secured.exposed fair.validated ?_ ?_ ?_ secured.kept.half_low
        (step_entry secured.kept.idle moves)
      · exact Pacer.gate_le _
      · intro admitted
        obtain ⟨addr,phase⟩ := admits_popped admitted
        rw [account_opened (by rw [phase]; rfl)]
        exact sound admitted
      · intro positive
        obtain ⟨empty,half_⟩ := secured.measuring positive
        rw [account_opened (opened_of_measuring positive)]
        refine ⟨empty,half_.trans ?_⟩
        unfold bound
        omega

theorem secured_step {plan : Plan A} {surplus : Nat} {w next : Watched A B} {event : Event A B}
    (secured : Secured plan surplus w) (guarded : Guarded plan w event) (taken : watch plan w event = some next) :
    Secured plan surplus next := by
  obtain ⟨fair,growing,sound⟩ := guarded
  cases event with
  | seen event =>
    cases event with
    | own act =>
      obtain ⟨audited,moved,rfl⟩ := Option.map_eq_some_iff.mp taken
      exact secured_own secured fair growing sound moved
    | others c =>
      have exact_ : GateExact plan w.audited (.others c) := trivial
      have moved : audit plan w.audited (.others c) = some { w.audited with common := c } := rfl
      cases taken
      exact ⟨kept_step secured.kept exact_ moved,secured.measuring,secured.exposed⟩
  | charge total => cases taken; exact ⟨secured.kept,secured.measuring,⟨secured.exposed.within,secured.exposed.credited,
      secured.exposed.validating⟩⟩
  | credit extra =>
    cases taken
    refine ⟨secured.kept,secured.measuring,⟨secured.exposed.within,?_,secured.exposed.validating⟩⟩
    have credited := secured.exposed.credited
    simp only
    omega
  | validate k =>
    simp only [watch] at taken
    cases found : w.peer.validating[k]? with
    | none => simp [found] at taken
    | some entry =>
      simp only [found,Option.some.injEq] at taken
      subst taken
      have fewer := units_eraseIdx found
      refine ⟨secured.kept,secured.measuring,⟨secured.exposed.within,?_,
        (List.eraseIdx_sublist _ _).trans secured.exposed.validating⟩⟩
      have credited := secured.exposed.credited
      simp only
      omega

/-- The session as it opens, with the surplus in the peer's books. -/
def opening (plan : Plan A) (c : Common A B) (s : Session A B) : Watched A B :=
  ⟨⟨c,s,0,0⟩,⟨0,startSurplus plan s,[]⟩⟩

omit [DecidableEq A] [DecidableEq B] in
theorem secured_opening (plan : Plan A) (c : Common A B) (overlay : A) (bucket : Nat) (beneficiary : B)
    (known : Option Known) (warm : Option (Nat × Option U256)) :
    Secured plan (startSurplus plan (spawn overlay bucket beneficiary known warm))
      (opening plan c (spawn overlay bucket beneficiary known warm)) := by
  have kept := kept_spawn plan c overlay bucket beneficiary known warm
  have closed : unopened (spawn overlay bucket beneficiary known warm).phase = true := by cases warm <;> rfl
  refine ⟨kept,?_,?_⟩
  · cases warm <;> exact fun measuring => absurd measuring (lt_irrefl 0)
  · simp only [opening,account,closed,↓reduceIte]
    exact ⟨by simp [units],by simp [units],List.Sublist.refl _⟩

omit [DecidableEq A] [DecidableEq B] in
/-- The account knows all fetches in flight: before the connection opens there are none. -/
theorem account_inFlight {plan : Plan A} {surplus : Nat} {st : Audited A B} (kept : Kept plan surplus st) :
    (account plan st.session).inFlight = inFlight st.session := by
  cases open_ : unopened st.session.phase with
  | true =>
    have reserved := kept_reserved kept
    rw [(kept.reported.fresh open_).1] at reserved
    simp only [account,open_,↓reduceIte]
    exact reserved
  | false => rw [account_opened open_]

omit [DecidableEq A] [DecidableEq B] in
/-- What a fair peer sees of a secured session is within its limit. -/
theorem secured_bound {plan : Plan A} {surplus : Nat} {w : Watched A B} (secured : Secured plan surplus w) (fair : Fair w) :
    w.peer.charged ≤ w.peer.credited + bound w.audited.session := by
  refine exposed_bound secured.exposed ?_
  rw [account_inFlight secured.kept]
  exact fair.charged

/-- In every session whose steps are guarded, the peer's net view of the debt is at
    most 105% of the threshold in every state that is fair. -/
theorem exposure_bounded (plan : Plan A) (c : Common A B) (overlay : A) (bucket : Nat) (beneficiary : B)
    (known : Option Known) (warm : Option (Nat × Option U256)) (events : List (Event A B)) (final : Watched A B)
    (guarded : Meets (watch plan) (Guarded plan) (opening plan c (spawn overlay bucket beneficiary known warm)) events)
    (reached : run (watch plan) (opening plan c (spawn overlay bucket beneficiary known warm)) events = some final)
    (fair : Fair final) :
    (final.peer.charged : Int) - final.peer.credited ≤ bound final.audited.session := by
  have secured := run_guarded (fun _ _ _ => secured_step)
    (secured_opening plan c overlay bucket beneficiary known warm) guarded reached
  have bounded := secured_bound secured fair
  omega

/-- A chunk is served, charged, and never paid. -/
def chargedUnpaid : List (Event Nat Nat) := hungUpUnpaid.map .seen ++ [.charge 230000]

theorem exposure_bounded_unpaid : ∃ final, run (watch prepaying)
      (opening prepaying (oneChunk 0 (AList.singleton (5 : Nat) [7])) (spawn 1 5 2 none none)) chargedUnpaid = some final ∧
    final.peer.charged = 230000 ∧ (final.peer.charged : Int) - final.peer.credited ≤ bound final.audited.session := by
  have ends : (run (watch prepaying) (opening prepaying (oneChunk 0 (AList.singleton (5 : Nat) [7]))
      (spawn 1 5 2 none none)) chargedUnpaid).map (fun final => (decide (Fair final),final.peer.charged)) =
        some (true,230000) := by decide +kernel
  obtain ⟨final,reached,same⟩ := Option.map_eq_some_iff.mp ends
  obtain ⟨fair,charged⟩ : Fair final ∧ final.peer.charged = 230000 := by simpa using same
  exact ⟨final,reached,charged,exposure_bounded prepaying (oneChunk 0 (AList.singleton (5 : Nat) [7])) 1 5 2 none none
    chargedUnpaid final (by decide +kernel) reached fair⟩

/-! ### The gate that refuses nothing -/

/-- A prepaying run with a cap of 2⁶³ PLUR, towards a peer that asks 320000 units a chunk. -/
def dear : Plan Nat where
  lim := ⟨0,2 ^ 63,by decide⟩
  pipeline := 1
  measureLambda := false
  prepay := true
  parkInto := false
  peerPrice := fun _ _ => 320000
  peerPrice_lt := highPrice_fits

/-- The surplus that 105% of a threshold of 10⁷ completes to `u64::MAX`. -/
def vast : Known := ⟨none,⟨18446744073699051615,by decide⟩⟩

/-- A fair peer, and a threshold that does not fall. -/
def Peaceful (w : Watched A B) (event : Event A B) : Prop := Fair w ∧ Growing w event

/-- The peer's net view of the debt can come to exceed 105% of the threshold. -/
def Overruns (w : Watched Nat Nat) : Prop :=
  ∃ final, Leads (watch dear) Peaceful w final ∧ Fair final ∧
    (bound final.audited.session : Int) < final.peer.charged - final.peer.credited

theorem overruns_cons {w next : Watched Nat Nat} (event : Event Nat Nat) (met : Peaceful w event)
    (taken : watch dear w event = some next) (onward : Overruns next) : Overruns w := by
  obtain ⟨final,leads,ends⟩ := onward
  exact ⟨final,leads_cons event met taken leads,ends⟩

/-- What the connections share while one of them empties bucket 5. -/
def shelf (now ok : Nat) (addrs : List Nat) (stored : Finset Nat) : Common Nat Nat :=
  ⟨now,AList.singleton (5 : Nat) addrs,stored,[],false,ok,⟨0,∅,[]⟩⟩

/-- A connection with a surplus, towards a peer with that threshold. -/
def scene (k : Known) (c : Common Nat Nat) (refresh : Option Nat) (avg : Nat) (m : Mirror) (consumed charged : Nat)
    (tasks : List (FetchTask Nat)) (phase : Phase Nat Nat) : Watched Nat Nat where
  audited := ⟨c,{
    overlay := 1
    bucket := 5
    beneficiary := 2
    known := some k
    warmLambda := none
    alive := true
    pacer := ⟨m,some 10000000,3000,[],100000,0,k.surplusUnits.val,avg,refresh,none⟩
    measuredLambda := none
    tasks := tasks
    pending := none
    spendStop := false
    bucketDrained := false
    finishing := false
    halted := false
    sweepAttempts := 0
    phase := phase },consumed,0⟩
  peer := ⟨charged,k.surplusUnits.val,[]⟩

variable {k : Known} {c : Common Nat Nat} {refresh : Option Nat} {avg : Nat} {m : Mirror} {consumed charged : Nat}
  {tasks : List (FetchTask Nat)} {phase : Phase Nat Nat}

theorem scene_fair (within : charged ≤ consumed) : Fair (scene k c refresh avg m consumed charged tasks phase) :=
  ⟨within.trans (Nat.le_add_right _ _),nofun⟩

/-- A step of the connection in such a scene. -/
theorem scene_own (act : Act) (next : Watched Nat Nat) (quiet : announcement (some 10000000) act = some 10000000)
    (within : charged ≤ consumed)
    (taken : watch dear (scene k c refresh avg m consumed charged tasks phase) (.seen (.own act)) = some next)
    (onward : Overruns next) :
    Overruns (scene k c refresh avg m consumed charged tasks phase) :=
  overruns_cons (.seen (.own act)) ⟨scene_fair within,(threshold_of_announced quiet.symm).le⟩ taken onward

/-- The phases in which `drive` itself moves. -/
def drives : Phase A B → Bool
  | .driving | .draining | .projecting _ | .admitting | .popped _ | .reaping | .settling | .retrying _ | .turning
  | .sleeping _ => true
  | _ => false

/-- There a step of `drive` is the step of the connection, and neither serves nor pays. -/
theorem drives_step {plan : Plan A} {c : Common A B} {s : Session A B} {next : Common A B × Session A B}
    (phase : drives s.phase = true) (driven : driveStep plan c s .go = some next) :
    sessionStep plan c s .go = some next ∧ served s .go = 0 ∧ payment s .go = .none := by
  have elsewhere : openStep plan c s .go = none ∧ measureStep plan c s .go = none ∧ emitStep plan c s .go = none ∧
      payment s .go = .none := by
    unfold openStep measureStep emitStep payment
    cases at_ : s.phase <;> first | exact ⟨rfl,rfl,rfl,rfl⟩ | (rw [at_] at phase; cases phase)
  obtain ⟨opens,measures,emits,unpaid⟩ := elsewhere
  refine ⟨?_,rfl,unpaid⟩
  simp only [sessionStep,opens,measures,emits,driven]
  rfl

omit [DecidableEq B] in
/-- A turn whose projection leaves room goes on to admissions. -/
theorem driveStep_project {plan : Plan A} {c : Common A B} {s : Session A B} {u : Nat} (at_ : s.phase = .projecting (some u))
    (room : c.bank.issuedPlur + u * s.pacer.rate ≤ plan.lim.maxIssuePlur * 92 / 100) (onward : c.windDown = false) :
    driveStep plan c s .go = some (c,{ s with spendStop := false, halted := false, phase := .admitting }) := by
  simp only [driveStep,at_,Option.all_some,decide_eq_false (not_lt.mpr room),onward,Bool.or_self,Bool.false_eq_true,
    ↓reduceIte]

/-- Against a limit of `u64::MAX` every price is reserved. -/
theorem admit_unlimited {p : Pacer} {now price : Nat} (queue : p.unvalidated = []) (unlimited : p.admitLimit = u64Max) :
    p.admitOne now price = ({ p with mirror := ⟨p.mirror.balance,wrapAdd p.mirror.reserved price⟩ },true) := by
  have same : p.prune now = p := by
    unfold Pacer.prune
    rw [queue,List.dropWhile_nil,← queue]
  have reserved : p.mirror.tryReserve price p.admitLimit = some ⟨p.mirror.balance,wrapAdd p.mirror.reserved price⟩ := by
    rw [unlimited]
    exact Mirror.tryReserve_some.mpr ⟨satAdd_le_max _ _,rfl⟩
  unfold Pacer.admitOne
  rw [same,reserved]

omit [DecidableEq B] in
/-- A missing address that the gate admits is fetched. -/
theorem driveStep_admit {plan : Plan A} {c : Common A B} {s : Session A B} {addr : A} {price : Nat} {pacer : Pacer}
    (at_ : s.phase = .popped addr) (absent : addr ∉ c.stored) (asked : plan.peerPrice s.overlay addr = price)
    (admitted : { s.pacer with avgPrice := max price 1 }.admitOne c.now price = (pacer,true)) :
    driveStep plan c s .go = some (c,{ s with
      pacer := pacer
      tasks := s.tasks ++ [⟨addr,price,.retrieving⟩]
      phase := .admitting }) := by
  simp only [driveStep,at_,if_neg absent,asked,admitted]

/-- With enough prepaid, what follows the measurement is `drive`. -/
theorem sessionStep_enough {plan : Plan A} {c : Common A B} {s : Session A B} {lambda : Option Nat}
    (at_ : s.phase = .measured lambda) (enough : ¬s.pacer.prepaid < 25 * 230000) :
    sessionStep plan c s .go = some (c,{ noteLambda s lambda with phase := .driving }) := by
  simp only [sessionStep,openStep,measureStep,at_,decide_eq_false enough,Bool.and_false,Bool.false_eq_true,↓reduceIte]
  rfl

/-- A step that neither serves nor pays, in such a scene. -/
theorem scene_quietly (next : Common Nat Nat × Session Nat Nat) (within : charged ≤ consumed)
    (moved : sessionStep dear c (scene k c refresh avg m consumed charged tasks phase).audited.session .go = some next ∧
      served (scene k c refresh avg m consumed charged tasks phase).audited.session .go = 0 ∧
      payment (scene k c refresh avg m consumed charged tasks phase).audited.session .go = .none)
    (onward : Overruns ⟨⟨next.1,next.2,consumed,0⟩,⟨charged,k.surplusUnits.val,[]⟩⟩) :
    Overruns (scene k c refresh avg m consumed charged tasks phase) := by
  obtain ⟨moved,unserved,unpaid⟩ := moved
  refine scene_own .go _ rfl within ?_ onward
  have tallied : audit dear (scene k c refresh avg m consumed charged tasks phase).audited (.own .go) =
      some ⟨next.1,next.2,consumed,0⟩ := by
    show (sessionStep dear c (scene k c refresh avg m consumed charged tasks phase).audited.session .go).map _ = _
    rw [moved,unserved,unpaid]
    rfl
  show (audit dear (scene k c refresh avg m consumed charged tasks phase).audited (.own .go)).map _ = _
  rw [tallied,unpaid]
  rfl

/-- A step of `drive` in such a scene. -/
theorem scene_drives (next : Common Nat Nat × Session Nat Nat) (mine : drives phase = true) (within : charged ≤ consumed)
    (driven : driveStep dear c (scene k c refresh avg m consumed charged tasks phase).audited.session .go = some next)
    (onward : Overruns ⟨⟨next.1,next.2,consumed,0⟩,⟨charged,k.surplusUnits.val,[]⟩⟩) :
    Overruns (scene k c refresh avg m consumed charged tasks phase) :=
  scene_quietly next within (drives_step mine driven) onward

/-- From the settlement of a turn, a failed cheque or none leads to its end. -/
theorem scene_settles (within : charged ≤ consumed)
    (onward : Overruns (scene k c refresh avg m consumed charged tasks .turning)) :
    Overruns (scene k c refresh avg m consumed charged tasks .settling) := by
  have moved : watch dear (scene k c refresh avg m consumed charged tasks .settling) (.seen (.own .go)) =
      some ⟨⟨c,settle dear c (scene k c refresh avg m consumed charged tasks .settling).audited.session,consumed,0⟩,
        (scene k c refresh avg m consumed charged tasks .settling).peer⟩ := rfl
  have fails : ∀ purpose owed, purpose = .topUp ∨ purpose = .settle → Overruns
      (scene k c refresh avg m consumed charged tasks (.emitting purpose owed ⟨2,owed,.opening⟩)) := by
    intro purpose owed which
    refine scene_own (.cheque (.io false)) (scene k c refresh avg m consumed charged tasks
      (.emitting purpose owed ⟨2,owed,.ended (.error .openSwapStream)⟩)) rfl within rfl ?_
    rcases which with rfl | rfl <;> exact scene_own .go _ rfl within rfl onward
  rcases settle_cases dear c (scene k c refresh avg m consumed charged tasks .settling).audited.session with
    same | ⟨owed,-,-,-,same⟩ | same <;> rw [same] at moved <;> refine scene_own .go _ rfl within moved ?_
  · exact onward
  · exact fails .topUp owed (.inl rfl)
  · exact fails .settle _ (.inr rfl)

/-- From the joins of a turn, whatever the refresh does, to the settlement. -/
theorem scene_reaps {addr price : Nat} (within : charged ≤ consumed)
    (onward : ∀ refresh, Overruns (scene k c refresh avg m consumed charged [] .settling)) :
    Overruns (scene k c refresh avg m consumed charged [⟨addr,price,.done⟩] .reaping) := by
  by_cases due : Pacer.isDue refresh c.now refreshMinInterval = true
  · by_cases owes : 0 < m.balance - k.surplusUnits.val
    · refine scene_drives (c,(scene k c refresh avg m consumed charged [] .refreshing).audited.session) rfl within ?_ ?_
      · simp [driveStep,scene,due,owes,Pacer.unpaid,reap]
      · exact scene_own (.accepted none) _ rfl within rfl (onward (some c.now))
    · refine scene_drives (c,(scene k c (some c.now) avg m consumed charged [] .settling).audited.session) rfl within ?_
        (onward (some c.now))
      simp [driveStep,scene,due,owes,Pacer.unpaid,reap]
  · refine scene_drives (c,(scene k c refresh avg m consumed charged [] .settling).audited.session) rfl within ?_
      (onward refresh)
    simp [driveStep,scene,due,reap]

/-- What exceeds the surplus is worth less than the cap, so the turn goes on. -/
theorem scene_projects (vast_ : k.surplusUnits.val + 10500000 = u64Max) (quiet : c.windDown = false ∧ c.bank.issuedPlur = 0)
    (within : charged ≤ consumed)
    (onward : Overruns (scene k c refresh avg m consumed charged [] .admitting)) :
    Overruns (scene k c refresh avg m consumed charged [] .driving) := by
  have small : wrapAdd m.balance m.reserved - k.surplusUnits.val ≤ 10500000 := by
    have under := wrapAdd_lt m.balance m.reserved
    have top := u64Max_succ
    omega
  refine scene_own .go (scene k c refresh avg m consumed charged []
    (.projecting (some (wrapAdd m.balance m.reserved - k.surplusUnits.val)))) rfl within rfl ?_
  have room : c.bank.issuedPlur + (wrapAdd m.balance m.reserved - k.surplusUnits.val) * 100000 ≤
      dear.lim.maxIssuePlur * 92 / 100 := by
    show _ ≤ 2 ^ 63 * 92 / 100
    omega
  exact scene_drives (c,(scene k c refresh avg m consumed charged [] .admitting).audited.session) rfl within
    (driveStep_project rfl room quiet.1) onward

/-- The fetch in flight returns its chunk, and the peer charges for it. -/
theorem scene_serves {addr price balance : Nat} (within : charged ≤ consumed)
    (onward : Overruns (scene k c refresh avg ⟨satAdd balance price,0⟩ (consumed + price)
      (consumed + price) [⟨addr,price,.served⟩] phase)) :
    Overruns (scene k c refresh avg ⟨balance,price⟩ consumed charged [⟨addr,price,.retrieving⟩] phase) := by
  refine scene_own (.task 0 true) (scene k c refresh avg ⟨satAdd balance price,0⟩ (consumed + price) charged
    [⟨addr,price,.served⟩] phase) rfl within ?_ ?_
  · simp [watch,audit,seenStep,sessionStep,taskStep,served,Mirror.apply,scene,hear,payment,Payment.units]
  · exact overruns_cons (.charge (consumed + price)) ⟨scene_fair (by omega),trivial⟩ rfl onward

/-- The chunk is stored. -/
theorem scene_stores {addr price : Nat} (within : charged ≤ consumed)
    (onward : Overruns (scene k (put c addr true) refresh avg m consumed charged
      [⟨addr,price,.done⟩] phase)) :
    Overruns (scene k c refresh avg m consumed charged [⟨addr,price,.served⟩] phase) := by
  refine scene_own (.task 0 true) (scene k (put c addr true) refresh avg m consumed charged [⟨addr,price,.done⟩] phase)
    rfl within ?_ onward
  simp [watch,audit,seenStep,sessionStep,taskStep,served,scene,hear,payment,Payment.units]

/-- The limit is the surplus and 105% of the threshold, which is `u64::MAX`. -/
theorem scene_admits {now balance price : Nat} (vast_ : k.surplusUnits.val + 10500000 = u64Max)
    (small : wrapAdd 0 price = price) :
    Pacer.admitOne ⟨⟨balance,0⟩,some 10000000,3000,[],100000,0,k.surplusUnits.val,price,refresh,none⟩ now price =
      (⟨⟨balance,price⟩,some 10000000,3000,[],100000,0,k.surplusUnits.val,price,refresh,none⟩,true) := by
  have whole : wrapAdd k.surplusUnits.val 10500000 = u64Max := by
    rw [wrapAdd_exact (by rw [vast_]; decide),vast_]
  have gate : satMul 10000000 105 / 100 = 10500000 := by decide
  have announced : Pacer.threshold ⟨⟨balance,0⟩,some 10000000,3000,[],100000,0,k.surplusUnits.val,price,refresh,none⟩ =
      10000000 := threshold_some rfl (by decide : (10000000 : U256).val < 2 ^ 64)
  rw [admit_unlimited rfl]
  · rw [small]
  · simp only [Pacer.admitLimit,announced,gate,whole,Pacer.queued,List.map_nil,List.foldl_nil,Nat.sub_zero]

/-- One turn of `drive` that fetches one chunk. The gate refuses nothing. -/
theorem scene_fetches {now ok addr price : Nat} {addrs : List Nat} {stored : Finset Nat} {balance : Nat}
    (vast_ : k.surplusUnits.val + 10500000 = u64Max) (asked : dear.peerPrice 1 addr = price)
    (priced : max price 1 = price ∧ wrapAdd 0 price = price) (absent : addr ∉ stored) (within : charged ≤ consumed)
    (onward : ∀ refresh, Overruns
      (scene k (shelf (now + tick) (ok + 1) addrs (insert addr stored)) refresh price ⟨satAdd balance price,0⟩
        (consumed + price) (consumed + price) [] .driving)) :
    Overruns
      (scene k (shelf now ok (addr :: addrs) stored) refresh avg ⟨balance,0⟩ consumed charged [] .driving) := by
  refine scene_projects vast_ ⟨rfl,rfl⟩ within ?_
  refine scene_own .go (scene k (shelf now ok addrs stored) refresh avg ⟨balance,0⟩ consumed charged []
    (.popped addr)) rfl within rfl ?_
  refine scene_drives (shelf now ok addrs stored,(scene k (shelf now ok addrs stored) refresh price ⟨balance,price⟩
    consumed charged [⟨addr,price,.retrieving⟩] .admitting).audited.session) rfl within ?_ ?_
  · refine driveStep_admit rfl absent asked ?_
    rw [priced.1]
    exact scene_admits vast_ priced.2
  refine scene_serves within (scene_stores le_rfl ?_)
  change Overruns (scene k (shelf now (ok + 1) addrs (insert addr stored)) refresh price
    ⟨satAdd balance price,0⟩ (consumed + price) (consumed + price) [⟨addr,price,.done⟩] .admitting)
  refine scene_drives (shelf now (ok + 1) addrs (insert addr stored),(scene k (shelf now (ok + 1) addrs
    (insert addr stored)) refresh price ⟨satAdd balance price,0⟩ (consumed + price) (consumed + price)
    [⟨addr,price,.done⟩] .reaping).audited.session) rfl le_rfl ?_ ?_
  · simp [driveStep,scene,shelf,dear]
  refine scene_reaps le_rfl fun refresh => scene_settles le_rfl ?_
  refine scene_drives (shelf now (ok + 1) addrs (insert addr stored),(scene k (shelf now (ok + 1) addrs
    (insert addr stored)) refresh price ⟨satAdd balance price,0⟩ (consumed + price) (consumed + price) []
    (.sleeping (now + tick))).audited.session) rfl le_rfl ?_ ?_
  · simp [driveStep,scene,shelf]
  refine overruns_cons (.seen (.others (shelf (now + tick) (ok + 1) addrs (insert addr stored))))
    ⟨scene_fair le_rfl,trivial⟩ rfl ?_
  refine scene_drives (_,(scene k (shelf (now + tick) (ok + 1) addrs (insert addr stored)) refresh price
    ⟨satAdd balance price,0⟩ (consumed + price) (consumed + price) [] .driving).audited.session) rfl le_rfl ?_
    (onward refresh)
  simp [driveStep,scene,shelf]

/-- Turn by turn every address of the bucket is fetched, whatever is owed. -/
theorem scene_empties {price : Nat} (asked : ∀ addr, dear.peerPrice 1 addr = price)
    (vast_ : k.surplusUnits.val + 10500000 = u64Max) (priced : max price 1 = price ∧ wrapAdd 0 price = price)
    (addrs : List Nat) : ∀ {now ok : Nat} {stored : Finset Nat} {refresh : Option Nat} {avg balance consumed : Nat},
      addrs.Nodup → (∀ addr ∈ addrs, addr ∉ stored) →
      (∀ c refresh avg m, Overruns (scene k c refresh avg m (consumed + addrs.length * price)
        (consumed + addrs.length * price) [] .driving)) →
      Overruns (scene k (shelf now ok addrs stored) refresh avg ⟨balance,0⟩ consumed consumed [] .driving) := by
  induction addrs with
  | nil =>
    intro now ok stored refresh avg balance consumed distinct absent onward
    rw [List.length_nil,Nat.zero_mul,Nat.add_zero] at onward
    exact onward _ _ _ _
  | cons addr rest ih =>
    intro now ok stored refresh avg balance consumed distinct absent onward
    obtain ⟨fresh,distinct⟩ := List.nodup_cons.mp distinct
    have later : ∀ other ∈ rest, other ∉ insert addr stored := by
      intro other member inside
      rcases Finset.mem_insert.mp inside with rfl | old
      · exact fresh member
      · exact absent other (List.mem_cons_of_mem _ member) old
    have total_ : consumed + (addr :: rest).length * price = consumed + price + rest.length * price := by
      rw [List.length_cons,Nat.succ_mul]
      omega
    rw [total_] at onward
    exact scene_fetches vast_ (asked addr) priced (absent addr List.mem_cons_self) le_rfl fun refresh =>
      ih distinct later onward

/-- From a surplus that completes 105% of the threshold to `u64::MAX`, a bucket of
    chunks that are worth more than that takes the debt past the gate. -/
theorem opening_overruns {price : Nat} {addrs : List Nat} (asked : ∀ addr, dear.peerPrice 1 addr = price)
    (unmeasured : k.lambdaMs = none) (vast_ : k.surplusUnits.val + 10500000 = u64Max) (priced : max price 1 = price ∧ wrapAdd 0 price = price)
    (distinct : addrs.Nodup) (many : u64Max < addrs.length * price) :
    Overruns (opening dear (shelf 0 0 addrs ∅) (spawn 1 5 2 (some k) none)) := by
  obtain ⟨lambda,surplus⟩ := k
  cases unmeasured
  replace vast_ : surplus.val + 10500000 = u64Max := vast_
  have ends : ∀ c refresh avg m, Overruns (scene ⟨none,surplus⟩ c refresh avg m (0 + addrs.length * price) (0 + addrs.length * price)
      [] .driving) := by
    intro c refresh avg m
    refine ⟨_,leads_refl _,scene_fair le_rfl,?_⟩
    have limit : bound (scene ⟨none,surplus⟩ c refresh avg m (0 + addrs.length * price) (0 + addrs.length * price) []
        .driving).audited.session = 10500000 := by
      unfold bound
      rw [threshold_some rfl (by decide : (10000000 : U256).val < 2 ^ 64)]
      rfl
    rw [limit]
    show (10500000 : Int) < ((0 + addrs.length * price : Nat) : Int) - (surplus.val : Int)
    omega
  have start : Overruns (scene ⟨none,surplus⟩ (shelf 0 0 addrs ∅) none 230000 ⟨0,0⟩ 0 0 [] .driving) :=
    scene_empties asked vast_ priced addrs distinct (fun _ _ => Finset.notMem_empty _) ends
  have enough : ¬surplus.val < 25 * 230000 := by
    have top := u64Max_succ
    omega
  have measured : Overruns (scene ⟨none,surplus⟩ (shelf 0 0 addrs ∅) none 230000 ⟨0,0⟩ 0 0 [] (.measured none)) :=
    scene_quietly _ le_rfl ⟨sessionStep_enough rfl enough,rfl,rfl⟩ start
  have established : Overruns ⟨⟨shelf 0 0 addrs ∅,{ spawn 1 5 2 (some ⟨none,surplus⟩) none with
      pacer := { (spawn 1 5 2 (some ⟨none,surplus⟩) none : Session Nat Nat).pacer with announced := some 10000000 }
      phase := .established },0,0⟩,⟨0,surplus.val,[]⟩⟩ :=
    overruns_cons (.seen (.own .go)) ⟨⟨Nat.zero_le _,nofun⟩,le_rfl⟩ rfl measured
  have dialing : Overruns ⟨⟨shelf 0 0 addrs ∅,{ spawn 1 5 2 (some ⟨none,surplus⟩) none with
      pacer := { (spawn 1 5 2 (some ⟨none,surplus⟩) none : Session Nat Nat).pacer with announced := some 10000000 } },0,0⟩,
      ⟨0,surplus.val,[]⟩⟩ :=
    overruns_cons (.seen (.own (.answer true))) ⟨⟨Nat.zero_le _,nofun⟩,le_rfl⟩ rfl established
  refine overruns_cons (.seen (.own (.announce 10000000))) ⟨⟨Nat.zero_le _,nofun⟩,?_⟩ rfl dialing
  show 1350000 ≤ Pacer.threshold _
  rw [threshold_some rfl (by decide : (10000000 : U256).val < 2 ^ 64)]
  decide

/-- With no condition on the gate the bound fails: the surplus is just below
    2⁶⁴ units, and the bucket holds a little more than that in chunks. -/
theorem unlimited_gate : ∃ events final,
    Meets (watch dear) Peaceful
      (opening dear (shelf 0 0 (List.range 57646075230343) ∅) (spawn 1 5 2 (some vast) none)) events ∧
    run (watch dear) (opening dear (shelf 0 0 (List.range 57646075230343) ∅) (spawn 1 5 2 (some vast) none)) events =
      some final ∧
    Fair final ∧ (bound final.audited.session : Int) < final.peer.charged - final.peer.credited := by
  have priced : max 320000 1 = 320000 ∧ wrapAdd 0 320000 = 320000 := by decide
  have whole : vast.surplusUnits.val + 10500000 = u64Max := by decide
  have overruns : ∀ n, u64Max < n * 320000 →
      Overruns (opening dear (shelf 0 0 (List.range n) ∅) (spawn 1 5 2 (some vast) none)) := fun n many =>
    opening_overruns (fun _ => rfl) rfl whole priced List.nodup_range (by rwa [List.length_range])
  obtain ⟨final,⟨events,met,reached⟩,fair,past⟩ := overruns 57646075230343 (by decide)
  exact ⟨events,final,met,reached,fair,past⟩

end Directswarm.Exposure
