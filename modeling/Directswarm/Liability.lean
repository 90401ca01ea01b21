import Mathlib
import Directswarm.Exposure
import Directswarm.Payments

/-!
What all peers of a fetch see of our debt (`fetch_scheduled`, over all runs). Beside each
connection stand the books of its peer; the connections interleave, and each peer charges,
credits and validates when it likes. Each connection is then a session in a world that
changes around it, so the gate of `Pacer` bounds what its peer sees, and what all of them
see together (`fetch_exposed`).
-/
namespace Directswarm.Liability
open Directswarm.Proximity Directswarm.Words Directswarm.Runs Directswarm.Interleaving Directswarm.Notes Directswarm.Cheques Directswarm.Pacing
  Directswarm.WorkPool Directswarm.Connection Directswarm.Accounts Directswarm.Scheduler
open Directswarm.Exposure (Peer hear Watched watch Fair Growing GateSound Secured secured_step secured_opening secured_bound bound)
open Directswarm.Figures (acting Touch touch_step launch_blank)

variable {M A B : Type}

/-! ### Both sides of a connection -/

/-- What a connection consumed and paid, and the books of its peer. -/
structure Side where
  consumed : Nat
  paid : Nat
  peer : Peer

namespace Side

/-- The connection opens; the peer holds its surplus. -/
def opened (plan : Plan A) (actor : Actor A B) : Side := ⟨0,0,⟨0,startSurplus plan actor.session,[]⟩⟩

/-- The connection takes a step. -/
def stepped (now : Nat) (s : Session A B) (act : Connection.Act) (side : Side) : Side :=
  ⟨side.consumed + served s act,side.paid + (payment s act).units,hear side.peer now (payment s act)⟩

/-- The peer charges or drops a charge. -/
def charge (total : Nat) (side : Side) : Side := { side with peer := { side.peer with charged := total } }

/-- The peer credits something. -/
def credit (units : Nat) (side : Side) : Side := { side with peer := { side.peer with credited := side.peer.credited + units } }

/-- The peer has validated a cheque. -/
def validate (k : Nat) (side : Side) : Side :=
  match side.peer.validating[k]? with
  | none => side
  | some entry => { side with
      peer := { side.peer with
        credited := side.peer.credited + entry.2
        validating := side.peer.validating.eraseIdx k } }

end Side

/-- A move of the fetch, or of the peer of a connection. -/
inductive Event (A B : Type)
  | move (move : Move A B)
  | charge (i total : Nat)
  | credit (i units : Nat)
  | validate (i k : Nat)

/-- A connection and its peer, as the session sees the others. -/
def view (c : Common A B) (actor : Actor A B) (side : Side) : Watched A B :=
  ⟨⟨c,actor.session,side.consumed,side.paid⟩,side.peer⟩

section Steps
variable [DecidableEq A] [DecidableEq B]

/-- What an act of a connection, or another step of the fetch, does to the sides. -/
def sided (job : Job M A) (r next : Run M A B) (sides : List Side) : Option (Nat × Connection.Act) → List Side
  | some (i,act) =>
    match r.actors[i]? with
    | some actor => sides.modify i (Side.stepped r.common.now actor.session act)
    | none => sides
  | none => sides ++ (next.actors.drop r.actors.length).map (Side.opened job.plan)

def expose (job : Job M A) (needed : List A) (st : Run M A B × List Side) : Event A B → Option (Run M A B × List Side)
  | .move move => (Scheduler.step job needed st.1 move).map fun r => (r,sided job st.1 r st.2 (acting st.1 move))
  | .charge i total => some (st.1,st.2.modify i (Side.charge total))
  | .credit i units => some (st.1,st.2.modify i (Side.credit units))
  | .validate i k => some (st.1,st.2.modify i (Side.validate k))

/-- The threshold of the connection that acts does not fall. -/
def rises (r : Run M A B) : Option (Nat × Connection.Act) → Bool
  | some (i,act) => (r.actors[i]?).all fun actor => decide (actor.session.pacer.threshold ≤
      { actor.session.pacer with announced := announcement actor.session.pacer.announced act }.threshold)
  | none => true

/-- When the connection that acts admits a fetch, its gate compares the sums that it is
    meant to compare. -/
def sound (job : Job M A) (r : Run M A B) : Option (Nat × Connection.Act) → Bool
  | some (i,act) => (r.actors[i]?).all fun actor => !admits job.plan r.common actor.session act ||
      decide ((actor.session.pacer.prune r.common.now).admitLimit < u64Max ∧
        ((actor.session.pacer.prune r.common.now).unvalidated.map Prod.snd).sum < 2 ^ 64)
  | none => true

/-- No threshold falls, and every gate is sound. -/
def Gated (job : Job M A) (r : Run M A B) : Event A B → Prop
  | .move move => rises r (acting r move) = true ∧ sound job r (acting r move) = true
  | _ => True

instance (job : Job M A) (r : Run M A B) : (event : Event A B) → Decidable (Gated job r event)
  | .move _ => inferInstanceAs (Decidable (_ = true ∧ _ = true))
  | .charge .. | .credit .. | .validate .. => isTrue trivial

/-- Every peer is fair, no threshold falls, and every gate is sound. -/
def Trusted (job : Job M A) (st : Run M A B × List Side) (event : Event A B) : Prop :=
  (∀ pair ∈ st.1.actors.zip st.2, Fair (view st.1.common pair.1 pair.2)) ∧ Gated job st.1 event

instance (job : Job M A) (st : Run M A B × List Side) (event : Event A B) : Decidable (Trusted job st event) :=
  inferInstanceAs (Decidable (_ ∧ _))

/-! ### One step -/

/-- The session of a connection is secured against its peer. -/
def Held (plan : Plan A) (c : Common A B) (actor : Actor A B) (side : Side) : Prop :=
  Secured plan (startSurplus plan actor.session) (view c actor side)

/-- And the peer is fair. -/
def Known (plan : Plan A) (c : Common A B) (actor : Actor A B) (side : Side) : Prop :=
  Held plan c actor side ∧ Fair (view c actor side)

section
variable {job : Job M A} {needed : List A} {r r' : Run M A B} {sides : List Side} {plan : Plan A} {c c' : Common A B}
  {actor : Actor A B} {side : Side}

omit [DecidableEq B] in
theorem known_all (held : List.Forall₂ (Held job.plan r.common) r.actors sides)
    (trusted : ∀ pair ∈ r.actors.zip sides, Fair (view r.common pair.1 pair.2)) :
    List.Forall₂ (Known job.plan r.common) r.actors sides := by
  obtain ⟨lengths,all⟩ := List.forall₂_iff_zip.mp held
  exact List.forall₂_iff_zip.mpr ⟨lengths,fun member => ⟨all member,trusted _ member⟩⟩

/-- What the others do leaves a connection secured. -/
theorem held_others (known : Known plan c actor side) : Held plan c' actor side :=
  secured_step known.1 (⟨known.2,trivial,trivial⟩ : Exposure.Guarded plan _ (.seen (.others c'))) rfl

theorem held_charge (known : Known plan c actor side) (total : Nat) : Held plan c actor (side.charge total) :=
  secured_step known.1 (⟨known.2,trivial,trivial⟩ : Exposure.Guarded plan _ (.charge total)) rfl

theorem held_credit (known : Known plan c actor side) (units : Nat) : Held plan c actor (side.credit units) :=
  secured_step known.1 (⟨known.2,trivial,trivial⟩ : Exposure.Guarded plan _ (.credit units)) rfl

theorem held_validate (known : Known plan c actor side) (k : Nat) : Held plan c actor (side.validate k) := by
  unfold Side.validate
  split
  · exact known.1
  · next entry found =>
    refine secured_step known.1 (⟨known.2,trivial,trivial⟩ : Exposure.Guarded plan _ (.validate k)) ?_
    simp only [watch,view,found]

omit [DecidableEq A] [DecidableEq B] in
/-- The peer of a connection acts, and the connections stay as they are. -/
theorem held_peer {actors : List (Actor A B)} {note : Side → Side} (known : List.Forall₂ (Known plan c) actors sides)
    (noted : ∀ actor side, Known plan c actor side → Held plan c actor (note side)) (i : Nat) :
    List.Forall₂ (Held plan c) actors (sides.modify i note) := by
  induction known generalizing i with
  | nil => simp
  | @cons actor side actors rest first later ih =>
    cases i with
    | zero => exact .cons (noted actor side first) (later.imp fun _ _ known => known.1)
    | succ i => exact .cons first.1 (ih i)

theorem held_moved {move : Move A B} (known : List.Forall₂ (Known job.plan r.common) r.actors sides)
    (gated : rises r (acting r move) = true ∧ sound job r (acting r move) = true) (taken : Scheduler.step job needed r move = some r') :
    List.Forall₂ (Held job.plan r'.common) r'.actors (sided job r r' sides (acting r move)) := by
  have others : ∀ actor side, Known job.plan r.common actor side → Held job.plan r'.common actor side :=
    fun actor side known => held_others known
  have touch := touch_step taken
  generalize acting r move = acted at touch gated ⊢
  cases touch with
  | @moved i actor act session actor' at_ stepped same joined actors residual main =>
    simp only [rises,sound,sided,at_,Option.all_some,Bool.or_eq_true,Bool.not_eq_true',decide_eq_true_eq] at gated ⊢
    rw [actors]
    refine forall₂_modify (Side.stepped r.common.now actor.session act) actor' known at_ (fun side mine => ?_) others
    have growing : Growing (view r.common actor side) (.seen (.own act)) := gated.1
    have sound_ : GateSound job.plan (view r.common actor side) (.seen (.own act)) := fun admitted =>
      gated.2.resolve_left (by simp [show admits job.plan r.common actor.session act = true from admitted])
    have watched : watch job.plan (view r.common actor side) (.seen (.own act)) =
        some ⟨⟨r'.common,session,side.consumed + served actor.session act,side.paid + (payment actor.session act).units⟩,
          hear side.peer r.common.now (payment actor.session act)⟩ := by
      simp only [watch,audit,seenStep,view,stepped,Option.map_some]
    have secured := secured_step mine.1 ⟨mine.2,growing,sound_⟩ watched
    have surplus : startSurplus job.plan actor'.session = startSurplus job.plan actor.session := by
      rw [same,startSurplus,startSurplus,(identity_step (step_moves stepped)).2.2.2]
    unfold Held
    rw [surplus,view,same]
    exact secured
  | @joined i actor n observed parked at_ open_ closed common actors sum_ main =>
    have still := forall₂_modify id { actor with joined := true } known at_ (fun side mine => others actor side mine) others
    rw [List.modify_id] at still
    rw [actors,sided,actors,List.drop_eq_nil_of_le (by simp),List.map_nil,List.append_nil]
    exact still
  | spawned overlay bucket beneficiary known_ warm session open_ common actors residual main =>
    rw [actors,sided,actors,List.drop_left,List.map_singleton]
    refine forall₂_append (known.imp others) ?_
    unfold Held Side.opened view
    rw [session]
    exact secured_opening ..
  | rested bank actors residual main =>
    rw [actors,sided,actors,List.drop_length,List.map_nil,List.append_nil]
    exact known.imp others

theorem held_step (st : Run M A B × List Side) (event : Event A B) (next : Run M A B × List Side)
    (held : List.Forall₂ (Held job.plan st.1.common) st.1.actors st.2) (trusted : Trusted job st event)
    (taken : expose job needed st event = some next) : List.Forall₂ (Held job.plan next.1.common) next.1.actors next.2 := by
  have known := known_all held trusted.1
  cases event with
  | move move =>
    obtain ⟨r',moved,rfl⟩ := Option.map_eq_some_iff.mp taken
    exact held_moved known trusted.2 moved
  | charge i total =>
    cases taken
    exact held_peer known (fun _ _ mine => held_charge mine total) i
  | credit i units =>
    cases taken
    exact held_peer known (fun _ _ mine => held_credit mine units) i
  | validate i k =>
    cases taken
    exact held_peer known (fun _ _ mine => held_validate mine k) i

omit [DecidableEq A] [DecidableEq B] in
theorem total_bound {actors : List (Actor A B)}
    (all : List.Forall₂ (fun actor side => side.peer.charged ≤ side.peer.credited + bound actor.session) actors sides) :
    (sides.map fun side => side.peer.charged).sum ≤
      (sides.map fun side => side.peer.credited).sum + (actors.map fun actor => bound actor.session).sum := by
  induction all with
  | nil => simp
  | cons first later ih =>
    simp only [List.map_cons,List.sum_cons]
    omega

end

end Steps

/-- Each of two peers charges the chunk that it served, and the first one another, while
    the cheques for the first two are on their way; all of them are validated before the
    connections go to rest. -/
def chargedRun : List (Event SwarmAddress Nat) :=
  let moves := fun first last => ((Payments.paidRun.take last).drop first).map Event.move
  [moves 0 25,[.charge 0 300000,.charge 1 300000],moves 25 57,[.validate 1 0],moves 57 60,[.charge 0 600000],moves 60 80,
    [.validate 0 0,.validate 0 0],moves 80 Payments.paidRun.length].flatten

end Directswarm.Liability
