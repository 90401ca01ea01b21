import Mathlib.Data.List.Basic

/-!
Runs of a transition system whose step is a partial function: `run step s acts`
is the state after the actions `acts` when each of them is enabled. A property
that every step keeps holds after every run (`run_invariant`); one that a step
keeps under a condition on the state before it holds after every run whose steps
all meet the condition (`run_guarded`); and one that also speaks of the actions
taken so far is carried by `run_history`.
-/
namespace Directswarm.Runs

universe u v
variable {S : Type u} {A : Type v}

/-- The state after a list of actions, when every one of them is enabled. -/
def run (step : S → A → Option S) : S → List A → Option S
  | s, [] => some s
  | s, a :: rest => (step s a).bind fun next => run step next rest

/-- Every step of the run meets the condition, read off the state before it. -/
def Meets (step : S → A → Option S) (condition : S → A → Prop) : S → List A → Prop
  | _, [] => True
  | s, a :: rest => condition s a ∧ ∀ next, step s a = some next → Meets step condition next rest

variable {step : S → A → Option S} {condition : S → A → Prop}

@[simp] theorem run_nil (s : S) : run step s [] = some s := rfl

theorem run_cons (s : S) (a : A) (rest : List A) :
    run step s (a :: rest) = (step s a).bind fun next => run step next rest := rfl

theorem run_cons_some {s final : S} {a : A} {rest : List A} :
    run step s (a :: rest) = some final ↔
      ∃ next, step s a = some next ∧ run step next rest = some final := by
  rw [run_cons,Option.bind_eq_some_iff]

theorem run_one {s next : S} {a : A} (taken : step s a = some next) : run step s [a] = some next := by
  rw [run_cons,taken]; rfl

theorem run_append {s middle : S} {before : List A} (after : List A)
    (reached : run step s before = some middle) :
    run step s (before ++ after) = run step middle after := by
  induction before generalizing s with
  | nil => cases reached; rfl
  | cons a rest ih =>
    obtain ⟨next,taken,onward⟩ := run_cons_some.mp reached
    rw [List.cons_append,run_cons,taken]
    exact ih onward

/-- A run splits at every point of its action list. -/
theorem run_append_some {s final : S} {before after : List A} :
    run step s (before ++ after) = some final ↔
      ∃ middle, run step s before = some middle ∧ run step middle after = some final := by
  induction before generalizing s with
  | nil => simp
  | cons a rest ih =>
    simp only [List.cons_append,run_cons_some,ih]
    constructor
    · rintro ⟨next,taken,middle,first,second⟩
      exact ⟨middle,⟨next,taken,first⟩,second⟩
    · rintro ⟨middle,⟨next,taken,first⟩,second⟩
      exact ⟨next,taken,middle,first,second⟩

theorem meets_append {s middle : S} {before after : List A}
    (met : Meets step condition s (before ++ after)) (reached : run step s before = some middle) :
    Meets step condition s before ∧ Meets step condition middle after := by
  induction before generalizing s with
  | nil => cases reached; exact ⟨trivial,met⟩
  | cons a rest ih =>
    obtain ⟨next,taken,onward⟩ := run_cons_some.mp reached
    have later := ih (met.2 next taken) onward
    refine ⟨⟨met.1,?_⟩,later.2⟩
    intro other same
    cases taken.symm.trans same
    exact later.1

/-- The invariant rule. -/
theorem run_invariant {Inv : S → Prop}
    (keep : ∀ s a next, Inv s → step s a = some next → Inv next) :
    ∀ {s final : S} {acts : List A}, Inv s → run step s acts = some final → Inv final := by
  intro s final acts start reached
  induction acts generalizing s with
  | nil => cases reached; exact start
  | cons a rest ih =>
    obtain ⟨next,taken,onward⟩ := run_cons_some.mp reached
    exact ih (keep s a next start taken) onward

/-- The invariant rule for runs whose steps all meet a condition. -/
theorem run_guarded {Inv : S → Prop}
    (keep : ∀ s a next, Inv s → condition s a → step s a = some next → Inv next) :
    ∀ {s final : S} {acts : List A}, Inv s → Meets step condition s acts →
      run step s acts = some final → Inv final := by
  intro s final acts start met reached
  induction acts generalizing s with
  | nil => cases reached; exact start
  | cons a rest ih =>
    obtain ⟨next,taken,onward⟩ := run_cons_some.mp reached
    exact ih (keep s a next start met.1 taken) (met.2 next taken) onward

/-- What a step brings about exactly where it meets a condition, a run does exactly
    where all its steps meet it. -/
theorem run_iff_meets {Inv Goal : S → Prop} (keep : ∀ s a next, Inv s → step s a = some next → Inv next)
    (exactly : ∀ s a next, Inv s → step s a = some next → (Goal next ↔ Goal s ∧ condition s a)) :
    ∀ {s final : S} {acts : List A}, Inv s → run step s acts = some final →
      (Goal final ↔ Goal s ∧ Meets step condition s acts) := by
  intro s final acts start reached
  induction acts generalizing s with
  | nil => cases reached; simp [Meets]
  | cons a rest ih =>
    obtain ⟨next,taken,onward⟩ := run_cons_some.mp reached
    have later := ih (keep s a next start taken) onward
    rw [later,exactly s a next start taken,and_assoc]
    refine and_congr_right fun _ => and_congr_right fun _ => ⟨fun met other same => ?_,fun met => met next taken⟩
    cases taken.symm.trans same
    exact met

/-- The invariant rule for properties of the state and of the actions so far. -/
theorem run_history {Inv : List A → S → Prop}
    (keep : ∀ past s a next, Inv past s → condition s a → step s a = some next → Inv (past ++ [a]) next) :
    ∀ {past : List A} {s final : S} {acts : List A}, Inv past s → Meets step condition s acts →
      run step s acts = some final → Inv (past ++ acts) final := by
  intro past s final acts start met reached
  induction acts generalizing s past with
  | nil => cases reached; simpa using start
  | cons a rest ih =>
    obtain ⟨next,taken,onward⟩ := run_cons_some.mp reached
    have later := ih (keep past s a next start met.1 taken) (met.2 next taken) onward
    simpa using later

/-- On a given run a decidable condition is checked by running. -/
instance decidableMeets [∀ s a, Decidable (condition s a)] (s : S) : (acts : List A) →
    Decidable (Meets step condition s acts)
  | [] => isTrue trivial
  | a :: rest =>
    match taken : step s a with
    | none => decidable_of_iff (condition s a) ⟨fun here => ⟨here,fun _ other => by simp [taken] at other⟩,And.left⟩
    | some next =>
      let _ := decidableMeets next rest
      decidable_of_iff (condition s a ∧ Meets step condition next rest)
        ⟨fun both => ⟨both.1,fun _ other => by cases taken.symm.trans other; exact both.2⟩,
          fun both => ⟨both.1,both.2 next taken⟩⟩

/-- Every run meets the condition that asks nothing. -/
theorem meets_true (s : S) (acts : List A) : Meets step (fun _ _ => True) s acts := by
  induction acts generalizing s with
  | nil => trivial
  | cons a rest ih => exact ⟨trivial,fun next _ => ih next⟩

theorem meets_and {other : S → A → Prop} {s : S} {acts : List A} (left : Meets step condition s acts)
    (right : Meets step other s acts) : Meets step (fun s a => condition s a ∧ other s a) s acts := by
  induction acts generalizing s with
  | nil => trivial
  | cons a rest ih => exact ⟨⟨left.1,right.1⟩,fun next taken => ih (left.2 next taken) (right.2 next taken)⟩

/-- What an invariant and the condition give at each step, every step of a run has. -/
theorem meets_of_invariant {Inv : S → Prop} {other : S → A → Prop}
    (keep : ∀ s a next, Inv s → condition s a → step s a = some next → Inv next)
    (gives : ∀ s a, Inv s → condition s a → other s a) :
    ∀ {s : S} {acts : List A}, Inv s → Meets step condition s acts → Meets step other s acts := by
  intro s acts start met
  induction acts generalizing s with
  | nil => trivial
  | cons a rest ih =>
    exact ⟨gives s a start met.1,fun next taken => ih (keep s a next start met.1 taken) (met.2 next taken)⟩

/-- Some run whose steps all meet a condition leads from one state to another. -/
def Leads (step : S → A → Option S) (condition : S → A → Prop) (s final : S) : Prop :=
  ∃ acts, Meets step condition s acts ∧ run step s acts = some final

theorem leads_refl (s : S) : Leads step condition s s := ⟨[],trivial,rfl⟩

theorem leads_cons {s next final : S} (a : A) (met : condition s a) (taken : step s a = some next)
    (onward : Leads step condition next final) : Leads step condition s final := by
  obtain ⟨acts,later,reached⟩ := onward
  refine ⟨a :: acts,⟨met,fun other same => ?_⟩,run_cons_some.mpr ⟨next,taken,reached⟩⟩
  cases taken.symm.trans same
  exact later

theorem leads_trans {s middle final : S} (before : Leads step condition s middle)
    (after : Leads step condition middle final) : Leads step condition s final := by
  obtain ⟨acts,met,reached⟩ := before
  induction acts generalizing s with
  | nil => cases reached; exact after
  | cons a rest ih =>
    obtain ⟨next,taken,onward⟩ := run_cons_some.mp reached
    exact leads_cons a met.1 taken (ih (met.2 next taken) onward)

/-- Whatever the allowed actions taken, the goal is reached: it holds, or some
    allowed action is enabled and every one that is leads to where it is inevitable. -/
inductive Inevitable (step : S → A → Option S) (allowed : A → Prop) (goal : S → Prop) : S → Prop
  | here {s : S} (reached : goal s) : Inevitable step allowed goal s
  | onward {s : S} (enabled : ∃ a next, allowed a ∧ step s a = some next)
      (every : ∀ a next, allowed a → step s a = some next → Inevitable step allowed goal next) :
      Inevitable step allowed goal s

/-- The goal is inevitable where short of it nothing is stuck and every allowed
    action decreases a measure. -/
theorem inevitable_of_measure {allowed : A → Prop} {goal Stage : S → Prop} (measure : S → Nat)
    (progress : ∀ s, Stage s → goal s ∨ (∃ a next, allowed a ∧ step s a = some next) ∧
      ∀ a next, allowed a → step s a = some next → Stage next ∧ measure next < measure s) :
    ∀ {s : S}, Stage s → Inevitable step allowed goal s := by
  intro s stage
  induction bound : measure s using Nat.strongRecOn generalizing s with
  | _ n ih =>
    rcases progress s stage with reached | ⟨enabled,less⟩
    · exact .here reached
    · refine .onward enabled fun a next ok taken => ?_
      obtain ⟨kept,smaller⟩ := less a next ok taken
      exact ih (measure next) (bound ▸ smaller) kept rfl

end Directswarm.Runs
