import Mathlib.Tactic.Common

/-!
# Runs of a step function

A system takes one of many steps at a time; `step s e = none` says that step `e` is not possible in
state `s`. A property holds along a run when it holds in every state the run reaches, and a
condition is met at every step when it holds of each step and the state it is taken in.
-/

namespace CtrlMesh.Lib

variable {σ ε : Type} (step : σ → ε → Option σ)

/-- The state after a sequence of steps, if all of them are possible. -/
def run (s : σ) (events : List ε) : Option σ := events.foldlM step s

/-- The property holds in every state the run reaches. -/
def Along (property : σ → Prop) (s : σ) (events : List ε) : Prop :=
  ∀ before after t, events = before ++ after → run step s before = some t → property t

/-- The condition holds of every step the run takes. -/
def EachStep (condition : σ → ε → Prop) (s : σ) (events : List ε) : Prop :=
  ∀ before event after t t', events = before ++ event :: after → run step s before = some t →
    step t event = some t' → condition t event

/-- The property holds until a step that may end it, if it does not hold to the end. -/
def Until (property : σ → Prop) (ending : σ → ε → Prop) (s : σ) (events : List ε) : Prop :=
  ∀ before event after t t', events = before ++ event :: after → run step s before = some t →
    Along step property s before → step t event = some t' → ¬property t' → ending t event

variable {step} {property sound : σ → Prop} {condition : σ → ε → Prop} {s : σ}

/-- A run takes its first step and goes on. -/
theorem run_cons (event : ε) (events : List ε) :
    run step s (event :: events) = (step s event).bind fun s' => run step s' events := rfl

variable {τ : Type} {R : σ → τ → Prop} {events : List ε} {a : Option σ} {b : Option τ} {t : τ}
  {event : ε} {goal : σ → ε → Prop}

/-- A related option has a value too. -/
theorem exists_of_rel_some (related : Option.Rel R a b) (left : a = some s) :
    ∃ t, b = some t ∧ R s t := by
  cases related with
  | none => cases left
  | some related =>
    cases left
    exact ⟨_, rfl, related⟩

/-- A related option has a value too. -/
theorem exists_of_some_rel (related : Option.Rel R a b) (right : b = some t) :
    ∃ s, a = some s ∧ R s t := by
  cases related with
  | none => cases right
  | some related =>
    cases right
    exact ⟨_, rfl, related⟩

/-- Two systems whose steps correspond have corresponding runs. -/
theorem run_rel {step' : τ → ε → Option τ}
    (steps : ∀ s t event, R s t → Option.Rel R (step s event) (step' t event)) (related : R s t)
    (events : List ε) : Option.Rel R (run step s events) (run step' t events) := by
  induction events generalizing s t with
  | nil => exact .some related
  | cons event events ih =>
    have first : Option.Rel R (step s event) (step' t event) := steps s t event related
    rw [run_cons, run_cons]
    generalize step s event = next at first ⊢
    generalize step' t event = next' at first ⊢
    cases first with
    | none => exact .none
    | some related' => exact ih related'

/-- Along no step. -/
theorem along_nil : Along step property s [] ↔ property s := by
  constructor
  · exact fun along => along [] [] s rfl rfl
  · rintro holds before after t split ran
    obtain ⟨rfl, rfl⟩ := List.append_eq_nil_iff.mp split.symm
    cases ran
    exact holds

/-- Along a first step and the rest. -/
theorem along_cons : Along step property s (event :: events) ↔
    property s ∧ ∀ s', step s event = some s' → Along step property s' events := by
  constructor
  · refine fun along => ⟨along [] _ s rfl rfl, fun s' stepped before after t split ran => ?_⟩
    refine along (event :: before) after t (by rw [split]; rfl) ?_
    rw [run_cons, stepped]
    exact ran
  · rintro ⟨holds, later⟩ before after t split ran
    cases before with
    | nil =>
      cases ran
      exact holds
    | cons first before =>
      obtain ⟨rfl, rest⟩ := List.cons.inj split
      rw [run_cons] at ran
      obtain ⟨s', stepped, ran⟩ := Option.bind_eq_some_iff.mp ran
      exact later s' stepped before after t rest ran

/-- There is no step. -/
theorem eachStep_nil : EachStep step condition s [] := by
  intro before event after t t' split
  simp at split

/-- The first step and the rest. -/
theorem eachStep_cons : EachStep step condition s (event :: events) ↔
    ∀ s', step s event = some s' → condition s event ∧ EachStep step condition s' events := by
  constructor
  · intro each s' stepped
    refine ⟨each [] event events s s' rfl rfl stepped, fun before e after t t' split ran => ?_⟩
    refine each (event :: before) e after t t' (by rw [split]; rfl) ?_
    rw [run_cons, stepped]
    exact ran
  · intro each before e after t t' split ran stepped
    cases before with
    | nil =>
      obtain ⟨rfl, -⟩ := List.cons.inj split
      cases ran
      exact (each t' stepped).1
    | cons first before =>
      obtain ⟨rfl, rest⟩ := List.cons.inj split
      rw [run_cons] at ran
      obtain ⟨s', stepped', ran⟩ := Option.bind_eq_some_iff.mp ran
      exact (each s' stepped').2 before e after t t' rest ran stepped

/-- The steps that follow a first part of the run. -/
theorem EachStep.after {before after : List ε} {t : σ}
    (each : EachStep step condition s (before ++ after)) (ran : run step s before = some t) :
    EachStep step condition t after := by
  induction before generalizing s with
  | nil =>
    cases ran
    exact each
  | cons first before ih =>
    rw [run_cons] at ran
    obtain ⟨s', stepped, ran⟩ := Option.bind_eq_some_iff.mp ran
    exact ih (eachStep_cons.mp each s' stepped).2 ran

instance decidableEachStep [∀ s event, Decidable (condition s event)] :
    ∀ (s : σ) (events : List ε), Decidable (EachStep step condition s events)
  | _, [] => isTrue eachStep_nil
  | s, event :: events =>
    match stepped : step s event with
    | none => isTrue (eachStep_cons.mpr fun s' next => by rw [stepped] at next; cases next)
    | some s' =>
      have := decidableEachStep s' events
      decidable_of_iff (condition s event ∧ EachStep step condition s' events) <| by
        simp [eachStep_cons, stepped]

/-- An invariant that every step keeps, if it meets the condition, holds along the runs whose steps
all meet it. -/
theorem along_of_eachStep (keeps : ∀ s event s', sound s → condition s event →
      step s event = some s' → sound s') (start : sound s)
    (each : EachStep step condition s events) : Along step sound s events := by
  induction events generalizing s with
  | nil => exact along_nil.mpr start
  | cons event events ih =>
    refine along_cons.mpr ⟨start, fun s' stepped => ?_⟩
    obtain ⟨met, later⟩ := eachStep_cons.mp each s' stepped
    exact ih (keeps s event s' start met stepped) later

/-- Two conditions say the same of a run if they do of a step wherever an invariant holds that steps
which meet one of them keep. -/
theorem eachStep_iff_of_keeps
    (same : ∀ s event s', sound s → step s event = some s' → (goal s event ↔ condition s event))
    (keeps : ∀ s event s', sound s → condition s event → step s event = some s' → sound s')
    (start : sound s) (events : List ε) :
    EachStep step goal s events ↔ EachStep step condition s events := by
  induction events generalizing s with
  | nil => exact iff_of_true eachStep_nil eachStep_nil
  | cons event events ih =>
    rw [eachStep_cons, eachStep_cons]
    apply forall₂_congr
    intro s' stepped
    rw [same s event s' start stepped]
    apply and_congr_right
    intro met
    exact ih (keeps s event s' start met stepped)

/-- What an invariant gives of the steps that meet the condition holds of every step of the runs
whose steps all meet it. -/
theorem eachStep_of_eachStep
    (gives : ∀ s event s', sound s → condition s event → step s event = some s' → goal s event)
    (keeps : ∀ s event s', sound s → condition s event → step s event = some s' → sound s')
    (start : sound s) (each : EachStep step condition s events) : EachStep step goal s events := by
  intro before event after t t' split ran stepped
  have along : Along step sound s events := along_of_eachStep keeps start each
  have met : condition t event := each before event after t t' split ran stepped
  exact gives t event t' (along before (event :: after) t split ran) met stepped

/-- A property lasts until a step that may end it, if an invariant gives it and every other step
keeps the invariant. -/
theorem until_of_eachStep {ending : σ → ε → Prop} (gives : ∀ s, sound s → property s)
    (steps : ∀ s event s', sound s → condition s event → step s event = some s' →
      sound s' ∨ ¬property s' ∧ ending s event) (start : sound s)
    (each : EachStep step condition s events) : Until step property ending s events := by
  induction events generalizing s with
  | nil =>
    intro before event after t t' split
    simp at split
  | cons first events ih =>
    intro before event after t t' split ran holds stepped broken
    cases before with
    | nil =>
      obtain ⟨rfl, -⟩ := List.cons.inj split
      cases ran
      have met : condition s first := (eachStep_cons.mp each t' stepped).1
      obtain sound' | ⟨-, ended⟩ := steps s first t' start met stepped
      · exact absurd (gives t' sound') broken
      · exact ended
    | cons first' before =>
      obtain ⟨rfl, rest⟩ := List.cons.inj split
      rw [run_cons] at ran
      obtain ⟨s', stepped', ran⟩ := Option.bind_eq_some_iff.mp ran
      obtain ⟨met, later⟩ := eachStep_cons.mp each s' stepped'
      have holds' : Along step property s' before := (along_cons.mp holds).2 s' stepped'
      obtain sound' | ⟨lost, -⟩ := steps s first s' start met stepped'
      · exact ih sound' later before event after t t' rest ran holds' stepped broken
      · exact absurd (holds' [] before s' rfl rfl) lost

/-- The property holds along a run exactly when its steps meet the condition, if such steps keep an
invariant that gives the property and any other step breaks it at once. -/
theorem along_iff_eachStep (gives : ∀ s, sound s → property s)
    (keeps : ∀ s event s', sound s → condition s event → step s event = some s' → sound s')
    (breaks : ∀ s event s', sound s → ¬condition s event → step s event = some s' → ¬property s')
    (start : sound s) : Along step property s events ↔ EachStep step condition s events := by
  induction events generalizing s with
  | nil => exact iff_of_true (along_nil.mpr (gives s start)) eachStep_nil
  | cons event events ih =>
    rw [along_cons, eachStep_cons]
    constructor
    · rintro ⟨-, later⟩ s' stepped
      have met : condition s event := by
        by_contra unmet
        have first : property s' := later s' stepped [] events s' rfl rfl
        exact breaks s event s' start unmet stepped first
      exact ⟨met, (ih (keeps s event s' start met stepped)).mp (later s' stepped)⟩
    · intro each
      refine ⟨gives s start, fun s' stepped => ?_⟩
      obtain ⟨met, later⟩ := each s' stepped
      exact (ih (keeps s event s' start met stepped)).mpr later

end CtrlMesh.Lib
