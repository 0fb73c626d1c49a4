import Mathlib.Init

/-!
# Failing computations over a state

Rules for `EStateM` programs whose state survives a failure, as it does when a controller returns
an error after some of its calls went through. `Upholds inv m post`: from a state that meets the
invariant, `m` ends in one that meets it however it ends, and a returned value meets `post`.
`Yields m s post`: if `m` succeeds from `s`, what it returns and the state it leaves meet `post`.
-/

namespace CtrlMesh.Lib.Effect

variable {ε σ α β : Type}

/-- The state a run ends in, failed or not. -/
def after (m : EStateM ε σ α) (s : σ) : σ :=
  match m.run s with
  | .ok _ s' => s'
  | .error _ s' => s'

variable {m : EStateM ε σ α} {s' : σ} {a : α} {f : α → EStateM ε σ β} {handler : ε → EStateM ε σ α}
  {s : σ} {e : ε}

/-- The state after a success. -/
theorem after_of_ok (ran : m.run s = .ok a s') : after m s = s' := by
  simp [after, ran]

/-- The state after a failure. -/
theorem after_of_error (ran : m.run s = .error e s') : after m s = s' := by
  simp [after, ran]

/-- After a successful first part the rest runs from the state it left. -/
theorem after_bind (ran : m.run s = .ok a s') : after (m >>= f) s = after (f a) s' := by
  simp [after, EStateM.run_bind, ran]

/-- A sequence succeeds exactly if both parts do. -/
theorem run_bind_ok {b : β} :
    (m >>= f).run s = .ok b s' ↔ ∃ a t, m.run s = .ok a t ∧ (f a).run t = .ok b s' := by
  rw [EStateM.run_bind]
  cases m.run s with
  | ok a t =>
    constructor
    · exact fun ran => ⟨a, t, rfl, ran⟩
    · rintro ⟨_, _, ⟨⟩, ran⟩
      exact ran
  | error e t => simp

/-- A handler runs from the state the failure left. -/
theorem run_tryCatch_error (ran : m.run s = .error e s') :
    (tryCatch m handler).run s = (handler e).run s' := by
  change EStateM.tryCatch m handler s = _
  have ran' : m s = .error e s' := ran
  delta EStateM.tryCatch
  simp only [ran']
  rfl

/-- A success is not handled. -/
theorem run_tryCatch_ok (ran : m.run s = .ok a s') : (tryCatch m handler).run s = .ok a s' := by
  change EStateM.tryCatch m handler s = _
  have ran' : m s = .ok a s' := ran
  delta EStateM.tryCatch
  simp only [ran']

/-- The invariant survives every run, and what a run returns meets the postcondition. -/
def Upholds (inv : σ → Prop) (m : EStateM ε σ α) (post : α → Prop) : Prop :=
  ∀ s, inv s → inv (after m s) ∧ ∀ a s', m.run s = .ok a s' → post a

section Rules

variable {inv : σ → Prop} {post : α → Prop} {post' : β → Prop}

/-- The postcondition may be weakened. -/
theorem upholds_mono {weaker : α → Prop} (upheld : Upholds inv m post)
    (weaken : ∀ a, post a → weaker a) : Upholds inv m weaker :=
  fun s holds => ⟨(upheld s holds).1, fun a s' ran => weaken a ((upheld s holds).2 a s' ran)⟩

/-- The rule of `pure`. -/
theorem upholds_pure (met : post a) : Upholds inv (pure a : EStateM ε σ α) post := by
  refine fun s holds => ⟨holds, fun b s' ran => ?_⟩
  cases ran
  exact met

/-- The rule of `throw`. -/
theorem upholds_throw {e : ε} : Upholds inv (throw e : EStateM ε σ α) post :=
  fun _ holds => ⟨holds, fun _ _ ran => by cases ran⟩

/-- The state read meets the invariant. -/
theorem upholds_get : Upholds inv (get : EStateM ε σ σ) inv := by
  refine fun s holds => ⟨holds, fun a s' ran => ?_⟩
  cases ran
  exact holds

/-- The rule of `modify`. -/
theorem upholds_modify {f : σ → σ} (kept : ∀ s, inv s → inv (f s)) :
    Upholds inv (modify f : EStateM ε σ PUnit) fun _ => True :=
  fun s holds => ⟨kept s holds, fun _ _ _ => trivial⟩

/-- The rule of sequencing. -/
theorem upholds_bind (first : Upholds inv m post) (rest : ∀ a, post a → Upholds inv (f a) post') :
    Upholds inv (m >>= f) post' := by
  intro s holds
  cases ran : m.run s with
  | ok a s' =>
    have holds' : inv s' := after_of_ok ran ▸ (first s holds).1
    have upheld := rest a ((first s holds).2 a s' ran) s' holds'
    refine ⟨after_bind ran ▸ upheld.1, fun b t ran' => ?_⟩
    exact upheld.2 b t (by simpa [EStateM.run_bind, ran] using ran')
  | error e s' =>
    have failed : (m >>= f).run s = .error e s' := by simp [EStateM.run_bind, ran]
    refine ⟨?_, fun b t ran' => by rw [failed] at ran'; cases ran'⟩
    rw [after_of_error failed, ← after_of_error ran]
    exact (first s holds).1

/-- The rule of a handler. -/
theorem upholds_tryCatch (first : Upholds inv m post) (rest : ∀ e, Upholds inv (handler e) post) :
    Upholds inv (tryCatch m handler) post := by
  intro s holds
  cases ran : m.run s with
  | ok a s' =>
    rw [after_of_ok (run_tryCatch_ok ran), ← after_of_ok ran]
    refine ⟨(first s holds).1, fun b t ran' => ?_⟩
    rw [run_tryCatch_ok ran] at ran'
    exact (first s holds).2 b t (ran.trans ran')
  | error e s' =>
    have holds' : inv s' := after_of_error ran ▸ (first s holds).1
    have same : after (tryCatch m handler) s = after (handler e) s' := by
      simp only [after, run_tryCatch_error ran]
    rw [same, run_tryCatch_error ran]
    exact rest e s' holds'

/-- The rule of a conditional. -/
theorem upholds_ite {c : Prop} [Decidable c] {n : EStateM ε σ α} (yes : c → Upholds inv m post)
    (no : ¬c → Upholds inv n post) : Upholds inv (if c then m else n) post := by
  split
  · next holds => exact yes holds
  · next fails => exact no fails

/-- A loop upholds what its body upholds for every element. -/
theorem upholds_forM {items : List β} {body : β → EStateM ε σ PUnit}
    (each : ∀ item ∈ items, Upholds inv (body item) fun _ => True) :
    Upholds inv (forM items body) fun _ => True := by
  induction items with
  | nil => exact upholds_pure trivial
  | cons item rest ih =>
    rw [List.forM_cons]
    refine upholds_bind (each item List.mem_cons_self) fun _ _ => ih fun other member => ?_
    exact each other (List.mem_cons_of_mem item member)

end Rules

/-- What a successful run returns and leaves. -/
def Yields (m : EStateM ε σ α) (s : σ) (post : α → σ → Prop) : Prop :=
  ∀ a s', m.run s = .ok a s' → post a s'

section Success

variable {s : σ} {post : α → σ → Prop} {post' : β → σ → Prop}

/-- The postcondition may be weakened. -/
theorem yields_mono {weaker : α → σ → Prop} (yields : Yields m s post)
    (weaken : ∀ a s', post a s' → weaker a s') : Yields m s weaker :=
  fun a s' ran => weaken a s' (yields a s' ran)

/-- The rule of `pure`. -/
theorem yields_pure (met : post a s) : Yields (pure a : EStateM ε σ α) s post := by
  intro b s' ran
  cases ran
  exact met

/-- The rule of sequencing. -/
theorem yields_bind {middle : α → σ → Prop} (first : Yields m s middle)
    (rest : ∀ a s', middle a s' → Yields (f a) s' post') : Yields (m >>= f) s post' := by
  intro b t ran
  cases ran' : m.run s with
  | ok a s' => exact rest a s' (first a s' ran') b t (by simpa [EStateM.run_bind, ran'] using ran)
  | error e s' => simp [EStateM.run_bind, ran'] at ran

end Success

end CtrlMesh.Lib.Effect
