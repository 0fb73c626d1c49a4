import Mathlib.Logic.Function.Basic
import Mathlib.Logic.Relation

/-!
# Programs that share a server

A program makes calls to a server and goes on with the answers. Many run at once, and each call is
one step. What a program may rely on is a relation between states that all programs keep: a program
is safe when every call it makes keeps the relation, whatever the others have done in between, and
it ends as it should.
-/

namespace CtrlMesh.Lib.Shared

variable {σ ι Req α γ : Type} {Resp : Req → Type}

/-- A program that calls a shared service. -/
inductive Prog (Resp : Req → Type) (α : Type) where
  | done (a : α)
  | call (req : Req) (next : Resp req → Prog Resp α)

/-- One program after another. -/
def Prog.bind : Prog Resp α → (α → Prog Resp γ) → Prog Resp γ
  | .done a, f => f a
  | .call req next, f => .call req fun resp => (next resp).bind f

instance : Monad (Prog Resp) where
  pure := .done
  bind := .bind

/-- One call. -/
def ask (req : Req) : Prog Resp (Resp req) := .call req .done

variable (serves : σ → (req : Req) → Resp req → σ → Prop) (rely : σ → σ → Prop)

/-- Every call of the program keeps what others rely on, and the program ends as it should. -/
def Safe (post : α → σ → Prop) : Prog Resp α → σ → Prop
  | .done a, s => post a s
  | .call req next, s => ∀ t, rely s t → ∀ resp u, serves t req resp u →
      rely t u ∧ Safe post (next resp) u

/-- What others do leaves it true. -/
def Stable (rely : σ → σ → Prop) (p : σ → Prop) : Prop := ∀ s t, p s → rely s t → p t

variable {serves rely} {post : α → σ → Prop} {s t : σ} {p : Prog Resp α}

/-- A safe program stays safe while the others run. -/
theorem Safe.later (trans : ∀ s t u, rely s t → rely t u → rely s u)
    (stable : ∀ a, Stable rely (post a)) (safe : Safe serves rely post p s) (others : rely s t) :
    Safe serves rely post p t := by
  cases p with
  | done a => exact stable a s t safe others
  | call req next => exact fun u more => safe u (trans s t u others more)

/-- The rule of sequencing. -/
theorem Safe.bind {last : γ → σ → Prop} {f : α → Prog Resp γ} (first : Safe serves rely post p s)
    (rest : ∀ a t, post a t → Safe serves rely last (f a) t) :
    Safe serves rely last (p >>= f) s := by
  induction p generalizing s with
  | done a => exact rest a s first
  | call req next ih =>
    intro t others resp u served
    obtain ⟨kept, safe⟩ := first t others resp u served
    exact ⟨kept, ih resp safe⟩

/-- The postcondition may be weakened. -/
theorem Safe.mono {last : α → σ → Prop} (safe : Safe serves rely post p s)
    (weaker : ∀ a t, post a t → last a t) : Safe serves rely last p s := by
  induction p generalizing s with
  | done a => exact weaker a s safe
  | call req next ih =>
    intro t others resp u served
    obtain ⟨kept, rest⟩ := safe t others resp u served
    exact ⟨kept, ih resp rest⟩

/-- What others leave true, and every call keeps, is true in the end. -/
theorem Safe.frame {q : σ → Prop} (safe : Safe serves rely post p s) (stable : Stable rely q)
    (holds : q s) : Safe serves rely (fun a t => q t ∧ post a t) p s := by
  induction p generalizing s with
  | done a => exact ⟨holds, safe⟩
  | call req next ih =>
    intro t others resp u served
    obtain ⟨kept, rest⟩ := safe t others resp u served
    exact ⟨kept, ih resp rest (stable t u (stable s t holds others) kept)⟩

/-- A shared state and the threads on it. -/
structure System (σ ι : Type) (Resp : Req → Type) (α : Type) where
  state : σ
  threads : ι → Prog Resp α

variable [DecidableEq ι]

/-- One thread makes its next call, or starts over when it has ended. -/
inductive Step (serves : σ → (req : Req) → Resp req → σ → Prop) (main : Prog Resp α) :
    System σ ι Resp α → System σ ι Resp α → Prop where
  | call {sys : System σ ι Resp α} {i : ι} {req : Req} {next : Resp req → Prog Resp α}
      {resp : Resp req} {t : σ} (calls : sys.threads i = .call req next)
      (served : serves sys.state req resp t) :
      Step serves main sys ⟨t, Function.update sys.threads i (next resp)⟩
  | start {sys : System σ ι Resp α} {i : ι} {a : α} (ended : sys.threads i = .done a) :
      Step serves main sys ⟨sys.state, Function.update sys.threads i main⟩

/-- One thread goes on, and the others stay safe. -/
theorem safe_update {threads : ι → Prog Resp α} {i : ι} (one : Safe serves rely post p t)
    (others : ∀ j, j ≠ i → Safe serves rely post (threads j) t) (j : ι) :
    Safe serves rely post (Function.update threads i p j) t := by
  by_cases same : j = i
  · rw [same, Function.update_self]
    exact one
  · rw [Function.update_of_ne same]
    exact others j same

/-- Where every thread is safe, every run keeps what they rely on and leaves them safe. -/
theorem safe_of_reach {main : Prog Resp α} {sys sys' : System σ ι Resp α} (refl : ∀ s, rely s s)
    (trans : ∀ s t u, rely s t → rely t u → rely s u) (stable : ∀ a, Stable rely (post a))
    (starts : ∀ s, Safe serves rely post main s)
    (safe : ∀ i, Safe serves rely post (sys.threads i) sys.state)
    (reach : Relation.ReflTransGen (Step serves main) sys sys') :
    rely sys.state sys'.state ∧ ∀ i, Safe serves rely post (sys'.threads i) sys'.state := by
  induction reach with
  | refl => exact ⟨refl _, safe⟩
  | tail _ step ih =>
    obtain ⟨before, safe⟩ := ih
    cases step with
    | call calls served =>
      rename_i i req next resp t
      have one := safe i
      rw [calls] at one
      obtain ⟨now, next'⟩ := one _ (refl _) resp t served
      exact ⟨trans _ _ _ before now, safe_update next' fun j _ => (safe j).later trans stable now⟩
    | start ended => exact ⟨before, safe_update (starts _) fun j _ => safe j⟩

end CtrlMesh.Lib.Shared
