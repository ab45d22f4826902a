import Unwinding.Fault

/-!
# Actions

Steps that may fail and that change a state. The state survives a fault, so what a failed step
leaves behind is part of its result.
-/
namespace Unwinding

abbrev Action (σ : Type) := EStateM Fault σ

namespace Action
variable {σ τ α β : Type}

/-- The outcome of a step that looks at no state. -/
def settle : Except Fault α → Action σ α
  | .ok a => pure a
  | .error f => throw f

/-- Runs an action on one part of a larger state and puts that part back, also after a fault. -/
def focus (part : σ → τ) (restore : τ → σ → σ) (x : Action τ α) : Action σ α := fun s =>
  match x (part s) with
  | .ok a t => .ok a (restore t s)
  | .error f t => .error f (restore t s)

/-- The result of a run, the state left aside. -/
def result : EStateM.Result Fault σ α → Except Fault α
  | .ok a _ => .ok a
  | .error f _ => .error f

/-- The state that a run leaves behind, whether or not it failed. -/
def final : EStateM.Result Fault σ α → σ
  | .ok _ s | .error _ s => s

@[simp] theorem settle_ok (a : α) (s : σ) : settle (.ok a) s = .ok a s := rfl

@[simp] theorem settle_error (f : Fault) (s : σ) : settle (α := α) (.error f) s = .error f s := rfl

theorem eq_ok_of_result {r : EStateM.Result Fault σ α} {a : α} (h : result r = .ok a) :
    r = .ok a (final r) := by
  cases r <;> cases h
  rfl

theorem eq_error_of_result {r : EStateM.Result Fault σ α} {f : Fault} (h : result r = .error f) :
    r = .error f (final r) := by
  cases r <;> cases h
  rfl

theorem bind_of_ok {x : Action σ α} {k : α → Action σ β} {s t : σ} {a : α} (h : x s = .ok a t) :
    (x >>= k) s = k a t := by simp [bind, EStateM.bind, h]

theorem bind_of_error {x : Action σ α} {k : α → Action σ β} {s t : σ} {f : Fault}
    (h : x s = .error f t) : (x >>= k) s = .error f t := by simp [bind, EStateM.bind, h]

theorem focus_of_ok {part : σ → τ} {restore : τ → σ → σ} {x : Action τ α} {s : σ} {t : τ} {a : α}
    (h : x (part s) = .ok a t) : focus part restore x s = .ok a (restore t s) := by
  simp [focus, h]

theorem focus_of_error {part : σ → τ} {restore : τ → σ → σ} {x : Action τ α} {s : σ} {t : τ}
    {f : Fault} (h : x (part s) = .error f t) :
    focus part restore x s = .error f (restore t s) := by
  simp [focus, h]

end Action

end Unwinding
