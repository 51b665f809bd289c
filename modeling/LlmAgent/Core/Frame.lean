/-
Frame rules for computations that read and write a state and may raise: what a computation leaves as it was.

`Keeps f call` says that `call` does not change `f` of the state, whether it returns or raises. The rules follow the
ways such computations are put together, so that a frame fact about an operation is read off its text.
-/
import Mathlib.Tactic.SplitIfs

namespace Core

variable {ε σ α β γ : Type}

/-- the state a computation leaves -/
def finalState : EStateM.Result ε σ α → σ
  | .ok _ s => s
  | .error _ s => s

/-- the computation leaves `f` of the state as it was -/
def Keeps (f : σ → γ) (call : EStateM ε σ α) : Prop := ∀ s, f (finalState (call.run s)) = f s

namespace Keeps

variable {f : σ → γ}

theorem pure (a : α) : Keeps f (Pure.pure a : EStateM ε σ α) := fun _ => rfl

theorem throw (e : ε) : Keeps f (MonadExcept.throw e : EStateM ε σ α) := fun _ => rfl

theorem get : Keeps f (MonadState.get : EStateM ε σ σ) := fun _ => rfl

theorem modify {g : σ → σ} (h : ∀ s, f (g s) = f s) :
    Keeps f (modifyGet fun s => (PUnit.unit, g s) : EStateM ε σ PUnit) := h

theorem bind {x : EStateM ε σ α} {y : α → EStateM ε σ β} (hx : Keeps f x) (hy : ∀ a, Keeps f (y a)) :
    Keeps f (x >>= y) := by
  intro s
  have hxs := hx s
  rw [EStateM.run_bind]
  cases hrun : x.run s with
  | ok a s' =>
    rw [hrun] at hxs
    exact (hy a s').trans hxs
  | error e s' =>
    rw [hrun] at hxs
    exact hxs

theorem tryCatch {x : EStateM ε σ α} {handler : ε → EStateM ε σ α} (hx : Keeps f x)
    (hhandler : ∀ e, Keeps f (handler e)) : Keeps f (MonadExcept.tryCatch x handler) := by
  intro s
  have hxs := hx s
  change f (finalState (EStateM.tryCatch x handler s)) = f s
  change f (finalState (x s)) = f s at hxs
  simp only [EStateM.tryCatch]
  cases hrun : x s with
  | ok a s' =>
    rw [hrun] at hxs
    exact hxs
  | error e s' =>
    rw [hrun] at hxs
    exact (hhandler e s').trans hxs

theorem ite {c : Prop} [Decidable c] {x y : EStateM ε σ α} (hx : Keeps f x) (hy : Keeps f y) :
    Keeps f (if c then x else y) := by
  split_ifs
  · exact hx
  · exact hy

end Keeps

end Core
