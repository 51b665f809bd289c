/-
Correctness of computations that read and write a state and may raise, whatever the state is.

`Returns call P` says that `call` raises in no state, and that whatever it returns meets `P`; `Answers call P` leaves it
open whether it raises. The state stands for everything the outside decides (the outcomes of random draws, the readings
of a clock), so such a fact holds for every outcome. The rules follow the ways the computations are put together.

- `Returns.bind`, `Returns.mapM`: sequence, and one call for each element of a list;
- `Answers.bind`, `Answers.mapM`: the same, when the computation may raise;
- `Returns.and_answers`: a computation that does not raise, and what it returns by either rule;
- `run_ofExcept`, `run_tryCatch`, `run_tryFinally`, `run_adaptExcept`: what calls of pure code, handlers, finalizers and
  changes of the exceptions' type do in one state;
- `traversal_ok_iff`: what a pure traversal that may raise answers.
-/
import Mathlib.Data.List.Forall2
import Mathlib.Tactic.SplitIfs

namespace Core

variable {ε σ α β : Type}

/-- in every state the computation returns, and what it returns is `P` -/
def Returns (call : EStateM ε σ α) (P : α → Prop) : Prop := ∀ s, ∃ a s', call.run s = .ok a s' ∧ P a

/-- whatever the computation returns is `P` -/
def Answers (call : EStateM ε σ α) (P : α → Prop) : Prop := ∀ s a s', call.run s = .ok a s' → P a

namespace Returns

theorem pure {P : α → Prop} {a : α} (h : P a) : Returns (Pure.pure a : EStateM ε σ α) P := fun s => ⟨a, s, rfl, h⟩

theorem mono {call : EStateM ε σ α} {P Q : α → Prop} (h : Returns call P) (hPQ : ∀ a, P a → Q a) : Returns call Q := by
  intro s
  obtain ⟨a, s', hrun, ha⟩ := h s
  exact ⟨a, s', hrun, hPQ a ha⟩

theorem bind {x : EStateM ε σ α} {y : α → EStateM ε σ β} {P : α → Prop} {Q : β → Prop} (hx : Returns x P)
    (hy : ∀ a, P a → Returns (y a) Q) : Returns (x >>= y) Q := by
  intro s
  obtain ⟨a, s', hrun, ha⟩ := hx s
  obtain ⟨b, s'', hrun', hb⟩ := hy a ha s'
  refine ⟨b, s'', ?_, hb⟩
  rw [EStateM.run_bind, hrun]
  exact hrun'

theorem ite {c : Prop} [Decidable c] {x y : EStateM ε σ α} {P : α → Prop} (hx : c → Returns x P)
    (hy : ¬ c → Returns y P) : Returns (if c then x else y) P := by
  split_ifs with h
  · exact hx h
  · exact hy h

theorem mapM {f : α → EStateM ε σ β} {Q : β → Prop} {xs : List α} (h : ∀ x ∈ xs, Returns (f x) Q) :
    Returns (xs.mapM f) fun ys => ys.length = xs.length ∧ ∀ y ∈ ys, Q y := by
  induction xs with
  | nil =>
    rw [List.mapM_nil]
    exact pure ⟨rfl, fun y hy => absurd hy List.not_mem_nil⟩
  | cons x xs ih =>
    rw [List.mapM_cons]
    refine bind (h x List.mem_cons_self) fun y hy => ?_
    refine bind (ih fun x' hx' => h x' (List.mem_cons_of_mem x hx')) fun ys ⟨hlen, hys⟩ => ?_
    refine pure ⟨by simp [hlen], ?_⟩
    intro z hz
    rcases List.mem_cons.1 hz with rfl | hz
    · exact hy
    · exact hys z hz

end Returns

namespace Answers

theorem pure {P : α → Prop} {a : α} (h : P a) : Answers (Pure.pure a : EStateM ε σ α) P := by
  intro s b s' hrun
  cases hrun
  exact h

theorem throw {P : α → Prop} (e : ε) : Answers (MonadExcept.throw e : EStateM ε σ α) P := by
  intro s a s' hrun
  cases hrun

theorem anything (call : EStateM ε σ α) : Answers call fun _ => True := fun _ _ _ _ => trivial

theorem bind {x : EStateM ε σ α} {y : α → EStateM ε σ β} {P : α → Prop} {Q : β → Prop} (hx : Answers x P)
    (hy : ∀ a, P a → Answers (y a) Q) : Answers (x >>= y) Q := by
  intro s b s'' hrun
  rw [EStateM.run_bind] at hrun
  cases hxrun : x.run s with
  | error e s' =>
    rw [hxrun] at hrun
    cases hrun
  | ok a s' =>
    rw [hxrun] at hrun
    exact hy a (hx s a s' hxrun) s' b s'' hrun

theorem mapM {f : α → EStateM ε σ β} {Q : α → β → Prop} {xs : List α} (h : ∀ x ∈ xs, Answers (f x) (Q x)) :
    Answers (xs.mapM f) fun ys => ∀ y ∈ ys, ∃ x ∈ xs, Q x y := by
  induction xs with
  | nil =>
    rw [List.mapM_nil]
    exact pure fun y hy => absurd hy List.not_mem_nil
  | cons x xs ih =>
    rw [List.mapM_cons]
    refine bind (h x List.mem_cons_self) fun y hy => ?_
    refine bind (ih fun x' hx' => h x' (List.mem_cons_of_mem x hx')) fun ys hys => pure fun z hz => ?_
    rcases List.mem_cons.1 hz with rfl | hz
    · exact ⟨x, List.mem_cons_self, hy⟩
    · obtain ⟨x', hx', hQ⟩ := hys z hz
      exact ⟨x', List.mem_cons_of_mem x hx', hQ⟩

end Answers

/-- what it answers is what it returns -/
theorem Returns.answers {call : EStateM ε σ α} {P : α → Prop} (h : Returns call P) : Answers call P := by
  intro s a s' hrun
  obtain ⟨b, s'', hrun', hb⟩ := h s
  rw [hrun] at hrun'
  cases hrun'
  exact hb

theorem Returns.and_answers {call : EStateM ε σ α} {P Q : α → Prop} (hP : Returns call P) (hQ : Answers call Q) :
    Returns call fun a => P a ∧ Q a := by
  intro s
  obtain ⟨a, s', hrun, ha⟩ := hP s
  exact ⟨a, s', hrun, ha, hQ s a s' hrun⟩

/-! ## Handlers -/

@[simp]
theorem ok_bind (a : α) (f : α → Except ε β) : (Except.ok a >>= f) = f a := rfl

@[simp]
theorem error_bind (e : ε) (f : α → Except ε β) : (Except.error e >>= f) = .error e := rfl

@[simp]
theorem throw_bind (e : ε) (f : α → Except ε β) : (throw e >>= f) = .error e := rfl

/-- a sequence returns only when both its parts do -/
theorem bind_ok {x : Except ε α} {f : α → Except ε β} {b : β} (h : x >>= f = .ok b) :
    ∃ a, x = .ok a ∧ f a = .ok b := by
  cases x with
  | error e => cases h
  | ok a => exact ⟨a, rfl, h⟩

/-- and raises when one of them does -/
theorem bind_error {x : Except ε α} {f : α → Except ε β} {e : ε} (h : x >>= f = .error e) :
    x = .error e ∨ ∃ a, x = .ok a ∧ f a = .error e := by
  cases x with
  | error e' =>
    cases h
    exact Or.inl rfl
  | ok a => exact Or.inr ⟨a, rfl, h⟩

theorem run_ofExcept (result : Except ε α) (s : σ) :
    (MonadExcept.ofExcept result : EStateM ε σ α).run s =
      match result with
      | .ok a => .ok a s
      | .error e => .error e s := by
  cases result <;> rfl

/-- the handler starts where the exception left the state -/
theorem run_tryCatch (x : EStateM ε σ α) (handler : ε → EStateM ε σ α) (s : σ) :
    (tryCatch x handler).run s =
      match x.run s with
      | .ok a s' => .ok a s'
      | .error e s' => (handler e).run s' := by
  change (EStateM.tryCatch x handler) s = _
  unfold EStateM.tryCatch
  rw [EStateM.run]
  cases x s <;> rfl

theorem run_adaptExcept {ε' : Type} (f : ε → ε') (x : EStateM ε σ α) (s : σ) : (EStateM.adaptExcept f x).run s =
    match x.run s with
    | .ok a s' => .ok a s'
    | .error e s' => .error (f e) s' := by
  unfold EStateM.adaptExcept EStateM.run
  cases hrun : x s <;> simp only [hrun]

/-- a finalizer that only writes runs in either case -/
theorem run_tryFinally (x : EStateM ε σ α) (write : σ → σ) (s : σ) :
    (tryFinally x (modify write : EStateM ε σ PUnit)).run s =
      match x.run s with
      | .ok a s' => .ok a (write s')
      | .error e s' => .error e (write s') := by
  cases hrun : x.run s with
  | ok a s' =>
    have hx : x s = .ok a s' := hrun
    simp only [EStateM.run, tryFinally, tryFinally', Functor.map, EStateM.map, hx]
    rfl
  | error e s' =>
    have hx : x s = .error e s' := hrun
    simp only [EStateM.run, tryFinally, tryFinally', Functor.map, EStateM.map, hx]
    rfl

/-! ## Traversals -/

/-- a traversal that may raise answers exactly when each of its calls does -/
theorem traversal_ok_iff {f : α → Except ε β} {xs : List α} {ys : List β} :
    xs.mapM f = .ok ys ↔ List.Forall₂ (fun x y => f x = .ok y) xs ys := by
  induction xs generalizing ys with
  | nil =>
    rw [List.mapM_nil, List.forall₂_nil_left_iff]
    exact ⟨fun h => (Except.ok.inj h).symm, fun h => h ▸ rfl⟩
  | cons x xs ih =>
    rw [List.mapM_cons, List.forall₂_cons_left_iff]
    constructor
    · intro h
      cases hx : f x with
      | error e => rw [hx] at h; cases h
      | ok y =>
        cases hxs : xs.mapM f with
        | error e => rw [hx, hxs] at h; cases h
        | ok rest =>
          rw [hx, hxs] at h
          exact ⟨y, rest, rfl, ih.1 hxs, (Except.ok.inj h).symm⟩
    · rintro ⟨y, rest, hx, hrest, rfl⟩
      rw [hx, ih.2 hrest]
      rfl

end Core
