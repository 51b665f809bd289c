/-
What a computation can be made to answer, when the outside decides part of its state.

`Returns` and `Answers` hold of every state; here it is the other way round. `CanAnswer call a` says that the
computation answers `a` in some state. That alone does not compose: the answer of a first computation may need a state
that leaves the second one none to answer from. `Offers keep call a` does compose: whatever state the computation is to
end in, it answers `a` and ends there, from some state with the same `keep` (the part that the outside does not decide).

- `Offers.bind`, `Offers.mapM`: sequence, and one call for each element of a list;
- `Free`: the computation offers all it can answer and leaves `keep` alone; `Free.bind`, `Free.mapM`: so do sequences;
- `Returns.offers`: such a computation offers something, if it never raises.
-/
import LlmAgent.Core.Returns

namespace Core

variable {ε σ κ α β : Type} {keep : σ → κ}

/-- in some state the computation answers `a` -/
def CanAnswer (call : EStateM ε σ α) (a : α) : Prop := ∃ s s', call.run s = .ok a s'

/-- whatever state it is to end in, from some state that agrees on `keep` the computation answers `a` and ends there -/
def Offers (keep : σ → κ) (call : EStateM ε σ α) (a : α) : Prop :=
  ∀ s', ∃ s, keep s = keep s' ∧ call.run s = .ok a s'

/-- the computation offers what it answers, and changes nothing of `keep` -/
def Free (keep : σ → κ) (call : EStateM ε σ α) : Prop :=
  ∀ s a s', call.run s = .ok a s' → keep s' = keep s ∧ Offers keep call a

theorem answers_canAnswer (call : EStateM ε σ α) : Answers call (CanAnswer call) := fun s _ s' hrun => ⟨s, s', hrun⟩

theorem Free.offers {call : EStateM ε σ α} (h : Free keep call) {a : α} (ha : CanAnswer call a) :
    Offers keep call a := by
  obtain ⟨s, s', hrun⟩ := ha
  exact (h s a s' hrun).2

namespace Offers

theorem pure (a : α) : Offers keep (Pure.pure a : EStateM ε σ α) a := fun s' => ⟨s', rfl, rfl⟩

theorem bind {x : EStateM ε σ α} {y : α → EStateM ε σ β} {a : α} {b : β} (hx : Offers keep x a)
    (hy : Offers keep (y a) b) : Offers keep (x >>= y) b := by
  intro s''
  obtain ⟨s', hkeep', hrun'⟩ := hy s''
  obtain ⟨s, hkeep, hrun⟩ := hx s'
  refine ⟨s, hkeep.trans hkeep', ?_⟩
  rw [EStateM.run_bind, hrun]
  exact hrun'

theorem mapM {f : α → EStateM ε σ β} {xs : List α} {ys : List β}
    (h : List.Forall₂ (fun x y => Offers keep (f x) y) xs ys) : Offers keep (xs.mapM f) ys := by
  induction h with
  | nil =>
    rw [List.mapM_nil]
    exact pure []
  | cons hx _ ih =>
    rw [List.mapM_cons]
    exact hx.bind (ih.bind (pure _))

theorem canAnswer [Inhabited σ] {call : EStateM ε σ α} {a : α} (h : Offers keep call a) : CanAnswer call a := by
  obtain ⟨s, -, hrun⟩ := h default
  exact ⟨s, default, hrun⟩

end Offers

namespace Free

theorem pure (a : α) : Free keep (Pure.pure a : EStateM ε σ α) := by
  intro s b s' hrun
  cases hrun
  exact ⟨rfl, Offers.pure a⟩

theorem throw (e : ε) : Free keep (MonadExcept.throw e : EStateM ε σ α) := by
  intro s a s' hrun
  cases hrun

theorem bind {x : EStateM ε σ α} {y : α → EStateM ε σ β} (hx : Free keep x) (hy : ∀ a, Free keep (y a)) :
    Free keep (x >>= y) := by
  intro s b s'' hrun
  rw [EStateM.run_bind] at hrun
  cases hxrun : x.run s with
  | error e s' =>
    rw [hxrun] at hrun
    cases hrun
  | ok a s' =>
    rw [hxrun] at hrun
    obtain ⟨hkeep, hoffers⟩ := hx s a s' hxrun
    obtain ⟨hkeep', hoffers'⟩ := hy a s' b s'' hrun
    exact ⟨hkeep'.trans hkeep, hoffers.bind hoffers'⟩

theorem ite {c : Prop} [Decidable c] {x y : EStateM ε σ α} (hx : Free keep x) (hy : Free keep y) :
    Free keep (if c then x else y) := by
  split_ifs
  · exact hx
  · exact hy

theorem mapM {f : α → EStateM ε σ β} (h : ∀ x, Free keep (f x)) (xs : List α) : Free keep (xs.mapM f) := by
  induction xs with
  | nil =>
    rw [List.mapM_nil]
    exact pure []
  | cons x xs ih =>
    rw [List.mapM_cons]
    exact (h x).bind fun y => ih.bind fun ys => pure _

end Free

/-- a computation that raises in no state and offers all it can answer offers something -/
theorem Returns.offers [Inhabited σ] {call : EStateM ε σ α} {P : α → Prop} (hP : Returns call P)
    (hfree : Free keep call) : ∃ a, P a ∧ Offers keep call a := by
  obtain ⟨a, s', hrun, ha⟩ := hP default
  exact ⟨a, ha, (hfree default a s' hrun).2⟩

end Core
