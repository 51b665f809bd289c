/-
Amortised counting: what a run can do at most is bounded by the potential it starts with and what it earns on the way.

- `Machine.tally`: what the steps of a run count, added up;
- `Machine.tally_le`: a potential that, with what a step earns, pays for the step bounds the tally of the run;
- `Automaton.run_pays`, `Automaton.family_pays`: the same for the labels of an automaton, and for the labels of some
  members of a family.
-/
import LlmAgent.Core.Automaton
import Mathlib.Algebra.Order.BigOperators.Group.List
import Mathlib.Algebra.Order.Ring.Int
import Mathlib.Algebra.Order.Ring.Nat

namespace Core

namespace Machine

variable {σ ι ο : Type} (M : Machine σ ι ο) {f g : σ → ι → ℕ}

/-- what the steps of a run count, each judged in the state before it -/
def tally (f : σ → ι → ℕ) : σ → List ι → ℕ
  | _, [] => 0
  | s, i :: is => f s i + tally f (M.step s i) is

variable {M}

@[simp] theorem tally_nil (s : σ) : M.tally f s [] = 0 := rfl

@[simp] theorem tally_cons (s : σ) (i : ι) (is : List ι) :
    M.tally f s (i :: is) = f s i + M.tally f (M.step s i) is := rfl

/-- **Amortised counting.** If the potential and what a step earns pay for what the step counts, the run counts at most
what its potential fell by and what it earned. -/
theorem tally_le {I : σ → Prop} {P : σ → ι → Prop} {Φ : σ → ℤ} (hkeep : ∀ s i, I s → P s i → I (M.step s i))
    (hpay : ∀ s i, I s → P s i → Φ (M.step s i) + f s i ≤ Φ s + g s i) {s : σ} (hs : I s) {is : List ι}
    (h : M.Along P s is) : Φ (M.run s is) + M.tally f s is ≤ Φ s + M.tally g s is := by
  induction is generalizing s with
  | nil => simp
  | cons i is ih =>
    have hhead := hpay s i hs h.1
    have htail := ih (hkeep s i hs h.1) h.2
    rw [tally_cons, tally_cons, run_cons, Nat.cast_add, Nat.cast_add]
    omega

/-- a tally that counts the inputs of a kind -/
theorem tally_eq_countP {p : ι → Bool} (hf : ∀ s i, f s i = if p i then 1 else 0) (s : σ) (is : List ι) :
    M.tally f s is = is.countP p := by
  induction is generalizing s with
  | nil => rfl
  | cons i is ih =>
    rw [tally_cons, List.countP_cons, ih, hf]
    omega

end Machine

namespace Automaton

variable {ν α κ : Type}

/-- what the labels of a list count -/
def total (c : α → ℕ) (l : List α) : ℕ := (l.map c).sum

theorem total_zero (l : List α) : total (fun _ => 0) l = 0 := by
  simp [total]

theorem total_append (c : α → ℕ) (l m : List α) : total c (l ++ m) = total c l + total c m := by
  simp [total]

theorem le_total {c : α → ℕ} {l : List α} {a : α} (h : a ∈ l) : c a ≤ total c l :=
  List.single_le_sum (fun _ _ => Nat.zero_le _) _ (List.mem_map_of_mem h)

/-- the labels of a legal list are paid by what they earn and the fall of a potential that pays for each of them -/
theorem run_pays {A : Automaton ν α} {φ : ν → ℤ} {c d : α → ℕ}
    (hpay : ∀ v a, A.Enabled v a → φ (A.apply v a) + c a ≤ φ v + d a) {v : ν} {l : List α} (hl : A.Legal v l) :
    φ (A.run v l) + total c l ≤ φ v + total d l := by
  induction l generalizing v with
  | nil => simp [total]
  | cons a l ih =>
    have hhead := hpay v a hl.1
    have htail : φ (A.run (A.apply v a) l) + total c l ≤ φ (A.apply v a) + total d l := ih hl.2
    have htotal : ∀ e : α → ℕ, total e (a :: l) = e a + total e l := by simp [total]
    rw [run_cons, htotal c, htotal d, Nat.cast_add, Nat.cast_add]
    omega

variable [DecidableEq κ] {A : κ → Automaton ν α}

/-- **The labels addressed to some members** are paid by the sum of their potentials and what they earn. -/
theorem family_pays {φ : ν → ℤ} {c d : α → ℕ}
    (hpay : ∀ k v a, (A k).Enabled v a → φ ((A k).apply v a) + c a ≤ φ v + d a)
    {W : κ → ν} {l : List (κ × α)} (hl : (family A).Legal W l) (ks : List κ) :
    (ks.map fun k => φ ((family A).run W l k)).sum + ((ks.map fun k => total c (proj k l)).sum : ℕ) ≤
      (ks.map fun k => φ (W k)).sum + ((ks.map fun k => total d (proj k l)).sum : ℕ) := by
  induction ks with
  | nil => simp
  | cons k ks ih =>
    have hone : φ ((family A).run W l k) + total c (proj k l) ≤ φ (W k) + total d (proj k l) := by
      rw [family_run_apply]
      exact run_pays (hpay k) (family_legal_proj hl k)
    simp only [List.map_cons, List.sum_cons, Nat.cast_add] at ih ⊢
    omega

end Automaton

end Core
