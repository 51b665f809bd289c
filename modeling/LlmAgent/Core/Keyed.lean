/-
Operations that each read and write the cell of one key, and what a sequence of them leaves and answers.

A history is a list of operations with the answers they gave; `Answered` says that these are the answers of the
operations when they run one after the other from a given family of cells.

- `after_congr`, `Answered.congr`: a history depends only on the cells of the keys it touches;
- `after_still`: operations that leave what they find;
- `rebase`: an action on one cell that commutes with the operations on that key can be moved before the whole history.
-/
import Mathlib.Data.List.Basic
import Mathlib.Data.List.Induction
import Mathlib.Logic.Function.Basic

namespace Core

/-- operations ι on the cells σ of keys κ, with answers ρ -/
structure Keyed (ι κ σ ρ : Type) where
  key : ι → κ
  exec : ι → σ → ρ × σ

namespace Keyed

variable {ι κ σ ρ : Type} [DecidableEq κ] (K : Keyed ι κ σ ρ)

/-- the cells after one operation -/
def act (w : κ → σ) (i : ι) : κ → σ := Function.update w (K.key i) (K.exec i (w (K.key i))).2

/-- the cells after a history -/
def after (w : κ → σ) (l : List (ι × ρ)) : κ → σ := l.foldl (fun w e => K.act w e.1) w

/-- every operation of the history answered what it answers at its place in the order -/
def Answered (w : κ → σ) (l : List (ι × ρ)) : Prop :=
  ∀ pre e post, l = pre ++ e :: post → e.2 = (K.exec e.1 (K.after w pre (K.key e.1))).1

@[simp] theorem after_nil (w : κ → σ) : K.after w [] = w := rfl

theorem after_snoc (w : κ → σ) (l : List (ι × ρ)) (e : ι × ρ) : K.after w (l ++ [e]) = K.act (K.after w l) e.1 := by
  simp [after, List.foldl_append]

theorem act_self (w : κ → σ) (i : ι) : K.act w i (K.key i) = (K.exec i (w (K.key i))).2 := Function.update_self _ _ _

theorem act_other {w : κ → σ} {i : ι} {k : κ} (h : K.key i ≠ k) : K.act w i k = w k :=
  Function.update_of_ne (Ne.symm h) _ _

theorem answered_nil (w : κ → σ) : K.Answered w [] := by
  intro pre e post h
  cases pre <;> cases h

theorem answered_snoc {w : κ → σ} {l : List (ι × ρ)} {e : ι × ρ} :
    K.Answered w (l ++ [e]) ↔ K.Answered w l ∧ e.2 = (K.exec e.1 (K.after w l (K.key e.1))).1 := by
  constructor
  · intro h
    refine ⟨fun pre e' post hl => h pre e' (post ++ [e]) (by simp [hl]), h l e [] rfl⟩
  · rintro ⟨hl, he⟩ pre e' post hsplit
    rcases List.eq_nil_or_concat' post with rfl | ⟨post, last, rfl⟩
    · obtain ⟨rfl, hlast⟩ := List.append_inj' hsplit rfl
      obtain rfl := List.singleton_inj.1 hlast
      exact he
    · rw [← List.cons_append, ← List.append_assoc] at hsplit
      obtain ⟨rfl, -⟩ := List.append_inj' hsplit rfl
      exact hl pre e' post rfl

section Locality

variable {w w' : κ → σ} {l : List (ι × ρ)} {k : κ}

/-- a history without an operation on `k` leaves its cell -/
theorem after_untouched (h : ∀ e ∈ l, K.key e.1 ≠ k) : K.after w l k = w k := by
  induction l using List.reverseRecOn with
  | nil => rfl
  | append_singleton l e ih =>
    rw [after_snoc, act_other K (h e (by simp))]
    exact ih fun e' he' => h e' (by simp [he'])

theorem after_congr (h : w k = w' k) : K.after w l k = K.after w' l k := by
  induction l using List.reverseRecOn with
  | nil => exact h
  | append_singleton l e ih =>
    rw [after_snoc, after_snoc]
    by_cases hk : K.key e.1 = k
    · subst hk
      rw [act_self, act_self, ih]
    · rw [act_other K hk, act_other K hk, ih]

theorem Answered.congr (h : K.Answered w l) (hw : ∀ e ∈ l, w (K.key e.1) = w' (K.key e.1)) : K.Answered w' l := by
  intro pre e post hl
  rw [h pre e post hl, after_congr K (hw e (by simp [hl]))]

/-- a history whose operations on `k` leave the cell they find leaves it altogether -/
theorem after_still (hl : K.Answered w l)
    (hstill : ∀ e ∈ l, K.key e.1 = k → ∀ c, e.2 = (K.exec e.1 c).1 → (K.exec e.1 c).2 = c) : K.after w l k = w k := by
  induction l using List.reverseRecOn with
  | nil => rfl
  | append_singleton l e ih =>
    obtain ⟨hprev, hanswer⟩ := (K.answered_snoc).1 hl
    have hl' := ih hprev fun e' he' => hstill e' (by simp [he'])
    rw [after_snoc]
    by_cases hk : K.key e.1 = k
    · subst hk
      rw [act_self, hstill e (by simp) rfl _ hanswer, hl']
    · rw [act_other K hk, hl']

/-- in such a history every operation on `k` answers what it answers at the start -/
theorem answered_still (hl : K.Answered w l)
    (hstill : ∀ e ∈ l, K.key e.1 = k → ∀ c, e.2 = (K.exec e.1 c).1 → (K.exec e.1 c).2 = c) {e : ι × ρ} (he : e ∈ l)
    (hk : K.key e.1 = k) : e.2 = (K.exec e.1 (w k)).1 := by
  induction l using List.reverseRecOn with
  | nil => cases he
  | append_singleton l last ih =>
    obtain ⟨hprev, hanswer⟩ := (K.answered_snoc).1 hl
    have hstill' : ∀ e ∈ l, K.key e.1 = k → ∀ c, e.2 = (K.exec e.1 c).1 → (K.exec e.1 c).2 = c :=
      fun e' he' => hstill e' (by simp [he'])
    rcases List.mem_append.1 he with he | he
    · exact ih hprev hstill' he
    · obtain rfl := List.mem_singleton.1 he
      rw [hk, K.after_still hprev hstill'] at hanswer
      exact hanswer

end Locality

section Rebase

variable {w : κ → σ} {l : List (ι × ρ)} {k : κ} {f : σ → σ} {I : σ → Prop}

/-- `f` can be moved before every operation on `k` of the history, as long as the cell is `I` -/
def Commutes (l : List (ι × ρ)) (k : κ) (f : σ → σ) (I : σ → Prop) : Prop :=
  ∀ e ∈ l, K.key e.1 = k → ∀ c, I c → e.2 = (K.exec e.1 c).1 →
    I (K.exec e.1 c).2 ∧ K.exec e.1 (f c) = ((K.exec e.1 c).1, f (K.exec e.1 c).2)

theorem rebase (hl : K.Answered w l) (hcommutes : K.Commutes l k f I) (hI : I (w k)) :
    I (K.after w l k) ∧
      K.after (Function.update w k (f (w k))) l = Function.update (K.after w l) k (f (K.after w l k)) ∧
      K.Answered (Function.update w k (f (w k))) l := by
  induction l using List.reverseRecOn with
  | nil => exact ⟨hI, rfl, K.answered_nil _⟩
  | append_singleton l e ih =>
    obtain ⟨hprev, hanswer⟩ := (K.answered_snoc).1 hl
    obtain ⟨hinv, hafter, hanswered⟩ := ih hprev fun e' he' => hcommutes e' (by simp [he'])
    rw [after_snoc, after_snoc, hafter]
    by_cases hk : K.key e.1 = k
    · subst hk
      obtain ⟨hinv', hstep⟩ := hcommutes e (by simp) rfl _ hinv hanswer
      refine ⟨by rwa [act_self], ?_, ?_⟩
      · rw [act, act, Function.update_self, hstep, Function.update_idem, Function.update_self, Function.update_idem]
      · rw [answered_snoc]
        refine ⟨hanswered, ?_⟩
        rw [hafter, Function.update_self, hstep]
        exact hanswer
    · rw [act_other K hk]
      refine ⟨hinv, ?_, ?_⟩
      · rw [act, act, Function.update_of_ne hk, Function.update_comm (Ne.symm hk)]
      · rw [answered_snoc]
        refine ⟨hanswered, ?_⟩
        rw [hafter, Function.update_of_ne hk]
        exact hanswer

end Rebase

end Keyed

end Core
