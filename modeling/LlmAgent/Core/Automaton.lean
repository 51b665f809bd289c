/-
Guarded automata, families of them, and machines that refine them.

An `Automaton` says which labels a state admits and where each leads. `family A` runs one automaton for each index; a
label then names the index it acts on. `family_run_apply` and `family_legal_proj` say that a run of the family is, seen
from one index, a run of that automaton over the labels addressed to it: this is what lets a property be proved once,
on the single automaton, and hold of all of them (`family_keeps`, `family_inv`).

`Refines M A` is a forward simulation with an abstraction function: each input that machine `M` consumes is explained by
a legal list of labels of `A` (a step of `M` may take no label, one or several). `Refines.run` lifts it to runs, and
`Refines.inv_run` is the invariant rule for runs from good states; `Refines.local_step` and `Refines.local_run` carry an
invariant of one member of a family over to the machine.
-/
import LlmAgent.Core.Machine
import Mathlib.Logic.Function.Basic

namespace Core

/-- a guarded automaton: label `a` may be taken in `v` when `Enabled v a`, and then leads to `apply v a` -/
structure Automaton (ν α : Type) where
  Enabled : ν → α → Prop
  apply : ν → α → ν

namespace Automaton

variable {ν α κ : Type} (A : Automaton ν α)

/-- the automaton as a machine that does not reply -/
def machine : Machine ν α Unit := ⟨fun v a => ((), A.apply v a)⟩

def run (v : ν) (l : List α) : ν := A.machine.run v l

/-- every label of the list is enabled where it is taken -/
def Legal (v : ν) (l : List α) : Prop := A.machine.Along A.Enabled v l

@[simp] theorem run_nil (v : ν) : A.run v [] = v := rfl

@[simp] theorem run_cons (v : ν) (a : α) (l : List α) : A.run v (a :: l) = A.run (A.apply v a) l := rfl

theorem run_append (v : ν) (l m : List α) : A.run v (l ++ m) = A.run (A.run v l) m := A.machine.run_append v l m

@[simp] theorem legal_nil (v : ν) : A.Legal v [] := trivial

@[simp] theorem legal_cons (v : ν) (a : α) (l : List α) :
    A.Legal v (a :: l) ↔ A.Enabled v a ∧ A.Legal (A.apply v a) l := Iff.rfl

theorem legal_append (v : ν) (l m : List α) : A.Legal v (l ++ m) ↔ A.Legal v l ∧ A.Legal (A.run v l) m :=
  Machine.along_append v l m

variable {A}

/-- an invariant kept by the enabled labels that meet `C` holds after a legal list of such labels -/
theorem run_inv {I : ν → Prop} {C : α → Prop} (hstep : ∀ v a, C a → I v → A.Enabled v a → I (A.apply v a)) {v : ν}
    {l : List α} (hl : A.Legal v l) (hC : ∀ a ∈ l, C a) (hv : I v) : I (A.run v l) := by
  induction l generalizing v with
  | nil => exact hv
  | cons a l ih =>
    have hnext : I (A.apply v a) := hstep v a (hC a List.mem_cons_self) hv hl.1
    exact ih hl.2 (fun b hb => hC b (List.mem_cons_of_mem a hb)) hnext

/-! ## Families -/

section Family

variable [DecidableEq κ]

/-- one automaton for each index; a label carries the index it acts on -/
def family (A : κ → Automaton ν α) : Automaton (κ → ν) (κ × α) where
  Enabled W p := (A p.1).Enabled (W p.1) p.2
  apply W p := Function.update W p.1 ((A p.1).apply (W p.1) p.2)

/-- the labels of the list addressed to index `k` -/
def proj (k : κ) (l : List (κ × α)) : List α := l.filterMap fun p => if p.1 = k then some p.2 else none

@[simp] theorem proj_nil (k : κ) : proj k ([] : List (κ × α)) = [] := rfl

@[simp] theorem proj_cons_self (k : κ) (a : α) (l : List (κ × α)) : proj k ((k, a) :: l) = a :: proj k l := by
  simp [proj]

theorem proj_cons_ne {k j : κ} (a : α) (l : List (κ × α)) (h : j ≠ k) : proj k ((j, a) :: l) = proj k l := by
  simp [proj, h]

theorem mem_proj {k : κ} {a : α} {l : List (κ × α)} : a ∈ proj k l ↔ (k, a) ∈ l := by
  simp only [proj, List.mem_filterMap, Option.ite_none_right_eq_some, Option.some.injEq]
  constructor
  · rintro ⟨⟨j, b⟩, hm, rfl, rfl⟩; exact hm
  · intro h; exact ⟨(k, a), h, rfl, rfl⟩

/-- one label for each index of a list without repetition -/
theorem proj_map {l : List κ} (hl : l.Nodup) (k : κ) (a : α) :
    proj k (l.map fun j => (j, a)) = if k ∈ l then [a] else [] := by
  induction l with
  | nil => rfl
  | cons j l ih =>
    obtain ⟨hj, hl⟩ := List.nodup_cons.1 hl
    rw [List.map_cons]
    by_cases h : j = k
    · subst h
      rw [proj_cons_self, ih hl, if_neg hj, if_pos List.mem_cons_self]
    · rw [proj_cons_ne a _ h, ih hl]
      simp [Ne.symm h]

theorem proj_append (k : κ) (l m : List (κ × α)) : proj k (l ++ m) = proj k l ++ proj k m := List.filterMap_append

variable {A : κ → Automaton ν α}

@[simp] theorem family_apply_self (W : κ → ν) (k : κ) (a : α) :
    (family A).apply W (k, a) k = (A k).apply (W k) a := Function.update_self k _ W

theorem family_apply_ne (W : κ → ν) {j k : κ} (a : α) (h : k ≠ j) : (family A).apply W (j, a) k = W k :=
  Function.update_of_ne h _ W

/-- **A family runs index by index**: seen from `k`, it is the automaton of `k` running the labels addressed to `k`. -/
theorem family_run_apply (W : κ → ν) (l : List (κ × α)) (k : κ) :
    (family A).run W l k = (A k).run (W k) (proj k l) := by
  induction l generalizing W with
  | nil => rfl
  | cons p l ih =>
    obtain ⟨j, a⟩ := p
    rw [run_cons, ih]
    by_cases h : j = k
    · subst h
      rw [family_apply_self, proj_cons_self, run_cons]
    · rw [family_apply_ne W a (Ne.symm h), proj_cons_ne a l h]

/-- a legal run of the family is legal at every index -/
theorem family_legal_proj {W : κ → ν} {l : List (κ × α)} (h : (family A).Legal W l) (k : κ) :
    (A k).Legal (W k) (proj k l) := by
  induction l generalizing W with
  | nil => trivial
  | cons p l ih =>
    obtain ⟨j, a⟩ := p
    rw [legal_cons] at h
    have hl := ih h.2
    by_cases hj : j = k
    · subst hj
      rw [family_apply_self] at hl
      rw [proj_cons_self, legal_cons]
      exact ⟨h.1, hl⟩
    · rw [family_apply_ne W a (Ne.symm hj)] at hl
      rwa [proj_cons_ne a l hj]

/-- **Local invariants**: a property of index `k` that the labels addressed to it keep holds after every legal run of
the family. -/
theorem family_keeps {I : ν → Prop} {C : α → Prop} {k : κ}
    (hstep : ∀ v a, C a → I v → (A k).Enabled v a → I ((A k).apply v a)) {W : κ → ν} {l : List (κ × α)}
    (hl : (family A).Legal W l) (hC : ∀ a, (k, a) ∈ l → C a) (hW : I (W k)) : I ((family A).run W l k) := by
  rw [family_run_apply]
  exact run_inv hstep (family_legal_proj hl k) (fun a ha => hC a (mem_proj.1 ha)) hW

/-- the same when each automaton keeps the property under every label -/
theorem family_keeps' {I : ν → Prop} {k : κ} (hstep : ∀ v a, I v → (A k).Enabled v a → I ((A k).apply v a))
    {W : κ → ν} {l : List (κ × α)} (hl : (family A).Legal W l) (hW : I (W k)) : I ((family A).run W l k) :=
  family_keeps (C := fun _ => True) (fun v a _ => hstep v a) hl (fun _ _ => trivial) hW

/-- the same when what is known of a label depends on where it is taken: `Q` holds along the list -/
theorem family_inv {I : ν → Prop} {Q : (κ → ν) → κ × α → Prop} {k : κ}
    (hstep : ∀ W a, Q W (k, a) → I (W k) → (A k).Enabled (W k) a → I ((A k).apply (W k) a)) {W : κ → ν}
    {l : List (κ × α)} (hl : (family A).Legal W l) (hQ : (family A).machine.Along Q W l) (hW : I (W k)) :
    I ((family A).run W l k) := by
  refine Machine.run_inv (I := fun W => I (W k)) (P := fun W p => (family A).Enabled W p ∧ Q W p) ?_ hW (hl.and hQ)
  intro V p hV hp
  obtain ⟨j, a⟩ := p
  obtain ⟨hen, hq⟩ := hp
  change I ((family A).apply V (j, a) k)
  by_cases hj : k = j
  · subst hj
    rw [family_apply_self]
    exact hstep V a hq hV hen
  · rwa [family_apply_ne V a hj]

end Family

end Automaton

/-! ## Refinement of an automaton by a machine -/

/-- a forward simulation: from a good state, each input of `M` is explained by a legal list of labels of `A` -/
structure Refines {σ ι ο ω α : Type} (M : Machine σ ι ο) (A : Automaton ω α) where
  abs : σ → ω
  Good : σ → Prop
  /-- which lists of labels may explain an input consumed in a state -/
  Explains : σ → ι → List α → Prop
  step : ∀ s i, Good s → Good (M.step s i) ∧
    ∃ l, Explains s i l ∧ A.Legal (abs s) l ∧ abs (M.step s i) = A.run (abs s) l

namespace Refines

variable {σ ι ο ω α : Type} {M : Machine σ ι ο} {A : Automaton ω α} (R : Refines M A)

theorem good_run {s : σ} (hs : R.Good s) (is : List ι) : R.Good (M.run s is) :=
  Machine.run_inv' (fun s i h => (R.step s i h).1) hs is

/-- **Invariant rule**: in the steps of a run from a good state, the state may be taken to be good. -/
theorem inv_run {I : σ → Prop} {P : σ → ι → Prop} (hstep : ∀ s i, R.Good s → I s → P s i → I (M.step s i)) {s : σ}
    (hs : R.Good s) (hI : I s) {is : List ι} (h : M.Along P s is) : I (M.run s is) := by
  have hboth := Machine.run_inv (P := P) (I := fun s => R.Good s ∧ I s)
    (fun s i hsI hP => ⟨(R.step s i hsI.1).1, hstep s i hsI.1 hsI.2 hP⟩) ⟨hs, hI⟩ h
  exact hboth.2

/-- and so may it where a step property is read off an invariant -/
theorem along_of_inv {I : σ → Prop} {P Q : σ → ι → Prop} (hstep : ∀ s i, R.Good s → I s → P s i → I (M.step s i))
    (hQ : ∀ s i, R.Good s → I s → P s i → Q s i) {s : σ} (hs : R.Good s) (hI : I s) {is : List ι}
    (h : M.Along P s is) : M.Along Q s is :=
  Machine.along_of_inv (I := fun s => R.Good s ∧ I s)
    (fun s i hsI hP => ⟨(R.step s i hsI.1).1, hstep s i hsI.1 hsI.2 hP⟩) (fun s i hsI hP => hQ s i hsI.1 hsI.2 hP)
    ⟨hs, hI⟩ h

/-- **The simulation lifts to runs.** -/
theorem run {s : σ} (hs : R.Good s) (is : List ι) :
    ∃ l, A.Legal (R.abs s) l ∧ R.abs (M.run s is) = A.run (R.abs s) l := by
  induction is generalizing s with
  | nil => exact ⟨[], trivial, rfl⟩
  | cons i is ih =>
    obtain ⟨hg, l, -, hl, habs⟩ := R.step s i hs
    obtain ⟨m, hm, hmabs⟩ := ih hg
    refine ⟨l ++ m, ?_, ?_⟩
    · rw [Automaton.legal_append, ← habs]; exact ⟨hl, hm⟩
    · rw [Machine.run_cons, hmabs, Automaton.run_append, habs]

/-! ### Local invariants of a refined family -/

variable {κ ν β : Type} [DecidableEq κ] {B : κ → Automaton ν β} (F : Refines M (Automaton.family B)) {k : κ}
  {I : ν → Prop}

/-- one step: the labels that explain it meet `Q`, and those at index `k` then keep `I` -/
theorem local_step {Q : (κ → ν) → κ × β → Prop} {s : σ} {i : ι} (hs : F.Good s)
    (hexp : ∀ l, F.Explains s i l → (Automaton.family B).machine.Along Q (F.abs s) l)
    (hstep : ∀ W a, Q W (k, a) → I (W k) → (B k).Enabled (W k) a → I ((B k).apply (W k) a))
    (hI : I (F.abs s k)) : I (F.abs (M.step s i) k) := by
  obtain ⟨-, l, hl, hlegal, habs⟩ := F.step s i hs
  rw [habs]
  exact Automaton.family_inv hstep hlegal (hexp l hl) hI

/-- **A local invariant holds along every run** whose steps are explained by labels that keep it. -/
theorem local_run {P : σ → ι → Prop} {Q : (κ → ν) → κ × β → Prop}
    (hexp : ∀ s i, F.Good s → P s i → ∀ l, F.Explains s i l → (Automaton.family B).machine.Along Q (F.abs s) l)
    (hstep : ∀ W a, Q W (k, a) → I (W k) → (B k).Enabled (W k) a → I ((B k).apply (W k) a))
    {s : σ} (hs : F.Good s) (hI : I (F.abs s k)) {is : List ι} (h : M.Along P s is) : I (F.abs (M.run s is) k) :=
  F.inv_run (I := fun s => I (F.abs s k)) (fun s i hs hI hP => F.local_step hs (hexp s i hs hP) hstep hI) hs hI h

/-- an unconditional local invariant -/
theorem local_run' (hstep : ∀ v a, I v → (B k).Enabled v a → I ((B k).apply v a)) {s : σ} (hs : F.Good s)
    (hI : I (F.abs s k)) (is : List ι) : I (F.abs (M.run s is) k) :=
  F.local_run (P := fun _ _ => True) (Q := fun _ _ => True)
    (fun _ _ _ _ _ _ => Machine.along_of_forall (fun _ _ => trivial) _ _) (fun W a _ => hstep (W k) a) hs hI
    (Machine.along_of_forall (fun _ _ => trivial) s is)

end Refines

end Core
