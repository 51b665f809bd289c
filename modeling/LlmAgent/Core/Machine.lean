/-
Deterministic machines that take an input, reply and move on, and what holds along their runs.

A `Machine` answers each input with a reply and a next state; everything that is not determined by the state (who moves
next, what the clock shows, what the environment answers) is part of the input, so a run is the list of its inputs and
"for every interleaving" is "for every list".

- `Along P`: every step of a run meets `P`, judged in the state before the step;
- `Occurs P`: some step of a run meets `P`;
- `run_inv`, `along_of_inv`: the invariant rule, and reading a step property off an invariant;
- `replies`, `replies_of_inv`: what a run is answered, and reading a property of every reply off an invariant;
- `run_rel`: a reflexive and transitive relation kept by each step relates the two ends of a run;
- `hist_inv`: the invariant rule for properties of the state and of the inputs consumed so far;
- `run_filterMap`: a machine that hands some of its inputs to another one and ignores the rest.
-/
import Mathlib.Data.List.Induction

namespace Core

/-- a deterministic machine: states σ, inputs ι, replies ο -/
structure Machine (σ ι ο : Type) where
  exec : σ → ι → ο × σ

namespace Machine

variable {σ ι ο : Type} (M : Machine σ ι ο)

def reply (s : σ) (i : ι) : ο := (M.exec s i).1

def step (s : σ) (i : ι) : σ := (M.exec s i).2

def run (s : σ) (is : List ι) : σ := is.foldl M.step s

/-- the replies to the inputs of a run -/
def replies : σ → List ι → List ο
  | _, [] => []
  | s, i :: is => M.reply s i :: replies (M.step s i) is

@[simp] theorem run_nil (s : σ) : M.run s [] = s := rfl

@[simp] theorem replies_nil (s : σ) : M.replies s [] = [] := rfl

@[simp] theorem replies_cons (s : σ) (i : ι) (is : List ι) :
    M.replies s (i :: is) = M.reply s i :: M.replies (M.step s i) is := rfl

@[simp] theorem run_cons (s : σ) (i : ι) (is : List ι) : M.run s (i :: is) = M.run (M.step s i) is := rfl

theorem run_append (s : σ) (a b : List ι) : M.run s (a ++ b) = M.run (M.run s a) b := by
  simp [run, List.foldl_append]

theorem replies_append (s : σ) (a b : List ι) : M.replies s (a ++ b) = M.replies s a ++ M.replies (M.run s a) b := by
  induction a generalizing s with
  | nil => rfl
  | cons i a ih => rw [List.cons_append, replies_cons, ih, replies_cons, List.cons_append, run_cons]

theorem run_snoc (s : σ) (a : List ι) (i : ι) : M.run s (a ++ [i]) = M.step (M.run s a) i := by
  rw [run_append]; rfl

/-! ## Properties of every step of a run, and of some step -/

/-- every step of the run meets `P`, judged in the state before it -/
def Along (P : σ → ι → Prop) : σ → List ι → Prop
  | _, [] => True
  | s, i :: is => P s i ∧ Along P (M.step s i) is

/-- some step of the run meets `P` -/
def Occurs (P : σ → ι → Prop) (s : σ) (is : List ι) : Prop :=
  ∃ pre i post, is = pre ++ i :: post ∧ P (M.run s pre) i

variable {M} {P Q : σ → ι → Prop}

@[simp] theorem along_nil (s : σ) : M.Along P s [] := trivial

@[simp] theorem along_cons (s : σ) (i : ι) (is : List ι) :
    M.Along P s (i :: is) ↔ P s i ∧ M.Along P (M.step s i) is := Iff.rfl

/-- on a concrete run, a decidable step property can be checked step by step -/
instance decidableAlong [∀ s i, Decidable (P s i)] : ∀ (s : σ) (is : List ι), Decidable (M.Along P s is)
  | _, [] => .isTrue trivial
  | s, i :: is =>
    have := decidableAlong (M.step s i) is
    inferInstanceAs (Decidable (P s i ∧ M.Along P (M.step s i) is))

theorem along_append (s : σ) (a b : List ι) : M.Along P s (a ++ b) ↔ M.Along P s a ∧ M.Along P (M.run s a) b := by
  induction a generalizing s with
  | nil => simp
  | cons i a ih => simp only [List.cons_append, along_cons, run_cons, ih, and_assoc]

theorem along_snoc (s : σ) (a : List ι) (i : ι) : M.Along P s (a ++ [i]) ↔ M.Along P s a ∧ P (M.run s a) i := by
  rw [along_append]; simp

/-- the steps of a run one by one: `Along` at every split point -/
theorem along_iff (s : σ) (is : List ι) :
    M.Along P s is ↔ ∀ pre i post, is = pre ++ i :: post → P (M.run s pre) i := by
  constructor
  · rintro h pre i post rfl
    exact ((along_append s pre _).1 h).2.1
  · intro h
    induction is generalizing s with
    | nil => trivial
    | cons i is ih =>
      refine ⟨h [] i is rfl, ih _ fun pre j post hj => ?_⟩
      exact h (i :: pre) j post (by rw [hj]; rfl)

theorem Along.imp {s : σ} {is : List ι} (h : M.Along P s is) (hPQ : ∀ s i, P s i → Q s i) : M.Along Q s is := by
  induction is generalizing s with
  | nil => trivial
  | cons i is ih => exact ⟨hPQ _ _ h.1, ih h.2⟩

theorem Along.and {s : σ} {is : List ι} (hP : M.Along P s is) (hQ : M.Along Q s is) :
    M.Along (fun s i => P s i ∧ Q s i) s is := by
  induction is generalizing s with
  | nil => trivial
  | cons i is ih => exact ⟨⟨hP.1, hQ.1⟩, ih hP.2 hQ.2⟩

theorem along_of_forall (h : ∀ s i, P s i) (s : σ) (is : List ι) : M.Along P s is :=
  (along_iff s is).2 fun _ _ _ _ => h _ _

/-- a property of the inputs alone holds along a run when it holds of each of them -/
theorem along_of_mem {C : ι → Prop} {is : List ι} (h : ∀ i ∈ is, C i) (s : σ) : M.Along (fun _ i => C i) s is :=
  (along_iff s is).2 fun _ _ _ hi => h _ (by rw [hi]; simp)

theorem not_occurs_iff (s : σ) (is : List ι) : ¬ M.Occurs P s is ↔ M.Along (fun s i => ¬ P s i) s is := by
  rw [along_iff]
  simp only [Occurs, not_exists, not_and]

@[simp] theorem not_occurs_nil (s : σ) : ¬ M.Occurs P s [] := (not_occurs_iff s []).2 trivial

theorem occurs_snoc (s : σ) (a : List ι) (i : ι) : M.Occurs P s (a ++ [i]) ↔ M.Occurs P s a ∨ P (M.run s a) i := by
  rw [← not_iff_not, not_or, not_occurs_iff, not_occurs_iff, along_snoc]

/-! ## Rules for runs -/

/-- **Invariant rule.** An invariant kept by every step that meets `P` holds after every run whose steps meet `P`. -/
theorem run_inv {I : σ → Prop} (hstep : ∀ s i, I s → P s i → I (M.step s i)) {s : σ} (hs : I s) {is : List ι}
    (h : M.Along P s is) : I (M.run s is) := by
  induction is generalizing s with
  | nil => exact hs
  | cons i is ih => exact ih (hstep s i hs h.1) h.2

/-- an unconditional invariant holds after every run -/
theorem run_inv' {I : σ → Prop} (hstep : ∀ s i, I s → I (M.step s i)) {s : σ} (hs : I s) (is : List ι) :
    I (M.run s is) :=
  run_inv (P := fun _ _ => True) (fun s i h _ => hstep s i h) hs (along_of_forall (fun _ _ => trivial) s is)

/-- a step property that follows from an invariant holds at every step of the run -/
theorem along_of_inv {I : σ → Prop} (hstep : ∀ s i, I s → P s i → I (M.step s i))
    (hQ : ∀ s i, I s → P s i → Q s i) {s : σ} (hs : I s) {is : List ι} (h : M.Along P s is) : M.Along Q s is := by
  induction is generalizing s with
  | nil => trivial
  | cons i is ih => exact ⟨hQ s i hs h.1, ih (hstep s i hs h.1) h.2⟩

/-- a property of the replies that follows from an invariant holds of every reply of the run -/
theorem replies_of_inv {I : σ → Prop} {R : ο → Prop} (hstep : ∀ s i, I s → P s i → I (M.step s i))
    (hR : ∀ s i, I s → P s i → R (M.reply s i)) {s : σ} (hs : I s) {is : List ι} (h : M.Along P s is) :
    ∀ o ∈ M.replies s is, R o := by
  induction is generalizing s with
  | nil => exact fun o ho => absurd ho List.not_mem_nil
  | cons i is ih =>
    intro o ho
    rcases List.mem_cons.1 ho with rfl | ho
    · exact hR s i hs h.1
    · exact ih (hstep s i hs h.1) h.2 o ho

/-- **Relation rule.** A reflexive and transitive relation kept by each step relates the two ends of a run. -/
theorem run_rel {R : σ → σ → Prop} (refl : ∀ s, R s s) (trans : ∀ {a b c}, R a b → R b c → R a c)
    {s : σ} {is : List ι} (h : M.Along (fun s i => R s (M.step s i)) s is) : R s (M.run s is) := by
  induction is generalizing s with
  | nil => exact refl s
  | cons i is ih => exact trans h.1 (ih h.2)

/-- **Invariant rule with history.** `J` speaks about the state and about the inputs consumed to reach it. -/
theorem hist_inv {J : List ι → σ → Prop} {s₀ : σ} (h₀ : J [] s₀)
    (hstep : ∀ pre i, J pre (M.run s₀ pre) → P (M.run s₀ pre) i → J (pre ++ [i]) (M.step (M.run s₀ pre) i))
    {is : List ι} (h : M.Along P s₀ is) : J is (M.run s₀ is) := by
  induction is using List.reverseRecOn with
  | nil => exact h₀
  | append_singleton pre i ih =>
    rw [along_snoc] at h
    rw [run_snoc]
    exact hstep pre i (ih h.1) h.2

/-- **Filter rule.** If each step of `M` is the step of `N` at the input that `f` makes of it, and no step where `f`
makes none, then a run of `M` is the run of `N` at these inputs. -/
theorem run_filterMap {κ ο' : Type} {N : Machine σ κ ο'} {f : ι → Option κ} (hsome : ∀ s i k, f i = some k →
    M.step s i = N.step s k) (hnone : ∀ s i, f i = none → M.step s i = s) (s : σ) (is : List ι) :
    M.run s is = N.run s (is.filterMap f) := by
  induction is generalizing s with
  | nil => rfl
  | cons i is ih =>
    rw [run_cons]
    cases h : f i with
    | none => rw [List.filterMap_cons_none h, hnone s i h, ih]
    | some k => rw [List.filterMap_cons_some h, run_cons, hsome s i k h, ih]

end Machine

end Core
