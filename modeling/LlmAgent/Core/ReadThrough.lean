/-
A read-through cache that many readers use at once. A reader whose key is not stored fetches it; nothing keeps other
readers from fetching the same key meanwhile, and whoever is answered stores the answer. A fetch that fails stores
nothing, and what is stored is never dropped.

- `ReadThrough`, `readThrough`: the table with the fetches under way, and the automaton of what readers do to it;
- `stored_run`: what is stored was stored before, or is the answer of a fetch of that key;
- `fetching_run`, `late_fills`: once a key is stored nobody starts to fetch it, so the answers that may still replace it
  are at most one for each reader that was fetching it;
- `stored_kept`: when there are none of these, what is stored stays.
-/
import LlmAgent.Core.Potential
import Mathlib.Data.Finset.Card

namespace Core

/-- what is stored under each key, and the key each reader is fetching -/
structure ReadThrough (κ ν τ : Type) where
  stored : κ → Option ν
  fetching : τ → Option κ

/-- what a reader does to the table; a reader whose key is stored does nothing to it -/
inductive Access (κ ν τ : Type) where
  /-- the key is not stored: its fetch starts -/
  | miss (t : τ) (k : κ)
  /-- the fetch is answered -/
  | fill (t : τ) (v : ν)
  /-- the fetch fails -/
  | fail (t : τ)

variable {κ ν τ : Type} [DecidableEq τ]

/-- a reader whose fetch ended is not fetching, and the others go on -/
theorem fetching_ended {f : τ → Option κ} {t s : τ} {k : κ} (ht : Function.update f s none t = some k) :
    f t = some k := by
  by_cases hts : t = s
  · subst hts
    rw [Function.update_self] at ht
    cases ht
  · rwa [Function.update_of_ne hts] at ht

variable [DecidableEq κ]

namespace ReadThrough

def Enabled (c : ReadThrough κ ν τ) : Access κ ν τ → Prop
  | .miss t k => c.fetching t = none ∧ c.stored k = none
  | .fill t _ => ∃ k, c.fetching t = some k
  | .fail t => ∃ k, c.fetching t = some k

def apply (c : ReadThrough κ ν τ) : Access κ ν τ → ReadThrough κ ν τ
  | .miss t k => { c with fetching := Function.update c.fetching t (some k) }
  | .fill t v =>
    -- the answer is stored under the key the reader asked for
    { stored := match c.fetching t with
        | none => c.stored
        | some k => Function.update c.stored k (some v)
      fetching := Function.update c.fetching t none }
  | .fail t => { c with fetching := Function.update c.fetching t none }

theorem stored_fill {c : ReadThrough κ ν τ} {t : τ} {k : κ} (h : c.fetching t = some k) (v : ν) :
    (c.apply (.fill t v)).stored = Function.update c.stored k (some v) := by
  simp only [apply, h]

/-- nobody is fetching the key -/
def Still (c : ReadThrough κ ν τ) (k : κ) : Prop := ∀ t, c.fetching t ≠ some k

/-- the access answers a fetch of `k` with `v` -/
def Fills (k : κ) (v : ν) (c : ReadThrough κ ν τ) (a : Access κ ν τ) : Prop :=
  ∃ t, a = .fill t v ∧ c.fetching t = some k

end ReadThrough

open ReadThrough

/-- **The cache under any accesses.** -/
def readThrough : Automaton (ReadThrough κ ν τ) (Access κ ν τ) := ⟨ReadThrough.Enabled, ReadThrough.apply⟩

section Run

variable {c : ReadThrough κ ν τ} {k : κ}

theorem stored_apply {a : Access κ ν τ} (hen : c.Enabled a) {v : ν} (h : (c.apply a).stored k = some v) :
    c.stored k = some v ∨ Fills k v c a := by
  cases a with
  | miss t j => exact Or.inl h
  | fail t => exact Or.inl h
  | fill t u =>
    obtain ⟨j, hj⟩ := hen
    rw [stored_fill hj] at h
    by_cases hk : k = j
    · subst hk
      rw [Function.update_self] at h
      obtain rfl := Option.some.inj h
      exact Or.inr ⟨t, rfl, hj⟩
    · rw [Function.update_of_ne hk] at h
      exact Or.inl h

/-- what is stored is never dropped -/
theorem stored_of_stored {a : Access κ ν τ} (hen : c.Enabled a) (h : c.stored k ≠ none) :
    (c.apply a).stored k ≠ none := by
  cases a with
  | miss t j => exact h
  | fail t => exact h
  | fill t u =>
    obtain ⟨j, hj⟩ := hen
    rw [stored_fill hj]
    by_cases hk : k = j
    · subst hk
      rw [Function.update_self]
      exact Option.some_ne_none u
    · rwa [Function.update_of_ne hk]

/-- once the key is stored, whoever fetches it did so before -/
theorem fetching_apply {a : Access κ ν τ} (hen : c.Enabled a) (h : c.stored k ≠ none) {t : τ}
    (ht : (c.apply a).fetching t = some k) : c.fetching t = some k := by
  cases a with
  | fail s => exact fetching_ended ht
  | fill s u => exact fetching_ended ht
  | miss s j =>
    change Function.update c.fetching s (some j) t = some k at ht
    by_cases hts : t = s
    · subst hts
      rw [Function.update_self] at ht
      obtain rfl := Option.some.inj ht
      exact absurd hen.2 h
    · rwa [Function.update_of_ne hts] at ht

/-- **What is stored was stored before, or is the answer of a fetch of that key.** -/
theorem stored_run {l : List (Access κ ν τ)} (hl : readThrough.Legal c l) {v : ν}
    (h : (readThrough.run c l).stored k = some v) :
    c.stored k = some v ∨ readThrough.machine.Occurs (Fills k v) c l := by
  induction l using List.reverseRecOn with
  | nil => exact Or.inl h
  | append_singleton l a ih =>
    obtain ⟨hpre, hlast⟩ := (Automaton.legal_append _ c l [a]).1 hl
    rw [Machine.occurs_snoc]
    rw [Automaton.run_append] at h
    rcases stored_apply hlast.1 h with hbefore | hfills
    · rcases ih hpre hbefore with hfirst | hoccurs
      · exact Or.inl hfirst
      · exact Or.inr (Or.inl hoccurs)
    · exact Or.inr (Or.inr hfills)

/-- what is stored stays in store, and whoever fetches it afterwards did so before -/
theorem fetching_run {l : List (Access κ ν τ)} (hl : readThrough.Legal c l) (h : c.stored k ≠ none) :
    (readThrough.run c l).stored k ≠ none ∧ ∀ t, (readThrough.run c l).fetching t = some k → c.fetching t = some k := by
  induction l generalizing c with
  | nil => exact ⟨h, fun _ ht => ht⟩
  | cons a l ih =>
    obtain ⟨hstored, hlate⟩ := ih hl.2 (stored_of_stored hl.1 h)
    exact ⟨hstored, fun t ht => fetching_apply hl.1 h (hlate t ht)⟩

/-- **A stored key that nobody is fetching keeps its value.** -/
theorem stored_kept {l : List (Access κ ν τ)} (hl : readThrough.Legal c l) {v : ν} (h : c.stored k = some v)
    (hstill : c.Still k) : (readThrough.run c l).stored k = some v ∧ (readThrough.run c l).Still k := by
  have hne : c.stored k ≠ none := by
    rw [h]
    exact Option.some_ne_none v
  obtain ⟨hstored, hlate⟩ := fetching_run hl hne
  refine ⟨?_, fun t ht => hstill t (hlate t ht)⟩
  obtain ⟨u, hu⟩ := Option.ne_none_iff_exists'.1 hstored
  rcases stored_run hl hu with hfirst | ⟨pre, a, post, rfl, t, -, ht⟩
  · rw [hu, ← hfirst, h]
  · have hpre := ((Automaton.legal_append _ c pre (a :: post)).1 hl).1
    exact absurd ((fetching_run hpre hne).2 t ht) (hstill t)

/-! ## Late answers -/

/-- the reader whose answer the access stores under `k` -/
def filler (k : κ) (c : ReadThrough κ ν τ) : Access κ ν τ → Option τ
  | .fill t _ => if c.fetching t = some k then some t else none
  | _ => none

/-- a reader that was answered is not fetching any more -/
theorem fetching_of_filler {a : Access κ ν τ} {t : τ} (h : filler k c a = some t) :
    c.fetching t = some k ∧ (c.apply a).fetching t = none := by
  cases a with
  | miss s j => cases h
  | fail s => cases h
  | fill s u =>
    simp only [filler] at h
    split_ifs at h with hs
    obtain rfl := Option.some.inj h
    exact ⟨hs, Function.update_self s _ _⟩

variable {σ ι ο : Type} {M : Machine σ ι ο} {table : σ → ReadThrough κ ν τ} {access : σ → ι → Option (Access κ ν τ)}

/-- **Late answers.** When every step of a machine is at most one access to its table, the answers that are stored under
a key after it was first stored are at most the readers that were fetching it then. -/
theorem late_fills (hstep : ∀ s i, readThrough.Legal (table s) (access s i).toList ∧
    table (M.step s i) = readThrough.run (table s) (access s i).toList) (k : κ) {s : σ} (h : (table s).stored k ≠ none)
    {W : Finset τ} (hW : ∀ t, (table s).fetching t = some k → t ∈ W) (is : List ι) :
    M.tally (fun s i => if ((access s i).bind (filler k (table s))).isSome then 1 else 0) s is ≤ W.card := by
  induction is generalizing s W with
  | nil => exact Nat.zero_le _
  | cons i is ih =>
    obtain ⟨hlegal, htable⟩ := hstep s i
    obtain ⟨hstored, hlate⟩ := fetching_run hlegal h
    rw [← htable] at hstored hlate
    rw [Machine.tally_cons]
    cases hfiller : (access s i).bind (filler k (table s)) with
    | none =>
      have hrest := ih hstored fun t ht => hW t (hlate t ht)
      rw [Option.isSome_none, if_neg Bool.false_ne_true]
      omega
    | some t =>
      -- the reader that is answered leaves the set
      obtain ⟨a, ha, hfill⟩ := Option.bind_eq_some_iff.1 hfiller
      obtain ⟨hfetching, hended⟩ := fetching_of_filler hfill
      have hmem : t ∈ W := hW t hfetching
      have hrest := ih (W := W.erase t) hstored ?_
      · rw [Finset.card_erase_of_mem hmem] at hrest
        have hpos : 0 < W.card := Finset.card_pos.2 ⟨t, hmem⟩
        rw [Option.isSome_some, if_pos rfl]
        omega
      · intro u hu
        refine Finset.mem_erase.2 ⟨?_, hW u (hlate u hu)⟩
        intro hut
        rw [hut, htable, ha] at hu
        have hnone : (readThrough.run (table s) (some a).toList).fetching t = none := hended
        rw [hnone] at hu
        cases hu

end Run

end Core
