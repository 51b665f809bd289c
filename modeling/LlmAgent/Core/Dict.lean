/-
Insertion-ordered dictionaries: finite maps whose iteration order is the order in which the keys were first set.
Setting a known key keeps its position; setting a new key appends it. (Mathlib's `AList.insert` moves the key to the
front, so it does not have this order.)

The keys of a `Dict` are distinct by construction: the proof is a field, so every operation carries it along and an
ill-formed dictionary cannot be built.

- `get?_set_self`, `get?_set_ne`: reading after writing;
- `keys_set_of_mem`, `keys_set_of_not_mem`: the iteration order after a write;
- `mem_iff`: the keys are exactly the arguments at which `get?` answers;
- `entries_eq`, `map_entries_congr`: a dictionary is determined by its keys and its answers.
-/
import Mathlib.Data.List.Nodup

namespace Core

/-- a finite map that remembers the order in which its keys were first set -/
structure Dict (κ ν : Type) where
  entries : List (κ × ν)
  nodup : (entries.map Prod.fst).Nodup

namespace Dict

variable {κ ν : Type}

def empty : Dict κ ν := ⟨[], List.nodup_nil⟩

/-- the keys in iteration order -/
def keys (d : Dict κ ν) : List κ := d.entries.map Prod.fst

theorem keys_nodup (d : Dict κ ν) : d.keys.Nodup := d.nodup

instance : Membership κ (Dict κ ν) := ⟨fun d k => k ∈ d.keys⟩

variable [DecidableEq κ]

instance (d : Dict κ ν) (k : κ) : Decidable (k ∈ d) := inferInstanceAs (Decidable (k ∈ d.keys))

def get? (d : Dict κ ν) (k : κ) : Option ν := d.entries.lookup k

/-- overwrite the value stored under `k`, leaving every position as it is -/
def overwrite (k : κ) (v : ν) (l : List (κ × ν)) : List (κ × ν) := l.map fun e => if e.1 = k then (k, v) else e

theorem overwrite_fst (k : κ) (v : ν) (l : List (κ × ν)) : (overwrite k v l).map Prod.fst = l.map Prod.fst := by
  induction l with
  | nil => rfl
  | cons e l ih =>
    simp only [overwrite, List.map_cons] at ih ⊢
    rw [ih]
    split_ifs with h
    · rw [h]
    · rfl

def set (d : Dict κ ν) (k : κ) (v : ν) : Dict κ ν :=
  if h : k ∈ d.keys then ⟨overwrite k v d.entries, by rw [overwrite_fst]; exact d.nodup⟩
  else ⟨d.entries ++ [(k, v)], by
    simpa [List.nodup_append] using ⟨d.nodup, fun a b hab hak => h (List.mem_map.2 ⟨(a, b), hab, hak⟩)⟩⟩

/-! ## Reading -/

theorem lookup_cons_ne {j a : κ} (v : ν) (l : List (κ × ν)) (h : j ≠ a) : ((a, v) :: l).lookup j = l.lookup j := by
  rw [List.lookup_cons, beq_eq_false_iff_ne.2 h]

theorem lookup_eq_none (l : List (κ × ν)) (k : κ) : l.lookup k = none ↔ k ∉ l.map Prod.fst := by
  induction l with
  | nil => simp
  | cons e l ih =>
    obtain ⟨a, v⟩ := e
    by_cases h : k = a
    · simp [h]
    · rw [lookup_cons_ne v l h, ih, List.map_cons, List.mem_cons, not_or]
      exact ⟨fun hl => ⟨h, hl⟩, fun hl => hl.2⟩

theorem mem_iff (d : Dict κ ν) (k : κ) : k ∈ d ↔ ∃ v, d.get? k = some v := by
  rw [← Option.isSome_iff_exists, Option.isSome_iff_ne_none, ne_eq, get?, lookup_eq_none, not_not]
  rfl

theorem get?_eq_none (d : Dict κ ν) (k : κ) : d.get? k = none ↔ k ∉ d := lookup_eq_none d.entries k

@[simp] theorem get?_empty (k : κ) : (empty : Dict κ ν).get? k = none := rfl

/-! ## Reading after writing -/

theorem lookup_overwrite_self (k : κ) (v : ν) (l : List (κ × ν)) (h : k ∈ l.map Prod.fst) :
    (overwrite k v l).lookup k = some v := by
  induction l with
  | nil => simp at h
  | cons e l ih =>
    obtain ⟨a, u⟩ := e
    by_cases ha : a = k
    · simp [overwrite, ha]
    · simp only [List.map_cons, List.mem_cons, Ne.symm ha, false_or] at h
      have hl := ih h
      simp only [overwrite, List.map_cons, ha, if_false] at hl ⊢
      rw [lookup_cons_ne u _ (Ne.symm ha), hl]

theorem lookup_overwrite_ne (k j : κ) (v : ν) (l : List (κ × ν)) (h : j ≠ k) :
    (overwrite k v l).lookup j = l.lookup j := by
  induction l with
  | nil => rfl
  | cons e l ih =>
    obtain ⟨a, u⟩ := e
    simp only [overwrite, List.map_cons] at ih ⊢
    by_cases ha : a = k
    · subst ha
      rw [if_pos rfl, lookup_cons_ne v _ h, lookup_cons_ne u _ h, ih]
    · rw [if_neg ha, List.lookup_cons, List.lookup_cons, ih]

@[simp] theorem get?_set_self (d : Dict κ ν) (k : κ) (v : ν) : (d.set k v).get? k = some v := by
  unfold set get?
  split_ifs with h
  · exact lookup_overwrite_self k v d.entries h
  · have hnone : d.entries.lookup k = none := (lookup_eq_none _ _).2 h
    simp [List.lookup_append, hnone]

@[simp] theorem get?_set_ne (d : Dict κ ν) {k j : κ} (v : ν) (h : j ≠ k) : (d.set k v).get? j = d.get? j := by
  unfold set get?
  split_ifs
  · exact lookup_overwrite_ne k j v d.entries h
  · rw [List.lookup_append, lookup_cons_ne v [] h, List.lookup_nil, Option.or_none]

/-! ## Iteration order after writing -/

theorem keys_set_of_mem (d : Dict κ ν) (k : κ) (v : ν) (h : k ∈ d.keys) : (d.set k v).keys = d.keys := by
  unfold set
  rw [dif_pos h]
  exact overwrite_fst k v d.entries

theorem keys_set_of_not_mem (d : Dict κ ν) (k : κ) (v : ν) (h : k ∉ d.keys) :
    (d.set k v).keys = d.keys ++ [k] := by
  unfold set
  rw [dif_neg h]
  simp [keys]

/-! ## The entries -/

theorem get?_of_mem_entries {d : Dict κ ν} {e : κ × ν} (h : e ∈ d.entries) : d.get? e.1 = some e.2 := by
  obtain ⟨entries, hnd⟩ := d
  change entries.lookup e.1 = some e.2
  induction entries with
  | nil => cases h
  | cons a l ih =>
    obtain ⟨k, v⟩ := a
    obtain ⟨hfresh, hrest⟩ := List.nodup_cons.1 hnd
    rcases List.mem_cons.1 h with heq | hmem
    · subst heq
      exact List.lookup_cons_self
    · have hne : e.1 ≠ k := fun he => hfresh (List.mem_map.2 ⟨e, hmem, he⟩)
      rw [← ih hrest hmem]
      exact lookup_cons_ne v l hne

/-- a dictionary is its keys with what `get?` answers at them -/
theorem entries_eq (d : Dict κ ν) : d.entries = d.keys.filterMap fun k => (d.get? k).map fun v => (k, v) := by
  rw [keys, List.filterMap_map]
  have hsome : ∀ e ∈ d.entries, ((fun k => (d.get? k).map fun v => (k, v)) ∘ Prod.fst) e = some e := by
    intro e he
    simp [get?_of_mem_entries he]
  rw [List.filterMap_congr hsome, List.filterMap_some]

/-- two dictionaries over the same keys, compared entry by entry -/
theorem map_entries_congr {β : Type} {d d' : Dict κ ν} (hkeys : d'.keys = d.keys) {f g : κ × ν → β}
    (h : ∀ k v v', d.get? k = some v → d'.get? k = some v' → f (k, v') = g (k, v)) :
    d'.entries.map f = d.entries.map g := by
  rw [entries_eq d', entries_eq d, hkeys, List.map_filterMap, List.map_filterMap]
  refine List.filterMap_congr ?_
  intro k hk
  obtain ⟨v, hv⟩ := (mem_iff d k).1 hk
  obtain ⟨v', hv'⟩ := (mem_iff d' k).1 (hkeys ▸ hk : k ∈ d'.keys)
  simp [hv, hv', h k v v' hv hv']

end Dict

end Core
