/-
Lists whose entries are numbered 1, 2, 3, … in order, as the entries of an append-only log with a counter of its own
are. Reading such a list "after number `n`" is dropping its first `n` entries.

- `Numbered.snoc`: appending the entry with the next number;
- `Numbered.filter_above`: the entries numbered above `n` are those after the first `n`;
- `Numbered.getLast?_num`: the last number is the length;
- `Numbered.initial`: an initial part is numbered like the list.
-/
import Mathlib.Data.List.Basic

namespace Core

variable {α : Type} {num : α → ℕ}

/-- the entries are numbered from 1 on, in order -/
def Numbered (num : α → ℕ) (l : List α) : Prop := l.map num = List.range' 1 l.length

namespace Numbered

theorem nil : Numbered num [] := rfl

theorem snoc {l : List α} {a : α} (h : Numbered num l) (ha : num a = l.length + 1) : Numbered num (l ++ [a]) := by
  have hlen : (l ++ [a]).length = l.length + 1 := by simp
  rw [Numbered, List.map_append, hlen, List.range'_concat, h, List.map_singleton, ha, Nat.one_mul, Nat.add_comm 1]

/-- the induction behind `filter_above`: the numbers start after `s` -/
theorem filter_above_from {l : List α} {s : ℕ} (h : l.map num = List.range' (s + 1) l.length) (n : ℕ) :
    l.filter (fun a => decide (s + n < num a)) = l.drop n := by
  induction l generalizing s n with
  | nil => simp
  | cons a l ih =>
    rw [List.map_cons, List.length_cons, List.range'_succ, List.cons.injEq] at h
    obtain ⟨ha, hl⟩ := h
    cases n with
    | zero =>
      have hrest := ih hl 0
      rw [List.drop_zero] at hrest ⊢
      rw [List.filter_cons_of_pos (by simp [ha])]
      refine congrArg (a :: ·) ?_
      -- every later number is above `s` because it is above `s + 1`
      rw [List.filter_eq_self] at hrest ⊢
      intro b hb
      have hlt := hrest b hb
      simp only [decide_eq_true_eq] at hlt ⊢
      omega
    | succ n =>
      rw [List.filter_cons_of_neg (by simp [ha]), List.drop_succ_cons, ← ih hl n]
      refine List.filter_congr ?_
      intro b _
      simp only [decide_eq_decide]
      omega

theorem filter_above {l : List α} (h : Numbered num l) (n : ℕ) :
    l.filter (fun a => decide (n < num a)) = l.drop n := by
  have hfrom := filter_above_from (s := 0) h n
  simpa using hfrom

theorem getLast?_num {l : List α} {a : α} (h : Numbered num l) (ha : l.getLast? = some a) : num a = l.length := by
  obtain ⟨l, rfl⟩ := List.getLast?_eq_some_iff.1 ha
  have hlast := congrArg List.getLast? h
  have hlen : (l ++ [a]).length = l.length + 1 := by simp
  rw [List.map_append, List.map_singleton, List.getLast?_concat, hlen, List.range'_concat,
    List.getLast?_concat] at hlast
  have hnum := Option.some.inj hlast
  omega

theorem initial {l m : List α} (h : Numbered num l) (hm : m <+: l) : Numbered num m := by
  obtain ⟨rest, rfl⟩ := hm
  rw [Numbered, List.map_append, eq_comm, List.range'_eq_append_iff] at h
  obtain ⟨k, -, hk, -⟩ := h
  have hlen := congrArg List.length hk
  rw [List.length_map, List.length_range'] at hlen
  rw [Numbered, hlen]
  exact hk

end Numbered

end Core
