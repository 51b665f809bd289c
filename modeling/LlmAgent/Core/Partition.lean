/-
A list cut at the first occurrence of a separator, and the same for text.

`upTo sep xs` is what stands before the first `sep` and `past sep xs` what stands after it; with no separator in the
list the first is everything and the second nothing. The two together determine the cut:

- `upTo_append`, `past_append`: the parts of `xs ++ sep :: ys` when `sep` is not in `xs`;
- `cut_cases`: every list is of that form or has no separator;
- `text_cases`: the same for strings, through `partition`.
-/
import Mathlib.Data.List.TakeWhile

namespace Core

variable {α : Type} [DecidableEq α]

/-! ## Lists -/

/-- what stands before the first `sep` -/
def upTo (sep : α) (xs : List α) : List α := xs.takeWhile (· ≠ sep)

/-- what stands after the first `sep` -/
def past (sep : α) (xs : List α) : List α := (xs.dropWhile (· ≠ sep)).tail

theorem not_mem_upTo (sep : α) (xs : List α) : sep ∉ upTo sep xs := by
  intro h
  simpa using List.mem_takeWhile_imp h

theorem upTo_of_not_mem {sep : α} {xs : List α} (h : sep ∉ xs) : upTo sep xs = xs := by
  rw [upTo, List.takeWhile_eq_self_iff]
  intro x hx
  exact decide_eq_true fun he => h (he ▸ hx)

theorem past_of_not_mem {sep : α} {xs : List α} (h : sep ∉ xs) : past sep xs = [] := by
  rw [past, List.dropWhile_eq_nil_iff.2, List.tail_nil]
  intro x hx
  exact decide_eq_true fun he => h (he ▸ hx)

theorem upTo_append {sep : α} {xs : List α} (h : sep ∉ xs) (ys : List α) : upTo sep (xs ++ sep :: ys) = xs := by
  induction xs with
  | nil => simp [upTo]
  | cons x xs ih =>
    obtain ⟨hx, hxs⟩ := not_or.1 (List.mem_cons.not.1 h)
    rw [List.cons_append, upTo, List.takeWhile_cons_of_pos (by simpa using Ne.symm hx)]
    exact congrArg (x :: ·) (ih hxs)

theorem past_append {sep : α} {xs : List α} (h : sep ∉ xs) (ys : List α) : past sep (xs ++ sep :: ys) = ys := by
  induction xs with
  | nil => simp [past]
  | cons x xs ih =>
    obtain ⟨hx, hxs⟩ := not_or.1 (List.mem_cons.not.1 h)
    rw [List.cons_append, past, List.dropWhile_cons_of_pos (by simpa using Ne.symm hx)]
    exact ih hxs

theorem cut_cases (sep : α) (xs : List α) : sep ∉ xs ∨ xs = upTo sep xs ++ sep :: past sep xs := by
  induction xs with
  | nil => exact .inl List.not_mem_nil
  | cons x xs ih =>
    by_cases hx : x = sep
    · subst hx
      exact .inr (by simp [upTo, past])
    · rcases ih with hxs | hxs
      · exact .inl (by simpa using ⟨Ne.symm hx, hxs⟩)
      · refine .inr ?_
        rw [upTo, past, List.takeWhile_cons_of_pos (by simpa using hx), List.dropWhile_cons_of_pos (by simpa using hx)]
        exact congrArg (x :: ·) hxs

/-! ## Text -/

/-- what stands before and after the first `sep` of a text -/
def partition (sep : Char) (text : String) : String × String :=
  (String.ofList (upTo sep text.toList), String.ofList (past sep text.toList))

theorem partition_of_not_mem {sep : Char} {text : String} (h : sep ∉ text.toList) :
    partition sep text = (text, "") := by
  rw [partition, upTo_of_not_mem h, past_of_not_mem h, String.ofList_toList]

theorem partition_append {sep : Char} {scheme : String} (h : sep ∉ scheme.toList) (rest : String) :
    partition sep (scheme ++ String.singleton sep ++ rest) = (scheme, rest) := by
  have hlist : (scheme ++ String.singleton sep ++ rest).toList = scheme.toList ++ sep :: rest.toList := by
    simp
  rw [partition, hlist, upTo_append h, past_append h, String.ofList_toList, String.ofList_toList]

/-- a text has no separator, or is the two parts with the separator between them -/
theorem text_cases (sep : Char) (text : String) :
    (sep ∉ text.toList ∧ partition sep text = (text, "")) ∨
      ∃ scheme rest, sep ∉ scheme.toList ∧ text = scheme ++ String.singleton sep ++ rest ∧
        partition sep text = (scheme, rest) := by
  rcases cut_cases sep text.toList with h | h
  · exact .inl ⟨h, partition_of_not_mem h⟩
  · refine .inr ⟨(partition sep text).1, (partition sep text).2, ?_, ?_, rfl⟩
    · rw [partition, String.toList_ofList]
      exact not_mem_upTo sep text.toList
    · apply String.toList_inj.1
      simpa [partition] using h

end Core
