/-
What the genetic search takes from Python's `random` and `time` modules.

The outcomes of the draws and the readings of the clock are not determined by the program: a `World` holds them in the
order in which they are asked for, so "for every outcome and every clock" is "for every world". Each draw is a natural
number, reduced to the range it is drawn from, so every outcome of every draw is reached in some world.

- `randint_returns`, `randomSample_returns`: when the draws do not raise, and what they answer.
-/
import Mathlib.Algebra.Field.Rat
import Mathlib.Data.Stream.Init
import Mathlib.Tactic.Linarith
import LlmAgent.Core.Returns

namespace LlmAgent

open Core

/-- the exceptions of the functions below and of the search -/
inductive SearchError where
  | valueError
  | indexError
  | zeroDivisionError
deriving DecidableEq, Repr

/-- the outcomes of the random draws to come and the clock readings to come -/
structure World where
  draws : Stream' ℕ
  readings : Stream' ℤ

abbrev SearchM := EStateM SearchError World

/-- the outcome of the next draw -/
def draw : SearchM ℕ := modifyGet fun world => (world.draws.head, { world with draws := world.draws.tail })

/-- `time.monotonic_ns()` -/
def monotonicNs : SearchM ℤ :=
  modifyGet fun world => (world.readings.head, { world with readings := world.readings.tail })

/-- `random.randint(a, b)`: both ends included -/
def randint (a b : ℤ) : SearchM ℤ :=
  if b < a then
    throw .valueError
  else do
    let outcome ← draw
    pure (a + outcome % (b - a + 1))

/-- `random.random()`: a multiple of 2⁻⁵³ in [0, 1) -/
def random : SearchM ℚ := do
  let outcome ← draw
  pure ((outcome % 2 ^ 53 : ℕ) / (2 ^ 53 : ℕ))

/-- `k` draws from the pool without replacement -/
def drawFrom {α : Type} : ℕ → List α → SearchM (List α)
  | 0, _ => pure []
  | k + 1, pool => do
    let position := (← draw) % pool.length
    match pool[position]? with
    | none => throw .valueError
    | some a =>
      let rest ← drawFrom k (pool.eraseIdx position)
      pure (a :: rest)

/-- `random.sample(population, k)` -/
def randomSample {α : Type} (population : List α) (k : ℤ) : SearchM (List α) :=
  if 0 ≤ k ∧ k ≤ population.length then
    drawFrom k.toNat population
  else
    throw .valueError

/-! ## When the draws answer -/

theorem draw_returns : Returns draw fun _ => True := fun world => ⟨world.draws.head, _, rfl, trivial⟩

theorem monotonicNs_returns : Returns monotonicNs fun _ => True := fun world => ⟨world.readings.head, _, rfl, trivial⟩

theorem randint_returns {a b : ℤ} (hab : a ≤ b) : Returns (randint a b) fun n => a ≤ n ∧ n ≤ b := by
  refine Returns.ite (fun h => absurd hab (not_le.2 h)) fun _ => ?_
  refine draw_returns.bind fun outcome _ => Returns.pure ?_
  have hpos : 0 < b - a + 1 := by omega
  have hlow := Int.emod_nonneg (outcome : ℤ) hpos.ne'
  have hhigh := Int.emod_lt_of_pos (outcome : ℤ) hpos
  constructor <;> omega

theorem random_returns : Returns random fun _ => True :=
  draw_returns.bind fun _ _ => Returns.pure trivial

theorem drawFrom_returns {α : Type} {k : ℕ} {pool : List α} (hk : k ≤ pool.length) :
    Returns (drawFrom k pool) fun sample => sample.length = k ∧ ∀ a ∈ sample, a ∈ pool := by
  induction k generalizing pool with
  | zero => exact Returns.pure ⟨rfl, fun a ha => absurd ha List.not_mem_nil⟩
  | succ k ih =>
    refine draw_returns.bind fun outcome _ => ?_
    have hposition : outcome % pool.length < pool.length := Nat.mod_lt _ (by omega)
    simp only [List.getElem?_eq_getElem hposition]
    have hrest : k ≤ (pool.eraseIdx (outcome % pool.length)).length := by
      rw [List.length_eraseIdx_of_lt hposition]
      omega
    refine (ih hrest).bind fun rest ⟨hlen, hmem⟩ => Returns.pure ⟨by simp [hlen], ?_⟩
    intro a ha
    rcases List.mem_cons.1 ha with rfl | ha
    · exact List.getElem_mem hposition
    · exact List.mem_of_mem_eraseIdx (hmem a ha)

theorem randomSample_returns {α : Type} {population : List α} {k : ℤ} (h0 : 0 ≤ k) (hk : k ≤ population.length) :
    Returns (randomSample population k) fun sample => (sample.length : ℤ) = k ∧ ∀ a ∈ sample, a ∈ population := by
  refine Returns.ite (fun _ => ?_) fun h => absurd ⟨h0, hk⟩ h
  refine (drawFrom_returns (by omega)).mono fun sample ⟨hlen, hmem⟩ => ⟨?_, hmem⟩
  omega

end LlmAgent
