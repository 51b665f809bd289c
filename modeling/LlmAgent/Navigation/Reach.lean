/-
How far a throttle sequence gets, and what the search can make of a target beyond that.

With a friction of at most 1 and no negative throttle the simulation is monotone: with more throttle, or for longer, it
never ends nearer. So the shortest way is one step at the least throttle and the longest one is full throttle for
`max_sequence_length` steps.

- `advance`, `calculateTotalDistance_eq`: the loop without its exception;
- `Ahead`, `ahead_foldl`: two runs of the loop side by side;
- `isLeast_nearest`, `isGreatest_farthest`: the distances that valid sequences reach;
- `search_scored`: whatever the draws, the search answers a valid sequence with its fitness;
- `out_of_reach`: how far from the target it stays if no valid sequence reaches the target.
-/
import Mathlib.Order.Bounds.Basic
import Mathlib.Tactic.Positivity
import Mathlib.Tactic.GCongr
import LlmAgent.Navigation.ValidSearch

namespace LlmAgent

open Core

/-! ## Two runs of the loop -/

section Ahead

variable {m f : ℚ}

/-- the loop's body, for a mass other than zero -/
def advance (m f : ℚ) (totalDistanceVelocity : ℚ × ℚ) (throttle : ℤ) : ℚ × ℚ :=
  let velocity := (totalDistanceVelocity.2 + throttle / m) * (1 - f)
  (totalDistanceVelocity.1 + velocity, velocity)

theorem calculateTotalDistance_eq (hm : m ≠ 0) (v0 : ℚ) (throttles : List ℤ) :
    calculateTotalDistance v0 throttles m f = .ok (throttles.foldl (advance m f) (0, v0)) := by
  unfold calculateTotalDistance
  generalize ((0 : ℚ), v0) = start
  induction throttles generalizing start with
  | nil => rfl
  | cons throttle throttles ih =>
    have hstep : advanceVelocity m f start throttle = .ok (advance m f start throttle) := by
      unfold advanceVelocity calculateVelocity
      rw [if_neg hm]
      rfl
    rw [List.foldlM_cons, hstep, List.foldl_cons]
    exact ih (advance m f start throttle)

/-- the second run is at least as far and as fast as the first one, which does not go backwards -/
structure Ahead (s s' : ℚ × ℚ) : Prop where
  distance : s.1 ≤ s'.1
  forward : 0 ≤ s.2
  velocity : s.2 ≤ s'.2

theorem Ahead.refl {s : ℚ × ℚ} (h : 0 ≤ s.2) : Ahead s s := ⟨le_rfl, h, le_rfl⟩

variable (hm : 0 < m) (hf : f ≤ 1)
include hm hf

/-- **A step keeps the second run ahead.** -/
theorem Ahead.advance {s s' : ℚ × ℚ} (h : Ahead s s') {t t' : ℤ} (ht : 0 ≤ t ∧ t ≤ t') :
    Ahead (advance m f s t) (advance m f s' t') := by
  have hrate : 0 ≤ 1 - f := sub_nonneg.2 hf
  have hthrottle : (0 : ℚ) ≤ t / m := div_nonneg (Int.cast_nonneg ht.1) hm.le
  have hless : (t : ℚ) / m ≤ t' / m := div_le_div_of_nonneg_right (Int.cast_le.2 ht.2) hm.le
  have hvelocity : (s.2 + t / m) * (1 - f) ≤ (s'.2 + t' / m) * (1 - f) :=
    mul_le_mul_of_nonneg_right (add_le_add h.velocity hless) hrate
  constructor
  · exact add_le_add h.distance hvelocity
  · exact mul_nonneg (add_nonneg h.forward hthrottle) hrate
  · exact hvelocity

/-- more throttle at each step -/
theorem ahead_foldl {s s' : ℚ × ℚ} {ts ts' : List ℤ} (h : Ahead s s')
    (hts : List.Forall₂ (fun t t' => 0 ≤ t ∧ t ≤ t') ts ts') :
    Ahead (ts.foldl (LlmAgent.advance m f) s) (ts'.foldl (LlmAgent.advance m f) s') := by
  have hstep : Relator.LiftFun Ahead (Relator.LiftFun (fun t t' : ℤ => 0 ≤ t ∧ t ≤ t') Ahead)
      (LlmAgent.advance m f) (LlmAgent.advance m f) := by
    intro s s' h t t' ht
    exact h.advance hm hf ht
  exact List.rel_foldl hstep h hts

/-- more steps -/
theorem foldl_further {s : ℚ × ℚ} (h : 0 ≤ s.2) {ts : List ℤ} (hts : ∀ t ∈ ts, 0 ≤ t) :
    s.1 ≤ (ts.foldl (LlmAgent.advance m f) s).1 ∧ 0 ≤ (ts.foldl (LlmAgent.advance m f) s).2 := by
  induction ts generalizing s with
  | nil => exact ⟨le_rfl, h⟩
  | cons t ts ih =>
    have ht : 0 ≤ t := hts t List.mem_cons_self
    have hnext := (Ahead.refl h).advance hm hf ⟨ht, le_rfl⟩
    obtain ⟨hfurther, hforward⟩ := ih hnext.forward fun t' ht' => hts t' (List.mem_cons_of_mem t ht')
    refine ⟨le_trans ?_ hfurther, hforward⟩
    exact le_add_of_nonneg_right hnext.forward

end Ahead

/-! ## The distances that are reached -/

section Reach

variable {input : ThrottleCalculationInput} {g : GeneticConfiguration}

/-- the total distances of the valid sequences -/
def Reachable (input : ThrottleCalculationInput) (g : GeneticConfiguration) : Set ℚ :=
  {totalDistance | ∃ throttles finalSpeed, ValidSequence g throttles ∧
    calculateTotalDistance input.v0 throttles input.mass input.friction = .ok (totalDistance, finalSpeed)}

/-- the simulation of a sequence -/
def simulate (input : ThrottleCalculationInput) (throttles : List ℤ) : ℚ × ℚ :=
  throttles.foldl (advance input.mass input.friction) (0, input.v0)

/-- one step at the least throttle -/
def nearest (input : ThrottleCalculationInput) (g : GeneticConfiguration) : ℚ :=
  (simulate input [g.throttleRange.1]).1

/-- full throttle for `max_sequence_length` steps -/
def farthest (input : ThrottleCalculationInput) (g : GeneticConfiguration) : ℚ :=
  (simulate input (List.replicate g.maxSequenceLength.toNat g.throttleRange.2)).1

theorem mem_reachable_iff (hm : input.mass ≠ 0) {d : ℚ} :
    d ∈ Reachable input g ↔ ∃ throttles, ValidSequence g throttles ∧ (simulate input throttles).1 = d := by
  constructor
  · rintro ⟨throttles, finalSpeed, hvalid, htotal⟩
    rw [calculateTotalDistance_eq hm] at htotal
    exact ⟨throttles, hvalid, congrArg Prod.fst (Except.ok.inj htotal)⟩
  · rintro ⟨throttles, hvalid, rfl⟩
    exact ⟨throttles, (simulate input throttles).2, hvalid, calculateTotalDistance_eq hm _ _⟩

theorem validSequence_least (hg : g.Searchable) : ValidSequence g [g.throttleRange.1] where
  nonempty := le_rfl
  short := hg.maxSequenceLength
  inRange throttle h := by
    rw [List.mem_singleton.1 h]
    exact ⟨le_rfl, hg.throttleRange⟩

theorem validSequence_full (hg : g.Searchable) :
    ValidSequence g (List.replicate g.maxSequenceLength.toNat g.throttleRange.2) := by
  have hlength := hg.maxSequenceLength
  constructor
  · rw [List.length_replicate]
    omega
  · rw [List.length_replicate]
    omega
  · intro throttle h
    rw [List.eq_of_mem_replicate h]
    exact ⟨hg.throttleRange, le_rfl⟩

variable (hg : g.Searchable) (hlow : 0 ≤ g.throttleRange.1) (hv : 0 ≤ input.v0) (hm : 0 < input.mass)
  (hf : input.friction ≤ 1)
include hg hlow hv hm hf

theorem isLeast_nearest : IsLeast (Reachable input g) (nearest input g) := by
  constructor
  · exact (mem_reachable_iff hm.ne').2 ⟨_, validSequence_least hg, rfl⟩
  · intro d hd
    obtain ⟨throttles, hvalid, rfl⟩ := (mem_reachable_iff hm.ne').1 hd
    cases throttles with
    | nil => exact absurd hvalid.nonempty (by decide)
    | cons throttle throttles =>
      have hrange := hvalid.inRange throttle List.mem_cons_self
      have hstart : Ahead ((0 : ℚ), input.v0) (0, input.v0) := Ahead.refl hv
      have hfirst := hstart.advance hm hf ⟨hlow, hrange.1⟩
      have hforward : ∀ t ∈ throttles, 0 ≤ t := by
        intro t ht
        exact hlow.trans (hvalid.inRange t (List.mem_cons_of_mem _ ht)).1
      have hrest := foldl_further hm hf (hfirst.forward.trans hfirst.velocity) hforward
      exact hfirst.distance.trans hrest.1

theorem isGreatest_farthest : IsGreatest (Reachable input g) (farthest input g) := by
  constructor
  · exact (mem_reachable_iff hm.ne').2 ⟨_, validSequence_full hg, rfl⟩
  · intro d hd
    obtain ⟨throttles, hvalid, rfl⟩ := (mem_reachable_iff hm.ne').1 hd
    have hstart : Ahead ((0 : ℚ), input.v0) (0, input.v0) := Ahead.refl hv
    -- first full throttle for as many steps, then for the steps that are left
    have hfull : List.Forall₂ (fun t t' => 0 ≤ t ∧ t ≤ t') throttles
        (List.replicate throttles.length g.throttleRange.2) := by
      refine List.forall₂_iff_get.2 ⟨by rw [List.length_replicate], ?_⟩
      intro i hi hi'
      have hrange := hvalid.inRange _ (List.get_mem throttles ⟨i, hi⟩)
      rw [List.get_eq_getElem, List.get_eq_getElem, List.getElem_replicate]
      exact ⟨hlow.trans hrange.1, hrange.2⟩
    have hahead := ahead_foldl hm hf hstart hfull
    obtain ⟨left, hleft⟩ : ∃ left, g.maxSequenceLength.toNat = throttles.length + left :=
      ⟨g.maxSequenceLength.toNat - throttles.length, by have := hvalid.short; omega⟩
    have hforward : ∀ t ∈ List.replicate left g.throttleRange.2, 0 ≤ t := by
      intro t ht
      rw [List.eq_of_mem_replicate ht]
      exact hlow.trans hg.throttleRange
    have hfurther := foldl_further hm hf (hahead.forward.trans hahead.velocity) hforward
    unfold farthest simulate
    rw [hleft, List.replicate_add, List.foldl_append]
    exact hahead.distance.trans hfurther.1

end Reach

/-! ## What the search answers -/

section Answer

variable {input : ThrottleCalculationInput} {g : GeneticConfiguration}

/-- a valid sequence with its fitness -/
def Scored (input : ThrottleCalculationInput) (g : GeneticConfiguration) (result : ThrottleSequenceGeneticResult) :
    Prop :=
  ∃ throttles best, result = ⟨some throttles, some best⟩ ∧ ValidSequence g throttles ∧
    fitnessOf input g throttles = .ok best

/-- what a turn leaves is an individual of the population before it -/
theorem scored_of_leavesBest {s s' : SearchState} (hs : ValidPopulation g s.population) (h : LeavesBest input g s s') :
    Scored input g s'.result := by
  obtain ⟨throttles, best, hresult, hbest⟩ := h
  exact ⟨throttles, best, hresult, hs.individuals throttles hbest.mem, hbest.scored⟩

theorem searchLoop_scored (hmass : input.mass ≠ 0) (hg : g.Searchable) (startTime : ℚ) (turns : ℕ) {s : SearchState}
    (hs : ValidPopulation g s.population) (hbest : turns = 0 → Scored input g s.result) :
    Returns (searchLoop input g startTime turns s) (Scored input g) := by
  induction turns generalizing s with
  | zero => exact Returns.pure (hbest rfl)
  | succ turns ih =>
    have hturn := (generation_returns hmass hg hs).and_answers (generation_best _ _ _)
    refine hturn.bind fun s' hs' => ?_
    have hscored : Scored input g s'.result := scored_of_leavesBest hs hs'.2
    refine (timedOut_returns g startTime).bind fun stop _ => ?_
    exact Returns.ite (fun _ => Returns.pure hscored) fun _ => ih hs'.1 fun _ => hscored

/-- **The search answers**, whatever the draws and the clock. -/
theorem search_scored (hmass : input.mass ≠ 0) (hg : g.Searchable) :
    Returns (findOptimalThrottleSequence input g) (Scored input g) := by
  refine (startSearch_returns hg).bind fun start hstart => ?_
  refine searchLoop_scored hmass hg start.2 _ hstart fun hnone => ?_
  have hturns := hg.numGenerations
  omega

/-- the distance that the fitness is about -/
theorem distanceDiff_eq (hm : input.mass ≠ 0) {throttles : List ℤ} {best : FitnessScore}
    (h : fitnessOf input g throttles = .ok best) :
    best.distanceDiff = |input.dTarget - (simulate input throttles).1| := by
  unfold fitnessOf fitness at h
  rw [calculateTotalDistance_eq hm] at h
  cases h
  rfl

/-- **Out of reach.** The distances of the valid sequences have a least and a greatest one, and whatever the draws and
however long the search runs, the fitness it answers is off the target by at least what the target lies outside of
them. -/
theorem out_of_reach (hg : g.Searchable) (hlow : 0 ≤ g.throttleRange.1) (hv : 0 ≤ input.v0) (hm : 0 < input.mass)
    (hf : input.friction ≤ 1) :
    IsLeast (Reachable input g) (nearest input g) ∧ IsGreatest (Reachable input g) (farthest input g) ∧
      ∀ world, ∃ throttles best world', (findOptimalThrottleSequence input g).run world =
          .ok ⟨some throttles, some best⟩ world' ∧
        max (input.dTarget - farthest input g) (nearest input g - input.dTarget) ≤ best.distanceDiff := by
  have hleast := isLeast_nearest hg hlow hv hm hf
  have hgreatest := isGreatest_farthest hg hlow hv hm hf
  refine ⟨hleast, hgreatest, ?_⟩
  intro world
  obtain ⟨result, world', hrun, throttles, best, rfl, hvalid, hscored⟩ := search_scored hm.ne' hg world
  refine ⟨throttles, best, world', hrun, ?_⟩
  have hmem : (simulate input throttles).1 ∈ Reachable input g := (mem_reachable_iff hm.ne').2 ⟨throttles, hvalid, rfl⟩
  have hnear := hleast.2 hmem
  have hfar := hgreatest.2 hmem
  rw [distanceDiff_eq hm.ne' hscored]
  apply max_le
  · calc input.dTarget - farthest input g ≤ input.dTarget - (simulate input throttles).1 := sub_le_sub_left hfar _
      _ ≤ |input.dTarget - (simulate input throttles).1| := le_abs_self _
  · calc nearest input g - input.dTarget ≤ (simulate input throttles).1 - input.dTarget := sub_le_sub_right hnear _
      _ ≤ |(simulate input throttles).1 - input.dTarget| := le_abs_self _
      _ = |input.dTarget - (simulate input throttles).1| := abs_sub_comm _ _

theorem farthest_default : farthest ⟨0, 1, 0, 2000000⟩ {} = 1515000 := by decide +kernel

/-- from rest without friction, with the default configuration: the target is 485000 too far -/
theorem out_of_reach_default : IsGreatest (Reachable ⟨0, 1, 0, 2000000⟩ {}) 1515000 ∧ ∀ world, ∃ throttles best world',
    (findOptimalThrottleSequence ⟨0, 1, 0, 2000000⟩ {}).run world = .ok ⟨some throttles, some best⟩ world' ∧
      485000 ≤ best.distanceDiff := by
  obtain ⟨-, hgreatest, hsearch⟩ := @out_of_reach ⟨0, 1, 0, 2000000⟩ {} GeneticConfiguration.default_searchable le_rfl
    le_rfl one_pos zero_le_one
  rw [farthest_default] at hgreatest hsearch
  refine ⟨hgreatest, ?_⟩
  intro world
  obtain ⟨throttles, best, world', hrun, hfar⟩ := hsearch world
  refine ⟨throttles, best, world', hrun, ?_⟩
  calc (485000 : ℚ) = 2000000 - 1515000 := by norm_num
    _ ≤ best.distanceDiff := (le_max_left _ _).trans hfar

end Answer

end LlmAgent
