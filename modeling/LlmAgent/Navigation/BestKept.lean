/-
Does a longer search ever answer worse?

`best_fitness` and `best_throttle_sequence` are set in every generation to the best of that generation alone, so a good
individual that crossover and mutation lose is forgotten.

- `loopStates_take`: a search with fewer generations goes through the first states of the longer one;
- `best_le_scored`: what the states of a run carry forward when no generation falls behind the one before;
- `keepsBest_cuts_iff`: every cut of one run keeps the best individual scored so far if and only if no generation falls
  behind the one before it;
- `turning_run`: some draws make a search forget an individual, if it scores two generations;
- `keepsBest_iff`: when a search keeps its best whatever is drawn.
-/
import Mathlib.Data.List.TakeDrop
import LlmAgent.Navigation.Offspring

namespace LlmAgent

open Core

/-! ## The law and the condition -/

/-- the search cut off after this many generations, all else as configured -/
def GeneticConfiguration.cutAt (g : GeneticConfiguration) (generations : ℕ) : GeneticConfiguration :=
  { g with numGenerations := generations }

/-- what the search returns scores at most as much as every individual it has scored -/
def KeepsBest (input : ThrottleCalculationInput) (g : GeneticConfiguration) (world : World) : Prop :=
  ∀ result world', (findOptimalThrottleSequence input g).run world = .ok result world' →
    ∀ s ∈ (searchStates input g world).dropLast, ∀ throttles ∈ s.population, ∃ best score,
      result.fitnessScore = some best ∧ fitnessOf input g throttles = .ok score ∧ best.score ≤ score.score

/-- going on with a search never raises the score it returns -/
def NeverWorse (input : ThrottleCalculationInput) (g : GeneticConfiguration) (world : World) : Prop :=
  ∀ earlier later : ℕ, earlier ≤ later → later ≤ g.numGenerations → ∀ result result' world₁ world₂ best,
    (findOptimalThrottleSequence input (g.cutAt earlier)).run world = .ok result world₁ →
    (findOptimalThrottleSequence input (g.cutAt later)).run world = .ok result' world₂ →
    result.fitnessScore = some best → ∃ best', result'.fitnessScore = some best' ∧ best'.score ≤ best.score

/-- the clock reading after the first generation is `timeout_ms` or more past the start -/
def FirstTimesOut (g : GeneticConfiguration) (readings : Stream' ℤ) : Prop :=
  (readings.get 1 : ℚ) / 10 ^ 6 - (readings.get 0 : ℚ) / 10 ^ 6 ≥ g.timeoutMs

instance (g : GeneticConfiguration) (readings : Stream' ℤ) : Decidable (FirstTimesOut g readings) :=
  inferInstanceAs (Decidable (_ ≥ _))

/-- no sequence that crossover and mutation can bring after a scored one scores more than it -/
def NothingToLose (input : ThrottleCalculationInput) (g : GeneticConfiguration) : Prop :=
  ∀ throttles child score childScore, ValidSequence g throttles → CanFollow g throttles child →
    fitnessOf input g throttles = .ok score → fitnessOf input g child = .ok childScore →
    childScore.score ≤ score.score

/-- at the head of a generation: the population has an individual as good as the best of the generation before -/
def HasKept (input : ThrottleCalculationInput) (g : GeneticConfiguration) (s : SearchState) : Prop :=
  ∀ best, s.bestFitness = some best → ∃ throttles ∈ s.population, ∃ score,
    fitnessOf input g throttles = .ok score ∧ score.score ≤ best.score

variable {input : ThrottleCalculationInput} {g : GeneticConfiguration} {startTime : ℚ}

/-! ## The best along a run -/

/-- the last state's best is the least of everything scored, when no generation fell behind -/
theorem best_le_scored {before : List SearchState} {last : SearchState}
    (hchain : (before ++ [last]).IsChain (LeavesBest input g)) (hkept : ∀ s ∈ before, HasKept input g s) :
    ∀ s ∈ before, ∀ throttles ∈ s.population, ∃ best score, last.bestFitness = some best ∧
      fitnessOf input g throttles = .ok score ∧ best.score ≤ score.score := by
  induction before using List.reverseRecOn generalizing last with
  | nil => exact fun s hs => absurd hs List.not_mem_nil
  | append_singleton before s' ih =>
    have hstep : LeavesBest input g s' last :=
      List.isChain_iff_forall_rel_of_append_cons_cons.1 hchain (List.append_assoc before [s'] [last])
    obtain ⟨throttles', best, hresult, hbest⟩ := hstep
    have hlast : last.bestFitness = some best := congrArg ThrottleSequenceGeneticResult.fitnessScore hresult
    intro s hs throttles hthrottles
    rcases List.mem_append.1 hs with hs | hs
    · -- `s'` was as good as `s`, and has an individual as good as that
      have hchain' : (before ++ [s']).IsChain (LeavesBest input g) := hchain.prefix (List.prefix_append _ _)
      obtain ⟨best', score, hbest', hscore, hle⟩ :=
        ih hchain' (fun t ht => hkept t (by simp [ht])) s hs throttles hthrottles
      obtain ⟨kept, hmem, keptScore, hkeptScore, hkeptLe⟩ := hkept s' (by simp) best' hbest'
      obtain ⟨otherScore, hother, hleast⟩ := hbest.least kept hmem
      obtain rfl : keptScore = otherScore := Except.ok.inj (hkeptScore.symm.trans hother)
      exact ⟨best, score, hlast, hscore, hleast.trans (hkeptLe.trans hle)⟩
    · obtain rfl := List.mem_singleton.1 hs
      obtain ⟨score, hscore, hle⟩ := hbest.least throttles hthrottles
      exact ⟨best, score, hlast, hscore, hle⟩

/-! ## Searches cut off early -/

theorem cutAt_self (h : 0 ≤ g.numGenerations) : g.cutAt g.numGenerations.toNat = g := by
  rw [GeneticConfiguration.cutAt, Int.toNat_of_nonneg h]

@[simp] theorem generation_cutAt (k : ℕ) (s : SearchState) :
    generation input (g.cutAt k) s = generation input g s := rfl

@[simp] theorem timedOut_cutAt (k : ℕ) : timedOut (g.cutAt k) startTime = timedOut g startTime := rfl

theorem loopStates_cutAt (k turns : ℕ) (s : SearchState) (world : World) :
    loopStates input (g.cutAt k) startTime turns s world = loopStates input g startTime turns s world := by
  induction turns generalizing s world with
  | zero => rfl
  | succ turns ih => simp only [loopStates, generation_cutAt, timedOut_cutAt, ih]

theorem loopStates_take {k turns : ℕ} (hk : k ≤ turns) (s : SearchState) (world : World) :
    loopStates input g startTime k s world = (loopStates input g startTime turns s world).take (k + 1) := by
  induction turns generalizing k s world with
  | zero =>
    obtain rfl := Nat.le_zero.1 hk
    rfl
  | succ turns ih =>
    cases k with
    | zero =>
      obtain ⟨rest, hrest⟩ := loopStates_cons input g startTime (turns + 1) s world
      rw [hrest]
      rfl
    | succ k =>
      cases hrun : (generation input g s).run world with
      | error e world' => simp only [loopStates, hrun, List.take_succ_cons, List.take_nil]
      | ok s' world' =>
        obtain ⟨stop, world'', htime, -⟩ := timedOut_returns g startTime world'
        cases stop with
        | true => simp only [loopStates, hrun, htime, List.take_succ_cons, List.take_nil]
        | false =>
          simp only [loopStates, hrun, htime, List.take_succ_cons]
          rw [ih (Nat.le_of_succ_le_succ hk)]

/-- a loop that went through all of its turns returns -/
theorem searchLoop_of_length {turns : ℕ} {s : SearchState} {world : World}
    (h : (loopStates input g startTime turns s world).length = turns + 1) :
    ∃ result world', (searchLoop input g startTime turns s).run world = .ok result world' := by
  induction turns generalizing s world with
  | zero => exact ⟨s.result, world, rfl⟩
  | succ turns ih =>
    cases hrun : (generation input g s).run world with
    | error e world' =>
      simp only [loopStates, hrun, List.length_singleton] at h
      omega
    | ok s' world' =>
      obtain ⟨stop, world'', -, hstates, hloop⟩ := loopStates_turn startTime turns hrun
      rw [hloop]
      cases stop with
      | true => exact ⟨s'.result, world'', rfl⟩
      | false =>
        rw [hstates, if_neg Bool.false_ne_true, List.length_cons] at h
        exact ih (Nat.succ.inj h)

theorem length_loopStates_le (turns : ℕ) (s : SearchState) (world : World) :
    (loopStates input g startTime turns s world).length ≤ turns + 1 := by
  rw [loopStates_take le_rfl, List.length_take]
  exact min_le_left _ _

/-! ## Whole searches -/

theorem searchStates_start {world world' : World} {start : SearchState × ℚ}
    (h : (startSearch g).run world = .ok start world') :
    searchStates input g world = loopStates input g start.2 g.numGenerations.toNat start.1 world' := by
  rw [searchStates, h]

theorem search_start {world world' : World} {start : SearchState × ℚ}
    (h : (startSearch g).run world = .ok start world') :
    (findOptimalThrottleSequence input g).run world =
      (searchLoop input g start.2 g.numGenerations.toNat start.1).run world' := by
  rw [findOptimalThrottleSequence, EStateM.run_bind, h]

theorem searchStates_cutAt {k : ℕ} (hk : k ≤ g.numGenerations) (world : World) :
    searchStates input (g.cutAt k) world = (searchStates input g world).take (k + 1) := by
  have hstart : startSearch (g.cutAt k) = startSearch g := rfl
  have hturns : (g.cutAt k).numGenerations.toNat = k := rfl
  rw [searchStates, searchStates, hstart, hturns]
  cases (startSearch g).run world with
  | error e world' => rfl
  | ok start world' => exact (loopStates_cutAt _ _ _ _).trans (loopStates_take (by omega) _ _)

theorem searchStates_chain {R : SearchState → SearchState → Prop} (hR : ∀ s, Answers (generation input g s) (R s))
    (world : World) : (searchStates input g world).IsChain R := by
  rw [searchStates]
  cases (startSearch g).run world with
  | error e world' => exact List.IsChain.nil
  | ok start world' => exact loopStates_chain _ hR _ _ _

theorem searchStates_valid (hmass : input.mass ≠ 0) (hg : g.Searchable) (world : World) :
    ∀ s ∈ searchStates input g world, ValidPopulation g s.population := by
  obtain ⟨start, world', hstart, hvalid⟩ := startSearch_returns hg world
  rw [searchStates, hstart]
  exact loopStates_valid _ hmass hg _ _ hvalid

theorem search_last {world world' : World} {result : ThrottleSequenceGeneticResult}
    (h : (findOptimalThrottleSequence input g).run world = .ok result world') :
    ∃ last, (searchStates input g world).getLast? = some last ∧ result = last.result := by
  rw [findOptimalThrottleSequence, EStateM.run_bind] at h
  rw [searchStates]
  cases hstart : (startSearch g).run world with
  | error e world₁ =>
    rw [hstart] at h
    cases h
  | ok start world₁ =>
    rw [hstart] at h
    exact searchLoop_result h

variable (input g) in
theorem search_of_length (world : World) (h : (searchStates input g world).length = g.numGenerations.toNat + 1) :
    ∃ result world', (findOptimalThrottleSequence input g).run world = .ok result world' := by
  rw [findOptimalThrottleSequence, EStateM.run_bind]
  rw [searchStates] at h
  cases hstart : (startSearch g).run world with
  | error e world₁ =>
    rw [hstart] at h
    cases h
  | ok start world₁ =>
    rw [hstart] at h
    exact searchLoop_of_length h

variable (input g) in
theorem length_searchStates_le (world : World) : (searchStates input g world).length ≤ g.numGenerations.toNat + 1 := by
  rw [searchStates]
  cases (startSearch g).run world with
  | error e world' => exact Nat.zero_le _
  | ok start world' => exact length_loopStates_le _ _ _

/-- the first state has no best yet -/
theorem searchStates_head {world : World} {s : SearchState} {rest : List SearchState}
    (h : searchStates input g world = s :: rest) : s.bestFitness = none := by
  rw [searchStates] at h
  cases hstart : (startSearch g).run world with
  | error e world' =>
    rw [hstart] at h
    cases h
  | ok start world' =>
    obtain ⟨rest', hrest⟩ := loopStates_cons input g start.2 g.numGenerations.toNat start.1 world'
    rw [hstart] at h
    obtain rfl : start.1 = s := (List.cons.inj (hrest.symm.trans h)).1
    rw [startSearch, EStateM.run_bind] at hstart
    cases hpopulation : (generateInitialPopulation g.populationSize g.maxSequenceLength g.throttleRange).run world with
    | error e world₁ =>
      rw [hpopulation] at hstart
      cases hstart
    | ok population world₁ =>
      rw [hpopulation] at hstart
      cases hstart
      rfl

/-! ## One run -/

theorem exists_next_of_mem_dropLast {α : Type} {l : List α} {a : α} (h : a ∈ l.dropLast) :
    ∃ before b after, l = before ++ a :: b :: after := by
  obtain ⟨before, mid, hmid⟩ := List.append_of_mem h
  have hne : l ≠ [] := by
    rintro rfl
    cases h
  have hl := List.dropLast_concat_getLast hne
  rw [hmid, List.append_assoc] at hl
  cases mid with
  | nil => exact ⟨before, _, [], hl.symm⟩
  | cons b mid => exact ⟨before, b, mid ++ [l.getLast hne], hl.symm⟩

/-- a search cut off at a state returns that state's result -/
theorem cutAt_result {before after : List SearchState} {s t : SearchState} {world : World}
    (h : searchStates input g world = before ++ s :: t :: after) :
    before.length + 1 ≤ g.numGenerations ∧ searchStates input (g.cutAt (before.length + 1)) world = before ++ [s, t] ∧
      ∃ world', (findOptimalThrottleSequence input (g.cutAt (before.length + 1))).run world = .ok t.result world' := by
  have hlen := length_searchStates_le input g world
  rw [h, List.length_append, List.length_cons, List.length_cons] at hlen
  have hk : ((before.length + 1 : ℕ) : ℤ) ≤ g.numGenerations := by omega
  have hstates : searchStates input (g.cutAt (before.length + 1)) world = before ++ [s, t] := by
    rw [searchStates_cutAt hk, h]
    exact List.take_length_add_append 2
  obtain ⟨result, world', hrun⟩ := search_of_length input (g.cutAt (before.length + 1)) world
    (by rw [hstates]; simp [GeneticConfiguration.cutAt])
  obtain ⟨last, hlast, rfl⟩ := search_last hrun
  rw [hstates] at hlast
  obtain rfl : t = last := by simpa using hlast
  exact ⟨by omega, hstates, world', hrun⟩

/-- the cuts of a run all keep the best individual scored so far exactly when each generation has an individual as good
as the best of the one before -/
theorem keepsBest_cuts_iff (input : ThrottleCalculationInput) (g : GeneticConfiguration) (world : World) :
    (∀ generations : ℕ, generations ≤ g.numGenerations → KeepsBest input (g.cutAt generations) world) ↔
      ∀ s ∈ (searchStates input g world).dropLast, HasKept input g s := by
  have hchain := List.isChain_iff_forall_rel_of_append_cons_cons.1 (searchStates_chain (generation_best input g) world)
  constructor
  · intro hkeeps s hs best hbest
    obtain ⟨before, t, after, hsplit⟩ := exists_next_of_mem_dropLast hs
    obtain ⟨hk, hstates, world', hrun⟩ := cutAt_result hsplit
    obtain ⟨kept, bestNow, hnow, hbestNow⟩ := hchain hsplit
    rcases List.eq_nil_or_concat' before with rfl | ⟨earlier, p, rfl⟩
    · rw [searchStates_head hsplit] at hbest
      cases hbest
    · -- cut off after `s` is scored, the search answers `bestNow`, and it has scored the individual behind `best`
      obtain ⟨throttles, best', hbefore, hbestOf⟩ := hchain (hsplit.trans (List.append_assoc _ _ _))
      have hp : p ∈ (searchStates input (g.cutAt ((earlier ++ [p]).length + 1)) world).dropLast := by
        rw [hstates]
        simp
      obtain ⟨answer, score, hanswer, hscore, hle⟩ := hkeeps _ hk _ world' hrun p hp throttles hbestOf.mem
      obtain rfl : bestNow = answer := by
        rw [hnow] at hanswer
        exact Option.some.inj hanswer
      obtain rfl : best' = score := Except.ok.inj (hbestOf.scored.symm.trans hscore)
      obtain rfl : best' = best := by
        have hbest' : s.bestFitness = some best' := congrArg ThrottleSequenceGeneticResult.fitnessScore hbefore
        exact Option.some.inj (hbest'.symm.trans hbest)
      exact ⟨kept, hbestNow.mem, bestNow, hbestNow.scored, hle⟩
  · intro hkept generations hgenerations result world' hrun
    obtain ⟨last, hlast, rfl⟩ := search_last hrun
    have hcut := searchStates_chain (generation_best input (g.cutAt generations)) world
    rw [← List.dropLast_append_getLast? last hlast] at hcut
    refine best_le_scored hcut fun s hs => hkept s ?_
    rw [searchStates_cutAt hgenerations, List.dropLast_take_eq_take_dropLast] at hs
    exact List.mem_of_mem_take hs

theorem mem_dropLast_cutAt {earlier later : ℕ} (hle : earlier ≤ later) (hlater : later ≤ g.numGenerations)
    {world : World} {s : SearchState} (h : s ∈ (searchStates input (g.cutAt earlier) world).dropLast) :
    s ∈ (searchStates input (g.cutAt later) world).dropLast := by
  rw [searchStates_cutAt (by omega), List.dropLast_take_eq_take_dropLast] at h
  rw [searchStates_cutAt hlater, List.dropLast_take_eq_take_dropLast]
  exact (List.take_subset_take_left _ hle) h

/-- what each cut keeps, a later one has kept too -/
theorem neverWorse_of_keepsBest {world : World}
    (hkeeps : ∀ generations : ℕ, generations ≤ g.numGenerations → KeepsBest input (g.cutAt generations) world) :
    NeverWorse input g world := by
  intro earlier later hle hlater result result' world₁ world₂ best hearlier hrun hbest
  obtain ⟨last, hlast, rfl⟩ := search_last hearlier
  have hsplit := List.dropLast_append_getLast? last hlast
  rcases List.eq_nil_or_concat' (searchStates input (g.cutAt earlier) world).dropLast with hnil | ⟨before, p, hbefore⟩
  · rw [hnil] at hsplit
    rw [SearchState.result, searchStates_head hsplit.symm] at hbest
    cases hbest
  · have hchain := List.isChain_iff_forall_rel_of_append_cons_cons.1
      (searchStates_chain (generation_best input (g.cutAt earlier)) world)
    rw [hbefore, List.append_assoc] at hsplit
    obtain ⟨throttles, best', hresult, hbestOf⟩ := hchain hsplit.symm
    have hp : p ∈ (searchStates input (g.cutAt earlier) world).dropLast := by simp [hbefore]
    obtain ⟨answer, score, hanswer, hscore, hanswerLe⟩ :=
      hkeeps later hlater result' world₂ hrun p (mem_dropLast_cutAt hle hlater hp) throttles hbestOf.mem
    obtain rfl : best' = score := Except.ok.inj (hbestOf.scored.symm.trans hscore)
    obtain rfl : best' = best := by
      rw [hresult] at hbest
      exact Option.some.inj hbest
    exact ⟨answer, hanswer, hanswerLe⟩

/-! ## Searches that lose nothing -/

theorem hasKept_of_length {world : World} (h : (searchStates input g world).length ≤ 2) :
    ∀ s ∈ (searchStates input g world).dropLast, HasKept input g s := by
  intro s hs best hbest
  obtain ⟨before, t, after, hsplit⟩ := exists_next_of_mem_dropLast hs
  have hlen := congrArg List.length hsplit
  rw [List.length_append, List.length_cons, List.length_cons] at hlen
  obtain rfl : before = [] := List.length_eq_zero_iff.1 (by omega)
  rw [searchStates_head hsplit] at hbest
  cases hbest

theorem startSearch_run {world world' : World} {start : SearchState × ℚ}
    (h : (startSearch g).run world = .ok start world') :
    start.2 = (world.readings.head : ℚ) / 10 ^ 6 ∧ world'.readings = world.readings.tail := by
  rw [startSearch, EStateM.run_bind] at h
  cases hrun : (generateInitialPopulation g.populationSize g.maxSequenceLength g.throttleRange).run world with
  | error e world₁ =>
    rw [hrun] at h
    cases h
  | ok population world₁ =>
    have hreadings := (generateInitialPopulation_free _ _ _ world population world₁ hrun).1
    rw [hrun] at h
    cases h
    rw [← hreadings]
    exact ⟨rfl, rfl⟩

theorem length_searchStates_timeout {world : World} (h : FirstTimesOut g world.readings) :
    (searchStates input g world).length ≤ 2 := by
  cases hstart : (startSearch g).run world with
  | error e world' =>
    rw [searchStates, hstart]
    exact Nat.zero_le 2
  | ok start world' =>
    obtain ⟨hstartTime, hreadings⟩ := startSearch_run hstart
    have htimeout : (world.readings.tail.head : ℚ) / 10 ^ 6 - (world.readings.head : ℚ) / 10 ^ 6 ≥ g.timeoutMs := h
    rw [searchStates_start hstart]
    cases g.numGenerations.toNat with
    | zero => exact Nat.le_succ 1
    | succ turns =>
      cases hrun : (generation input g start.1).run world' with
      | error e world'' => simp [loopStates, hrun]
      | ok s' world'' =>
        obtain ⟨stop, world₃, htime, hstates, -⟩ := loopStates_turn start.2 turns hrun
        have hreadings' := (generation_free _ _ _ _ _ _ hrun).1
        rw [timedOut_run, hreadings', hreadings, hstartTime] at htime
        obtain ⟨rfl, -⟩ := EStateM.Result.ok.inj htime
        rw [hstates, if_pos (decide_eq_true htimeout)]
        exact le_rfl

/-- where no follower of a sequence scores more than it, no generation falls behind -/
theorem hasKept_of_nothingToLose (hmass : input.mass ≠ 0) (hg : g.Searchable) (h : NothingToLose input g)
    (world : World) : ∀ s ∈ (searchStates input g world).dropLast, HasKept input g s := by
  intro s hs best hbest
  have hchain := searchStates_chain (R := fun s s' => LeavesBest input g s s' ∧
    ∀ child ∈ s'.population, BredBy g s.population child) (fun s world s' world' hrun =>
      ⟨generation_best input g s world s' world' hrun, generation_bred input g s world s' world' hrun⟩) world
  have hvalid := searchStates_valid hmass hg world
  obtain ⟨before, t, after, hsplit⟩ := exists_next_of_mem_dropLast hs
  rcases List.eq_nil_or_concat' before with rfl | ⟨earlier, p, rfl⟩
  · rw [searchStates_head hsplit] at hbest
    cases hbest
  · rw [List.append_assoc] at hsplit
    obtain ⟨⟨throttles, best', hresult, hbestOf⟩, hbred⟩ :=
      List.isChain_iff_forall_rel_of_append_cons_cons.1 hchain hsplit
    obtain rfl : best' = best :=
      Option.some.inj ((congrArg ThrottleSequenceGeneticResult.fitnessScore hresult).symm.trans hbest)
    have hp : ValidPopulation g p.population := hvalid p (by simp [hsplit])
    have hnext : ValidPopulation g s.population := hvalid s (by simp [hsplit])
    obtain ⟨child, hchild⟩ : ∃ child, child ∈ s.population := by
      refine List.exists_mem_of_length_pos ?_
      have hsize := hnext.size
      have hpositive := hg.populationSize
      omega
    have hfollows := (hbred child hchild).canFollow hp hbestOf.mem
    obtain ⟨childScore, hchildScore⟩ := fitnessOf_ok (g := g) hmass child
    exact ⟨child, hchild, childScore, hchildScore,
      h throttles child best' childScore (hp.individuals throttles hbestOf.mem) hfollows hbestOf.scored hchildScore⟩

/-! ## Searches that can lose -/

/-- for some draws the search starts with this population, turns into this child and answers it; cut off after its first
generation it answers the best of the population -/
theorem turning_run (hmass : input.mass ≠ 0) (hg : g.Searchable) {readings : Stream' ℤ} {population : List (List ℤ)}
    {child : List ℤ} {childScore : FitnessScore} (hturns : 2 ≤ g.numGenerations) (htime : ¬ FirstTimesOut g readings)
    (hpopulation : ValidPopulation g population) (hturn : CanTurnInto g population child) (hlasting : Lasting g child)
    (hscore : fitnessOf input g child = .ok childScore) :
    ∃ draws s s' result world₁ world₂, s.population = population ∧
      s ∈ (searchStates input g ⟨draws, readings⟩).dropLast ∧
      (findOptimalThrottleSequence input g).run ⟨draws, readings⟩ = .ok result world₁ ∧
      result.fitnessScore = some childScore ∧
      (findOptimalThrottleSequence input (g.cutAt 1)).run ⟨draws, readings⟩ = .ok s'.result world₂ ∧
      LeavesBest input g s s' := by
  obtain ⟨turns, hnum⟩ : ∃ turns, g.numGenerations.toNat = turns + 2 := ⟨g.numGenerations.toNat - 2, by omega⟩
  have hfirst : ValidPopulation g (SearchState.mk population none none).population := hpopulation
  obtain ⟨s', hgeneration, hs'⟩ := offers_generation hmass hg hfirst hturn
  -- the draws, from the last ones back to the first
  obtain ⟨draws₂, result, world₁, hloop, hresult⟩ :=
    staying_run hmass hg hlasting hscore turns hs' readings.tail.tail
  obtain ⟨draws₁, hrun⟩ := exists_draws hgeneration draws₂ readings.tail
  obtain ⟨draws, hinitial⟩ := exists_draws (offers_generateInitialPopulation hpopulation) draws₁ readings
  have hstart : (startSearch g).run ⟨draws, readings⟩ =
      .ok (⟨population, none, none⟩, (readings.head : ℚ) / 10 ^ 6) ⟨draws₁, readings.tail⟩ := by
    rw [startSearch, EStateM.run_bind, hinitial]
    rfl
  obtain ⟨stop, world₂, htimed, hstates, hsearch⟩ := loopStates_turn ((readings.head : ℚ) / 10 ^ 6) (turns + 1) hrun
  rw [timedOut_run] at htimed
  obtain ⟨rfl, rfl⟩ := EStateM.Result.ok.inj htimed
  have hgoes : ¬ (readings.tail.head : ℚ) / 10 ^ 6 - (readings.head : ℚ) / 10 ^ 6 ≥ g.timeoutMs := htime
  rw [if_neg (mt of_decide_eq_true hgoes)] at hstates hsearch
  obtain ⟨rest, hrest⟩ :=
    loopStates_cons input g ((readings.head : ℚ) / 10 ^ 6) (turns + 1) s' ⟨draws₂, readings.tail.tail⟩
  refine ⟨draws, ⟨population, none, none⟩, s', result, world₁, ⟨draws₂, readings.tail.tail⟩, rfl, ?_, ?_, hresult, ?_,
    generation_best input g _ _ _ _ hrun⟩
  · rw [searchStates_start hstart, hnum, hstates, hrest]
    exact List.mem_cons_self
  · rw [search_start hstart, hnum, hsearch]
    exact hloop
  · have hcut : (startSearch (g.cutAt 1)).run ⟨draws, readings⟩ =
        .ok (⟨population, none, none⟩, (readings.head : ℚ) / 10 ^ 6) ⟨draws₁, readings.tail⟩ := hstart
    have hrunCut : (generation input (g.cutAt 1) ⟨population, none, none⟩).run ⟨draws₁, readings.tail⟩ =
        .ok s' ⟨draws₂, readings.tail⟩ := hrun
    obtain ⟨stop, world₂, htimed, -, hsearchCut⟩ := loopStates_turn ((readings.head : ℚ) / 10 ^ 6) 0 hrunCut
    obtain ⟨rfl, rfl⟩ := EStateM.Result.ok.inj htimed
    rw [search_start hcut]
    refine hsearchCut.trans ?_
    split_ifs <;> rfl

theorem exists_loss (hmass : input.mass ≠ 0) (hg : g.Searchable) {readings : Stream' ℤ} (hturns : 2 ≤ g.numGenerations)
    (htime : ¬ FirstTimesOut g readings) (hlose : ¬ NothingToLose input g) :
    ∃ draws, ¬ KeepsBest input g ⟨draws, readings⟩ ∧ ¬ NeverWorse input g ⟨draws, readings⟩ := by
  unfold NothingToLose at hlose
  push Not at hlose
  obtain ⟨throttles, child, score, childScore, hvalid, hfollows, hscore, hchildScore, hless⟩ := hlose
  obtain ⟨population, hpopulation, hmem, hturn⟩ := hfollows.population hg hvalid
  obtain ⟨draws, s, s', result, world₁, world₂, rfl, hs, hrun, hresult, hcut, bestThrottles, best, hbest, hbestOf⟩ :=
    turning_run hmass hg hturns htime hpopulation hturn (hfollows.lasting hg hvalid) hchildScore
  refine ⟨draws, fun hkeeps => ?_, fun hnever => ?_⟩
  · obtain ⟨answer, score', hanswer, hscore', hle⟩ := hkeeps result world₁ hrun s hs throttles hmem
    obtain rfl : childScore = answer := Option.some.inj (hresult.symm.trans hanswer)
    obtain rfl : score = score' := Except.ok.inj (hscore.symm.trans hscore')
    exact absurd hle (not_le.2 hless)
  · have hwhole : g.cutAt g.numGenerations.toNat = g := cutAt_self (by omega)
    obtain ⟨answer, hanswer, hle⟩ := hnever 1 g.numGenerations.toNat (by omega) (by omega) s'.result result world₂
      world₁ best hcut (by rwa [hwhole]) (by rw [hbest])
    obtain rfl : childScore = answer := Option.some.inj (hresult.symm.trans hanswer)
    obtain ⟨score', hscore', hleast⟩ := hbestOf.least throttles hmem
    obtain rfl : score = score' := Except.ok.inj (hscore.symm.trans hscore')
    exact absurd (hle.trans hleast) (not_le.2 hless)

/-! ## The law -/

/-- in a population of two or more, with a rate that spares some draw, only equal scores leave nothing to lose -/
theorem nothingToLose_iff (hg : g.Searchable) (htwo : 2 ≤ g.populationSize) (hspares : g.Spares) :
    NothingToLose input g ↔ ∀ throttles other score otherScore, ValidSequence g throttles → ValidSequence g other →
      fitnessOf input g throttles = .ok score → fitnessOf input g other = .ok otherScore →
      score.score = otherScore.score := by
  constructor
  · intro h throttles other score otherScore hthrottles hother hscore hotherScore
    have hle : ∀ a b scoreA scoreB, ValidSequence g a → ValidSequence g b → fitnessOf input g a = .ok scoreA →
        fitnessOf input g b = .ok scoreB → scoreB.score ≤ scoreA.score := fun a b scoreA scoreB ha hb =>
      h a b scoreA scoreB ha (Lasting.follows hg htwo ⟨hb, Or.inl hspares⟩ a)
    exact le_antisymm (hle _ _ _ _ hother hthrottles hotherScore hscore)
      (hle _ _ _ _ hthrottles hother hscore hotherScore)
  · intro h throttles child score childScore hthrottles hfollows hscore hchildScore
    have hchild := (hfollows.lasting hg hthrottles).valid
    exact (h throttles child score childScore hthrottles hchild hscore hchildScore).ge

/-- **More search never gives a worse answer, exactly when there is no more search or nothing to lose**: whatever is
drawn, the search keeps the best individual it scored, and going on never raises the score it returns, if and only if
one generation is all there is, or the timeout ends the search after it, or no sequence that can follow another scores
more. -/
theorem keepsBest_iff (input : ThrottleCalculationInput) (g : GeneticConfiguration) (hmass : input.mass ≠ 0)
    (hg : g.Searchable) (readings : Stream' ℤ) :
    ((∀ draws, KeepsBest input g ⟨draws, readings⟩) ↔
      g.numGenerations ≤ 1 ∨ FirstTimesOut g readings ∨ NothingToLose input g) ∧
    ((∀ draws, NeverWorse input g ⟨draws, readings⟩) ↔
      g.numGenerations ≤ 1 ∨ FirstTimesOut g readings ∨ NothingToLose input g) := by
  have hkept : (g.numGenerations ≤ 1 ∨ FirstTimesOut g readings ∨ NothingToLose input g) → ∀ draws, ∀ generations : ℕ,
      generations ≤ g.numGenerations → KeepsBest input (g.cutAt generations) ⟨draws, readings⟩ := by
    intro hcondition draws
    refine (keepsBest_cuts_iff input g ⟨draws, readings⟩).2 ?_
    rcases hcondition with hone | htime | hlose
    · have hlen := length_searchStates_le input g ⟨draws, readings⟩
      exact hasKept_of_length (by omega)
    · exact hasKept_of_length (length_searchStates_timeout htime)
    · exact hasKept_of_nothingToLose hmass hg hlose _
  have hloss : ¬ (g.numGenerations ≤ 1 ∨ FirstTimesOut g readings ∨ NothingToLose input g) →
      ∃ draws, ¬ KeepsBest input g ⟨draws, readings⟩ ∧ ¬ NeverWorse input g ⟨draws, readings⟩ := by
    intro hcondition
    push Not at hcondition
    obtain ⟨hturns, htime, hlose⟩ := hcondition
    exact exists_loss hmass hg hturns htime hlose
  refine ⟨⟨fun hkeeps => ?_, fun hcondition draws => ?_⟩, fun hnever => ?_, fun hcondition draws => ?_⟩
  · by_contra hcondition
    obtain ⟨draws, hlost, -⟩ := hloss hcondition
    exact hlost (hkeeps draws)
  · have hsize := hg.numGenerations
    have hwhole := hkept hcondition draws g.numGenerations.toNat (by omega)
    rwa [cutAt_self (by omega)] at hwhole
  · by_contra hcondition
    obtain ⟨draws, -, hworse⟩ := hloss hcondition
    exact hworse (hnever draws)
  · exact neverWorse_of_keepsBest (hkept hcondition draws)

/-- one second passes between any two readings of the clock -/
def everySecond : Stream' ℤ := fun i => i * 10 ^ 9

/-- as configured by default the search keeps its best when the clock reaches the timeout after the first generation,
and not when it stands still: [1] reaches the target, and [0] scores more -/
theorem keepsBest_iff_default :
    (∀ draws, KeepsBest ⟨0, 1, 0, 1⟩ {} ⟨draws, everySecond⟩) ∧
    (¬ ∀ draws, KeepsBest ⟨0, 1, 0, 1⟩ {} ⟨draws, Stream'.const 0⟩) ∧
    ¬ ∀ draws, NeverWorse ⟨0, 1, 0, 1⟩ {} ⟨draws, Stream'.const 0⟩ := by
  have hcondition : ¬ ((300 : ℤ) ≤ 1 ∨ FirstTimesOut {} (Stream'.const 0) ∨ NothingToLose ⟨0, 1, 0, 1⟩ {}) := by
    rintro (hone | htime | hlose)
    · exact absurd hone (by decide)
    · exact absurd htime (by decide +kernel)
    · have hsame := (nothingToLose_iff GeneticConfiguration.default_searchable (by decide) (by decide +kernel)).1 hlose
      have hone : ValidSequence {} [1] := ⟨by decide, by decide, by decide⟩
      have hzero : ValidSequence {} [0] := ⟨by decide, by decide, by decide⟩
      have hscores := hsame [1] [0] ⟨1 / 50, 0, 0, 1⟩ ⟨101 / 100, 1, 0, 1⟩ hone hzero (by decide +kernel)
        (by decide +kernel)
      exact absurd hscores (by decide +kernel)
  have hlaw := keepsBest_iff ⟨0, 1, 0, 1⟩ {} one_ne_zero GeneticConfiguration.default_searchable
  refine ⟨(hlaw everySecond).1.2 (Or.inr (Or.inl ?_)), ?_, ?_⟩
  · decide +kernel
  · exact fun hkeeps => hcondition ((hlaw (Stream'.const 0)).1.1 hkeeps)
  · exact fun hnever => hcondition ((hlaw (Stream'.const 0)).2.1 hnever)

/-- two individuals of one throttle, 0 or 1, two generations, and every throttle mutated -/
def twoIndividuals : GeneticConfiguration :=
  { maxSequenceLength := 1, populationSize := 2, numGenerations := 2, mutationRate := 1, numBestParents := 2,
    numWorstParents := 0, throttleRange := (0, 1) }

theorem twoIndividuals_searchable : twoIndividuals.Searchable where
  maxSequenceLength := by decide
  populationSize := by decide
  numGenerations := by decide
  throttleRange := by decide
  numWorstParents := by decide
  numBestParents := by decide
  twoParents := by decide

/-- the second draw, the first throttle, is 1, all others are 0; the clock stands still -/
def firstThrottleOne : World := ⟨fun i => if i = 1 then 1 else 0, Stream'.const 0⟩

/-- the initial population is [1] and [0], and [1] reaches the target; mutation turns every child into [0], and the
search answers [0] -/
theorem bestLost : ¬ ∀ input g world, input.mass ≠ 0 → g.Searchable → KeepsBest input g world := by
  intro h
  have hstates : searchStates ⟨0, 1, 0, 1⟩ twoIndividuals firstThrottleOne =
      [{ population := [[1], [0]] },
       { population := [[0], [0]], bestThrottleSequence := some [1], bestFitness := some ⟨1 / 50, 0, 0, 1⟩ },
       { population := [[0], [0]], bestThrottleSequence := some [0], bestFitness := some ⟨101 / 100, 1, 0, 1⟩ }] := by
    decide +kernel
  obtain ⟨result, world', hrun⟩ := search_of_length ⟨0, 1, 0, 1⟩ twoIndividuals firstThrottleOne
    (by rw [hstates]; rfl)
  obtain ⟨last, hlast, rfl⟩ := search_last hrun
  rw [hstates] at hlast
  obtain rfl := Option.some.inj hlast
  obtain ⟨best, score, hbest, hscore, hle⟩ := h _ _ _ one_ne_zero twoIndividuals_searchable _ _ hrun
    { population := [[1], [0]] } (by rw [hstates]; simp) [1] (by simp)
  have hreached : fitnessOf ⟨0, 1, 0, 1⟩ twoIndividuals [1] = .ok ⟨1 / 50, 0, 0, 1⟩ := by decide +kernel
  obtain rfl := Option.some.inj hbest
  obtain rfl := Except.ok.inj (hreached.symm.trans hscore)
  exact absurd hle (by decide +kernel)

end LlmAgent
