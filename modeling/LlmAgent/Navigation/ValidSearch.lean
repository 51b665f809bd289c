/-
The genetic search returns, and what it returns is a scored individual of its last generation.

- `crossover_returns`, `mutate_returns`: crossover with its trimming, and mutation with its deletion, keep an individual
  within the bounds, which is what keeps `randint(1, len(parent))` from raising;
- `generation_returns`: one turn of the loop keeps the population within the bounds and does not raise;
- `generation_best`: a turn that returns leaves the best individual of the population it scored;
- `search_valid`: the search as a whole.
-/
import Mathlib.Data.List.Chain
import LlmAgent.Navigation.GeneticPath

namespace LlmAgent

open Core

/-! ## Configurations, individuals, populations -/

/-- the configurations with which no draw and no selection raises -/
structure GeneticConfiguration.Searchable (g : GeneticConfiguration) : Prop where
  maxSequenceLength : 1 ≤ g.maxSequenceLength
  populationSize : 1 ≤ g.populationSize
  numGenerations : 1 ≤ g.numGenerations
  throttleRange : g.throttleRange.1 ≤ g.throttleRange.2
  numWorstParents : 0 ≤ g.numWorstParents ∧ g.numWorstParents ≤ g.populationSize
  numBestParents : 0 ≤ g.numBestParents
  twoParents : 2 ≤ min g.numBestParents g.populationSize + g.numWorstParents

/-- an individual: 1 to `max_sequence_length` throttles, each in `throttle_range` -/
structure ValidSequence (g : GeneticConfiguration) (throttles : List ℤ) : Prop where
  nonempty : 1 ≤ throttles.length
  short : (throttles.length : ℤ) ≤ g.maxSequenceLength
  inRange : ∀ throttle ∈ throttles, g.throttleRange.1 ≤ throttle ∧ throttle ≤ g.throttleRange.2

structure ValidPopulation (g : GeneticConfiguration) (population : List (List ℤ)) : Prop where
  size : (population.length : ℤ) = g.populationSize
  individuals : ∀ throttles ∈ population, ValidSequence g throttles

/-- `throttles` is an individual of the population with this fitness, and no individual scores less -/
structure BestOf (input : ThrottleCalculationInput) (g : GeneticConfiguration) (population : List (List ℤ))
    (throttles : List ℤ) (best : FitnessScore) : Prop where
  mem : throttles ∈ population
  scored : fitnessOf input g throttles = .ok best
  least : ∀ other ∈ population, ∃ otherScore, fitnessOf input g other = .ok otherScore ∧ best.score ≤ otherScore.score

variable {input : ThrottleCalculationInput} {g : GeneticConfiguration} {s : SearchState}

/-! ## Scoring -/

theorem calculateTotalDistance_ok (v0 f : ℚ) {m : ℚ} (hm : m ≠ 0) (throttles : List ℤ) :
    ∃ distanceSpeed, calculateTotalDistance v0 throttles m f = .ok distanceSpeed := by
  suffices h : ∀ start, ∃ distanceSpeed, throttles.foldlM (advanceVelocity m f) start = .ok distanceSpeed from h (0, v0)
  induction throttles with
  | nil => exact fun start => ⟨start, rfl⟩
  | cons throttle throttles ih =>
    intro start
    have hstep : advanceVelocity m f start throttle = .ok
        (start.1 + (start.2 + throttle / m) * (1 - f), (start.2 + throttle / m) * (1 - f)) := by
      rw [advanceVelocity, calculateVelocity, if_neg hm]
      rfl
    obtain ⟨distanceSpeed, hrest⟩ :=
      ih (start.1 + (start.2 + throttle / m) * (1 - f), (start.2 + throttle / m) * (1 - f))
    refine ⟨distanceSpeed, ?_⟩
    rw [List.foldlM_cons, hstep]
    exact hrest

theorem fitnessOf_ok (hmass : input.mass ≠ 0) (throttles : List ℤ) :
    ∃ score, fitnessOf input g throttles = .ok score := by
  obtain ⟨⟨totalDistance, finalSpeed⟩, h⟩ := calculateTotalDistance_ok input.v0 input.friction hmass throttles
  rw [fitnessOf, fitness, h]
  exact ⟨_, rfl⟩

theorem fitnessScores_ok (hmass : input.mass ≠ 0) (population : List (List ℤ)) :
    ∃ fitnessScores, population.mapM (fitnessOf input g) = .ok fitnessScores := by
  induction population with
  | nil => exact ⟨[], rfl⟩
  | cons throttles population ih =>
    obtain ⟨score, hscore⟩ := fitnessOf_ok (g := g) hmass throttles
    obtain ⟨rest, hrest⟩ := ih
    exact ⟨score :: rest, traversal_ok_iff.2 (.cons hscore (traversal_ok_iff.1 hrest))⟩

/-! ## Selection -/

theorem sliceTo_sublist {α : Type} (xs : List α) (n : ℤ) : (sliceTo xs n).Sublist xs := by
  unfold sliceTo
  split_ifs
  · exact List.take_sublist _ _
  · exact List.take_sublist _ _

theorem mem_sliceTo {α : Type} {xs : List α} {n : ℤ} {a : α} (h : a ∈ sliceTo xs n) : a ∈ xs :=
  (sliceTo_sublist xs n).subset h

theorem length_sliceTo {α : Type} (xs : List α) {n : ℤ} (hn : 0 ≤ n) :
    ((sliceTo xs n).length : ℤ) = min n xs.length := by
  rw [sliceTo, if_pos hn, List.length_take]
  omega

theorem mem_selectBestParents {population : List (List ℤ)} {fitnesses : List FitnessScore} {numParents : ℤ}
    {parent : List ℤ} (h : parent ∈ selectBestParents population fitnesses numParents) : parent ∈ population := by
  obtain ⟨p, hp, rfl⟩ := List.mem_map.1 h
  exact (List.of_mem_zip ((List.mem_insertionSort _).1 (mem_sliceTo hp))).1

theorem length_selectBestParents {population : List (List ℤ)} {fitnesses : List FitnessScore} {numParents : ℤ}
    (hlen : fitnesses.length = population.length) (hn : 0 ≤ numParents) :
    ((selectBestParents population fitnesses numParents).length : ℤ) = min numParents population.length := by
  rw [selectBestParents, List.length_map, length_sliceTo _ hn, List.length_insertionSort, List.length_zip, hlen,
    Nat.min_self]

/-! ## The initial population, crossover and mutation -/

theorem generateInitialPopulation_returns (hg : g.Searchable) :
    Returns (generateInitialPopulation g.populationSize g.maxSequenceLength g.throttleRange) (ValidPopulation g) := by
  refine (Returns.mapM (Q := ValidSequence g) fun _ _ => ?_).mono fun population ⟨hlen, hvalid⟩ => ⟨?_, hvalid⟩
  · refine (randint_returns hg.maxSequenceLength).bind fun length ⟨hlow, hhigh⟩ => ?_
    refine (Returns.mapM fun _ _ => randint_returns hg.throttleRange).mono fun throttles ⟨hlen, hrange⟩ => ?_
    rw [List.length_range] at hlen
    exact ⟨by omega, by omega, hrange⟩
  · rw [List.length_range] at hlen
    have hsize := hg.populationSize
    omega

theorem crossover_returns (hg : g.Searchable) {parent1 parent2 : List ℤ} (h1 : ValidSequence g parent1)
    (h2 : ValidSequence g parent2) : Returns (crossover parent1 parent2 g.maxSequenceLength) (ValidSequence g) := by
  refine (randint_returns (by exact_mod_cast h1.nonempty)).bind fun crossoverPoint1 ⟨hlow, hhigh⟩ => ?_
  refine (randint_returns (by exact_mod_cast h2.nonempty)).bind fun crossoverPoint2 _ => Returns.pure ?_
  -- the first cut leaves at least one throttle of the first parent
  have hcut : 1 ≤ (parent1.take crossoverPoint1.toNat).length := by
    rw [List.length_take]
    omega
  have hinRange : ∀ throttle ∈ parent1.take crossoverPoint1.toNat ++ parent2.drop crossoverPoint2.toNat,
      g.throttleRange.1 ≤ throttle ∧ throttle ≤ g.throttleRange.2 := by
    intro throttle hthrottle
    rcases List.mem_append.1 hthrottle with h | h
    · exact h1.inRange throttle (List.mem_of_mem_take h)
    · exact h2.inRange throttle (List.mem_of_mem_drop h)
  have hmax := hg.maxSequenceLength
  split_ifs with hlong
  · have hlen := length_sliceTo (parent1.take crossoverPoint1.toNat ++ parent2.drop crossoverPoint2.toNat)
      (Int.le_trans Int.one_nonneg hmax)
    rw [min_eq_left hlong] at hlen
    exact ⟨by omega, by omega, fun throttle h => hinRange throttle (mem_sliceTo h)⟩
  · refine ⟨?_, by omega, hinRange⟩
    rw [List.length_append]
    omega

theorem mutateThrottle_returns (hg : g.Searchable) {throttle : ℤ}
    (h : g.throttleRange.1 ≤ throttle ∧ throttle ≤ g.throttleRange.2) :
    Returns (mutateThrottle g.throttleRange g.mutationRate throttle) fun mutated =>
      g.throttleRange.1 ≤ mutated ∧ mutated ≤ g.throttleRange.2 :=
  random_returns.bind fun _ _ => Returns.ite (fun _ => randint_returns hg.throttleRange) fun _ => Returns.pure h

/-- one of two or more throttles can be deleted -/
theorem ValidSequence.eraseIdx {throttles : List ℤ} (h : ValidSequence g throttles) (hlong : 1 < throttles.length)
    (i : ℕ) (hi : i < throttles.length) : ValidSequence g (throttles.eraseIdx i) := by
  have herased : (throttles.eraseIdx i).length = throttles.length - 1 := List.length_eraseIdx_of_lt hi
  have hshort := h.short
  exact ⟨by omega, by omega, fun throttle ht => h.inRange throttle (List.mem_of_mem_eraseIdx ht)⟩

theorem mutate_returns (hg : g.Searchable) {throttles : List ℤ} (h : ValidSequence g throttles) :
    Returns (mutate throttles g.throttleRange g.mutationRate) (ValidSequence g) := by
  have hturns := Returns.mapM fun throttle hthrottle => mutateThrottle_returns hg (h.inRange throttle hthrottle)
  refine hturns.bind fun mutated ⟨hlen, hrange⟩ => ?_
  have hvalid : ValidSequence g mutated := ⟨hlen ▸ h.nonempty, hlen ▸ h.short, hrange⟩
  refine random_returns.bind fun _ _ => Returns.ite (fun hdelete => ?_) fun _ => Returns.pure hvalid
  refine (randint_returns (by omega)).bind fun deletePos ⟨hlow, hhigh⟩ => Returns.pure ?_
  exact hvalid.eraseIdx hdelete.2 deletePos.toNat (by omega)

/-! ## One turn of the loop -/

theorem breedChild_returns (hg : g.Searchable) {allParents : List (List ℤ)} (htwo : 2 ≤ (allParents.length : ℤ))
    (hvalid : ∀ parent ∈ allParents, ValidSequence g parent) :
    Returns (breedChild allParents g.maxSequenceLength) (ValidSequence g) := by
  refine (randomSample_returns (by omega) htwo).bind fun parents ⟨hlen, hmem⟩ => ?_
  match parents, hlen, hmem with
  | [parent1, parent2], _, hmem =>
    exact crossover_returns hg (hvalid parent1 (hmem parent1 (by simp))) (hvalid parent2 (hmem parent2 (by simp)))

theorem breed_returns (hg : g.Searchable) {allParents : List (List ℤ)} (htwo : 2 ≤ (allParents.length : ℤ))
    (hvalid : ∀ parent ∈ allParents, ValidSequence g parent) (missing : ℕ) {nextGeneration : List (List ℤ)}
    (hnext : ∀ child ∈ nextGeneration, ValidSequence g child) :
    Returns (breed allParents g.maxSequenceLength missing nextGeneration) fun children =>
      children.length = nextGeneration.length + missing ∧ ∀ child ∈ children, ValidSequence g child := by
  induction missing generalizing nextGeneration with
  | zero => exact Returns.pure ⟨rfl, hnext⟩
  | succ missing ih =>
    refine (breedChild_returns hg htwo hvalid).bind fun child hchild => ?_
    have hnext' : ∀ c ∈ nextGeneration ++ [child], ValidSequence g c := by
      intro c hc
      rcases List.mem_append.1 hc with hc | hc
      · exact hnext c hc
      · exact List.mem_singleton.1 hc ▸ hchild
    refine (ih hnext').mono fun children ⟨hlen, hchildren⟩ => ⟨?_, hchildren⟩
    rw [hlen, List.length_append, List.length_singleton]
    omega

theorem liftExcept_returns {α : Type} {x : Except SearchError α} {a : α} (h : x = .ok a) :
    Returns (liftExcept x) fun b => a = b := by
  rw [h]
  exact Returns.pure rfl

theorem indexOf_returns {α : Type} [DecidableEq α] {xs : List α} {x : α} (h : x ∈ xs) :
    Returns (indexOf xs x) fun i => i < xs.length := by
  have hfound : xs.idxOf? x ≠ none := fun hnone => List.idxOf?_eq_none_iff.1 hnone h
  obtain ⟨i, hi⟩ := Option.ne_none_iff_exists'.1 hfound
  rw [indexOf, hi]
  obtain ⟨hlt, -⟩ := List.idxOf?_eq_some_iff.1 hi
  exact Returns.pure hlt

theorem itemAt_returns {α : Type} {xs : List α} {i : ℕ} (h : i < xs.length) :
    Returns (itemAt xs i) fun _ => True := by
  rw [itemAt, List.getElem?_eq_getElem h]
  exact Returns.pure trivial

theorem generation_returns (hmass : input.mass ≠ 0) (hg : g.Searchable) (hs : ValidPopulation g s.population) :
    Returns (generation input g s) fun s' => ValidPopulation g s'.population := by
  obtain ⟨fitnessScores, hscores⟩ := fitnessScores_ok (g := g) hmass s.population
  have hlen := (traversal_ok_iff.1 hscores).length_eq
  refine (liftExcept_returns hscores).bind fun _ h => ?_
  subst h
  refine (randomSample_returns hg.numWorstParents.1 (hs.size ▸ hg.numWorstParents.2)).bind
    fun worstParents ⟨hworst, hmem⟩ => ?_
  have htwo : 2 ≤ ((selectBestParents s.population fitnessScores g.numBestParents ++ worstParents).length : ℤ) := by
    have hbest := length_selectBestParents hlen.symm hg.numBestParents
    have htwo := hg.twoParents
    rw [List.length_append, Nat.cast_add, hbest, hworst, hs.size]
    exact htwo
  have hparents : ∀ parent ∈ selectBestParents s.population fitnessScores g.numBestParents ++ worstParents,
      ValidSequence g parent := by
    intro parent hparent
    rcases List.mem_append.1 hparent with h | h
    · exact hs.individuals parent (mem_selectBestParents h)
    · exact hs.individuals parent (hmem parent h)
  refine (breed_returns hg htwo hparents _ (by simp)).bind fun children ⟨hchildren, hvalid⟩ => ?_
  refine (Returns.mapM fun child hchild => mutate_returns hg (hvalid child hchild)).bind
    fun nextGeneration ⟨hnext, hnextValid⟩ => ?_
  have hpopulation : ValidPopulation g nextGeneration := by
    refine ⟨?_, hnextValid⟩
    have hsize := hg.populationSize
    rw [hnext, hchildren, List.length_nil]
    omega
  cases hbest : fitnessScores.argmin FitnessScore.score with
  | none =>
    have hempty := List.argmin_eq_none.1 hbest
    have hsize := hs.size
    have hpositive := hg.populationSize
    rw [hempty, List.length_nil] at hlen
    omega
  | some bestFitness =>
    refine (indexOf_returns (List.argmin_mem hbest)).bind fun i hi => ?_
    exact (itemAt_returns (hlen ▸ hi)).bind fun bestThrottleSequence _ => Returns.pure hpopulation

/-! ## What a turn leaves as the best -/

theorem fitnessScore_mem {population : List (List ℤ)} {fitnessScores : List FitnessScore}
    (hscores : population.mapM (fitnessOf input g) = .ok fitnessScores) {throttles : List ℤ}
    (h : throttles ∈ population) :
    ∃ score ∈ fitnessScores, fitnessOf input g throttles = .ok score := by
  have hall := traversal_ok_iff.1 hscores
  obtain ⟨⟨i, hi⟩, rfl⟩ := List.get_of_mem h
  exact ⟨_, List.get_mem fitnessScores ⟨i, hall.length_eq ▸ hi⟩, hall.get hi _⟩

/-- the result of a turn: the first individual whose fitness is the first of the smallest -/
def LeavesBest (input : ThrottleCalculationInput) (g : GeneticConfiguration) (s s' : SearchState) : Prop :=
  ∃ throttles best, s'.result = ⟨some throttles, some best⟩ ∧ BestOf input g s.population throttles best

theorem liftExcept_answers {α : Type} (x : Except SearchError α) : Answers (liftExcept x) fun a => x = .ok a := by
  cases x with
  | error e => exact Answers.throw e
  | ok a => exact Answers.pure rfl

theorem indexOf_answers {α : Type} [DecidableEq α] (xs : List α) (x : α) :
    Answers (indexOf xs x) fun i => xs[i]? = some x := by
  unfold indexOf
  split
  · exact Answers.throw _
  · next i hi =>
    obtain ⟨hlt, hx, -⟩ := List.idxOf?_eq_some_iff.1 hi
    exact Answers.pure (List.getElem?_eq_some_iff.2 ⟨hlt, hx⟩)

theorem itemAt_answers {α : Type} (xs : List α) (i : ℕ) : Answers (itemAt xs i) fun x => xs[i]? = some x := by
  unfold itemAt
  split
  · exact Answers.throw _
  · next x hx => exact Answers.pure hx

variable (input g) in
theorem generation_best (s : SearchState) : Answers (generation input g s) (LeavesBest input g s) := by
  refine (liftExcept_answers _).bind fun fitnessScores hscores => ?_
  refine (Answers.anything _).bind fun worstParents _ => ?_
  refine (Answers.anything _).bind fun children _ => ?_
  refine (Answers.anything _).bind fun nextGeneration _ => ?_
  have hall := traversal_ok_iff.1 hscores
  cases hbest : fitnessScores.argmin FitnessScore.score with
  | none => exact Answers.throw _
  | some bestFitness =>
    refine (indexOf_answers _ _).bind fun i hi => ?_
    refine (itemAt_answers _ _).bind fun throttles hthrottles => Answers.pure ?_
    obtain ⟨hlt, hbestAt⟩ := List.getElem?_eq_some_iff.1 hi
    obtain ⟨hlt', hthrottlesAt⟩ := List.getElem?_eq_some_iff.1 hthrottles
    refine ⟨throttles, bestFitness, rfl, hthrottlesAt ▸ List.getElem_mem hlt', ?_, ?_⟩
    · have hscored := hall.get hlt' hlt
      rw [← hthrottlesAt, ← hbestAt]
      exact hscored
    · intro other hother
      obtain ⟨otherScore, hmem, hscored⟩ := fitnessScore_mem hscores hother
      exact ⟨otherScore, hscored, List.le_of_mem_argmin hmem hbest⟩

/-! ## The loop and its states -/

section Loop

variable (startTime : ℚ)

variable (input g) in
theorem loopStates_cons (turns : ℕ) (s : SearchState) (world : World) :
    ∃ rest, loopStates input g startTime turns s world = s :: rest := by
  cases turns with
  | zero => exact ⟨[], rfl⟩
  | succ turns => exact ⟨_, rfl⟩

variable (g) in
theorem timedOut_returns : Returns (timedOut g startTime) fun _ => True :=
  monotonicNs_returns.bind fun _ _ => Returns.pure trivial

/-- how a turn that returns goes on -/
theorem loopStates_turn (turns : ℕ) {s s' : SearchState} {world world' : World}
    (h : (generation input g s).run world = .ok s' world') :
    ∃ stop world'', (timedOut g startTime).run world' = .ok stop world'' ∧
      loopStates input g startTime (turns + 1) s world =
        s :: (if stop then [s'] else loopStates input g startTime turns s' world'') ∧
      (searchLoop input g startTime (turns + 1) s).run world =
        (if stop then pure s'.result else searchLoop input g startTime turns s').run world'' := by
  obtain ⟨stop, world'', htime, -⟩ := timedOut_returns g startTime world'
  refine ⟨stop, world'', htime, ?_, ?_⟩
  · cases stop <;> simp [loopStates, h, htime]
  · rw [searchLoop, EStateM.run_bind, h]
    simp only [EStateM.run_bind, htime]

/-- what every turn leaves holds between each state and the next -/
theorem loopStates_chain {R : SearchState → SearchState → Prop} (hR : ∀ s, Answers (generation input g s) (R s))
    (turns : ℕ) (s : SearchState) (world : World) : (loopStates input g startTime turns s world).IsChain R := by
  induction turns generalizing s world with
  | zero => exact List.IsChain.singleton s
  | succ turns ih =>
    cases hrun : (generation input g s).run world with
    | error e world' =>
      rw [loopStates, hrun]
      exact List.IsChain.singleton s
    | ok s' world' =>
      obtain ⟨stop, world'', -, hstates, -⟩ := loopStates_turn startTime turns hrun
      have hnext := hR s world s' world' hrun
      rw [hstates]
      cases stop with
      | true => exact List.isChain_pair.2 hnext
      | false =>
        obtain ⟨rest, hrest⟩ := loopStates_cons input g startTime turns s' world''
        have hchain := ih s' world''
        rw [if_neg Bool.false_ne_true, hrest]
        rw [hrest] at hchain
        exact List.isChain_cons_cons.2 ⟨hnext, hchain⟩

variable {startTime} in
/-- the loop returns the result of its last state -/
theorem searchLoop_result {turns : ℕ} {s : SearchState} {world world' : World} {result : ThrottleSequenceGeneticResult}
    (h : (searchLoop input g startTime turns s).run world = .ok result world') :
    ∃ last, (loopStates input g startTime turns s world).getLast? = some last ∧ result = last.result := by
  induction turns generalizing s world with
  | zero =>
    cases h
    exact ⟨s, rfl, rfl⟩
  | succ turns ih =>
    cases hrun : (generation input g s).run world with
    | error e world₁ =>
      rw [searchLoop, EStateM.run_bind, hrun] at h
      cases h
    | ok s' world₁ =>
      obtain ⟨stop, world₂, -, hstates, hloop⟩ := loopStates_turn startTime turns hrun
      rw [hloop] at h
      rw [hstates]
      cases stop with
      | true =>
        cases h
        exact ⟨s', rfl, rfl⟩
      | false =>
        obtain ⟨last, hlast, hresult⟩ := ih h
        refine ⟨last, ?_, hresult⟩
        rw [if_neg Bool.false_ne_true, List.getLast?_cons, hlast]
        rfl

theorem exists_last_two {α : Type} {a b z : α} {l : List α} (h : (a :: b :: l).getLast? = some z) :
    ∃ before y, a :: b :: l = before ++ [y, z] := by
  induction l generalizing a b with
  | nil =>
    obtain rfl : b = z := Option.some.inj h
    exact ⟨[], a, rfl⟩
  | cons c l ih =>
    rw [List.getLast?_cons_cons] at h
    obtain ⟨before, y, hbefore⟩ := ih h
    exact ⟨a :: before, y, congrArg (a :: ·) hbefore⟩

variable {startTime} in
/-- a loop with a turn to go ends on a scored state and the state after it -/
theorem searchLoop_last {turns : ℕ} {s : SearchState} {world world' : World} {result : ThrottleSequenceGeneticResult}
    (h : (searchLoop input g startTime (turns + 1) s).run world = .ok result world') :
    ∃ before last after, loopStates input g startTime (turns + 1) s world = before ++ [last, after] ∧
      result = after.result := by
  obtain ⟨after, hlast, hresult⟩ := searchLoop_result h
  cases hrun : (generation input g s).run world with
  | error e world₁ =>
    rw [searchLoop, EStateM.run_bind, hrun] at h
    cases h
  | ok s' world₁ =>
    obtain ⟨stop, world₂, -, hstates, -⟩ := loopStates_turn startTime turns hrun
    obtain ⟨second, rest, hrest⟩ : ∃ second rest,
        (if stop then [s'] else loopStates input g startTime turns s' world₂) = second :: rest := by
      split_ifs
      · exact ⟨s', [], rfl⟩
      · exact ⟨s', loopStates_cons input g startTime turns s' world₂⟩
    rw [hrest] at hstates
    rw [hstates] at hlast ⊢
    obtain ⟨before, last, hsplit⟩ := exists_last_two hlast
    exact ⟨before, last, after, hsplit, hresult⟩

theorem loopStates_valid (hmass : input.mass ≠ 0) (hg : g.Searchable) (turns : ℕ) {s : SearchState} (world : World)
    (hs : ValidPopulation g s.population) :
    ∀ t ∈ loopStates input g startTime turns s world, ValidPopulation g t.population := by
  induction turns generalizing s world with
  | zero =>
    intro t ht
    exact List.mem_singleton.1 ht ▸ hs
  | succ turns ih =>
    obtain ⟨s', world', hrun, hs'⟩ := generation_returns hmass hg hs world
    obtain ⟨stop, world'', -, hstates, -⟩ := loopStates_turn startTime turns hrun
    intro t ht
    rw [hstates] at ht
    rcases List.mem_cons.1 ht with rfl | ht
    · exact hs
    · split_ifs at ht
      · exact List.mem_singleton.1 ht ▸ hs'
      · exact ih world'' hs' t ht

theorem searchLoop_returns (hmass : input.mass ≠ 0) (hg : g.Searchable) (turns : ℕ) {s : SearchState}
    (hs : ValidPopulation g s.population) : Returns (searchLoop input g startTime turns s) fun _ => True := by
  induction turns generalizing s with
  | zero => exact Returns.pure trivial
  | succ turns ih =>
    refine (generation_returns hmass hg hs).bind fun s' hs' => ?_
    exact (timedOut_returns g startTime).bind fun stop _ => Returns.ite (fun _ => Returns.pure trivial) fun _ => ih hs'

end Loop

/-! ## The search -/

theorem startSearch_returns (hg : g.Searchable) :
    Returns (startSearch g) fun start => ValidPopulation g start.1.population :=
  (generateInitialPopulation_returns hg).bind fun _ hpopulation =>
    monotonicNs_returns.bind fun _ _ => Returns.pure hpopulation

/-- **The search returns an individual of its last generation, correctly scored and least there.** -/
theorem search_valid (input : ThrottleCalculationInput) (g : GeneticConfiguration) (hmass : input.mass ≠ 0)
    (hg : g.Searchable) (world : World) :
    ∃ result world', (findOptimalThrottleSequence input g).run world = .ok result world' ∧
      (∀ s ∈ searchStates input g world, ValidPopulation g s.population) ∧
      ∃ before last after throttles best, searchStates input g world = before ++ [last, after] ∧
        result = ⟨some throttles, some best⟩ ∧ ValidSequence g throttles ∧
        BestOf input g last.population throttles best := by
  obtain ⟨⟨s, startTime⟩, world₁, hstart, hs⟩ := startSearch_returns hg world
  obtain ⟨turns, hturns⟩ : ∃ turns, g.numGenerations.toNat = turns + 1 :=
    ⟨g.numGenerations.toNat - 1, by have := hg.numGenerations; omega⟩
  obtain ⟨result, world₂, hrun, -⟩ := searchLoop_returns startTime hmass hg (turns + 1) hs world₁
  have hstates : searchStates input g world = loopStates input g startTime (turns + 1) s world₁ := by
    rw [searchStates, hstart, hturns]
  have hvalid := loopStates_valid startTime hmass hg (turns + 1) world₁ hs
  obtain ⟨before, last, after, hsplit, hresult⟩ := searchLoop_last hrun
  have hbest : LeavesBest input g last after := by
    have hchain := loopStates_chain startTime (generation_best input g) (turns + 1) s world₁
    exact List.isChain_iff_forall_rel_of_append_cons_cons.1 hchain hsplit
  obtain ⟨throttles, best, hafter, hbestOf⟩ := hbest
  refine ⟨result, world₂, ?_, hstates ▸ hvalid, before, last, after, throttles, best, hstates.trans hsplit,
    hresult.trans hafter, ?_, hbestOf⟩
  · rw [findOptimalThrottleSequence, EStateM.run_bind, hstart, hturns]
    exact hrun
  · have hlast := hvalid last (by rw [hsplit]; simp)
    exact hlast.individuals throttles hbestOf.mem

/-- every default passes -/
theorem GeneticConfiguration.default_searchable : GeneticConfiguration.Searchable {} where
  maxSequenceLength := by decide
  populationSize := by decide
  numGenerations := by decide
  throttleRange := by decide
  numWorstParents := by decide
  numBestParents := by decide
  twoParents := by decide

theorem search_valid_default :
    ∃ result world', (findOptimalThrottleSequence ⟨0, 1, 0, 100⟩ {}).run ⟨Stream'.const 0, Stream'.const 0⟩ =
      .ok result world' ∧ ∃ throttles best, result = ⟨some throttles, some best⟩ ∧ ValidSequence {} throttles := by
  obtain ⟨result, world', hrun, -, -, -, -, throttles, best, -, hresult, hvalid, -⟩ :=
    search_valid ⟨0, 1, 0, 100⟩ {} one_ne_zero GeneticConfiguration.default_searchable
      ⟨Stream'.const 0, Stream'.const 0⟩
  exact ⟨result, world', hrun, throttles, best, hresult, hvalid⟩

end LlmAgent
