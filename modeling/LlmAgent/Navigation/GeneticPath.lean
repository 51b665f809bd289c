/-
The genetic search for a throttle sequence (`infrastructure/navigation/path_finders/genetic.py`), over exact arithmetic.

Floats are rationals; the random draws and the clock come from a `World`. A child is a fresh list, so the mutation in
place of `mutate` reaches no individual but the child, and functions on lists model it. The log line at a timeout is
left out.
-/
import Mathlib.Algebra.Order.Field.Rat
import Mathlib.Data.List.MinMax
import Mathlib.Data.List.Sort
import LlmAgent.Navigation.Random

namespace LlmAgent

/-! ## Domain -/

/-- `domain/genetic_path/configuration.py` -/
structure GeneticConfiguration where
  maxSequenceLength : ℤ := 100
  populationSize : ℤ := 600
  numGenerations : ℤ := 300
  mutationRate : ℚ := 1 / 10
  numBestParents : ℤ := 20
  numWorstParents : ℤ := 10
  speedThreshold : ℤ := 5
  throttleRange : ℤ × ℤ := (0, 300)
  distanceWeight : ℚ := 1
  speedWeight : ℚ := 1 / 2
  lengthWeight : ℚ := 1 / 100
  nonzeroWeight : ℚ := 1 / 100
  timeoutMs : ℤ := 1000
deriving DecidableEq, Repr

/-- `domain/genetic_path/fitness_score.py`; the dataclass compares by value -/
structure FitnessScore where
  score : ℚ
  distanceDiff : ℚ
  speedPenalty : ℚ
  lengthPenalty : ℕ
deriving DecidableEq, Repr

/-- `domain/genetic_path/input.py` -/
structure ThrottleCalculationInput where
  v0 : ℚ
  mass : ℚ
  friction : ℚ
  dTarget : ℚ
deriving DecidableEq, Repr

/-- `domain/genetic_path/result.py`; both are `None` when no generation was run -/
structure ThrottleSequenceGeneticResult where
  sequence : Option (List ℤ)
  fitnessScore : Option FitnessScore
deriving DecidableEq, Repr

/-! ## Statements of Python -/

/-- `xs[:n]`; a negative `n` counts from the end -/
def sliceTo {α : Type} (xs : List α) (n : ℤ) : List α :=
  if 0 ≤ n then xs.take n.toNat else xs.take (xs.length - (-n).toNat)

/-- `xs[i]` for a natural `i` -/
def itemAt {α : Type} (xs : List α) (i : ℕ) : SearchM α :=
  match xs[i]? with
  | none => throw .indexError
  | some a => pure a

/-- `xs.index(x)` -/
def indexOf {α : Type} [DecidableEq α] (xs : List α) (x : α) : SearchM ℕ :=
  match xs.idxOf? x with
  | none => throw .valueError
  | some i => pure i

/-- a computation that neither draws nor reads the clock -/
def liftExcept {α : Type} : Except SearchError α → SearchM α
  | .error e => throw e
  | .ok a => pure a

/-! ## Physics and fitness -/

def calculateVelocity (v0 : ℚ) (throttle : ℤ) (m f : ℚ) : Except SearchError ℚ :=
  if m = 0 then throw .zeroDivisionError else pure ((v0 + throttle / m) * (1 - f))

/-- the loop's body: `velocity = calculate_velocity(...)`, `total_distance += velocity` -/
def advanceVelocity (m f : ℚ) (totalDistanceVelocity : ℚ × ℚ) (throttle : ℤ) : Except SearchError (ℚ × ℚ) := do
  let velocity ← calculateVelocity totalDistanceVelocity.2 throttle m f
  pure (totalDistanceVelocity.1 + velocity, velocity)

def calculateTotalDistance (v0 : ℚ) (throttles : List ℤ) (m f : ℚ) : Except SearchError (ℚ × ℚ) :=
  throttles.foldlM (advanceVelocity m f) (0, v0)

def fitness (v0 : ℚ) (throttles : List ℤ) (m f dTarget vThreshold : ℚ) (distanceWeight : ℚ := 1)
    (speedWeight : ℚ := 5 / 2) (lengthWeight : ℚ := 1 / 10) (nonzeroWeight : ℚ := 1 / 10) :
    Except SearchError FitnessScore := do
  let (totalDistance, finalSpeed) ← calculateTotalDistance v0 throttles m f
  let distanceDiff := |dTarget - totalDistance|
  let speedPenalty := if 0 ≤ finalSpeed ∧ finalSpeed ≤ vThreshold then 0 else |finalSpeed - vThreshold|
  let lengthPenalty := throttles.length
  let nonzeroCount := throttles.length - throttles.count 0
  let score := distanceWeight * distanceDiff + speedWeight * speedPenalty + lengthWeight * lengthPenalty +
    nonzeroCount * nonzeroWeight
  pure ⟨score, distanceDiff, speedPenalty, lengthPenalty⟩

/-- the call of `fitness` in the search, with every weight taken from the configuration -/
def fitnessOf (throttleCalculationInput : ThrottleCalculationInput) (geneticConfigration : GeneticConfiguration)
    (throttles : List ℤ) : Except SearchError FitnessScore :=
  fitness throttleCalculationInput.v0 throttles throttleCalculationInput.mass throttleCalculationInput.friction
    throttleCalculationInput.dTarget geneticConfigration.speedThreshold geneticConfigration.distanceWeight
    geneticConfigration.speedWeight geneticConfigration.lengthWeight geneticConfigration.nonzeroWeight

/-! ## Selection, crossover, mutation -/

def generateInitialPopulation (popSize maxT : ℤ) (throttleRange : ℤ × ℤ) : SearchM (List (List ℤ)) :=
  (List.range popSize.toNat).mapM fun _ => do
    let length ← randint 1 maxT
    (List.range length.toNat).mapM fun _ => randint throttleRange.1 throttleRange.2

/-- Python's `sorted` is stable, and so is the insertion sort -/
def selectBestParents (population : List (List ℤ)) (fitnesses : List FitnessScore) (numParents : ℤ) : List (List ℤ) :=
  let parents := sliceTo ((population.zip fitnesses).insertionSort fun p q => p.2.score ≤ q.2.score) numParents
  parents.map Prod.fst

/-- the fitnesses are not looked at -/
def selectRandomParents (population : List (List ℤ)) (_fitnesses : List FitnessScore) (numParents : ℤ) :
    SearchM (List (List ℤ)) :=
  randomSample population numParents

def crossover (parent1 parent2 : List ℤ) (maxAllowedLength : ℤ) : SearchM (List ℤ) := do
  let crossoverPoint1 ← randint 1 parent1.length
  let crossoverPoint2 ← randint 1 parent2.length
  let child := parent1.take crossoverPoint1.toNat ++ parent2.drop crossoverPoint2.toNat
  pure (if maxAllowedLength ≤ child.length then sliceTo child maxAllowedLength else child)

/-- one turn of the loop over the positions of the sequence -/
def mutateThrottle (throttleRange : ℤ × ℤ) (mutationRate : ℚ) (throttle : ℤ) : SearchM ℤ := do
  if (← random) < mutationRate then
    randint throttleRange.1 throttleRange.2
  else
    pure throttle

def mutate (throttleSequence : List ℤ) (throttleRange : ℤ × ℤ) (mutationRate : ℚ := 1 / 10) : SearchM (List ℤ) := do
  let throttleSequence ← throttleSequence.mapM (mutateThrottle throttleRange mutationRate)
  if (← random) < mutationRate ∧ 1 < throttleSequence.length then
    let deletePos ← randint 0 (throttleSequence.length - 1)
    pure (throttleSequence.eraseIdx deletePos.toNat)
  else
    pure throttleSequence

/-! ## The search -/

/-- `parent1, parent2 = random.sample(all_parents, 2)` and `crossover` -/
def breedChild (allParents : List (List ℤ)) (maxAllowedLength : ℤ) : SearchM (List ℤ) := do
  match ← randomSample allParents 2 with
  | [parent1, parent2] => crossover parent1 parent2 maxAllowedLength
  | _ => throw .valueError

/-- the loop `while len(next_generation) < population_size`, with `missing` children to go: each turn appends one -/
def breed (allParents : List (List ℤ)) (maxAllowedLength : ℤ) : ℕ → List (List ℤ) → SearchM (List (List ℤ))
  | 0, nextGeneration => pure nextGeneration
  | missing + 1, nextGeneration => do
    let child ← breedChild allParents maxAllowedLength
    breed allParents maxAllowedLength missing (nextGeneration ++ [child])

/-- the variables of the search's loop -/
structure SearchState where
  population : List (List ℤ)
  bestThrottleSequence : Option (List ℤ) := none
  bestFitness : Option FitnessScore := none
deriving DecidableEq, Repr

/-- `ThrottleSequenceGeneticResult(best_throttle_sequence, best_fitness)` -/
def SearchState.result (s : SearchState) : ThrottleSequenceGeneticResult := ⟨s.bestThrottleSequence, s.bestFitness⟩

section Search

variable (throttleCalculationInput : ThrottleCalculationInput) (geneticConfigration : GeneticConfiguration)

/-- the loop's body up to `population = next_generation` -/
def generation (s : SearchState) : SearchM SearchState := do
  let fitnessScores ← liftExcept (s.population.mapM (fitnessOf throttleCalculationInput geneticConfigration))
  let bestParents := selectBestParents s.population fitnessScores geneticConfigration.numBestParents
  let worstParents ← selectRandomParents s.population fitnessScores geneticConfigration.numWorstParents
  let allParents := bestParents ++ worstParents
  let nextGeneration ← breed allParents geneticConfigration.maxSequenceLength
    geneticConfigration.populationSize.toNat []
  let nextGeneration ← nextGeneration.mapM fun child =>
    mutate child geneticConfigration.throttleRange geneticConfigration.mutationRate
  -- `min(fitness_scores, key=...)` answers the first of the smallest
  match fitnessScores.argmin FitnessScore.score with
  | none => throw .valueError
  | some bestFitness =>
    let bestThrottleSequence ← itemAt s.population (← indexOf fitnessScores bestFitness)
    pure { population := nextGeneration, bestThrottleSequence := bestThrottleSequence, bestFitness := bestFitness }

/-- `actual_time - start_time >= timeout_ms`, with the clock read now -/
def timedOut (startTime : ℚ) : SearchM Bool := do
  let actualTime : ℚ := (← monotonicNs) / 10 ^ 6
  pure (decide (actualTime - startTime ≥ geneticConfigration.timeoutMs))

/-- the loop, with this many turns to go -/
def searchLoop (startTime : ℚ) : ℕ → SearchState → SearchM ThrottleSequenceGeneticResult
  | 0, s => pure s.result
  | turns + 1, s => do
    let s' ← generation throttleCalculationInput geneticConfigration s
    if ← timedOut geneticConfigration startTime then
      pure s'.result
    else
      searchLoop startTime turns s'

/-- step 1 and the start of the clock -/
def startSearch : SearchM (SearchState × ℚ) := do
  let population ← generateInitialPopulation geneticConfigration.populationSize geneticConfigration.maxSequenceLength
    geneticConfigration.throttleRange
  let startTime : ℚ := (← monotonicNs) / 10 ^ 6
  pure ({ population := population }, startTime)

def findOptimalThrottleSequence : SearchM ThrottleSequenceGeneticResult := do
  let (s, startTime) ← startSearch geneticConfigration
  searchLoop throttleCalculationInput geneticConfigration startTime geneticConfigration.numGenerations.toNat s

/-! ## The states a search goes through -/

/-- the loop's variables at the head of each generation of a run, and after the last one -/
def loopStates (startTime : ℚ) : ℕ → SearchState → World → List SearchState
  | 0, s, _ => [s]
  | turns + 1, s, world =>
    s :: match (generation throttleCalculationInput geneticConfigration s).run world with
      | .error _ _ => []
      | .ok s' world' =>
        match (timedOut geneticConfigration startTime).run world' with
        | .ok false world'' => loopStates startTime turns s' world''
        | _ => [s']

/-- the same for a whole search; every one but the last is scored -/
def searchStates (world : World) : List SearchState :=
  match (startSearch geneticConfigration).run world with
  | .error _ _ => []
  | .ok (s, startTime) world' =>
    loopStates throttleCalculationInput geneticConfigration startTime geneticConfigration.numGenerations.toNat s world'

end Search

end LlmAgent
