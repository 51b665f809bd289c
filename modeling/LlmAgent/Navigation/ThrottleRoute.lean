/-
The throttle route (`api/http/v1/routes/throttle_steps_calculator.py`) with its mappers, the service
(`services/throttle_steps_service.py`) and `find_path` of the genetic strategy, over exact arithmetic.

A root is rational only now and then, so `** 0.5` is a parameter; nothing is asked of it. FastAPI has parsed the body.
Of an exception the class is kept; the route puts its text into the answer.

- `throttleSteps`: the route, for the draws and the clock of a world;
- `search_raises`: with a mass of zero no search returns;
- `throttle_route`: what a request is answered, whatever the draws and the clock.
-/
import LlmAgent.Navigation.Reach

namespace LlmAgent

open Core

/-! ## DTOs and domain -/

structure Coordinate where
  x : ℚ
  y : ℚ
deriving DecidableEq, Repr

structure CoordinateDto where
  x : ℚ
  y : ℚ
deriving DecidableEq, Repr

structure UnitDto where
  coordinate : CoordinateDto
  speed : ℚ
  mass : ℚ
  friction : ℚ
deriving DecidableEq, Repr

structure GameStateDto where
  playerUnits : List UnitDto
  enemyUnits : List UnitDto
deriving DecidableEq, Repr

/-- `Unit` of `domain/game/unit.py` -/
structure GameUnit where
  coordinate : Coordinate
  speed : ℚ
  mass : ℚ
  friction : ℚ
deriving DecidableEq, Repr

structure GameState where
  playerUnits : List GameUnit
  enemyUnits : List GameUnit
deriving DecidableEq, Repr

structure UnitGoal where
  coordinate : Coordinate
  throttle : ℚ
deriving DecidableEq, Repr

structure UnitGoalDto where
  coordinate : Coordinate
  throttle : ℚ
deriving DecidableEq, Repr

def UnitDto.toUnit (unit : UnitDto) : GameUnit where
  coordinate := ⟨unit.coordinate.x, unit.coordinate.y⟩
  speed := unit.speed
  mass := unit.mass
  friction := unit.friction

def GameStateV1Mapper.fromDto (gameStateDto : GameStateDto) : GameState where
  playerUnits := gameStateDto.playerUnits.map UnitDto.toUnit
  enemyUnits := gameStateDto.enemyUnits.map UnitDto.toUnit

def UnitGoalMapperV1.toDto (unitGoal : UnitGoal) : UnitGoalDto := ⟨unitGoal.coordinate, unitGoal.throttle⟩

/-! ## The route -/

/-- the exceptions of the route -/
inductive PathError where
  | search (e : SearchError)
  /-- no generation was run, and `None` is not iterable -/
  | typeError
deriving DecidableEq, Repr

abbrev PathM := EStateM PathError World

section Route

-- `root` is `** 0.5`
variable (root : ℚ → ℚ) (geneticConfigration : GeneticConfiguration)

def Coordinate.calcEuclideanDistance (c other : Coordinate) : ℚ := root ((c.x - other.x) ^ 2 + (c.y - other.y) ^ 2)

/-- what the search is asked -/
def throttleInput (mainUnit targetUnit : GameUnit) : ThrottleCalculationInput where
  v0 := mainUnit.speed
  mass := mainUnit.mass
  friction := mainUnit.friction
  dTarget := mainUnit.coordinate.calcEuclideanDistance root targetUnit.coordinate

def findPath (mainUnit targetUnit : GameUnit) : PathM (List UnitGoal) := do
  let result ← EStateM.adaptExcept PathError.search
    (findOptimalThrottleSequence (throttleInput root mainUnit targetUnit) geneticConfigration)
  match result.sequence with
  | none => throw .typeError
  | some sequence => pure (sequence.map fun throttle => ⟨targetUnit.coordinate, throttle⟩)

/-- `player_units[0]` before `enemy_units[0]` -/
def calculateThrottleSteps (gameState : GameState) : PathM (List UnitGoal) :=
  match gameState.playerUnits with
  | [] => throw (.search .indexError)
  | mainUnit :: _ =>
    match gameState.enemyUnits with
    | [] => throw (.search .indexError)
    | targetUnit :: _ => findPath root geneticConfigration mainUnit targetUnit

inductive ThrottleAnswer where
  /-- 200 -/
  | goals (dtos : List UnitGoalDto)
  /-- 400, with `str(exc)` as its detail -/
  | badRequest (exc : PathError)
deriving DecidableEq, Repr

def throttleSteps (state : GameStateDto) (world : World) : ThrottleAnswer :=
  match (calculateThrottleSteps root geneticConfigration (GameStateV1Mapper.fromDto state)).run world with
  | .ok goals _ => .goals (goals.map UnitGoalMapperV1.toDto)
  | .error exc _ => .badRequest exc

end Route

/-! ## A mass of zero -/

section Raises

variable {input : ThrottleCalculationInput} {g : GeneticConfiguration} {s : SearchState}

theorem fitnessOf_zero (hmass : input.mass = 0) {throttles : List ℤ} (h : 1 ≤ throttles.length) :
    fitnessOf input g throttles = .error .zeroDivisionError := by
  cases throttles with
  | nil => exact absurd h (by decide)
  | cons throttle throttles =>
    have hfirst : advanceVelocity input.mass input.friction (0, input.v0) throttle = .error .zeroDivisionError := by
      unfold advanceVelocity calculateVelocity
      rw [if_pos hmass]
      rfl
    unfold fitnessOf fitness calculateTotalDistance
    rw [List.foldlM_cons, hfirst]
    rfl

/-- the first individual is scored first -/
theorem generation_raises (hmass : input.mass = 0) (hg : g.Searchable) (hs : ValidPopulation g s.population)
    (world : World) : (generation input g s).run world = .error .zeroDivisionError world := by
  have hscores : s.population.mapM (fitnessOf input g) = .error .zeroDivisionError := by
    cases hpopulation : s.population with
    | nil =>
      have hsize := hs.size
      have hpositive := hg.populationSize
      rw [hpopulation, List.length_nil] at hsize
      omega
    | cons throttles population =>
      have hvalid := hs.individuals throttles (by rw [hpopulation]; exact List.mem_cons_self)
      rw [List.mapM_cons, fitnessOf_zero hmass hvalid.nonempty]
      rfl
  unfold generation
  rw [hscores]
  rfl

/-- **With a mass of zero no search returns.** -/
theorem search_raises (hmass : input.mass = 0) (hg : g.Searchable) (world : World) :
    ∃ world', (findOptimalThrottleSequence input g).run world = .error .zeroDivisionError world' := by
  obtain ⟨⟨s, startTime⟩, world', hstart, hs⟩ := startSearch_returns hg world
  obtain ⟨turns, hturns⟩ : ∃ turns, g.numGenerations.toNat = turns + 1 :=
    ⟨g.numGenerations.toNat - 1, by have := hg.numGenerations; omega⟩
  refine ⟨world', ?_⟩
  unfold findOptimalThrottleSequence
  rw [EStateM.run_bind, hstart, hturns]
  change (searchLoop input g startTime (turns + 1) s).run world' = _
  unfold searchLoop
  rw [EStateM.run_bind, generation_raises hmass hg hs]

end Raises

/-! ## What a request is answered -/

section Answers

variable {root : ℚ → ℚ} {g : GeneticConfiguration} {world world' : World}

theorem findPath_ok {mainUnit targetUnit : GameUnit} {throttles : List ℤ} {best : Option FitnessScore}
    (h : (findOptimalThrottleSequence (throttleInput root mainUnit targetUnit) g).run world =
      .ok ⟨some throttles, best⟩ world') : (findPath root g mainUnit targetUnit).run world =
        .ok (throttles.map fun throttle => ⟨targetUnit.coordinate, throttle⟩) world' := by
  unfold findPath
  rw [EStateM.run_bind, run_adaptExcept, h]
  rfl

theorem findPath_error {mainUnit targetUnit : GameUnit} {e : SearchError}
    (h : (findOptimalThrottleSequence (throttleInput root mainUnit targetUnit) g).run world = .error e world') :
    (findPath root g mainUnit targetUnit).run world = .error (.search e) world' := by
  unfold findPath
  rw [EStateM.run_bind, run_adaptExcept, h]

/-- the answer, once `find_path` is asked -/
theorem throttleSteps_cons {state : GameStateDto} {player enemy : UnitDto} {players enemies : List UnitDto}
    (hplayers : state.playerUnits = player :: players) (henemies : state.enemyUnits = enemy :: enemies) :
    throttleSteps root g state world = match (findPath root g player.toUnit enemy.toUnit).run world with
      | .ok goals _ => .goals (goals.map UnitGoalMapperV1.toDto)
      | .error exc _ => .badRequest exc := by
  unfold throttleSteps calculateThrottleSteps GameStateV1Mapper.fromDto
  rw [hplayers, henemies]
  rfl

/-- **What a request is answered**, whatever the draws and the clock: 400 if a side has no unit or the first player unit
has no mass, and otherwise 200 with the sequence the search found for the first unit of each side, each throttle for the
place of the enemy. -/
theorem throttle_route (root : ℚ → ℚ) (hg : g.Searchable) (state : GameStateDto) (world : World) :
    match state.playerUnits, state.enemyUnits with
    | player :: _, enemy :: _ =>
      if player.mass = 0 then throttleSteps root g state world = .badRequest (.search .zeroDivisionError)
      else ∃ throttles best world',
        (findOptimalThrottleSequence (throttleInput root player.toUnit enemy.toUnit) g).run world =
          .ok ⟨some throttles, some best⟩ world' ∧
        ValidSequence g throttles ∧
        fitnessOf (throttleInput root player.toUnit enemy.toUnit) g throttles = .ok best ∧
        throttleSteps root g state world =
          .goals (throttles.map fun throttle => ⟨⟨enemy.coordinate.x, enemy.coordinate.y⟩, throttle⟩)
    | _, _ => throttleSteps root g state world = .badRequest (.search .indexError) := by
  cases hplayers : state.playerUnits with
  | nil =>
    unfold throttleSteps calculateThrottleSteps GameStateV1Mapper.fromDto
    rw [hplayers]
    rfl
  | cons player players =>
    cases henemies : state.enemyUnits with
    | nil =>
      unfold throttleSteps calculateThrottleSteps GameStateV1Mapper.fromDto
      rw [hplayers, henemies]
      rfl
    | cons enemy enemies =>
      rw [throttleSteps_cons hplayers henemies]
      by_cases hmass : player.mass = 0
      · obtain ⟨world', hrun⟩ := @search_raises (throttleInput root player.toUnit enemy.toUnit) g hmass hg world
        simp only [if_pos hmass, findPath_error hrun]
      · obtain ⟨result, world', hrun, throttles, best, rfl, hvalid, hscored⟩ :=
          @search_scored (throttleInput root player.toUnit enemy.toUnit) g hmass hg world
        simp only [if_neg hmass, findPath_ok hrun]
        refine ⟨throttles, best, world', hrun, hvalid, hscored, ?_⟩
        rw [List.map_map]
        rfl

/-- an enemy at distance 5, with the default configuration -/
theorem throttle_route_default : ∃ throttles, ValidSequence {} throttles ∧
    throttleSteps (fun _ => 5) {} ⟨[⟨⟨0, 0⟩, 0, 1, 0⟩], [⟨⟨3, 4⟩, 0, 1, 0⟩]⟩ ⟨Stream'.const 0, Stream'.const 0⟩ =
      .goals (throttles.map fun throttle => ⟨⟨3, 4⟩, throttle⟩) := by
  have hroute := throttle_route (fun _ => 5) GeneticConfiguration.default_searchable
    ⟨[⟨⟨0, 0⟩, 0, 1, 0⟩], [⟨⟨3, 4⟩, 0, 1, 0⟩]⟩ ⟨Stream'.const 0, Stream'.const 0⟩
  simp only [if_neg (one_ne_zero : (1 : ℚ) ≠ 0)] at hroute
  obtain ⟨throttles, best, world', -, hvalid, -, hanswer⟩ := hroute
  exact ⟨throttles, hvalid, hanswer⟩

end Answers

end LlmAgent
