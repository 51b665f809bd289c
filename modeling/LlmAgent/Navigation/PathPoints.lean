/-
The path a throttle sequence takes (`get_distance_for_throttles_velocities` in
`infrastructure/navigation/path_finders/genetic.py`) and its agreement with `calculate_total_distance`.

The two loops were written apart: one starts at a position and records a point at each throttle, the other starts at
zero and keeps only the sum. `OnPath throttles s` says what the variables of the first loop are after
`throttles`, in terms of the second loop alone; a turn keeps it (`OnPath.advance`), so it holds after every sequence.

- `points_agree`: point `i` of the path is the total distance and the final speed of the first `i` throttles, moved to
  the start position; the last point is what `fitness` scores.
-/
import LlmAgent.Navigation.ValidSearch

namespace LlmAgent

/-! ## The loop -/

/-- the variables of the loop -/
structure PathState where
  actualVelocity : ℚ
  distance : ℚ
  distanceVelocities : List (ℚ × ℚ)
deriving DecidableEq, Repr

/-- the variables before the loop; the start is the first point -/
def startPath (v0 startPosition : ℚ) : PathState := ⟨v0, startPosition, [(startPosition, v0)]⟩

/-- the loop's body -/
def advancePath (m f : ℚ) (s : PathState) (throttle : ℤ) : Except SearchError PathState := do
  let actualVelocity ← calculateVelocity s.actualVelocity throttle m f
  let distance := s.distance + actualVelocity
  pure ⟨actualVelocity, distance, s.distanceVelocities ++ [(distance, actualVelocity)]⟩

def getDistanceForThrottlesVelocities (v0 m f : ℚ) (throttles : List ℤ) (startPosition : ℚ) :
    Except SearchError (List (ℚ × ℚ)) := do
  let s ← throttles.foldlM (advancePath m f) (startPath v0 startPosition)
  pure s.distanceVelocities

/-! ## Agreement -/

section Agreement

variable (v0 m f startPosition : ℚ)

/-- `point` is where `calculate_total_distance` ends after `throttles`, counted from the start position -/
def EndsAt (throttles : List ℤ) (point : ℚ × ℚ) : Prop :=
  ∃ totalDistance finalSpeed, calculateTotalDistance v0 throttles m f = .ok (totalDistance, finalSpeed) ∧
    point = (startPosition + totalDistance, finalSpeed)

/-- what the variables of the loop are once `throttles` are done -/
structure OnPath (throttles : List ℤ) (s : PathState) : Prop where
  here : EndsAt v0 m f startPosition throttles (s.distance, s.actualVelocity)
  length : s.distanceVelocities.length = throttles.length + 1
  point : ∀ i ≤ throttles.length, ∃ point, s.distanceVelocities[i]? = some point ∧
    EndsAt v0 m f startPosition (throttles.take i) point

variable {v0 m f startPosition}

theorem onPath_start : OnPath v0 m f startPosition [] (startPath v0 startPosition) := by
  have hstart : EndsAt v0 m f startPosition [] (startPosition, v0) := ⟨0, v0, rfl, by rw [add_zero]⟩
  refine ⟨hstart, rfl, ?_⟩
  intro i hi
  obtain rfl : i = 0 := Nat.le_zero.1 hi
  exact ⟨(startPosition, v0), rfl, hstart⟩

/-- the sum starts at zero, so a throttle moves both loops by the same velocity -/
theorem EndsAt.advance {throttles : List ℤ} {distance velocity : ℚ}
    (h : EndsAt v0 m f startPosition throttles (distance, velocity)) {throttle : ℤ} {velocity' : ℚ}
    (hvelocity : calculateVelocity velocity throttle m f = .ok velocity') :
    EndsAt v0 m f startPosition (throttles ++ [throttle]) (distance + velocity', velocity') := by
  obtain ⟨totalDistance, finalSpeed, htotal, hpoint⟩ := h
  obtain ⟨rfl, rfl⟩ := Prod.mk.inj hpoint
  refine ⟨totalDistance + velocity', velocity', ?_, by rw [add_assoc]⟩
  rw [calculateTotalDistance] at htotal ⊢
  rw [List.foldlM_append, htotal]
  change (advanceVelocity m f (totalDistance, velocity) throttle >>= pure) = _
  rw [bind_pure, advanceVelocity, hvelocity]
  rfl

/-- one turn of the loop -/
theorem OnPath.advance {throttles : List ℤ} {s s' : PathState} (h : OnPath v0 m f startPosition throttles s)
    {throttle : ℤ} (hs' : advancePath m f s throttle = .ok s') :
    OnPath v0 m f startPosition (throttles ++ [throttle]) s' := by
  cases hvelocity : calculateVelocity s.actualVelocity throttle m f with
  | error e =>
    rw [advancePath, hvelocity] at hs'
    cases hs'
  | ok velocity' =>
    rw [advancePath, hvelocity] at hs'
    obtain rfl := Except.ok.inj hs'
    have hhere := h.here.advance hvelocity
    refine ⟨hhere, by simp [h.length], ?_⟩
    intro i hi
    rw [List.length_append, List.length_singleton] at hi
    rcases Nat.lt_or_ge throttles.length i with hlast | hprefix
    · -- the point this turn appends
      obtain rfl : i = throttles.length + 1 := by omega
      refine ⟨(s.distance + velocity', velocity'), ?_, ?_⟩
      · rw [← h.length, List.getElem?_concat_length]
      · rw [List.take_of_length_le (by simp)]
        exact hhere
    · -- a point of an earlier turn
      obtain ⟨point, hpoint, hends⟩ := h.point i hprefix
      refine ⟨point, ?_, ?_⟩
      · rw [List.getElem?_append_left (by rw [h.length]; omega)]
        exact hpoint
      · rw [List.take_append_of_le_length hprefix]
        exact hends

theorem advancePath_ok (hm : m ≠ 0) (s : PathState) (throttle : ℤ) : ∃ s', advancePath m f s throttle = .ok s' := by
  rw [advancePath, calculateVelocity, if_neg hm]
  exact ⟨_, rfl⟩

variable (v0 f startPosition) in
/-- the whole loop, by the last throttle -/
theorem onPath_run (hm : m ≠ 0) (throttles : List ℤ) :
    ∃ s, throttles.foldlM (advancePath m f) (startPath v0 startPosition) = .ok s ∧
      OnPath v0 m f startPosition throttles s := by
  induction throttles using List.reverseRecOn with
  | nil => exact ⟨_, rfl, onPath_start⟩
  | append_singleton throttles throttle ih =>
    obtain ⟨s, hs, honPath⟩ := ih
    obtain ⟨s', hs'⟩ := advancePath_ok hm s throttle
    refine ⟨s', ?_, honPath.advance hs'⟩
    rw [List.foldlM_append, hs]
    change (advancePath m f s throttle >>= pure) = _
    rw [bind_pure, hs']

end Agreement

/-- what `fitness` makes of the total distance and the final speed -/
theorem fitness_of_totals {v0 m f totalDistance finalSpeed : ℚ} {throttles : List ℤ}
    (h : calculateTotalDistance v0 throttles m f = .ok (totalDistance, finalSpeed))
    (dTarget vThreshold distanceWeight speedWeight lengthWeight nonzeroWeight : ℚ) :
    ∃ score, fitness v0 throttles m f dTarget vThreshold distanceWeight speedWeight lengthWeight nonzeroWeight =
        .ok score ∧
      score.distanceDiff = |dTarget - totalDistance| ∧
      score.speedPenalty = if 0 ≤ finalSpeed ∧ finalSpeed ≤ vThreshold then 0 else |finalSpeed - vThreshold| := by
  rw [fitness, h]
  exact ⟨_, rfl, rfl, rfl⟩

/-- The two simulations agree after every prefix, and the last point is what `fitness` scores. -/
theorem points_agree (v0 f startPosition : ℚ) {m : ℚ} (hm : m ≠ 0) (throttles : List ℤ) :
    ∃ points, getDistanceForThrottlesVelocities v0 m f throttles startPosition = .ok points ∧
      points.length = throttles.length + 1 ∧
      (∀ i ≤ throttles.length, ∃ totalDistance finalSpeed,
        calculateTotalDistance v0 (throttles.take i) m f = .ok (totalDistance, finalSpeed) ∧
          points[i]? = some (startPosition + totalDistance, finalSpeed)) ∧
      ∃ lastDistance lastSpeed, points.getLast? = some (lastDistance, lastSpeed) ∧
        calculateTotalDistance v0 throttles m f = .ok (lastDistance - startPosition, lastSpeed) ∧
        ∀ dTarget vThreshold distanceWeight speedWeight lengthWeight nonzeroWeight, ∃ score,
          fitness v0 throttles m f dTarget vThreshold distanceWeight speedWeight lengthWeight nonzeroWeight =
              .ok score ∧
            score.distanceDiff = |dTarget - (lastDistance - startPosition)| ∧
            score.speedPenalty = if 0 ≤ lastSpeed ∧ lastSpeed ≤ vThreshold then 0 else |lastSpeed - vThreshold| := by
  obtain ⟨s, hs, honPath⟩ := onPath_run v0 f startPosition hm throttles
  have hpoints : ∀ i ≤ throttles.length, ∃ totalDistance finalSpeed,
      calculateTotalDistance v0 (throttles.take i) m f = .ok (totalDistance, finalSpeed) ∧
        s.distanceVelocities[i]? = some (startPosition + totalDistance, finalSpeed) := by
    intro i hi
    obtain ⟨point, hpoint, totalDistance, finalSpeed, htotal, rfl⟩ := honPath.point i hi
    exact ⟨totalDistance, finalSpeed, htotal, hpoint⟩
  refine ⟨s.distanceVelocities, ?_, honPath.length, hpoints, ?_⟩
  · rw [getDistanceForThrottlesVelocities, hs]
    rfl
  · obtain ⟨totalDistance, finalSpeed, htotal, hlast⟩ := hpoints throttles.length le_rfl
    rw [List.take_length] at htotal
    refine ⟨startPosition + totalDistance, finalSpeed, ?_, ?_, ?_⟩
    · rw [List.getLast?_eq_getElem?, honPath.length]
      exact hlast
    · rw [add_sub_cancel_left]
      exact htotal
    · rw [add_sub_cancel_left]
      exact fitness_of_totals htotal

/-- two throttles of 100 on a mass of 2, with friction 1/2, from position 10 at speed 4 -/
theorem points_agree_two : (2 : ℚ) ≠ 0 ∧
    ∃ points, getDistanceForThrottlesVelocities 4 2 (1 / 2) [100, 100] 10 = .ok points ∧ points.length = 2 + 1 := by
  have hmass : (2 : ℚ) ≠ 0 := two_ne_zero
  obtain ⟨points, hpoints, hlength, -⟩ := points_agree 4 (1 / 2) 10 hmass [100, 100]
  exact ⟨hmass, points, hpoints, hlength⟩

end LlmAgent
