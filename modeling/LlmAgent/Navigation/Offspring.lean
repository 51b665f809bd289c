/-
Which individuals can come after a population, for some outcome of the draws.

- `offers_randint`, `offers_randomSample`, `offers_crossover`, `offers_mutate_self`, `offers_mutate_shorter`: each draw
  and each operator can be made to answer what it can answer at all, whatever is drawn afterwards;
- `Bears`, `generation_bred`: the children that crossover and mutation can make of two parents; every population after
  the first one consists of such children;
- `Lasting`, `CanFollow`: the sequences that mutation can leave, and those that can come after a given one;
- `offers_generation`: a whole population can turn into one of them, and `staying_run`: stay it to the end.
-/
import LlmAgent.Core.Offers
import LlmAgent.Navigation.ValidSearch

namespace LlmAgent

open Core

/-! ## Draws -/

instance : Inhabited World := ⟨⟨Stream'.const 0, Stream'.const 0⟩⟩

theorem offers_draw (outcome : ℕ) : Offers World.readings draw outcome :=
  fun world => ⟨⟨Stream'.cons outcome world.draws, world.readings⟩, rfl, rfl⟩

theorem draw_free : Free World.readings draw := by
  intro world outcome world' hrun
  cases hrun
  exact ⟨rfl, offers_draw _⟩

theorem offers_randint {a b k : ℤ} (hlow : a ≤ k) (hhigh : k ≤ b) : Offers World.readings (randint a b) k := by
  unfold randint
  rw [if_neg (by omega)]
  refine (offers_draw (k - a).toNat).bind ?_
  have houtcome : a + ((k - a).toNat : ℤ) % (b - a + 1) = k := by
    rw [Int.toNat_of_nonneg (by omega), Int.emod_eq_of_lt (by omega) (by omega)]
    omega
  rw [houtcome]
  exact Offers.pure k

theorem randint_free (a b : ℤ) : Free World.readings (randint a b) :=
  Free.ite (Free.throw _) (draw_free.bind fun _ => Free.pure _)

theorem offers_random {outcome : ℕ} (h : outcome < 2 ^ 53) :
    Offers World.readings random ((outcome : ℚ) / (2 ^ 53 : ℕ)) := by
  refine (offers_draw outcome).bind ?_
  rw [Nat.mod_eq_of_lt h]
  exact Offers.pure _

theorem random_free : Free World.readings random := draw_free.bind fun _ => Free.pure _

/-- a draw of `random()` is below one by at least 2⁻⁵³ -/
theorem random_le : Returns random fun x => x ≤ (2 ^ 53 - 1) / 2 ^ 53 := by
  refine draw_returns.bind fun outcome _ => Returns.pure ?_
  have hlt : outcome % 2 ^ 53 ≤ 2 ^ 53 - 1 := Nat.le_sub_one_of_lt (Nat.mod_lt _ (by positivity))
  have hcast : ((outcome % 2 ^ 53 : ℕ) : ℚ) ≤ 2 ^ 53 - 1 := by
    calc ((outcome % 2 ^ 53 : ℕ) : ℚ) ≤ ((2 ^ 53 - 1 : ℕ) : ℚ) := Nat.cast_le.2 hlt
      _ = 2 ^ 53 - 1 := by norm_num
  push_cast at hcast ⊢
  exact div_le_div_of_nonneg_right hcast (by positivity)

theorem drawFrom_free {α : Type} (k : ℕ) (pool : List α) : Free World.readings (drawFrom k pool) := by
  induction k generalizing pool with
  | zero => exact Free.pure []
  | succ k ih =>
    refine draw_free.bind fun outcome => ?_
    dsimp only
    split
    · exact Free.throw _
    · exact (ih _).bind fun rest => Free.pure _

theorem getElem_cons_take {α : Type} {l : List α} (h : 0 < l.length) (k : ℕ) :
    l[0] :: (l.eraseIdx 0).take k = l.take (k + 1) := by
  cases l with
  | nil => exact absurd h (Nat.lt_irrefl 0)
  | cons a l => rfl

/-- any element can be drawn first, and the rest in order -/
theorem offers_drawFrom {α : Type} {k i : ℕ} {pool : List α} (hi : i < pool.length) (hk : k < pool.length) :
    Offers World.readings (drawFrom (k + 1) pool) (pool[i] :: (pool.eraseIdx i).take k) := by
  induction k generalizing i pool with
  | zero =>
    refine (offers_draw i).bind ?_
    simp only [Nat.mod_eq_of_lt hi, List.getElem?_eq_getElem hi]
    exact (Offers.pure _).bind (Offers.pure _)
  | succ k ih =>
    refine (offers_draw i).bind ?_
    simp only [Nat.mod_eq_of_lt hi, List.getElem?_eq_getElem hi]
    have hlen : (pool.eraseIdx i).length = pool.length - 1 := List.length_eraseIdx_of_lt hi
    have hrest : Offers World.readings (drawFrom (k + 1) (pool.eraseIdx i))
        ((pool.eraseIdx i)[0] :: ((pool.eraseIdx i).eraseIdx 0).take k) := ih (by omega) (by omega)
    rw [getElem_cons_take] at hrest
    exact hrest.bind (Offers.pure _)

theorem randomSample_free {α : Type} (population : List α) (k : ℤ) : Free World.readings (randomSample population k) :=
  Free.ite (drawFrom_free _ _) (Free.throw _)

/-- any element can be the first one of a sample -/
theorem offers_randomSample {α : Type} {population : List α} {k : ℤ} (h1 : 1 ≤ k) (hk : k ≤ population.length) {a : α}
    (ha : a ∈ population) : ∃ rest, Offers World.readings (randomSample population k) (a :: rest) ∧
      (rest.length : ℤ) = k - 1 ∧ ∀ b ∈ rest, b ∈ population := by
  obtain ⟨i, hi, rfl⟩ := List.getElem_of_mem ha
  have hlen : (population.eraseIdx i).length = population.length - 1 := List.length_eraseIdx_of_lt hi
  refine ⟨(population.eraseIdx i).take (k.toNat - 1), ?_, ?_, ?_⟩
  · unfold randomSample
    rw [if_pos ⟨by omega, hk⟩]
    have hfirst := offers_drawFrom (k := k.toNat - 1) hi (by omega)
    rwa [show k.toNat - 1 + 1 = k.toNat by omega] at hfirst
  · rw [List.length_take]
    omega
  · exact fun b hb => List.mem_of_mem_eraseIdx (List.mem_of_mem_take hb)

theorem randomSample_answers {α : Type} (population : List α) (k : ℤ) :
    Answers (randomSample population k) fun sample => ∀ a ∈ sample, a ∈ population := by
  by_cases h : 0 ≤ k ∧ k ≤ population.length
  · intro world sample world' hrun
    exact ((randomSample_returns h.1 h.2).answers world sample world' hrun).2
  · unfold randomSample
    rw [if_neg h]
    exact Answers.throw _

/-! ## Crossover -/

theorem crossover_free (parent1 parent2 : List ℤ) (maxAllowedLength : ℤ) :
    Free World.readings (crossover parent1 parent2 maxAllowedLength) :=
  (randint_free _ _).bind fun _ => (randint_free _ _).bind fun _ => Free.pure _

/-- a child short enough is not trimmed -/
theorem offers_crossover {parent1 parent2 : List ℤ} {cut1 cut2 : ℕ} {maxAllowedLength : ℤ}
    (h1 : 1 ≤ cut1 ∧ cut1 ≤ parent1.length) (h2 : 1 ≤ cut2 ∧ cut2 ≤ parent2.length)
    (hshort : ((parent1.take cut1 ++ parent2.drop cut2).length : ℤ) ≤ maxAllowedLength) :
    Offers World.readings (crossover parent1 parent2 maxAllowedLength) (parent1.take cut1 ++ parent2.drop cut2) := by
  have hcut1 : Offers World.readings (randint 1 parent1.length) cut1 := offers_randint (by omega) (by omega)
  have hcut2 : Offers World.readings (randint 1 parent2.length) cut2 := offers_randint (by omega) (by omega)
  refine hcut1.bind (hcut2.bind ?_)
  simp only [Int.toNat_natCast]
  split_ifs with hlong
  · rw [sliceTo, if_pos (by omega), List.take_of_length_le (by omega)]
    exact Offers.pure _
  · exact Offers.pure _

/-- a child can be its first parent again -/
theorem offers_crossover_self {parent1 parent2 : List ℤ} {maxAllowedLength : ℤ} (h1 : 1 ≤ parent1.length)
    (h2 : 1 ≤ parent2.length) (hshort : (parent1.length : ℤ) ≤ maxAllowedLength) :
    Offers World.readings (crossover parent1 parent2 maxAllowedLength) parent1 := by
  have hchild : parent1.take parent1.length ++ parent2.drop parent2.length = parent1 := by
    rw [List.take_length, List.drop_length, List.append_nil]
  have hoffers : Offers World.readings (crossover parent1 parent2 maxAllowedLength)
      (parent1.take parent1.length ++ parent2.drop parent2.length) :=
    offers_crossover ⟨h1, le_rfl⟩ ⟨h2, le_rfl⟩ (by rwa [hchild])
  rwa [hchild] at hoffers

/-! ## Mutation -/

theorem mutateThrottle_free (throttleRange : ℤ × ℤ) (mutationRate : ℚ) (throttle : ℤ) :
    Free World.readings (mutateThrottle throttleRange mutationRate throttle) :=
  random_free.bind fun _ => Free.ite (randint_free _ _) (Free.pure _)

theorem mutate_free (throttles : List ℤ) (throttleRange : ℤ × ℤ) (mutationRate : ℚ) :
    Free World.readings (mutate throttles throttleRange mutationRate) :=
  (Free.mapM (mutateThrottle_free _ _) _).bind fun _ => random_free.bind fun _ =>
    Free.ite ((randint_free _ _).bind fun _ => Free.pure _) (Free.pure _)

/-- some draw of `random()` is not below the mutation rate -/
def GeneticConfiguration.Spares (g : GeneticConfiguration) : Prop := g.mutationRate ≤ (2 ^ 53 - 1) / 2 ^ 53

instance (g : GeneticConfiguration) : Decidable g.Spares := inferInstanceAs (Decidable (_ ≤ _))

/-- and if none is, every draw is below it -/
theorem GeneticConfiguration.rate_pos {g : GeneticConfiguration} (h : ¬ g.Spares) : 0 < g.mutationRate := by
  have hrate : (2 ^ 53 - 1) / 2 ^ 53 < g.mutationRate := not_le.1 h
  exact lt_trans (by norm_num) hrate

theorem offers_random_spared {g : GeneticConfiguration} (h : g.Spares) :
    ∃ x, Offers World.readings random x ∧ ¬ x < g.mutationRate := by
  refine ⟨_, offers_random (Nat.sub_lt (Nat.two_pow_pos 53) Nat.one_pos), not_lt.2 ?_⟩
  refine le_trans h (le_of_eq ?_)
  norm_num

theorem offers_random_zero : Offers World.readings random 0 := by
  have hzero := offers_random (Nat.two_pow_pos 53)
  rwa [Nat.cast_zero, zero_div] at hzero

theorem offers_mutateThrottle_self {g : GeneticConfiguration} (h : g.Spares) (throttle : ℤ) :
    Offers World.readings (mutateThrottle g.throttleRange g.mutationRate throttle) throttle := by
  obtain ⟨x, hx, hspared⟩ := offers_random_spared h
  refine hx.bind ?_
  rw [if_neg hspared]
  exact Offers.pure _

theorem offers_mutateThrottle {throttleRange : ℤ × ℤ} {mutationRate : ℚ} (hrate : 0 < mutationRate)
    (throttle : ℤ) {mutated : ℤ} (h : throttleRange.1 ≤ mutated ∧ mutated ≤ throttleRange.2) :
    Offers World.readings (mutateThrottle throttleRange mutationRate throttle) mutated := by
  refine offers_random_zero.bind ?_
  rw [if_pos hrate]
  exact offers_randint h.1 h.2

/-- the loop over the positions can make any throttles of as many others -/
theorem offers_mutateThrottles {throttleRange : ℤ × ℤ} {mutationRate : ℚ} (hrate : 0 < mutationRate)
    {throttles mutated : List ℤ} (hlen : throttles.length = mutated.length)
    (h : ∀ throttle ∈ mutated, throttleRange.1 ≤ throttle ∧ throttle ≤ throttleRange.2) :
    Offers World.readings (throttles.mapM (mutateThrottle throttleRange mutationRate)) mutated := by
  refine Offers.mapM (List.forall₂_iff_get.2 ⟨hlen, fun i _ hi => ?_⟩)
  exact offers_mutateThrottle hrate _ (h _ (List.get_mem mutated ⟨i, hi⟩))

variable {g : GeneticConfiguration}

/-- a rate that spares a draw can spare an individual -/
theorem offers_mutate_self (h : g.Spares) (throttles : List ℤ) :
    Offers World.readings (mutate throttles g.throttleRange g.mutationRate) throttles := by
  obtain ⟨x, hx, hspared⟩ := offers_random_spared h
  refine (Offers.mapM (List.forall₂_same.2 fun throttle _ => offers_mutateThrottle_self h throttle)).bind (hx.bind ?_)
  rw [if_neg fun hdelete => hspared hdelete.1]
  exact Offers.pure _

/-- a single throttle is never deleted -/
theorem offers_mutate_single (hrate : 0 < g.mutationRate) {throttle mutated : ℤ}
    (h : g.throttleRange.1 ≤ mutated ∧ mutated ≤ g.throttleRange.2) :
    Offers World.readings (mutate [throttle] g.throttleRange g.mutationRate) [mutated] := by
  have hturns : Offers World.readings ([throttle].mapM (mutateThrottle g.throttleRange g.mutationRate)) [mutated] :=
    offers_mutateThrottles hrate rfl fun _ ht => List.mem_singleton.1 ht ▸ h
  refine hturns.bind (offers_random_zero.bind ?_)
  rw [if_neg fun hdelete => absurd hdelete.2 (lt_irrefl 1)]
  exact Offers.pure _

/-- a longer one can become any sequence with one throttle less -/
theorem offers_mutate_shorter (hg : g.Searchable) (hrate : 0 < g.mutationRate) {throttles mutated : List ℤ}
    (hmutated : ValidSequence g mutated) (hlen : throttles.length = mutated.length + 1) :
    Offers World.readings (mutate throttles g.throttleRange g.mutationRate) mutated := by
  have hnonempty := hmutated.nonempty
  have hturns : Offers World.readings (throttles.mapM (mutateThrottle g.throttleRange g.mutationRate))
      (mutated ++ [g.throttleRange.1]) := by
    refine offers_mutateThrottles hrate (by simp [hlen]) fun throttle ht => ?_
    rcases List.mem_append.1 ht with ht | ht
    · exact hmutated.inRange throttle ht
    · obtain rfl := List.mem_singleton.1 ht
      exact ⟨le_rfl, hg.throttleRange⟩
  have hposition : Offers World.readings (randint 0 ((mutated ++ [g.throttleRange.1]).length - 1)) mutated.length :=
    offers_randint (by omega) (by simp)
  refine hturns.bind (offers_random_zero.bind ?_)
  rw [if_pos ⟨hrate, by simp; omega⟩]
  refine hposition.bind ?_
  have herased : (mutated ++ [g.throttleRange.1]).eraseIdx mutated.length = mutated := by
    rw [List.eraseIdx_append_of_length_le le_rfl, Nat.sub_self, List.eraseIdx_cons_zero, List.append_nil]
  rw [Int.toNat_natCast, herased]
  exact Offers.pure _

/-! ## Children -/

/-- crossover of the two parents and mutation can make this child -/
def Bears (g : GeneticConfiguration) (parent1 parent2 child : List ℤ) : Prop :=
  ∃ crossed, CanAnswer (crossover parent1 parent2 g.maxSequenceLength) crossed ∧
    CanAnswer (mutate crossed g.throttleRange g.mutationRate) child

/-- the sequences that mutation can leave: where no draw is spared, one of two or more throttles is always deleted -/
structure Lasting (g : GeneticConfiguration) (throttles : List ℤ) : Prop where
  valid : ValidSequence g throttles
  spared : g.Spares ∨ throttles.length = 1 ∨ (throttles.length : ℤ) < g.maxSequenceLength

theorem mutate_lasting (hg : g.Searchable) {throttles : List ℤ} (h : ValidSequence g throttles) :
    Answers (mutate throttles g.throttleRange g.mutationRate) (Lasting g) := by
  by_cases hspares : g.Spares
  · exact fun world child world' hrun => ⟨(mutate_returns hg h).answers world child world' hrun, Or.inl hspares⟩
  have hturns := Returns.mapM fun throttle hthrottle => mutateThrottle_returns hg (h.inRange throttle hthrottle)
  refine hturns.answers.bind fun mutated ⟨hlen, hrange⟩ => ?_
  have hvalid : ValidSequence g mutated := ⟨hlen ▸ h.nonempty, hlen ▸ h.short, hrange⟩
  refine random_le.answers.bind fun x hx => ?_
  have hbelow : x < g.mutationRate := hx.trans_lt (not_le.1 hspares)
  split_ifs with hdelete
  · refine (randint_returns (by omega)).answers.bind fun deletePos ⟨hlow, hhigh⟩ => Answers.pure ?_
    have hposition : deletePos.toNat < mutated.length := by omega
    have herased := List.length_eraseIdx_of_lt hposition
    have hshort := hvalid.short
    exact ⟨hvalid.eraseIdx hdelete.2 _ hposition, Or.inr (Or.inr (by omega))⟩
  · have hnonempty := hvalid.nonempty
    have hsingle : ¬ 1 < mutated.length := fun hlong => hdelete ⟨hbelow, hlong⟩
    exact Answers.pure ⟨hvalid, Or.inr (Or.inl (by omega))⟩

theorem bears_lasting (hg : g.Searchable) {parent1 parent2 child : List ℤ} (h1 : ValidSequence g parent1)
    (h2 : ValidSequence g parent2) (h : Bears g parent1 parent2 child) : Lasting g child := by
  obtain ⟨crossed, ⟨world₁, world₂, hcrossed⟩, world₃, world₄, hchild⟩ := h
  have hvalid := (crossover_returns hg h1 h2).answers world₁ crossed world₂ hcrossed
  exact mutate_lasting hg hvalid world₃ child world₄ hchild

/-- the children that two of the parents can have -/
def BredBy (g : GeneticConfiguration) (allParents : List (List ℤ)) (child : List ℤ) : Prop :=
  ∃ parent1 ∈ allParents, ∃ parent2 ∈ allParents, Bears g parent1 parent2 child

theorem breedChild_answers (allParents : List (List ℤ)) (maxAllowedLength : ℤ) :
    Answers (breedChild allParents maxAllowedLength) fun crossed => ∃ parent1 ∈ allParents, ∃ parent2 ∈ allParents,
      CanAnswer (crossover parent1 parent2 maxAllowedLength) crossed := by
  refine (randomSample_answers allParents 2).bind fun parents hmem => ?_
  match parents, hmem with
  | [parent1, parent2], hmem =>
    intro world crossed world' hrun
    exact ⟨parent1, hmem parent1 (by simp), parent2, hmem parent2 (by simp), world, world', hrun⟩
  | [], _ => exact Answers.throw _
  | [_], _ => exact Answers.throw _
  | _ :: _ :: _ :: _, _ => exact Answers.throw _

theorem breed_answers {allParents : List (List ℤ)} {maxAllowedLength : ℤ} {P : List ℤ → Prop}
    (hchild : Answers (breedChild allParents maxAllowedLength) P) (missing : ℕ) {nextGeneration : List (List ℤ)}
    (hnext : ∀ child ∈ nextGeneration, P child) :
    Answers (breed allParents maxAllowedLength missing nextGeneration) fun children => ∀ child ∈ children, P child := by
  induction missing generalizing nextGeneration with
  | zero => exact Answers.pure hnext
  | succ missing ih =>
    refine hchild.bind fun child hP => ih fun other hother => ?_
    rcases List.mem_append.1 hother with hother | hother
    · exact hnext other hother
    · exact List.mem_singleton.1 hother ▸ hP

/-- every individual after a generation has its parents before it -/
theorem generation_bred (input : ThrottleCalculationInput) (g : GeneticConfiguration) (s : SearchState) :
    Answers (generation input g s) fun s' => ∀ child ∈ s'.population, BredBy g s.population child := by
  refine (Answers.anything _).bind fun fitnessScores _ => ?_
  refine (randomSample_answers _ _).bind fun worstParents hworst => ?_
  refine (breed_answers (breedChild_answers _ _) _ fun child h => absurd h List.not_mem_nil).bind
    fun children hchildren => ?_
  refine (Answers.mapM fun crossed _ => answers_canAnswer (mutate crossed _ _)).bind fun nextGeneration hnext => ?_
  have hparent : ∀ parent ∈ selectBestParents s.population fitnessScores g.numBestParents ++ worstParents,
      parent ∈ s.population := by
    intro parent hparent
    rcases List.mem_append.1 hparent with h | h
    · exact mem_selectBestParents h
    · exact hworst parent h
  have hbred : ∀ child ∈ nextGeneration, BredBy g s.population child := by
    intro child hchild
    obtain ⟨crossed, hcrossed, hmutate⟩ := hnext child hchild
    obtain ⟨parent1, h1, parent2, h2, hcrossover⟩ := hchildren crossed hcrossed
    exact ⟨parent1, hparent parent1 h1, parent2, hparent parent2 h2, crossed, hcrossover, hmutate⟩
  split
  · exact Answers.throw _
  · exact (Answers.anything _).bind fun i _ => (Answers.anything _).bind fun throttles _ => Answers.pure hbred

/-! ## Whole generations -/

theorem generateInitialPopulation_free (popSize maxT : ℤ) (throttleRange : ℤ × ℤ) :
    Free World.readings (generateInitialPopulation popSize maxT throttleRange) :=
  Free.mapM (fun _ => (randint_free _ _).bind fun _ => Free.mapM (fun _ => randint_free _ _) _) _

theorem liftExcept_free {α : Type} (x : Except SearchError α) : Free World.readings (liftExcept x) := by
  cases x with
  | error e => exact Free.throw e
  | ok a => exact Free.pure a

theorem indexOf_free {α : Type} [DecidableEq α] (xs : List α) (x : α) : Free World.readings (indexOf xs x) := by
  unfold indexOf
  split
  · exact Free.throw _
  · exact Free.pure _

theorem itemAt_free {α : Type} (xs : List α) (i : ℕ) : Free World.readings (itemAt xs i) := by
  unfold itemAt
  split
  · exact Free.throw _
  · exact Free.pure _

theorem breedChild_free (allParents : List (List ℤ)) (maxAllowedLength : ℤ) :
    Free World.readings (breedChild allParents maxAllowedLength) := by
  refine (randomSample_free allParents 2).bind fun parents => ?_
  split
  · exact crossover_free _ _ _
  · exact Free.throw _

theorem breed_free (allParents : List (List ℤ)) (maxAllowedLength : ℤ) (missing : ℕ)
    (nextGeneration : List (List ℤ)) :
    Free World.readings (breed allParents maxAllowedLength missing nextGeneration) := by
  induction missing generalizing nextGeneration with
  | zero => exact Free.pure _
  | succ missing ih => exact (breedChild_free _ _).bind fun child => ih _

theorem generation_free (input : ThrottleCalculationInput) (g : GeneticConfiguration) (s : SearchState) :
    Free World.readings (generation input g s) := by
  refine (liftExcept_free _).bind fun fitnessScores => (randomSample_free _ _).bind fun worstParents => ?_
  refine (breed_free _ _ _ _).bind fun children => (Free.mapM (fun child => mutate_free _ _ _) _).bind fun _ => ?_
  split
  · exact Free.throw _
  · exact (indexOf_free _ _).bind fun i => (itemAt_free _ _).bind fun throttles => Free.pure _

/-- every population of the right size is an initial one -/
theorem offers_generateInitialPopulation {population : List (List ℤ)} (h : ValidPopulation g population) :
    Offers World.readings (generateInitialPopulation g.populationSize g.maxSequenceLength g.throttleRange)
      population := by
  have hsize := h.size
  refine Offers.mapM (List.forall₂_iff_get.2 ⟨by simp; omega, fun i _ hi => ?_⟩)
  have hvalid := h.individuals _ (List.get_mem population ⟨i, hi⟩)
  have hlength : Offers World.readings (randint 1 g.maxSequenceLength) ((population.get ⟨i, hi⟩).length : ℤ) :=
    offers_randint (by exact_mod_cast hvalid.nonempty) hvalid.short
  refine hlength.bind (Offers.mapM (List.forall₂_iff_get.2 ⟨by simp, fun j _ hj => ?_⟩))
  have hinRange := hvalid.inRange _ (List.get_mem (population.get ⟨i, hi⟩) ⟨j, hj⟩)
  exact offers_randint hinRange.1 hinRange.2

theorem offers_breed {allParents : List (List ℤ)} {maxAllowedLength : ℤ} {child : List ℤ}
    (h : Offers World.readings (breedChild allParents maxAllowedLength) child) (missing : ℕ)
    (nextGeneration : List (List ℤ)) :
    Offers World.readings (breed allParents maxAllowedLength missing nextGeneration)
      (nextGeneration ++ List.replicate missing child) := by
  induction missing generalizing nextGeneration with
  | zero =>
    rw [List.replicate_zero, List.append_nil]
    exact Offers.pure _
  | succ missing ih =>
    have hrest := ih (nextGeneration ++ [child])
    rw [List.append_assoc] at hrest
    exact h.bind hrest

/-- a population with at most one other individual than this one -/
structure Dominates (throttles : List ℤ) (population : List (List ℤ)) : Prop where
  mem : throttles ∈ population
  others : population.countP (· ≠ throttles) ≤ 1

theorem selectBestParents_subperm {population : List (List ℤ)} {fitnesses : List FitnessScore}
    (hlen : fitnesses.length = population.length) (numParents : ℤ) :
    (selectBestParents population fitnesses numParents).Subperm population := by
  have hsorted : (((population.zip fitnesses).insertionSort fun p q => p.2.score ≤ q.2.score).map Prod.fst).Perm
      population := by
    have hperm := (List.perm_insertionSort (fun p q : List ℤ × FitnessScore => p.2.score ≤ q.2.score)
      (population.zip fitnesses)).map Prod.fst
    rwa [List.map_fst_zip (le_of_eq hlen.symm)] at hperm
  refine List.Subperm.trans (List.Sublist.subperm ?_) hsorted.subperm
  exact (sliceTo_sublist _ numParents).map Prod.fst

/-- two best parents cannot both be the one other -/
theorem Dominates.mem_best {throttles : List ℤ} {population : List (List ℤ)} (h : Dominates throttles population)
    {fitnesses : List FitnessScore} (hlen : fitnesses.length = population.length) {numParents : ℤ}
    (htwo : 2 ≤ (selectBestParents population fitnesses numParents).length) :
    throttles ∈ selectBestParents population fitnesses numParents := by
  by_contra hmem
  have hall : (selectBestParents population fitnesses numParents).countP (· ≠ throttles) =
      (selectBestParents population fitnesses numParents).length := by
    refine List.countP_eq_length.2 fun other hother => ?_
    exact decide_eq_true fun heq => hmem (heq ▸ hother)
  have hle := (selectBestParents_subperm hlen numParents).countP_le (· ≠ throttles)
  have hothers := h.others
  omega

/-- a dominating individual can be a parent of every child -/
theorem offers_selectRandomParents (hg : g.Searchable) {throttles : List ℤ} {population : List (List ℤ)}
    (hpopulation : ValidPopulation g population) (h : Dominates throttles population) {fitnesses : List FitnessScore}
    (hlen : fitnesses.length = population.length) :
    ∃ worstParents, Offers World.readings (selectRandomParents population fitnesses g.numWorstParents) worstParents ∧
      throttles ∈ selectBestParents population fitnesses g.numBestParents ++ worstParents ∧
      2 ≤ (selectBestParents population fitnesses g.numBestParents ++ worstParents).length ∧
      ∀ parent ∈ selectBestParents population fitnesses g.numBestParents ++ worstParents, parent ∈ population := by
  have hbest := length_selectBestParents hlen hg.numBestParents
  have htwo := hg.twoParents
  have hsize := hpopulation.size
  have hparents : ∀ worstParents : List (List ℤ), (∀ parent ∈ worstParents, parent ∈ population) →
      ∀ parent ∈ selectBestParents population fitnesses g.numBestParents ++ worstParents, parent ∈ population := by
    intro worstParents hworst parent hparent
    rcases List.mem_append.1 hparent with hparent | hparent
    · exact mem_selectBestParents hparent
    · exact hworst parent hparent
  by_cases hnone : g.numWorstParents = 0
  · have hreturns : Returns (randomSample population g.numWorstParents) _ :=
      randomSample_returns hg.numWorstParents.1 (hsize ▸ hg.numWorstParents.2)
    obtain ⟨worstParents, ⟨hworst, hmem⟩, hoffers⟩ := hreturns.offers (randomSample_free _ _)
    refine ⟨worstParents, hoffers, ?_, ?_, hparents worstParents hmem⟩
    · exact List.mem_append_left _ (h.mem_best hlen (by omega))
    · rw [List.length_append]
      omega
  · have hsome := hg.numWorstParents
    obtain ⟨rest, hoffers, hrest, hmem⟩ := offers_randomSample (k := g.numWorstParents) (by omega)
      (hsize ▸ hsome.2) h.mem
    refine ⟨throttles :: rest, hoffers, by simp, ?_, hparents _ ?_⟩
    · rw [List.length_append, List.length_cons]
      omega
    · intro parent hparent
      rcases List.mem_cons.1 hparent with rfl | hparent
      · exact h.mem
      · exact hmem parent hparent

theorem offers_breedChild {allParents : List (List ℤ)} {maxAllowedLength : ℤ} {throttles child : List ℤ}
    (htwo : 2 ≤ allParents.length) (hmem : throttles ∈ allParents)
    (h : ∀ other ∈ allParents, Offers World.readings (crossover throttles other maxAllowedLength) child) :
    Offers World.readings (breedChild allParents maxAllowedLength) child := by
  obtain ⟨rest, hoffers, hlen, hrest⟩ := offers_randomSample (k := 2) (by omega) (by exact_mod_cast htwo) hmem
  obtain ⟨other, rfl⟩ := List.length_eq_one_iff.1 (by omega : rest.length = 1)
  exact hoffers.bind (h other (hrest other List.mem_cons_self))

/-- the next generation can consist of this child alone -/
def CanTurnInto (g : GeneticConfiguration) (population : List (List ℤ)) (child : List ℤ) : Prop :=
  ∃ throttles crossed, Dominates throttles population ∧
    (∀ other ∈ population, Offers World.readings (crossover throttles other g.maxSequenceLength) crossed) ∧
    Offers World.readings (mutate crossed g.throttleRange g.mutationRate) child

variable {input : ThrottleCalculationInput} {s : SearchState} {child : List ℤ}

theorem offers_generation (hmass : input.mass ≠ 0) (hg : g.Searchable) (hs : ValidPopulation g s.population)
    (h : CanTurnInto g s.population child) : ∃ s', Offers World.readings (generation input g s) s' ∧
      s'.population = List.replicate g.populationSize.toNat child := by
  obtain ⟨throttles, crossed, hdominates, hcrossover, hmutate⟩ := h
  obtain ⟨fitnessScores, hscores⟩ := fitnessScores_ok (g := g) hmass s.population
  have hlen := (traversal_ok_iff.1 hscores).length_eq
  obtain ⟨worstParents, hworst, hmem, htwo, hparents⟩ := offers_selectRandomParents hg hs hdominates hlen.symm
  have hbreed := offers_breed (offers_breedChild htwo hmem fun other hother => hcrossover other (hparents other hother))
    g.populationSize.toNat []
  rw [List.nil_append] at hbreed
  have hmutated : Offers World.readings ((List.replicate g.populationSize.toNat crossed).mapM fun crossed =>
      mutate crossed g.throttleRange g.mutationRate) (List.replicate g.populationSize.toNat child) := by
    refine Offers.mapM (List.forall₂_iff_get.2 ⟨by simp, fun i _ _ => ?_⟩)
    rw [List.get_eq_getElem, List.get_eq_getElem, List.getElem_replicate, List.getElem_replicate]
    exact hmutate
  obtain ⟨best, hbest⟩ : ∃ best, fitnessScores.argmin FitnessScore.score = some best := by
    refine Option.ne_none_iff_exists'.1 fun hnone => ?_
    rw [List.argmin_eq_none.1 hnone, List.length_nil] at hlen
    have hpositive := List.length_pos_of_mem hdominates.mem
    omega
  obtain ⟨i, hi, hindex⟩ := (indexOf_returns (List.argmin_mem hbest)).offers (indexOf_free _ _)
  obtain ⟨first, -, hfirst⟩ := (itemAt_returns (hlen ▸ hi)).offers (itemAt_free s.population i)
  have hlift : Offers World.readings (liftExcept (s.population.mapM (fitnessOf input g))) fitnessScores := by
    rw [hscores]
    exact Offers.pure _
  refine ⟨⟨List.replicate g.populationSize.toNat child, some first, some best⟩, ?_, rfl⟩
  refine hlift.bind (hworst.bind (hbreed.bind (hmutated.bind ?_)))
  rw [hbest]
  exact hindex.bind (hfirst.bind (Offers.pure _))

/-! ## What a population can turn into -/

theorem dominates_replicate {n : ℕ} (hn : 1 ≤ n) (throttles : List ℤ) :
    Dominates throttles (List.replicate n throttles) where
  mem := List.mem_replicate.2 ⟨by omega, rfl⟩
  others := by simp [List.countP_replicate]

theorem dominates_cons {n : ℕ} (hn : 1 ≤ n) (a throttles : List ℤ) :
    Dominates throttles (a :: List.replicate n throttles) where
  mem := List.mem_cons_of_mem a (dominates_replicate hn throttles).mem
  others := by
    rw [List.countP_cons, List.countP_replicate]
    split_ifs <;> simp_all

theorem validPopulation_replicate (hg : g.Searchable) {throttles : List ℤ} (h : ValidSequence g throttles) :
    ValidPopulation g (List.replicate g.populationSize.toNat throttles) where
  size := by
    have hsize := hg.populationSize
    rw [List.length_replicate]
    omega
  individuals := fun _ hother => List.eq_of_mem_replicate hother ▸ h

theorem validPopulation_cons (hg : g.Searchable) {a throttles : List ℤ} (ha : ValidSequence g a)
    (h : ValidSequence g throttles) :
    ValidPopulation g (a :: List.replicate (g.populationSize.toNat - 1) throttles) where
  size := by
    have hsize := hg.populationSize
    simp
    omega
  individuals := by
    intro other hother
    rcases List.mem_cons.1 hother with rfl | hother
    · exact ha
    · exact List.eq_of_mem_replicate hother ▸ h

/-- a sequence that mutation can leave can come from itself, or from itself with its last throttle doubled -/
theorem Lasting.offers_mutate (hg : g.Searchable) (h : Lasting g child) : ∃ crossed, ValidSequence g crossed ∧
    Offers World.readings (mutate crossed g.throttleRange g.mutationRate) child ∧
    (crossed = child ∨ 2 ≤ child.length ∧ crossed = child ++ child.drop (child.length - 1)) := by
  by_cases hspares : g.Spares
  · exact ⟨child, h.valid, offers_mutate_self hspares child, Or.inl rfl⟩
  have hrate := GeneticConfiguration.rate_pos hspares
  by_cases hsingle : child.length = 1
  · obtain ⟨throttle, rfl⟩ := List.length_eq_one_iff.1 hsingle
    exact ⟨_, h.valid, offers_mutate_single hrate (h.valid.inRange throttle List.mem_cons_self), Or.inl rfl⟩
  · have hshort := (h.spared.resolve_left hspares).resolve_left hsingle
    have hnonempty := h.valid.nonempty
    have hlen : (child ++ child.drop (child.length - 1)).length = child.length + 1 := by
      rw [List.length_append, List.length_drop]
      omega
    refine ⟨_, ⟨by omega, by omega, ?_⟩, offers_mutate_shorter hg hrate h.valid hlen, Or.inr ⟨by omega, rfl⟩⟩
    intro throttle ht
    rcases List.mem_append.1 ht with ht | ht
    · exact h.valid.inRange throttle ht
    · exact h.valid.inRange throttle (List.mem_of_mem_drop ht)

/-- a population of nothing else stays so -/
theorem Lasting.stays (hg : g.Searchable) (h : Lasting g child) :
    CanTurnInto g (List.replicate g.populationSize.toNat child) child := by
  have hsize := hg.populationSize
  have hnonempty := h.valid.nonempty
  obtain ⟨crossed, hvalid, hmutate, hcrossed⟩ := h.offers_mutate hg
  refine ⟨child, crossed, dominates_replicate (by omega) child, fun other hother => ?_, hmutate⟩
  obtain rfl := List.eq_of_mem_replicate hother
  rcases hcrossed with rfl | ⟨htwo, rfl⟩
  · exact offers_crossover_self hnonempty hnonempty hvalid.short
  · have hlonger : Offers World.readings (crossover other other g.maxSequenceLength)
        (other.take other.length ++ other.drop (other.length - 1)) :=
      offers_crossover ⟨hnonempty, le_rfl⟩ ⟨by omega, by omega⟩ (by rw [List.take_length]; exact hvalid.short)
    rwa [List.take_length] at hlonger

/-- in a population of two or more, all but one can be the sequence it comes from -/
theorem Lasting.population (hg : g.Searchable) (htwo : 2 ≤ g.populationSize) (h : Lasting g child) {a : List ℤ}
    (ha : ValidSequence g a) :
    ∃ population, ValidPopulation g population ∧ a ∈ population ∧ CanTurnInto g population child := by
  obtain ⟨crossed, hvalid, hmutate, -⟩ := h.offers_mutate hg
  have hpopulation := validPopulation_cons hg ha hvalid
  refine ⟨_, hpopulation, List.mem_cons_self, crossed, crossed, dominates_cons (by omega) a crossed, ?_, hmutate⟩
  intro other hother
  exact offers_crossover_self hvalid.nonempty (hpopulation.individuals other hother).nonempty hvalid.short

/-- the child can come to be in the generation after one that scores `a`: one of its own with itself where it is the
whole population, else one of any two sequences -/
def CanFollow (g : GeneticConfiguration) (a child : List ℤ) : Prop :=
  if g.populationSize = 1 then Bears g a a child
  else ∃ parent1 parent2, ValidSequence g parent1 ∧ ValidSequence g parent2 ∧ Bears g parent1 parent2 child

theorem CanFollow.lasting (hg : g.Searchable) {a : List ℤ} (ha : ValidSequence g a) (h : CanFollow g a child) :
    Lasting g child := by
  unfold CanFollow at h
  split_ifs at h
  · exact bears_lasting hg ha ha h
  · obtain ⟨parent1, parent2, h1, h2, hbears⟩ := h
    exact bears_lasting hg h1 h2 hbears

/-- in a population of two or more, whatever mutation can leave follows -/
theorem Lasting.follows (hg : g.Searchable) (htwo : 2 ≤ g.populationSize) (h : Lasting g child) (a : List ℤ) :
    CanFollow g a child := by
  obtain ⟨crossed, hvalid, hmutate, -⟩ := h.offers_mutate hg
  rw [CanFollow, if_neg (by omega)]
  exact ⟨crossed, crossed, hvalid, hvalid, crossed,
    (offers_crossover_self hvalid.nonempty hvalid.nonempty hvalid.short).canAnswer, hmutate.canAnswer⟩

/-- whatever is bred in a population follows each of its individuals -/
theorem BredBy.canFollow {population : List (List ℤ)} (hpopulation : ValidPopulation g population) {a : List ℤ}
    (ha : a ∈ population) (h : BredBy g population child) : CanFollow g a child := by
  obtain ⟨parent1, h1, parent2, h2, hbears⟩ := h
  unfold CanFollow
  split_ifs with hone
  · -- the one individual is both parents
    have hsize := hpopulation.size
    obtain ⟨only, rfl⟩ := List.length_eq_one_iff.1 (by omega : population.length = 1)
    obtain rfl := List.mem_singleton.1 ha
    obtain rfl := List.mem_singleton.1 h1
    obtain rfl := List.mem_singleton.1 h2
    exact hbears
  · exact ⟨parent1, parent2, hpopulation.individuals parent1 h1, hpopulation.individuals parent2 h2, hbears⟩

/-- whatever follows a sequence can follow it for a whole population -/
theorem CanFollow.population (hg : g.Searchable) {a : List ℤ} (ha : ValidSequence g a) (h : CanFollow g a child) :
    ∃ population, ValidPopulation g population ∧ a ∈ population ∧ CanTurnInto g population child := by
  have hsize := hg.populationSize
  by_cases hone : g.populationSize = 1
  · rw [CanFollow, if_pos hone] at h
    obtain ⟨crossed, hcrossed, hmutate⟩ := h
    have hpopulation : ValidPopulation g [a] := ⟨hone.symm, fun other hother => List.mem_singleton.1 hother ▸ ha⟩
    refine ⟨[a], hpopulation, List.mem_cons_self, a, crossed, dominates_replicate le_rfl a, fun other hother => ?_,
      (mutate_free _ _ _).offers hmutate⟩
    obtain rfl := List.mem_singleton.1 hother
    exact (crossover_free _ _ _).offers hcrossed
  · exact (h.lasting hg ha).population hg (by omega) ha

/-! ## A search that turns -/

variable {startTime : ℚ} {score : FitnessScore}

/-- a call offered for a state can be followed by whatever goes on from there -/
theorem exists_draws {α : Type} {call : SearchM α} {a : α} (h : Offers World.readings call a) (draws : Stream' ℕ)
    (readings : Stream' ℤ) : ∃ before, call.run ⟨before, readings⟩ = .ok a ⟨draws, readings⟩ := by
  obtain ⟨⟨before, readings'⟩, hreadings, hrun⟩ := h ⟨draws, readings⟩
  obtain rfl : readings' = readings := hreadings
  exact ⟨before, hrun⟩

theorem leavesBest_replicate {s' : SearchState} {n : ℕ} (hs : s.population = List.replicate n child)
    (hscore : fitnessOf input g child = .ok score) (h : LeavesBest input g s s') :
    s'.result.fitnessScore = some score := by
  obtain ⟨throttles, best, hresult, hbestOf⟩ := h
  have hmem := hbestOf.mem
  rw [hs] at hmem
  obtain rfl := List.eq_of_mem_replicate hmem
  rw [hresult]
  exact congrArg some (Except.ok.inj (hbestOf.scored.symm.trans hscore))

theorem timedOut_run (world : World) : (timedOut g startTime).run world =
    .ok (decide ((world.readings.head : ℚ) / 10 ^ 6 - startTime ≥ g.timeoutMs))
      { world with readings := world.readings.tail } := rfl

theorem offers_staying (hmass : input.mass ≠ 0) (hg : g.Searchable) (h : Lasting g child)
    (hs : s.population = List.replicate g.populationSize.toNat child) : ∃ s',
      Offers World.readings (generation input g s) s' ∧
      s'.population = List.replicate g.populationSize.toNat child :=
  offers_generation hmass hg (hs ▸ validPopulation_replicate hg h.valid) (hs ▸ h.stays hg)

/-- a search can stay with one sequence to its end, whatever the clock reads -/
theorem staying_run (hmass : input.mass ≠ 0) (hg : g.Searchable) (h : Lasting g child)
    (hscore : fitnessOf input g child = .ok score) (turns : ℕ)
    (hs : s.population = List.replicate g.populationSize.toNat child) (readings : Stream' ℤ) :
    ∃ draws result world', (searchLoop input g startTime (turns + 1) s).run ⟨draws, readings⟩ = .ok result world' ∧
      result.fitnessScore = some score := by
  induction turns generalizing s readings with
  | zero =>
    obtain ⟨s', hoffers, -⟩ := offers_staying hmass hg h hs
    obtain ⟨draws, hrun⟩ := exists_draws hoffers (Stream'.const 0) readings
    have hbest := leavesBest_replicate hs hscore (generation_best _ _ _ _ _ _ hrun)
    obtain ⟨stop, world', -, -, hloop⟩ := loopStates_turn startTime 0 hrun
    refine ⟨draws, s'.result, world', hloop.trans ?_, hbest⟩
    cases stop <;> rfl
  | succ turns ih =>
    -- the draws of the turns to come are chosen first, and this turn's before them
    obtain ⟨s', hoffers, hs'⟩ := offers_staying hmass hg h hs
    obtain ⟨later, result, world', hrest, hresult⟩ := ih hs' readings.tail
    obtain ⟨draws, hrun⟩ := exists_draws hoffers later readings
    have hbest := leavesBest_replicate hs hscore (generation_best _ _ _ _ _ _ hrun)
    obtain ⟨stop, world'', htime, -, hloop⟩ := loopStates_turn startTime (turns + 1) hrun
    cases stop with
    | true => exact ⟨draws, s'.result, world'', hloop, hbest⟩
    | false =>
      rw [timedOut_run] at htime
      obtain ⟨-, rfl⟩ := EStateM.Result.ok.inj htime
      exact ⟨draws, result, world', hloop.trans hrest, hresult⟩

end LlmAgent
