/-
Which interleavings of `claim_run` with intake calls have a serial order.

- `orderly_serializable`: when the turns are orderly, the calls end as in a serial order: the calls before the claim,
  the claim, the calls after it;
- `insertion_breaks`: a `create_run` during an append inside the claim's loops makes the claim raise, which it does in
  no serial order.
-/
import LlmAgent.Runs.StoreInvariant
import LlmAgent.Runs.SerialEntries

namespace LlmAgent

open Core

section Runs

variable {call : ClaimCall} {W₀ : UUID → Cell} {keys₀ : List UUID} {P F : List Answer} {s : Interleaved}

/-! ## Orderly runs -/

theorem linearized_init {rt : InMemoryRuntime} (hcounted : Counted rt) :
    Linearized call rt.cell rt.keys [] [] (.start rt) := by
  have hcells : (Interleaved.start rt).cells = rt.cell := by
    funext q
    simp [Interleaved.cells, InMemoryRuntime.cell, Interleaved.waiting, Interleaved.start]
  refine ⟨⟨intakeCalls.answered_nil _, intakeCalls.answered_nil _, hcells, List.Perm.refl _, ?_, fun q => ?_, ?_, ?_,
    ?_⟩,
    ⟨hcounted, ?_, trivial⟩, fun _ => (List.append_nil _).symm, trivial, ?_, ?_⟩
  · simp
  · exact iff_of_false (List.not_mem_nil) fun h => h.2
  · simp
  · simp
  · rintro r note ⟨⟩
  · rintro r note ⟨⟩
  · simp
  · simp

theorem linearized_step (h : Linearized call W₀ keys₀ P F s) {turn : StoreTurn} (horderly : s.Orderly call turn) :
    ∃ P' F', Linearized call W₀ keys₀ P' F' ((interleaving call).step s turn) := by
  cases turn with
  | claim now =>
    obtain ⟨P', F', h', -⟩ := linearized_claim h horderly
    exact ⟨P', F', h'⟩
  | enter intake =>
    by_cases hcan : s.CanEnter intake
    · by_cases hpassed : intake.runId ∈ s.expired ∨ s.claim.Settled intake.runId
      · exact ⟨P, _, linearized_after h horderly hcan hpassed⟩
      · rw [not_or] at hpassed
        exact ⟨_, F, linearized_before h horderly hcan hpassed.1 hpassed.2⟩
    · refine ⟨P, F, ?_⟩
      change Linearized call W₀ keys₀ P F (s.enterTurn intake)
      rw [Interleaved.enterTurn, if_neg hcan]
      exact h
  | append now => exact ⟨P, F, linearized_append h now⟩

/-- **Every orderly run has a serial order of its calls.** -/
theorem linearized_run {rt : InMemoryRuntime} (hcounted : Counted rt) {turns : List StoreTurn}
    (horderly : (interleaving call).Along (Interleaved.Orderly call) (.start rt) turns) :
    ∃ P F, Linearized call rt.cell rt.keys P F ((interleaving call).run (.start rt) turns) :=
  Machine.run_inv (I := fun s => ∃ P F, Linearized call rt.cell rt.keys P F s)
    (fun _ _ ⟨_, _, h⟩ ho => linearized_step h ho) ⟨[], [], linearized_init hcounted⟩ horderly

/-! ## The serial run -/

/-- one call after the other -/
def oneByOne (L : List IntakeCall) (now : UnixTs) : List StoreTurn :=
  L.flatMap fun intake => [.enter intake, .append now]

theorem orderly_idle (hclaim : s.claim = .idle) (intake : IntakeCall) : s.Orderly call (.enter intake) := by
  intro _
  cases intake with
  | createRun => simp [hclaim, ClaimTask.Iterating]
  | markCancelled => simp [hclaim, ClaimTask.Expiring, ClaimTask.Claiming]
  | requestCancellation => simp [hclaim, ClaimTask.Claiming]

theorem orderly_finished {reached : List UUID} {outcome : Except TaskError (Option ClaimedRun)}
    (hclaim : s.claim = .finished reached outcome) (intake : IntakeCall) : s.Orderly call (.enter intake) := by
  intro _
  cases intake with
  | createRun => simp [hclaim, ClaimTask.Iterating]
  | markCancelled => simp [hclaim, ClaimTask.Expiring, ClaimTask.Claiming]
  | requestCancellation => simp [hclaim, ClaimTask.Claiming]

/-- every new run was given a free id -/
def Fresh (L : List Answer) : Prop :=
  ∀ r userId answer, (IntakeCall.createRun r userId, answer) ∈ L → ∃ reply, answer = .ok reply

/-- a call can enter where it answers what it has answered -/
theorem canEnter_of_answered (hcalm : s.appending = none) {intake : IntakeCall} {L : List Answer} (hfresh : Fresh L)
    (hmem : (intake, s.answer intake) ∈ L) : s.CanEnter intake := by
  refine ⟨hcalm, ?_⟩
  rintro r userId rfl
  obtain ⟨reply, hanswer⟩ := hfresh r userId _ hmem
  refine (Dict.get?_eq_none _ _).1 ?_
  change ((IntakeCall.createRun r userId).decision (s.runtime.record? r)).1 = .ok reply at hanswer
  change s.runtime.record? r = none
  generalize s.runtime.record? r = record at hanswer
  cases record with
  | none => rfl
  | some st => simp [IntakeCall.decision] at hanswer

theorem appendTurn_calm (s : Interleaved) (now : UnixTs) :
    (s.appendTurn now).appending = none ∧ (s.appendTurn now).claim = s.claim ∧ (s.appendTurn now).late = s.late := by
  cases hpending : s.appending <;> simp [Interleaved.appendTurn, hpending]

theorem enterTurn_late {intake : IntakeCall} (hlate : s.late = []) (hexpired : s.expired = []) :
    (s.enterTurn intake).late = [] := by
  have hstep := enterTurn_spec s intake
  generalize s.enterTurn intake = s' at hstep
  cases hstep with
  | refused => exact hlate
  | kept => exact hlate
  | changed => simp [hlate, hexpired]

/-- nothing is under way -/
structure Idle (s : Interleaved) : Prop where
  claim : s.claim = .idle
  appending : s.appending = none
  late : s.late = []

/-- a call that runs before the claim starts -/
theorem idle_entry (now : UnixTs) (h : Linearized call W₀ keys₀ P [] s) (hidle : Idle s) {intake : IntakeCall}
    (hcan : s.CanEnter intake) :
    Linearized call W₀ keys₀ (P ++ [(intake, s.answer intake)]) [] ((s.enterTurn intake).appendTurn now) ∧
      Idle ((s.enterTurn intake).appendTurn now) := by
  have hordered := h.ordered
  rw [hidle.claim] at hordered
  have hunexpired : s.expired = [] :=
    List.eq_nil_iff_forall_not_mem.2 fun q hq => ((hordered.expired q).1 hq).2
  have hunsettled : ¬ s.claim.Settled intake.runId := by
    rw [hidle.claim]
    rintro (hleft | hreached)
    · exact hleft
    · cases hreached
  obtain ⟨happending, hclaim, hlate⟩ := appendTurn_calm (s.enterTurn intake) now
  refine ⟨linearized_append (linearized_before h (orderly_idle hidle.claim intake) hcan ?_ hunsettled) now,
    hclaim.trans ((entered hcan).claim.trans hidle.claim), happending,
    hlate.trans (enterTurn_late hidle.late hunexpired)⟩
  rw [hunexpired]
  exact List.not_mem_nil

/-- **The calls before the claim, one after the other.** -/
theorem serial_before (now : UnixTs) {Q : List Answer} (hanswered : intakeCalls.Answered W₀ (P ++ Q))
    (hfresh : Fresh (P ++ Q)) (h : Linearized call W₀ keys₀ P [] s) (hidle : Idle s) :
    Linearized call W₀ keys₀ (P ++ Q) [] ((interleaving call).run s (oneByOne (Q.map Prod.fst) now)) ∧
      Idle ((interleaving call).run s (oneByOne (Q.map Prod.fst) now)) := by
  induction Q generalizing P s with
  | nil =>
    rw [List.append_nil]
    exact ⟨h, hidle⟩
  | cons e Q ih =>
    have hcells := h.ordered.cells
    rw [hidle.claim] at hcells
    have hanswer : e = (e.1, s.answer e.1) := by
      refine Prod.ext rfl ?_
      rw [hanswered P e Q rfl, Interleaved.answer, hcells]
      rfl
    have hcan : s.CanEnter e.1 := canEnter_of_answered hidle.appending hfresh (by rw [← hanswer]; simp)
    obtain ⟨hentered, hidle'⟩ := idle_entry now h hidle hcan
    rw [← hanswer] at hentered
    rw [List.append_cons] at hanswered hfresh ⊢
    exact ih hanswered hfresh hentered hidle'

/-- any calls before the claim, whether their ids are free or not -/
theorem serial_before_any (now : UnixTs) (calls : List IntakeCall) (h : Linearized call W₀ keys₀ P [] s)
    (hidle : Idle s) : ∃ P', Linearized call W₀ keys₀ P' [] ((interleaving call).run s (oneByOne calls now)) ∧
      Idle ((interleaving call).run s (oneByOne calls now)) := by
  induction calls generalizing P s with
  | nil => exact ⟨P, h, hidle⟩
  | cons intake calls ih =>
    by_cases hcan : s.CanEnter intake
    · obtain ⟨hentered, hidle'⟩ := idle_entry now h hidle hcan
      exact ih hentered hidle'
    · have hrefused : s.enterTurn intake = s := if_neg hcan
      obtain ⟨happending, hclaim, hlate⟩ := appendTurn_calm s now
      have hsame : (interleaving call).run s [.enter intake, .append now] = s.appendTurn now := by
        change (s.enterTurn intake).appendTurn now = _
        rw [hrefused]
      rw [oneByOne, List.flatMap_cons, Machine.run_append, hsame]
      exact ih (linearized_append h now) ⟨hclaim.trans hidle.claim, happending, hlate.trans hidle.late⟩

/-- **The calls after the claim, one after the other.** -/
theorem serial_after (now : UnixTs) {reached : List UUID} {outcome : Except TaskError (Option ClaimedRun)}
    {Q : List Answer}
    (hanswered : intakeCalls.Answered
      (staged (ClaimTask.stage call (.finished reached outcome)) (intakeCalls.after W₀ P)) (F ++ Q))
    (hfresh : Fresh (F ++ Q)) (h : Linearized call W₀ keys₀ P F s) (hclaim : s.claim = .finished reached outcome)
    (hcalm : s.appending = none) :
    Linearized call W₀ keys₀ P (F ++ Q) ((interleaving call).run s (oneByOne (Q.map Prod.fst) now)) ∧
      ((interleaving call).run s (oneByOne (Q.map Prod.fst) now)).claim = .finished reached outcome ∧
      ((interleaving call).run s (oneByOne (Q.map Prod.fst) now)).appending = none := by
  induction Q generalizing F s with
  | nil =>
    rw [List.append_nil]
    exact ⟨h, hclaim, hcalm⟩
  | cons e Q ih =>
    have hcells := h.ordered.cells
    rw [hclaim] at hcells
    have hanswer : e = (e.1, s.answer e.1) := by
      refine Prod.ext rfl ?_
      rw [hanswered F e Q rfl, Interleaved.answer, hcells]
      rfl
    have hcan : s.CanEnter e.1 := canEnter_of_answered hcalm hfresh (by rw [← hanswer]; simp)
    have hsettled : s.claim.Settled e.1.runId := by
      rw [hclaim]
      exact Or.inl trivial
    have hentered := linearized_append (linearized_after h (orderly_finished hclaim e.1) hcan (Or.inr hsettled)) now
    rw [← hanswer] at hentered
    obtain ⟨happending, hsame, -⟩ := appendTurn_calm (s.enterTurn e.1) now
    rw [List.append_cons] at hanswered hfresh ⊢
    exact ih hanswered hfresh hentered (hsame.trans ((entered hcan).claim.trans hclaim)) happending

/-- a turn of the claim that no call waits beside -/
theorem calm_turn (now : UnixTs) (h : Linearized call W₀ keys₀ P F s) (hcalm : s.appending = none)
    (hlate : s.late = []) :
    Linearized call W₀ keys₀ P F (s.claimTurn call now) ∧ (s.claimTurn call now).late = [] := by
  have horderly : s.Orderly call (.claim now) :=
    ⟨fun r _ _ => by rw [hlate]; exact List.not_mem_nil, fun r _ p hp => by rw [hcalm] at hp; cases hp⟩
  obtain ⟨P', F', h', hsame⟩ := linearized_claim h horderly
  obtain ⟨rfl, rfl⟩ := hsame hcalm
  exact ⟨h', by simp [Interleaved.claimTurn, hcalm, hlate]⟩

/-- **The claim alone comes to its end.** -/
theorem claim_alone (now : UnixTs) (h : Linearized call W₀ keys₀ P F s) (hcalm : s.appending = none)
    (hlate : s.late = []) :
    ∃ n, Linearized call W₀ keys₀ P F ((interleaving call).run s (List.replicate n (.claim now))) ∧
      ((interleaving call).run s (List.replicate n (.claim now))).claim.outcome?.isSome = true ∧
      ((interleaving call).run s (List.replicate n (.claim now))).appending = none := by
  induction hrank : s.claim.rank using WellFoundedLT.induction generalizing s with
  | ind rank ih =>
    cases houtcome : s.claim.outcome? with
    | some outcome => exact ⟨0, h, by simp [houtcome], hcalm⟩
    | none =>
      have hstep : ClaimStep call now s.runtime s.claim (call.resume now s.runtime s.claim) :=
        resume_spec h.steady.counted h.steady.placed now
      obtain ⟨h', hlate'⟩ := calm_turn now h hcalm hlate
      obtain ⟨n, hn⟩ := ih _ (hrank ▸ hstep.rank houtcome) h' hcalm hlate' rfl
      exact ⟨n + 1, hn⟩

/-! ## The serial run ends as the orderly one -/

/-- the first element with a property is determined -/
theorem first_unique {α : Type} {p : α → Prop} {l m s t : List α} {a b : α} (h : l ++ a :: s = m ++ b :: t)
    (hl : ∀ x ∈ l, ¬ p x) (ha : p a) (hm : ∀ x ∈ m, ¬ p x) (hb : p b) : l = m ∧ a = b := by
  induction l generalizing m with
  | nil =>
    cases m with
    | nil => exact ⟨rfl, (List.cons.inj h).1⟩
    | cons y m =>
      obtain ⟨rfl, -⟩ := List.cons.inj h
      exact absurd ha (hm a (by simp))
  | cons x l ih =>
    cases m with
    | nil =>
      obtain ⟨rfl, -⟩ := List.cons.inj h
      exact absurd hb (hl x (by simp))
    | cons y m =>
      obtain ⟨rfl, htail⟩ := List.cons.inj h
      obtain ⟨rfl, rfl⟩ := ih htail (fun z hz => hl z (by simp [hz])) fun z hz => hm z (by simp [hz])
      exact ⟨rfl, rfl⟩

/-- **How the claim ends is determined by the calls before it.** -/
theorem finished_unique {W : UUID → Cell} {keys reached reached' : List UUID}
    {outcome outcome' : Except TaskError (Option ClaimedRun)}
    (h : ClaimTask.Position call W keys (.finished reached outcome))
    (h' : ClaimTask.Position call W keys (.finished reached' outcome')) : reached = reached' ∧ outcome = outcome' := by
  have hpicked : ∀ {r : UUID} {reached : List UUID}, call.Picks W keys r reached → (∀ q ∈ keys, ¬ call.Runnable W q) →
      False := by
    rintro r reached ⟨hrunnable, before, rest, -, rfl, -⟩ hnone
    exact hnone r (by simp) hrunnable
  rcases outcome with e | (_ | claimed)
  · exact h.elim
  · rcases outcome' with e | (_ | claimed')
    · exact h'.elim
    · exact ⟨h.1.trans h'.1.symm, rfl⟩
    · exact (hpicked h'.1 h.2).elim
  · rcases outcome' with e | (_ | claimed')
    · exact h'.elim
    · exact (hpicked h.1 h'.2).elim
    · obtain ⟨⟨hrunnable, before, rest, rfl, hkeys, hbefore⟩, st, hst, hclaimed⟩ := h
      obtain ⟨⟨hrunnable', before', rest', rfl, hkeys', hbefore'⟩, st', hst', hclaimed'⟩ := h'
      obtain ⟨rfl, hid⟩ := first_unique (hkeys.symm.trans hkeys') hbefore hrunnable hbefore' hrunnable'
      rw [hid] at hst hclaimed
      obtain rfl := Option.some.inj (hst.symm.trans hst')
      exact ⟨by rw [hid], by rw [hclaimed, hclaimed']⟩

theorem finished_of_outcome {task : ClaimTask} (h : task.outcome?.isSome = true) :
    ∃ reached outcome, task = .finished reached outcome := by
  cases task with
  | finished reached outcome => exact ⟨reached, outcome, rfl⟩
  | _ => cases h

theorem cells_of_calm (hcalm : s.appending = none) (r : UUID) :
    s.cells r = (s.runtime.record? r, s.runtime.notes r) := by
  simp [Interleaved.cells, Interleaved.waiting, hcalm]

theorem serialTurns_eq (before after : List IntakeCall) (n : ℕ) (now : UnixTs) :
    serialTurns before after n now =
      oneByOne before now ++ (List.replicate n (.claim now) ++ oneByOne after now) := rfl

theorem serializable_of_linearized {rt : InMemoryRuntime} (hcounted : Counted rt) {turns : List StoreTurn}
    (h : Linearized call rt.cell rt.keys P F ((interleaving call).run (.start rt) turns))
    (hcomplete : ((interleaving call).run (.start rt) turns).Complete) : Serializable call rt turns := by
  generalize hrun : (interleaving call).run (.start rt) turns = s at h hcomplete
  obtain ⟨hdone, hcalm⟩ := hcomplete
  obtain ⟨reached, outcome, hclaim⟩ := finished_of_outcome hdone
  have hordered := h.ordered
  have hposition := h.position
  rw [hclaim] at hordered hposition
  have hfresh : Fresh P := fun r userId answer hmem => hordered.fresh r userId answer (List.mem_append_left _ hmem)
  have hfresh' : Fresh F := fun r userId answer hmem => hordered.fresh r userId answer (List.mem_append_right _ hmem)
  -- the calls before the claim
  have hinit : Linearized call rt.cell rt.keys [] [] (.start rt) := linearized_init hcounted
  obtain ⟨h₁, hidle⟩ := serial_before 0 (P := []) hordered.before hfresh hinit ⟨rfl, rfl, rfl⟩
  -- the claim
  obtain ⟨n, h₂, hdone', hcalm₂⟩ := claim_alone 0 h₁ hidle.appending hidle.late
  obtain ⟨reached', outcome', hclaim'⟩ := finished_of_outcome hdone'
  have hposition' := h₂.position
  rw [hclaim'] at hposition'
  obtain ⟨rfl, rfl⟩ := finished_unique hposition hposition'
  -- the calls after it
  obtain ⟨h₃, hclaim₃, hcalm₃⟩ := serial_after 0 (F := []) hordered.after hfresh' h₂ hclaim' hcalm₂
  refine ⟨P.map Prod.fst, F.map Prod.fst, n, 0, ?_⟩
  simp only [serialTurns_eq, Machine.run_append, hrun]
  simp only [List.nil_append] at h₃
  generalize (interleaving call).run _ (oneByOne (F.map Prod.fst) 0) = s' at h₃ hclaim₃ hcalm₃ ⊢
  have hordered' := h₃.ordered
  rw [hclaim₃] at hordered'
  have hcells : s'.cells = s.cells := hordered'.cells.trans hordered.cells.symm
  refine ⟨⟨by rw [hclaim₃]; rfl, hcalm₃⟩, hordered'.answers.trans hordered.answers.symm, by rw [hclaim₃, hclaim],
    fun r => ?_⟩
  have hcell := congrFun hcells r
  rw [cells_of_calm hcalm₃, cells_of_calm hcalm] at hcell
  exact Prod.mk.inj hcell

/-! ## What no serial run does -/

/-- the claim alone, cut off anywhere -/
theorem calm_turns (now : UnixTs) (n : ℕ) (h : Linearized call W₀ keys₀ P F s) (hcalm : s.appending = none)
    (hlate : s.late = []) :
    Linearized call W₀ keys₀ P F ((interleaving call).run s (List.replicate n (.claim now))) := by
  induction n generalizing s with
  | zero => exact h
  | succ n ih =>
    obtain ⟨h', hlate'⟩ := calm_turn now h hcalm hlate
    exact ih h' hcalm hlate'

/-- intake calls leave the claim where it stands -/
theorem oneByOne_claim (calls : List IntakeCall) (now : UnixTs) (s : Interleaved) :
    ((interleaving call).run s (oneByOne calls now)).claim = s.claim := by
  induction calls generalizing s with
  | nil => rfl
  | cons intake calls ih =>
    have henter : (s.enterTurn intake).claim = s.claim := by
      have hstep := enterTurn_spec s intake
      generalize s.enterTurn intake = s' at hstep
      cases hstep <;> rfl
    rw [oneByOne, List.flatMap_cons, Machine.run_append]
    refine (ih _).trans ?_
    exact (appendTurn_calm (s.enterTurn intake) now).2.1.trans henter

/-- **In no serial order does the claim raise.** -/
theorem serial_never_raises {rt : InMemoryRuntime} (hcounted : Counted rt) (before after : List IntakeCall) (n : ℕ)
    (now : UnixTs) : ((interleaving call).run (.start rt) (serialTurns before after n now)).claim.raised? = none := by
  have hinit : Linearized call rt.cell rt.keys [] [] (.start rt) := linearized_init hcounted
  obtain ⟨P, h₁, hidle⟩ := serial_before_any now before hinit ⟨rfl, rfl, rfl⟩
  have h₂ := calm_turns now n h₁ hidle.appending hidle.late
  rw [serialTurns_eq, Machine.run_append, Machine.run_append, oneByOne_claim]
  have hposition := h₂.position
  generalize ((interleaving call).run _ (List.replicate n (.claim now))).claim = task at hposition
  cases task with
  | finished reached outcome =>
    cases outcome with
    | error e => exact hposition.elim
    | ok claimed => rfl
  | _ => rfl

end Runs

/-! ## The condition -/

theorem counted_reachable (ops : List StoreOp) : Counted (stores.run createDefaultInMemoryRuntime ops) := by
  intro r st hst
  obtain ⟨n, hn⟩ := (reachable_storeInvariant ops).retries r st hst
  exact ⟨n, hn⟩

/-- **Over a log that never suspends, the turns of the task are the `claim_run` of the stores.** -/
theorem claimRun_alone (ops : List StoreOp) (workerId : String) (now : UnixTs) :
    ∃ reached result rt', (claimRun workerId now).run (stores.run createDefaultInMemoryRuntime ops) = .ok result rt' ∧
      ComesTo ⟨workerId, fun _ => now, fun _ => now⟩ now (.idle, stores.run createDefaultInMemoryRuntime ops)
        (.finished reached (.ok result), rt') := by
  obtain ⟨result, rt', hrun, -⟩ := claimRun_spec workerId now (reachable_good ops)
  let call : ClaimCall := ⟨workerId, fun _ => now, fun _ => now⟩
  have hlease : ∀ r, call.leaseClock r = now := fun _ => rfl
  have hclaim : ∀ r, call.claimClock r = now := fun _ => rfl
  obtain ⟨reached, hturns⟩ :=
    claimRun_atOnce hlease hclaim (reachable_storeInvariant ops).stream (counted_reachable ops) hrun
  exact ⟨reached, result, rt', hrun, hturns⟩

/-- **Orderly runs are serializable.** On any memory the stores can reach, a `claim_run` and any intake calls,
interleaved at their appends in orderly turns, end as in a serial order of the same calls. -/
theorem orderly_serializable (ops : List StoreOp) (call : ClaimCall) (turns : List StoreTurn)
    (horderly : (interleaving call).Along (Interleaved.Orderly call)
      (.start (stores.run createDefaultInMemoryRuntime ops)) turns)
    (hcomplete : ((interleaving call).run (.start (stores.run createDefaultInMemoryRuntime ops)) turns).Complete) :
    Serializable call (stores.run createDefaultInMemoryRuntime ops) turns := by
  obtain ⟨P, F, h⟩ := linearized_run (counted_reachable ops) horderly
  exact serializable_of_linearized (counted_reachable ops) h hcomplete

/-- a `create_run` while the claimed run's event is on its way -/
theorem orderly_serializable_claiming :
    Serializable ⟨"w1", fun _ => 20, fun _ => 20⟩
      (stores.run createDefaultInMemoryRuntime [.createRun 1 "user_1" 10, .markEnqueued 1 10])
      [.claim 20, .enter (.createRun 2 "user_1"), .claim 20, .append 20, .claim 20] :=
  orderly_serializable _ _ _ (by decide +kernel) (by decide +kernel)

/-- what the claim raised is part of what a serial order has to give -/
theorem Serializable.raised {call : ClaimCall} {rt : InMemoryRuntime} {turns : List StoreTurn}
    (h : Serializable call rt turns) (hcounted : Counted rt) :
    ((interleaving call).run (.start rt) turns).claim.raised? = none := by
  obtain ⟨before, after, n, now, -, -, houtcome, -⟩ := h
  rw [← serial_never_raises hcounted before after n now, ClaimTask.raised?, ClaimTask.raised?, houtcome]

/-- **A new run during an append inside the claim's loops.** The lease of run 1 has run out; while its event is on its
way, run 2 is created, and the claim's loop over the dictionary raises. -/
theorem insertion_breaks :
    ((interleaving ⟨"w2", fun _ => seconds 60, fun _ => seconds 60⟩).run
      (.start (stores.run createDefaultInMemoryRuntime
        [.createRun 1 "user_1" 10, .markEnqueued 1 10, .claimRun "w1" 20]))
      [.claim 30, .enter (.createRun 2 "user_1"), .append 30, .claim 30, .claim 30]).Complete ∧
    ¬ Serializable ⟨"w2", fun _ => seconds 60, fun _ => seconds 60⟩
      (stores.run createDefaultInMemoryRuntime [.createRun 1 "user_1" 10, .markEnqueued 1 10, .claimRun "w1" 20])
      [.claim 30, .enter (.createRun 2 "user_1"), .append 30, .claim 30, .claim 30] := by
  refine ⟨by decide +kernel, fun h => ?_⟩
  have hraised := h.raised (counted_reachable _)
  revert hraised
  decide +kernel

end LlmAgent
