/-
The intake calls in the serial order.

- `entered`: what an intake call that enters does to the cells, the answers and the keys;
- `linearized_before`: on a run that the claim has not decided about, it is the last call before the claim;
- `linearized_after`: on any other run, it is the last call after the claim;
- `linearized_append`: its event reaches the log.
-/
import LlmAgent.Runs.SerialTurns

namespace LlmAgent

open Core

/-! ## Entering -/

/-- what an intake call answers in the present state -/
def Interleaved.answer (s : Interleaved) (intake : IntakeCall) : Except PyError IntakeReply :=
  (intakeCalls.exec intake (s.cells intake.runId)).1

/-- the call has entered: its operation is done on the cell of its run -/
structure Entry (s : Interleaved) (intake : IntakeCall) (s' : Interleaved) : Prop where
  claim : s'.claim = s.claim
  expired : s'.expired = s.expired
  cells : s'.cells = intakeCalls.act s.cells intake
  answers : s'.answers = s.answers ++ [(intake, s.answer intake)]
  keys : s'.runtime.keys = s.runtime.keys ++ createdBy [(intake, s.answer intake)]
  pending : ∀ r note, s'.appending = some (r, note) → r = intake.runId ∧
    ∃ st, intake.decision (s.cells intake.runId).1 = (s.answer intake, some (st, note))
  late : ∀ r, r ∈ s.late → r ∈ s'.late
  /-- a call that changes its run is late when the claim has expired the run -/
  changes : (s.Changes intake ∧ (intake.runId ∈ s.expired → intake.runId ∈ s'.late) ∧
    ∃ reply st note, intake.decision (s.cells intake.runId).1 = (.ok reply, some (st, note))) ∨
    (intake.decision (s.cells intake.runId).1).2 = none

/-- a `create_run` enters only with a free id -/
theorem free_of_canEnter {s : Interleaved} {r : UUID} {userId : String} (hcan : s.CanEnter (.createRun r userId)) :
    s.runtime.record? r = none := (Dict.get?_eq_none _ _).2 (hcan.2 r userId rfl)

/-- and then it writes a record -/
theorem changes_of_create {s : Interleaved} {r : UUID} {userId : String} (hcan : s.CanEnter (.createRun r userId)) :
    ((IntakeCall.createRun r userId).decision (s.cells r).1).2 ≠ none := by
  change ((IntakeCall.createRun r userId).decision (s.runtime.record? r)).2 ≠ none
  rw [free_of_canEnter hcan]
  simp [IntakeCall.decision]

/-- a call without a change creates nothing -/
theorem createdBy_of_kept {s : Interleaved} {intake : IntakeCall} (hcan : s.CanEnter intake)
    (h : (intake.decision (s.cells intake.runId).1).2 = none) (answer : Except PyError IntakeReply) :
    createdBy [(intake, answer)] = [] := by
  cases intake with
  | createRun r userId => exact absurd h (changes_of_create hcan)
  | markCancelled => rfl
  | requestCancellation => rfl

/-- a call with a change adds the key that it creates -/
theorem keys_changed {s : Interleaved} {intake : IntakeCall} (hcan : s.CanEnter intake) {st : RunStatus} {note : Note}
    (hchanged : Changed intake (s.runtime.record? intake.runId) st note) {rt' : InMemoryRuntime}
    (hwrote : Wrote s.runtime rt' intake.runId st) (answer : Except PyError IntakeReply) :
    rt'.keys = s.runtime.keys ++ createdBy [(intake, answer)] := by
  rw [hwrote.keys]
  generalize hfound : s.runtime.record? intake.runId = record at hchanged
  cases hchanged with
  | create r userId =>
    have hnew : r ∉ s.runtime.internalRunStorage := hcan.2 r userId rfl
    simp [IntakeCall.runId, hnew, createdBy]
  | mark r old =>
    have hold : r ∈ s.runtime.internalRunStorage := mem_keys_iff.2 ⟨old, hfound⟩
    simp [IntakeCall.runId, hold, createdBy]
  | request r old =>
    have hold : r ∈ s.runtime.internalRunStorage := mem_keys_iff.2 ⟨old, hfound⟩
    simp [IntakeCall.runId, hold, createdBy]

/-- a call with a change is done on its cell as soon as it has entered: the event that still waits counts as appended -/
theorem cells_entered {s : Interleaved} {intake : IntakeCall} (hcan : s.CanEnter intake) {reply : IntakeReply}
    {st : RunStatus} {note : Note}
    (hdecision : intake.decision (s.runtime.record? intake.runId) = (.ok reply, some (st, note)))
    {rt' : InMemoryRuntime} (hwrote : Wrote s.runtime rt' intake.runId st) (answers : List Answer) (late : List UUID) :
    Interleaved.cells { s with
      runtime := rt'
      appending := some (intake.runId, note)
      answers := answers
      late := late } = intakeCalls.act s.cells intake := by
  have hwaiting : ∀ q, s.waiting q = [] := fun q => waiting_of_ne fun n => by rw [hcan.1]; rintro ⟨⟩
  have hexec : (intakeCalls.exec intake (s.cells intake.runId)).2 =
      (some st, s.runtime.notes intake.runId ++ [note]) := by
    change Cell.write _ (intake.decision (s.runtime.record? intake.runId)).2 = _
    rw [hdecision]
    simp [Cell.write, Interleaved.cells, hwaiting]
  funext q
  by_cases hq : intake.runId = q
  · subst hq
    have hself := intakeCalls.act_self s.cells intake
    change intakeCalls.act s.cells intake intake.runId = (intakeCalls.exec intake (s.cells intake.runId)).2 at hself
    rw [hself, hexec]
    simp [Interleaved.cells, hwrote.record, hwrote.notes, Interleaved.waiting, Option.filter]
  · rw [intakeCalls.act_other hq]
    simp only [Interleaved.cells, hwrote.record, hwrote.notes, Function.update_of_ne (Ne.symm hq), hwaiting]
    simp [Interleaved.waiting, Option.filter, hq]

theorem entered {s : Interleaved} {intake : IntakeCall} (hcan : s.CanEnter intake) :
    Entry s intake (s.enterTurn intake) := by
  have hstep := enterTurn_spec s intake
  generalize s.enterTurn intake = s' at hstep
  cases hstep with
  | refused h => exact absurd hcan h
  | kept _ answer hdecision =>
    have hanswer : s.answer intake = answer := congrArg Prod.fst hdecision
    have hexec : intakeCalls.exec intake (s.cells intake.runId) = (answer, s.cells intake.runId) := by
      change ((intake.decision (s.runtime.record? intake.runId)).1, Cell.write _
        (intake.decision (s.runtime.record? intake.runId)).2) = _
      rw [hdecision]
      rfl
    have hnone : (intake.decision (s.cells intake.runId).1).2 = none := congrArg Prod.snd hdecision
    refine ⟨rfl, rfl, ?_, by rw [hanswer], ?_, fun r note hpending => ?_, fun r hr => hr, Or.inr hnone⟩
    · have hkey : intakeCalls.key intake = intake.runId := rfl
      rw [Keyed.act, hkey, hexec, Function.update_eq_self]
      rfl
    · rw [createdBy_of_kept hcan hnone, List.append_nil]
    · rw [hcan.1] at hpending
      cases hpending
  | changed hchanges reply st note rt' hdecision hwrote =>
    have hanswer : s.answer intake = .ok reply := congrArg Prod.fst hdecision
    refine ⟨rfl, rfl, cells_entered hcan hdecision hwrote _ _, by rw [hanswer],
      keys_changed hcan (decision_changed hdecision) hwrote _, fun r n hpending => ?_,
      fun r hr => List.mem_append_left _ hr, Or.inl ⟨hchanges, fun hmem => ?_, reply, st, note, hdecision⟩⟩
    · obtain ⟨rfl, rfl⟩ := Prod.mk.inj (Option.some.inj hpending)
      exact ⟨rfl, st, by rw [hanswer]; exact hdecision⟩
    · simp [hmem]

/-! ## Before the claim -/

section Entries

variable {call : ClaimCall} {W₀ : UUID → Cell} {keys₀ : List UUID} {P F : List Answer} {s : Interleaved}
  {intake : IntakeCall}

/-- no intake call makes a run overdue -/
theorem overdue_exec {q : UUID} {cell : Cell} (h : call.overdue q (intakeCalls.exec intake cell).2.1 = true) :
    call.overdue q cell.1 = true := by
  change call.overdue q (Cell.write cell (intake.decision cell.1).2).1 = true at h
  generalize hdecision : intake.decision cell.1 = decided at h
  obtain ⟨answer, change⟩ := decided
  cases change with
  | none => exact h
  | some p => exact ((decision_changed hdecision).overdue h).2

/-- what the task has not decided about is as the calls before have left it -/
theorem stage_of_unmoved {task : ClaimTask} {rt : InMemoryRuntime} (hplaced : task.Placed rt) {r : UUID} {cell : Cell}
    (hsettled : ¬ task.Settled r) (hexamined : task.Examined r → call.overdue r cell.1 = false)
    (hlogged : ∀ st rest size, task ≠ .expiring r st rest size true) : task.stage call r cell = cell := by
  rw [ClaimTask.Settled, not_or] at hsettled
  cases task with
  | idle => rfl
  | expiring r₀ st rest size appended =>
    by_cases hr : r = r₀
    · subst hr
      cases appended with
      | false => simp [ClaimTask.stage, Cell.logIf]
      | true => exact absurd rfl (hlogged st rest size)
    · by_cases hrest : r ∈ rest
      · simp [ClaimTask.stage, hr, ClaimCall.firstStage, hrest]
      · have hover := hexamined ⟨hrest, fun h => absurd h hr⟩
        simp [ClaimTask.stage, hr, ClaimCall.firstStage, hrest, recoverCell_of_not_overdue hover]
  | cancelling r₀ reached rest size appended =>
    have hreached : r ∉ reached := hsettled.2
    have hr : r ≠ r₀ := by
      rintro rfl
      exact hreached hplaced.2.1
    have hover := hexamined trivial
    simp [ClaimTask.stage, hr, ClaimCall.secondStage, hreached, recoverCell_of_not_overdue hover]
  | claiming => exact absurd trivial hsettled.1
  | finished => exact absurd trivial hsettled.1

/-- inside its loops no orderly call adds a key -/
theorem createdBy_of_iterating (horderly : s.Orderly call (.enter intake)) (hcan : s.CanEnter intake)
    (hiterating : s.claim.Iterating) : createdBy [(intake, s.answer intake)] = [] := by
  cases intake with
  | createRun r userId =>
    rcases (entered hcan).changes with ⟨hchanges, -⟩ | hnone
    · exact absurd hiterating (horderly hchanges)
    · exact absurd hnone (changes_of_create hcan)
  | markCancelled => rfl
  | requestCancellation => rfl

/-- an orderly call on the run that is being expired keeps its lease run out -/
theorem overdue_entered (horderly : s.Orderly call (.enter intake)) (hcan : s.CanEnter intake)
    (hexpiring : s.claim.Expiring intake.runId)
    (hoverdue : call.overdue intake.runId (s.cells intake.runId).1 = true) :
    call.overdue intake.runId (Cell.write (s.cells intake.runId) (intake.decision (s.cells intake.runId).1).2).1 =
      true := by
  rcases (entered hcan).changes with ⟨hchanges, -, reply, st, note, hdecision⟩ | hnone
  · have hclear := horderly hchanges
    rw [hdecision]
    have hchanged := decision_changed hdecision
    generalize (s.cells intake.runId).1 = record at hchanged hoverdue
    cases hchanged with
    | create =>
      refine absurd ?_ hclear
      generalize s.claim = task at hexpiring
      cases task with
      | expiring => exact trivial
      | _ => exact hexpiring.elim
    | mark => exact absurd hexpiring hclear.1
    | request => exact hoverdue
  · rw [hnone]
    exact hoverdue

/-- an orderly call on a run that the claim has not decided about leaves the claim where it stands -/
theorem position_before (h : Linearized call W₀ keys₀ P F s) (horderly : s.Orderly call (.enter intake))
    (hcan : s.CanEnter intake) (hsettled : ¬ s.claim.Settled intake.runId)
    (hcell : s.cells intake.runId = intakeCalls.after W₀ P intake.runId) :
    s.claim.Position call (intakeCalls.act (intakeCalls.after W₀ P) intake)
      (keys₀ ++ createdBy (P ++ [(intake, s.answer intake)])) := by
  have hposition := h.position
  have hother : ∀ q, q ≠ intake.runId →
      intakeCalls.act (intakeCalls.after W₀ P) intake q = intakeCalls.after W₀ P q :=
    fun q hq => intakeCalls.act_other (Ne.symm hq)
  have hcreated := createdBy_of_iterating horderly hcan
  have happend : createdBy (P ++ [(intake, s.answer intake)]) =
      createdBy P ++ createdBy [(intake, s.answer intake)] := List.filterMap_append
  generalize htask : s.claim = task at hposition hsettled hcreated
  rw [ClaimTask.Settled, not_or] at hsettled
  cases task with
  | idle => trivial
  | expiring r₀ st rest size appended =>
    change call.overdue r₀ _ = true
    by_cases hr : r₀ = intake.runId
    · subst hr
      have hself := intakeCalls.act_self (intakeCalls.after W₀ P) intake
      change intakeCalls.act _ intake intake.runId = (intakeCalls.exec intake (intakeCalls.after W₀ P intake.runId)).2
        at hself
      rw [hself, ← hcell]
      change call.overdue intake.runId (intakeCalls.after W₀ P intake.runId).1 = true at hposition
      rw [← hcell] at hposition
      exact overdue_entered horderly hcan (by rw [htask]; rfl) hposition
    · rw [hother r₀ hr]
      exact hposition
  | cancelling r₀ reached rest size appended =>
    have hreached : intake.runId ∉ reached := hsettled.2
    obtain ⟨hkeys, hpassed, hqueued⟩ := hposition
    have hstored : ∀ q ∈ reached, call.stored (intakeCalls.act (intakeCalls.after W₀ P) intake) q =
        call.stored (intakeCalls.after W₀ P) q := by
      intro q hq
      rw [ClaimCall.stored, hother q (by rintro rfl; exact hreached hq), ClaimCall.stored]
    have hplaced := h.steady.placed
    rw [htask] at hplaced
    refine ⟨by rw [happend, hcreated trivial, List.append_nil, hkeys], fun q hq => ?_, ?_⟩
    · rw [ClaimCall.Runnable, hstored q hq]
      exact hpassed q hq
    · rw [hstored r₀ hplaced.2.1]
      exact hqueued
  | claiming => exact absurd trivial hsettled.1
  | finished => exact absurd trivial hsettled.1

/-- an answered `create_run` has found its id free -/
theorem answer_create (hcan : s.CanEnter intake) {r : UUID} {userId : String} (h : intake = .createRun r userId) :
    ∃ reply, s.answer intake = .ok reply := by
  subst h
  have hfound := free_of_canEnter hcan
  refine ⟨.status (createdRecord r), ?_⟩
  change ((IntakeCall.createRun r userId).decision (s.runtime.record? r)).1 = _
  rw [hfound]
  rfl

theorem fresh_append {L L' : List Answer} (hcan : s.CanEnter intake)
    (h : ∀ r userId answer, (IntakeCall.createRun r userId, answer) ∈ L → ∃ reply, answer = .ok reply)
    (hmem : ∀ e, e ∈ L' → e ∈ L ∨ e = (intake, s.answer intake)) (r : UUID) (userId : String)
    (answer : Except PyError IntakeReply) (ha : (IntakeCall.createRun r userId, answer) ∈ L') :
    ∃ reply, answer = .ok reply := by
  rcases hmem _ ha with ha | ha
  · exact h r userId answer ha
  · obtain ⟨hintake, rfl⟩ := Prod.mk.inj ha
    exact answer_create hcan hintake.symm

/-- what the calls after the claim and the claim itself have left of the run of `intake`: nothing is done to it yet -/
structure Unmoved (call : ClaimCall) (W : UUID → Cell) (F : List Answer) (s : Interleaved) (intake : IntakeCall) :
    Prop where
  untouched : ∀ e ∈ F, e.1.runId ≠ intake.runId
  /-- nor would the claim have done anything to it after the call -/
  examined : s.claim.Examined intake.runId →
    call.overdue intake.runId (intakeCalls.act W intake intake.runId).1 = false
  stage : s.claim.stage call intake.runId (W intake.runId) = W intake.runId
  stage_act : s.claim.stage call intake.runId (intakeCalls.act W intake intake.runId) =
    intakeCalls.act W intake intake.runId
  cell : s.cells intake.runId = W intake.runId

/-- the event of the expiry that is under way is not written yet when the run is not counted as expired -/
theorem not_logged (h : Linearized call W₀ keys₀ P F s) {r : UUID} (hunexpired : r ∉ s.expired) (st : RunStatus)
    (rest : List UUID) (size : ℕ) : s.claim ≠ .expiring r st rest size true := by
  intro htask
  have hposition := h.position
  have hplaced := h.steady.placed
  rw [htask] at hposition hplaced
  obtain ⟨⟨before, hkeys⟩, -⟩ := hplaced
  have hnodup := s.runtime.internalRunStorage.keys_nodup
  rw [show s.runtime.internalRunStorage.keys = before ++ r :: rest from hkeys, List.nodup_append] at hnodup
  refine hunexpired ((h.ordered.expired _).2 ⟨hposition, ?_⟩)
  rw [htask]
  exact ⟨(List.nodup_cons.1 hnodup.2.1).1, fun _ => rfl⟩

theorem unmoved (h : Linearized call W₀ keys₀ P F s) (hunexpired : intake.runId ∉ s.expired)
    (hsettled : ¬ s.claim.Settled intake.runId) : Unmoved call (intakeCalls.after W₀ P) F s intake := by
  have hself : intakeCalls.act (intakeCalls.after W₀ P) intake intake.runId =
      (intakeCalls.exec intake (intakeCalls.after W₀ P intake.runId)).2 := intakeCalls.act_self _ intake
  have huntouched : ∀ e ∈ F, e.1.runId ≠ intake.runId := by
    intro e he hr
    rcases h.ordered.moved e he with hmem | hmem
    · exact hunexpired (hr ▸ hmem)
    · exact hsettled (hr ▸ hmem)
  have hexamined : s.claim.Examined intake.runId →
      call.overdue intake.runId (intakeCalls.after W₀ P intake.runId).1 = false := by
    intro hex
    refine Bool.eq_false_of_not_eq_true fun hover => hunexpired ?_
    exact (h.ordered.expired _).2 ⟨hover, hex⟩
  have hexamined' : s.claim.Examined intake.runId →
      call.overdue intake.runId (intakeCalls.act (intakeCalls.after W₀ P) intake intake.runId).1 = false := by
    intro hex
    refine Bool.eq_false_of_not_eq_true fun hover => ?_
    rw [hself] at hover
    rw [overdue_exec hover] at hexamined
    cases hexamined hex
  have hstage := stage_of_unmoved h.steady.placed hsettled hexamined (not_logged h hunexpired)
  exact ⟨huntouched, hexamined', hstage,
    stage_of_unmoved h.steady.placed hsettled hexamined' (not_logged h hunexpired),
    (h.ordered.cell_untouched huntouched).trans hstage⟩

/-- the operation passes the claim's deeds -/
theorem Unmoved.staged_act {W : UUID → Cell} (h : Unmoved call W F s intake) :
    staged (s.claim.stage call) (intakeCalls.act W intake) =
      intakeCalls.act (staged (s.claim.stage call) W) intake := by
  funext q
  by_cases hq : intake.runId = q
  · subst hq
    have hself : intakeCalls.act W intake intake.runId = (intakeCalls.exec intake (W intake.runId)).2 :=
      intakeCalls.act_self _ intake
    have hact := intakeCalls.act_self (staged (s.claim.stage call) W) intake
    change intakeCalls.act _ intake intake.runId =
      (intakeCalls.exec intake (s.claim.stage call intake.runId (W intake.runId))).2 at hact
    rw [hact, h.stage, ← hself]
    exact h.stage_act
  · rw [intakeCalls.act_other hq, staged, intakeCalls.act_other hq, staged]

/-- **A call on a run that the claim has not decided about is the last one before the claim.** -/
theorem linearized_before (h : Linearized call W₀ keys₀ P F s) (horderly : s.Orderly call (.enter intake))
    (hcan : s.CanEnter intake) (hunexpired : intake.runId ∉ s.expired) (hsettled : ¬ s.claim.Settled intake.runId) :
    Linearized call W₀ keys₀ (P ++ [(intake, s.answer intake)]) F (s.enterTurn intake) := by
  have hsteady := steady_enter h.steady horderly
  have hentry := entered hcan
  have hordered := h.ordered
  have hunmoved := unmoved h hunexpired hsettled
  have hposition := position_before h horderly hcan hsettled hunmoved.cell
  have hafter : intakeCalls.after W₀ (P ++ [(intake, s.answer intake)]) =
      intakeCalls.act (intakeCalls.after W₀ P) intake := intakeCalls.after_snoc _ _ _
  -- the operation passes the calls after the claim
  obtain ⟨-, hcells, hanswered⟩ := intakeCalls.rebase (I := fun _ => True) (f := fun c => (intakeCalls.exec intake c).2)
    hordered.after (commutes_of_untouched hunmoved.untouched) trivial
  generalize s.enterTurn intake = s' at hentry hsteady
  refine ⟨⟨?_, ?_, ?_, ?_, ?_, fun q => ?_, fun e he => ?_, fun e he hs hlate => ?_, fun q note hq => ?_⟩, hsteady,
    fun hleft => ?_, ?_, fun e he => ?_, fun e he => ?_⟩
  · refine intakeCalls.answered_snoc.2 ⟨hordered.before, ?_⟩
    rw [Interleaved.answer, hunmoved.cell]
    rfl
  · rw [hentry.claim, hafter, hunmoved.staged_act]
    exact hanswered
  · rw [hentry.claim, hafter, hunmoved.staged_act, hentry.cells, hordered.cells]
    exact hcells.symm
  · rw [hentry.answers]
    refine (hordered.answers.append_right _).trans ?_
    rw [List.append_assoc, List.append_assoc]
    exact (List.perm_append_comm).append_left P
  · refine fresh_append hcan hordered.fresh ?_
    intro e he
    simp only [List.mem_append, List.mem_singleton] at he ⊢
    tauto
  · rw [hentry.expired, hentry.claim, hafter]
    by_cases hq : intake.runId = q
    · subst hq
      refine iff_of_false hunexpired ?_
      rintro ⟨hover, hex⟩
      rw [hunmoved.examined hex] at hover
      cases hover
    · rw [intakeCalls.act_other hq]
      exact hordered.expired q
  · rw [hentry.expired, hentry.claim]
    exact hordered.moved e he
  · rw [hentry.claim] at hs
    exact hordered.quiet e he hs fun hmem => hlate (hentry.late _ hmem)
  · obtain ⟨rfl, st, hdecision⟩ := hentry.pending q note hq
    rw [hunmoved.cell] at hdecision
    exact Or.inl ⟨P, _, st, rfl, rfl, hdecision⟩
  · rw [hentry.claim] at hleft
    rw [hentry.keys, h.keys hleft, List.append_assoc, createdBy, createdBy, createdBy, List.filterMap_append]
  · rw [hentry.claim, hafter]
    exact hposition
  · rw [hentry.claim]
    exact h.requests e he
  · rw [hentry.claim]
    exact h.untouched e he

/-! ## After the claim -/

/-- on a running or queued run only a repeated request changes nothing -/
theorem quiet_of_none {st : RunStatus} (hlive : st.status = .running ∨ st.status = .enqueued)
    (hcreate : ∀ r userId, intake ≠ .createRun r userId) (h : (intake.decision (some st)).2 = none) :
    (∃ r, intake = .requestCancellation r) ∧ (intake.decision (some st)).1 = .ok (.flag false) ∧
      st.cancelRequested = true := by
  have hterminal : st.status ∉ terminalRunStatuses := by rcases hlive with h | h <;> rw [h] <;> decide
  have hallowed : Allowed st.status .cancelled := by rcases hlive with h | h <;> rw [h] <;> decide
  cases intake with
  | createRun r userId => exact absurd rfl (hcreate r userId)
  | markCancelled r => simp [IntakeCall.decision, hterminal, hallowed] at h
  | requestCancellation r =>
    by_cases hflag : st.cancelRequested = true
    · exact ⟨⟨r, rfl⟩, by simp [IntakeCall.decision, hflag], hflag⟩
    · simp [IntakeCall.decision, hterminal, hflag] at h

/-- between the two decisions of the claim an expired run is running or queued -/
theorem live_of_expired {task : ClaimTask} {rt : InMemoryRuntime} (hplaced : task.Placed rt) {r : UUID} {cell : Cell}
    (hsettled : ¬ task.Settled r) (hexamined : task.Examined r) (hoverdue : call.overdue r cell.1 = true) :
    ∃ st, (task.stage call r cell).1 = some st ∧ (st.status = .running ∨ st.status = .enqueued) := by
  rw [ClaimTask.Settled, not_or] at hsettled
  obtain ⟨st, hst, hrunning, -⟩ := overdue_iff.1 hoverdue
  have hrecovered : (call.recoverCell r cell).1 = some ((Act.expire call.workerId 0).record st) := by
    rw [ClaimCall.recoverCell, if_pos hoverdue]
    simp [ClaimCall.expireCell, Cell.rewrite, Cell.log, hst]
  cases task with
  | idle => exact hexamined.elim
  | expiring r₀ st₀ rest size appended =>
    by_cases hr : r = r₀
    · refine ⟨st, ?_, Or.inl hrunning⟩
      simp [ClaimTask.stage, hr, Cell.logIf, hexamined.2 hr, Cell.log, hst]
    · refine ⟨(Act.expire call.workerId 0).record st, ?_, Or.inr rfl⟩
      simp only [ClaimTask.stage, hr, if_false, ClaimCall.firstStage, hexamined.1, hrecovered]
  | cancelling r₀ reached rest size appended =>
    have hreached : r ∉ reached := hsettled.2
    have hr : r ≠ r₀ := by
      rintro rfl
      exact hreached hplaced.2.1
    refine ⟨(Act.expire call.workerId 0).record st, ?_, Or.inr rfl⟩
    simp only [ClaimTask.stage, hr, if_false, ClaimCall.secondStage, hreached, hrecovered]
  | claiming => exact absurd trivial hsettled.1
  | finished => exact absurd trivial hsettled.1

theorem not_create_of_found (hcan : s.CanEnter intake) {st : RunStatus}
    (hfound : (s.cells intake.runId).1 = some st) (r : UUID) (userId : String) : intake ≠ .createRun r userId := by
  rintro rfl
  change s.runtime.record? r = some st at hfound
  rw [free_of_canEnter hcan] at hfound
  cases hfound

theorem expiring_placed {task : ClaimTask} {rt : InMemoryRuntime} (hplaced : task.Placed rt) {r : UUID}
    (h : task.Expiring r) : ∃ st, rt.record? r = some st ∧ st.status = .running := by
  cases task with
  | expiring r₀ st₀ rest size appended =>
    obtain ⟨-, -, st, hst, hrunning, -⟩ := hplaced
    obtain rfl : r₀ = r := h
    exact ⟨st, hst, hrunning⟩
  | _ => exact h.elim

theorem claiming_placed {task : ClaimTask} {rt : InMemoryRuntime} (hplaced : task.Placed rt) {r : UUID}
    (h : task.Claiming r) : ∃ st, rt.record? r = some st ∧ st.status = .running ∧ st.cancelRequested = false := by
  cases task with
  | claiming r₀ reached appended =>
    obtain rfl : r₀ = r := h
    exact hplaced
  | _ => exact h.elim

/-- inside its loops the claim has decided about no run that is not stored yet -/
theorem not_create_of_passed (h : Linearized call W₀ keys₀ P F s) (horderly : s.Orderly call (.enter intake))
    (hcan : s.CanEnter intake) (hpassed : intake.runId ∈ s.expired ∨ s.claim.Settled intake.runId)
    (hleft : ¬ s.claim.Left) (r : UUID) (userId : String) : intake ≠ .createRun r userId := by
  rintro rfl
  rcases (entered hcan).changes with ⟨hchanges, -⟩ | hkept
  · have hclear : ¬ s.claim.Iterating := horderly hchanges
    have hexpired := h.ordered.expired (IntakeCall.createRun r userId).runId
    generalize s.claim = task at hclear hexpired hpassed hleft
    cases task with
    | idle =>
      rcases hpassed with hmem | hsettled | hreached
      · exact (hexpired.1 hmem).2
      · exact hsettled
      · cases hreached
    | expiring => exact hclear trivial
    | cancelling => exact hclear trivial
    | claiming => exact hleft trivial
    | finished => exact hleft trivial
  · exact absurd hkept (changes_of_create hcan)

/-- a call that changes nothing on a live run is a quiet one -/
theorem quiet_of_kept (hcan : s.CanEnter intake) {st : RunStatus} (hst : (s.cells intake.runId).1 = some st)
    (hlive : st.status = .running ∨ st.status = .enqueued)
    (hnone : (intake.decision (s.cells intake.runId).1).2 = none) :
    Quiet (intake, s.answer intake) ∧ st.cancelRequested = true := by
  rw [hst] at hnone
  obtain ⟨⟨r, hr⟩, hanswer, hflag⟩ := quiet_of_none hlive (not_create_of_found hcan hst) hnone
  refine ⟨⟨r, Prod.ext hr ?_⟩, hflag⟩
  change (intake.decision (s.cells intake.runId).1).1 = _
  rw [hst, hanswer]

/-- on the run that is being expired an orderly call only asks for its cancellation -/
theorem requests_entered (hsteady : Steady s.runtime s.appending s.claim) (horderly : s.Orderly call (.enter intake))
    (hcan : s.CanEnter intake) (hexpiring : s.claim.Expiring intake.runId) :
    ∃ r, intake = .requestCancellation r := by
  obtain ⟨st, hst, hrunning⟩ := expiring_placed hsteady.placed hexpiring
  rcases (entered hcan).changes with ⟨hchanges, -⟩ | hnone
  · have hclear := horderly hchanges
    cases intake with
    | createRun r userId => exact absurd rfl (not_create_of_found hcan hst r userId)
    | markCancelled r => exact absurd hexpiring hclear.1
    | requestCancellation r => exact ⟨r, rfl⟩
  · obtain ⟨⟨r, hr⟩, -⟩ := quiet_of_kept hcan hst (Or.inl hrunning) hnone
    exact ⟨r, congrArg Prod.fst hr⟩

/-- on the run that is being claimed no orderly call enters -/
theorem not_claiming_entered (hsteady : Steady s.runtime s.appending s.claim)
    (horderly : s.Orderly call (.enter intake)) (hcan : s.CanEnter intake) : ¬ s.claim.Claiming intake.runId := by
  intro hclaiming
  obtain ⟨st, hst, hrunning, hflag⟩ := claiming_placed hsteady.placed hclaiming
  rcases (entered hcan).changes with ⟨hchanges, -⟩ | hnone
  · have hclear := horderly hchanges
    cases intake with
    | createRun r userId => exact not_create_of_found hcan hst r userId rfl
    | markCancelled r => exact hclear.2 hclaiming
    | requestCancellation r => exact hclear hclaiming
  · have hrequested := (quiet_of_kept hcan hst (Or.inl hrunning) hnone).2
    rw [hflag] at hrequested
    cases hrequested

/-- **A call on a run that the claim has decided about is the last one after the claim.** -/
theorem linearized_after (h : Linearized call W₀ keys₀ P F s) (horderly : s.Orderly call (.enter intake))
    (hcan : s.CanEnter intake) (hpassed : intake.runId ∈ s.expired ∨ s.claim.Settled intake.runId) :
    Linearized call W₀ keys₀ P (F ++ [(intake, s.answer intake)]) (s.enterTurn intake) := by
  have hsteady := steady_enter h.steady horderly
  have hentry := entered hcan
  have hordered := h.ordered
  generalize s.enterTurn intake = s' at hentry hsteady
  refine ⟨⟨hordered.before, ?_, ?_, ?_, ?_, fun q => ?_, fun e he => ?_, fun e he hs hlate => ?_, fun q note hq => ?_⟩,
    hsteady, fun hleft => ?_, ?_, fun e he hexpiring => ?_, fun e he hclaiming => ?_⟩
  · rw [hentry.claim]
    refine intakeCalls.answered_snoc.2 ⟨hordered.after, ?_⟩
    rw [← hordered.cells]
    rfl
  · rw [hentry.claim, hentry.cells, intakeCalls.after_snoc, ← hordered.cells]
  · rw [hentry.answers, ← List.append_assoc]
    exact hordered.answers.append_right _
  · refine fresh_append hcan hordered.fresh ?_
    intro e he
    simp only [List.mem_append, List.mem_singleton] at he ⊢
    tauto
  · rw [hentry.expired, hentry.claim]
    exact hordered.expired q
  · rw [hentry.expired, hentry.claim]
    rcases List.mem_append.1 he with he | he
    · exact hordered.moved e he
    · obtain rfl := List.mem_singleton.1 he
      exact hpassed
  · rw [hentry.claim] at hs
    rcases List.mem_append.1 he with he | he
    · exact hordered.quiet e he hs fun hmem => hlate (hentry.late _ hmem)
    · obtain rfl := List.mem_singleton.1 he
      have hexpired := hpassed.resolve_right hs
      obtain ⟨hover, hex⟩ := (hordered.expired _).1 hexpired
      rcases hentry.changes with ⟨-, hmove, -⟩ | hnone
      · exact absurd (hmove hexpired) hlate
      · obtain ⟨st, hst, hlive⟩ := live_of_expired h.steady.placed hs hex hover
        rw [← hordered.cell_quiet hs fun hmem => hlate (hentry.late _ hmem)] at hst
        exact (quiet_of_kept hcan hst hlive hnone).1
  · obtain ⟨rfl, -⟩ := hentry.pending q note hq
    exact Or.inr ⟨(intake, s.answer intake), by simp, rfl⟩
  · rw [hentry.claim] at hleft
    have hcreate := not_create_of_passed h horderly hcan hpassed hleft
    rw [hentry.keys, h.keys hleft]
    cases intake with
    | createRun r userId => exact absurd rfl (hcreate r userId)
    | markCancelled => simp [createdBy]
    | requestCancellation => simp [createdBy]
  · rw [hentry.claim]
    exact h.position
  · rw [hentry.claim] at hexpiring
    rcases List.mem_append.1 he with he | he
    · exact h.requests e he hexpiring
    · obtain rfl := List.mem_singleton.1 he
      exact requests_entered h.steady horderly hcan hexpiring
  · rw [hentry.claim] at hclaiming
    rcases List.mem_append.1 he with he | he
    · exact h.untouched e he hclaiming
    · obtain rfl := List.mem_singleton.1 he
      exact not_claiming_entered h.steady horderly hcan hclaiming

/-! ## The event of an intake call -/

/-- the event was counted when the call entered -/
theorem linearized_append (h : Linearized call W₀ keys₀ P F s) (now : UnixTs) :
    Linearized call W₀ keys₀ P F (s.appendTurn now) := by
  have hsteady := steady_append h.steady now
  have hcells := cells_append s now
  have hordered := h.ordered
  cases hpending : s.appending with
  | none => simpa [Interleaved.appendTurn, hpending] using h
  | some p =>
    simp only [Interleaved.appendTurn, hpending] at hsteady hcells ⊢
    refine ⟨⟨hordered.before, hordered.after, hcells.trans hordered.cells, hordered.answers, hordered.fresh,
      hordered.expired, hordered.moved, hordered.quiet, fun q note hq => by cases hq⟩, hsteady, h.keys, h.position,
      h.requests, h.untouched⟩

end Entries

end LlmAgent
