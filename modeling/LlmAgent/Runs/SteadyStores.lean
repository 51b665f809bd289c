/-
What holds of the two stores at work along every run whose turns are orderly, whatever the order.

- `EnterStep`, `enterTurn_spec`: the ways an intake call can enter;
- `Steady`: where the claim task stands fits the memory, and the call in the intake lock has left its mark;
- `steady_enter`, `steady_append`, `steady_claim`: every orderly turn keeps it.
-/
import LlmAgent.Runs.ClaimTurns

namespace LlmAgent

open Core

/-! ## Changes -/

/-- the changes of the intake calls: what they find, and what they write -/
inductive Changed : IntakeCall → Option RunStatus → RunStatus → Note → Prop where
  | create (r : UUID) (userId : String) :
    Changed (.createRun r userId) none (createdRecord r) ("created", [("user_id", userId)])
  | mark (r : UUID) (st : RunStatus) (h : Allowed st.status .cancelled) :
    Changed (.markCancelled r) (some st) ((Act.markCancel 0).record st) ("cancelled", [])
  | request (r : UUID) (st : RunStatus) (hterminal : st.status ∉ terminalRunStatuses)
    (hflag : st.cancelRequested = false) :
    Changed (.requestCancellation r) (some st) ((Act.requestCancel 0).record st) ("cancel requested", [])

theorem decision_changed {intake : IntakeCall} {record : Option RunStatus} {answer : Except PyError IntakeReply}
    {st : RunStatus} {note : Note} (h : intake.decision record = (answer, some (st, note))) :
    Changed intake record st note := by
  cases intake with
  | createRun r userId =>
    cases record with
    | none =>
      simp only [IntakeCall.decision, Prod.mk.injEq, Option.some.injEq] at h
      obtain ⟨-, rfl, rfl⟩ := h
      exact .create r userId
    | some st₀ => simp [IntakeCall.decision] at h
  | markCancelled r =>
    cases record with
    | none => simp [IntakeCall.decision] at h
    | some st₀ =>
      simp only [IntakeCall.decision] at h
      split_ifs at h with hterminal hallowed
      · simp at h
      · simp only [Prod.mk.injEq, Option.some.injEq] at h
        obtain ⟨-, rfl, rfl⟩ := h
        exact .mark r st₀ hallowed
      · simp at h
  | requestCancellation r =>
    cases record with
    | none => simp [IntakeCall.decision] at h
    | some st₀ =>
      simp only [IntakeCall.decision] at h
      split_ifs at h with hquiet
      · simp at h
      · simp only [Prod.mk.injEq, Option.some.injEq] at h
        obtain ⟨-, rfl, rfl⟩ := h
        rw [not_or] at hquiet
        exact .request r st₀ hquiet.1 (Bool.eq_false_of_not_eq_true hquiet.2)

/-- the record carries the mark of a new run, of a cancellation or of a request -/
def RunStatus.Touched (st : RunStatus) : Prop :=
  st.status = .created ∨ st.status = .cancelled ∨ st.cancelRequested = true

theorem Changed.touched {intake : IntakeCall} {record : Option RunStatus} {st : RunStatus} {note : Note}
    (h : Changed intake record st note) : st.Touched := by
  cases h with
  | create => exact Or.inl rfl
  | mark => exact Or.inr (Or.inl rfl)
  | request => exact Or.inr (Or.inr rfl)

theorem Changed.counted {intake : IntakeCall} {record : Option RunStatus} {st : RunStatus} {note : Note}
    (h : Changed intake record st note) (hcounted : ∀ st₀, record = some st₀ → ∃ n, st₀.retryCount = some n) :
    ∃ n, st.retryCount = some n := by
  cases h with
  | create => exact ⟨0, rfl⟩
  | mark => exact ⟨0, rfl⟩
  | request r st₀ => exact hcounted st₀ rfl

/-- nothing changes a cancelled run -/
theorem Changed.not_cancelled {intake : IntakeCall} {st₀ st : RunStatus} {note : Note}
    (h : Changed intake (some st₀) st note) : st₀.status ≠ .cancelled := by
  intro hcancelled
  cases h with
  | mark r st₀ hallowed =>
    rw [hcancelled] at hallowed
    exact not_allowed_of_terminal (by decide) _ hallowed
  | request r st₀ hterminal hflag =>
    rw [hcancelled] at hterminal
    exact hterminal (by decide)

/-! ## Entering -/

/-- the ways an intake call can enter: not at all, without a change, and with one -/
inductive EnterStep (s : Interleaved) (intake : IntakeCall) : Interleaved → Prop where
  | refused (h : ¬ s.CanEnter intake) : EnterStep s intake s
  | kept (h : s.CanEnter intake) (answer : Except PyError IntakeReply)
    (hdecision : intake.decision (s.runtime.record? intake.runId) = (answer, none)) :
    EnterStep s intake { s with answers := s.answers ++ [(intake, answer)] }
  | changed (h : s.Changes intake) (reply : IntakeReply) (st : RunStatus) (note : Note) (rt' : InMemoryRuntime)
    (hdecision : intake.decision (s.runtime.record? intake.runId) = (.ok reply, some (st, note)))
    (hwrote : Wrote s.runtime rt' intake.runId st) :
    EnterStep s intake { s with
      runtime := rt'
      appending := some (intake.runId, note)
      answers := s.answers ++ [(intake, .ok reply)]
      late := s.late ++ [intake.runId].filter fun r => decide (r ∈ s.expired) }

theorem enterTurn_spec (s : Interleaved) (intake : IntakeCall) : EnterStep s intake (s.enterTurn intake) := by
  by_cases hcan : s.CanEnter intake
  · have hfresh := hcan.2
    simp only [Interleaved.enterTurn, if_pos hcan]
    rcases untilAppend_spec hfresh with ⟨e, hdecision, hrun⟩ | ⟨reply, hdecision, hrun⟩ |
      ⟨reply, st, note, rt', hdecision, hrun, hwrote⟩
    · simp only [hrun]
      exact .kept hcan _ hdecision
    · simp only [hrun, Option.map_none, Option.isSome_none, Bool.false_and, List.filter_false, List.append_nil]
      rw [← hcan.1]
      exact .kept hcan _ hdecision
    · simp only [hrun, Option.map_some, Option.isSome_some, Bool.true_and]
      exact .changed ⟨hcan, reply, note, rt', hrun⟩ reply st note rt' hdecision hwrote
  · rw [Interleaved.enterTurn, if_neg hcan]
    exact .refused hcan

/-! ## Steadiness -/

/-- where the task stands fits the memory, and the call in the intake lock has left its mark -/
structure Steady (rt : InMemoryRuntime) (appending : Option (UUID × Note)) (task : ClaimTask) : Prop where
  counted : Counted rt
  pending : ∀ r note, appending = some (r, note) → ∃ st, rt.record? r = some st ∧ st.Touched
  placed : task.Placed rt

section Writes

variable {rt rt' : InMemoryRuntime} {appending : Option (UUID × Note)} {task : ClaimTask} {r : UUID} {st : RunStatus}

/-- a write of the claim task between two appends -/
theorem Steady.wrote {st' : RunStatus} (h : Steady rt appending task) (hwrote : Wrote rt rt' r st')
    (hrecord : rt.record? r = some st) (hst : ∃ n, st'.retryCount = some n) (htouched : st.Touched → st'.Touched) :
    Steady rt' appending .idle := by
  refine ⟨h.counted.wrote hwrote hst, fun q note hq => ?_, trivial⟩
  obtain ⟨old, hold, hmark⟩ := h.pending q note hq
  rw [hwrote.record]
  by_cases hqr : q = r
  · subst hqr
    rw [hrecord] at hold
    obtain rfl := Option.some.inj hold
    exact ⟨st', Function.update_self _ _ _, htouched hmark⟩
  · exact ⟨old, by rw [Function.update_of_ne hqr, hold], hmark⟩

theorem Steady.place {task' : ClaimTask} (h : Steady rt appending task) (hplaced : task'.Placed rt) :
    Steady rt appending task' := ⟨h.counted, h.pending, hplaced⟩

theorem touched_expire (hrunning : st.status = .running) (workerId : String) (h : st.Touched) :
    ((Act.expire workerId 0).record st).Touched := by
  rcases h with h | h | h
  · rw [hrunning] at h; cases h
  · rw [hrunning] at h; cases h
  · exact Or.inr (Or.inr h)

theorem not_touched (hst : st.status = .enqueued) (hflag : st.cancelRequested = false) : ¬ st.Touched := by
  rintro (h | h | h)
  · rw [hst] at h; cases h
  · rw [hst] at h; cases h
  · rw [hflag] at h; cases h

end Writes

section Turns

variable {call : ClaimCall} {rt : InMemoryRuntime} {appending : Option (UUID × Note)} {reached rest : List UUID}
  {size : ℕ} {next : ClaimTask × InMemoryRuntime}

theorem steady_second (h : Steady rt appending .idle) (hkeys : rt.keys = reached ++ rest) (hsize : rt.size = size)
    (hscan : SecondScan call reached rest size rt next) : Steady next.2 appending next.1 := by
  cases hscan with
  | none => exact h.place trivial
  | cancel skipped r rest' st hsplit hskipped hrecord hst hflag =>
    have hwrote := wrote_put rt r ((Act.drop 0).record st)
    have hsteady := h.wrote hwrote hrecord (h.counted r st hrecord) fun _ => Or.inr (Or.inl rfl)
    have hkeys' := hwrote.keys_eq hrecord
    refine hsteady.place ⟨?_, by simp, ?_, _, by rw [hwrote.record, Function.update_self], rfl⟩
    · rw [hkeys', hkeys, hsplit]
      simp
    · rw [← hsize]
      exact congrArg List.length hkeys'
  | claim skipped r rest' st hsplit hskipped hrecord hst hflag =>
    have hwrote := wrote_put rt r ((Act.claim call.workerId (call.claimClock r)).record st)
    have hsteady := h.wrote hwrote hrecord (h.counted r st hrecord) fun ht => absurd ht (not_touched hst hflag)
    refine hsteady.place ⟨(Act.claim call.workerId (call.claimClock r)).record st, ?_, rfl, hflag⟩
    rw [hwrote.record, Function.update_self]

theorem steady_first (h : Steady rt appending .idle) {before : List UUID} (hkeys : rt.keys = before ++ rest)
    (hsize : rt.size = size) (hscan : FirstScan call rest size rt next) : Steady next.2 appending next.1 := by
  cases hscan with
  | ended hrest hsecond => exact steady_second h (List.nil_append _).symm hsize hsecond
  | expiring skipped r rest' st hsplit hskipped hrecord hoverdue =>
    obtain ⟨st', hst', hrunning, -⟩ := overdue_iff.1 hoverdue
    obtain rfl := Option.some.inj hst'
    exact h.place ⟨⟨before ++ skipped, by rw [hkeys, hsplit, List.append_assoc]⟩, hsize, st, hrecord, hrunning, rfl⟩

theorem steady_claim {s : Interleaved} (h : Steady s.runtime s.appending s.claim) (now : UnixTs) :
    Steady (s.claimTurn call now).runtime s.appending (s.claimTurn call now).claim := by
  have hstep : ClaimStep call now s.runtime s.claim (call.resume now s.runtime s.claim) :=
    resume_spec h.counted h.placed now
  simp only [Interleaved.claimTurn]
  generalize call.resume now s.runtime s.claim = next at hstep
  have hplaced := h.placed
  generalize s.claim = task at hstep hplaced
  cases hstep with
  | first hscan => exact steady_first (h.place trivial) (List.nil_append _).symm rfl hscan
  | logExpired r st rest size => exact ⟨h.counted, h.pending, hplaced⟩
  | recover r st rest size st' rt' hrecord hrunning hwrote hscan =>
    obtain ⟨⟨before, hkeys⟩, hsize, -⟩ := hplaced
    have hkeys' := hwrote.keys_eq hrecord
    have hsteady := h.wrote hwrote hrecord (counted_map (h.counted r st' hrecord) _ 0) (touched_expire hrunning _)
    refine steady_first hsteady (by rw [hkeys', hkeys, ← List.append_cons]) ?_ hscan
    rw [← hsize]
    exact congrArg List.length hkeys'
  | logCancelled r reached rest size => exact ⟨h.counted, h.pending, hplaced⟩
  | second r reached rest size hscan => exact steady_second (h.place trivial) hplaced.1 hplaced.2.2.1 hscan
  | logClaimed r reached => exact ⟨h.counted, h.pending, hplaced⟩
  | claimed r reached st hrecord => exact h.place trivial
  | finished reached outcome => exact h.place trivial

/-! ## Intake turns -/

/-- an orderly change leaves the task in its place -/
theorem placed_changed {s : Interleaved} {intake : IntakeCall} (hplaced : s.claim.Placed s.runtime)
    (horderly : s.Orderly call (.enter intake)) (hchanges : s.Changes intake) {st : RunStatus} {note : Note}
    (hchanged : Changed intake (s.runtime.record? intake.runId) st note) {rt' : InMemoryRuntime}
    (hwrote : Wrote s.runtime rt' intake.runId st) : s.claim.Placed rt' := by
  have hclear := horderly hchanges
  -- a record other than the written one is as it was
  have hother : ∀ q, q ≠ intake.runId → rt'.record? q = s.runtime.record? q := by
    intro q hq
    rw [hwrote.record, Function.update_of_ne hq]
  have hself : rt'.record? intake.runId = some st := by rw [hwrote.record, Function.update_self]
  generalize s.claim = task at hplaced hclear
  generalize hfound : s.runtime.record? intake.runId = record at hchanged
  cases task with
  | idle => trivial
  | finished => trivial
  | expiring r₀ st₀ rest size appended =>
    obtain ⟨hkeys, hsize, st', hrecord, hrunning, hread⟩ := hplaced
    cases hchanged with
    | create => exact absurd trivial hclear
    | mark r old hallowed =>
      have hkeys' := hwrote.keys_eq hfound
      refine ⟨by rwa [hkeys'], hsize ▸ congrArg List.length hkeys', st', ?_, hrunning, hread⟩
      rw [hother _ hclear.1, hrecord]
    | request r old hterminal hflag =>
      have hkeys' := hwrote.keys_eq hfound
      refine ⟨by rwa [hkeys'], hsize ▸ congrArg List.length hkeys', ?_⟩
      by_cases hr : r₀ = r
      · subst hr
        obtain rfl := Option.some.inj (hrecord.symm.trans hfound)
        exact ⟨_, hself, hrunning, hread⟩
      · exact ⟨st', by rw [hother _ hr, hrecord], hrunning, hread⟩
  | cancelling r₀ reached rest size appended =>
    obtain ⟨hkeys, hreached, hsize, st', hrecord, hcancelled⟩ := hplaced
    have hne : r₀ ≠ intake.runId := by
      rintro rfl
      rw [hrecord] at hfound
      subst hfound
      exact hchanged.not_cancelled hcancelled
    have hkeys' : rt'.keys = s.runtime.keys := by
      cases hchanged with
      | create => exact absurd trivial hclear
      | mark => exact hwrote.keys_eq hfound
      | request => exact hwrote.keys_eq hfound
    exact ⟨by rw [hkeys', hkeys], hreached, hsize ▸ congrArg List.length hkeys', st', by rw [hother _ hne, hrecord],
      hcancelled⟩
  | claiming r₀ reached appended =>
    obtain ⟨st', hrecord, hrunning, hflag⟩ := hplaced
    have hne : r₀ ≠ intake.runId := by
      rintro rfl
      rw [hrecord] at hfound
      subst hfound
      cases hchanged with
      | mark => exact hclear.2 rfl
      | request => exact hclear rfl
    exact ⟨st', by rw [hother _ hne, hrecord], hrunning, hflag⟩

theorem steady_enter {s : Interleaved} {intake : IntakeCall} (h : Steady s.runtime s.appending s.claim)
    (horderly : s.Orderly call (.enter intake)) :
    Steady (s.enterTurn intake).runtime (s.enterTurn intake).appending (s.enterTurn intake).claim := by
  have hstep := enterTurn_spec s intake
  generalize s.enterTurn intake = s' at hstep
  cases hstep with
  | refused => exact h
  | kept => exact h
  | changed hchanges reply st note rt' hdecision hwrote =>
    have hchanged := decision_changed hdecision
    refine ⟨h.counted.wrote hwrote (hchanged.counted (h.counted _)), fun q n hq => ?_,
      placed_changed h.placed horderly hchanges hchanged hwrote⟩
    obtain ⟨rfl, rfl⟩ := Prod.mk.inj (Option.some.inj hq)
    exact ⟨st, by rw [hwrote.record, Function.update_self], hchanged.touched⟩

theorem steady_append {s : Interleaved} (h : Steady s.runtime s.appending s.claim) (now : UnixTs) :
    Steady (s.appendTurn now).runtime (s.appendTurn now).appending (s.appendTurn now).claim := by
  cases hpending : s.appending with
  | none => simpa [Interleaved.appendTurn, hpending] using h
  | some p =>
    obtain ⟨r, note⟩ := p
    simp only [Interleaved.appendTurn, hpending]
    refine ⟨h.counted, by rintro q n ⟨⟩, ?_⟩
    have hplaced := h.placed
    generalize s.claim = task at hplaced
    cases task <;> exact hplaced

end Turns

end LlmAgent
