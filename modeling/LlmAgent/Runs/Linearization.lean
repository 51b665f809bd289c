/-
A serial order of the calls, kept up while they run: the intake calls before `claim_run`, and those after it.

An intake call comes before the claim as long as the claim has not decided about its run, else after it. The cells of
the stores are what the calls before leave (`W`), changed by what the claim has done so far (`ClaimTask.stage`), changed
by the calls after.

- `commutes_expire`, `commutes_drop`, `commutes_log`: which calls a deed of the claim can pass;
- `Ordered`: the two lists of calls with their answers, and the cells;
- `Ordered.act`: a deed of the claim moves before the calls that come after it.
-/
import LlmAgent.Runs.SteadyStores

namespace LlmAgent

open Core

/-! ## What the claim does to a cell -/

def Cell.log (note : Note) (cell : Cell) : Cell := (cell.1, cell.2 ++ [note])

def Cell.rewrite (f : RunStatus → RunStatus) (cell : Cell) : Cell := (cell.1.map f, cell.2)

def Cell.logIf (appended : Bool) (note : Note) (cell : Cell) : Cell := if appended then Cell.log note cell else cell

def expiredNote : Note := ("claim_expired", [])

def cancelledNote : Note := ("cancelled", [])

/-- the claim cancels a queued run -/
def dropCell (cell : Cell) : Cell :=
  if queued cell.1 then Cell.log cancelledNote (Cell.rewrite (Act.drop 0).record cell) else cell

namespace ClaimCall

variable (call : ClaimCall)

def claimedNote : Note := ("claimed", [("worker", call.workerId)])

def expireCell (cell : Cell) : Cell := Cell.rewrite (Act.expire call.workerId 0).record cell

/-- the claim recovers a run whose lease ran out -/
def recoverCell (q : UUID) (cell : Cell) : Cell :=
  if call.overdue q cell.1 then call.expireCell (Cell.log expiredNote cell) else cell

def claimCell (q : UUID) (cell : Cell) : Cell :=
  Cell.rewrite (Act.claim call.workerId (call.claimClock q)).record cell

/-- the first loop, with the runs of `rest` still to come -/
def firstStage (rest : List UUID) (q : UUID) (cell : Cell) : Cell := if q ∈ rest then cell else call.recoverCell q cell

/-- the second loop, having come to the runs of `reached` -/
def secondStage (reached : List UUID) (q : UUID) (cell : Cell) : Cell :=
  if q ∈ reached then dropCell (call.recoverCell q cell) else call.recoverCell q cell

end ClaimCall

/-- what the task has done so far to the run `q` -/
def ClaimTask.stage (call : ClaimCall) : ClaimTask → UUID → Cell → Cell
  | .idle, _, cell => cell
  | .expiring r _ rest _ appended, q, cell =>
    if q = r then Cell.logIf appended expiredNote cell else call.firstStage rest q cell
  | .cancelling r reached _ _ appended, q, cell =>
    if q = r then Cell.logIf appended cancelledNote (Cell.rewrite (Act.drop 0).record (call.recoverCell q cell))
    else call.secondStage reached q cell
  | .claiming r reached appended, q, cell =>
    if q = r then Cell.logIf appended call.claimedNote (call.claimCell q (call.recoverCell q cell))
    else call.secondStage reached q cell
  | .finished reached (.ok (some claimed)), q, cell =>
    if q = claimed.id then Cell.log call.claimedNote (call.claimCell q (call.recoverCell q cell))
    else call.secondStage reached q cell
  | .finished reached (.ok none), q, cell => call.secondStage reached q cell
  | .finished _ (.error _), _, cell => cell

/-- the first loop has decided about the run -/
def ClaimTask.Examined (q : UUID) : ClaimTask → Prop
  | .idle => False
  | .expiring r _ rest _ appended => q ∉ rest ∧ (q = r → appended = true)
  | _ => True

/-- the task has left its loops -/
def ClaimTask.Left : ClaimTask → Prop
  | .claiming .. => True
  | .finished .. => True
  | _ => False

/-- the second loop has come to the run, or will not -/
def ClaimTask.Settled (q : UUID) (task : ClaimTask) : Prop := task.Left ∨ q ∈ task.reached

/-! ## The cells of the stores at work -/

/-- the event of the call in the intake lock, which the log does not hold yet -/
def Interleaved.waiting (s : Interleaved) (q : UUID) : List Note :=
  (s.appending.filter fun p => p.1 = q).toList.map Prod.snd

/-- each run with the events of all calls that have entered -/
def Interleaved.cells (s : Interleaved) (q : UUID) : Cell :=
  (s.runtime.record? q, s.runtime.notes q ++ s.waiting q)

section Cells

variable {s : Interleaved} {rt : InMemoryRuntime} {r : UUID}

theorem waiting_of_ne (h : ∀ note, s.appending ≠ some (r, note)) : s.waiting r = [] := by
  cases hpending : s.appending with
  | none => simp [Interleaved.waiting, hpending]
  | some p =>
    have hp : p.1 ≠ r := by
      rintro rfl
      exact h p.2 hpending
    simp [Interleaved.waiting, hpending, Option.filter, hp]

theorem cells_wrote {st : RunStatus} {f : RunStatus → RunStatus} (hrecord : s.runtime.record? r = some st)
    (hwrote : Wrote s.runtime rt r (f st)) :
    Interleaved.cells { s with runtime := rt } = Function.update s.cells r (Cell.rewrite f (s.cells r)) := by
  funext q
  by_cases hq : q = r
  · subst hq
    simp only [Function.update_self, Interleaved.cells, Cell.rewrite, hwrote.record, hwrote.notes, hrecord,
      Option.map_some, Interleaved.waiting]
  · simp only [Function.update_of_ne hq, Interleaved.cells, hwrote.record, hwrote.notes, Interleaved.waiting]

theorem cells_emit (h : ∀ note, s.appending ≠ some (r, note)) (eventType : String) (payload : List (String × String))
    (now : UnixTs) :
    Interleaved.cells { s with runtime := s.runtime.emit r (eventType, payload, now) } =
      Function.update s.cells r (Cell.log (eventType, payload) (s.cells r)) := by
  have hnone := waiting_of_ne h
  funext q
  by_cases hq : q = r
  · subst hq
    simp only [Interleaved.waiting] at hnone
    simp only [Function.update_self, Interleaved.cells, Cell.log, record?_emit, notes_emit, Interleaved.waiting, hnone,
      List.append_nil]
  · simp only [Function.update_of_ne hq, Interleaved.cells, record?_emit, notes_emit, Interleaved.waiting]

/-- the event that reaches the log was counted already -/
theorem cells_append (s : Interleaved) (now : UnixTs) : (s.appendTurn now).cells = s.cells := by
  cases hpending : s.appending with
  | none => simp [Interleaved.appendTurn, hpending]
  | some p =>
    obtain ⟨r, note⟩ := p
    simp only [Interleaved.appendTurn, hpending]
    funext q
    by_cases hq : q = r
    · subst hq
      simp [Interleaved.cells, Interleaved.waiting, hpending, notes_emit, Option.filter]
    · simp [Interleaved.cells, Interleaved.waiting, hpending, notes_emit, Option.filter, hq, Ne.symm hq]

end Cells

/-! ## Which calls a deed of the claim can pass -/

/-- a request that found the run requested already, or over -/
def Quiet (e : Answer) : Prop := ∃ r, e = (.requestCancellation r, .ok (.flag false))

/-- a request that answered False has changed nothing -/
theorem decision_quiet {r : UUID} {record : Option RunStatus}
    (h : (.ok (.flag false) : Except PyError IntakeReply) = ((IntakeCall.requestCancellation r).decision record).1) :
    (IntakeCall.requestCancellation r).decision record = (.ok (.flag false), none) ∧
      ∃ st, record = some st ∧ (st.status ∈ terminalRunStatuses ∨ st.cancelRequested = true) := by
  cases record with
  | none => simp [IntakeCall.decision] at h
  | some st =>
    by_cases hquiet : st.status ∈ terminalRunStatuses ∨ st.cancelRequested = true
    · exact ⟨if_pos hquiet, st, rfl, hquiet⟩
    · simp [IntakeCall.decision, if_neg hquiet] at h

theorem exec_quiet {e : Answer} (he : Quiet e) {cell : Cell} (h : e.2 = (intakeCalls.exec e.1 cell).1) :
    (intakeCalls.exec e.1 cell).2 = cell := by
  obtain ⟨r, rfl⟩ := he
  have hdecision := (decision_quiet h).1
  simp only [intakeCalls, hdecision]
  rfl

section Passing

variable {call : ClaimCall} {F : List Answer} {r : UUID}

/-- a call decides by the record alone -/
theorem exec_log (intake : IntakeCall) (note : Note) (cell : Cell)
    (h : (intake.decision cell.1).2 = none) :
    intakeCalls.exec intake (Cell.log note cell) =
      ((intakeCalls.exec intake cell).1, Cell.log note (intakeCalls.exec intake cell).2) := by
  simp only [intakeCalls, Cell.log, h]
  rfl

/-- nothing passes the deed when no call is about its run -/
theorem commutes_of_untouched {f : Cell → Cell} {I : Cell → Prop} (h : ∀ e ∈ F, e.1.runId ≠ r) :
    intakeCalls.Commutes F r f I := by
  intro e he hr
  exact absurd hr (h e he)

/-- a recovery keeps what a request looks at -/
theorem commutes_expire (h : ∀ e ∈ F, e.1.runId = r → ∃ q, e.1 = .requestCancellation q) :
    intakeCalls.Commutes F r call.expireCell fun cell => ∃ st, cell.1 = some st ∧ st.status = .running := by
  rintro ⟨intake, answer⟩ he hr ⟨record, notes⟩ ⟨st, rfl, hrunning⟩ -
  obtain ⟨q, rfl⟩ := h _ he hr
  have hterminal : st.status ∉ terminalRunStatuses := by rw [hrunning]; decide
  have hterminal' : ((Act.expire call.workerId 0).record st).status ∉ terminalRunStatuses :=
    show RunStatusCode.enqueued ∉ terminalRunStatuses by decide
  have hflag' : ((Act.expire call.workerId 0).record st).cancelRequested = st.cancelRequested := rfl
  by_cases hflag : st.cancelRequested = true
  · refine ⟨⟨st, ?_, hrunning⟩, ?_⟩
    · simp [intakeCalls, IntakeCall.decision, hflag, Cell.write]
    · simp [intakeCalls, IntakeCall.decision, ClaimCall.expireCell, Cell.rewrite, hflag, hflag', Cell.write]
  · refine ⟨⟨(Act.requestCancel 0).record st, ?_, hrunning⟩, ?_⟩
    · simp [intakeCalls, IntakeCall.decision, hflag, hterminal, Cell.write]
    · simp [intakeCalls, IntakeCall.decision, ClaimCall.expireCell, Cell.rewrite, hflag, hflag', hterminal, hterminal',
        Cell.write]
      rfl

/-- a request that found the run requested finds it cancelled as well -/
theorem commutes_drop (h : ∀ e ∈ F, e.1.runId = r → Quiet e) :
    intakeCalls.Commutes F r (Cell.rewrite (Act.drop 0).record) fun cell => queued cell.1 = true := by
  rintro ⟨intake, answer⟩ he hr ⟨record, notes⟩ hqueued hanswer
  obtain ⟨q, hq⟩ := h _ he hr
  obtain ⟨rfl, rfl⟩ := Prod.mk.inj hq
  obtain ⟨st, rfl, hst⟩ := queued_iff.1 hqueued
  have hdecision := (decision_quiet hanswer).1
  have hdropped : ((Act.drop 0).record st).status ∈ terminalRunStatuses :=
    show RunStatusCode.cancelled ∈ terminalRunStatuses by decide
  refine ⟨?_, ?_⟩
  · simp only [intakeCalls, hdecision]
    exact hqueued
  · simp only [intakeCalls, hdecision, Cell.rewrite, Option.map_some]
    simp [IntakeCall.decision, hdropped, Cell.write]

/-- a request that found the run requested does not find it runnable -/
theorem commutes_claim (h : ∀ e ∈ F, e.1.runId = r → Quiet e) (f : Cell → Cell) :
    intakeCalls.Commutes F r f fun cell => queued cell.1 = true ∧ intended cell.1 = false := by
  rintro ⟨intake, answer⟩ he hr ⟨record, notes⟩ ⟨hqueued, hflag⟩ hanswer
  obtain ⟨q, hq⟩ := h _ he hr
  obtain ⟨rfl, rfl⟩ := Prod.mk.inj hq
  obtain ⟨-, st, hst, hquiet⟩ := decision_quiet hanswer
  obtain ⟨st', hst', henqueued⟩ := queued_iff.1 hqueued
  obtain rfl := Option.some.inj (hst.symm.trans hst')
  change record = some st at hst
  subst hst
  rcases hquiet with hterminal | hrequested
  · rw [henqueued] at hterminal
    exact absurd hterminal (by decide)
  · simp [intended, hrequested] at hflag

/-- no call changes a cancelled run -/
theorem commutes_log (F : List Answer) (r : UUID) (note : Note) :
    intakeCalls.Commutes F r (Cell.log note) fun cell => ∃ st, cell.1 = some st ∧ st.status = .cancelled := by
  rintro ⟨intake, answer⟩ - - ⟨record, notes⟩ ⟨st, rfl, hcancelled⟩ -
  have hterminal : st.status ∈ terminalRunStatuses := by rw [hcancelled]; decide
  have hnone : (intake.decision (some st)).2 = none := by
    cases intake <;> simp [IntakeCall.decision, hterminal]
  refine ⟨⟨st, ?_, hcancelled⟩, exec_log intake note _ hnone⟩
  simp [intakeCalls, hnone, Cell.write]

end Passing

/-! ## The calls before and the calls after -/

/-- the ids of the new runs, in order -/
def createdBy (P : List Answer) : List UUID :=
  P.filterMap fun e => match e.1 with
    | .createRun r _ => some r
    | _ => none

/-- the cells after the claim's deeds so far -/
def staged (stage : UUID → Cell → Cell) (W : UUID → Cell) : UUID → Cell := fun q => stage q (W q)

/-- The calls so far as two lists: `P` before the claim, `F` after it. `stage` is what the claim has done to each run,
`examined` says that its first loop has decided about the run, `settled` that its second loop has. -/
structure Ordered (call : ClaimCall) (W₀ : UUID → Cell) (P F : List Answer) (stage : UUID → Cell → Cell)
    (settled examined : UUID → Prop) (s : Interleaved) : Prop where
  before : intakeCalls.Answered W₀ P
  after : intakeCalls.Answered (staged stage (intakeCalls.after W₀ P)) F
  cells : s.cells = intakeCalls.after (staged stage (intakeCalls.after W₀ P)) F
  answers : s.answers.Perm (P ++ F)
  fresh : ∀ r userId answer, (IntakeCall.createRun r userId, answer) ∈ P ++ F → ∃ reply, answer = .ok reply
  expired : ∀ q, q ∈ s.expired ↔ call.overdue q (intakeCalls.after W₀ P q).1 = true ∧ examined q
  /-- a call comes after the claim only when the claim has decided about its run -/
  moved : ∀ e ∈ F, e.1.runId ∈ s.expired ∨ settled e.1.runId
  /-- calls between the two decisions have changed nothing, unless they were late -/
  quiet : ∀ e ∈ F, ¬ settled e.1.runId → e.1.runId ∉ s.late → Quiet e
  pending : ∀ r note, s.appending = some (r, note) →
    (∃ X e st, P = X ++ [e] ∧ e.1.runId = r ∧
      e.1.decision (intakeCalls.after W₀ X r).1 = (e.2, some (st, note))) ∨ ∃ e ∈ F, e.1.runId = r

section Deeds

variable {call : ClaimCall} {W₀ : UUID → Cell} {P F : List Answer} {stage stage' : UUID → Cell → Cell}
  {settled settled' examined examined' : UUID → Prop} {s : Interleaved}

/-- the cell of a run that no later call is about -/
theorem Ordered.cell_untouched (h : Ordered call W₀ P F stage settled examined s) {q : UUID}
    (hq : ∀ e ∈ F, e.1.runId ≠ q) : s.cells q = stage q (intakeCalls.after W₀ P q) := by
  rw [h.cells]
  exact intakeCalls.after_untouched hq

/-- the cell of a run that the second loop may come to -/
theorem Ordered.cell_quiet (h : Ordered call W₀ P F stage settled examined s) {q : UUID} (hsettled : ¬ settled q)
    (hlate : q ∉ s.late) : s.cells q = stage q (intakeCalls.after W₀ P q) := by
  rw [h.cells]
  refine intakeCalls.after_still h.after ?_
  rintro e he rfl cell hanswer
  exact exec_quiet (h.quiet e he hsettled hlate) hanswer

/-- the same deeds, seen from the next place of the task -/
theorem Ordered.restage (h : Ordered call W₀ P F stage settled examined s)
    (hstage : ∀ q, stage' q (intakeCalls.after W₀ P q) = stage q (intakeCalls.after W₀ P q))
    (hsettled : ∀ q, settled q → settled' q)
    (hexamined : ∀ q, call.overdue q (intakeCalls.after W₀ P q).1 = true → (examined q ↔ examined' q)) :
    Ordered call W₀ P F stage' settled' examined' s := by
  have hstaged : staged stage' (intakeCalls.after W₀ P) = staged stage (intakeCalls.after W₀ P) := funext hstage
  refine ⟨h.before, hstaged ▸ h.after, hstaged ▸ h.cells, h.answers, h.fresh, fun q => ?_, fun e he => ?_,
    fun e he hs => h.quiet e he (mt (hsettled _) hs), h.pending⟩
  · rw [h.expired]
    constructor
    · rintro ⟨hover, hex⟩
      exact ⟨hover, (hexamined q hover).1 hex⟩
    · rintro ⟨hover, hex⟩
      exact ⟨hover, (hexamined q hover).2 hex⟩
  · exact (h.moved e he).imp_right (hsettled _)

/-- **A deed of the claim moves before the calls that come after it.** -/
theorem Ordered.act (h : Ordered call W₀ P F stage settled examined s) {rt' : InMemoryRuntime} {r : UUID}
    {f : Cell → Cell} {I : Cell → Prop}
    (hcells : Interleaved.cells { s with runtime := rt' } = Function.update s.cells r (f (s.cells r)))
    (hcommutes : intakeCalls.Commutes F r f I) (hI : I (stage r (intakeCalls.after W₀ P r)))
    (hself : stage' r (intakeCalls.after W₀ P r) = f (stage r (intakeCalls.after W₀ P r)))
    (hother : ∀ q, q ≠ r → stage' q (intakeCalls.after W₀ P q) = stage q (intakeCalls.after W₀ P q)) :
    Ordered call W₀ P F stage' settled examined { s with runtime := rt' } := by
  have hstaged : staged stage' (intakeCalls.after W₀ P) = Function.update (staged stage (intakeCalls.after W₀ P)) r
      (f (staged stage (intakeCalls.after W₀ P) r)) := by
    funext q
    by_cases hq : q = r
    · subst hq
      rw [Function.update_self]
      exact hself
    · rw [Function.update_of_ne hq]
      exact hother q hq
  obtain ⟨-, hafter, hanswered⟩ := intakeCalls.rebase h.after hcommutes hI
  refine ⟨h.before, ?_, ?_, h.answers, h.fresh, h.expired, h.moved, h.quiet, h.pending⟩
  · rw [hstaged]
    exact hanswered
  · rw [hcells, hstaged, hafter, h.cells]

end Deeds

end LlmAgent
