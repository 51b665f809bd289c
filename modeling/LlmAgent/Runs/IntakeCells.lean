/-
What the stores hold of one run as a cell, and the intake calls as operations on cells.

- `IntakeCall.decision`: what a call answers, and the record and the event it writes, from the record it finds;
- `untilAppend_spec`: the statements of a call up to its append do what the decision says;
- `createRun_atOnce`, `markCancelled_atOnce`, `requestCancellation_atOnce`: over a log that never suspends a call of the
  store is those statements followed by its event.
-/
import LlmAgent.Core.Keyed
import LlmAgent.Runs.Suspension

namespace LlmAgent

open Core

/-! ## Cells -/

/-- the record of a run and its events -/
abbrev Cell := Option RunStatus × List Note

def InMemoryRuntime.cell (rt : InMemoryRuntime) (r : UUID) : Cell := (rt.record? r, rt.notes r)

/-- `self._runs`, in iteration order -/
abbrev InMemoryRuntime.keys (rt : InMemoryRuntime) : List UUID := rt.internalRunStorage.keys

theorem mem_keys_iff {rt : InMemoryRuntime} {r : UUID} : r ∈ rt.keys ↔ ∃ st, rt.record? r = some st :=
  Dict.mem_iff rt.internalRunStorage r

section Writing

variable (rt : InMemoryRuntime) (r : UUID)

theorem record?_put (st : RunStatus) : (rt.put r st).record? = Function.update rt.record? r (some st) := by
  funext q
  by_cases h : q = r
  · subst h
    rw [Function.update_self]
    exact Dict.get?_set_self _ _ _
  · rw [Function.update_of_ne h]
    exact Dict.get?_set_ne _ _ h

@[simp] theorem notes_put (st : RunStatus) (q : UUID) : (rt.put r st).notes q = rt.notes q := rfl

@[simp] theorem record?_emit (e : String × List (String × String) × UnixTs) : (rt.emit r e).record? = rt.record? := rfl

@[simp] theorem keys_emit (e : String × List (String × String) × UnixTs) : (rt.emit r e).keys = rt.keys := rfl

theorem notes_emit (e : String × List (String × String) × UnixTs) :
    (rt.emit r e).notes = Function.update rt.notes r (rt.notes r ++ [(e.1, e.2.1)]) := by
  funext q
  by_cases h : q = r
  · subst h
    rw [Function.update_self]
    simp [InMemoryRuntime.notes, InMemoryRuntime.stream, InMemoryRuntime.emit, InMemoryRunEventLog.nextEvent]
  · rw [Function.update_of_ne h]
    simp only [InMemoryRuntime.notes, InMemoryRuntime.stream, InMemoryRuntime.emit,
      InMemoryRunEventLog.stream_push_ne _ _ _ _ h]

theorem keys_put_eq (st : RunStatus) :
    (rt.put r st).keys = if r ∈ rt.internalRunStorage then rt.keys else rt.keys ++ [r] := by
  split_ifs with h
  · exact Dict.keys_set_of_mem _ _ _ h
  · exact Dict.keys_set_of_not_mem _ _ _ h

theorem notes_initRunStream (log : InMemoryRunEventLog) (q : UUID) : (log.initRunStream r).stream q = log.stream q := by
  by_cases hq : q = r
  · subst hq
    by_cases hmem : q ∈ log.internalRunEvents
    · rw [InMemoryRunEventLog.initRunStream_known hmem]
    · rw [(InMemoryRunEventLog.stream_initRunStream_self hmem).1, InMemoryRunEventLog.stream,
        (Dict.get?_eq_none _ _).2 hmem]
      rfl
  · exact (InMemoryRunEventLog.stream_initRunStream_ne log hq).1

end Writing

/-- the record of `r` is written, and nothing else changes but the place of a new key -/
structure Wrote (rt rt' : InMemoryRuntime) (r : UUID) (st : RunStatus) : Prop where
  record : rt'.record? = Function.update rt.record? r (some st)
  notes : ∀ q, rt'.notes q = rt.notes q
  keys : rt'.keys = if r ∈ rt.internalRunStorage then rt.keys else rt.keys ++ [r]

theorem wrote_put (rt : InMemoryRuntime) (r : UUID) (st : RunStatus) : Wrote rt (rt.put r st) r st :=
  ⟨record?_put rt r st, notes_put rt r st, keys_put_eq rt r st⟩

/-! ## The intake calls -/

namespace IntakeCall

/-- what a call answers, and what it writes, from the record it finds. A new run has a new id, so the answer for a
taken one is none of `create_run`'s. -/
def decision : IntakeCall → Option RunStatus → Except PyError IntakeReply × Option (RunStatus × Note)
  | .createRun runId userId, none =>
    (.ok (.status (createdRecord runId)), some (createdRecord runId, "created", [("user_id", userId)]))
  | .createRun runId _, some _ => (.error (.keyError runId), none)
  | .markCancelled runId, none => (.error (.runNotFound (UUID.str runId)), none)
  | .markCancelled _, some st =>
    if st.status ∈ terminalRunStatuses then (.ok (.flag false), none)
    else if Allowed st.status .cancelled then
      (.ok (.flag true), some ((Act.markCancel 0).record st, "cancelled", []))
    else (.error (invalidTransition st.status .cancelled), none)
  | .requestCancellation runId, none => (.error (.runNotFound (UUID.str runId)), none)
  | .requestCancellation _, some st =>
    if st.status ∈ terminalRunStatuses ∨ st.cancelRequested = true then (.ok (.flag false), none)
    else (.ok (.flag true), some ((Act.requestCancel 0).record st, "cancel requested", []))

end IntakeCall

/-- a record and an event are written, or nothing -/
def Cell.write (cell : Cell) : Option (RunStatus × Note) → Cell
  | none => cell
  | some (st, note) => (some st, cell.2 ++ [note])

/-- the intake calls, each on the cell of its run -/
def intakeCalls : Keyed IntakeCall UUID Cell (Except PyError IntakeReply) where
  key := IntakeCall.runId
  exec intake cell := ((intake.decision cell.1).1, Cell.write cell (intake.decision cell.1).2)

/-- the three ways the statements of a call up to its append can go -/
inductive Entered (intake : IntakeCall) (rt : InMemoryRuntime) : Prop where
  | raised (e : PyError) (hdecision : intake.decision (rt.record? intake.runId) = (.error e, none))
      (hrun : intake.untilAppend.run rt = .error e rt)
  | unchanged (reply : IntakeReply) (hdecision : intake.decision (rt.record? intake.runId) = (.ok reply, none))
      (hrun : intake.untilAppend.run rt = .ok (reply, none) rt)
  | changed (reply : IntakeReply) (st : RunStatus) (note : Note) (rt' : InMemoryRuntime)
      (hdecision : intake.decision (rt.record? intake.runId) = (.ok reply, some (st, note)))
      (hrun : intake.untilAppend.run rt = .ok (reply, some note) rt') (hwrote : Wrote rt rt' intake.runId st)

theorem untilAppend_create {rt : InMemoryRuntime} {r : UUID} (h : r ∉ rt.internalRunStorage) (userId : String) :
    Entered (.createRun r userId) rt := by
  have hnone : rt.record? r = none := (Dict.get?_eq_none _ _).2 h
  refine .changed (.status (createdRecord r)) (createdRecord r) ("created", [("user_id", userId)])
    { rt.put r (createdRecord r) with internalEventLogs := rt.internalEventLogs.initRunStream r }
    (by simp [IntakeCall.runId, IntakeCall.decision, hnone]) rfl ?_
  refine ⟨record?_put rt r _, fun q => ?_, keys_put_eq rt r _⟩
  simp only [InMemoryRuntime.notes, InMemoryRuntime.stream]
  rw [notes_initRunStream]

theorem untilAppend_markCancelled (rt : InMemoryRuntime) (r : UUID) : Entered (.markCancelled r) rt := by
  cases h : rt.record? r with
  | none =>
    refine .raised (.runNotFound (UUID.str r)) (by simp [IntakeCall.runId, IntakeCall.decision, h]) ?_
    simp only [IntakeCall.untilAppend, EStateM.run_bind, findRun_unknown h]
  | some st =>
    by_cases hterminal : st.status ∈ terminalRunStatuses
    · refine .unchanged (.flag false) (by simp [IntakeCall.runId, IntakeCall.decision, h, hterminal]) ?_
      simp only [IntakeCall.untilAppend, EStateM.run_bind, findRun_run h, if_pos hterminal, EStateM.run_pure]
    · by_cases hallowed : Allowed st.status .cancelled
      · refine .changed (.flag true) ((Act.markCancel 0).record st) ("cancelled", []) (rt.put r _)
          (by simp [IntakeCall.runId, IntakeCall.decision, h, hterminal, hallowed]) ?_ (wrote_put rt r _)
        simp only [IntakeCall.untilAppend, EStateM.run_bind, findRun_run h, if_neg hterminal, validate_run hallowed,
          writeRun_run, EStateM.run_pure]
        rfl
      · refine .raised (invalidTransition st.status .cancelled)
          (by simp [IntakeCall.runId, IntakeCall.decision, h, hterminal, hallowed]) ?_
        simp only [IntakeCall.untilAppend, EStateM.run_bind, findRun_run h, if_neg hterminal,
          validate_refused hallowed]

theorem untilAppend_requestCancellation (rt : InMemoryRuntime) (r : UUID) : Entered (.requestCancellation r) rt := by
  cases h : rt.record? r with
  | none =>
    refine .raised (.runNotFound (UUID.str r)) (by simp [IntakeCall.runId, IntakeCall.decision, h]) ?_
    simp only [IntakeCall.untilAppend, EStateM.run_bind, findRun_unknown h]
  | some st =>
    by_cases hterminal : st.status ∈ terminalRunStatuses
    · refine .unchanged (.flag false) (by simp [IntakeCall.runId, IntakeCall.decision, h, hterminal]) ?_
      simp only [IntakeCall.untilAppend, EStateM.run_bind, findRun_run h, if_pos hterminal, EStateM.run_pure]
    · by_cases hflag : st.cancelRequested = true
      · refine .unchanged (.flag false) (by simp [IntakeCall.runId, IntakeCall.decision, h, hflag]) ?_
        simp only [IntakeCall.untilAppend, EStateM.run_bind, findRun_run h, if_neg hterminal, if_pos hflag,
          EStateM.run_pure]
      · refine .changed (.flag true) ((Act.requestCancel 0).record st) ("cancel requested", []) (rt.put r _)
          (by simp [IntakeCall.runId, IntakeCall.decision, h, hterminal, hflag]) ?_ (wrote_put rt r _)
        simp only [IntakeCall.untilAppend, EStateM.run_bind, findRun_run h, if_neg hterminal, if_neg hflag,
          writeRun_run, EStateM.run_pure]
        rfl

/-- **An intake call up to its append does what its decision says.** -/
theorem untilAppend_spec {intake : IntakeCall} {rt : InMemoryRuntime}
    (hfresh : ∀ r userId, intake = .createRun r userId → r ∉ rt.internalRunStorage) : Entered intake rt := by
  cases intake with
  | createRun r userId => exact untilAppend_create (hfresh r userId rfl) userId
  | markCancelled r => exact untilAppend_markCancelled rt r
  | requestCancellation r => exact untilAppend_requestCancellation rt r

/-! ## Without suspension -/

/-- the append of a call's event, when it has one -/
def appendNote (runId : UUID) (note : Option Note) (now : UnixTs) : StoreM Unit :=
  match note with
  | none => pure ()
  | some n => do let _ ← appendEvent runId n.1 n.2 now

/-- a call over a log that does not suspend: its statements, then its event -/
def IntakeCall.atOnce (intake : IntakeCall) (now : UnixTs) : StoreM IntakeReply := do
  let (reply, note) ← intake.untilAppend
  appendNote intake.runId note now
  pure reply

theorem createRun_atOnce (r : UUID) (userId : String) (now : UnixTs) :
    (IntakeCall.createRun r userId).atOnce now = IntakeReply.status <$> createRun r userId now := by
  simp [IntakeCall.atOnce, IntakeCall.untilAppend, appendNote, createRun, createdRecord, IntakeCall.runId]

theorem markCancelled_atOnce (r : UUID) (now : UnixTs) :
    (IntakeCall.markCancelled r).atOnce now = IntakeReply.flag <$> markCancelled r now := by
  simp only [IntakeCall.atOnce, IntakeCall.untilAppend, IntakeCall.runId, markCancelled, map_bind, bind_assoc]
  refine bind_congr fun st => ?_
  split_ifs <;> simp [appendNote]

theorem requestCancellation_atOnce (r : UUID) (now : UnixTs) :
    (IntakeCall.requestCancellation r).atOnce now = IntakeReply.flag <$> requestCancellation r now := by
  simp only [IntakeCall.atOnce, IntakeCall.untilAppend, IntakeCall.runId, requestCancellation, map_bind, bind_assoc]
  refine bind_congr fun st => ?_
  split_ifs <;> simp [appendNote]

end LlmAgent
