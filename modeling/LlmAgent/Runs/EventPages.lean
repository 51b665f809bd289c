/-
Reading a run's events page by page, while streams are initialised and appended to in any order.

A client polls `list(run_id, after_sequence=cursor)`. Its cursor is None at first, then the number of the last event it
received; an empty page leaves it as it is. `polling runId` is the log and such a client as one machine.

- `LogInOrder`, `logInOrder_step`: every stream is numbered 1, 2, … and counted;
- `stream_appended`, `stream_prefix_step`: an append puts its event at the end, and there it stays;
- `InStep`, `inStep_step`: what the client received is a prefix of the stream, and its cursor the length of that prefix;
- `pages_complete`: the pages together are the whole stream as of the last poll.
-/
import LlmAgent.Core.Machine
import LlmAgent.Core.Numbered
import LlmAgent.Runs.EventLog

namespace LlmAgent

open Core

inductive LogOp where
  | initRunStream (runId : UUID)
  | append (runId : UUID) (eventType : String) (payload : List (String × String)) (now : UnixTs)
  | poll
deriving DecidableEq

inductive LogReply where
  | returned
  | appended (runEvent : RunEvent)
  | page (runEvents : List RunEvent)
  | raised (e : PyError)

/-- the log, and a client that reads one run's stream -/
structure Polling where
  log : InMemoryRunEventLog := .empty
  cursor : Option ℤ := none
  pages : List (List RunEvent) := []

namespace Polling

/-- the client after it received a page -/
def receive (s : Polling) (page : List RunEvent) : Polling :=
  { s with
    cursor := match page.getLast? with
      | none => s.cursor
      | some runEvent => some runEvent.sequenceNr
    pages := s.pages ++ [page] }

def exec (runId : UUID) (s : Polling) : LogOp → LogReply × Polling
  | .initRunStream r => (.returned, { s with log := s.log.initRunStream r })
  | .append r eventType payload now =>
    match s.log.append r eventType payload now with
    | .error e => (.raised e, s)
    | .ok (runEvent, log) => (.appended runEvent, { s with log := log })
  | .poll =>
    match s.log.list runId s.cursor with
    | .error e => (.raised e, s)
    | .ok page => (.page page, s.receive page)

/-- all events the client received -/
def received (s : Polling) : List RunEvent := s.pages.flatten

end Polling

/-- **The log and a client that reads run `runId`.** -/
def polling (runId : UUID) : Machine Polling LogOp LogReply := ⟨Polling.exec runId⟩

/-! ## The log -/

/-- every known stream is counted, and every stream is numbered 1, 2, … -/
structure LogInOrder (log : InMemoryRunEventLog) : Prop where
  known : ∀ r, r ∈ log.internalRunEvents → log.Known r
  numbered : ∀ r, Numbered RunEvent.sequenceNr (log.stream r)

theorem stream_of_not_mem {log : InMemoryRunEventLog} {r : UUID} (h : r ∉ log.internalRunEvents) :
    log.stream r = [] := by
  simp [InMemoryRunEventLog.stream, (Dict.get?_eq_none _ _).2 h]

/-- initialising a stream changes no stream -/
theorem stream_initRunStream (log : InMemoryRunEventLog) (r j : UUID) :
    (log.initRunStream r).stream j = log.stream j := by
  by_cases hr : r ∈ log.internalRunEvents
  · rw [InMemoryRunEventLog.initRunStream_known hr]
  · by_cases hj : j = r
    · subst hj
      rw [(InMemoryRunEventLog.stream_initRunStream_self hr).1, stream_of_not_mem hr]
    · exact (InMemoryRunEventLog.stream_initRunStream_ne log hj).1

/-- an append goes to the end of its own stream -/
theorem stream_append {log log' : InMemoryRunEventLog} (h : LogInOrder log) {r : UUID} {eventType : String}
    {payload : List (String × String)} {now : UnixTs} {runEvent : RunEvent}
    (happend : log.append r eventType payload now = .ok (runEvent, log')) :
    r ∈ log.internalRunEvents ∧ runEvent.sequenceNr = (log.stream r).length + 1 ∧
      log' = log.push r eventType payload now ∧ log'.stream r = log.stream r ++ [runEvent] := by
  by_cases hr : r ∈ log.internalRunEvents
  · rw [InMemoryRunEventLog.append_known (h.known r hr)] at happend
    obtain ⟨rfl, rfl⟩ := Prod.mk.inj (Except.ok.inj happend)
    exact ⟨hr, rfl, rfl, InMemoryRunEventLog.stream_push_self _ _ _ _ _⟩
  · rw [InMemoryRunEventLog.append_unknown hr] at happend
    cases happend

section Log

variable {runId : UUID} {s : Polling}

/-- a poll leaves the log alone -/
theorem log_poll : ((polling runId).step s .poll).log = s.log := by
  change (Polling.exec runId s .poll).2.log = s.log
  simp only [Polling.exec]
  split <;> rfl

theorem logInOrder_step (h : LogInOrder s.log) (op : LogOp) : LogInOrder ((polling runId).step s op).log := by
  cases op with
  | poll => rwa [log_poll]
  | initRunStream r =>
    refine ⟨fun j hj => ?_, fun j => ?_⟩
    · change (s.log.initRunStream r).Known j
      rcases (InMemoryRunEventLog.mem_initRunStream s.log r j).1 hj with rfl | hold
      · by_cases hmem : j ∈ s.log.internalRunEvents
        · rw [InMemoryRunEventLog.initRunStream_known hmem]
          exact h.known j hmem
        · exact (InMemoryRunEventLog.stream_initRunStream_self hmem).2
      · by_cases hjr : j = r
        · subst hjr
          rw [InMemoryRunEventLog.initRunStream_known hold]
          exact h.known j hold
        · exact (InMemoryRunEventLog.stream_initRunStream_ne _ hjr).2 (h.known j hold)
    · change Numbered _ ((s.log.initRunStream r).stream j)
      rw [stream_initRunStream]
      exact h.numbered j
  | append r eventType payload now =>
    change LogInOrder (Polling.exec runId s (.append r eventType payload now)).2.log
    simp only [Polling.exec]
    split
    · exact h
    · rename_i runEvent log happend
      obtain ⟨hr, hnumber, rfl, hstream⟩ := stream_append h happend
      refine ⟨fun j hj => ?_, fun j => ?_⟩
      · refine InMemoryRunEventLog.known_push _ _ _ (h.known j ?_)
        rcases (InMemoryRunEventLog.mem_push _ _ _ _ _ _).1 hj with rfl | hj
        · exact hr
        · exact hj
      · by_cases hj : j = r
        · subst hj
          rw [hstream]
          exact (h.numbered j).snoc hnumber
        · rw [InMemoryRunEventLog.stream_push_ne _ _ _ _ hj]
          exact h.numbered j

/-- an event, once appended, stays where it is; other events come after it -/
theorem stream_prefix_step (h : LogInOrder s.log) (op : LogOp) (j : UUID) :
    s.log.stream j <+: ((polling runId).step s op).log.stream j := by
  cases op with
  | poll => rw [log_poll]
  | initRunStream r =>
    change _ <+: (s.log.initRunStream r).stream j
    rw [stream_initRunStream]
  | append r eventType payload now =>
    change _ <+: (Polling.exec runId s (.append r eventType payload now)).2.log.stream j
    simp only [Polling.exec]
    split
    · exact List.prefix_refl _
    · rename_i runEvent log happend
      obtain ⟨-, -, rfl, hstream⟩ := stream_append h happend
      by_cases hj : j = r
      · subst hj
        rw [hstream]
        exact List.prefix_append _ _
      · rw [InMemoryRunEventLog.stream_push_ne _ _ _ _ hj]

/-- the append that answered `runEvent` put it at the end of the stream -/
theorem stream_appended (h : LogInOrder s.log) {r : UUID} {eventType : String} {payload : List (String × String)}
    {now : UnixTs} {runEvent : RunEvent}
    (hreply : (polling runId).reply s (.append r eventType payload now) = .appended runEvent) :
    runEvent = ⟨r, (s.log.stream r).length + 1, eventType, payload, now⟩ ∧
      ((polling runId).step s (.append r eventType payload now)).log.stream r = s.log.stream r ++ [runEvent] := by
  change (Polling.exec runId s (.append r eventType payload now)).1 = _ at hreply
  change _ ∧ (Polling.exec runId s (.append r eventType payload now)).2.log.stream r = _
  cases happend : s.log.append r eventType payload now with
  | error e =>
    simp only [Polling.exec, happend] at hreply
    cases hreply
  | ok answer =>
    obtain ⟨answered, log⟩ := answer
    simp only [Polling.exec, happend] at hreply ⊢
    obtain rfl : answered = runEvent := LogReply.appended.inj hreply
    obtain ⟨hr, -, -, hstream⟩ := stream_append h happend
    rw [InMemoryRunEventLog.append_known (h.known r hr)] at happend
    exact ⟨(Prod.mk.inj (Except.ok.inj happend)).1.symm, hstream⟩

/-- an append to another run does not reach this stream -/
theorem stream_append_ne {r j : UUID} (hj : j ≠ r) (eventType : String) (payload : List (String × String))
    (now : UnixTs) (h : LogInOrder s.log) :
    ((polling runId).step s (.append r eventType payload now)).log.stream j = s.log.stream j := by
  change (Polling.exec runId s (.append r eventType payload now)).2.log.stream j = _
  simp only [Polling.exec]
  split
  · rfl
  · rename_i runEvent log happend
    obtain ⟨-, -, rfl, -⟩ := stream_append h happend
    exact InMemoryRunEventLog.stream_push_ne _ _ _ _ hj

end Log

/-! ## The client -/

/-- the client received a prefix of the stream, and its cursor is the number of the last event of that prefix -/
structure InStep (runId : UUID) (s : Polling) : Prop where
  log : LogInOrder s.log
  received : s.received <+: s.log.stream runId
  cursor : s.cursor = if s.received = [] then none else some (s.received.length : ℤ)

/-- what `list` answers to a client in step: the part of the stream it has not received -/
theorem list_of_inStep {runId : UUID} {s : Polling} (h : InStep runId s) (hmem : runId ∈ s.log.internalRunEvents) :
    s.log.list runId s.cursor = .ok ((s.log.stream runId).drop s.received.length) := by
  obtain ⟨events, hevents⟩ := (Dict.mem_iff _ _).1 hmem
  have hstream : s.log.stream runId = events := by simp [InMemoryRunEventLog.stream, hevents]
  rw [hstream, h.cursor]
  simp only [InMemoryRunEventLog.list, hevents]
  by_cases hnil : s.received = []
  · rw [if_pos hnil, hnil]
    rfl
  · rw [if_neg hnil]
    have hnum := h.log.numbered runId
    rw [hstream] at hnum
    rw [← hnum.filter_above]
    simp only [gt_iff_lt, Nat.cast_lt]

/-- **A poll brings the client up to date**, and keeps it in step. -/
theorem poll_spec {runId : UUID} {s : Polling} (h : InStep runId s) :
    ((polling runId).step s .poll).received = s.log.stream runId ∧ InStep runId ((polling runId).step s .poll) := by
  have hlog : LogInOrder ((polling runId).step s .poll).log := logInOrder_step h.log .poll
  by_cases hmem : runId ∈ s.log.internalRunEvents
  · have hstep : (polling runId).step s .poll = s.receive ((s.log.stream runId).drop s.received.length) := by
      change (Polling.exec runId s .poll).2 = _
      simp only [Polling.exec, list_of_inStep h hmem]
    have hreceived : ((polling runId).step s .poll).received = s.log.stream runId := by
      rw [hstep, Polling.received, Polling.receive, List.flatten_append, List.flatten_singleton]
      exact List.prefix_iff_eq_append.1 h.received
    refine ⟨hreceived, hlog, ?_, ?_⟩
    · rw [hreceived, log_poll]
    · rw [hreceived, hstep, Polling.receive]
      cases hlast : ((s.log.stream runId).drop s.received.length).getLast? with
      | none =>
        -- an empty page: the client had everything already
        have hdrop := List.getLast?_eq_none_iff.1 hlast
        have hall : s.received = s.log.stream runId := by
          have happ := List.prefix_iff_eq_append.1 h.received
          rwa [hdrop, List.append_nil] at happ
        simp only [h.cursor, hall]
      | some runEvent =>
        have hlast' : (s.log.stream runId).getLast? = some runEvent := by
          rw [← List.prefix_iff_eq_append.1 h.received, List.getLast?_append, hlast]
          rfl
        have hne : s.log.stream runId ≠ [] := by
          intro hnil
          rw [hnil] at hlast'
          cases hlast'
        simp only [if_neg hne, (h.log.numbered runId).getLast?_num hlast']
  · -- the run is not known yet: the poll raises, and there was nothing to receive
    have hstream : s.log.stream runId = [] := stream_of_not_mem hmem
    have hstep : (polling runId).step s .poll = s := by
      change (Polling.exec runId s .poll).2 = _
      simp only [Polling.exec, InMemoryRunEventLog.list, (Dict.get?_eq_none _ _).2 hmem]
    rw [hstep]
    have hreceived := h.received
    rw [hstream] at hreceived
    exact ⟨(List.prefix_nil.1 hreceived).trans hstream.symm, h⟩

theorem client_of_not_poll (runId : UUID) (s : Polling) {op : LogOp} (h : op ≠ .poll) :
    ((polling runId).step s op).cursor = s.cursor ∧ ((polling runId).step s op).received = s.received := by
  cases op with
  | poll => exact absurd rfl h
  | initRunStream r => exact ⟨rfl, rfl⟩
  | append r eventType payload now =>
    change (Polling.exec runId s (.append r eventType payload now)).2.cursor = s.cursor ∧
      (Polling.exec runId s (.append r eventType payload now)).2.received = s.received
    simp only [Polling.exec]
    split <;> exact ⟨rfl, rfl⟩

theorem inStep_step {runId : UUID} {s : Polling} (h : InStep runId s) (op : LogOp) :
    InStep runId ((polling runId).step s op) := by
  by_cases hop : op = .poll
  · subst hop
    exact (poll_spec h).2
  · obtain ⟨hcursor, hreceived⟩ := client_of_not_poll runId s hop
    refine ⟨logInOrder_step h.log op, ?_, ?_⟩
    · rw [hreceived]
      exact h.received.trans (stream_prefix_step h.log op runId)
    · rw [hcursor, hreceived]
      exact h.cursor

theorem inStep_init (runId : UUID) : InStep runId {} where
  log := ⟨fun r hr => by simp [InMemoryRunEventLog.empty, Dict.mem_iff] at hr, fun _ => Numbered.nil⟩
  received := List.nil_prefix
  cursor := rfl

/-- the client is in step after every run -/
theorem inStep_run (runId : UUID) (ops : List LogOp) : InStep runId ((polling runId).run {} ops) :=
  Machine.run_inv' (M := polling runId) (I := InStep runId) (fun _ op h => inStep_step h op) (inStep_init runId) ops

/-- without a poll the client receives nothing -/
theorem received_of_no_poll {runId : UUID} {s : Polling} {ops : List LogOp} (h : ∀ op ∈ ops, op ≠ .poll) :
    ((polling runId).run s ops).received = s.received :=
  Machine.run_inv (M := polling runId) (I := fun s' => s'.received = s.received) (P := fun _ op => op ≠ .poll)
    (fun _ _ hI hop => (client_of_not_poll _ _ hop).2.trans hI) rfl (Machine.along_of_mem h s)

/-- what pagination rests on: numbered streams that only grow, each by appends to its own run -/
structure LogKept (runId : UUID) (s : Polling) : Prop where
  /-- an append that answers puts the event it answers at the end of its run's stream -/
  appended : ∀ r eventType payload now runEvent,
    (polling runId).reply s (.append r eventType payload now) = .appended runEvent →
      runEvent = ⟨r, (s.log.stream r).length + 1, eventType, payload, now⟩ ∧
        ((polling runId).step s (.append r eventType payload now)).log.stream r = s.log.stream r ++ [runEvent]
  numbered : ∀ j, (s.log.stream j).map RunEvent.sequenceNr = List.range' 1 (s.log.stream j).length
  grows : ∀ op j, s.log.stream j <+: ((polling runId).step s op).log.stream j
  reinit : ∀ j, j ∈ s.log.internalRunEvents → ((polling runId).step s (.initRunStream j)).log = s.log
  others : ∀ r j eventType payload now, j ≠ r →
    ((polling runId).step s (.append r eventType payload now)).log.stream j = s.log.stream j

/-- **Pagination loses and duplicates nothing.** Whatever is initialised and appended in between, the pages received so
far are, one after the other, the run's whole stream as of the last poll. -/
theorem pages_complete (runId : UUID) (ops : List LogOp) :
    (∀ pre post, ops = pre ++ .poll :: post → .poll ∉ post →
      ((polling runId).run {} ops).pages.flatten = ((polling runId).run {} pre).log.stream runId) ∧
    (.poll ∉ ops → ((polling runId).run {} ops).pages.flatten = []) ∧
    LogKept runId ((polling runId).run {} ops) := by
  refine ⟨?_, ?_, ?_⟩
  · intro pre post hops hpost
    subst hops
    have hquiet : ∀ op ∈ post, op ≠ .poll := fun op hop he => hpost (he ▸ hop)
    rw [Machine.run_append, Machine.run_cons]
    calc ((polling runId).run ((polling runId).step ((polling runId).run {} pre) .poll) post).received
        = ((polling runId).step ((polling runId).run {} pre) .poll).received := received_of_no_poll hquiet
      _ = ((polling runId).run {} pre).log.stream runId := (poll_spec (inStep_run runId pre)).1
  · intro hno
    exact received_of_no_poll (s := {}) fun op hop he => hno (he ▸ hop)
  · have hlog := (inStep_run runId ops).log
    refine ⟨?_, fun j => hlog.numbered j, fun op j => stream_prefix_step hlog op j, fun j hj => ?_, ?_⟩
    · intro r eventType payload now runEvent hreply
      exact stream_appended hlog hreply
    · exact InMemoryRunEventLog.initRunStream_known hj
    · intro r j eventType payload now hj
      exact stream_append_ne hj eventType payload now hlog

/-- a poll at a page boundary, a re-initialisation and an event of another run in between -/
example : (((polling 1).run {} [.initRunStream 1, .append 1 "created" [] 10, .poll, .initRunStream 1, .initRunStream 2,
    .append 2 "created" [] 11, .append 1 "enqueued" [] 12, .poll, .poll]).pages.map fun page =>
      page.map RunEvent.eventType) = [["created"], ["enqueued"], []] := by decide

end LlmAgent
