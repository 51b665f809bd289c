/-
The append-only event log of runs (`local_runtime/event_log/in_memory.py`): one stream of events per run and, in a
dictionary of its own, the next sequence number of each stream.

- `append_known`: on a run whose stream and counter are known, `append` succeeds and adds one event at the end;
- `initRunStream_known`: initialising a known stream again changes nothing.
-/
import LlmAgent.Runs.Domain

namespace LlmAgent

open Core

structure RunEvent where
  runId : UUID
  sequenceNr : ℕ
  eventType : String
  payload : List (String × String)
  timestampUtc : UnixTs
deriving DecidableEq, Repr

structure InMemoryRunEventLog where
  internalRunEvents : Dict UUID (List RunEvent)
  nextSequenceNr : Dict UUID ℕ

namespace InMemoryRunEventLog

def empty : InMemoryRunEventLog := ⟨.empty, .empty⟩

def initRunStream (log : InMemoryRunEventLog) (runId : UUID) : InMemoryRunEventLog :=
  if runId ∈ log.internalRunEvents then log
  else { internalRunEvents := log.internalRunEvents.set runId [], nextSequenceNr := log.nextSequenceNr.set runId 1 }

def append (log : InMemoryRunEventLog) (runId : UUID) (eventType : String) (payload : List (String × String))
    (now : UnixTs) : Except PyError (RunEvent × InMemoryRunEventLog) :=
  match log.internalRunEvents.get? runId with
  | none => .error (.valueError ("Run " ++ UUID.str runId ++ " not found"))
  | some events =>
    match log.nextSequenceNr.get? runId with
    | none => .error (.keyError runId)
    | some sequenceNr =>
      let runEvent : RunEvent := ⟨runId, sequenceNr, eventType, payload, now⟩
      .ok (runEvent, { nextSequenceNr := log.nextSequenceNr.set runId (sequenceNr + 1),
                       internalRunEvents := log.internalRunEvents.set runId (events ++ [runEvent]) })

/-- `list(run_id, after_sequence=...)`: all events of the run, or those numbered above `after_sequence` -/
def list (log : InMemoryRunEventLog) (runId : UUID) (afterSequence : Option ℤ) : Except PyError (List RunEvent) :=
  match log.internalRunEvents.get? runId with
  | none => .error (.valueError ("Run " ++ UUID.str runId ++ " not found"))
  | some events =>
    match afterSequence with
    | none => .ok events
    | some number => .ok (events.filter fun runEvent => decide ((runEvent.sequenceNr : ℤ) > number))

/-- the stream of a run, empty when the run is unknown -/
def stream (log : InMemoryRunEventLog) (runId : UUID) : List RunEvent := (log.internalRunEvents.get? runId).getD []

/-- the run's stream exists and its counter is one more than its length -/
def Known (log : InMemoryRunEventLog) (runId : UUID) : Prop :=
  runId ∈ log.internalRunEvents ∧ log.nextSequenceNr.get? runId = some ((log.stream runId).length + 1)

/-- the event that `append` adds to a known stream -/
def nextEvent (log : InMemoryRunEventLog) (runId : UUID) (eventType : String) (payload : List (String × String))
    (now : UnixTs) : RunEvent :=
  ⟨runId, (log.stream runId).length + 1, eventType, payload, now⟩

/-- the log after `append` on a known stream -/
def push (log : InMemoryRunEventLog) (runId : UUID) (eventType : String) (payload : List (String × String))
    (now : UnixTs) : InMemoryRunEventLog where
  internalRunEvents := log.internalRunEvents.set runId
    (log.stream runId ++ [log.nextEvent runId eventType payload now])
  nextSequenceNr := log.nextSequenceNr.set runId ((log.stream runId).length + 2)

theorem append_known {log : InMemoryRunEventLog} {runId : UUID} (h : log.Known runId) (eventType : String)
    (payload : List (String × String)) (now : UnixTs) :
    log.append runId eventType payload now =
      .ok (log.nextEvent runId eventType payload now, log.push runId eventType payload now) := by
  obtain ⟨events, hev⟩ := (Dict.mem_iff _ _).1 h.1
  have hstream : log.stream runId = events := by simp [stream, hev]
  have hnr := h.2
  rw [hstream] at hnr
  simp only [append, hev, hnr, nextEvent, push, hstream]

theorem append_unknown {log : InMemoryRunEventLog} {runId : UUID} (h : runId ∉ log.internalRunEvents)
    (eventType : String) (payload : List (String × String)) (now : UnixTs) :
    log.append runId eventType payload now = .error (.valueError ("Run " ++ UUID.str runId ++ " not found")) := by
  simp only [append, (Dict.get?_eq_none _ _).2 h]

theorem initRunStream_known {log : InMemoryRunEventLog} {runId : UUID} (h : runId ∈ log.internalRunEvents) :
    log.initRunStream runId = log := if_pos h

@[simp] theorem stream_push_self (log : InMemoryRunEventLog) (runId : UUID) (eventType : String)
    (payload : List (String × String)) (now : UnixTs) :
    (log.push runId eventType payload now).stream runId =
      log.stream runId ++ [log.nextEvent runId eventType payload now] := by
  simp [stream, push]

theorem stream_push_ne (log : InMemoryRunEventLog) {runId other : UUID} (eventType : String)
    (payload : List (String × String)) (now : UnixTs) (h : other ≠ runId) :
    (log.push runId eventType payload now).stream other = log.stream other := by
  simp [stream, push, h]

theorem mem_push (log : InMemoryRunEventLog) (runId other : UUID) (eventType : String)
    (payload : List (String × String)) (now : UnixTs) :
    other ∈ (log.push runId eventType payload now).internalRunEvents ↔
      other = runId ∨ other ∈ log.internalRunEvents := by
  simp only [Dict.mem_iff, push]
  by_cases h : other = runId
  · subst h; simp
  · simp [h]

/-- an append keeps every stream well counted -/
theorem known_push {log : InMemoryRunEventLog} {runId other : UUID} (eventType : String)
    (payload : List (String × String)) (now : UnixTs) (h : log.Known other) :
    (log.push runId eventType payload now).Known other := by
  refine ⟨(mem_push _ _ _ _ _ _).2 (Or.inr h.1), ?_⟩
  by_cases he : other = runId
  · subst he; simp [push, stream]
  · rw [stream_push_ne log eventType payload now he]
    simpa [push, he] using h.2

/-- a fresh run starts with an empty stream and the counter at one -/
theorem stream_initRunStream_self {log : InMemoryRunEventLog} {runId : UUID} (h : runId ∉ log.internalRunEvents) :
    (log.initRunStream runId).stream runId = [] ∧ (log.initRunStream runId).Known runId := by
  simp only [initRunStream, if_neg h, stream, Known, Dict.mem_iff]
  simp

theorem stream_initRunStream_ne (log : InMemoryRunEventLog) {runId other : UUID} (h : other ≠ runId) :
    (log.initRunStream runId).stream other = log.stream other ∧
      (log.Known other → (log.initRunStream runId).Known other) := by
  unfold initRunStream
  split_ifs
  · exact ⟨rfl, id⟩
  · refine ⟨by simp [stream, h], fun hk => ⟨?_, ?_⟩⟩
    · obtain ⟨events, hev⟩ := (Dict.mem_iff _ _).1 hk.1
      exact (Dict.mem_iff _ _).2 ⟨events, by simpa [h] using hev⟩
    · simpa [stream, h] using hk.2

theorem mem_initRunStream (log : InMemoryRunEventLog) (runId other : UUID) :
    other ∈ (log.initRunStream runId).internalRunEvents ↔ other = runId ∨ other ∈ log.internalRunEvents := by
  unfold initRunStream
  split_ifs with h
  · exact ⟨Or.inr, fun ho => ho.elim (fun he => he ▸ h) id⟩
  · simp only [Dict.mem_iff]
    by_cases he : other = runId
    · subst he; simp
    · simp [he]

end InMemoryRunEventLog

end LlmAgent
