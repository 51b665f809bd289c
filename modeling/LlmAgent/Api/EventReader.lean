/-
A client that reads a run's events page by page over HTTP, and what it knows from them.

The client sends `GET /runs/{r}/events?after=cursor`; its cursor is the number of the last event it received, and stays
as it is on an empty page and on a 404. Between two polls any requests are served and any workers move.

- `effect_signed`, `stream_grows`: every stream is numbered, names its run, and only grows;
- `reading`, `inStep_reading`: the service and such a client as one machine, and what keeps the client in step;
- `pages_of_stream`: the pages are the stream as of the last poll, without a gap and without a repetition;
- `RunEventDto.event`, `Projection.toDto`, `reader_knows`: replaying what it received, the client gets what a `GET` of
  the run would show it.
-/
import LlmAgent.Api.ClientView
import LlmAgent.Runs.EventPages
import LlmAgent.Runs.Projection

namespace LlmAgent

open Core

/-! ## Streams -/

/-- the events are numbered from 1 on and name the run -/
structure RunView.Signed (r : UUID) (v : RunView) : Prop where
  id : v.record.id = r
  numbered : Numbered RunEvent.sequenceNr v.events
  named : ∀ e ∈ v.events, e.runId = r

theorem created_signed (r : UUID) (userId : String) (now : UnixTs) : (RunView.created r userId now).Signed r where
  id := rfl
  numbered := rfl
  named := by
    intro e he
    rw [List.mem_singleton.1 he]

theorem effect_signed {r : UUID} {v : RunView} (a : Act) (h : v.Signed r) : (v.effect a).Signed r := by
  refine ⟨(record_id v.record a).trans h.id, ?_, ?_⟩
  · unfold RunView.effect RunView.nextEvents
    cases a.event with
    | none => simpa using h.numbered
    | some e => exact h.numbered.snoc rfl
  · intro e he
    unfold RunView.effect RunView.nextEvents at he
    rcases List.mem_append.1 he with he | he
    · exact h.named e he
    · obtain ⟨event, -, rfl⟩ := List.mem_map.1 he
      exact h.id

/-- every run of the service, between two steps -/
theorem signed_run (ops : List AtomicOp) {r : UUID} {v : RunView}
    (hv : (atomicSys.run Sys.init ops).runtime.view r = some v) : v.Signed r := by
  have hrun := atomicRefine.local_run' (k := r) (I := fun o => ∀ v, o = some v → v.Signed r)
    (fun o a => lifecycle_step (fun userId now _ => created_signed r userId now) fun v h _ => effect_signed a h)
    (s := Sys.init) good_default (by nofun) ops
  exact hrun v hv

theorem logInOrder_run (ops : List AtomicOp) :
    LogInOrder (atomicSys.run Sys.init ops).runtime.internalEventLogs := by
  have hgood := atomic_good ops
  refine ⟨fun r hr => hgood.known r (hgood.stored r hr), fun r => ?_⟩
  cases hv : (atomicSys.run Sys.init ops).runtime.view r with
  | none =>
    have hstream : (atomicSys.run Sys.init ops).runtime.internalEventLogs.stream r = [] :=
      stream_of_unknown hgood.toStructural hv
    rw [hstream]
    exact Numbered.nil
  | some v =>
    have hevents : v.events = (atomicSys.run Sys.init ops).runtime.internalEventLogs.stream r :=
      (view_some_iff.1 hv).2.1
    rw [← hevents]
    exact (signed_run ops hv).numbered

/-- an event, once appended, stays where it is -/
theorem stream_grows {s : Sys} (hgood : Good s.runtime) (ops : List AtomicOp) (r : UUID) :
    s.runtime.stream r <+: (atomicSys.run s ops).runtime.stream r := by
  cases hv : s.runtime.view r with
  | none =>
    rw [stream_of_unknown hgood.toStructural hv]
    exact List.nil_prefix
  | some v =>
    have hkept : ∃ v', (atomicSys.run s ops).runtime.view r = some v' ∧ v.events <+: v'.events := by
      refine atomicRefine.local_run' (k := r) (I := fun o => ∃ v', o = some v' ∧ v.events <+: v'.events) ?_ hgood
        ⟨v, hv, List.prefix_refl _⟩ ops
      intro o a ho hen
      obtain ⟨v', rfl, hprefix⟩ := ho
      exact ⟨v'.effect a, rfl, hprefix.trans (List.prefix_append _ _)⟩
    obtain ⟨v', hv', hprefix⟩ := hkept
    rwa [← (view_some_iff.1 hv).2.1, ← (view_some_iff.1 hv').2.1]

/-! ## The client -/

structure Reader where
  sys : Sys := Sys.init
  /-- the query parameter `after` of the next poll -/
  cursor : Option ℤ := none
  pages : List (List RunEventDto) := []

inductive ReaderOp where
  | service (op : ServiceOp)
  | poll (uuid4 : UUID) (now : UnixTs)

namespace Reader

/-- the client after it received a page -/
def receive (reader : Reader) (page : List RunEventDto) : Reader :=
  { reader with
    cursor := match page.getLast? with
      | none => reader.cursor
      | some dto => some dto.sequenceNr
    pages := reader.pages ++ [page] }

def exec (r : UUID) (reader : Reader) : ReaderOp → Option Response × Reader
  | .service op => (service.reply reader.sys op, { reader with sys := service.step reader.sys op })
  | .poll uuid4 now =>
    let op := ServiceOp.request (.getAgentRunEvents r reader.cursor) uuid4 now
    let reader' := { reader with sys := service.step reader.sys op }
    match service.reply reader.sys op with
    | some ⟨200, .runEvents page⟩ => (some ⟨200, .runEvents page⟩, reader'.receive page)
    | response => (response, reader')

/-- all events the client received -/
def received (reader : Reader) : List RunEventDto := reader.pages.flatten

end Reader

/-- **The service and a client that reads the events of run `r`.** -/
def reading (r : UUID) : Machine Reader ReaderOp (Option Response) := ⟨Reader.exec r⟩

/-- the steps of the service in a run with the client; a poll is none -/
def ReaderOp.service? : ReaderOp → Option ServiceOp
  | .service op => some op
  | .poll _ _ => none

/-- the client holds these events, and its cursor is the number of the last one -/
structure Reader.Holds (r : UUID) (reader : Reader) (pages : List (List RunEvent)) : Prop where
  inStep : InStep r ⟨reader.sys.runtime.internalEventLogs, reader.cursor, pages⟩
  pages : reader.pages = pages.map (List.map RunEventV1Mapper.toDto)

theorem Reader.Holds.received {r : UUID} {reader : Reader} {pages : List (List RunEvent)} (h : reader.Holds r pages) :
    reader.received = pages.flatten.map RunEventV1Mapper.toDto := by
  rw [Reader.received, h.pages, List.map_flatten]

/-- a read is no step of the system -/
theorem service_step_events (s : Sys) (r : UUID) (after : Option ℤ) (uuid4 : UUID) (now : UnixTs) :
    service.step s (.request (.getAgentRunEvents r after) uuid4 now) = s := by
  rw [service_step]
  rfl

/-- **A poll brings the client up to date** and disturbs nothing. -/
theorem holds_poll {r : UUID} {reader : Reader} (hgood : Good reader.sys.runtime) {pages : List (List RunEvent)}
    (h : reader.Holds r pages) (uuid4 : UUID) (now : UnixTs) :
    ((reading r).step reader (.poll uuid4 now)).sys = reader.sys ∧
    ∃ pages', ((reading r).step reader (.poll uuid4 now)).Holds r pages' ∧
      pages'.flatten = reader.sys.runtime.stream r := by
  obtain ⟨hreceived, hinStep⟩ := poll_spec h.inStep
  cases hv : reader.sys.runtime.view r with
  | none =>
    have hreply := reply_unknown (show (AgentRequest.getAgentRunEvents r reader.cursor).runId? = some r from rfl) hv
      uuid4 now
    have hstep : (reading r).step reader (.poll uuid4 now) = reader := by
      change (Reader.exec r reader (.poll uuid4 now)).2 = reader
      simp only [Reader.exec, hreply, notFound, service_step_events]
    have hstream := stream_of_unknown hgood.toStructural hv
    have hnone : pages.flatten = [] := by
      have hprefix := h.inStep.received
      change pages.flatten <+: reader.sys.runtime.stream r at hprefix
      rw [hstream] at hprefix
      exact List.prefix_nil.1 hprefix
    rw [hstep]
    exact ⟨rfl, pages, h, hnone.trans hstream.symm⟩
  | some v =>
    obtain ⟨events, hlist, hreply⟩ := reply_events hgood hv reader.cursor uuid4 now
    have hstep : (reading r).step reader (.poll uuid4 now) = reader.receive (events.map RunEventV1Mapper.toDto) := by
      change (Reader.exec r reader (.poll uuid4 now)).2 = _
      simp only [Reader.exec, hreply, service_step_events]
    have hpoll : (polling r).step ⟨reader.sys.runtime.internalEventLogs, reader.cursor, pages⟩ .poll =
        Polling.receive ⟨reader.sys.runtime.internalEventLogs, reader.cursor, pages⟩ events := by
      change (Polling.exec r _ .poll).2 = _
      simp only [Polling.exec, hlist]
    have hcursor : (reader.receive (events.map RunEventV1Mapper.toDto)).cursor =
        (Polling.receive ⟨reader.sys.runtime.internalEventLogs, reader.cursor, pages⟩ events).cursor := by
      unfold Reader.receive Polling.receive
      rw [List.getLast?_map]
      cases events.getLast? <;> rfl
    rw [hpoll] at hreceived hinStep
    rw [hstep]
    refine ⟨rfl, pages ++ [events], ⟨?_, ?_⟩, hreceived⟩
    · rw [hcursor]
      exact hinStep
    · rw [Reader.receive, h.pages, List.map_append, List.map_singleton]

/-- a step of the service leaves the client in step -/
theorem holds_service {r : UUID} {pre : List ServiceOp} {reader : Reader} (hsys : reader.sys = service.run Sys.init pre)
    {pages : List (List RunEvent)} (h : reader.Holds r pages) (op : ServiceOp) :
    ((reading r).step reader (.service op)).Holds r pages := by
  have hgood := service_good pre
  rw [← hsys] at hgood
  have hnext : service.step reader.sys op = service.run Sys.init (pre ++ [op]) := by
    rw [hsys, Machine.run_snoc]
  refine ⟨⟨?_, ?_, h.inStep.cursor⟩, h.pages⟩
  · change LogInOrder (service.step reader.sys op).runtime.internalEventLogs
    rw [hnext, service_run]
    exact logInOrder_run _
  · change pages.flatten <+: (service.step reader.sys op).runtime.stream r
    rw [service_step]
    exact h.inStep.received.trans (stream_grows hgood op.atomic r)

/-- the system and the client after any run -/
theorem holds_reading (r : UUID) (ops : List ReaderOp) :
    ((reading r).run {} ops).sys = service.run Sys.init (ops.filterMap ReaderOp.service?) ∧
    ∃ pages, ((reading r).run {} ops).Holds r pages := by
  induction ops using List.reverseRecOn with
  | nil => exact ⟨rfl, [], inStep_init r, rfl⟩
  | append_singleton pre op ih =>
    obtain ⟨hsys, pages, hholds⟩ := ih
    rw [Machine.run_snoc, List.filterMap_append]
    cases op with
    | service op =>
      refine ⟨?_, pages, holds_service hsys hholds op⟩
      calc ((reading r).step ((reading r).run {} pre) (.service op)).sys
          = service.step ((reading r).run {} pre).sys op := rfl
        _ = service.step (service.run Sys.init (pre.filterMap ReaderOp.service?)) op := by rw [hsys]
        _ = service.run Sys.init (pre.filterMap ReaderOp.service? ++ [op]) := (Machine.run_snoc _ _ _ _).symm
    | poll uuid4 now =>
      have hgood : Good ((reading r).run {} pre).sys.runtime := by
        rw [hsys]
        exact service_good _
      obtain ⟨hsame, pages', hholds', -⟩ := holds_poll hgood hholds uuid4 now
      refine ⟨?_, pages', hholds'⟩
      rw [hsame, hsys]
      exact congrArg _ (List.append_nil _).symm

/-- what the client has received after a poll -/
theorem received_poll (r : UUID) (pre : List ReaderOp) (uuid4 : UUID) (now : UnixTs) :
    ((reading r).run {} (pre ++ [.poll uuid4 now])).received =
      (((reading r).run {} pre).sys.runtime.stream r).map RunEventV1Mapper.toDto := by
  obtain ⟨hsys, pages, hholds⟩ := holds_reading r pre
  have hgood : Good ((reading r).run {} pre).sys.runtime := by
    rw [hsys]
    exact service_good _
  obtain ⟨-, pages', hholds', hflatten⟩ := holds_poll hgood hholds uuid4 now
  rw [Machine.run_snoc, hholds'.received, hflatten]

/-- **The pages are the stream.** Whatever is served and whatever the workers do between the polls, what the client
received is, event by event, the run's whole stream as of its last poll: numbered 1, 2, 3, … without a gap and without
a repetition. Polling disturbs nobody: the system goes through the states it goes through without the client. -/
theorem pages_of_stream (r : UUID) (ops : List ReaderOp) :
    ((reading r).run {} ops).sys = service.run Sys.init (ops.filterMap ReaderOp.service?) ∧
    (∀ pre post uuid4 now, ops = pre ++ .poll uuid4 now :: post → (∀ op ∈ post, ∃ step, op = .service step) →
      ((reading r).run {} ops).received =
        (((reading r).run {} pre).sys.runtime.stream r).map RunEventV1Mapper.toDto) ∧
    ((reading r).run {} ops).received.map RunEventDto.sequenceNr =
      (List.range' 1 ((reading r).run {} ops).received.length).map Int.ofNat := by
  obtain ⟨hsys, pages, hholds⟩ := holds_reading r ops
  refine ⟨hsys, ?_, ?_⟩
  · intro pre post uuid4 now hops hquiet
    subst hops
    have hkept : ∀ reader : Reader, ((reading r).run reader post).received = reader.received := by
      intro reader
      refine Machine.run_inv (M := reading r) (I := fun s : Reader => s.received = reader.received)
        (P := fun (_ : Reader) (op : ReaderOp) => ∃ step, op = .service step) ?_ rfl
        (Machine.along_of_mem hquiet reader)
      intro s op hI hop
      obtain ⟨step, rfl⟩ := hop
      exact hI
    calc ((reading r).run {} (pre ++ .poll uuid4 now :: post)).received
        = ((reading r).run ((reading r).run {} (pre ++ [.poll uuid4 now])) post).received := by
          rw [List.append_cons, Machine.run_append]
      _ = ((reading r).run {} (pre ++ [.poll uuid4 now])).received := hkept _
      _ = (((reading r).run {} pre).sys.runtime.stream r).map RunEventV1Mapper.toDto := received_poll r pre uuid4 now
  · have hnumbered : Numbered RunEvent.sequenceNr pages.flatten :=
      (hholds.inStep.log.numbered r).initial hholds.inStep.received
    rw [hholds.received, List.length_map, List.map_map, ← hnumbered, List.map_map]
    rfl

/-! ## What the client knows -/

/-- executors emit types of their own -/
def AtomicOp.OwnTypes : AtomicOp → Prop
  | .emitEvent _ eventType _ _ => eventType ∉ ownEventTypes
  | _ => True

theorem atomic_projectable {s : Sys} (hawake : Awake s.runtime) {op : AtomicOp} (hown : op.OwnTypes) :
    lifecycles.machine.Along ProjectableAt s.runtime.view (op.decisions s) := by
  cases hfine : op.fine with
  | none =>
    obtain ⟨w, outcome, now, rfl⟩ := fine_eq_none hfine
    simp only [AtomicOp.decisions]
    cases s.executingRun w with
    | none => trivial
    | some r =>
      refine along_taken (C := fun a st => a.Projectable st) ?_
      intro v hv _
      unfold finishAct
      cases outcome with
      | raised message => trivial
      | returned =>
        split_ifs
        · exact hawake r v hv
        · trivial
  | some fine =>
    rw [decisions_fine hfine]
    unfold SysOp.decisions
    cases hcall : fine.call s with
    | none => trivial
    | some call =>
      refine decisions_projectable ?_ hawake
      cases op with
      | finish => cases hfine
      | shutdownExecution =>
        cases hfine
        cases hcall
      | createRun =>
        cases hfine
        cases hcall
        trivial
      | cancelRun =>
        cases hfine
        cases hcall
        trivial
      | advance w now =>
        cases hfine
        change (s.consumers w).phase.call w now = some call at hcall
        cases hphase : (s.consumers w).phase <;> rw [hphase] at hcall <;> cases hcall <;> trivial
      | heartbeat w now =>
        cases hfine
        obtain ⟨r, -, rfl⟩ := Option.map_eq_some_iff.1 hcall
        trivial
      | emitEvent w eventType payload now =>
        cases hfine
        obtain ⟨r, -, rfl⟩ := Option.map_eq_some_iff.1 hcall
        exact hown

/-- the stream of every run of the service replays to its record -/
theorem projects_run {ops : List AtomicOp} (hown : ∀ op ∈ ops, op.OwnTypes) (r : UUID) :
    Projects ((atomicSys.run Sys.init ops).runtime.view r) := by
  induction ops using List.reverseRecOn with
  | nil => nofun
  | append_singleton pre op ih =>
    have hprojects := ih fun op' hop' => hown op' (List.mem_append_left _ hop')
    have hawake : Awake (atomicSys.run Sys.init pre).runtime := fun j v hv => (presentable_run pre hv).enqueued
    rw [Machine.run_snoc]
    refine atomicRefine.local_step (k := r) (I := Projects) (Q := ProjectableAt) (atomic_good pre) ?_ ?_ hprojects
    · intro l hl
      rw [hl]
      exact atomic_projectable hawake (hown op (by simp))
    · intro W a hQ hI hen
      exact projects_step hQ hI hen

/-- the event that a DTO of run `r` came from -/
def RunEventDto.event (r : UUID) (dto : RunEventDto) : RunEvent :=
  ⟨r, dto.sequenceNr.toNat, dto.eventType, dto.payload, dto.timestampUtc⟩

/-- mapping to a DTO loses the run's id only -/
theorem event_toDto {e : RunEvent} {r : UUID} (h : e.runId = r) : (RunEventV1Mapper.toDto e).event r = e := by
  subst h
  rfl

/-- what a run is shown as when its events replay to this -/
def Projection.toDto (r : UUID) (p : Projection) : RunDto where
  id := r
  status := p.status.name
  result := if p.status = .succeeded then some okResult else none
  error := p.error
  cancelRequested := p.cancelRequested

/-- the run as the client rebuilds it from the events it received -/
def reconstruct (r : UUID) (dtos : List RunEventDto) : Option RunDto :=
  (replay.run none (dtos.map (RunEventDto.event r))).map (Projection.toDto r)

theorem toDto_of_agrees {r : UUID} {p : Projection} {v : RunView} (hsound : v.Sound r) (h : Presentable v.record)
    (hagree : Agrees p v.record) : p.toDto r = RunV1Mapper.toDto v.record := by
  have hwf := toDto_wellFormed hsound h
  have hresult := hwf.result
  change v.record.result = if v.record.status.name = RunStatusCode.succeeded.name then some okResult else none
    at hresult
  simp only [RunStatusCode.name_injective.eq_iff] at hresult
  simp only [Projection.toDto, RunV1Mapper.toDto, hagree.status, hagree.error, hagree.cancelRequested, hsound.id,
    hresult]

/-- executors emit types of their own -/
def ReaderOp.OwnTypes : ReaderOp → Prop
  | .service (.worker op) => op.atomic.OwnTypes
  | _ => True

theorem ownTypes_atomic {ops : List ReaderOp} (hown : ∀ op ∈ ops, op.OwnTypes) :
    ∀ a ∈ (ops.filterMap ReaderOp.service?).flatMap ServiceOp.atomic, a.OwnTypes := by
  intro a ha
  obtain ⟨op, hop, ha⟩ := List.mem_flatMap.1 ha
  obtain ⟨readerOp, hmem, hservice⟩ := List.mem_filterMap.1 hop
  have hthis := hown readerOp hmem
  cases readerOp with
  | poll => cases hservice
  | service step =>
    obtain rfl := Option.some.inj hservice
    cases step with
    | worker op =>
      rw [List.mem_singleton.1 ha]
      exact hthis
    | request agentRequest uuid4 now =>
      cases agentRequest with
      | createAgentRun agentPrompt =>
        rw [List.mem_singleton.1 ha]
        trivial
      | cancelAgentRun j =>
        rw [List.mem_singleton.1 ha]
        trivial
      | getAgentRun j => cases ha
      | getAgentRunEvents j after => cases ha

/-- **The events tell the run.** When the executors emit event types of their own, a client that polled just now
rebuilds from the events it received exactly what a `GET` of the run shows. -/
theorem reader_knows (r : UUID) {pre : List ReaderOp} (hown : ∀ op ∈ pre, op.OwnTypes) (uuid4 : UUID) (now : UnixTs)
    {dto : RunDto} (hshown : ((reading r).run {} pre).sys.Shows r dto) :
    reconstruct r ((reading r).run {} (pre ++ [.poll uuid4 now])).received = some dto := by
  obtain ⟨v, hv, rfl⟩ := shows_iff.1 hshown
  have hsys := (holds_reading r pre).1
  rw [hsys, service_run] at hv
  have hsigned := signed_run _ hv
  obtain ⟨-, p, hreplay, hagree⟩ := projects_run (ownTypes_atomic hown) r v hv
  have hevents : ((reading r).run {} pre).sys.runtime.stream r = v.events := by
    rw [hsys, service_run]
    exact (view_some_iff.1 hv).2.1.symm
  have hback : (v.events.map RunEventV1Mapper.toDto).map (RunEventDto.event r) = v.events := by
    rw [List.map_map]
    calc v.events.map (RunEventDto.event r ∘ RunEventV1Mapper.toDto)
        = v.events.map id := List.map_congr_left fun e he => event_toDto (hsigned.named e he)
      _ = v.events := List.map_id _
  have hsound := (atomic_good _).sound r v hv
  calc reconstruct r ((reading r).run {} (pre ++ [.poll uuid4 now])).received
      = reconstruct r (v.events.map RunEventV1Mapper.toDto) := by rw [received_poll, hevents]
    _ = (replay.run none v.events).map (Projection.toDto r) := by rw [reconstruct, hback]
    _ = some (p.toDto r) := by rw [hreplay, Option.map_some]
    _ = some (RunV1Mapper.toDto v.record) := by rw [toDto_of_agrees hsound (presentable_run _ hv) hagree]

/-- run 1 is created, a worker claims it, and the client polls -/
def claimedRunOne : List ReaderOp :=
  [.service (.request (.createAgentRun ⟨"prompt", []⟩) 1 10), .poll 0 15, .service (.worker (.advance "w1" 20)),
   .service (.worker (.advance "w1" 20)), .service (.worker (.advance "w1" 20))]

theorem reader_knows_running : reconstruct 1 ((reading 1).run {} (claimedRunOne ++ [.poll 0 30])).received =
    some { id := 1, status := "RUNNING" } := by
  refine reader_knows 1 ?_ 0 30 (fun _ _ => rfl)
  intro op hop
  fin_cases hop <;> trivial

end LlmAgent
