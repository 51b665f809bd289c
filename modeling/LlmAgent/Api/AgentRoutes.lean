/-
The agent routes (`api/http/v1/routes/agent.py`), their DTOs and mappers, and the service they form with the workers.

- `RunV1Mapper.toDto`, `RunEventV1Mapper.toDto`, `CreatedRunV1Mapper.toDto`: what leaves the process;
- `createAgentRun`, `getAgentRun`, `cancelAgentRun`, `getAgentRunEvents`: the routes, over the orchestration service;
- `AgentRequest.serve`: a request served; an exception that leaves its route is answered with 500;
- `service`: requests of any clients and steps of any workers, in any order;
- `service_run`: a run of it is a run of `atomicSys`.

Between the awaits of a route nothing suspends (the locks of the in-memory stores are never contended), so a request is
one step. FastAPI has parsed it already: a path or a body that does not parse reaches no route.
-/
import LlmAgent.Worker.CancellationHonoured

namespace LlmAgent

open Core

/-! ## DTOs and mappers -/

structure AgentPromptDto where
  prompt : String
  history : List String

structure CreatedRunDto where
  id : UUID

structure RunDto where
  id : UUID
  status : String
  result : Option PyDict := none
  error : Option String := none
  cancelRequested : Bool := false

structure RunEventDto where
  sequenceNr : ℤ
  eventType : String
  payload : List (String × String)
  timestampUtc : UnixTs

structure CancelRunResponseDto where
  runId : UUID
  status : String
  message : String

/-- `status.name` -/
def RunStatusCode.name : RunStatusCode → String
  | .created => "CREATED"
  | .enqueued => "ENQUEUED"
  | .running => "RUNNING"
  | .succeeded => "SUCCEEDED"
  | .failed => "FAILED"
  | .cancelled => "CANCELLED"
  | .timedOut => "TIMED_OUT"
  | .retrying => "RETRYING"

theorem RunStatusCode.name_injective : Function.Injective RunStatusCode.name := by
  intro a b h
  revert h
  cases a <;> cases b <;> decide

def CreatedRunV1Mapper.toDto (runStatus : RunStatus) : CreatedRunDto := { id := runStatus.id }

def RunV1Mapper.toDto (runStatus : RunStatus) : RunDto where
  id := runStatus.id
  status := runStatus.status.name
  result := runStatus.result
  error := runStatus.error
  cancelRequested := runStatus.cancelRequested

def RunEventV1Mapper.toDto (runEvent : RunEvent) : RunEventDto where
  sequenceNr := runEvent.sequenceNr
  eventType := runEvent.eventType
  payload := runEvent.payload
  timestampUtc := runEvent.timestampUtc

/-! ## BackendRunOrchestrationService -/

/-- an API request to the work processor -/
structure RunRequest where
  prompt : String
  history : List String
  userId : String

def hardcodedUser : String := "hardcoded_user_later_take_it_from_context"

namespace BackendRunOrchestrationService

/-- `create_run(prompt)`; of the request the store reads the user only -/
def createRun (prompt : String) (runId : UUID) (now : UnixTs) : StoreM RunStatus :=
  let runRequest : RunRequest := { prompt := prompt, history := [], userId := hardcodedUser }
  orchestratorCreateRun runId runRequest.userId now

def getRun (runId : UUID) : StoreM RunStatus := getStatus runId

def cancelRun (runId : UUID) (now : UnixTs) : StoreM Bool := orchestratorCancelRun runId now

def getEvents (runId : UUID) (afterSequence : Option ℤ) : StoreM (List RunEvent) :=
  LlmAgent.getEvents runId afterSequence

end BackendRunOrchestrationService

/-! ## Routes -/

inductive Body where
  | createdRun (dto : CreatedRunDto)
  | run (dto : RunDto)
  | cancelRun (dto : CancelRunResponseDto)
  | runEvents (dtos : List RunEventDto)
  /-- the body of an `HTTPException` -/
  | detail (text : String)
  | text (text : String)

structure Response where
  statusCode : ℕ
  body : Body

/-- `except RunNotFoundError as exc: raise HTTPException(status_code=404, detail=str(exc))` -/
def notFoundHandler (exc : PyError) : StoreM Response :=
  match exc with
  | .runNotFound runId => pure ⟨404, .detail (PyError.str (.runNotFound runId))⟩
  | exc => throw exc

def createAgentRun (agentPrompt : AgentPromptDto) (runId : UUID) (now : UnixTs) : StoreM Response := do
  let createdRunStatus ← BackendRunOrchestrationService.createRun agentPrompt.prompt runId now
  pure ⟨200, .createdRun (CreatedRunV1Mapper.toDto createdRunStatus)⟩

def getAgentRun (runId : UUID) : StoreM Response :=
  tryCatch (do
    let runStatus ← BackendRunOrchestrationService.getRun runId
    pure ⟨200, .run (RunV1Mapper.toDto runStatus)⟩)
    notFoundHandler

def cancelAgentRun (runId : UUID) (now : UnixTs) : StoreM Response :=
  tryCatch (do
    let wasCancelled ← BackendRunOrchestrationService.cancelRun runId now
    if wasCancelled then
      pure ⟨200, .cancelRun ⟨runId, "cancel_requested", "Run cancellation requested"⟩⟩
    else
      pure ⟨200, .cancelRun ⟨runId, "already_terminal", "Run already in terminal state or cancel is requested"⟩⟩)
    notFoundHandler

/-- the same, and `except ValueError as exc: raise HTTPException(status_code=400, detail=str(exc))` -/
def runEventsHandler (exc : PyError) : StoreM Response :=
  match exc with
  | .valueError message => pure ⟨400, .detail (PyError.str (.valueError message))⟩
  | exc => notFoundHandler exc

def getAgentRunEvents (runId : UUID) (after : Option ℤ) : StoreM Response :=
  tryCatch (do
    let _ ← BackendRunOrchestrationService.getRun runId
    let events ← BackendRunOrchestrationService.getEvents runId after
    pure ⟨200, .runEvents (events.map RunEventV1Mapper.toDto)⟩)
    runEventsHandler

/-! ## The service -/

inductive AgentRequest where
  | createAgentRun (agentPrompt : AgentPromptDto)
  | getAgentRun (runId : UUID)
  | cancelAgentRun (runId : UUID)
  | getAgentRunEvents (runId : UUID) (after : Option ℤ)

/-- the run named in the request's path -/
def AgentRequest.runId? : AgentRequest → Option UUID
  | .createAgentRun _ => none
  | .getAgentRun runId => some runId
  | .cancelAgentRun runId => some runId
  | .getAgentRunEvents runId _ => some runId

/-- the route of a request; `uuid4` is the id drawn if it creates a run -/
def AgentRequest.route (uuid4 : UUID) (now : UnixTs) : AgentRequest → StoreM Response
  | .createAgentRun agentPrompt => LlmAgent.createAgentRun agentPrompt uuid4 now
  | .getAgentRun runId => LlmAgent.getAgentRun runId
  | .cancelAgentRun runId => LlmAgent.cancelAgentRun runId now
  | .getAgentRunEvents runId after => LlmAgent.getAgentRunEvents runId after

/-- a request served: what its route returned, or 500 for an exception that left it -/
def AgentRequest.serve (request : AgentRequest) (uuid4 : UUID) (now : UnixTs) (rt : InMemoryRuntime) :
    Response × InMemoryRuntime :=
  match (request.route uuid4 now).run rt with
  | .ok response rt' => (response, rt')
  | .error _ rt' => (⟨500, .text "Internal Server Error"⟩, rt')

/-- a step of a consumer, of its heartbeat loop, of its executor, or its shutdown -/
inductive WorkerOp where
  | shutdownExecution (workerId : String) (now : UnixTs)
  | advance (workerId : String) (now : UnixTs)
  | heartbeat (workerId : String) (now : UnixTs)
  | emitEvent (workerId : String) (eventType : String) (payload : List (String × String)) (now : UnixTs)
  | finish (workerId : String) (outcome : Outcome) (now : UnixTs)

def WorkerOp.atomic : WorkerOp → AtomicOp
  | .shutdownExecution workerId now => .shutdownExecution workerId now
  | .advance workerId now => .advance workerId now
  | .heartbeat workerId now => .heartbeat workerId now
  | .emitEvent workerId eventType payload now => .emitEvent workerId eventType payload now
  | .finish workerId outcome now => .finish workerId outcome now

inductive ServiceOp where
  | request (agentRequest : AgentRequest) (uuid4 : UUID) (now : UnixTs)
  | worker (op : WorkerOp)

/-- the request would create a run under an id that is taken; `uuid4` draws no such id -/
def AgentRequest.Collides (request : AgentRequest) (uuid4 : UUID) (rt : InMemoryRuntime) : Prop :=
  request.runId? = none ∧ uuid4 ∈ rt.internalRunStorage

instance (request : AgentRequest) (uuid4 : UUID) (rt : InMemoryRuntime) : Decidable (request.Collides uuid4 rt) :=
  inferInstanceAs (Decidable (_ ∧ _))

def ServiceOp.exec (s : Sys) : ServiceOp → Option Response × Sys
  | .request agentRequest uuid4 now =>
    if agentRequest.Collides uuid4 s.runtime then (none, s)
    else
      let (response, rt) := agentRequest.serve uuid4 now s.runtime
      (some response, { s with runtime := rt })
  | .worker op => (none, atomicSys.step s op.atomic)

/-- **The service**: agent requests and worker steps in any order; a request is answered. -/
def service : Machine Sys ServiceOp (Option Response) := ⟨ServiceOp.exec⟩

/-- the steps of `atomicSys` that a step of the service is: a read is none -/
def ServiceOp.atomic : ServiceOp → List AtomicOp
  | .request (.createAgentRun _) uuid4 now => [.createRun uuid4 hardcodedUser now]
  | .request (.cancelAgentRun runId) _ now => [.cancelRun runId now]
  | .request _ _ _ => []
  | .worker op => [op.atomic]

/-! ## What the routes return -/

/-- the 404 of a run that is not stored -/
def notFound (runId : UUID) : Response := ⟨404, .detail ("Run " ++ UUID.str runId ++ " not found")⟩

/-- the answer to a cancellation, by what `cancel_run` returned -/
def cancelResponse (runId : UUID) (wasCancelled : Bool) : Response :=
  if wasCancelled then ⟨200, .cancelRun ⟨runId, "cancel_requested", "Run cancellation requested"⟩⟩
  else ⟨200, .cancelRun ⟨runId, "already_terminal", "Run already in terminal state or cancel is requested"⟩⟩

section Routes

variable {rt rt' : InMemoryRuntime} {r : UUID} {now : UnixTs}

/-- handling an exception writes nothing -/
theorem notFoundHandler_run (exc : PyError) (rt : InMemoryRuntime) :
    (∃ response, (notFoundHandler exc).run rt = .ok response rt) ∨ (notFoundHandler exc).run rt = .error exc rt := by
  cases exc with
  | runNotFound runId => exact Or.inl ⟨_, rfl⟩
  | _ => exact Or.inr rfl

theorem runEventsHandler_run (exc : PyError) (rt : InMemoryRuntime) :
    (∃ response, (runEventsHandler exc).run rt = .ok response rt) ∨
      (runEventsHandler exc).run rt = .error exc rt := by
  cases exc with
  | valueError message => exact Or.inl ⟨_, rfl⟩
  | runNotFound runId => exact Or.inl ⟨_, rfl⟩
  | _ => exact Or.inr rfl

theorem createAgentRun_returned (agentPrompt : AgentPromptDto) {uuid4 : UUID} {st : RunStatus}
    (h : (orchestratorCreateRun uuid4 hardcodedUser now).run rt = .ok st rt') :
    (createAgentRun agentPrompt uuid4 now).run rt = .ok ⟨200, .createdRun ⟨st.id⟩⟩ rt' := by
  have hcall : (BackendRunOrchestrationService.createRun agentPrompt.prompt uuid4 now).run rt = .ok st rt' := h
  simp only [createAgentRun, EStateM.run_bind, hcall, EStateM.run_pure, CreatedRunV1Mapper.toDto]

theorem createAgentRun_raised (agentPrompt : AgentPromptDto) {uuid4 : UUID} {e : PyError}
    (h : (orchestratorCreateRun uuid4 hardcodedUser now).run rt = .error e rt') :
    (createAgentRun agentPrompt uuid4 now).run rt = .error e rt' := by
  have hcall : (BackendRunOrchestrationService.createRun agentPrompt.prompt uuid4 now).run rt = .error e rt' := h
  simp only [createAgentRun, EStateM.run_bind, hcall]

theorem getAgentRun_known {st : RunStatus} (h : rt.record? r = some st) :
    (getAgentRun r).run rt = .ok ⟨200, .run (RunV1Mapper.toDto st)⟩ rt := by
  apply tryCatch_ok
  have hread : (BackendRunOrchestrationService.getRun r).run rt = _ := findRun_run h
  simp only [EStateM.run_bind, hread, EStateM.run_pure]

theorem getAgentRun_unknown (h : rt.record? r = none) : (getAgentRun r).run rt = .ok (notFound r) rt := by
  have hread : (BackendRunOrchestrationService.getRun r).run rt = _ := findRun_unknown h
  calc (getAgentRun r).run rt
      = (notFoundHandler (.runNotFound (UUID.str r))).run rt :=
        tryCatch_error (by simp only [EStateM.run_bind, hread])
    _ = .ok (notFound r) rt := rfl

theorem cancelAgentRun_returned {b : Bool} (h : (orchestratorCancelRun r now).run rt = .ok b rt') :
    (cancelAgentRun r now).run rt = .ok (cancelResponse r b) rt' := by
  have hcall : (BackendRunOrchestrationService.cancelRun r now).run rt = .ok b rt' := h
  apply tryCatch_ok
  cases b <;> simp only [EStateM.run_bind, hcall] <;> rfl

theorem cancelAgentRun_raised {e : PyError} (h : (orchestratorCancelRun r now).run rt = .error e rt') :
    (cancelAgentRun r now).run rt = (notFoundHandler e).run rt' := by
  have hcall : (BackendRunOrchestrationService.cancelRun r now).run rt = .error e rt' := h
  apply tryCatch_error
  simp only [EStateM.run_bind, hcall]

theorem getAgentRunEvents_known {st : RunStatus} {after : Option ℤ} {events : List RunEvent}
    (h : rt.record? r = some st) (hlist : rt.internalEventLogs.list r after = .ok events) :
    (getAgentRunEvents r after).run rt = .ok ⟨200, .runEvents (events.map RunEventV1Mapper.toDto)⟩ rt := by
  have hread : (BackendRunOrchestrationService.getRun r).run rt = _ := findRun_run h
  have hevents : (BackendRunOrchestrationService.getEvents r after).run rt = .ok events rt := by
    change (LlmAgent.getEvents r after).run rt = _
    simp only [LlmAgent.getEvents, EStateM.run_bind, findRun_run h, EStateM.run_get, hlist, EStateM.run_pure]
  apply tryCatch_ok
  simp only [EStateM.run_bind, hread, hevents, EStateM.run_pure]

theorem getAgentRunEvents_unknown (h : rt.record? r = none) (after : Option ℤ) :
    (getAgentRunEvents r after).run rt = .ok (notFound r) rt := by
  have hread : (BackendRunOrchestrationService.getRun r).run rt = _ := findRun_unknown h
  calc (getAgentRunEvents r after).run rt
      = (runEventsHandler (.runNotFound (UUID.str r))).run rt :=
        tryCatch_error (by simp only [EStateM.run_bind, hread])
    _ = .ok (notFound r) rt := rfl

theorem serve_of_ok (agentRequest : AgentRequest) {uuid4 : UUID} {response : Response}
    (h : (agentRequest.route uuid4 now).run rt = .ok response rt') :
    agentRequest.serve uuid4 now rt = (response, rt') := by
  simp only [AgentRequest.serve, h]

theorem serve_of_error (agentRequest : AgentRequest) {uuid4 : UUID} {e : PyError}
    (h : (agentRequest.route uuid4 now).run rt = .error e rt') :
    agentRequest.serve uuid4 now rt = (⟨500, .text "Internal Server Error"⟩, rt') := by
  simp only [AgentRequest.serve, h]

/-- a read writes nothing, whatever it answers -/
theorem serve_getAgentRun (uuid4 : UUID) (now : UnixTs) (rt : InMemoryRuntime) (r : UUID) :
    ((AgentRequest.getAgentRun r).serve uuid4 now rt).2 = rt := by
  cases h : rt.record? r with
  | none => rw [serve_of_ok (.getAgentRun r) (getAgentRun_unknown h)]
  | some st => rw [serve_of_ok (.getAgentRun r) (getAgentRun_known h)]

theorem serve_getAgentRunEvents (uuid4 : UUID) (now : UnixTs) (rt : InMemoryRuntime) (r : UUID) (after : Option ℤ) :
    ((AgentRequest.getAgentRunEvents r after).serve uuid4 now rt).2 = rt := by
  cases h : rt.record? r with
  | none => rw [serve_of_ok (.getAgentRunEvents r after) (getAgentRunEvents_unknown h after)]
  | some st =>
    cases hlist : rt.internalEventLogs.list r after with
    | ok events => rw [serve_of_ok (.getAgentRunEvents r after) (getAgentRunEvents_known h hlist)]
    | error e =>
      have hread : (BackendRunOrchestrationService.getRun r).run rt = _ := findRun_run h
      have hevents : (BackendRunOrchestrationService.getEvents r after).run rt = .error e rt := by
        change (LlmAgent.getEvents r after).run rt = _
        simp only [LlmAgent.getEvents, EStateM.run_bind, findRun_run h, EStateM.run_get, hlist]
        rfl
      have hrun : (getAgentRunEvents r after).run rt = (runEventsHandler e).run rt := by
        apply tryCatch_error
        simp only [EStateM.run_bind, hread, hevents]
      rcases runEventsHandler_run e rt with ⟨response, hok⟩ | herr
      · rw [serve_of_ok (.getAgentRunEvents r after) (hrun.trans hok)]
      · rw [serve_of_error (.getAgentRunEvents r after) (hrun.trans herr)]

/-- a cancellation writes what `cancel_run` writes -/
theorem serve_cancelAgentRun (uuid4 : UUID) (now : UnixTs) (rt : InMemoryRuntime) (r : UUID) :
    ((AgentRequest.cancelAgentRun r).serve uuid4 now rt).2 = stores.step rt (.orchestratorCancelRun r now) := by
  change _ = (answer Reply.flag (orchestratorCancelRun r now) rt).2
  cases hcall : (orchestratorCancelRun r now).run rt with
  | ok b rt' => rw [serve_of_ok (.cancelAgentRun r) (cancelAgentRun_returned hcall), answer_ok hcall]
  | error e rt' =>
    rw [answer_error hcall]
    rcases notFoundHandler_run e rt' with ⟨response, hok⟩ | herr
    · rw [serve_of_ok (.cancelAgentRun r) ((cancelAgentRun_raised hcall).trans hok)]
    · rw [serve_of_error (.cancelAgentRun r) ((cancelAgentRun_raised hcall).trans herr)]

/-- a create request writes what `create_run` writes -/
theorem serve_createAgentRun (agentPrompt : AgentPromptDto) (uuid4 : UUID) (now : UnixTs) (rt : InMemoryRuntime) :
    ((AgentRequest.createAgentRun agentPrompt).serve uuid4 now rt).2 =
      (answer Reply.status (orchestratorCreateRun uuid4 hardcodedUser now) rt).2 := by
  cases hcall : (orchestratorCreateRun uuid4 hardcodedUser now).run rt with
  | ok st rt' =>
    rw [answer_ok hcall, serve_of_ok (.createAgentRun agentPrompt) (createAgentRun_returned agentPrompt hcall)]
  | error e rt' =>
    rw [answer_error hcall, serve_of_error (.createAgentRun agentPrompt) (createAgentRun_raised agentPrompt hcall)]

end Routes

/-! ## A run of the service is a run of `atomicSys` -/

theorem service_step (s : Sys) (op : ServiceOp) : service.step s op = atomicSys.run s op.atomic := by
  cases op with
  | worker op => rfl
  | request agentRequest uuid4 now =>
    change (ServiceOp.exec s (.request agentRequest uuid4 now)).2 = _
    unfold ServiceOp.exec
    cases agentRequest with
    | createAgentRun agentPrompt =>
      change _ = (s.perform (.orchestratorCreateRun uuid4 hardcodedUser now)).2
      unfold Sys.perform StoreOp.exec
      by_cases h : uuid4 ∈ s.runtime.internalRunStorage
      · have hcollides : (AgentRequest.createAgentRun agentPrompt).Collides uuid4 s.runtime := ⟨rfl, h⟩
        simp only [if_pos hcollides, if_pos h]
      · have hfresh : ¬ (AgentRequest.createAgentRun agentPrompt).Collides uuid4 s.runtime := fun hc => h hc.2
        simp only [if_neg hfresh, if_neg h, serve_createAgentRun]
    | cancelAgentRun r =>
      have hno : ¬ (AgentRequest.cancelAgentRun r).Collides uuid4 s.runtime := fun hc => by cases hc.1
      simp only [if_neg hno, serve_cancelAgentRun]
      rfl
    | getAgentRun r =>
      have hno : ¬ (AgentRequest.getAgentRun r).Collides uuid4 s.runtime := fun hc => by cases hc.1
      simp only [if_neg hno, serve_getAgentRun]
      rfl
    | getAgentRunEvents r after =>
      have hno : ¬ (AgentRequest.getAgentRunEvents r after).Collides uuid4 s.runtime := fun hc => by cases hc.1
      simp only [if_neg hno, serve_getAgentRunEvents]
      rfl

/-- **The service refines the system with atomic finishes.** -/
theorem service_run (s : Sys) (ops : List ServiceOp) :
    service.run s ops = atomicSys.run s (ops.flatMap ServiceOp.atomic) := by
  induction ops generalizing s with
  | nil => rfl
  | cons op ops ih =>
    calc service.run s (op :: ops)
        = service.run (service.step s op) ops := rfl
      _ = atomicSys.run (service.step s op) (ops.flatMap ServiceOp.atomic) := ih _
      _ = atomicSys.run (atomicSys.run s op.atomic) (ops.flatMap ServiceOp.atomic) := by rw [service_step]
      _ = atomicSys.run s ((op :: ops).flatMap ServiceOp.atomic) := by
        rw [List.flatMap_cons, Machine.run_append]

theorem service_good (ops : List ServiceOp) : Good (service.run Sys.init ops).runtime := by
  rw [service_run]
  exact atomic_good _

end LlmAgent
