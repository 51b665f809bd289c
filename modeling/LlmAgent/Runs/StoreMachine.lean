/-
The two stores as one machine: an input is a call of a store operation (or of the orchestrator's create_run and
cancel_run, which call the intake store), the state is the shared runtime, the reply is what the call returned or
raised.
A run of `stores` is any sequence of calls with any arguments by any callers.

`uuid4` is assumed to give fresh ids: a create call with an id that is already a key is not a step (`refused`).
-/
import LlmAgent.Core.Machine
import LlmAgent.Runs.Stores

namespace LlmAgent

open Core

/-! ## BackendRunOrchestrationService (`llm_agent/services/agent/orchestrator.py`) -/

/-- `await self.run_signal_queue.notify()` -/
def notify : StoreM Unit := modify fun rt => { rt with runSignal := true }

/-- `create_run`: create, enqueue and notify; `userId` is the constant the service puts into the request -/
def orchestratorCreateRun (runId : UUID) (userId : String) (now : UnixTs) : StoreM RunStatus := do
  let createdRun ← createRun runId userId now
  markEnqueued createdRun.id now
  notify
  pure createdRun

/-- `cancel_run`: record the intent, and notify when it was recorded -/
def orchestratorCancelRun (runId : UUID) (now : UnixTs) : StoreM Bool := do
  let isCancelled ← requestCancellation runId now
  if isCancelled then
    notify
  pure isCancelled

/-! ## The machine -/

/-- what a call returned, or what it raised -/
inductive Reply where
  | returned
  | status (runStatus : RunStatus)
  | flag (b : Bool)
  | claimed (claimedRun : Option ClaimedRun)
  | event (runEvent : RunEvent)
  | raised (e : PyError)
  | refused

inductive StoreOp where
  | createRun (runId : UUID) (userId : String) (now : UnixTs)
  | markEnqueued (runId : UUID) (now : UnixTs)
  | markCancelled (runId : UUID) (now : UnixTs)
  | requestCancellation (runId : UUID) (now : UnixTs)
  | orchestratorCreateRun (runId : UUID) (userId : String) (now : UnixTs)
  | orchestratorCancelRun (runId : UUID) (now : UnixTs)
  | claimRun (workerId : String) (now : UnixTs)
  | heartbeat (runId : UUID) (workerId : String) (now : UnixTs)
  | setSucceeded (runId : UUID) (result : PyDict) (now : UnixTs)
  | setFailed (runId : UUID) (error : String) (now : UnixTs)
  | setCancelled (runId : UUID) (now : UnixTs)
  | getStatus (runId : UUID) (now : UnixTs)
  /-- an executor's `emit_event` -/
  | emitEvent (runId : UUID) (eventType : String) (payload : List (String × String)) (now : UnixTs)

/-- the clock reading of a call -/
def StoreOp.now : StoreOp → UnixTs
  | .createRun _ _ now => now
  | .markEnqueued _ now => now
  | .markCancelled _ now => now
  | .requestCancellation _ now => now
  | .orchestratorCreateRun _ _ now => now
  | .orchestratorCancelRun _ now => now
  | .claimRun _ now => now
  | .heartbeat _ _ now => now
  | .setSucceeded _ _ now => now
  | .setFailed _ _ now => now
  | .setCancelled _ now => now
  | .getStatus _ now => now
  | .emitEvent _ _ _ now => now

/-- perform a call: its reply, and the runtime it leaves -/
def answer {α : Type} (reply : α → Reply) (call : StoreM α) (rt : InMemoryRuntime) : Reply × InMemoryRuntime :=
  match call.run rt with
  | .ok a rt' => (reply a, rt')
  | .error e rt' => (.raised e, rt')

def StoreOp.exec (rt : InMemoryRuntime) : StoreOp → Reply × InMemoryRuntime
  | .createRun runId userId now =>
    if runId ∈ rt.internalRunStorage then (.refused, rt) else answer .status (LlmAgent.createRun runId userId now) rt
  | .markEnqueued runId now => answer (fun _ => .returned) (LlmAgent.markEnqueued runId now) rt
  | .markCancelled runId now => answer .flag (LlmAgent.markCancelled runId now) rt
  | .requestCancellation runId now => answer .flag (LlmAgent.requestCancellation runId now) rt
  | .orchestratorCreateRun runId userId now =>
    if runId ∈ rt.internalRunStorage then (.refused, rt)
    else answer .status (LlmAgent.orchestratorCreateRun runId userId now) rt
  | .orchestratorCancelRun runId now => answer .flag (LlmAgent.orchestratorCancelRun runId now) rt
  | .claimRun workerId now => answer .claimed (LlmAgent.claimRun workerId now) rt
  | .heartbeat runId workerId now => answer .status (LlmAgent.heartbeat runId workerId now) rt
  | .setSucceeded runId result now => answer (fun _ => .returned) (LlmAgent.setSucceeded runId result now) rt
  | .setFailed runId error now => answer (fun _ => .returned) (LlmAgent.setFailed runId error now) rt
  | .setCancelled runId now => answer (fun _ => .returned) (LlmAgent.setCancelled runId now) rt
  | .getStatus runId _ => answer .status (LlmAgent.getStatus runId) rt
  | .emitEvent runId eventType payload now => answer .event (appendEvent runId eventType payload now) rt

/-- **The stores under any sequence of calls.** -/
def stores : Machine InMemoryRuntime StoreOp Reply := ⟨StoreOp.exec⟩

/-- the stored record of a run -/
def InMemoryRuntime.record? (rt : InMemoryRuntime) (runId : UUID) : Option RunStatus :=
  rt.internalRunStorage.get? runId

/-- the stored status of a run -/
def InMemoryRuntime.status? (rt : InMemoryRuntime) (runId : UUID) : Option RunStatusCode :=
  (rt.record? runId).map RunStatus.status

/-- the event stream of a run -/
def InMemoryRuntime.stream (rt : InMemoryRuntime) (runId : UUID) : List RunEvent := rt.internalEventLogs.stream runId

/-- the statuses written to a run's record so far -/
def InMemoryRuntime.writesOf (rt : InMemoryRuntime) (runId : UUID) : List RunStatusCode :=
  (rt.written.filter fun p => p.1 = runId).map Prod.snd

end LlmAgent
