/-
The two run stores over one shared runtime, statement by statement:
- `InMemoryRunIntakeStore` (`local_runtime/run_store/intake.py`), used by the API side;
- `InMemoryRunProcessingStore` (`local_runtime/run_store/processing.py`), used by the workers.

Both hold references to the same dictionary of records and the same event log; `InMemoryRuntime` is that shared memory.
An operation is a computation that may raise: as in Python, an exception does not undo the writes made before it.
Each operation holds its store's lock from its first to its last statement and the in-memory log never suspends, so one
call of an operation is one atomic step. `now` is the clock reading during the call; `runId` of `createRun` is the value
`uuid4` returned. Log lines of `structlog` are left out.
-/
import LlmAgent.Runs.EventLog

namespace LlmAgent

open Core

/-- the memory shared by the stores, the workers and the signal queue -/
structure InMemoryRuntime where
  internalRunStorage : Dict UUID RunStatus
  internalEventLogs : InMemoryRunEventLog
  /-- the event of `InMemoryRunSignalQueue` -/
  runSignal : Bool
  /-- ghost: the status of every record written to the dictionary, in order -/
  written : List (UUID × RunStatusCode)

/-- create_default_in_memory_runtime -/
def createDefaultInMemoryRuntime : InMemoryRuntime := ⟨.empty, .empty, false, []⟩

/-- a store operation: raise or return, over the shared runtime -/
abbrev StoreM := EStateM PyError InMemoryRuntime

/-! ## Statements the operations share -/

/-- `self._runs[run_id]` -/
def readRun (runId : UUID) : StoreM RunStatus := do
  match (← get).internalRunStorage.get? runId with
  | none => throw (.keyError runId)
  | some runStatus => pure runStatus

/-- `self._runs[run_id] = run_status` -/
def writeRun (runId : UUID) (runStatus : RunStatus) : StoreM Unit :=
  modify fun rt => { rt with
    internalRunStorage := rt.internalRunStorage.set runId runStatus
    written := rt.written ++ [(runId, runStatus.status)] }

/-- `if run_id not in self._runs: raise RunNotFoundError(...)`, then `self._runs[run_id]` -/
def findRun (runId : UUID) : StoreM RunStatus := do
  match (← get).internalRunStorage.get? runId with
  | none => throw (.runNotFound (UUID.str runId))
  | some runStatus => pure runStatus

/-- `self.run_transition_policy.validate(run_status, new_status)` -/
def validate (runStatus : RunStatus) (newStatus : RunStatusCode) : StoreM Unit :=
  match runTransitionPolicy.validate runStatus newStatus with
  | .error e => throw e
  | .ok () => pure ()

/-- `await self._events.append(run_id=..., event_type=..., payload=...)` -/
def appendEvent (runId : UUID) (eventType : String) (payload : List (String × String)) (now : UnixTs) :
    StoreM RunEvent := do
  match (← get).internalEventLogs.append runId eventType payload now with
  | .error e => throw e
  | .ok (runEvent, log) =>
    modify fun rt => { rt with internalEventLogs := log }
    pure runEvent

/-- `await self._events.init_run_stream(run_id=run_id)` -/
def initRunStream (runId : UUID) : StoreM Unit :=
  modify fun rt => { rt with internalEventLogs := rt.internalEventLogs.initRunStream runId }

/-! ## InMemoryRunIntakeStore -/

def createRun (runId : UUID) (userId : String) (now : UnixTs) : StoreM RunStatus := do
  let runStatus : RunStatus := { id := runId, status := .created, result := none, error := none }
  writeRun runId runStatus
  initRunStream runId
  let _ ← appendEvent runId "created" [("user_id", userId)] now
  pure runStatus

def markEnqueued (runId : UUID) (now : UnixTs) : StoreM Unit := do
  let runStatus ← readRun runId
  validate runStatus .enqueued
  writeRun runId { id := runStatus.id, status := .enqueued, result := runStatus.result, error := runStatus.error }
  let _ ← appendEvent runId "enqueued" [] now

def markCancelled (runId : UUID) (now : UnixTs) : StoreM Bool := do
  let runStatus ← findRun runId
  if runStatus.status ∈ terminalRunStatuses then
    pure false
  else
    validate runStatus .cancelled
    writeRun runId { id := runStatus.id, status := .cancelled, result := runStatus.result, error := runStatus.error }
    let _ ← appendEvent runId "cancelled" [] now
    pure true

def requestCancellation (runId : UUID) (now : UnixTs) : StoreM Bool := do
  let runStatus ← findRun runId
  if runStatus.status ∈ terminalRunStatuses then
    pure false
  else if runStatus.cancelRequested then
    pure false
  else
    writeRun runId {
      id := runStatus.id
      status := runStatus.status
      result := runStatus.result
      error := runStatus.error
      cancelRequested := true
      claimedWorker := runStatus.claimedWorker
      claimExpirationUnixTs := runStatus.claimExpirationUnixTs
      retryCount := runStatus.retryCount }
    let _ ← appendEvent runId "cancel requested" [] now
    pure true

/-- `get_events`: the run is looked up first, then its events are listed -/
def getEvents (runId : UUID) (afterSequence : Option ℤ) : StoreM (List RunEvent) := do
  let _ ← findRun runId
  match (← get).internalEventLogs.list runId afterSequence with
  | .error e => throw e
  | .ok runEvents => pure runEvents

/-! ## InMemoryRunProcessingStore -/

/-- `None` and `0` are both falsy, so neither ever expires -/
def hasClaimExpired (runStatus : RunStatus) (now : UnixTs) : Bool :=
  match runStatus.claimExpirationUnixTs with
  | none => false
  | some expiration => if expiration = 0 then false else decide (now > expiration)

def getNewExpirationTs (now : UnixTs) : UnixTs := now + seconds 30

def transitionLocked (runId : UUID) (targetStatus : RunStatusCode) (transitionRequest : TransitionRequestParams) :
    StoreM Unit := do
  let runStatus ← readRun runId
  validate runStatus targetStatus
  writeRun runId {
    id := runStatus.id
    status := targetStatus
    result := getValueOrFallback transitionRequest.result runStatus.result
    error := getValueOrFallback transitionRequest.error runStatus.error
    claimedWorker := getValueOrFallback transitionRequest.workerId runStatus.claimedWorker
    claimExpirationUnixTs := getValueOrFallback transitionRequest.expirationUnixTs runStatus.claimExpirationUnixTs
    retryCount := getValueOrFallback transitionRequest.retryCount runStatus.retryCount
    cancelRequested := runStatus.cancelRequested }

def setCancelledLocked (runId : UUID) (now : UnixTs) : StoreM Unit := do
  transitionLocked runId .cancelled {}
  let _ ← appendEvent runId "cancelled" [] now

/-- `run_status` is the record the claim loop read for this run -/
def recoverExpiredRuns (runId : UUID) (runStatus : RunStatus) (workerId : String) : StoreM Unit := do
  transitionLocked runId .timedOut { workerId := .value (some workerId) }
  match runStatus.retryCount with
  | none => throw (.typeError "unsupported operand type(s) for +: 'NoneType' and 'int'")
  | some retryCount =>
    transitionLocked runId .retrying
      { workerId := .value (some workerId), retryCount := .value (some (retryCount + 1)) }
    transitionLocked runId .enqueued { workerId := .value (some workerId) }

/-- the body of `claim_run`'s first loop, for one item of the dictionary -/
def recoverIfExpired (workerId : String) (now : UnixTs) (runId : UUID) (runStatus : RunStatus) : StoreM Unit := do
  if runStatus.status ≠ .running then
    pure ()
  else if ¬ hasClaimExpired runStatus now then
    pure ()
  else
    let _ ← appendEvent runId "claim_expired" [] now
    recoverExpiredRuns runId runStatus workerId

/-- `claim_run`'s first loop over the keys; each record is read when its key is reached -/
def recoverLoop (workerId : String) (now : UnixTs) : List UUID → StoreM Unit
  | [] => pure ()
  | runId :: rest => do
    match (← get).internalRunStorage.get? runId with
    | none => recoverLoop workerId now rest
    | some runStatus =>
      recoverIfExpired workerId now runId runStatus
      recoverLoop workerId now rest

/-- the claim of an enqueued run in `claim_run`'s second loop -/
def claimLocked (workerId : String) (now : UnixTs) (runId : UUID) : StoreM ClaimedRun := do
  let expirationUnixTs := getNewExpirationTs now
  transitionLocked runId .running
    { workerId := .value (some workerId), expirationUnixTs := .value (some expirationUnixTs) }
  let _ ← appendEvent runId "claimed" [("worker", workerId)] now
  let runStatus ← readRun runId
  pure { id := runId, claimType := "enqueued", runStatus := runStatus }

/-- `claim_run`'s second loop: cancel the enqueued runs with an intent, claim the first one without -/
def claimLoop (workerId : String) (now : UnixTs) : List UUID → StoreM (Option ClaimedRun)
  | [] => pure none
  | runId :: rest => do
    match (← get).internalRunStorage.get? runId with
    | none => claimLoop workerId now rest
    | some runStatus =>
      if runStatus.status = .enqueued then
        if runStatus.cancelRequested then
          setCancelledLocked runId now
          claimLoop workerId now rest
        else
          let claimedRun ← claimLocked workerId now runId
          pure (some claimedRun)
      else
        claimLoop workerId now rest

def claimRun (workerId : String) (now : UnixTs) : StoreM (Option ClaimedRun) := do
  recoverLoop workerId now (← get).internalRunStorage.keys
  claimLoop workerId now (← get).internalRunStorage.keys

def heartbeat (runId : UUID) (workerId : String) (now : UnixTs) : StoreM RunStatus := do
  let runStatus ← readRun runId
  if runStatus.status = .cancelled then
    pure runStatus
  else if runStatus.status ≠ .running then
    pure runStatus
  else if runStatus.claimedWorker ≠ some workerId then
    let _ ← appendEvent runId "claim_lost" [("worker", workerId)] now
    throw (.runLeaseLost ("Run " ++ UUID.str runId ++ " is not claimed by " ++ workerId))
  else
    let updatedExpirationUnixTs := getNewExpirationTs now
    let updatedRunStatus : RunStatus := {
      id := runStatus.id
      status := .running
      result := runStatus.result
      error := runStatus.error
      claimedWorker := some workerId
      claimExpirationUnixTs := some updatedExpirationUnixTs
      retryCount := runStatus.retryCount
      cancelRequested := runStatus.cancelRequested }
    writeRun runId updatedRunStatus
    pure updatedRunStatus

def setFailed (runId : UUID) (error : String) (now : UnixTs) : StoreM Unit := do
  transitionLocked runId .failed { error := .value (some error) }
  let _ ← appendEvent runId "run_failed" [("error", error)] now

def setSucceeded (runId : UUID) (result : PyDict) (now : UnixTs) : StoreM Unit := do
  transitionLocked runId .succeeded { result := .value (some result) }
  let _ ← appendEvent runId "run_succeeded" [("result", "done")] now

def getStatus (runId : UUID) : StoreM RunStatus := findRun runId

def setCancelled (runId : UUID) (now : UnixTs) : StoreM Unit := setCancelledLocked runId now

end LlmAgent
