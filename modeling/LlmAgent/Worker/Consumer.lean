/-
The in-memory consumer (`agent_run_worker/in_memory/consumer.py`) and its lease scope (`run_lease.py`), as a control
state that moves from await to await.

- `Phase`: where `consume_and_execute_loop` stands, and inside it `execute_run`;
- `Phase.call`, `Consumer.react`: the store operation a phase awaits, and where its answer leads;
- `Consumer.move`: the phases that await no store operation;
- `Consumer.heartbeatReact`: one turn of `heartbeat_loop`, after its sleep;
- `executeRun`: the rest of `execute_run` after the executor ended, as one sequential block.

The `RunExecutionContext` of the lease scope is the one of the consumer, so its event is one flag. Leaving the scope
cancels the heartbeat task and touches no store, so it is part of the step that ends `execute_run`.
-/
import LlmAgent.Runs.StoreMachine

namespace LlmAgent

open Core

/-- how `run_executor.execute` ended -/
inductive Outcome where
  | returned
  | raised (message : String)
deriving DecidableEq, Repr

/-- where the consumer stands -/
inductive Phase where
  /-- at `while self._execution_allowed` -/
  | looping
  /-- in `run_signal_queue.wait()` -/
  | waiting
  /-- at `run_store.claim_run` -/
  | claiming
  /-- a run was claimed; `_execution_allowed` is checked again -/
  | claimed (claimedRun : ClaimedRun)
  /-- in the lease scope, inside `run_executor.execute` -/
  | executing (runId : UUID)
  /-- the executor returned; `is_cancelled()` is next -/
  | returned (runId : UUID)
  /-- at `run_store.get_status` -/
  | checking (runId : UUID)
  /-- at `run_store.set_cancelled` -/
  | cancelling (runId : UUID)
  /-- at `run_store.set_succeeded` -/
  | succeeding (runId : UUID)
  /-- in the handler, at `run_store.set_failed` -/
  | failing (runId : UUID) (message : String)
  /-- the loop ended -/
  | stopped
  /-- an exception left `execute_run`, and with it the loop -/
  | crashed (e : PyError)

/-- the run in the lease scope -/
def Phase.scope : Phase → Option UUID
  | .executing runId => some runId
  | .returned runId => some runId
  | .checking runId => some runId
  | .cancelling runId => some runId
  | .succeeding runId => some runId
  | .failing runId _ => some runId
  | _ => none

/-- the run whose terminal write the phase awaits -/
def Phase.writes : Phase → Option UUID
  | .cancelling runId => some runId
  | .succeeding runId => some runId
  | .failing runId _ => some runId
  | _ => none

structure Consumer where
  executionAllowed : Bool := true
  phase : Phase := .looping
  /-- `_current_run_execution_ctx`: None, or whether its cancellation event is set -/
  runExecutionCtx : Option Bool := none
  /-- the heartbeat task of the lease scope has not ended -/
  heartbeatActive : Bool := false
  /-- clock reading of the claim, then of the heartbeat loop's last wake-up -/
  lastWake : UnixTs := 0

/-- the result a consumer reports: `{"ok": True}` -/
def okResult : PyDict := [("ok", .bool true)]

/-- the store operation the phase awaits -/
def Phase.call (workerId : String) (now : UnixTs) : Phase → Option StoreOp
  | .claiming => some (.claimRun workerId now)
  | .checking runId => some (.getStatus runId now)
  | .cancelling runId => some (.setCancelled runId now)
  | .succeeding runId => some (.setSucceeded runId okResult now)
  | .failing runId message => some (.setFailed runId message now)
  | _ => none

namespace Consumer

/-- `execute_run` ended: `finally`, the end of the lease scope, and back to the loop -/
def leave (c : Consumer) : Consumer :=
  { c with phase := .looping, runExecutionCtx := none, heartbeatActive := false }

/-- an exception leaves `execute_run`: `finally`, the end of the lease scope, and out of the loop -/
def crash (c : Consumer) (e : PyError) : Consumer :=
  { c with phase := .crashed e, runExecutionCtx := none, heartbeatActive := false }

/-- where the answer of the awaited operation leads -/
def react (c : Consumer) (now : UnixTs) (reply : Reply) : Consumer :=
  match c.phase with
  | .claiming =>
    match reply with
    | .claimed (some claimedRun) => { c with phase := .claimed claimedRun, lastWake := now }
    | _ => { c with phase := .looping }
  | .checking runId =>
    match reply with
    | .status runStatus =>
      if runStatus.cancelRequested then { c with phase := .cancelling runId }
      else { c with phase := .succeeding runId }
    | .raised e => { c with phase := .failing runId e.str }
    | _ => c
  | .cancelling runId =>
    match reply with
    | .raised e => { c with phase := .failing runId e.str }
    | _ => c.leave
  | .succeeding runId =>
    match reply with
    | .raised e => { c with phase := .failing runId e.str }
    | _ => c.leave
  | .failing _ _ =>
    match reply with
    | .raised e => c.crash e
    | _ => c.leave
  | _ => c

/-- a phase that awaits no store operation moves on -/
def move (c : Consumer) : Consumer :=
  match c.phase with
  | .looping => if c.executionAllowed then { c with phase := .waiting } else { c with phase := .stopped }
  | .waiting => { c with phase := .claiming }
  | .claimed claimedRun =>
    if c.executionAllowed then
      { c with phase := .executing claimedRun.id, runExecutionCtx := some false, heartbeatActive := true }
    else { c with phase := .stopped }
  | .returned runId =>
    if c.runExecutionCtx = some true then { c with phase := .cancelling runId }
    else { c with phase := .checking runId }
  | _ => c

/-- the executor ends: its exception goes to the handler -/
def executorEnds (c : Consumer) (outcome : Outcome) : Consumer :=
  match c.phase, outcome with
  | .executing runId, .returned => { c with phase := .returned runId }
  | .executing runId, .raised message => { c with phase := .failing runId message }
  | _, _ => c

/-- `run_execution_context.cancel()` -/
def cancelCtx (c : Consumer) : Consumer := { c with runExecutionCtx := c.runExecutionCtx.map fun _ => true }

/-- one turn of `heartbeat_loop` after its sleep -/
def heartbeatReact (c : Consumer) (now : UnixTs) (reply : Reply) : Consumer :=
  match reply with
  | .status runStatus =>
    if runStatus.cancelRequested then { c.cancelCtx with heartbeatActive := false, lastWake := now }
    else { c with lastWake := now }
  | .raised (.runLeaseLost _) => { c with heartbeatActive := false, lastWake := now }
  | _ => { c with lastWake := now }

/-- `shutdown_execution` -/
def shutdownExecution (c : Consumer) : Consumer := { c.cancelCtx with executionAllowed := false }

end Consumer

/-- `execute_run` from the executor's end to its last statement, `isCancelled` being the event of its context -/
def executeRun (runId : UUID) (outcome : Outcome) (isCancelled : Bool) (now : UnixTs) : StoreM Unit :=
  tryCatch (do
    match outcome with
    | .raised message => throw (.executor message)
    | .returned =>
      if isCancelled then
        setCancelled runId now
      else
        let runStatus ← getStatus runId
        if runStatus.cancelRequested then
          setCancelled runId now
        else
          setSucceeded runId okResult now)
    fun exc => setFailed runId exc.str now

end LlmAgent
