/-
The stores over an event log whose `append` may suspend: `claim_run` of the processing store next to calls of the intake
store, over the same dictionary.

Each store guards itself with its own lock, so the intake calls run one after the other, but all of them may run while
`claim_run` waits in an append. A task runs without interruption up to its next append; the append takes effect at some
point while the task waits, and the task goes on some time later. So an append is two turns of the task, and a run is
any list of turns.

What the log holds is what its protocol promises: `append` adds the event at the end of the run's stream. `claim_run`
reads the clock once for each lease it checks and once for the claim, and the readings of one call need not be equal.

Python's iterator over `dict.items()` raises when the dictionary has another size than at the start of the loop.
-/
import LlmAgent.Runs.ClaimSpec

namespace LlmAgent

open Core

/-- an event as the callers of the log see it: its type and its payload -/
abbrev Note := String × List (String × String)

/-- the events of a run, in order -/
def InMemoryRuntime.notes (rt : InMemoryRuntime) (runId : UUID) : List Note :=
  (rt.stream runId).map fun runEvent => (runEvent.eventType, runEvent.payload)

/-! ## claim_run -/

/-- a call of `claim_run`, with the clock readings it will get -/
structure ClaimCall where
  workerId : String
  /-- the clock when the lease of a run is checked -/
  leaseClock : UUID → UnixTs
  /-- the clock when the expiration of a claimed run is set -/
  claimClock : UUID → UnixTs

inductive TaskError where
  | store (e : PyError)
  /-- `RuntimeError: dictionary changed size during iteration` -/
  | dictionaryChangedSize
deriving DecidableEq

/-- where a `claim_run` task stands. In an append, `appended` tells whether the event has reached the log; `rest` and
`size` belong to the iterator; `reached` lists the runs that the second loop has come to. -/
inductive ClaimTask where
  | idle
  | expiring (runId : UUID) (runStatus : RunStatus) (rest : List UUID) (size : ℕ) (appended : Bool)
  | cancelling (runId : UUID) (reached rest : List UUID) (size : ℕ) (appended : Bool)
  | claiming (runId : UUID) (reached : List UUID) (appended : Bool)
  | finished (reached : List UUID) (outcome : Except TaskError (Option ClaimedRun))

/-- `len(self._runs)` -/
def InMemoryRuntime.size (rt : InMemoryRuntime) : ℕ := rt.internalRunStorage.keys.length

/-- run the statements of a task and go on, unless they raise -/
def proceed {α : Type} (statements : StoreM α) (rt : InMemoryRuntime)
    (next : InMemoryRuntime → ClaimTask × InMemoryRuntime) : ClaimTask × InMemoryRuntime :=
  match statements.run rt with
  | .ok _ rt' => next rt'
  | .error e rt' => (.finished [] (.error (.store e)), rt')

namespace ClaimCall

variable (call : ClaimCall)

def claimRequest (runId : UUID) : TransitionRequestParams :=
  { workerId := .value (some call.workerId)
    expirationUnixTs := .value (some (getNewExpirationTs (call.claimClock runId))) }

/-- the second loop, up to its next append -/
def claimNext (size : ℕ) (reached : List UUID) : List UUID → InMemoryRuntime → ClaimTask × InMemoryRuntime
  | [], rt =>
    if rt.size ≠ size then (.finished reached (.error .dictionaryChangedSize), rt)
    else (.finished reached (.ok none), rt)
  | runId :: rest, rt =>
    if rt.size ≠ size then (.finished reached (.error .dictionaryChangedSize), rt)
    else
      match rt.record? runId with
      | none => claimNext size (reached ++ [runId]) rest rt
      | some runStatus =>
        if runStatus.status = .enqueued then
          if runStatus.cancelRequested then
            proceed (transitionLocked runId .cancelled {}) rt fun rt' =>
              (.cancelling runId (reached ++ [runId]) rest size false, rt')
          else
            proceed (transitionLocked runId .running (call.claimRequest runId)) rt fun rt' =>
              (.claiming runId (reached ++ [runId]) false, rt')
        else
          claimNext size (reached ++ [runId]) rest rt

/-- the first loop, up to its next append; after it the second loop starts with a new iterator -/
def recoverNext (size : ℕ) : List UUID → InMemoryRuntime → ClaimTask × InMemoryRuntime
  | [], rt =>
    if rt.size ≠ size then (.finished [] (.error .dictionaryChangedSize), rt)
    else call.claimNext rt.size [] rt.internalRunStorage.keys rt
  | runId :: rest, rt =>
    if rt.size ≠ size then (.finished [] (.error .dictionaryChangedSize), rt)
    else
      match rt.record? runId with
      | none => recoverNext size rest rt
      | some runStatus =>
        if runStatus.status ≠ .running then
          recoverNext size rest rt
        else if ¬ hasClaimExpired runStatus (call.leaseClock runId) then
          recoverNext size rest rt
        else
          (.expiring runId runStatus rest size false, rt)

/-- one turn of the task; `now` is the timestamp of the event that reaches the log -/
def resume (now : UnixTs) (rt : InMemoryRuntime) : ClaimTask → ClaimTask × InMemoryRuntime
  | .idle => call.recoverNext rt.size rt.internalRunStorage.keys rt
  | .expiring runId runStatus rest size false =>
    (.expiring runId runStatus rest size true, rt.emit runId ("claim_expired", [], now))
  | .expiring runId runStatus rest size true =>
    proceed (recoverExpiredRuns runId runStatus call.workerId) rt fun rt' => call.recoverNext size rest rt'
  | .cancelling runId reached rest size false =>
    (.cancelling runId reached rest size true, rt.emit runId ("cancelled", [], now))
  | .cancelling _ reached rest size true => call.claimNext size reached rest rt
  | .claiming runId reached false =>
    (.claiming runId reached true, rt.emit runId ("claimed", [("worker", call.workerId)], now))
  | .claiming runId reached true =>
    match rt.record? runId with
    | none => (.finished reached (.error (.store (.keyError runId))), rt)
    | some runStatus =>
      (.finished reached (.ok (some { id := runId, claimType := "enqueued", runStatus := runStatus })), rt)
  | .finished reached outcome => (.finished reached outcome, rt)

end ClaimCall

/-! ## The intake store -/

inductive IntakeCall where
  | createRun (runId : UUID) (userId : String)
  | markCancelled (runId : UUID)
  | requestCancellation (runId : UUID)
deriving DecidableEq

def IntakeCall.runId : IntakeCall → UUID
  | .createRun runId _ => runId
  | .markCancelled runId => runId
  | .requestCancellation runId => runId

inductive IntakeReply where
  | status (runStatus : RunStatus)
  | flag (b : Bool)

/-- the record `create_run` stores -/
def createdRecord (runId : UUID) : RunStatus := { id := runId, status := .created, result := none, error := none }

/-- the statements of an intake call up to its append: what it will answer, and the event it appends -/
def IntakeCall.untilAppend : IntakeCall → StoreM (IntakeReply × Option Note)
  | .createRun runId userId => do
    writeRun runId (createdRecord runId)
    initRunStream runId
    pure (.status (createdRecord runId), some ("created", [("user_id", userId)]))
  | .markCancelled runId => do
    let runStatus ← findRun runId
    if runStatus.status ∈ terminalRunStatuses then
      pure (.flag false, none)
    else
      validate runStatus .cancelled
      writeRun runId { id := runStatus.id, status := .cancelled, result := runStatus.result, error := runStatus.error }
      pure (.flag true, some ("cancelled", []))
  | .requestCancellation runId => do
    let runStatus ← findRun runId
    if runStatus.status ∈ terminalRunStatuses then
      pure (.flag false, none)
    else if runStatus.cancelRequested then
      pure (.flag false, none)
    else
      writeRun runId { runStatus with cancelRequested := true }
      pure (.flag true, some ("cancel requested", []))

/-! ## Turns -/

/-- an intake call with what it answers or raises -/
abbrev Answer := IntakeCall × Except PyError IntakeReply

/-- the two stores at work: the memory they share, the `claim_run` task, and the intake call in the lock while it waits
in its append. `answers` lists the intake calls so far. Ghosts: `expired`, the runs whose `claim_expired` event this
`claim_run` has appended, and `late`, those of them on which an intake call has changed the record and whose own event
was not in the log before. -/
structure Interleaved where
  runtime : InMemoryRuntime
  claim : ClaimTask
  appending : Option (UUID × Note)
  answers : List Answer
  expired : List UUID
  late : List UUID

inductive StoreTurn where
  /-- `claim_run` runs to its next await, or its event reaches the log -/
  | claim (now : UnixTs)
  /-- the next intake call takes the lock and runs to its append, or to its end when it appends nothing -/
  | enter (intake : IntakeCall)
  /-- the event of the intake call reaches the log, and the call returns -/
  | append (now : UnixTs)

namespace Interleaved

def start (rt : InMemoryRuntime) : Interleaved := ⟨rt, .idle, none, [], [], []⟩

/-- the run whose `claim_expired` event a turn of the task would bring to the log -/
def aboutToExpire (s : Interleaved) : Option UUID :=
  match s.claim with
  | .expiring runId _ _ _ false => some runId
  | _ => none

/-- the run whose `cancelled` event a turn of the task would bring to the log -/
def aboutToCancel (s : Interleaved) : Option UUID :=
  match s.claim with
  | .cancelling runId _ _ _ false => some runId
  | _ => none

def claimTurn (call : ClaimCall) (s : Interleaved) (now : UnixTs) : Interleaved :=
  let turn := call.resume now s.runtime s.claim
  { s with
    runtime := turn.2
    claim := turn.1
    expired := s.expired ++ s.aboutToExpire.toList
    late := s.late ++ s.aboutToExpire.toList.filter fun runId => s.appending.any fun pending => pending.1 = runId }

/-- the intake lock is free, and the id of a new run is not a key yet -/
def CanEnter (s : Interleaved) (intake : IntakeCall) : Prop :=
  s.appending = none ∧ ∀ runId userId, intake = .createRun runId userId → runId ∉ s.runtime.internalRunStorage

instance (s : Interleaved) (intake : IntakeCall) : Decidable (s.CanEnter intake) := by
  unfold CanEnter
  cases intake with
  | createRun runId userId =>
    exact decidable_of_iff (s.appending.isNone = true ∧ runId ∉ s.runtime.internalRunStorage) (by simp)
  | markCancelled runId => exact decidable_of_iff (s.appending.isNone = true) (by simp)
  | requestCancellation runId => exact decidable_of_iff (s.appending.isNone = true) (by simp)

def enterTurn (s : Interleaved) (intake : IntakeCall) : Interleaved :=
  if s.CanEnter intake then
    match intake.untilAppend.run s.runtime with
    | .error e rt' => { s with runtime := rt', answers := s.answers ++ [(intake, .error e)] }
    | .ok (reply, note) rt' =>
      { s with
        runtime := rt'
        appending := note.map fun n => (intake.runId, n)
        answers := s.answers ++ [(intake, .ok reply)]
        late := s.late ++ [intake.runId].filter fun runId => note.isSome && decide (runId ∈ s.expired) }
  else s

def appendTurn (s : Interleaved) (now : UnixTs) : Interleaved :=
  match s.appending with
  | none => s
  | some (runId, note) => { s with runtime := s.runtime.emit runId (note.1, note.2, now), appending := none }

end Interleaved

/-- **The two stores under any interleaving** of one `claim_run` with intake calls. -/
def interleaving (call : ClaimCall) : Machine Interleaved StoreTurn Unit where
  exec s
    | .claim now => ((), s.claimTurn call now)
    | .enter intake => ((), s.enterTurn intake)
    | .append now => ((), s.appendTurn now)

/-! ## The law and the condition -/

/-- what `claim_run` returned or raised -/
def ClaimTask.outcome? : ClaimTask → Option (Except TaskError (Option ClaimedRun))
  | .finished _ outcome => some outcome
  | _ => none

/-- what `claim_run` raised -/
def ClaimTask.raised? (task : ClaimTask) : Option TaskError :=
  match task.outcome? with
  | some (.error e) => some e
  | _ => none

/-- all calls have returned or raised -/
def Interleaved.Complete (s : Interleaved) : Prop := s.claim.outcome?.isSome = true ∧ s.appending = none

instance (s : Interleaved) : Decidable s.Complete := inferInstanceAs (Decidable (_ ∧ _))

/-- one intake call after the other, then `claim_run` alone, then the other intake calls -/
def serialTurns (before after : List IntakeCall) (claimTurns : ℕ) (now : UnixTs) : List StoreTurn :=
  before.flatMap (fun intake => [.enter intake, .append now]) ++
    (List.replicate claimTurns (.claim now) ++ after.flatMap fun intake => [.enter intake, .append now])

/-- some serial order of the calls ends with the same answers, records and events -/
def Serializable (call : ClaimCall) (rt : InMemoryRuntime) (turns : List StoreTurn) : Prop :=
  let s := (interleaving call).run (.start rt) turns
  ∃ before after claimTurns now,
    let s' := (interleaving call).run (.start rt) (serialTurns before after claimTurns now)
    s'.Complete ∧ s'.answers.Perm s.answers ∧ s'.claim.outcome? = s.claim.outcome? ∧
      ∀ r, s'.runtime.record? r = s.runtime.record? r ∧ s'.runtime.notes r = s.runtime.notes r

/-- the runs that the second loop has come to -/
def ClaimTask.reached : ClaimTask → List UUID
  | .cancelling _ reached _ _ _ => reached
  | .claiming _ reached _ => reached
  | .finished reached _ => reached
  | _ => []

/-- `claim_run` waits in an append inside one of its loops over the dictionary -/
def ClaimTask.Iterating : ClaimTask → Prop
  | .expiring .. => True
  | .cancelling .. => True
  | _ => False

def ClaimTask.Expiring (r : UUID) : ClaimTask → Prop
  | .expiring runId _ _ _ _ => runId = r
  | _ => False

def ClaimTask.Claiming (r : UUID) : ClaimTask → Prop
  | .claiming runId _ _ => runId = r
  | _ => False

/-- the intake call runs now and changes the dictionary -/
def Interleaved.Changes (s : Interleaved) (intake : IntakeCall) : Prop :=
  s.CanEnter intake ∧ ∃ reply note rt', intake.untilAppend.run s.runtime = .ok (reply, some note) rt'

/-- the turn does not bring an intake call and `claim_run` into each other's way -/
def Interleaved.Orderly (call : ClaimCall) (s : Interleaved) : StoreTurn → Prop
  | .enter intake =>
    s.Changes intake →
      match intake with
      | .createRun _ _ => ¬ s.claim.Iterating
      | .markCancelled r => ¬ s.claim.Expiring r ∧ ¬ s.claim.Claiming r
      | .requestCancellation r => ¬ s.claim.Claiming r
  | .claim now =>
    (∀ r ∈ (s.claimTurn call now).claim.reached, r ∉ s.claim.reached → r ∉ s.late) ∧
      ∀ r ∈ s.aboutToCancel, ∀ pending ∈ s.appending, pending.1 ≠ r
  | .append _ => True

/-! The condition can be checked turn by turn. -/

instance (task : ClaimTask) : Decidable task.Iterating :=
  match task with
  | .idle => .isFalse id
  | .expiring .. => .isTrue trivial
  | .cancelling .. => .isTrue trivial
  | .claiming .. => .isFalse id
  | .finished .. => .isFalse id

instance (r : UUID) (task : ClaimTask) : Decidable (task.Expiring r) :=
  match task with
  | .idle => .isFalse id
  | .expiring runId _ _ _ _ => inferInstanceAs (Decidable (runId = r))
  | .cancelling .. => .isFalse id
  | .claiming .. => .isFalse id
  | .finished .. => .isFalse id

instance (r : UUID) (task : ClaimTask) : Decidable (task.Claiming r) :=
  match task with
  | .idle => .isFalse id
  | .expiring .. => .isFalse id
  | .cancelling .. => .isFalse id
  | .claiming runId _ _ => inferInstanceAs (Decidable (runId = r))
  | .finished .. => .isFalse id

/-- the call runs to an append -/
def IntakeCall.appends (intake : IntakeCall) (rt : InMemoryRuntime) : Bool :=
  match intake.untilAppend.run rt with
  | .ok (_, note) _ => note.isSome
  | .error _ _ => false

theorem IntakeCall.appends_iff (intake : IntakeCall) (rt : InMemoryRuntime) :
    intake.appends rt = true ↔ ∃ reply note rt', intake.untilAppend.run rt = .ok (reply, some note) rt' := by
  rw [IntakeCall.appends]
  split
  · next reply note rt' heq =>
    cases note with
    | none => simp [heq]
    | some note => simp [heq]
  · next e rt' heq => simp [heq]

instance (s : Interleaved) (intake : IntakeCall) : Decidable (s.Changes intake) :=
  decidable_of_iff (s.CanEnter intake ∧ intake.appends s.runtime = true)
    (and_congr_right' (intake.appends_iff s.runtime))

instance (call : ClaimCall) (s : Interleaved) (turn : StoreTurn) : Decidable (s.Orderly call turn) :=
  match turn with
  | .claim now =>
    -- over the members of the list, not over all bit vectors
    have : Decidable (∀ r ∈ (s.claimTurn call now).claim.reached, r ∉ s.claim.reached → r ∉ s.late) :=
      List.decidableBAll (fun r => r ∉ s.claim.reached → r ∉ s.late) _
    have : Decidable (∀ r ∈ s.aboutToCancel, ∀ pending ∈ s.appending, pending.1 ≠ r) :=
      Option.decidableForallMem _
    inferInstanceAs (Decidable (_ ∧ _))
  | .enter (.createRun r userId) =>
    inferInstanceAs (Decidable (s.Changes (.createRun r userId) → ¬ s.claim.Iterating))
  | .enter (.markCancelled r) =>
    inferInstanceAs (Decidable (s.Changes (.markCancelled r) → ¬ s.claim.Expiring r ∧ ¬ s.claim.Claiming r))
  | .enter (.requestCancellation r) =>
    inferInstanceAs (Decidable (s.Changes (.requestCancellation r) → ¬ s.claim.Claiming r))
  | .append _ => .isTrue trivial

end LlmAgent
