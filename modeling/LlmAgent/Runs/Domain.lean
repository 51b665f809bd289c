/-
The domain types of agent runs (`contracts/domain/runs`, `llm_agent/domain/agent/runs`) and the transition policy.

- `RunStatusCode`, `terminalRunStatuses`: the life-cycle states of a run;
- `RunStatus`: the stored record of a run, with the defaults of its dataclass;
- `TransitionRequestParams`, `getValueOrFallback`: what a transition overrides, and "unset keeps the stored value";
- `defaultTransitionRules`, `RunTransitionPolicy.validate`: which status changes are allowed.

Readings of Python types: a UUID is its 128-bit integer; a Unix timestamp is a whole number of microseconds, the
resolution of `datetime.now()`; `dict[str, Any]` is a list of entries over `PyAny`. `PyError` lists the exceptions that
the run stores raise, with the text `str(exc)` gives.

`allowed_iff` spells the default rules out; `validate_eq` says that `validate` accepts exactly the allowed changes.
-/
import Mathlib.Tactic
import LlmAgent.Core.Dict

namespace LlmAgent

open Core

/-! ## Python values -/

abbrev UUID := BitVec 128

instance : LawfulBEq UUID := inferInstance

/-- microseconds since the epoch -/
abbrev UnixTs := ℕ

/-- `n` seconds -/
def seconds (n : ℕ) : UnixTs := n * 1000000

/-- the 32 hexadecimal digits of a UUID -/
def UUID.hexDigits (u : UUID) : List Char :=
  let ds := Nat.toDigits 16 u.toNat
  List.replicate (32 - ds.length) '0' ++ ds

/-- `str(uuid)`: groups of 8, 4, 4, 4 and 12 digits -/
def UUID.str (u : UUID) : String :=
  let ds := UUID.hexDigits u
  let group (i n : ℕ) := String.ofList ((ds.drop i).take n)
  "-".intercalate [group 0 8, group 8 4, group 12 4, group 16 4, group 20 12]

/-- a value of type `Any` inside a result or a payload; floats by their bits -/
inductive PyAny where
  | none
  | bool (b : Bool)
  | int (i : ℤ)
  | float (bits : BitVec 64)
  | str (s : String)
  | list (xs : List PyAny)
  | dict (kvs : List (String × PyAny))
deriving Repr

/-- `dict[str, Any]` -/
abbrev PyDict := List (String × PyAny)

/-- the exceptions of the run stores; `executor` is whatever the run executor raised -/
inductive PyError where
  | keyError (key : UUID)
  | runNotFound (runId : String)
  | valueError (message : String)
  | runLeaseLost (message : String)
  | typeError (message : String)
  | executor (message : String)
deriving DecidableEq, Repr

/-- `str(exc)` -/
def PyError.str : PyError → String
  | .keyError key => "UUID('" ++ UUID.str key ++ "')"
  | .runNotFound runId => "Run " ++ runId ++ " not found"
  | .valueError message => message
  | .runLeaseLost message => message
  | .typeError message => message
  | .executor message => message

/-! ## Status codes and records -/

inductive RunStatusCode where
  | created
  | enqueued
  | running
  | succeeded
  | failed
  | cancelled
  | timedOut
  | retrying
deriving DecidableEq, Repr

/-- the member as an f-string prints it -/
def RunStatusCode.str : RunStatusCode → String
  | .created => "RunStatusCode.CREATED"
  | .enqueued => "RunStatusCode.ENQUEUED"
  | .running => "RunStatusCode.RUNNING"
  | .succeeded => "RunStatusCode.SUCCEEDED"
  | .failed => "RunStatusCode.FAILED"
  | .cancelled => "RunStatusCode.CANCELLED"
  | .timedOut => "RunStatusCode.TIMED_OUT"
  | .retrying => "RunStatusCode.RETRYING"

/-- TERMINAL_RUN_STATUSES -/
def terminalRunStatuses : List RunStatusCode := [.succeeded, .failed, .cancelled]

/-- the stored record of a run -/
structure RunStatus where
  id : UUID
  status : RunStatusCode
  result : Option PyDict
  error : Option String
  claimedWorker : Option String := none
  claimExpirationUnixTs : Option UnixTs := none
  retryCount : Option ℤ := some 0
  cancelRequested : Bool := false

structure ClaimedRun where
  id : UUID
  claimType : String
  runStatus : RunStatus

/-! ## Transition requests -/

/-- a field of a transition request: UNSET_FIELD or a value -/
inductive RequestField (α : Type) where
  | unset
  | value (a : α)

structure TransitionRequestParams where
  result : RequestField (Option PyDict) := .unset
  error : RequestField (Option String) := .unset
  workerId : RequestField (Option String) := .unset
  retryCount : RequestField (Option ℤ) := .unset
  expirationUnixTs : RequestField (Option UnixTs) := .unset

def getValueOrFallback {α : Type} (transitionRequestValue : RequestField α) (runStatusValue : α) : α :=
  match transitionRequestValue with
  | .unset => runStatusValue
  | .value a => a

/-! ## The transition policy -/

/-- DEFAULT_TRANSITION_RULES -/
def defaultTransitionRules : Dict RunStatusCode (List RunStatusCode) where
  entries :=
    [(.created, [.enqueued, .cancelled]),
     (.enqueued, [.running, .cancelled]),
     (.running, [.succeeded, .failed, .cancelled, .timedOut]),
     (.succeeded, []),
     (.failed, []),
     (.cancelled, []),
     (.timedOut, [.retrying]),
     (.retrying, [.enqueued])]
  nodup := by decide

structure RunTransitionPolicy where
  transitionRules : Dict RunStatusCode (List RunStatusCode)

/-- `RunTransitionPolicy(transition_rules)`: None and the empty dict give the default rules -/
def RunTransitionPolicy.init (transitionRules : Option (Dict RunStatusCode (List RunStatusCode))) :
    RunTransitionPolicy :=
  match transitionRules with
  | none => ⟨defaultTransitionRules⟩
  | some rules => if rules.entries.isEmpty then ⟨defaultTransitionRules⟩ else ⟨rules⟩

def RunTransitionPolicy.validate (P : RunTransitionPolicy) (runStatus : RunStatus) (newStatus : RunStatusCode) :
    Except PyError Unit :=
  match P.transitionRules.get? runStatus.status with
  | none => .error (.valueError ("Unknown run status: " ++ runStatus.status.str))
  | some targets =>
    if newStatus ∈ targets then .ok ()
    else .error (.valueError ("Invalid transition: " ++ runStatus.status.str ++ " -> " ++ newStatus.str))

/-- the policy both stores are built with: `RunTransitionPolicy()` -/
def runTransitionPolicy : RunTransitionPolicy := RunTransitionPolicy.init none

/-- `b` is an edge of the default rules from `a` -/
def Allowed (a b : RunStatusCode) : Prop := b ∈ (defaultTransitionRules.get? a).getD []

instance (a b : RunStatusCode) : Decidable (Allowed a b) := inferInstanceAs (Decidable (_ ∈ _))

/-- **The default rules, spelled out.** -/
theorem allowed_iff (a b : RunStatusCode) : Allowed a b ↔
    (a = .created ∧ (b = .enqueued ∨ b = .cancelled)) ∨ (a = .enqueued ∧ (b = .running ∨ b = .cancelled)) ∨
    (a = .running ∧ (b = .succeeded ∨ b = .failed ∨ b = .cancelled ∨ b = .timedOut)) ∨
    (a = .timedOut ∧ b = .retrying) ∨ (a = .retrying ∧ b = .enqueued) := by
  cases a <;> cases b <;> decide

/-- a terminal status has no outgoing edge -/
theorem not_allowed_of_terminal {a : RunStatusCode} (h : a ∈ terminalRunStatuses) (b : RunStatusCode) :
    ¬ Allowed a b := by
  cases a <;> cases b <;> revert h <;> decide

/-- the policy knows every status, so it refuses only the edges that are not in the rules -/
theorem validate_eq (runStatus : RunStatus) (newStatus : RunStatusCode) :
    runTransitionPolicy.validate runStatus newStatus =
      if Allowed runStatus.status newStatus then .ok ()
      else .error (.valueError ("Invalid transition: " ++ runStatus.status.str ++ " -> " ++ newStatus.str)) := by
  obtain ⟨id, status, _⟩ := runStatus
  cases status <;> rfl

end LlmAgent
