/-
The life cycle of one run, as the stores are meant to drive it. This is the abstract layer: a guarded automaton whose
labels are the decisions that can be taken about a run, each with one guard and one effect.

A `RunView` is all there is to know about a run: its record, its event stream, and (as history) the statuses written to
its record so far. `none` is a run that was not created yet.

- `expire`: the lease of a running run ran out, so it goes back to the queue with one more retry (the three writes
  TIMED_OUT, RETRYING, ENQUEUED are one decision);
- `drop`: an enqueued run with a cancellation intent is cancelled instead of being claimed;
- `renew`, `loseClaim`: the two answers of a heartbeat on a running run; `emit`: an event of the executor.

Facts about every enabled label: `effect_sound` (the record stays in order and never rests in TIMED_OUT or RETRYING),
`effect_traced` (the written statuses follow the default rules), `record_of_terminal` (a terminal record is final).
-/
import LlmAgent.Core.Automaton
import LlmAgent.Runs.Stores

namespace LlmAgent

open Core

/-- a decision about one run -/
inductive Act where
  | create (userId : String) (now : UnixTs)
  | enqueue (now : UnixTs)
  | requestCancel (now : UnixTs)
  | markCancel (now : UnixTs)
  | expire (workerId : String) (now : UnixTs)
  | drop (now : UnixTs)
  | claim (workerId : String) (now : UnixTs)
  | renew (workerId : String) (now : UnixTs)
  | loseClaim (workerId : String) (now : UnixTs)
  | succeed (result : PyDict) (now : UnixTs)
  | fail (error : String) (now : UnixTs)
  | cancel (now : UnixTs)
  | emit (eventType : String) (payload : List (String × String)) (now : UnixTs)

/-- a run: its record, its event stream, and the statuses written to the record so far -/
structure RunView where
  record : RunStatus
  events : List RunEvent
  writes : List RunStatusCode

/-- the lease of the record ran out before `now` -/
def Expired (st : RunStatus) (now : UnixTs) : Prop :=
  ∃ expiration, st.claimExpirationUnixTs = some expiration ∧ expiration ≠ 0 ∧ expiration < now

namespace Act

/-- when a decision may be taken about an existing run -/
def Guard (st : RunStatus) : Act → Prop
  | .create _ _ => False
  | .enqueue _ => st.status = .created
  | .requestCancel _ => st.status ∉ terminalRunStatuses ∧ st.cancelRequested = false
  | .markCancel _ => Allowed st.status .cancelled
  | .expire _ now => st.status = .running ∧ Expired st now
  | .drop _ => st.status = .enqueued ∧ st.cancelRequested = true
  | .claim _ _ => st.status = .enqueued ∧ st.cancelRequested = false
  | .renew workerId _ => st.status = .running ∧ st.claimedWorker = some workerId
  | .loseClaim workerId _ => st.status = .running ∧ st.claimedWorker ≠ some workerId
  | .succeed _ _ => st.status = .running
  | .fail _ _ => st.status = .running
  | .cancel _ => Allowed st.status .cancelled
  | .emit _ _ _ => True

/-- the record after the decision -/
def record (st : RunStatus) : Act → RunStatus
  | .create _ _ => st
  | .enqueue _ => { id := st.id, status := .enqueued, result := st.result, error := st.error }
  | .requestCancel _ => { st with cancelRequested := true }
  | .markCancel _ => { id := st.id, status := .cancelled, result := st.result, error := st.error }
  | .expire workerId _ => { st with
      status := .enqueued, claimedWorker := some workerId, retryCount := st.retryCount.map (· + 1) }
  | .drop _ => { st with status := .cancelled }
  | .claim workerId now => { st with
      status := .running, claimedWorker := some workerId, claimExpirationUnixTs := some (now + seconds 30) }
  | .renew workerId now => { st with
      status := .running, claimedWorker := some workerId, claimExpirationUnixTs := some (now + seconds 30) }
  | .loseClaim _ _ => st
  | .succeed result _ => { st with status := .succeeded, result := some result }
  | .fail error _ => { st with status := .failed, error := some error }
  | .cancel _ => { st with status := .cancelled }
  | .emit _ _ _ => st

/-- the event the decision appends: type, payload, time -/
def event : Act → Option (String × List (String × String) × UnixTs)
  | .create userId now => some ("created", [("user_id", userId)], now)
  | .enqueue now => some ("enqueued", [], now)
  | .requestCancel now => some ("cancel requested", [], now)
  | .markCancel now => some ("cancelled", [], now)
  | .expire _ now => some ("claim_expired", [], now)
  | .drop now => some ("cancelled", [], now)
  | .claim workerId now => some ("claimed", [("worker", workerId)], now)
  | .renew _ _ => none
  | .loseClaim workerId now => some ("claim_lost", [("worker", workerId)], now)
  | .succeed _ now => some ("run_succeeded", [("result", "done")], now)
  | .fail error now => some ("run_failed", [("error", error)], now)
  | .cancel now => some ("cancelled", [], now)
  | .emit eventType payload now => some (eventType, payload, now)

/-- the statuses the decision writes to the record, in order -/
def statuses (st : RunStatus) : Act → List RunStatusCode
  | .create _ _ => [.created]
  | .enqueue _ => [.enqueued]
  | .requestCancel _ => [st.status]
  | .markCancel _ => [.cancelled]
  | .expire _ _ => [.timedOut, .retrying, .enqueued]
  | .drop _ => [.cancelled]
  | .claim _ _ => [.running]
  | .renew _ _ => [.running]
  | .loseClaim _ _ => []
  | .succeed _ _ => [.succeeded]
  | .fail _ _ => [.failed]
  | .cancel _ => [.cancelled]
  | .emit _ _ _ => []

end Act

namespace RunView

/-- the event the decision appends, numbered in the stream -/
def nextEvents (v : RunView) (a : Act) : List RunEvent :=
  a.event.toList.map fun e => ⟨v.record.id, v.events.length + 1, e.1, e.2.1, e.2.2⟩

/-- the run after the decision -/
def effect (v : RunView) (a : Act) : RunView where
  record := a.record v.record
  events := v.events ++ v.nextEvents a
  writes := v.writes ++ a.statuses v.record

/-- a run that was just created -/
def created (runId : UUID) (userId : String) (now : UnixTs) : RunView where
  record := { id := runId, status := .created, result := none, error := none }
  events := [⟨runId, 1, "created", [("user_id", userId)], now⟩]
  writes := [.created]

end RunView

/-- **The life cycle of run `runId`.** -/
def lifecycle (runId : UUID) : Automaton (Option RunView) Act where
  Enabled
    | none, .create _ _ => True
    | none, _ => False
    | some v, a => a.Guard v.record
  apply
    | none, .create userId now => some (RunView.created runId userId now)
    | none, _ => none
    | some v, a => some (v.effect a)

@[simp] theorem lifecycle_enabled_some (runId : UUID) (v : RunView) (a : Act) :
    (lifecycle runId).Enabled (some v) a ↔ a.Guard v.record := Iff.rfl

@[simp] theorem lifecycle_apply_some (runId : UUID) (v : RunView) (a : Act) :
    (lifecycle runId).apply (some v) a = some (v.effect a) := rfl

/-- an enabled decision creates the run or is taken about an existing one -/
theorem lifecycle_cases {runId : UUID} {o : Option RunView} {a : Act} (h : (lifecycle runId).Enabled o a) :
    (∃ userId now, o = none ∧ a = .create userId now) ∨ ∃ v, o = some v ∧ a.Guard v.record := by
  cases o with
  | none =>
    cases a with
    | create userId now => exact Or.inl ⟨userId, now, rfl, rfl⟩
    | _ => exact absurd h (by simp [lifecycle])
  | some v => exact Or.inr ⟨v, rfl, h⟩

/-- **Invariant rule for one run**: a decision keeps what holds at a creation and what it keeps under its guard. -/
theorem lifecycle_step {I : RunView → Prop} {runId : UUID} {o : Option RunView} {a : Act}
    (hcreate : ∀ userId now, a = .create userId now → I (.created runId userId now))
    (hstep : ∀ v, I v → a.Guard v.record → I (v.effect a)) (ho : ∀ v, o = some v → I v)
    (h : (lifecycle runId).Enabled o a) : ∀ v, (lifecycle runId).apply o a = some v → I v := by
  intro v' hv'
  rcases lifecycle_cases h with ⟨userId, now, rfl, rfl⟩ | ⟨v, rfl, hg⟩
  · obtain rfl : RunView.created runId userId now = v' := Option.some.inj hv'
    exact hcreate userId now rfl
  · obtain rfl : v.effect a = v' := Option.some.inj hv'
    exact hstep v (ho v rfl) hg

/-- an existing run stays in existence, and its written statuses are only added to -/
theorem lifecycle_run_some (runId : UUID) (v : RunView) (l : List Act) :
    ∃ v' new, (lifecycle runId).run (some v) l = some v' ∧ v'.writes = v.writes ++ new := by
  induction l generalizing v with
  | nil => exact ⟨v, [], rfl, (List.append_nil _).symm⟩
  | cons a l ih =>
    obtain ⟨v', new, hrun, hwrites⟩ := ih (v.effect a)
    refine ⟨v', a.statuses v.record ++ new, hrun, ?_⟩
    rw [hwrites, RunView.effect, List.append_assoc]

/-! ## What every enabled decision keeps -/

/-- the record of run `runId` is in order: its own id, a counted number of retries, no half-done recovery -/
structure RunView.Sound (runId : UUID) (v : RunView) : Prop where
  id : v.record.id = runId
  retries : ∃ n : ℕ, v.record.retryCount = some (n : ℤ)
  settled : v.record.status ≠ .timedOut ∧ v.record.status ≠ .retrying
  fresh : v.record.status = .created → v.record.retryCount = some 0

theorem created_sound (runId : UUID) (userId : String) (now : UnixTs) :
    (RunView.created runId userId now).Sound runId :=
  ⟨rfl, ⟨0, rfl⟩, by simp [RunView.created], fun _ => rfl⟩

theorem record_id (st : RunStatus) (a : Act) : (a.record st).id = st.id := by
  cases a <;> rfl

theorem record_retries {st : RunStatus} (a : Act) (h : ∃ n : ℕ, st.retryCount = some (n : ℤ)) :
    ∃ n : ℕ, (a.record st).retryCount = some (n : ℤ) := by
  cases a with
  | enqueue => exact ⟨0, rfl⟩
  | markCancel => exact ⟨0, rfl⟩
  | expire =>
    obtain ⟨n, hn⟩ := h
    exact ⟨n + 1, by simp [Act.record, hn]⟩
  | _ => exact h

/-- a settled run that is not terminal can be cancelled -/
theorem allowed_cancelled {status : RunStatusCode} (hsettled : status ≠ .timedOut ∧ status ≠ .retrying)
    (hnt : status ∉ terminalRunStatuses) : Allowed status .cancelled := by
  revert hsettled hnt
  cases status <;> decide

theorem record_settled {st : RunStatus} (a : Act) (h : st.status ≠ .timedOut ∧ st.status ≠ .retrying) :
    (a.record st).status ≠ .timedOut ∧ (a.record st).status ≠ .retrying := by
  cases a <;> first | exact h | exact ⟨by simp [Act.record], by simp [Act.record]⟩

/-- only a run that is still CREATED has that status after a decision -/
theorem record_fresh {st : RunStatus} (a : Act) (h : st.status = .created → st.retryCount = some 0)
    (hc : (a.record st).status = .created) : (a.record st).retryCount = some 0 := by
  cases a <;> first | exact h hc | cases hc

/-- **Soundness is kept by every decision.** -/
theorem effect_sound {runId : UUID} {v : RunView} (a : Act) (h : v.Sound runId) : (v.effect a).Sound runId :=
  ⟨(record_id v.record a).trans h.id, record_retries a h.retries, record_settled a h.settled, record_fresh a h.fresh⟩

/-- a terminal run admits no decision that writes its record -/
theorem record_of_terminal {st : RunStatus} {a : Act} (ht : st.status ∈ terminalRunStatuses) (hg : a.Guard st) :
    a.record st = st ∧ a.statuses st = [] := by
  cases a with
  | loseClaim => exact ⟨rfl, rfl⟩
  | emit => exact ⟨rfl, rfl⟩
  | markCancel => exact absurd hg (not_allowed_of_terminal ht _)
  | cancel => exact absurd hg (not_allowed_of_terminal ht _)
  | requestCancel => exact absurd ht hg.1
  | create => exact hg.elim
  | enqueue => rw [Act.Guard] at hg; rw [hg] at ht; exact absurd ht (by decide)
  | expire => rw [hg.1] at ht; exact absurd ht (by decide)
  | drop => rw [hg.1] at ht; exact absurd ht (by decide)
  | claim => rw [hg.1] at ht; exact absurd ht (by decide)
  | renew => rw [hg.1] at ht; exact absurd ht (by decide)
  | succeed => rw [Act.Guard] at hg; rw [hg] at ht; exact absurd ht (by decide)
  | fail => rw [Act.Guard] at hg; rw [hg] at ht; exact absurd ht (by decide)

/-! ## The statuses a run goes through -/

/-- the next status equals the one before or is an edge of the default rules away -/
def Follows (a b : RunStatusCode) : Prop := a = b ∨ Allowed a b

/-- the statuses written so far start at CREATED, follow the rules, and end at the record's status -/
structure RunView.Traced (v : RunView) : Prop where
  starts : v.writes.head? = some .created
  chain : v.writes.IsChain Follows
  ends : v.writes.getLast? = some v.record.status

theorem created_traced (runId : UUID) (userId : String) (now : UnixTs) :
    (RunView.created runId userId now).Traced :=
  ⟨rfl, List.isChain_singleton _, rfl⟩

/-- what an enabled decision writes continues the rules from the record's status -/
theorem statuses_chain {st : RunStatus} {a : Act} (hg : a.Guard st) :
    (st.status :: a.statuses st).IsChain Follows ∧
      (st.status :: a.statuses st).getLast? = some (a.record st).status := by
  cases a with
  | create => exact hg.elim
  | requestCancel => exact ⟨by simp [Act.statuses, Follows], rfl⟩
  | loseClaim => exact ⟨by simp [Act.statuses], rfl⟩
  | emit => exact ⟨by simp [Act.statuses], rfl⟩
  | markCancel => exact ⟨List.isChain_pair.2 (Or.inr hg), rfl⟩
  | cancel => exact ⟨List.isChain_pair.2 (Or.inr hg), rfl⟩
  | enqueue => refine ⟨?_, rfl⟩; rw [hg]; simp [Act.statuses, Follows, allowed_iff]
  | succeed => refine ⟨?_, rfl⟩; rw [hg]; simp [Act.statuses, Follows, allowed_iff]
  | fail => refine ⟨?_, rfl⟩; rw [hg]; simp [Act.statuses, Follows, allowed_iff]
  | expire => refine ⟨?_, rfl⟩; rw [hg.1]; simp [Act.statuses, Follows, allowed_iff]
  | drop => refine ⟨?_, rfl⟩; rw [hg.1]; simp [Act.statuses, Follows, allowed_iff]
  | claim => refine ⟨?_, rfl⟩; rw [hg.1]; simp [Act.statuses, Follows, allowed_iff]
  | renew => refine ⟨?_, rfl⟩; rw [hg.1]; simp [Act.statuses, Follows]

/-- **Every decision follows the default rules.** -/
theorem effect_traced {v : RunView} {a : Act} (hg : a.Guard v.record) (h : v.Traced) : (v.effect a).Traced := by
  obtain ⟨hchain, hlast⟩ := statuses_chain hg
  obtain ⟨ws, hws⟩ : ∃ ws, v.writes = ws ++ [v.record.status] := List.getLast?_eq_some_iff.1 h.ends
  have hsplit : (v.effect a).writes = ws ++ (v.record.status :: a.statuses v.record) := by
    simp [RunView.effect, hws]
  refine ⟨?_, ?_, ?_⟩
  · have hs := h.starts
    simp only [RunView.effect, List.head?_append, hs, Option.some_or]
  · rw [hsplit]
    have hc := h.chain
    rw [hws] at hc
    exact List.isChain_split.2 ⟨hc, hchain⟩
  · rw [hsplit, List.getLast?_append, hlast]
    rfl

/-! ## The events of a run -/

/-- how many events of a type a stream holds -/
def countEvents (eventType : String) (events : List RunEvent) : ℕ :=
  events.countP fun e => decide (e.eventType = eventType)

theorem countEvents_append (eventType : String) (l m : List RunEvent) :
    countEvents eventType (l ++ m) = countEvents eventType l + countEvents eventType m := List.countP_append

/-- the type of the event a decision appends -/
def Act.eventType (a : Act) : Option String := a.event.map Prod.fst

theorem countEvents_nextEvents (eventType : String) (v : RunView) (a : Act) :
    countEvents eventType (v.nextEvents a) = if a.eventType = some eventType then 1 else 0 := by
  unfold countEvents RunView.nextEvents Act.eventType
  cases a.event with
  | none => simp
  | some e => simp [List.countP_singleton]

theorem countEvents_effect (eventType : String) (v : RunView) (a : Act) :
    countEvents eventType (v.effect a).events =
      countEvents eventType v.events + if a.eventType = some eventType then 1 else 0 := by
  rw [RunView.effect, countEvents_append, countEvents_nextEvents]

/-- the event types of the stores' own decisions -/
def ownEventTypes : List String :=
  ["created", "enqueued", "cancelled", "cancel requested", "claim_expired", "claimed", "claim_lost", "run_failed",
    "run_succeeded"]

/-- an executor's event has a type of its own -/
def Act.Foreign : Act → Prop
  | .emit eventType _ _ => eventType ∉ ownEventTypes
  | _ => True

/-- the clock reading of a decision -/
def Act.now : Act → UnixTs
  | .create _ now => now
  | .enqueue now => now
  | .requestCancel now => now
  | .markCancel now => now
  | .expire _ now => now
  | .drop now => now
  | .claim _ now => now
  | .renew _ now => now
  | .loseClaim _ now => now
  | .succeed _ now => now
  | .fail _ now => now
  | .cancel now => now
  | .emit _ _ now => now

end LlmAgent
