/-
What every store operation does, in terms of decisions. Each operation has one specification theorem: what it answers,
and which decisions it performs. No later proof unfolds an operation.

- `Decides`: the call takes one decision exactly when its guard holds, and changes nothing otherwise;
- `markEnqueued_spec`, `markCancelled_spec`, `requestCancellation_spec`, `setSucceeded_spec`, `setFailed_spec`,
  `setCancelled_spec`: one decision each;
- `createRun_spec`: a fresh id is created;
- `heartbeat_spec`: the four answers of a heartbeat.
-/
import LlmAgent.Runs.Refinement

namespace LlmAgent

open Core

/-! ## Statements -/

section Statements

variable {rt : InMemoryRuntime} {r : UUID} {st : RunStatus}

theorem readRun_run (h : rt.record? r = some st) : (readRun r).run rt = .ok st rt := by
  rw [InMemoryRuntime.record?] at h
  simp [readRun, h]

theorem readRun_unknown (h : rt.record? r = none) : (readRun r).run rt = .error (.keyError r) rt := by
  rw [InMemoryRuntime.record?] at h
  simp only [readRun, EStateM.run_bind, EStateM.run_get, h]
  rfl

theorem findRun_run (h : rt.record? r = some st) : (findRun r).run rt = .ok st rt := by
  rw [InMemoryRuntime.record?] at h
  simp [findRun, h]

theorem findRun_unknown (h : rt.record? r = none) :
    (findRun r).run rt = .error (.runNotFound (UUID.str r)) rt := by
  rw [InMemoryRuntime.record?] at h
  simp only [findRun, EStateM.run_bind, EStateM.run_get, h]
  rfl

theorem validate_run {target : RunStatusCode} (h : Allowed st.status target) (rt : InMemoryRuntime) :
    (validate st target).run rt = .ok () rt := by
  rw [validate, validate_eq, if_pos h]
  rfl

/-- the text of the policy's refusal -/
def invalidTransition (a b : RunStatusCode) : PyError :=
  .valueError ("Invalid transition: " ++ a.str ++ " -> " ++ b.str)

theorem validate_refused {target : RunStatusCode} (h : ¬ Allowed st.status target) (rt : InMemoryRuntime) :
    (validate st target).run rt = .error (invalidTransition st.status target) rt := by
  rw [validate, validate_eq, if_neg h]
  rfl

theorem writeRun_run (rt : InMemoryRuntime) (r : UUID) (st : RunStatus) :
    (writeRun r st).run rt = .ok () (rt.put r st) := rfl

theorem appendEvent_run (h : rt.internalEventLogs.Known r) (eventType : String) (payload : List (String × String))
    (now : UnixTs) :
    (appendEvent r eventType payload now).run rt =
      .ok (rt.internalEventLogs.nextEvent r eventType payload now) (rt.emit r (eventType, payload, now)) := by
  simp only [appendEvent, EStateM.run_bind, EStateM.run_get, InMemoryRunEventLog.append_known h, EStateM.run_modify,
    EStateM.run_pure]
  rfl

/-- the record `_transition_locked` writes -/
def transitioned (st : RunStatus) (target : RunStatusCode) (request : TransitionRequestParams) : RunStatus where
  id := st.id
  status := target
  result := getValueOrFallback request.result st.result
  error := getValueOrFallback request.error st.error
  claimedWorker := getValueOrFallback request.workerId st.claimedWorker
  claimExpirationUnixTs := getValueOrFallback request.expirationUnixTs st.claimExpirationUnixTs
  retryCount := getValueOrFallback request.retryCount st.retryCount
  cancelRequested := st.cancelRequested

theorem transitionLocked_run {target : RunStatusCode} (h : rt.record? r = some st) (hal : Allowed st.status target)
    (request : TransitionRequestParams) :
    (transitionLocked r target request).run rt = .ok () (rt.put r (transitioned st target request)) := by
  simp only [transitionLocked, EStateM.run_bind, readRun_run h, validate_run hal, writeRun_run, transitioned]

theorem transitionLocked_refused {target : RunStatusCode} (h : rt.record? r = some st)
    (hal : ¬ Allowed st.status target) (request : TransitionRequestParams) :
    (transitionLocked r target request).run rt = .error (invalidTransition st.status target) rt := by
  simp only [transitionLocked, EStateM.run_bind, readRun_run h, validate_refused hal]

theorem transitionLocked_unknown {target : RunStatusCode} (h : rt.record? r = none)
    (request : TransitionRequestParams) :
    (transitionLocked r target request).run rt = .error (.keyError r) rt := by
  simp only [transitionLocked, EStateM.run_bind, readRun_unknown h]

theorem record?_eq_none_iff : rt.record? r = none ↔ rt.view r = none := by
  rw [InMemoryRuntime.view, Option.map_eq_none_iff]

theorem known_put {st : RunStatus} (h : rt.internalEventLogs.Known r) :
    (rt.put r st).internalEventLogs.Known r := h

end Statements

/-! ## Calls that take at most one decision -/

/-- the call takes decision `a` about `r` when its guard holds, and then answers `yes`; otherwise it changes nothing and
either raises or answers something else -/
def Decides {α : Type} (call : StoreM α) (rt : InMemoryRuntime) (r : UUID) (a : Act) (yes : α → Prop) : Prop :=
  (∃ v x rt', rt.view r = some v ∧ a.Guard v.record ∧ call.run rt = .ok x rt' ∧ yes x ∧ Performs rt rt' [(r, a)]) ∨
  ((∀ v, rt.view r = some v → ¬ a.Guard v.record) ∧
    ((∃ e, call.run rt = .error e rt) ∨ ∃ x, call.run rt = .ok x rt ∧ ¬ yes x))

/-- the three ways a call can go: no such run, guard met, guard not met -/
theorem decides_of_cases {α : Type} {call : StoreM α} {rt : InMemoryRuntime} {r : UUID} {a : Act} {yes : α → Prop}
    (hunknown : rt.record? r = none → ∃ e, call.run rt = .error e rt)
    (hmet : ∀ v, rt.view r = some v → a.Guard v.record →
      ∃ x rt', call.run rt = .ok x rt' ∧ yes x ∧ Performs rt rt' [(r, a)])
    (hunmet : ∀ v, rt.view r = some v → ¬ a.Guard v.record →
      (∃ e, call.run rt = .error e rt) ∨ ∃ x, call.run rt = .ok x rt ∧ ¬ yes x) : Decides call rt r a yes := by
  cases hv : rt.view r with
  | none => exact Or.inr ⟨fun v h => (Option.some_ne_none v (h.symm.trans hv)).elim,
      Or.inl (hunknown (record?_eq_none_iff.2 hv))⟩
  | some v =>
    by_cases hg : a.Guard v.record
    · obtain ⟨x, rt', hrun, hx, hp⟩ := hmet v hv hg
      exact Or.inl ⟨v, x, rt', hv, hg, hrun, hx, hp⟩
    · refine Or.inr ⟨fun v' h => ?_, hunmet v hv hg⟩
      obtain rfl := Option.some.inj (hv.symm.trans h)
      exact hg

section OneDecisionCalls

variable {rt : InMemoryRuntime} (hgood : Good rt) (r : UUID) (now : UnixTs)
include hgood

theorem known_of_view {r : UUID} {v : RunView} (hv : rt.view r = some v) : rt.internalEventLogs.Known r :=
  hgood.known r (mem_of_view hv)

theorem markEnqueued_spec : Decides (markEnqueued r now) rt r (.enqueue now) fun _ => True := by
  refine decides_of_cases (fun h => ⟨.keyError r, ?_⟩) (fun v hv hg => ?_)
    (fun v hv hg => Or.inl ⟨invalidTransition v.record.status .enqueued, ?_⟩)
  · simp only [markEnqueued, EStateM.run_bind, readRun_unknown h]
  · have hal : Allowed v.record.status .enqueued := by rw [show v.record.status = _ from hg]; decide
    refine ⟨(), _, ?_, trivial, performs_write_log (a := .enqueue now) hgood hv hg rfl rfl⟩
    simp only [markEnqueued, EStateM.run_bind, readRun_run (record?_of_view hv), validate_run hal, writeRun_run,
      appendEvent_run (known_put (known_of_view hgood hv)), EStateM.run_pure]
    rfl
  · have hal : ¬ Allowed v.record.status .enqueued := by
      have hset := (hgood.sound r v hv).settled
      simp only [Act.Guard] at hg
      simp [allowed_iff, hg, hset]
    simp only [markEnqueued, EStateM.run_bind, readRun_run (record?_of_view hv), validate_refused hal]

theorem markCancelled_spec : Decides (markCancelled r now) rt r (.markCancel now) fun b => b = true := by
  refine decides_of_cases (fun h => ⟨.runNotFound (UUID.str r), ?_⟩) (fun v hv hg => ?_) (fun v hv hg => ?_)
  · simp only [markCancelled, EStateM.run_bind, findRun_unknown h]
  · have hnt : v.record.status ∉ terminalRunStatuses := fun ht => not_allowed_of_terminal ht _ hg
    refine ⟨true, _, ?_, rfl, performs_write_log (a := .markCancel now) hgood hv hg rfl rfl⟩
    simp only [markCancelled, EStateM.run_bind, findRun_run (record?_of_view hv), if_neg hnt, validate_run hg,
      writeRun_run, appendEvent_run (known_put (known_of_view hgood hv)), EStateM.run_pure]
    rfl
  · by_cases ht : v.record.status ∈ terminalRunStatuses
    · refine Or.inr ⟨false, ?_, by decide⟩
      simp only [markCancelled, EStateM.run_bind, findRun_run (record?_of_view hv), if_pos ht, EStateM.run_pure]
    · refine Or.inl ⟨invalidTransition v.record.status .cancelled, ?_⟩
      simp only [markCancelled, EStateM.run_bind, findRun_run (record?_of_view hv), if_neg ht, validate_refused hg]

theorem requestCancellation_spec :
    Decides (requestCancellation r now) rt r (.requestCancel now) fun b => b = true := by
  refine decides_of_cases (fun h => ⟨.runNotFound (UUID.str r), ?_⟩) (fun v hv hg => ?_)
    (fun v hv hg => Or.inr ⟨false, ?_, by decide⟩)
  · simp only [requestCancellation, EStateM.run_bind, findRun_unknown h]
  · refine ⟨true, _, ?_, rfl, performs_write_log (a := .requestCancel now) hgood hv hg rfl rfl⟩
    simp only [requestCancellation, EStateM.run_bind, findRun_run (record?_of_view hv), if_neg hg.1, hg.2,
      Bool.false_eq_true, if_false, writeRun_run, appendEvent_run (known_put (known_of_view hgood hv)),
      EStateM.run_pure]
    rfl
  · by_cases ht : v.record.status ∈ terminalRunStatuses
    · simp only [requestCancellation, EStateM.run_bind, findRun_run (record?_of_view hv), if_pos ht, EStateM.run_pure]
    · have hflag : v.record.cancelRequested = true := by
        simpa [Act.Guard, ht] using hg
      simp only [requestCancellation, EStateM.run_bind, findRun_run (record?_of_view hv), if_neg ht, hflag, if_true,
        EStateM.run_pure]

/-- one terminal transition followed by its event: the shape of `set_failed`, `set_succeeded` and `set_cancelled` -/
theorem terminalWrite_spec {target : RunStatusCode} {request : TransitionRequestParams} {a : Act} {eventType : String}
    {payload : List (String × String)} (hguard : ∀ st, a.Guard st ↔ Allowed st.status target)
    (hrec : ∀ st, a.record st = transitioned st target request) (hst : ∀ st, a.statuses st = [target])
    (hev : a.event = some (eventType, payload, now)) :
    Decides (do transitionLocked r target request; let _ ← appendEvent r eventType payload now) rt r a
      fun _ => True := by
  refine decides_of_cases (fun h => ⟨.keyError r, ?_⟩) (fun v hv hg => ?_)
    (fun v hv hg => Or.inl ⟨invalidTransition v.record.status target, ?_⟩)
  · simp only [EStateM.run_bind, transitionLocked_unknown h]
  · have hal := (hguard _).1 hg
    refine ⟨(), _, ?_, trivial, performs_write_log (a := a) hgood hv hg ?_ hev⟩
    · simp only [EStateM.run_bind, transitionLocked_run (record?_of_view hv) hal, hrec,
        appendEvent_run (known_put (known_of_view hgood hv)), EStateM.run_pure]
    · rw [hst, hrec]
      rfl
  · have hal := mt (hguard _).2 hg
    simp only [EStateM.run_bind, transitionLocked_refused (record?_of_view hv) hal]

theorem setFailed_spec (error : String) : Decides (setFailed r error now) rt r (.fail error now) fun _ => True :=
  terminalWrite_spec hgood r now (by simp [Act.Guard, allowed_iff]) (fun _ => rfl) (fun _ => rfl) rfl

theorem setSucceeded_spec (result : PyDict) :
    Decides (setSucceeded r result now) rt r (.succeed result now) fun _ => True :=
  terminalWrite_spec hgood r now (by simp [Act.Guard, allowed_iff]) (fun _ => rfl) (fun _ => rfl) rfl

theorem setCancelled_spec : Decides (setCancelled r now) rt r (.cancel now) fun _ => True :=
  terminalWrite_spec hgood r now (fun _ => Iff.rfl) (fun _ => rfl) (fun _ => rfl) rfl

/-- an executor's event is appended to the stream of any known run -/
theorem appendEvent_spec (eventType : String) (payload : List (String × String)) :
    Decides (appendEvent r eventType payload now) rt r (.emit eventType payload now) fun _ => True := by
  refine decides_of_cases (fun h => ⟨.valueError ("Run " ++ UUID.str r ++ " not found"), ?_⟩) (fun v hv hg => ?_)
    (fun v hv hg => absurd trivial hg)
  · have hno : r ∉ rt.internalEventLogs.internalRunEvents :=
      fun hmem => view_eq_none_iff.1 (record?_eq_none_iff.1 h) (hgood.stored r hmem)
    simp only [appendEvent, EStateM.run_bind, EStateM.run_get, InMemoryRunEventLog.append_unknown hno]
    rfl
  · exact ⟨_, _, appendEvent_run (known_of_view hgood hv) _ _ _, trivial, performs_log hgood hv hg rfl rfl rfl⟩

end OneDecisionCalls

/-! ## Creating a run -/

/-- the runtime after `init_run_stream` -/
def InMemoryRuntime.initStream (rt : InMemoryRuntime) (r : UUID) : InMemoryRuntime :=
  { rt with internalEventLogs := rt.internalEventLogs.initRunStream r }

/-- the runtime after `create_run` on a fresh id -/
def InMemoryRuntime.withRun (rt : InMemoryRuntime) (r : UUID) (userId : String) (now : UnixTs) : InMemoryRuntime :=
  ((rt.put r (RunView.created r userId now).record).initStream r).emit r ("created", [("user_id", userId)], now)

section Create

variable {rt : InMemoryRuntime} (hs : Structural rt) {r : UUID} (hfresh : r ∉ rt.internalRunStorage)
include hs hfresh

theorem fresh_stream : r ∉ rt.internalEventLogs.internalRunEvents := fun h => hfresh (hs.stored r h)

omit hs in
theorem mem_put_fresh (st : RunStatus) (j : UUID) :
    j ∈ (rt.put r st).internalRunStorage ↔ j = r ∨ j ∈ rt.internalRunStorage := by
  change j ∈ (rt.internalRunStorage.set r st).keys ↔ j = r ∨ j ∈ rt.internalRunStorage.keys
  rw [Dict.keys_set_of_not_mem _ _ _ hfresh, List.mem_append, List.mem_singleton, or_comm]

theorem structural_create (userId : String) (now : UnixTs) : Structural (rt.withRun r userId now) := by
  have hinit := InMemoryRunEventLog.stream_initRunStream_self (fresh_stream hs hfresh)
  have hmem := mem_put_fresh hfresh (RunView.created r userId now).record
  refine ⟨fun j hj => ?_, fun j hj => ?_, fun j hj => ?_⟩
  · refine InMemoryRunEventLog.known_push _ _ _ ?_
    by_cases hjr : j = r
    · exact hjr ▸ hinit.2
    · have hold := hs.known j (((hmem j).1 hj).resolve_left hjr)
      exact (InMemoryRunEventLog.stream_initRunStream_ne _ hjr).2 hold
  · refine (hmem j).2 ?_
    rcases (InMemoryRunEventLog.mem_push _ _ _ _ _ _).1 hj with rfl | hj
    · exact Or.inl rfl
    · exact ((InMemoryRunEventLog.mem_initRunStream _ _ _).1 hj).imp_right (hs.stored j)
  · have hj' : j ≠ r ∧ j ∉ rt.internalRunStorage := not_or.1 (mt (hmem j).2 hj)
    change (rt.put r _).writesOf j = []
    rw [writesOf_put, if_neg hj'.1, hs.unwritten j hj'.2]

theorem view_create (userId : String) (now : UnixTs) :
    (rt.withRun r userId now).view = Function.update rt.view r (some (RunView.created r userId now)) := by
  have hinit := InMemoryRunEventLog.stream_initRunStream_self (fresh_stream hs hfresh)
  funext j
  by_cases hjr : j = r
  · subst hjr
    rw [Function.update_self]
    refine view_some_iff.2 ⟨Dict.get?_set_self _ _ _, ?_, ?_⟩
    · change _ = (InMemoryRunEventLog.push _ _ _ _ _).stream j
      rw [InMemoryRunEventLog.stream_push_self]
      simp only [InMemoryRuntime.initStream, InMemoryRuntime.put, InMemoryRunEventLog.nextEvent, hinit.1]
      rfl
    · change _ = (rt.put j _).writesOf j
      rw [writesOf_put, if_pos rfl, hs.unwritten j hfresh]
      rfl
  · rw [Function.update_of_ne hjr]
    have hstream : (rt.withRun r userId now).stream j = rt.stream j :=
      (InMemoryRunEventLog.stream_push_ne _ _ _ _ hjr).trans (InMemoryRunEventLog.stream_initRunStream_ne _ hjr).1
    exact view_congr (Dict.get?_set_ne _ _ hjr) hstream ((writesOf_put rt r j _).trans (if_neg hjr))

theorem performs_create (userId : String) (now : UnixTs) :
    Performs rt (rt.withRun r userId now) [(r, .create userId now)] where
  structural := structural_create hs hfresh userId now
  legal := by
    refine ⟨?_, trivial⟩
    change (lifecycle r).Enabled (rt.view r) _
    rw [view_eq_none_iff.2 hfresh]
    trivial
  view := by
    rw [view_create hs hfresh userId now]
    change _ = Function.update rt.view r ((lifecycle r).apply (rt.view r) _)
    rw [view_eq_none_iff.2 hfresh]
    rfl
  keys := Dict.keys_set_of_not_mem rt.internalRunStorage r (RunView.created r userId now).record hfresh

theorem createRun_spec (userId : String) (now : UnixTs) : ∃ rt',
    (createRun r userId now).run rt = .ok (RunView.created r userId now).record rt' ∧
      Performs rt rt' [(r, .create userId now)] := by
  have hinit := InMemoryRunEventLog.stream_initRunStream_self (fresh_stream hs hfresh)
  have hknown : ((rt.put r (RunView.created r userId now).record).initStream r).internalEventLogs.Known r := hinit.2
  refine ⟨_, ?_, performs_create hs hfresh userId now⟩
  have hinitRun : (initRunStream r).run (rt.put r (RunView.created r userId now).record) =
      .ok () ((rt.put r (RunView.created r userId now).record).initStream r) := rfl
  simp only [RunView.created] at hknown hinitRun
  simp only [createRun, EStateM.run_bind, writeRun_run, hinitRun, appendEvent_run hknown, EStateM.run_pure,
    RunView.created, InMemoryRuntime.withRun]

end Create

/-! ## Heartbeats -/

/-- a heartbeat of a worker that lost its lease appends one event before it raises -/
theorem heartbeat_lost {rt : InMemoryRuntime} (hgood : Good rt) {r : UUID} {v : RunView} (hv : rt.view r = some v)
    {workerId : String} (now : UnixTs) (hrun : v.record.status = .running)
    (howner : v.record.claimedWorker ≠ some workerId) : (heartbeat r workerId now).run rt =
      .error (.runLeaseLost ("Run " ++ UUID.str r ++ " is not claimed by " ++ workerId))
        (rt.emit r ("claim_lost", [("worker", workerId)], now)) := by
  have hnc : ¬ RunStatusCode.running = .cancelled := by decide
  simp only [heartbeat, EStateM.run_bind, readRun_run (record?_of_view hv), hrun, if_neg hnc, ne_eq,
    not_true_eq_false, if_false, howner, not_false_eq_true, if_true, appendEvent_run (known_of_view hgood hv)]
  rfl

/-- **The four answers of a heartbeat.** -/
theorem heartbeat_spec {rt : InMemoryRuntime} (hgood : Good rt) (r : UUID) (workerId : String) (now : UnixTs) :
    (rt.view r = none ∧ (heartbeat r workerId now).run rt = .error (.keyError r) rt) ∨
    ∃ v, rt.view r = some v ∧
      ((v.record.status ≠ .running ∧ (heartbeat r workerId now).run rt = .ok v.record rt) ∨
      (v.record.status = .running ∧ v.record.claimedWorker ≠ some workerId ∧ ∃ rt',
        (heartbeat r workerId now).run rt =
          .error (.runLeaseLost ("Run " ++ UUID.str r ++ " is not claimed by " ++ workerId)) rt' ∧
        Performs rt rt' [(r, .loseClaim workerId now)]) ∨
      (v.record.status = .running ∧ v.record.claimedWorker = some workerId ∧ ∃ rt',
        (heartbeat r workerId now).run rt = .ok ((Act.renew workerId now).record v.record) rt' ∧
        Performs rt rt' [(r, .renew workerId now)])) := by
  cases hv : rt.view r with
  | none =>
    refine Or.inl ⟨rfl, ?_⟩
    simp only [heartbeat, EStateM.run_bind, readRun_unknown (record?_eq_none_iff.2 hv)]
  | some v =>
    have hread := readRun_run (record?_of_view hv)
    refine Or.inr ⟨v, rfl, ?_⟩
    by_cases hrun : v.record.status = .running
    · have hnc : ¬ RunStatusCode.running = .cancelled := by decide
      by_cases howner : v.record.claimedWorker = some workerId
      · refine Or.inr (Or.inr ⟨hrun, howner, _, ?_, performs_write (a := .renew workerId now) hgood hv
          ⟨hrun, howner⟩ rfl rfl⟩)
        simp only [heartbeat, EStateM.run_bind, hread, hrun, if_neg hnc, ne_eq, not_true_eq_false, if_false, howner,
          writeRun_run, EStateM.run_pure]
        rfl
      · exact Or.inr (Or.inl ⟨hrun, howner, _, heartbeat_lost hgood hv now hrun howner,
          performs_log (a := .loseClaim workerId now) hgood hv ⟨hrun, howner⟩ rfl rfl rfl⟩)
    · refine Or.inl ⟨hrun, ?_⟩
      by_cases hc : v.record.status = .cancelled
      · simp only [heartbeat, EStateM.run_bind, hread, hc, if_true, EStateM.run_pure]
      · simp only [heartbeat, EStateM.run_bind, hread, if_neg hc, ne_eq, hrun, not_false_eq_true, if_true,
          EStateM.run_pure]

end LlmAgent
