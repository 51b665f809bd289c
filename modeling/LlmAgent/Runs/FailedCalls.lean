/-
Failed calls of the two stores are atomic, and calls that go through write one event for each decision.

- `failed_unchanged`: a call that raises or answers False leaves the runtime as it was; `lost_heartbeat_appends`: only a
  heartbeat that raises RunLeaseLostError appends its one event;
- `proj_decisions`: a call takes at most one decision about a run, or recovers it and then claims or drops it;
- `changed_events`: a run whose status a call changes gets one event for each of these decisions;
- `stream_of_record_unchanged`: a run whose record stays gets none;
- `calls_atomic`: all of it, in every reachable runtime.
-/
import LlmAgent.Runs.StoreInvariant

namespace LlmAgent

open Core

/-- an operation of one of the stores; `get_events`, which only reads, is `getEvents` -/
def StoreOp.OfStores : StoreOp → Prop
  | .orchestratorCreateRun _ _ _ => False
  | .orchestratorCancelRun _ _ => False
  | .emitEvent _ _ _ _ => False
  | _ => True

/-- the call raises or answers False -/
def Fails (rt : InMemoryRuntime) (op : StoreOp) : Prop :=
  (∃ e, stores.reply rt op = .raised e) ∨ stores.reply rt op = .flag false

/-- the call is a heartbeat of `workerId` for `runId` that raises RunLeaseLostError -/
def LostHeartbeat (rt : InMemoryRuntime) (op : StoreOp) (runId : UUID) (workerId : String) (now : UnixTs) : Prop :=
  op = .heartbeat runId workerId now ∧ ∃ message, stores.reply rt op = .raised (.runLeaseLost message)

/-! ## Failed calls -/

/-- a call that takes one decision or none changes nothing when it fails -/
theorem Decides.unchanged_of_fails {α : Type} {call : StoreM α} {rt : InMemoryRuntime} {r : UUID} {a : Act}
    {yes : α → Prop} {reply : α → Reply} (h : Decides call rt r a yes)
    (hyes : ∀ x, yes x → (∀ e, reply x ≠ .raised e) ∧ reply x ≠ .flag false)
    (hfails : (∃ e, (answer reply call rt).1 = .raised e) ∨ (answer reply call rt).1 = .flag false) :
    (answer reply call rt).2 = rt := by
  rcases h with ⟨v, x, rt', -, -, hrun, hx, -⟩ | ⟨-, ⟨e, hrun⟩ | ⟨x, hrun, -⟩⟩
  · rw [answer_ok hrun] at hfails
    rcases hfails with ⟨e, he⟩ | hfalse
    · exact absurd he ((hyes x hx).1 e)
    · exact absurd hfalse (hyes x hx).2
  · rw [answer_error hrun]
  · rw [answer_ok hrun]

/-- a call that answers with a record or a claim has not failed -/
theorem not_fails {rt : InMemoryRuntime} {op : StoreOp} {reply : Reply} (hreply : stores.reply rt op = reply)
    (hraised : ∀ e, reply ≠ .raised e) (hflag : reply ≠ .flag false) : ¬ Fails rt op := by
  subst hreply
  intro hfails
  rcases hfails with ⟨e, he⟩ | hfalse
  · exact hraised e he
  · exact hflag hfalse

section Failed

variable {rt : InMemoryRuntime} (hgood : Good rt)
include hgood

/-- a heartbeat raises RunLeaseLostError exactly when the run is running for somebody else -/
theorem lostHeartbeat_iff {r : UUID} {workerId : String} {now : UnixTs} :
    LostHeartbeat rt (.heartbeat r workerId now) r workerId now ↔
      ∃ v, rt.view r = some v ∧ v.record.status = .running ∧ v.record.claimedWorker ≠ some workerId := by
  constructor
  · intro h
    obtain ⟨-, message, hreply⟩ := h
    rcases heartbeat_reply hgood r workerId now with ⟨-, h⟩ | ⟨v, hv, ⟨-, h⟩ | ⟨hs, ho, -⟩ | ⟨-, -, h⟩⟩
    · rw [h] at hreply
      cases hreply
    · rw [h] at hreply
      cases hreply
    · exact ⟨v, hv, hs, ho⟩
    · rw [h] at hreply
      cases hreply
  · rintro ⟨v, hv, hs, ho⟩
    refine ⟨rfl, "Run " ++ UUID.str r ++ " is not claimed by " ++ workerId, ?_⟩
    change (answer .status (heartbeat r workerId now) rt).1 = _
    rw [answer_error (heartbeat_lost hgood hv now hs ho)]

/-- **A failed call changes nothing**, a lost heartbeat apart. -/
theorem failed_unchanged {op : StoreOp} (hop : op.OfStores) (hfails : Fails rt op)
    (hbeat : ∀ r w now, ¬ LostHeartbeat rt op r w now) : stores.step rt op = rt := by
  have hwrite : ∀ x : Unit, True → (∀ e, Reply.returned ≠ .raised e) ∧ Reply.returned ≠ .flag false :=
    fun _ _ => ⟨by nofun, by nofun⟩
  have hflag : ∀ b : Bool, b = true → (∀ e, Reply.flag b ≠ .raised e) ∧ Reply.flag b ≠ .flag false := by
    rintro _ rfl
    exact ⟨by nofun, by nofun⟩
  cases op with
  | createRun r userId now =>
    by_cases hmem : r ∈ rt.internalRunStorage
    · simp only [Machine.step, stores, StoreOp.exec, if_pos hmem]
    · -- a create on a fresh id does not fail
      obtain ⟨rt', hrun, -⟩ := createRun_spec hgood.toStructural hmem userId now
      have hreply : stores.reply rt (.createRun r userId now) = .status (RunView.created r userId now).record := by
        simp only [Machine.reply, stores, StoreOp.exec, if_neg hmem]
        rw [answer_ok hrun]
      exact absurd hfails (not_fails hreply (by simp) (by simp))
  | markEnqueued r now => exact (markEnqueued_spec hgood r now).unchanged_of_fails hwrite hfails
  | markCancelled r now => exact (markCancelled_spec hgood r now).unchanged_of_fails hflag hfails
  | requestCancellation r now => exact (requestCancellation_spec hgood r now).unchanged_of_fails hflag hfails
  | setSucceeded r result now => exact (setSucceeded_spec hgood r now result).unchanged_of_fails hwrite hfails
  | setFailed r error now => exact (setFailed_spec hgood r now error).unchanged_of_fails hwrite hfails
  | setCancelled r now => exact (setCancelled_spec hgood r now).unchanged_of_fails hwrite hfails
  | claimRun w now =>
    obtain ⟨claimed, hreply⟩ := claimRun_reply hgood w now
    exact absurd hfails (not_fails hreply (by simp) (by simp))
  | heartbeat r w now =>
    change (answer .status (heartbeat r w now) rt).2 = rt
    rcases heartbeat_spec hgood r w now with ⟨-, hrun⟩ | ⟨v, hv, ⟨-, hrun⟩ | ⟨hs, ho, -⟩ | ⟨hs, ho, rt', hrun, -⟩⟩
    · rw [answer_error hrun]
    · rw [answer_ok hrun]
    · exact absurd ((lostHeartbeat_iff hgood).2 ⟨v, hv, hs, ho⟩) (hbeat r w now)
    · have hreply : stores.reply rt (.heartbeat r w now) = .status ((Act.renew w now).record v.record) := by
        change (answer .status (heartbeat r w now) rt).1 = _
        rw [answer_ok hrun]
      exact absurd hfails (not_fails hreply (by simp) (by simp))
  | getStatus r now =>
    change (answer .status (findRun r) rt).2 = rt
    cases h : rt.record? r with
    | none => rw [answer_error (findRun_unknown h)]
    | some st => rw [answer_ok (findRun_run h)]
  | orchestratorCreateRun => exact hop.elim
  | orchestratorCancelRun => exact hop.elim
  | emitEvent => exact hop.elim

/-- **A lost heartbeat appends one `claim_lost` event** and writes no record. -/
theorem lost_heartbeat_appends {op : StoreOp} {r : UUID} {w : String} {now : UnixTs}
    (h : LostHeartbeat rt op r w now) : (stores.step rt op).internalRunStorage = rt.internalRunStorage ∧
      ∃ runEvent, rt.internalEventLogs.append r "claim_lost" [("worker", w)] now =
        .ok (runEvent, (stores.step rt op).internalEventLogs) := by
  obtain ⟨rfl, -⟩ := id h
  obtain ⟨v, hv, hs, ho⟩ := (lostHeartbeat_iff hgood).1 h
  have hstep : stores.step rt (.heartbeat r w now) = rt.emit r ("claim_lost", [("worker", w)], now) := by
    change (answer .status (heartbeat r w now) rt).2 = _
    rw [answer_error (heartbeat_lost hgood hv now hs ho)]
  rw [hstep]
  exact ⟨rfl, _, InMemoryRunEventLog.append_known (known_of_view hgood hv) _ _ _⟩

end Failed

/-- `get_events` only reads -/
theorem getEvents_unchanged (rt : InMemoryRuntime) (r : UUID) (afterSequence : Option ℤ) :
    (∃ runEvents, (getEvents r afterSequence).run rt = .ok runEvents rt) ∨
      ∃ e, (getEvents r afterSequence).run rt = .error e rt := by
  cases hrec : rt.record? r with
  | none =>
    refine Or.inr ⟨.runNotFound (UUID.str r), ?_⟩
    simp only [getEvents, EStateM.run_bind, findRun_unknown hrec]
  | some st =>
    cases hlist : rt.internalEventLogs.list r afterSequence with
    | error e =>
      refine Or.inr ⟨e, ?_⟩
      simp only [getEvents, EStateM.run_bind, findRun_run hrec, EStateM.run_get, hlist]
      rfl
    | ok runEvents =>
      refine Or.inl ⟨runEvents, ?_⟩
      simp only [getEvents, EStateM.run_bind, findRun_run hrec, EStateM.run_get, hlist, EStateM.run_pure]

/-! ## What a call writes and appends for one run -/

/-- the statuses a call writes to the record of run `r`, in order -/
def newWrites (rt : InMemoryRuntime) (op : StoreOp) (r : UUID) : List RunStatusCode :=
  ((stores.step rt op).writesOf r).drop (rt.writesOf r).length

/-- the call writes a status to the record of run `r` that is not the stored one -/
def ChangesStatus (rt : InMemoryRuntime) (op : StoreOp) (r : UUID) : Prop :=
  ∃ status ∈ newWrites rt op r, rt.status? r ≠ some status

/-- the call recovers run `r` and then claims or cancels it -/
def RecoversAndTakes (rt : InMemoryRuntime) (op : StoreOp) (r : UUID) : Prop :=
  ∃ status, newWrites rt op r = [.timedOut, .retrying, .enqueued, status] ∧
    (status = .running ∨ status = .cancelled)

def eventsIn (o : Option RunView) : List RunEvent := (o.map RunView.events).getD []

def writesIn (o : Option RunView) : List RunStatusCode := (o.map RunView.writes).getD []

theorem stream_eq_eventsIn {rt : InMemoryRuntime} (h : Structural rt) (r : UUID) :
    rt.stream r = eventsIn (rt.view r) := by
  cases hv : rt.view r with
  | none => exact stream_of_unknown h hv
  | some v => exact (view_some_iff.1 hv).2.1.symm

theorem writesOf_eq_writesIn {rt : InMemoryRuntime} (h : Structural rt) (r : UUID) :
    rt.writesOf r = writesIn (rt.view r) := by
  cases hv : rt.view r with
  | none => exact h.unwritten r (view_eq_none_iff.1 hv)
  | some v => exact (view_some_iff.1 hv).2.2.symm

section OneRun

variable {r : UUID} {o : Option RunView} {a : Act}

/-- a decision appends the event of its type, if it has one -/
theorem eventsIn_apply (h : (lifecycle r).Enabled o a) : ∃ new, eventsIn ((lifecycle r).apply o a) = eventsIn o ++ new ∧
    new.map RunEvent.eventType = a.eventType.toList := by
  rcases lifecycle_cases h with ⟨userId, now, rfl, rfl⟩ | ⟨v, rfl, -⟩
  · exact ⟨(RunView.created r userId now).events, rfl, rfl⟩
  · refine ⟨v.nextEvents a, rfl, ?_⟩
    unfold RunView.nextEvents Act.eventType
    cases a.event <;> rfl

/-- what a renewal writes is the stored status; every other decision that writes appends an event -/
theorem writesIn_apply (h : (lifecycle r).Enabled o a) : ∃ new, writesIn ((lifecycle r).apply o a) = writesIn o ++ new ∧
    new.length ≤ 3 ∧ (a.eventType = none → ∀ status ∈ new, o.map (fun v => v.record.status) = some status) := by
  rcases lifecycle_cases h with ⟨userId, now, rfl, rfl⟩ | ⟨v, rfl, hg⟩
  · exact ⟨[.created], rfl, by decide, by nofun⟩
  · refine ⟨a.statuses v.record, rfl, by cases a <;> simp [Act.statuses], ?_⟩
    intro hnone status hmem
    cases a with
    | renew w now =>
      obtain rfl := List.mem_singleton.1 hmem
      exact congrArg some hg.1
    | _ => cases hnone

/-- a decision that writes a status the run did not have appends one event -/
theorem eventsIn_apply_of_changed (h : (lifecycle r).Enabled o a) {status : RunStatusCode}
    (hmem : status ∈ (writesIn ((lifecycle r).apply o a)).drop (writesIn o).length)
    (hne : o.map (fun v => v.record.status) ≠ some status) :
    ∃ runEvent, eventsIn ((lifecycle r).apply o a) = eventsIn o ++ [runEvent] := by
  obtain ⟨new, hevents, htypes⟩ := eventsIn_apply h
  obtain ⟨writes, hwrites, -, hsame⟩ := writesIn_apply h
  rw [hwrites, List.drop_left] at hmem
  cases htype : a.eventType with
  | none => exact absurd (hsame htype status hmem) hne
  | some eventType =>
    rw [htype] at htypes
    obtain ⟨runEvent, rfl, -⟩ := List.map_eq_singleton_iff.1 htypes
    exact ⟨runEvent, hevents⟩

/-- one decision writes at most three statuses -/
theorem writesIn_apply_ne (h : (lifecycle r).Enabled o a) (status : RunStatusCode) :
    (writesIn ((lifecycle r).apply o a)).drop (writesIn o).length ≠ [.timedOut, .retrying, .enqueued, status] := by
  obtain ⟨writes, hwrites, hshort, -⟩ := writesIn_apply h
  rw [hwrites, List.drop_left]
  rintro rfl
  simp at hshort

/-- a recovery and the drop or the claim after it append one event each -/
theorem eventsIn_recovered {w : String} {now : UnixTs} (hexpire : (lifecycle r).Enabled o (.expire w now))
    (hnext : (lifecycle r).Enabled ((lifecycle r).apply o (.expire w now)) a) (ha : a = .drop now ∨ a = .claim w now) :
    ∃ recovery next,
      eventsIn ((lifecycle r).apply ((lifecycle r).apply o (.expire w now)) a) = eventsIn o ++ [recovery, next] ∧
      recovery.eventType = "claim_expired" ∧ (next.eventType = "claimed" ∨ next.eventType = "cancelled") := by
  obtain ⟨new, hevents, htypes⟩ := eventsIn_apply hexpire
  obtain ⟨new', hevents', htypes'⟩ := eventsIn_apply hnext
  obtain ⟨recovery, rfl, hrecovery⟩ := List.map_eq_singleton_iff.1 htypes
  have hlast : ∃ next, new' = [next] ∧ (next.eventType = "claimed" ∨ next.eventType = "cancelled") := by
    rcases ha with rfl | rfl
    · obtain ⟨next, rfl, hnext⟩ := List.map_eq_singleton_iff.1 htypes'
      exact ⟨next, rfl, Or.inr hnext⟩
    · obtain ⟨next, rfl, hnext⟩ := List.map_eq_singleton_iff.1 htypes'
      exact ⟨next, rfl, Or.inl hnext⟩
  obtain ⟨next, rfl, hnext⟩ := hlast
  refine ⟨recovery, next, ?_, hrecovery, hnext⟩
  rw [hevents', hevents, List.append_assoc]
  rfl

/-- the statuses a recovery and the drop or the claim after it write -/
theorem writesIn_recovered {w : String} {now : UnixTs} (hexpire : (lifecycle r).Enabled o (.expire w now))
    (ha : a = .drop now ∨ a = .claim w now) :
    ∃ status, (writesIn ((lifecycle r).apply ((lifecycle r).apply o (.expire w now)) a)).drop (writesIn o).length =
      [.timedOut, .retrying, .enqueued, status] ∧ (status = .running ∨ status = .cancelled) := by
  rcases lifecycle_cases hexpire with ⟨userId, t, -, hbad⟩ | ⟨v, rfl, -⟩
  · cases hbad
  · have hwrites : ∀ status, a.statuses (v.effect (.expire w now)).record = [status] →
        (writesIn (some ((v.effect (.expire w now)).effect a))).drop (writesIn (some v)).length =
          [.timedOut, .retrying, .enqueued, status] := by
      intro status h
      change List.drop v.writes.length (v.writes ++ [.timedOut, .retrying, .enqueued] ++ _) = _
      rw [h, List.append_assoc, List.drop_left]
      rfl
    rcases ha with rfl | rfl
    · exact ⟨_, hwrites .cancelled rfl, Or.inr rfl⟩
    · exact ⟨_, hwrites .running rfl, Or.inl rfl⟩

/-- a decision that keeps the record appends an event only when it tells a worker that it lost its lease, or for the
executor -/
theorem silent_of_record_eq {st : RunStatus} (hg : a.Guard st) (hrec : a.record st = st) :
    a.eventType = none ∨ (∃ w now, a = .loseClaim w now) ∨
      ∃ eventType payload now, a = .emit eventType payload now := by
  have hstatus : ∀ status, (a.record st).status = status → st.status ≠ status → False := by
    intro status h hne
    rw [hrec] at h
    exact hne h
  have hopen : Allowed st.status .cancelled → st.status ≠ .cancelled := by
    intro hal hst
    rw [hst] at hal
    exact not_allowed_of_terminal (by decide) _ hal
  cases a with
  | create => exact hg.elim
  | renew => exact Or.inl rfl
  | loseClaim w now => exact Or.inr (Or.inl ⟨w, now, rfl⟩)
  | emit eventType payload now => exact Or.inr (Or.inr ⟨eventType, payload, now, rfl⟩)
  | requestCancel =>
    have hflag : st.cancelRequested = true := by rw [← hrec]; rfl
    rw [hg.2] at hflag
    cases hflag
  | markCancel => exact (hstatus .cancelled rfl (hopen hg)).elim
  | cancel => exact (hstatus .cancelled rfl (hopen hg)).elim
  | enqueue => exact (hstatus .enqueued rfl (by rw [hg]; decide)).elim
  | succeed => exact (hstatus .succeeded rfl (by rw [hg]; decide)).elim
  | fail => exact (hstatus .failed rfl (by rw [hg]; decide)).elim
  | expire => exact (hstatus .enqueued rfl (by rw [hg.1]; decide)).elim
  | drop => exact (hstatus .cancelled rfl (by rw [hg.1]; decide)).elim
  | claim => exact (hstatus .running rfl (by rw [hg.1]; decide)).elim

end OneRun

theorem proj_taken (view : UUID → Option RunView) (r j : UUID) (a : Act) :
    Automaton.proj r (taken view j a) = [] ∨ Automaton.proj r (taken view j a) = [a] := by
  unfold taken
  split_ifs
  · by_cases hj : j = r
    · subst hj
      exact Or.inr (Automaton.proj_cons_self _ _ _)
    · exact Or.inl (Automaton.proj_cons_ne _ _ hj)
  · exact Or.inl rfl

/-- a heartbeat renews the lease or tells the worker that it is lost -/
theorem heartbeat_decisions (rt : InMemoryRuntime) (j : UUID) (w : String) (now : UnixTs) :
    ∃ a, (StoreOp.heartbeat j w now).decisions rt = taken rt.view j a := by
  by_cases hrenew : ∃ v, rt.view j = some v ∧ (Act.renew w now).Guard v.record
  · obtain ⟨v, hv, hg⟩ := hrenew
    have hno : taken rt.view j (.loseClaim w now) = [] := by
      refine taken_of_not fun v' hv' hg' => ?_
      obtain rfl := Option.some.inj (hv.symm.trans hv')
      exact hg'.2 hg.2
    exact ⟨.renew w now, by rw [StoreOp.decisions, hno, List.append_nil]⟩
  · have hno : taken rt.view j (.renew w now) = [] := if_neg hrenew
    exact ⟨.loseClaim w now, by rw [StoreOp.decisions, hno, List.nil_append]⟩

/-- what `claim_run` decides about one run: whether to recover it, and then whether to drop or claim it -/
theorem claim_decisions (rt : InMemoryRuntime) (w : String) (now : UnixTs) (r : UUID) :
    ∃ recovery next, Automaton.proj r ((StoreOp.claimRun w now).decisions rt) = recovery ++ next ∧
      (recovery = [] ∨ recovery = [.expire w now]) ∧ (next = [] ∨ next = [.drop now] ∨ next = [.claim w now]) := by
  have hnd := rt.internalRunStorage.keys_nodup
  rw [StoreOp.decisions, claimPlan, Automaton.proj_append, proj_recoveries _ _ _ hnd, proj_claimTurn _ _ _ hnd]
  refine ⟨_, _, rfl, ?_, ?_⟩
  · split_ifs
    · exact Or.inr rfl
    · exact Or.inl rfl
  · by_cases hdrop : r ∈ droppedRuns (recovered rt.view w now rt.internalRunStorage.keys) rt.internalRunStorage.keys
    · have hno : nextRunnable (recovered rt.view w now rt.internalRunStorage.keys) rt.internalRunStorage.keys ≠
          some r := fun hnext => not_dropped_of_nextRunnable hnext hdrop
      rw [if_pos hdrop, if_neg hno]
      exact Or.inr (Or.inl rfl)
    · rw [if_neg hdrop]
      split_ifs
      · exact Or.inr (Or.inr rfl)
      · exact Or.inl rfl

/-- **A call takes at most one decision about a run**, or recovers it and then drops or claims it. -/
theorem proj_decisions (rt : InMemoryRuntime) {op : StoreOp} (hop : op.OfStores) (r : UUID) :
    Automaton.proj r (op.decisions rt) = [] ∨ (∃ a, Automaton.proj r (op.decisions rt) = [a]) ∨
    ∃ w now a, op = .claimRun w now ∧ Automaton.proj r (op.decisions rt) = [.expire w now, a] ∧
      (a = .drop now ∨ a = .claim w now) := by
  have hone : ∀ (j : UUID) (a : Act), op.decisions rt = taken rt.view j a →
      Automaton.proj r (op.decisions rt) = [] ∨ ∃ a, Automaton.proj r (op.decisions rt) = [a] := by
    intro j a h
    rw [h]
    exact (proj_taken rt.view r j a).imp_right fun h => ⟨a, h⟩
  cases op with
  | createRun j userId now =>
    simp only [StoreOp.decisions]
    split_ifs
    · exact Or.inl rfl
    · by_cases hj : j = r
      · subst hj
        exact Or.inr (Or.inl ⟨_, Automaton.proj_cons_self _ _ _⟩)
      · exact Or.inl (Automaton.proj_cons_ne _ _ hj)
  | getStatus => exact Or.inl rfl
  | markEnqueued j now => exact (hone j _ rfl).imp_right Or.inl
  | markCancelled j now => exact (hone j _ rfl).imp_right Or.inl
  | requestCancellation j now => exact (hone j _ rfl).imp_right Or.inl
  | setSucceeded j result now => exact (hone j _ rfl).imp_right Or.inl
  | setFailed j error now => exact (hone j _ rfl).imp_right Or.inl
  | setCancelled j now => exact (hone j _ rfl).imp_right Or.inl
  | heartbeat j w now =>
    obtain ⟨a, ha⟩ := heartbeat_decisions rt j w now
    exact (hone j a ha).imp_right Or.inl
  | claimRun w now =>
    obtain ⟨recovery, next, hproj, hrecovery, hnext⟩ := claim_decisions rt w now r
    rw [hproj]
    rcases hrecovery with rfl | rfl
    · rcases hnext with rfl | rfl | rfl
      · exact Or.inl rfl
      · exact Or.inr (Or.inl ⟨_, rfl⟩)
      · exact Or.inr (Or.inl ⟨_, rfl⟩)
    · rcases hnext with rfl | rfl | rfl
      · exact Or.inr (Or.inl ⟨_, rfl⟩)
      · exact Or.inr (Or.inr ⟨w, now, _, rfl, rfl, Or.inl rfl⟩)
      · exact Or.inr (Or.inr ⟨w, now, _, rfl, rfl, Or.inr rfl⟩)
  | orchestratorCreateRun => exact hop.elim
  | orchestratorCancelRun => exact hop.elim
  | emitEvent => exact hop.elim

/-! ## One event for each decision -/

/-- the events a call appends for run `r`: one, or a recovery and what the same `claim_run` then did with the run -/
def AppendsFor (rt : InMemoryRuntime) (op : StoreOp) (r : UUID) : Prop :=
  (¬ RecoversAndTakes rt op r ∧ ∃ runEvent, (stores.step rt op).stream r = rt.stream r ++ [runEvent]) ∨
  (RecoversAndTakes rt op r ∧ ∃ w now recovery next, op = .claimRun w now ∧
    (stores.step rt op).stream r = rt.stream r ++ [recovery, next] ∧
    recovery.eventType = "claim_expired" ∧ (next.eventType = "claimed" ∨ next.eventType = "cancelled"))

section Converse

variable {rt : InMemoryRuntime} (hgood : Good rt) {op : StoreOp} (hop : op.OfStores) {r : UUID}
include hgood hop

/-- a run whose status a call changes gets its events -/
theorem changed_events (hchange : ChangesStatus rt op r) : AppendsFor rt op r := by
  have hp := exec_performs hgood op
  have hlegal := Automaton.family_legal_proj hp.legal r
  have hview := hp.view_apply r
  have hnew : newWrites rt op r = (writesIn ((lifecycle r).run (rt.view r)
      (Automaton.proj r (op.decisions rt)))).drop (writesIn (rt.view r)).length := by
    rw [newWrites, writesOf_eq_writesIn hp.structural, writesOf_eq_writesIn hgood.toStructural, hview]
  obtain ⟨status, hmem, hne⟩ := hchange
  unfold AppendsFor RecoversAndTakes
  rw [hnew] at hmem ⊢
  rw [stream_eq_eventsIn hp.structural, stream_eq_eventsIn hgood.toStructural, hview]
  rcases proj_decisions rt hop r with hproj | ⟨a, hproj⟩ | ⟨w, now, a, rfl, hproj, ha⟩ <;>
    rw [hproj] at hlegal hmem ⊢
  · rw [Automaton.run_nil, List.drop_length] at hmem
    cases hmem
  · have hchanged : (rt.view r).map (fun v => v.record.status) ≠ some status := by
      intro heq
      obtain ⟨v, hv, hstatus⟩ := Option.map_eq_some_iff.1 heq
      exact hne ((status?_of_view hv).trans (congrArg some hstatus))
    refine Or.inl ⟨?_, eventsIn_apply_of_changed hlegal.1 hmem hchanged⟩
    rintro ⟨status, hwrites, -⟩
    exact writesIn_apply_ne hlegal.1 status hwrites
  · rw [Automaton.legal_cons, Automaton.legal_cons] at hlegal
    obtain ⟨hexpire, hnext, -⟩ := hlegal
    obtain ⟨recovery, next, hevents, htypes⟩ := eventsIn_recovered hexpire hnext ha
    exact Or.inr ⟨writesIn_recovered hexpire ha, w, now, recovery, next, rfl, hevents, htypes⟩

/-- only a heartbeat of a worker without the lease tells a worker that it lost it -/
theorem lostHeartbeat_of_decided {w : String} {now : UnixTs} {v : RunView}
    (h : (r, Act.loseClaim w now) ∈ op.decisions rt) (hv : rt.view r = some v)
    (hg : (Act.loseClaim w now).Guard v.record) : LostHeartbeat rt op r w now := by
  have hdecided := causes_of_mem h
  cases op with
  | heartbeat j w' now' =>
    rcases hdecided with h | h
    · cases h
    · cases h
      exact (lostHeartbeat_iff hgood).2 ⟨v, hv, hg⟩
  | claimRun => rcases hdecided with h | h | h <;> cases h
  | getStatus => exact hdecided.elim
  | orchestratorCreateRun => exact hop.elim
  | _ => cases hdecided

omit hgood in
/-- no call of the stores emits an event of the executor -/
theorem not_emits (r : UUID) (eventType : String) (payload : List (String × String)) (now : UnixTs) :
    (r, Act.emit eventType payload now) ∉ op.decisions rt := by
  intro h
  have hdecided := causes_of_mem h
  cases op with
  | heartbeat => rcases hdecided with h | h <;> cases h
  | claimRun => rcases hdecided with h | h | h <;> cases h
  | getStatus => exact hdecided.elim
  | orchestratorCreateRun => exact hop.elim
  | emitEvent => exact hop.elim
  | _ => cases hdecided

/-- a run whose record a call leaves as it was gets no event, a lost heartbeat apart -/
theorem stream_of_record_unchanged (hrec : (stores.step rt op).record? r = rt.record? r) :
    (stores.step rt op).stream r = rt.stream r ∨ ∃ w now, LostHeartbeat rt op r w now := by
  have hp := exec_performs hgood op
  have hlegal := Automaton.family_legal_proj hp.legal r
  have hview := hp.view_apply r
  have hmem : ∀ a, a ∈ Automaton.proj r (op.decisions rt) → (r, a) ∈ op.decisions rt := fun a => Automaton.mem_proj.1
  rw [stream_eq_eventsIn hp.structural, stream_eq_eventsIn hgood.toStructural, hview]
  rcases proj_decisions rt hop r with hproj | ⟨a, hproj⟩ | ⟨w, now, a, -, hproj, ha⟩ <;>
    rw [hproj] at hlegal hview hmem ⊢
  · exact Or.inl rfl
  · rcases lifecycle_cases hlegal.1 with ⟨userId, now, hnone, rfl⟩ | ⟨v, hv, hg⟩
    · -- a create stores a record where there was none
      rw [hnone] at hview
      rw [record?_of_view hview, record?_eq_none_iff.2 hnone] at hrec
      cases hrec
    · rw [hv] at hview
      rw [record?_of_view hview, record?_of_view hv] at hrec
      have hdecided := hmem a List.mem_cons_self
      rcases silent_of_record_eq hg (Option.some.inj hrec) with htype | ⟨w, now, rfl⟩ | ⟨eventType, payload, now, rfl⟩
      · obtain ⟨new, hevents, htypes⟩ := eventsIn_apply hlegal.1
        rw [htype] at htypes
        obtain rfl := List.map_eq_nil_iff.1 htypes
        exact Or.inl (hevents.trans (List.append_nil _))
      · exact Or.inr ⟨w, now, lostHeartbeat_of_decided hgood hop hdecided hv hg⟩
      · exact absurd hdecided (not_emits hop r eventType payload now)
  · -- a recovery counts one more retry, and neither a drop nor a claim takes that back
    rw [Automaton.legal_cons] at hlegal
    rcases lifecycle_cases hlegal.1 with ⟨userId, now, -, hbad⟩ | ⟨v, hv, hg⟩
    · cases hbad
    · rw [hv] at hview
      rw [record?_of_view hview, record?_of_view hv] at hrec
      obtain ⟨n, hn⟩ := (hgood.sound r v hv).retries
      have hretry := congrArg RunStatus.retryCount (Option.some.inj hrec)
      have hcount : (RunView.effect (v.effect (.expire w now)) a).record.retryCount = some ((n : ℤ) + 1) := by
        rcases ha with rfl | rfl <;> simp [RunView.effect, Act.record, hn]
      rw [hn] at hretry
      have hbad := Option.some.inj (hcount.symm.trans hretry)
      omega

end Converse

/-- a lost heartbeat changes the status of no run -/
theorem not_changes_of_lost {rt : InMemoryRuntime} (hgood : Good rt) {op : StoreOp} {r : UUID} {w : String}
    {now : UnixTs} (h : LostHeartbeat rt op r w now) (j : UUID) : ¬ ChangesStatus rt op j := by
  obtain ⟨rfl, -⟩ := id h
  obtain ⟨v, hv, hs, ho⟩ := (lostHeartbeat_iff hgood).1 h
  intro hchange
  obtain ⟨status, hmem, -⟩ := hchange
  unfold newWrites at hmem
  have hwrites : (stores.step rt (.heartbeat r w now)).writesOf j = rt.writesOf j := by
    change InMemoryRuntime.writesOf (answer .status (heartbeat r w now) rt).2 j = _
    rw [answer_error (heartbeat_lost hgood hv now hs ho)]
    rfl
  rw [hwrites, List.drop_length] at hmem
  cases hmem

/-- failed calls leave the runtime as it was, and calls that go through log what they change -/
structure CallsAtomic (rt : InMemoryRuntime) : Prop where
  failed : ∀ op, op.OfStores → Fails rt op → (∀ r w now, ¬ LostHeartbeat rt op r w now) → stores.step rt op = rt
  lost : ∀ op r w now, LostHeartbeat rt op r w now →
    (stores.step rt op).internalRunStorage = rt.internalRunStorage ∧
      ∃ runEvent, rt.internalEventLogs.append r "claim_lost" [("worker", w)] now =
        .ok (runEvent, (stores.step rt op).internalEventLogs)
  reads : ∀ r afterSequence, (∃ runEvents, (getEvents r afterSequence).run rt = .ok runEvents rt) ∨
    ∃ e, (getEvents r afterSequence).run rt = .error e rt
  logged : ∀ op r, op.OfStores → ChangesStatus rt op r → AppendsFor rt op r
  /-- a call that changes the status of a run touches no stream of a run whose record it leaves -/
  untouched : ∀ op r, op.OfStores → ChangesStatus rt op r →
    ∀ j, (stores.step rt op).record? j = rt.record? j → (stores.step rt op).stream j = rt.stream j

/-- **In every reachable runtime, failed calls are atomic.** -/
theorem calls_atomic (ops : List StoreOp) : CallsAtomic (stores.run createDefaultInMemoryRuntime ops) := by
  have hgood := reachable_good ops
  refine ⟨?_, ?_, ?_, ?_, ?_⟩
  · intro op hop hfails hbeat
    exact failed_unchanged hgood hop hfails hbeat
  · intro op r w now hlost
    exact lost_heartbeat_appends hgood hlost
  · intro r afterSequence
    exact getEvents_unchanged _ r afterSequence
  · intro op r hop hchange
    exact changed_events hgood hop hchange
  · intro op r hop hchange j hrec
    rcases stream_of_record_unchanged hgood hop hrec with hsame | ⟨w, now, hlost⟩
    · exact hsame
    · exact absurd hchange (not_changes_of_lost hgood hlost r)

end LlmAgent
