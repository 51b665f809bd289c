/-
The full specification of `claim_run`, as a function of the records in creation order.

`recoveredStore` is the store after the leases that ran out are taken back; `oldestRunnable` and `cancelledAtClaim` read
off it which run is claimed and which are cancelled on the way. These speak of records only, not of decisions.

- `recovered_outline`: the queue as the second loop finds it is `recoveredStore`;
- `nextRunnable_eq`, `droppedRuns_eq`: so the plan serves `oldestRunnable` and drops `cancelledAtClaim`;
- `proj_claimPlan`: what one call decides about one run;
- `claimRun_contract`: answer, records, leases and streams after a call, in every reachable store.
-/
import LlmAgent.Runs.StoreInvariant

namespace LlmAgent

open Core

/-! ## The specification -/

/-- the stored records, in creation order -/
abbrev RunRecords := List (UUID × RunStatus)

/-- the part of a record that is not about its lease -/
structure RunOutline where
  status : RunStatusCode
  result : Option PyDict
  error : Option String
  cancelRequested : Bool
  retryCount : Option ℤ

def RunStatus.outline (st : RunStatus) : RunOutline :=
  ⟨st.status, st.result, st.error, st.cancelRequested, st.retryCount⟩

/-- running, with an expiry before `now` -/
def leaseRanOut (now : UnixTs) (st : RunStatus) : Bool :=
  decide (st.status = .running) && st.claimExpirationUnixTs.any fun expiration => decide (expiration < now)

def requeued (now : UnixTs) (st : RunStatus) : RunStatus :=
  if leaseRanOut now st then { st with status := .enqueued, retryCount := st.retryCount.map (· + 1) } else st

/-- the store with every lease that ran out taken back -/
def recoveredStore (now : UnixTs) (records : RunRecords) : RunRecords := records.map fun e => (e.1, requeued now e.2)

def runnable (st : RunStatus) : Bool := decide (st.status = .enqueued) && !st.cancelRequested

/-- the first enqueued run without an intent -/
def oldestRunnable (records : RunRecords) : Option UUID := (records.find? fun e => runnable e.2).map Prod.fst

/-- the enqueued runs before it; all of them have an intent -/
def cancelledAtClaim (records : RunRecords) : List UUID :=
  ((records.takeWhile fun e => !runnable e.2).filter fun e => decide (e.2.status = .enqueued)).map Prod.fst

/-- the outline of a run after the claim, from its outline in the recovered store -/
def servedOutline (records : RunRecords) (r : UUID) (outline : RunOutline) : RunOutline :=
  if oldestRunnable records = some r then { outline with status := .running }
  else if r ∈ cancelledAtClaim records then { outline with status := .cancelled }
  else outline

/-- the events a claim appends to the stream of a run -/
def claimEvents (workerId : String) (now : UnixTs) (records : RunRecords) (r : UUID) (st : RunStatus) :
    List (String × List (String × String) × UnixTs) :=
  (if leaseRanOut now st then [("claim_expired", [], now)] else []) ++
    if oldestRunnable (recoveredStore now records) = some r then [("claimed", [("worker", workerId)], now)]
    else if r ∈ cancelledAtClaim (recoveredStore now records) then [("cancelled", [], now)]
    else []

/-- events as the log numbers them, after `n` earlier ones -/
def numberedFrom (r : UUID) (n : ℕ) : List (String × List (String × String) × UnixTs) → List RunEvent
  | [] => []
  | e :: rest => ⟨r, n + 1, e.1, e.2.1, e.2.2⟩ :: numberedFrom r (n + 1) rest

/-- the records of the runtime, in creation order -/
def InMemoryRuntime.records (rt : InMemoryRuntime) : RunRecords := rt.internalRunStorage.entries

/-- **The contract of `claim_run`**, between the runtime before and after the call. -/
structure ClaimContract (workerId : String) (now : UnixTs) (rt rt' : InMemoryRuntime) (claimed : Option ClaimedRun) :
    Prop where
  /-- the oldest runnable run is answered, with its stored record -/
  answer : claimed.map ClaimedRun.id = oldestRunnable (recoveredStore now rt.records)
  stored : ∀ c, claimed = some c → rt'.record? c.id = some c.runStatus
  lease : ∀ c, claimed = some c → c.runStatus.claimedWorker = some workerId ∧
    c.runStatus.claimExpirationUnixTs = some (now + seconds 30)
  /-- keys, order and outlines -/
  records : (rt'.records.map fun e => (e.1, e.2.outline)) = (recoveredStore now rt.records).map fun e =>
    (e.1, servedOutline (recoveredStore now rt.records) e.1 e.2.outline)
  streams : ∀ e ∈ rt.records, rt'.stream e.1 =
    rt.stream e.1 ++ numberedFrom e.1 (rt.stream e.1).length (claimEvents workerId now rt.records e.1 e.2)
  /-- an id that is not stored has no stream -/
  others : ∀ r, r ∉ rt.internalRunStorage → rt'.stream r = []
  /-- what is cancelled was intended -/
  intended : ∀ r ∈ cancelledAtClaim (recoveredStore now rt.records), ∃ st, rt.record? r = some st ∧
    st.cancelRequested = true

/-! ## The plan reads the records -/

section Plan

variable {rt : InMemoryRuntime} (hin : ∀ r v, rt.view r = some v → v.record.InOrder) (workerId : String)
  (now : UnixTs)

theorem view_of_mem_records {e : UUID × RunStatus} (he : e ∈ rt.records) :
    ∃ v, rt.view e.1 = some v ∧ v.record = e.2 :=
  exists_view (Dict.get?_of_mem_entries he)

/-- the run after the first loop -/
def recoveredView (workerId : String) (now : UnixTs) (v : RunView) : RunView :=
  if leaseRanOut now v.record then v.effect (.expire workerId now) else v

theorem recoveredView_outline (v : RunView) :
    (recoveredView workerId now v).record.outline = (requeued now v.record).outline := by
  unfold recoveredView requeued
  split_ifs <;> rfl

include hin

theorem expiredIn_eq {r : UUID} {v : RunView} (hv : rt.view r = some v) :
    expiredIn rt.view now r = leaseRanOut now v.record := by
  have hrecord : expiredIn rt.view now r = (decide (v.record.status = .running) && hasClaimExpired v.record now) := by
    simp [expiredIn, hv]
  rw [hrecord, leaseRanOut]
  by_cases hrun : v.record.status = .running
  · obtain ⟨expiration, hexp, hne⟩ := (hin r v hv).expiry hrun
    simp [hasClaimExpired, hexp, hne]
  · simp [hrun]

theorem recovered_view {r : UUID} {v : RunView} (hv : rt.view r = some v) :
    recovered rt.view workerId now rt.internalRunStorage.keys r = some (recoveredView workerId now v) := by
  have hmem : r ∈ rt.internalRunStorage.keys := mem_of_view hv
  rw [recovered_apply _ _ _ rt.internalRunStorage.keys_nodup, expiredIn_eq hin now hv, hv]
  unfold recoveredView
  split_ifs with hboth hlease hlease
  · rfl
  · exact absurd hboth.2 hlease
  · exact absurd ⟨hmem, hlease⟩ hboth
  · rfl

/-- **The queue as the second loop finds it is the recovered store.** -/
theorem recovered_outline {e : UUID × RunStatus} (he : e ∈ rt.records) : ∃ u,
    recovered rt.view workerId now rt.internalRunStorage.keys e.1 = some u ∧
      u.record.outline = (requeued now e.2).outline := by
  obtain ⟨v, hv, hrec⟩ := view_of_mem_records he
  refine ⟨_, recovered_view hin workerId now hv, ?_⟩
  rw [recoveredView_outline, hrec]

theorem queuedIn_recovered {e : UUID × RunStatus} (he : e ∈ rt.records) :
    queuedIn (recovered rt.view workerId now rt.internalRunStorage.keys) e.1 =
      decide ((requeued now e.2).status = .enqueued) := by
  obtain ⟨u, hu, hout⟩ := recovered_outline hin workerId now he
  have hstatus : u.record.status = (requeued now e.2).status := congrArg RunOutline.status hout
  simp [queuedIn, hu, hstatus]

theorem intendedIn_recovered {e : UUID × RunStatus} (he : e ∈ rt.records) :
    intendedIn (recovered rt.view workerId now rt.internalRunStorage.keys) e.1 =
      (requeued now e.2).cancelRequested := by
  obtain ⟨u, hu, hout⟩ := recovered_outline hin workerId now he
  have hflag : u.record.cancelRequested = (requeued now e.2).cancelRequested := congrArg RunOutline.cancelRequested hout
  simp [intendedIn, hu, hflag]

theorem runnable_recovered {e : UUID × RunStatus} (he : e ∈ rt.records) :
    (queuedIn (recovered rt.view workerId now rt.internalRunStorage.keys) e.1 &&
      !intendedIn (recovered rt.view workerId now rt.internalRunStorage.keys) e.1) = runnable (requeued now e.2) := by
  rw [queuedIn_recovered hin workerId now he, intendedIn_recovered hin workerId now he, runnable]

theorem nextRunnable_eq :
    nextRunnable (recovered rt.view workerId now rt.internalRunStorage.keys) rt.internalRunStorage.keys =
      oldestRunnable (recoveredStore now rt.records) := by
  rw [nextRunnable_eq_find?, oldestRunnable, recoveredStore, Dict.keys, List.find?_map, List.find?_map,
    Option.map_map]
  refine congrArg (Option.map Prod.fst) (List.find?_congr ?_)
  intro e he
  exact runnable_recovered hin workerId now he

theorem droppedRuns_eq :
    droppedRuns (recovered rt.view workerId now rt.internalRunStorage.keys) rt.internalRunStorage.keys =
      cancelledAtClaim (recoveredStore now rt.records) := by
  have hnot : ∀ e ∈ rt.records, (!queuedIn (recovered rt.view workerId now rt.internalRunStorage.keys) e.1 ||
      intendedIn (recovered rt.view workerId now rt.internalRunStorage.keys) e.1) = !runnable (requeued now e.2) := by
    intro e he
    rw [← runnable_recovered hin workerId now he, Bool.not_and, Bool.not_not]
  rw [droppedRuns, List.takeWhile_filter, cancelledAtClaim, recoveredStore, Dict.keys, List.takeWhile_map,
    List.takeWhile_map, List.filter_map, List.filter_map, List.map_map]
  refine congrArg (List.map Prod.fst) ?_
  refine (congrArg (List.filter _) (takeWhile_congr hnot).1).trans (List.filter_congr ?_)
  intro e he
  exact queuedIn_recovered hin workerId now ((List.takeWhile_sublist _).subset he)

/-- what one call decides about one run -/
def claimActs (workerId : String) (now : UnixTs) (records : RunRecords) (r : UUID) (st : RunStatus) : List Act :=
  (if leaseRanOut now st then [.expire workerId now] else []) ++
    if oldestRunnable (recoveredStore now records) = some r then [.claim workerId now]
    else if r ∈ cancelledAtClaim (recoveredStore now records) then [.drop now]
    else []

/-- **The plan, run by run**: recover it if its lease ran out, then claim it, cancel it or pass it by. -/
theorem proj_claimPlan {r : UUID} {v : RunView} (hv : rt.view r = some v) :
    Automaton.proj r (claimPlan rt.view workerId now rt.internalRunStorage.keys) =
      claimActs workerId now rt.records r v.record := by
  have hnd := rt.internalRunStorage.keys_nodup
  have hmem : r ∈ rt.internalRunStorage.keys := mem_of_view hv
  rw [claimPlan, Automaton.proj_append, proj_recoveries _ _ _ hnd, proj_claimTurn _ _ _ hnd, claimActs,
    expiredIn_eq hin now hv, ← nextRunnable_eq hin workerId now, ← droppedRuns_eq hin workerId now]
  refine congr (congrArg HAppend.hAppend ?_) ?_
  · simp only [hmem, true_and]
  · split_ifs with hdrop hnext hnext
    · exact absurd hdrop (not_dropped_of_nextRunnable hnext)
    · rfl
    · rfl
    · rfl

end Plan

/-! ## One run, after the call -/

theorem lifecycle_run_events (r : UUID) (v : RunView) (l : List Act) : ∃ u, (lifecycle r).run (some v) l = some u ∧
    u.events = v.events ++ numberedFrom v.record.id v.events.length (l.filterMap Act.event) := by
  induction l generalizing v with
  | nil => exact ⟨v, rfl, (List.append_nil _).symm⟩
  | cons a l ih =>
    obtain ⟨u, hrun, hevents⟩ := ih (v.effect a)
    refine ⟨u, hrun, ?_⟩
    rw [hevents]
    have hid : (v.effect a).record.id = v.record.id := record_id v.record a
    rw [hid]
    cases he : a.event with
    | none => simp [RunView.effect, RunView.nextEvents, he]
    | some e => simp [RunView.effect, RunView.nextEvents, he, numberedFrom]

theorem claimActs_events (workerId : String) (now : UnixTs) (records : RunRecords) (r : UUID) (st : RunStatus) :
    (claimActs workerId now records r st).filterMap Act.event = claimEvents workerId now records r st := by
  rw [claimActs, claimEvents, List.filterMap_append]
  refine congr (congrArg HAppend.hAppend ?_) ?_
  · split_ifs <;> rfl
  · split_ifs <;> rfl

theorem claimActs_outline (workerId : String) (now : UnixTs) (records : RunRecords) (r : UUID) (v : RunView) :
    ∃ u, (lifecycle r).run (some v) (claimActs workerId now records r v.record) = some u ∧
      u.record.outline = servedOutline (recoveredStore now records) r (requeued now v.record).outline := by
  have hfirst : (lifecycle r).run (some v) (if leaseRanOut now v.record then [.expire workerId now] else []) =
      some (recoveredView workerId now v) := by
    unfold recoveredView
    split_ifs <;> rfl
  rw [claimActs, Automaton.run_append, hfirst, ← recoveredView_outline workerId now v, servedOutline]
  split_ifs
  · exact ⟨_, rfl, rfl⟩
  · exact ⟨_, rfl, rfl⟩
  · exact ⟨_, rfl, rfl⟩

/-! ## The contract -/

theorem createdIn_claimPlan (W : UUID → Option RunView) (workerId : String) (now : UnixTs) (keys : List UUID) :
    createdIn (claimPlan W workerId now keys) = [] := by
  refine List.filterMap_eq_nil_iff.2 ?_
  intro p hp
  obtain ⟨r, a⟩ := p
  rcases List.mem_append.1 hp with h | h
  · obtain ⟨j, -, -, hj⟩ := mem_recoveries.1 h
    rw [hj]
  · rcases mem_claimTurn.1 h with ⟨-, ha⟩ | ⟨-, ha⟩
    · rw [show a = _ from ha]
    · rw [show a = _ from ha]

/-- a call meets the contract on a runtime in order -/
theorem claimRun_meets {rt : InMemoryRuntime} (hgood : Good rt)
    (hin : ∀ r v, rt.view r = some v → v.record.InOrder) (workerId : String) (now : UnixTs) :
    ∃ claimed, stores.reply rt (.claimRun workerId now) = .claimed claimed ∧
      ClaimContract workerId now rt (stores.step rt (.claimRun workerId now)) claimed := by
  obtain ⟨claimed, rt', hrun, hp, hnext, hstored⟩ := claimRun_spec workerId now hgood
  have hanswer : answer Reply.claimed (claimRun workerId now) rt = (.claimed claimed, rt') := answer_ok hrun
  have hstep : stores.step rt (.claimRun workerId now) = rt' := congrArg Prod.snd hanswer
  have hkeys : rt'.internalRunStorage.keys = rt.internalRunStorage.keys := by
    rw [hp.keys, createdIn_claimPlan, List.append_nil]
  have hview : ∀ {r : UUID} {v : RunView}, rt.view r = some v →
      rt'.view r = (lifecycle r).run (some v) (claimActs workerId now rt.records r v.record) := by
    intro r v hv
    rw [hp.view_apply, proj_claimPlan hin workerId now hv, hv]
  refine ⟨claimed, congrArg Prod.fst hanswer, ?_⟩
  rw [hstep]
  refine ⟨?_, ?_, ?_, ?_, ?_, ?_, ?_⟩
  · rw [hnext, nextRunnable_eq hin workerId now]
  · intro c hc
    exact (hstored c hc).2
  · rintro c rfl
    obtain ⟨l, v, -, -, -, -, -, -, hrec⟩ := claimRun_some hgood hrun
    rw [hrec]
    exact ⟨rfl, rfl⟩
  · rw [recoveredStore, List.map_map]
    refine Dict.map_entries_congr hkeys ?_
    intro r st st' hst hst'
    obtain ⟨v, hv, rfl⟩ := exists_view hst
    obtain ⟨u, hu, hout⟩ := claimActs_outline workerId now rt.records r v
    have hst'' := record?_of_view ((hview hv).trans hu)
    obtain rfl := Option.some.inj (hst'.symm.trans hst'')
    exact congrArg (Prod.mk r) hout
  · intro e he
    obtain ⟨v, hv, hrec⟩ := view_of_mem_records he
    obtain ⟨u, hu, hevents⟩ := lifecycle_run_events e.1 v (claimActs workerId now rt.records e.1 v.record)
    obtain ⟨-, hstream, -⟩ := view_some_iff.1 hv
    obtain ⟨-, hstream', -⟩ := view_some_iff.1 ((hview hv).trans hu)
    rw [← hstream', hevents, hstream, claimActs_events, (hgood.sound e.1 v hv).id, hrec]
  · intro r hr
    refine stream_of_unknown hp.structural (view_eq_none_iff.2 ?_)
    change r ∉ rt'.internalRunStorage.keys
    rw [hkeys]
    exact hr
  · intro r hr
    rw [← droppedRuns_eq hin workerId now] at hr
    obtain ⟨hmem, -, hintent⟩ := mem_droppedRuns hr
    obtain ⟨st, hst⟩ := (Dict.mem_iff _ _).1 hmem
    obtain ⟨v, hv, rfl⟩ := exists_view hst
    refine ⟨v.record, hst, ?_⟩
    have hflag : (recoveredView workerId now v).record.cancelRequested = v.record.cancelRequested := by
      unfold recoveredView
      split_ifs <;> rfl
    rw [← hflag]
    simpa [intendedIn, recovered_view hin workerId now hv] using hintent

/-- **`claim_run` meets its specification**, in every reachable store, for every worker and clock reading. -/
theorem claimRun_contract (ops : List StoreOp) (workerId : String) (now : UnixTs) :
    ∃ claimed, stores.reply (stores.run createDefaultInMemoryRuntime ops) (.claimRun workerId now) = .claimed claimed ∧
      ClaimContract workerId now (stores.run createDefaultInMemoryRuntime ops)
        (stores.run createDefaultInMemoryRuntime (ops ++ [.claimRun workerId now])) claimed := by
  rw [Machine.run_snoc]
  exact claimRun_meets (reachable_good ops) (fun r v hv => reachable_inOrder ops hv) workerId now

end LlmAgent
