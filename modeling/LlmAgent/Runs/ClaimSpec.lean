/-
What `claim_run` does, in terms of decisions: its two loops over the dictionary, in key order.

- `recoverLoop_spec`: the first loop recovers exactly the runs whose lease ran out;
- `claimLoop_spec`: the second loop cancels the queued runs with an intent up to the first one without, and claims it;
- `claimRun_spec`: a call never raises on a runtime in order, and decides exactly `claimPlan` of the runtime before it;
- `claimRun_some`, `claimRun_other`: what the answer says about the plan.
-/
import Mathlib.Data.List.TakeWhile
import LlmAgent.Runs.StoreSpec

namespace LlmAgent

open Core

/-! ## Recovering an expired lease -/

theorem hasClaimExpired_iff (st : RunStatus) (now : UnixTs) : hasClaimExpired st now = true ↔ Expired st now := by
  unfold hasClaimExpired Expired
  cases st.claimExpirationUnixTs with
  | none => simp
  | some expiration => by_cases h : expiration = 0 <;> simp [h]

/-- the decision `recover_expired_runs` takes: one event and three writes -/
theorem performs_expire {rt : InMemoryRuntime} (hgood : Good rt) {r : UUID} {v : RunView} {workerId : String}
    {now : UnixTs} (hv : rt.view r = some v) (hg : (Act.expire workerId now).Guard v.record)
    (timedOut retrying : RunStatus) (h₁ : timedOut.status = .timedOut) (h₂ : retrying.status = .retrying) :
    Performs rt ((((rt.emit r ("claim_expired", [], now)).put r timedOut).put r retrying).put r
      ((Act.expire workerId now).record v.record)) [(r, .expire workerId now)] := by
  have hr := mem_of_view hv
  have hr' : ∀ {rt' : InMemoryRuntime} (st : RunStatus), r ∈ rt'.internalRunStorage →
      r ∈ (rt'.put r st).internalRunStorage := by
    intro rt' st h
    change r ∈ Dict.keys _
    rw [keys_put h]
    exact h
  have hemit : r ∈ (rt.emit r ("claim_expired", [], now)).internalRunStorage := hr
  obtain ⟨-, hevents, hwrites⟩ := view_some_iff.1 hv
  have hview := view_emit hv (hgood.sound r v hv).id ("claim_expired", [], now)
  have hat := congrFun hview r
  rw [Function.update_self] at hat
  obtain ⟨-, hstream, -⟩ := view_some_iff.1 hat
  refine performs_one (structural_put (structural_put (structural_put (structural_emit hgood.toStructural hr _) hemit
    _) (hr' _ hemit) _) (hr' _ (hr' _ hemit)) _) hv hg ?_ ?_
  · rw [view_put, view_put, view_put, hview, Function.update_idem, Function.update_idem, Function.update_idem]
    congr 2
    have hstream' : ∀ (rt' : InMemoryRuntime) (st : RunStatus), (rt'.put r st).stream r = rt'.stream r := fun _ _ => rfl
    have hemitWrites : (rt.emit r ("claim_expired", [], now)).writesOf r = rt.writesOf r := rfl
    rw [hstream', hstream', ← hstream, writesOf_put, if_pos rfl, writesOf_put, if_pos rfl, hemitWrites, ← hwrites, h₁,
      h₂]
    simp only [List.append_assoc, RunView.effect, RunView.nextEvents, Act.statuses, Act.event]
    rfl
  · rw [keys_put (hr' _ (hr' _ hemit)), keys_put (hr' _ hemit), keys_put hemit]
    rfl

/-- the record after the first transition of a recovery -/
def timedOutRecord (st : RunStatus) (workerId : String) : RunStatus :=
  transitioned st .timedOut { workerId := .value (some workerId) }

/-- the record after the second -/
def retryingRecord (st : RunStatus) (workerId : String) (retryCount : ℤ) : RunStatus :=
  transitioned (timedOutRecord st workerId) .retrying
    { workerId := .value (some workerId), retryCount := .value (some (retryCount + 1)) }

/-- after the third the record is the one the decision calls for -/
theorem transitioned_retryingRecord {st : RunStatus} {retryCount : ℤ} (h : st.retryCount = some retryCount)
    (workerId : String) (now : UnixTs) :
    transitioned (retryingRecord st workerId retryCount) .enqueued { workerId := .value (some workerId) } =
      (Act.expire workerId now).record st := by
  simp only [Act.record, h, Option.map_some]
  rfl

theorem recoverExpiredRuns_run {rt : InMemoryRuntime} {r : UUID} {st : RunStatus} (h : rt.record? r = some st)
    (hrun : st.status = .running) {retryCount : ℤ} (hn : st.retryCount = some retryCount) (workerId : String)
    (now : UnixTs) :
    (recoverExpiredRuns r st workerId).run rt = .ok () (((rt.put r (timedOutRecord st workerId)).put r
      (retryingRecord st workerId retryCount)).put r ((Act.expire workerId now).record st)) := by
  have hput : ∀ (rt' : InMemoryRuntime) (st' : RunStatus), (rt'.put r st').record? r = some st' :=
    fun rt' st' => Dict.get?_set_self _ _ _
  have hal₁ : Allowed st.status .timedOut := by rw [hrun]; decide
  have hal₂ : Allowed (timedOutRecord st workerId).status .retrying := show Allowed .timedOut .retrying by decide
  have hal₃ : Allowed (retryingRecord st workerId retryCount).status .enqueued :=
    show Allowed .retrying .enqueued by decide
  have hrun₂ := transitionLocked_run (hput rt (timedOutRecord st workerId)) hal₂
    { workerId := .value (some workerId), retryCount := .value (some (retryCount + 1)) }
  have hrun₃ := transitionLocked_run (hput (rt.put r (timedOutRecord st workerId))
    (retryingRecord st workerId retryCount)) hal₃ { workerId := .value (some workerId) }
  rw [transitioned_retryingRecord hn workerId now] at hrun₃
  simp only [recoverExpiredRuns, EStateM.run_bind, transitionLocked_run h hal₁, hn]
  rw [← timedOutRecord, hrun₂]
  exact hrun₃

section Recovery

variable {rt : InMemoryRuntime} (hgood : Good rt) {r : UUID} {v : RunView} (hv : rt.view r = some v)
  (workerId : String) (now : UnixTs)
include hgood hv

theorem recoverIfExpired_spec :
    ((Act.expire workerId now).Guard v.record ∧ ∃ rt',
      (recoverIfExpired workerId now r v.record).run rt = .ok () rt' ∧ Performs rt rt' [(r, .expire workerId now)]) ∨
    (¬ (Act.expire workerId now).Guard v.record ∧ (recoverIfExpired workerId now r v.record).run rt = .ok () rt) := by
  by_cases hrun : v.record.status = .running
  · by_cases hexp : hasClaimExpired v.record now = true
    · have hg : (Act.expire workerId now).Guard v.record := ⟨hrun, (hasClaimExpired_iff _ _).1 hexp⟩
      obtain ⟨n, hn⟩ := (hgood.sound r v hv).retries
      have hrec : rt.record? r = some v.record := record?_of_view hv
      have hrec' : (rt.emit r ("claim_expired", [], now)).record? r = some v.record := hrec
      refine Or.inl ⟨hg, _, ?_, performs_expire hgood hv hg (timedOutRecord v.record workerId)
        (retryingRecord v.record workerId n) rfl rfl⟩
      simp only [recoverIfExpired, hrun, ne_eq, not_true_eq_false, if_false, hexp, EStateM.run_bind,
        appendEvent_run (known_of_view hgood hv)]
      exact recoverExpiredRuns_run hrec' hrun hn workerId now
    · refine Or.inr ⟨fun hg => hexp ((hasClaimExpired_iff _ _).2 hg.2), ?_⟩
      simp only [recoverIfExpired, hrun, ne_eq, not_true_eq_false, if_false, hexp, Bool.false_eq_true,
        not_false_eq_true, if_true, EStateM.run_pure]
  · refine Or.inr ⟨fun hg => hrun hg.1, ?_⟩
    simp only [recoverIfExpired, ne_eq, hrun, not_false_eq_true, if_true, EStateM.run_pure]

end Recovery

/-! ## Claiming -/

/-- the runs a claim recovers: running, with a lease that ran out -/
def expiredIn (W : UUID → Option RunView) (now : UnixTs) (r : UUID) : Bool :=
  (W r).any fun v => decide (v.record.status = .running) && hasClaimExpired v.record now

theorem expiredIn_iff {W : UUID → Option RunView} {now : UnixTs} {r : UUID} :
    expiredIn W now r = true ↔ ∃ v, W r = some v ∧ v.record.status = .running ∧ Expired v.record now := by
  unfold expiredIn
  cases W r with
  | none => simp
  | some v => simp [hasClaimExpired_iff]

def queuedIn (W : UUID → Option RunView) (r : UUID) : Bool :=
  (W r).any fun v => decide (v.record.status = .enqueued)

theorem queuedIn_iff {W : UUID → Option RunView} {r : UUID} :
    queuedIn W r = true ↔ ∃ v, W r = some v ∧ v.record.status = .enqueued := by
  unfold queuedIn
  cases W r with
  | none => simp
  | some v => simp

def intendedIn (W : UUID → Option RunView) (r : UUID) : Bool := (W r).any fun v => v.record.cancelRequested

/-- what the first loop decides -/
def recoveries (W : UUID → Option RunView) (workerId : String) (now : UnixTs) (keys : List UUID) : List (UUID × Act) :=
  (keys.filter (expiredIn W now)).map fun r => (r, .expire workerId now)

/-- the first queued run without a cancellation intent -/
def nextRunnable (W : UUID → Option RunView) (keys : List UUID) : Option UUID :=
  ((keys.filter (queuedIn W)).dropWhile (intendedIn W)).head?

/-- the queued runs before it: all of them have the intent -/
def droppedRuns (W : UUID → Option RunView) (keys : List UUID) : List UUID :=
  (keys.filter (queuedIn W)).takeWhile (intendedIn W)

/-- what the second loop decides -/
def claimTurn (W : UUID → Option RunView) (workerId : String) (now : UnixTs) (keys : List UUID) : List (UUID × Act) :=
  (droppedRuns W keys).map (fun r => (r, .drop now)) ++
    (nextRunnable W keys).toList.map fun r => (r, .claim workerId now)

/-- the queue as the second loop finds it -/
def recovered (W : UUID → Option RunView) (workerId : String) (now : UnixTs) (keys : List UUID) :
    UUID → Option RunView :=
  lifecycles.run W (recoveries W workerId now keys)

/-- all that one call of `claim_run` decides -/
def claimPlan (W : UUID → Option RunView) (workerId : String) (now : UnixTs) (keys : List UUID) : List (UUID × Act) :=
  recoveries W workerId now keys ++ claimTurn (recovered W workerId now keys) workerId now keys

/-- two views that agree on the keys decide the same -/
theorem recoveries_congr {W W' : UUID → Option RunView} {keys : List UUID} (h : ∀ j ∈ keys, W j = W' j)
    (workerId : String) (now : UnixTs) : recoveries W workerId now keys = recoveries W' workerId now keys := by
  unfold recoveries
  congr 1
  exact List.filter_congr fun j hj => by rw [expiredIn, expiredIn, h j hj]

theorem takeWhile_congr {α : Type} {p q : α → Bool} {l : List α} (h : ∀ x ∈ l, p x = q x) :
    l.takeWhile p = l.takeWhile q ∧ l.dropWhile p = l.dropWhile q := by
  induction l with
  | nil => exact ⟨rfl, rfl⟩
  | cons x l ih =>
    have hl := ih fun y hy => h y (List.mem_cons_of_mem x hy)
    refine ⟨?_, ?_⟩
    · rw [List.takeWhile_cons, List.takeWhile_cons, h x List.mem_cons_self, hl.1]
    · rw [List.dropWhile_cons, List.dropWhile_cons, h x List.mem_cons_self, hl.2]

theorem claimTurn_congr {W W' : UUID → Option RunView} {keys : List UUID} (h : ∀ j ∈ keys, W j = W' j)
    (workerId : String) (now : UnixTs) :
    claimTurn W workerId now keys = claimTurn W' workerId now keys ∧ nextRunnable W keys = nextRunnable W' keys := by
  have hq : keys.filter (queuedIn W) = keys.filter (queuedIn W') :=
    List.filter_congr fun j hj => by rw [queuedIn, queuedIn, h j hj]
  have hi := takeWhile_congr (p := intendedIn W) (q := intendedIn W') (l := keys.filter (queuedIn W'))
    fun j hj => by rw [intendedIn, intendedIn, h j (List.mem_of_mem_filter hj)]
  have hn : nextRunnable W keys = nextRunnable W' keys := by rw [nextRunnable, nextRunnable, hq, hi.2]
  refine ⟨?_, hn⟩
  rw [claimTurn, claimTurn, hn, droppedRuns, droppedRuns, hq, hi.1]

/-- **The first loop of `claim_run`** never raises and recovers exactly the expired runs, in order. -/
theorem recoverLoop_spec (workerId : String) (now : UnixTs) (keys : List UUID) (hnd : keys.Nodup)
    {rt : InMemoryRuntime} (hgood : Good rt) : ∃ rt', (recoverLoop workerId now keys).run rt = .ok () rt' ∧
      Performs rt rt' (recoveries rt.view workerId now keys) := by
  induction keys generalizing rt with
  | nil => exact ⟨rt, rfl, Performs.refl hgood.toStructural⟩
  | cons r rest ih =>
    obtain ⟨hr, hrest⟩ := List.nodup_cons.1 hnd
    cases hv : rt.view r with
    | none =>
      obtain ⟨rt', hrun, hp⟩ := ih hrest hgood
      have hrec : rt.internalRunStorage.get? r = none := record?_eq_none_iff.2 hv
      refine ⟨rt', ?_, ?_⟩
      · simp only [recoverLoop, EStateM.run_bind, EStateM.run_get, hrec, hrun]
      · simpa [recoveries, List.filter_cons, expiredIn, hv] using hp
    | some v =>
      have hrec : rt.internalRunStorage.get? r = some v.record := record?_of_view hv
      rcases recoverIfExpired_spec hgood hv workerId now with ⟨hg, rt₁, hrun₁, hp₁⟩ | ⟨hg, hrun₁⟩
      · obtain ⟨rt', hrun, hp⟩ := ih hrest (hp₁.good hgood)
        have hexp : expiredIn rt.view now r = true := by
          simp [expiredIn, hv, hg.1, (hasClaimExpired_iff _ _).2 hg.2]
        refine ⟨rt', ?_, ?_⟩
        · simp only [recoverLoop, EStateM.run_bind, EStateM.run_get, hrec, hrun₁, hrun]
        · rw [recoveries_congr fun j hj => hp₁.frame fun he => hr (he ▸ hj)] at hp
          have := hp₁.trans hp
          simpa [recoveries, List.filter_cons, hexp] using this
      · obtain ⟨rt', hrun, hp⟩ := ih hrest hgood
        have hexp : expiredIn rt.view now r = false := by
          simpa [expiredIn, hv, Act.Guard, ← hasClaimExpired_iff] using hg
        refine ⟨rt', ?_, ?_⟩
        · simp only [recoverLoop, EStateM.run_bind, EStateM.run_get, hrec, hrun₁, hrun]
        · simpa [recoveries, List.filter_cons, hexp] using hp

/-! ### The second loop -/

section ClaimTurn

variable {W : UUID → Option RunView} {r : UUID} (rest : List UUID) (workerId : String) (now : UnixTs)

theorem claimTurn_skip (h : queuedIn W r = false) :
    claimTurn W workerId now (r :: rest) = claimTurn W workerId now rest ∧
      nextRunnable W (r :: rest) = nextRunnable W rest := by
  simp [claimTurn, droppedRuns, nextRunnable, h]

theorem claimTurn_drop (h : queuedIn W r = true) (hi : intendedIn W r = true) :
    claimTurn W workerId now (r :: rest) = (r, .drop now) :: claimTurn W workerId now rest ∧
      nextRunnable W (r :: rest) = nextRunnable W rest := by
  simp [claimTurn, droppedRuns, nextRunnable, h, hi]

theorem claimTurn_claim (h : queuedIn W r = true) (hi : intendedIn W r = false) :
    claimTurn W workerId now (r :: rest) = [(r, .claim workerId now)] ∧ nextRunnable W (r :: rest) = some r := by
  simp [claimTurn, droppedRuns, nextRunnable, h, hi]

end ClaimTurn

section Claim

variable {rt : InMemoryRuntime} (hgood : Good rt) {r : UUID} {v : RunView} (hv : rt.view r = some v)
  (now : UnixTs)
include hgood hv

/-- an enqueued run with an intent is cancelled at the claim boundary -/
theorem setCancelledLocked_drop (hg : (Act.drop now).Guard v.record) : ∃ rt',
    (setCancelledLocked r now).run rt = .ok () rt' ∧ Performs rt rt' [(r, .drop now)] := by
  have hal : Allowed v.record.status .cancelled := by rw [hg.1]; decide
  refine ⟨_, ?_, performs_write_log (a := .drop now) hgood hv hg rfl rfl⟩
  simp only [setCancelledLocked, EStateM.run_bind, transitionLocked_run (record?_of_view hv) hal,
    appendEvent_run (known_put (known_of_view hgood hv)), EStateM.run_pure]
  rfl

/-- an enqueued run without one is claimed, and the claim carries the record it wrote -/
theorem claimLocked_spec (workerId : String) (hg : (Act.claim workerId now).Guard v.record) : ∃ rt',
    (claimLocked workerId now r).run rt =
      .ok { id := r, claimType := "enqueued", runStatus := (Act.claim workerId now).record v.record } rt' ∧
    Performs rt rt' [(r, .claim workerId now)] := by
  have hal : Allowed v.record.status .running := by rw [hg.1]; decide
  refine ⟨_, ?_, performs_write_log (a := .claim workerId now) hgood hv hg rfl rfl⟩
  have hread : ((rt.put r ((Act.claim workerId now).record v.record)).emit r
      ("claimed", [("worker", workerId)], now)).record? r = some ((Act.claim workerId now).record v.record) :=
    Dict.get?_set_self _ _ _
  simp only [claimLocked, EStateM.run_bind, transitionLocked_run (record?_of_view hv) hal,
    appendEvent_run (known_put (known_of_view hgood hv)), EStateM.run_pure]
  have hrun := readRun_run hread
  simp only [Act.record] at hrun
  simp only [transitioned, getValueOrFallback, getNewExpirationTs]
  rw [hrun]
  rfl

end Claim

/-- **The second loop of `claim_run`** never raises: it cancels the queued runs with an intent up to the first one
without, claims that one, and answers it with its stored record. -/
theorem claimLoop_spec (workerId : String) (now : UnixTs) (keys : List UUID) (hnd : keys.Nodup)
    {rt : InMemoryRuntime} (hgood : Good rt) : ∃ claimed rt', (claimLoop workerId now keys).run rt = .ok claimed rt' ∧
      Performs rt rt' (claimTurn rt.view workerId now keys) ∧ claimed.map ClaimedRun.id = nextRunnable rt.view keys ∧
      ∀ c, claimed = some c → c.claimType = "enqueued" ∧ rt'.record? c.id = some c.runStatus := by
  induction keys generalizing rt with
  | nil => exact ⟨none, rt, rfl, Performs.refl hgood.toStructural, rfl, fun c h => by cases h⟩
  | cons r rest ih =>
    obtain ⟨hr, hrest⟩ := List.nodup_cons.1 hnd
    cases hv : rt.view r with
    | none =>
      obtain ⟨claimed, rt', hrun, hp, hnext, hc⟩ := ih hrest hgood
      have hrec : rt.internalRunStorage.get? r = none := record?_eq_none_iff.2 hv
      obtain ⟨hturn, hnr⟩ := claimTurn_skip rest workerId now (show queuedIn rt.view r = false by
        simp [queuedIn, hv])
      refine ⟨claimed, rt', ?_, by rwa [hturn], by rwa [hnr], hc⟩
      simp only [claimLoop, EStateM.run_bind, EStateM.run_get, hrec, hrun]
    | some v =>
      have hrec : rt.internalRunStorage.get? r = some v.record := record?_of_view hv
      by_cases hq : v.record.status = .enqueued
      · have hqueued : queuedIn rt.view r = true := by simp [queuedIn, hv, hq]
        cases hi : v.record.cancelRequested with
        | true =>
          obtain ⟨rt₁, hrun₁, hp₁⟩ := setCancelledLocked_drop hgood hv now ⟨hq, hi⟩
          obtain ⟨claimed, rt', hrun, hp, hnext, hc⟩ := ih hrest (hp₁.good hgood)
          obtain ⟨hturn, hnr⟩ := claimTurn_drop rest workerId now hqueued (by simp [intendedIn, hv, hi])
          have hframe : ∀ j ∈ rest, rt₁.view j = rt.view j := fun j hj => hp₁.frame fun he => hr (he ▸ hj)
          obtain ⟨hturn', hnr'⟩ := claimTurn_congr hframe workerId now
          rw [hturn'] at hp
          rw [hnr', ← hnr] at hnext
          refine ⟨claimed, rt', ?_, ?_, hnext, hc⟩
          · simp only [claimLoop, EStateM.run_bind, EStateM.run_get, hrec, hq, if_true, hi, hrun₁, hrun]
          · rw [hturn]
            exact hp₁.trans hp
        | false =>
          obtain ⟨rt', hrun, hp⟩ := claimLocked_spec hgood hv now workerId ⟨hq, hi⟩
          obtain ⟨hturn, hnr⟩ := claimTurn_claim rest workerId now hqueued (by simp [intendedIn, hv, hi])
          refine ⟨some ⟨r, "enqueued", (Act.claim workerId now).record v.record⟩, rt', ?_, by rwa [hturn],
            by rw [hnr]; rfl, fun c hc => ?_⟩
          · simp only [claimLoop, EStateM.run_bind, EStateM.run_get, hrec, hq, if_true, hi, Bool.false_eq_true,
              if_false, hrun, EStateM.run_pure]
          · obtain rfl := Option.some.inj hc
            exact ⟨rfl, record?_of_view (hp.effect hv)⟩
      · obtain ⟨claimed, rt', hrun, hp, hnext, hc⟩ := ih hrest hgood
        obtain ⟨hturn, hnr⟩ := claimTurn_skip rest workerId now (show queuedIn rt.view r = false by
          simp [queuedIn, hv, hq])
        refine ⟨claimed, rt', ?_, by rwa [hturn], by rwa [hnr], hc⟩
        simp only [claimLoop, EStateM.run_bind, EStateM.run_get, hrec, if_neg hq, hrun]

/-- **`claim_run`** never raises on a runtime in order, and decides exactly its plan. -/
theorem claimRun_spec (workerId : String) (now : UnixTs) {rt : InMemoryRuntime} (hgood : Good rt) :
    ∃ claimed rt', (claimRun workerId now).run rt = .ok claimed rt' ∧
      Performs rt rt' (claimPlan rt.view workerId now rt.internalRunStorage.keys) ∧
      claimed.map ClaimedRun.id = nextRunnable (recovered rt.view workerId now rt.internalRunStorage.keys)
        rt.internalRunStorage.keys ∧
      ∀ c, claimed = some c → c.claimType = "enqueued" ∧ rt'.record? c.id = some c.runStatus := by
  obtain ⟨rt₁, hrun₁, hp₁⟩ := recoverLoop_spec workerId now _ rt.internalRunStorage.keys_nodup hgood
  obtain ⟨claimed, rt', hrun, hp, hnext, hc⟩ :=
    claimLoop_spec workerId now _ rt₁.internalRunStorage.keys_nodup (hp₁.good hgood)
  have hkeys : rt₁.internalRunStorage.keys = rt.internalRunStorage.keys := by
    rw [hp₁.keys]
    simp [createdIn, recoveries]
  have hview : rt₁.view = recovered rt.view workerId now rt.internalRunStorage.keys := hp₁.view
  refine ⟨claimed, rt', ?_, ?_, ?_, hc⟩
  · simp only [claimRun, EStateM.run_bind, EStateM.run_get, hrun₁, hrun]
  · rw [hkeys, hview] at hp
    exact hp₁.trans hp
  · rw [hnext, hkeys, hview]

/-! ### What a claim answers -/

theorem mem_recoveries {W : UUID → Option RunView} {workerId : String} {now : UnixTs} {keys : List UUID}
    {p : UUID × Act} : p ∈ recoveries W workerId now keys ↔
      ∃ r ∈ keys, expiredIn W now r = true ∧ p = (r, .expire workerId now) := by
  simp only [recoveries, List.mem_map, List.mem_filter]
  constructor
  · rintro ⟨r, ⟨hr, hexp⟩, rfl⟩; exact ⟨r, hr, hexp, rfl⟩
  · rintro ⟨r, hr, hexp, rfl⟩; exact ⟨r, ⟨hr, hexp⟩, rfl⟩

theorem mem_claimTurn {W : UUID → Option RunView} {workerId : String} {now : UnixTs} {keys : List UUID}
    {p : UUID × Act} : p ∈ claimTurn W workerId now keys ↔
      (p.1 ∈ droppedRuns W keys ∧ p.2 = .drop now) ∨ (nextRunnable W keys = some p.1 ∧ p.2 = .claim workerId now) := by
  obtain ⟨r, a⟩ := p
  simp only [claimTurn, List.mem_append, List.mem_map, Option.mem_toList, Prod.mk.injEq]
  constructor
  · rintro (⟨j, hj, rfl, rfl⟩ | ⟨j, hj, rfl, rfl⟩)
    · exact Or.inl ⟨hj, rfl⟩
    · exact Or.inr ⟨hj, rfl⟩
  · rintro (⟨hj, rfl⟩ | ⟨hj, rfl⟩)
    · exact Or.inl ⟨r, hj, rfl, rfl⟩
    · exact Or.inr ⟨r, hj, rfl, rfl⟩

/-! ### The plan, seen from one run -/

theorem proj_recoveries (W : UUID → Option RunView) (workerId : String) (now : UnixTs) {keys : List UUID}
    (hnd : keys.Nodup) (r : UUID) : Automaton.proj r (recoveries W workerId now keys) =
      if r ∈ keys ∧ expiredIn W now r = true then [.expire workerId now] else [] := by
  rw [recoveries, Automaton.proj_map (hnd.filter _)]
  simp only [List.mem_filter]

theorem droppedRuns_nodup (W : UUID → Option RunView) {keys : List UUID} (hnd : keys.Nodup) :
    (droppedRuns W keys).Nodup := (hnd.filter _).sublist (List.takeWhile_sublist _)

theorem proj_claimTurn (W : UUID → Option RunView) (workerId : String) (now : UnixTs) {keys : List UUID}
    (hnd : keys.Nodup) (r : UUID) : Automaton.proj r (claimTurn W workerId now keys) =
      (if r ∈ droppedRuns W keys then [.drop now] else []) ++
        if nextRunnable W keys = some r then [.claim workerId now] else [] := by
  have hnext : (nextRunnable W keys).toList.Nodup := by cases nextRunnable W keys <;> simp
  rw [claimTurn, Automaton.proj_append, Automaton.proj_map (droppedRuns_nodup W hnd), Automaton.proj_map hnext]
  simp only [Option.mem_toList]

/-- the queue as the second loop finds it, run by run -/
theorem recovered_apply (W : UUID → Option RunView) (workerId : String) (now : UnixTs) {keys : List UUID}
    (hnd : keys.Nodup) (r : UUID) : recovered W workerId now keys r =
      if r ∈ keys ∧ expiredIn W now r = true then (lifecycle r).apply (W r) (.expire workerId now) else W r := by
  rw [recovered, Automaton.family_run_apply, proj_recoveries W workerId now hnd]
  split_ifs <;> rfl

theorem head?_dropWhile_filter {α : Type} (p q : α → Bool) (l : List α) :
    ((l.filter p).dropWhile q).head? = l.find? fun a => p a && !q a := by
  induction l with
  | nil => rfl
  | cons a l ih =>
    rw [List.find?_cons]
    cases hp : p a with
    | false => rw [List.filter_cons_of_neg (by simp [hp]), ih, Bool.false_and]
    | true =>
      rw [List.filter_cons_of_pos hp, List.dropWhile_cons]
      cases hq : q a with
      | false => rfl
      | true => exact ih

/-- the run that is claimed, as the first key that qualifies -/
theorem nextRunnable_eq_find? (W : UUID → Option RunView) (keys : List UUID) :
    nextRunnable W keys = keys.find? fun r => queuedIn W r && !intendedIn W r := head?_dropWhile_filter _ _ _

/-- when no run can be claimed, every queued one has the intent -/
theorem intendedIn_of_nextRunnable {W : UUID → Option RunView} {keys : List UUID} (h : nextRunnable W keys = none)
    {r : UUID} (hr : r ∈ keys) (hq : queuedIn W r = true) : intendedIn W r = true := by
  rw [nextRunnable_eq_find?, List.find?_eq_none] at h
  have hnot := h r hr
  simpa [hq] using hnot

/-- without a lease that ran out the plan is the second loop's -/
theorem claimPlan_of_no_recovery {W : UUID → Option RunView} (workerId : String) {now : UnixTs} {keys : List UUID}
    (h : ∀ r ∈ keys, expiredIn W now r = false) : recovered W workerId now keys = W ∧
      claimPlan W workerId now keys = claimTurn W workerId now keys := by
  have hnone : recoveries W workerId now keys = [] := by
    rw [recoveries, List.map_eq_nil_iff, List.filter_eq_nil_iff]
    intro r hr
    rw [h r hr]
    exact Bool.false_ne_true
  have hrec : recovered W workerId now keys = W := by
    rw [recovered, hnone]
    rfl
  refine ⟨hrec, ?_⟩
  rw [claimPlan, hrec, hnone, List.nil_append]

theorem nextRunnable_queued {W : UUID → Option RunView} {keys : List UUID} {r : UUID}
    (h : nextRunnable W keys = some r) : r ∈ keys ∧ queuedIn W r = true ∧ intendedIn W r = false := by
  have hmem : r ∈ keys.filter (queuedIn W) :=
    (List.dropWhile_sublist _).subset (List.mem_of_mem_head? (Option.mem_def.2 h))
  refine ⟨List.mem_of_mem_filter hmem, List.of_mem_filter hmem, ?_⟩
  have hnot := List.head?_dropWhile_not (intendedIn W) (keys.filter (queuedIn W))
  rw [show List.head? _ = some r from h] at hnot
  simpa using hnot

theorem mem_droppedRuns {W : UUID → Option RunView} {keys : List UUID} {r : UUID} (h : r ∈ droppedRuns W keys) :
    r ∈ keys ∧ queuedIn W r = true ∧ intendedIn W r = true := by
  have hmem := (List.takeWhile_sublist _).subset h
  exact ⟨List.mem_of_mem_filter hmem, List.of_mem_filter hmem, List.mem_takeWhile_imp h⟩

/-- a run that is dropped has an intent, one that is claimed has none -/
theorem not_dropped_of_nextRunnable {W : UUID → Option RunView} {keys : List UUID} {r : UUID}
    (h : nextRunnable W keys = some r) : r ∉ droppedRuns W keys := by
  intro hdrop
  have hintent := (nextRunnable_queued h).2.2
  rw [(mem_droppedRuns hdrop).2.2] at hintent
  cases hintent

theorem claim_guard_of_nextRunnable {W : UUID → Option RunView} {keys : List UUID} {r : UUID}
    (h : nextRunnable W keys = some r) (workerId : String) (now : UnixTs) :
    ∃ v, W r = some v ∧ (Act.claim workerId now).Guard v.record := by
  obtain ⟨-, hq, hi⟩ := nextRunnable_queued h
  obtain ⟨v, hv, hstatus⟩ := queuedIn_iff.1 hq
  exact ⟨v, hv, hstatus, by simpa [intendedIn, hv] using hi⟩

theorem drop_guard_of_dropped {W : UUID → Option RunView} {keys : List UUID} {r : UUID}
    (h : r ∈ droppedRuns W keys) (now : UnixTs) : ∃ v, W r = some v ∧ (Act.drop now).Guard v.record := by
  obtain ⟨-, hq, hi⟩ := mem_droppedRuns h
  obtain ⟨v, hv, hstatus⟩ := queuedIn_iff.1 hq
  exact ⟨v, hv, hstatus, by simpa [intendedIn, hv] using hi⟩

/-- **A claim answers the run it claimed.** The plan ends with that decision: before it the call only recovered and
cancelled, the run was enqueued without an intent, and the answered record is the one the decision wrote. -/
theorem claimRun_some {rt rt' : InMemoryRuntime} (hgood : Good rt) {workerId : String} {now : UnixTs} {c : ClaimedRun}
    (hrun : (claimRun workerId now).run rt = .ok (some c) rt') :
    ∃ l v, claimPlan rt.view workerId now rt.internalRunStorage.keys = l ++ [(c.id, .claim workerId now)] ∧
      (∀ p ∈ l, p.2 = .expire workerId now ∨ p.2 = .drop now) ∧ lifecycles.Legal rt.view l ∧
      lifecycles.run rt.view l c.id = some v ∧ (Act.claim workerId now).Guard v.record ∧
      rt'.view c.id = some (v.effect (.claim workerId now)) ∧
      c.runStatus = (Act.claim workerId now).record v.record := by
  obtain ⟨claimed, rt₁, hrun₁, hp, hnext, hc⟩ := claimRun_spec workerId now hgood
  obtain ⟨rfl, rfl⟩ : claimed = some c ∧ rt₁ = rt' := by
    rw [hrun] at hrun₁
    cases hrun₁
    exact ⟨rfl, rfl⟩
  set keys := rt.internalRunStorage.keys
  set W := recovered rt.view workerId now keys
  rw [Option.map_some] at hnext
  have hplan : claimPlan rt.view workerId now keys = (recoveries rt.view workerId now keys ++
      (droppedRuns W keys).map fun r => (r, .drop now)) ++ [(c.id, .claim workerId now)] := by
    change recoveries rt.view workerId now keys ++ claimTurn W workerId now keys = _
    rw [claimTurn, ← hnext, Option.toList_some, List.map_cons, List.map_nil, List.append_assoc]
  rw [hplan] at hp
  have hlegal := hp.legal
  rw [Automaton.legal_append, Automaton.legal_cons] at hlegal
  obtain ⟨hlegal, hen, -⟩ := hlegal
  rcases @lifecycle_cases c.id _ _ hen with ⟨userId, t, -, hbad⟩ | ⟨v, hv, hg⟩
  · cases hbad
  have hview : rt₁.view c.id = some (v.effect (.claim workerId now)) := by
    rw [hp.view, Automaton.run_append, Automaton.run_cons, Automaton.run_nil, Automaton.family_apply_self, hv]
    rfl
  refine ⟨_, v, hplan, fun p hmem => ?_, hlegal, hv, hg, hview, ?_⟩
  · rcases List.mem_append.1 hmem with hmem | hmem
    · obtain ⟨r, -, -, rfl⟩ := mem_recoveries.1 hmem
      exact Or.inl rfl
    · obtain ⟨r, -, rfl⟩ := List.mem_map.1 hmem
      exact Or.inr rfl
  · have hrec := (hc c rfl).2
    rw [record?_of_view hview] at hrec
    exact (Option.some.inj hrec).symm

/-- a claim that answers another run, or none, claims nothing of this one -/
theorem claimRun_other {rt rt' : InMemoryRuntime} (hgood : Good rt) {workerId w : String} {now t : UnixTs} {r : UUID}
    {claimed : Option ClaimedRun} (hrun : (claimRun workerId now).run rt = .ok claimed rt')
    (h : ∀ c, claimed = some c → c.id ≠ r) :
    (r, .claim w t) ∉ claimPlan rt.view workerId now rt.internalRunStorage.keys := by
  intro hmem
  obtain ⟨claimed', rt₁, hrun₁, -, hnext, -⟩ := claimRun_spec workerId now hgood
  obtain rfl : claimed = claimed' := by
    rw [hrun] at hrun₁
    cases hrun₁
    rfl
  rcases List.mem_append.1 hmem with hmem | hmem
  · obtain ⟨j, -, -, hbad⟩ := mem_recoveries.1 hmem
    cases hbad
  · rcases mem_claimTurn.1 hmem with ⟨-, hbad⟩ | ⟨hr, -⟩
    · cases hbad
    · rw [← hnext, Option.map_eq_some_iff] at hr
      obtain ⟨c, rfl, hc⟩ := hr
      exact h c rfl hc

end LlmAgent
