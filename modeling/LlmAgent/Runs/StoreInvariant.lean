/-
The invariant of the run store, for every sequence of calls with arbitrary arguments, and why no run is stuck.

- `RunStatus.InOrder`: what a record carries in each status; `record_inOrder`: every decision keeps it;
- `StoreInvariant`, `reachable_storeInvariant`: keys, streams and records of every reachable runtime are in order;
- `claimRun_reply`: hence `claim_run` never raises; `expired_released`: it takes every run whose lease ran out out of
  that lease;
- `storeInvariant_and_release`: the two together.
-/
import LlmAgent.Runs.StoreRefinement

namespace LlmAgent

open Core

/-! ## What a record carries -/

/-- a running record has an owner and an expiry; a result comes with SUCCEEDED and an error with FAILED -/
structure RunStatus.InOrder (st : RunStatus) : Prop where
  owner : st.status = .running → ∃ w, st.claimedWorker = some w
  expiry : st.status = .running → ∃ e, st.claimExpirationUnixTs = some e ∧ e ≠ 0
  result : st.result ≠ none ↔ st.status = .succeeded
  error : st.error ≠ none ↔ st.status = .failed

/-- a record that is not SUCCEEDED or FAILED has no result and no error -/
theorem RunStatus.InOrder.blank {st : RunStatus} (h : st.InOrder) (hs : st.status ≠ .succeeded)
    (hf : st.status ≠ .failed) : st.result = none ∧ st.error = none :=
  ⟨not_not.1 (mt h.result.1 hs), not_not.1 (mt h.error.1 hf)⟩

/-- a record without a result and an error is in order outside RUNNING, SUCCEEDED and FAILED -/
theorem RunStatus.inOrder_of_blank {st : RunStatus} (hblank : st.result = none ∧ st.error = none)
    (hrun : st.status ≠ .running) (hs : st.status ≠ .succeeded) (hf : st.status ≠ .failed) : st.InOrder where
  owner h := absurd h hrun
  expiry h := absurd h hrun
  result := ⟨fun h => absurd hblank.1 h, fun h => absurd h hs⟩
  error := ⟨fun h => absurd hblank.2 h, fun h => absurd h hf⟩

/-- a lease that was just written does not look like none -/
theorem getNewExpirationTs_ne_zero (now : UnixTs) : now + seconds 30 ≠ 0 :=
  (Nat.add_pos_right now (by decide : 0 < seconds 30)).ne'

/-- a run that can be cancelled has no result and no error yet -/
theorem blank_of_allowed {st : RunStatus} (h : st.InOrder) (hal : Allowed st.status .cancelled) :
    st.result = none ∧ st.error = none := by
  refine h.blank ?_ ?_
  · intro hs
    rw [hs] at hal
    exact not_allowed_of_terminal (by decide) _ hal
  · intro hf
    rw [hf] at hal
    exact not_allowed_of_terminal (by decide) _ hal

/-- **Every decision keeps the record in order.** -/
theorem record_inOrder {st : RunStatus} {a : Act} (hg : a.Guard st) (h : st.InOrder) : (a.record st).InOrder := by
  have hblank : ∀ status : RunStatusCode, st.status = status → status ≠ .succeeded → status ≠ .failed →
      st.result = none ∧ st.error = none := by
    rintro _ rfl hs hf
    exact h.blank hs hf
  cases a with
  | create => exact hg.elim
  | emit => exact h
  | loseClaim => exact h
  | requestCancel => exact ⟨h.owner, h.expiry, h.result, h.error⟩
  | enqueue =>
    exact RunStatus.inOrder_of_blank (hblank _ hg (by decide) (by decide)) (by rintro ⟨⟩) (by rintro ⟨⟩) (by rintro ⟨⟩)
  | expire =>
    exact RunStatus.inOrder_of_blank (hblank _ hg.1 (by decide) (by decide)) (by rintro ⟨⟩) (by rintro ⟨⟩)
      (by rintro ⟨⟩)
  | drop =>
    exact RunStatus.inOrder_of_blank (hblank _ hg.1 (by decide) (by decide)) (by rintro ⟨⟩) (by rintro ⟨⟩)
      (by rintro ⟨⟩)
  | markCancel =>
    have hst := blank_of_allowed h hg
    exact RunStatus.inOrder_of_blank hst (by rintro ⟨⟩) (by rintro ⟨⟩) (by rintro ⟨⟩)
  | cancel =>
    have hst := blank_of_allowed h hg
    exact RunStatus.inOrder_of_blank hst (by rintro ⟨⟩) (by rintro ⟨⟩) (by rintro ⟨⟩)
  | claim w now =>
    obtain ⟨hresult, herror⟩ := hblank _ hg.1 (by decide) (by decide)
    exact ⟨fun _ => ⟨w, rfl⟩, fun _ => ⟨_, rfl, getNewExpirationTs_ne_zero now⟩,
      by simp [Act.record, hresult], by simp [Act.record, herror]⟩
  | renew w now =>
    obtain ⟨hresult, herror⟩ := hblank _ hg.1 (by decide) (by decide)
    exact ⟨fun _ => ⟨w, rfl⟩, fun _ => ⟨_, rfl, getNewExpirationTs_ne_zero now⟩,
      by simp [Act.record, hresult], by simp [Act.record, herror]⟩
  | succeed result now =>
    obtain ⟨-, herror⟩ := hblank _ hg (by decide) (by decide)
    exact ⟨by rintro ⟨⟩, by rintro ⟨⟩, by simp [Act.record], by simp [Act.record, herror]⟩
  | fail error now =>
    obtain ⟨hresult, -⟩ := hblank _ hg (by decide) (by decide)
    exact ⟨by rintro ⟨⟩, by rintro ⟨⟩, by simp [Act.record, hresult], by simp [Act.record]⟩

theorem created_inOrder (runId : UUID) (userId : String) (now : UnixTs) :
    (RunView.created runId userId now).record.InOrder :=
  RunStatus.inOrder_of_blank ⟨rfl, rfl⟩ (by nofun) (by nofun) (by nofun)

/-- the record of every run, in every reachable runtime -/
theorem reachable_inOrder (ops : List StoreOp) {r : UUID} {v : RunView}
    (hv : (stores.run createDefaultInMemoryRuntime ops).view r = some v) : v.record.InOrder := by
  have hrun := storesRefine.local_run' (k := r) (I := fun o => ∀ v, o = some v → v.record.InOrder)
    (fun o a => lifecycle_step (fun userId now _ => created_inOrder r userId now) fun v h hg => record_inOrder hg h)
    good_default (by intro v h; cases h) ops
  exact hrun v hv

/-! ## The invariant of the runtime -/

/-- the stores' shared memory, key by key -/
structure StoreInvariant (rt : InMemoryRuntime) : Prop where
  key : ∀ r st, rt.record? r = some st → st.id = r
  /-- a stored run has a stream, and its next number is one more than its length -/
  stream : ∀ r st, rt.record? r = some st → rt.internalEventLogs.Known r
  settled : ∀ r st, rt.record? r = some st → st.status ≠ .timedOut ∧ st.status ≠ .retrying
  inOrder : ∀ r st, rt.record? r = some st → st.InOrder
  retries : ∀ r st, rt.record? r = some st → ∃ n : ℕ, st.retryCount = some (n : ℤ)

theorem reachable_storeInvariant (ops : List StoreOp) :
    StoreInvariant (stores.run createDefaultInMemoryRuntime ops) := by
  have hgood := reachable_good ops
  have hsound : ∀ r st, (stores.run createDefaultInMemoryRuntime ops).record? r = some st → ∃ v,
      (stores.run createDefaultInMemoryRuntime ops).view r = some v ∧ v.record = st ∧ v.Sound r := by
    intro r st hst
    obtain ⟨v, hv, hrec⟩ := exists_view hst
    exact ⟨v, hv, hrec, hgood.sound r v hv⟩
  refine ⟨?_, ?_, ?_, ?_, ?_⟩
  · intro r st hst
    obtain ⟨v, -, rfl, hv⟩ := hsound r st hst
    exact hv.id
  · intro r st hst
    exact hgood.known r ((Dict.mem_iff _ _).2 ⟨st, hst⟩)
  · intro r st hst
    obtain ⟨v, -, rfl, hv⟩ := hsound r st hst
    exact hv.settled
  · intro r st hst
    obtain ⟨v, hv, rfl, -⟩ := hsound r st hst
    exact reachable_inOrder ops hv
  · intro r st hst
    obtain ⟨v, -, rfl, hv⟩ := hsound r st hst
    exact hv.retries

/-! ## No run is stuck -/

/-- `claim_run` never raises on a runtime in order -/
theorem claimRun_reply {rt : InMemoryRuntime} (hgood : Good rt) (workerId : String) (now : UnixTs) :
    ∃ claimed, stores.reply rt (.claimRun workerId now) = .claimed claimed := by
  obtain ⟨claimed, rt', hrun, -⟩ := claimRun_spec workerId now hgood
  refine ⟨claimed, ?_⟩
  change (answer Reply.claimed (claimRun workerId now) rt).1 = _
  rw [answer_ok hrun]

/-- the run is out of the lease it had in `old`: retried once more, and queued, cancelled, or claimed anew by `w` -/
def Released (w : String) (now : UnixTs) (old : RunStatus) (st : RunStatus) : Prop :=
  st.retryCount = old.retryCount.map (· + 1) ∧ (st.status = .enqueued ∨ st.status = .cancelled ∨
    (st.status = .running ∧ st.claimedWorker = some w ∧ st.claimExpirationUnixTs = some (now + seconds 30)))

/-- **A claim takes a run whose lease ran out out of that lease.** -/
theorem expired_released {rt : InMemoryRuntime} (hgood : Good rt) {r : UUID} {v : RunView} (hv : rt.view r = some v)
    {w : String} {now : UnixTs} (hrun : v.record.status = .running) (hexp : Expired v.record now) :
    ∃ v', (stores.step rt (.claimRun w now)).view r = some v' ∧ Released w now v.record v'.record := by
  have hp := exec_performs hgood (.claimRun w now)
  have hnd := rt.internalRunStorage.keys_nodup
  have hmem : r ∈ rt.internalRunStorage.keys ∧ expiredIn rt.view now r = true := by
    refine ⟨mem_of_view hv, ?_⟩
    simp [expiredIn, hv, hrun, (hasClaimExpired_iff _ _).2 hexp]
  have hproj : Automaton.proj r ((StoreOp.claimRun w now).decisions rt) = .expire w now ::
      Automaton.proj r (claimTurn (recovered rt.view w now rt.internalRunStorage.keys) w now
        rt.internalRunStorage.keys) := by
    rw [StoreOp.decisions, claimPlan, Automaton.proj_append, proj_recoveries _ _ _ hnd, if_pos hmem]
    rfl
  have hlegal := Automaton.family_legal_proj hp.legal r
  have hview := hp.view_apply r
  rw [hproj, hv] at hlegal hview
  obtain ⟨-, hlegal⟩ := hlegal
  -- the recovery releases the run, and what the second loop decides about it keeps it released
  have hstart : Released w now v.record (v.effect (.expire w now)).record := ⟨rfl, Or.inl rfl⟩
  have hrest := Automaton.run_inv (A := lifecycle r)
    (I := fun o => ∃ v', o = some v' ∧ Released w now v.record v'.record)
    (C := fun a => a = .drop now ∨ a = .claim w now) ?_ hlegal ?_ ⟨_, rfl, hstart⟩
  · obtain ⟨v', hv', hrel⟩ := hrest
    exact ⟨v', hview.trans hv', hrel⟩
  · intro o a ha hI _
    obtain ⟨u, rfl, hu⟩ := hI
    refine ⟨u.effect a, rfl, ?_⟩
    rcases ha with rfl | rfl
    · exact ⟨hu.1, Or.inr (Or.inl rfl)⟩
    · exact ⟨hu.1, Or.inr (Or.inr ⟨rfl, rfl, rfl⟩)⟩
  · intro a ha
    rcases mem_claimTurn.1 (Automaton.mem_proj.1 ha) with ⟨-, h⟩ | ⟨-, h⟩
    · exact Or.inl h
    · exact Or.inr h

/-- **The store invariant, and no run stuck.** After any calls the store is in order; `claim_run` then returns, and when
it comes after the expiry of a running run, that run leaves its lease. -/
theorem storeInvariant_and_release (ops : List StoreOp) :
    StoreInvariant (stores.run createDefaultInMemoryRuntime ops) ∧
    ∀ w now, (∃ claimed, stores.reply (stores.run createDefaultInMemoryRuntime ops) (.claimRun w now) =
        .claimed claimed) ∧
      ∀ r st e, (stores.run createDefaultInMemoryRuntime ops).record? r = some st → st.status = .running →
        st.claimExpirationUnixTs = some e → e < now →
        ∃ st', (stores.run createDefaultInMemoryRuntime (ops ++ [.claimRun w now])).record? r = some st' ∧
          Released w now st st' := by
  have hgood := reachable_good ops
  refine ⟨reachable_storeInvariant ops, ?_⟩
  intro w now
  refine ⟨claimRun_reply hgood w now, ?_⟩
  intro r st e hst hrun he hlt
  obtain ⟨v, hv, rfl⟩ := exists_view hst
  obtain ⟨e', he', hne⟩ := (reachable_inOrder ops hv).expiry hrun
  obtain rfl := Option.some.inj (he.symm.trans he')
  obtain ⟨v', hv', hrel⟩ := expired_released hgood hv (w := w) hrun ⟨e, he, hne, hlt⟩
  rw [Machine.run_snoc]
  exact ⟨v'.record, record?_of_view hv', hrel⟩

end LlmAgent
