/-
Who owns a run that waits for a worker. `recover_expired_runs` writes the claiming worker into the record it puts back
to ENQUEUED and keeps the old expiry, so a waiting run is owned by nobody only as long as every recovered run leaves
ENQUEUED again in the same `claim_run`.

- `RunStatus.Owned`: what a record may say about its owner; `record_owned`: every decision but `expire` keeps it;
- `recovered_taken`, `recovered_left`: a recovered run is taken by the same call unless an earlier run is claimed;
- `claimRun_leaseHonest`: a call that recovers such runs only keeps every record honest;
- `waitingLease_iff`: along a run of the stores every state is honest if and only if every `claim_run` is of this kind.
-/
import LlmAgent.Runs.ClaimContract

namespace LlmAgent

open Core

/-! ## The property, and the condition for it -/

/-- one of the calls was a `claim_run` of the worker that returned the run -/
def ReturnedTo (ops : List StoreOp) (workerId : String) (r : UUID) : Prop :=
  stores.Occurs (fun rt op => ∃ now c, op = .claimRun workerId now ∧ stores.reply rt op = .claimed (some c) ∧ c.id = r)
    createDefaultInMemoryRuntime ops

/-- a waiting record has no owner and no expiry, and an owner is one of the workers `H` -/
structure RunStatus.Owned (H : String → Prop) (st : RunStatus) : Prop where
  waiting : st.status = .created ∨ st.status = .enqueued →
    st.claimedWorker = none ∧ st.claimExpirationUnixTs = none
  owner : ∀ w, st.claimedWorker = some w → H w

/-- after the calls, every record tells the truth about its owner -/
def LeaseHonest (ops : List StoreOp) : Prop :=
  ∀ r st, (stores.run createDefaultInMemoryRuntime ops).record? r = some st → st.Owned fun w => ReturnedTo ops w r

/-- a claim at `now` may hand the run out: no intent, and ENQUEUED or running with an expiry before `now` -/
def claimable (now : UnixTs) (st : RunStatus) : Bool :=
  (decide (st.status = .enqueued) || leaseRanOut now st) && !st.cancelRequested

/-- every run whose lease ran out comes before every other claimable run, and if it has an intent the worker had
claimed it before -/
def RecoversNextOnly (ops : List StoreOp) (workerId : String) (now : UnixTs) : Prop :=
  ∀ before r st after, (stores.run createDefaultInMemoryRuntime ops).records = before ++ (r, st) :: after →
    leaseRanOut now st = true →
    (∀ e ∈ before, claimable now e.2 = false) ∧ (st.cancelRequested = true → ReturnedTo ops workerId r)

theorem returnedTo_snoc {ops : List StoreOp} (op : StoreOp) {workerId : String} {r : UUID}
    (h : ReturnedTo ops workerId r) : ReturnedTo (ops ++ [op]) workerId r :=
  (Machine.occurs_snoc _ _ _).2 (Or.inl h)

theorem RunStatus.Owned.mono {H H' : String → Prop} {st : RunStatus} (h : st.Owned H) (hH : ∀ w, H w → H' w) :
    st.Owned H' := ⟨h.waiting, fun w hw => hH w (h.owner w hw)⟩

/-- outside CREATED and ENQUEUED only the owner counts -/
theorem RunStatus.owned_of_active {H : String → Prop} {st : RunStatus} (hc : st.status ≠ .created)
    (he : st.status ≠ .enqueued) (howner : ∀ w, st.claimedWorker = some w → H w) : st.Owned H :=
  ⟨fun h => (h.elim hc he).elim, howner⟩

/-- **Every decision but a recovery keeps what the record says about its owner**, given that claims are returned. -/
theorem record_owned {H : String → Prop} {st : RunStatus} {a : Act} (hg : a.Guard st)
    (hexpire : ∀ w now, a ≠ .expire w now) (hclaim : ∀ w now, a = .claim w now → H w) (h : st.Owned H) :
    (a.record st).Owned H := by
  cases a with
  | create => exact hg.elim
  | expire w now => exact absurd rfl (hexpire w now)
  | emit => exact h
  | loseClaim => exact h
  | requestCancel => exact ⟨h.waiting, h.owner⟩
  | enqueue => exact ⟨fun _ => ⟨rfl, rfl⟩, by nofun⟩
  | markCancel => exact ⟨fun _ => ⟨rfl, rfl⟩, by nofun⟩
  | drop => exact RunStatus.owned_of_active (by nofun) (by nofun) h.owner
  | succeed => exact RunStatus.owned_of_active (by nofun) (by nofun) h.owner
  | fail => exact RunStatus.owned_of_active (by nofun) (by nofun) h.owner
  | cancel => exact RunStatus.owned_of_active (by nofun) (by nofun) h.owner
  | claim w now =>
    refine RunStatus.owned_of_active (by nofun) (by nofun) ?_
    intro w' hw'
    obtain rfl : w = w' := Option.some.inj hw'
    exact hclaim w now rfl
  | renew w now =>
    refine RunStatus.owned_of_active (by nofun) (by nofun) ?_
    intro w' hw'
    obtain rfl : w = w' := Option.some.inj hw'
    exact h.owner w hg.2

/-! ## Which recovered runs leave the queue again -/

theorem runnable_requeued (now : UnixTs) (st : RunStatus) : runnable (requeued now st) = claimable now st := by
  unfold requeued claimable runnable
  split_ifs with h <;> simp [h]

theorem requeued_enqueued {now : UnixTs} {st : RunStatus} (h : leaseRanOut now st = true) :
    (requeued now st).status = .enqueued := by
  simp [requeued, h]

section Split

variable {rt : InMemoryRuntime} {now : UnixTs} {before after : RunRecords} {r : UUID} {st : RunStatus}

theorem records_split (hst : rt.record? r = some st) : ∃ before after, rt.records = before ++ (r, st) :: after := by
  obtain ⟨before, after, hsplit, -⟩ := List.lookup_eq_some_iff.1 hst
  exact ⟨before, after, hsplit⟩

/-- a run that is claimed is claimable -/
theorem claimable_of_oldest (hst : rt.record? r = some st)
    (h : oldestRunnable (recoveredStore now rt.records) = some r) : claimable now st = true := by
  obtain ⟨e, hfind, rfl⟩ := Option.map_eq_some_iff.1 h
  obtain ⟨e₀, he₀, rfl⟩ := List.mem_map.1 (List.mem_of_find?_eq_some hfind)
  obtain rfl : e₀.2 = st := Option.some.inj ((Dict.get?_of_mem_entries he₀).symm.trans hst)
  rw [← runnable_requeued]
  exact (List.find?_eq_some_iff_append.1 hfind).1

/-- before every claimable run, a recovered run without an intent is claimed -/
theorem oldestRunnable_split (h : rt.records = before ++ (r, st) :: after)
    (hbefore : ∀ e ∈ before, claimable now e.2 = false) (hst : claimable now st = true) :
    oldestRunnable (recoveredStore now rt.records) = some r := by
  have hnone : (before.map fun e => (e.1, requeued now e.2)).find? (fun e => runnable e.2) = none := by
    rw [List.find?_eq_none]
    intro e he
    obtain ⟨e₀, he₀, rfl⟩ := List.mem_map.1 he
    rw [runnable_requeued, hbefore e₀ he₀]
    decide
  have hrun : runnable (requeued now st) = true := by rw [runnable_requeued, hst]
  rw [oldestRunnable, recoveredStore, h, List.map_append, List.find?_append, hnone, Option.none_or, List.map_cons,
    List.find?_cons, hrun]
  rfl

/-- and one with an intent is cancelled -/
theorem cancelledAtClaim_split (h : rt.records = before ++ (r, st) :: after)
    (hbefore : ∀ e ∈ before, claimable now e.2 = false) (hst : claimable now st = false)
    (hexp : leaseRanOut now st = true) : r ∈ cancelledAtClaim (recoveredStore now rt.records) := by
  have hpass : ∀ e ∈ before.map fun e => (e.1, requeued now e.2), (!runnable e.2) = true := by
    intro e he
    obtain ⟨e₀, he₀, rfl⟩ := List.mem_map.1 he
    rw [runnable_requeued, hbefore e₀ he₀]
    rfl
  have hrun : (!runnable (requeued now st)) = true := by rw [runnable_requeued, hst]; rfl
  rw [cancelledAtClaim, recoveredStore, h, List.map_append, List.takeWhile_append_of_pos hpass, List.map_cons,
    List.takeWhile_cons, if_pos hrun]
  refine List.mem_map.2 ⟨(r, requeued now st), List.mem_filter.2 ⟨?_, ?_⟩, rfl⟩
  · exact List.mem_append_right _ List.mem_cons_self
  · exact decide_eq_true (requeued_enqueued hexp)

/-- behind a claimable run, a run is neither claimed nor cancelled -/
theorem passed_split (h : rt.records = before ++ (r, st) :: after)
    (hbefore : ∃ e ∈ before, claimable now e.2 = true) :
    oldestRunnable (recoveredStore now rt.records) ≠ some r ∧
      r ∉ cancelledAtClaim (recoveredStore now rt.records) := by
  obtain ⟨e, he, hclaim⟩ := hbefore
  have hnd := rt.internalRunStorage.nodup
  change (rt.records.map Prod.fst).Nodup at hnd
  rw [h, List.map_append, List.nodup_append] at hnd
  have hne : ∀ e' ∈ before, e'.1 ≠ r := fun e' he' =>
    hnd.2.2 e'.1 (List.mem_map_of_mem he') r List.mem_cons_self
  set head := before.map fun e => (e.1, requeued now e.2)
  have hhead : (e.1, requeued now e.2) ∈ head := List.mem_map_of_mem he
  have hrun : runnable (requeued now e.2) = true := by rw [runnable_requeued, hclaim]
  have hneHead : ∀ e' ∈ head, e'.1 ≠ r := by
    intro e' he'
    obtain ⟨e₀, he₀, rfl⟩ := List.mem_map.1 he'
    exact hne e₀ he₀
  refine ⟨?_, ?_⟩
  · cases hfind : head.find? fun e => runnable e.2 with
    | none => exact absurd hrun (List.find?_eq_none.1 hfind _ hhead)
    | some e' =>
      rw [oldestRunnable, recoveredStore, h, List.map_append, List.find?_append, hfind]
      intro heq
      exact hneHead e' (List.mem_of_find?_eq_some hfind) (Option.some.inj heq)
  · have hshort : (head.takeWhile fun e => !runnable e.2).length ≠ head.length := by
      intro hlen
      have hall := List.takeWhile_eq_self_iff.1 ((List.takeWhile_sublist _).eq_of_length hlen) _ hhead
      rw [hrun] at hall
      cases hall
    rw [cancelledAtClaim, recoveredStore, h, List.map_append, List.takeWhile_append, if_neg hshort]
    intro hmem
    obtain ⟨e', he', rfl⟩ := List.mem_map.1 hmem
    exact hneHead e' ((List.takeWhile_sublist _).subset (List.mem_of_mem_filter he')) rfl

end Split

/-! ## One call -/

section OneCall

variable {rt : InMemoryRuntime} (hgood : Good rt)
include hgood

/-- a call other than `claim_run` keeps what is said about owners -/
theorem lease_owned_step {H : String → Prop} {op : StoreOp} (hop : ∀ w now, op ≠ .claimRun w now) {r : UUID}
    (h : ∀ v, rt.view r = some v → v.record.Owned H) :
    ∀ v, (stores.step rt op).view r = some v → v.record.Owned H := by
  refine (exec_performs hgood op).keeps (I := fun o => ∀ v, o = some v → v.record.Owned H)
    (C := fun a => ∀ w now, a ≠ .expire w now ∧ a ≠ .claim w now) ?_ ?_ h
  · intro o a ha
    refine lifecycle_step ?_ ?_
    · intro userId now _
      exact ⟨fun _ => ⟨rfl, rfl⟩, by nofun⟩
    · intro v hv hg
      exact record_owned hg (fun w now => (ha w now).1) (fun w now hclaim => absurd hclaim (ha w now).2) hv
  · rintro a hmem w now
    have hcause := causes_of_mem hmem
    refine ⟨?_, ?_⟩ <;> rintro rfl <;> cases op with
    | claimRun w' now' => exact hop w' now' rfl
    | _ => simp [StoreOp.Causes] at hcause

variable (hin : ∀ r v, rt.view r = some v → v.record.InOrder) (workerId : String) {now : UnixTs} {r : UUID}
  {v : RunView} (hv : rt.view r = some v)
include hv

omit hgood in
/-- **A recovered run that nothing claimable precedes is taken by the same call**: claimed, or cancelled when it has an
intent. -/
theorem recovered_taken {before after : RunRecords} (hsplit : rt.records = before ++ (r, v.record) :: after)
    (hexp : leaseRanOut now v.record = true) (hbefore : ∀ e ∈ before, claimable now e.2 = false) :
    (v.record.cancelRequested = false ∧ oldestRunnable (recoveredStore now rt.records) = some r ∧
      claimActs workerId now rt.records r v.record = [.expire workerId now, .claim workerId now]) ∨
    (v.record.cancelRequested = true ∧ oldestRunnable (recoveredStore now rt.records) ≠ some r ∧
      claimActs workerId now rt.records r v.record = [.expire workerId now, .drop now]) := by
  cases hintent : v.record.cancelRequested with
  | false =>
    have hclaim : claimable now v.record = true := by simp [claimable, hexp, hintent]
    have hold := oldestRunnable_split hsplit hbefore hclaim
    refine Or.inl ⟨rfl, hold, ?_⟩
    rw [claimActs, if_pos hexp, if_pos hold]
    rfl
  | true =>
    have hclaim : claimable now v.record = false := by simp [claimable, hintent]
    have hold : oldestRunnable (recoveredStore now rt.records) ≠ some r := by
      intro h
      rw [claimable_of_oldest (record?_of_view hv) h] at hclaim
      cases hclaim
    refine Or.inr ⟨rfl, hold, ?_⟩
    rw [claimActs, if_pos hexp, if_neg hold, if_pos (cancelledAtClaim_split hsplit hbefore hclaim hexp)]
    rfl

include hin

variable (now) in
/-- the run after a `claim_run` -/
theorem claimed_view : (stores.step rt (.claimRun workerId now)).view r =
    (lifecycle r).run (some v) (claimActs workerId now rt.records r v.record) := by
  have hp := exec_performs hgood (.claimRun workerId now)
  rw [hp.view_apply, ← hv, ← proj_claimPlan hin workerId now hv]
  rfl

/-- one behind a claimable run stays in the queue, owned by the worker that recovered it -/
theorem recovered_left {before after : RunRecords} (hsplit : rt.records = before ++ (r, v.record) :: after)
    (hexp : leaseRanOut now v.record = true) (hbefore : ∃ e ∈ before, claimable now e.2 = true) :
    (stores.step rt (.claimRun workerId now)).view r = some (v.effect (.expire workerId now)) := by
  obtain ⟨hold, hdrop⟩ := passed_split hsplit hbefore
  rw [claimed_view hgood hin workerId now hv, claimActs, if_pos hexp, if_neg hold, if_neg hdrop]
  rfl

end OneCall

/-- the run a `claim_run` returns is the oldest runnable one -/
theorem claimRun_returns (ops : List StoreOp) (workerId : String) (now : UnixTs) (r : UUID) :
    (∃ c, stores.reply (stores.run createDefaultInMemoryRuntime ops) (.claimRun workerId now) = .claimed (some c) ∧
      c.id = r) ↔
    oldestRunnable (recoveredStore now (stores.run createDefaultInMemoryRuntime ops).records) = some r := by
  obtain ⟨claimed, hreply, hcontract⟩ := claimRun_contract ops workerId now
  rw [← hcontract.answer, hreply]
  constructor
  · rintro ⟨c, hc, rfl⟩
    rw [Reply.claimed.inj hc]
    rfl
  · intro h
    obtain ⟨c, rfl, hid⟩ := Option.map_eq_some_iff.1 h
    exact ⟨c, rfl, hid⟩

/-- **A claim that recovers only what it takes keeps every record honest.** -/
theorem claimRun_leaseHonest {ops : List StoreOp} {workerId : String} {now : UnixTs} (h : LeaseHonest ops)
    (hcond : RecoversNextOnly ops workerId now) : LeaseHonest (ops ++ [.claimRun workerId now]) := by
  intro r st' hst'
  rw [Machine.run_snoc] at hst'
  obtain ⟨v', hv', rfl⟩ := exists_view hst'
  set rt := stores.run createDefaultInMemoryRuntime ops with hrt
  have hgood : Good rt := reachable_good ops
  have hin : ∀ r v, rt.view r = some v → v.record.InOrder := fun r v hv => reachable_inOrder ops hv
  have hreturned : oldestRunnable (recoveredStore now rt.records) = some r →
      ReturnedTo (ops ++ [.claimRun workerId now]) workerId r := by
    intro hold
    obtain ⟨c, hc, hid⟩ := (claimRun_returns ops workerId now r).2 hold
    exact (Machine.occurs_snoc _ _ _).2 (Or.inr ⟨now, c, rfl, hc, hid⟩)
  cases hv : rt.view r with
  | none =>
    -- a claim creates no run
    have hkeys : (stores.step rt (.claimRun workerId now)).internalRunStorage.keys = rt.internalRunStorage.keys := by
      rw [(exec_performs hgood _).keys, StoreOp.decisions, createdIn_claimPlan, List.append_nil]
    refine absurd (mem_of_view hv') (fun hmem => view_eq_none_iff.1 hv ?_)
    change r ∈ rt.internalRunStorage.keys
    rw [← hkeys]
    exact hmem
  | some v =>
    have howned := (h r v.record (record?_of_view hv)).mono fun w hw => returnedTo_snoc (.claimRun workerId now) hw
    rw [claimed_view hgood hin workerId now hv] at hv'
    by_cases hexp : leaseRanOut now v.record = true
    · obtain ⟨before, after, hsplit⟩ := records_split (record?_of_view hv)
      obtain ⟨hbefore, hintent⟩ := hcond before r v.record after hsplit hexp
      rcases recovered_taken workerId hv hsplit hexp hbefore with ⟨-, hold, hacts⟩ | ⟨hi, -, hacts⟩
      · rw [hacts] at hv'
        obtain rfl := Option.some.inj hv'
        refine RunStatus.owned_of_active (by rintro ⟨⟩) (by rintro ⟨⟩) ?_
        intro w hw
        obtain rfl : workerId = w := Option.some.inj hw
        exact hreturned hold
      · rw [hacts] at hv'
        obtain rfl := Option.some.inj hv'
        refine RunStatus.owned_of_active (by rintro ⟨⟩) (by rintro ⟨⟩) ?_
        intro w hw
        obtain rfl : workerId = w := Option.some.inj hw
        exact returnedTo_snoc _ (hintent hi)
    · rw [claimActs, if_neg hexp, List.nil_append] at hv'
      split_ifs at hv' with hold hdrop
      · obtain rfl := Option.some.inj hv'
        refine RunStatus.owned_of_active (by rintro ⟨⟩) (by rintro ⟨⟩) ?_
        intro w hw
        obtain rfl : workerId = w := Option.some.inj hw
        exact hreturned hold
      · obtain rfl := Option.some.inj hv'
        exact RunStatus.owned_of_active (by rintro ⟨⟩) (by rintro ⟨⟩) howned.owner
      · obtain rfl := Option.some.inj hv'
        exact howned

/-! ## Runs -/

/-- **A waiting run carries no lease**: every state along the calls is honest about owners if and only if each
`claim_run` recovers only runs that it takes. -/
theorem waitingLease_iff (ops : List StoreOp) : (∀ pre, pre <+: ops → LeaseHonest pre) ↔
    ∀ pre workerId now, pre ++ [.claimRun workerId now] <+: ops → RecoversNextOnly pre workerId now := by
  constructor
  · intro h pre workerId now hpre before r st after hsplit hexp
    have hhonest := h _ hpre
    have hgood := reachable_good pre
    have hin := fun r v hv => reachable_inOrder pre (r := r) (v := v) hv
    have hst : (stores.run createDefaultInMemoryRuntime pre).record? r = some st := by
      have hmem : (r, st) ∈ (stores.run createDefaultInMemoryRuntime pre).records := by rw [hsplit]; simp
      exact Dict.get?_of_mem_entries hmem
    obtain ⟨v, hv, rfl⟩ := exists_view hst
    have hbefore : ∀ e ∈ before, claimable now e.2 = false := by
      intro e he
      by_contra hclaim
      -- the recovered run stays in the queue with an owner
      have hleft := recovered_left hgood hin workerId hv hsplit hexp
        ⟨e, he, Bool.eq_true_of_not_eq_false hclaim⟩
      rw [← Machine.run_snoc] at hleft
      have hwaiting := (hhonest r _ (record?_of_view hleft)).waiting (Or.inr rfl)
      cases hwaiting.1
    refine ⟨hbefore, ?_⟩
    intro hintent
    rcases recovered_taken workerId hv hsplit hexp hbefore with ⟨hi, -⟩ | ⟨-, hold, hacts⟩
    · rw [hintent] at hi
      cases hi
    · -- it is cancelled with the claiming worker as its owner, and this call did not return it
      have hview := claimed_view hgood hin workerId now hv
      rw [hacts, ← Machine.run_snoc] at hview
      have howner := (hhonest r _ (record?_of_view hview)).owner workerId rfl
      rcases (Machine.occurs_snoc _ _ _).1 howner with hearlier | ⟨now', c, hop, hreply, hid⟩
      · exact hearlier
      · obtain ⟨-, rfl⟩ := StoreOp.claimRun.inj hop
        exact absurd ((claimRun_returns pre workerId now r).1 ⟨c, hreply, hid⟩) hold
  · intro h pre hpre
    induction pre using List.reverseRecOn with
    | nil =>
      intro r st hst
      cases hst
    | append_singleton pre op ih =>
      have hhonest := ih ((List.prefix_append pre [op]).trans hpre)
      by_cases hop : ∃ workerId now, op = .claimRun workerId now
      · obtain ⟨workerId, now, rfl⟩ := hop
        exact claimRun_leaseHonest hhonest (h pre workerId now hpre)
      · intro r st hst
        rw [Machine.run_snoc] at hst
        obtain ⟨v, hv, rfl⟩ := exists_view hst
        refine lease_owned_step (reachable_good pre) (fun w now he => hop ⟨w, now, he⟩) ?_ v hv
        intro u hu
        exact (hhonest r u.record (record?_of_view hu)).mono fun w hw => returnedTo_snoc op hw

/-- w1 claims both runs and stalls; w2's claim recovers both, takes the first, and leaves the second ENQUEUED in its own
name -/
theorem recoveredRun_keepsLease : ¬ ∀ ops, LeaseHonest ops := by
  intro h
  have hwaiting := (h [.orchestratorCreateRun 1 "user_1" 10, .orchestratorCreateRun 2 "user_1" 20,
    .claimRun "w1" (seconds 1), .claimRun "w1" (seconds 2), .claimRun "w2" (seconds 60)] 2
    { id := 2, status := .enqueued, result := none, error := none, claimedWorker := some "w2",
      claimExpirationUnixTs := some (seconds 32), retryCount := some 1 } rfl).waiting (Or.inr rfl)
  cases hwaiting.1

end LlmAgent
