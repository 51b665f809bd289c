/-
How long a run can wait in the queue: `claim_run` serves in creation order, so only older runs are claimed before a
waiting one, and each of them only once for each time it enters the queue.

- `InMemoryRuntime.Waits`, `InMemoryRuntime.before`: a run that could be claimed, and the runs created before it;
- `claim_before`: a claim that leaves it waiting answers an older run;
- `owed`, `owed_pays`: a run that was not claimed since it entered the queue, and a lease that expires, pay for a claim;
- `bounded_overtaking`: while a run waits, the claims are at most the older runs that were not claimed at its start and
  the leases of older runs that the claims since found expired.
-/
import LlmAgent.Core.Potential
import LlmAgent.Runs.ClaimContract
import LlmAgent.Runs.LifecycleSafety

namespace LlmAgent

open Core

/-! ## Waiting runs -/

namespace InMemoryRuntime

/-- the run is enqueued and nobody asked to cancel it -/
def Waits (rt : InMemoryRuntime) (r : UUID) : Prop := ∃ st, rt.record? r = some st ∧ runnable st = true

/-- the runs created before `r` -/
def before (rt : InMemoryRuntime) (r : UUID) : List UUID := rt.internalRunStorage.keys.takeWhile fun j => j ≠ r

/-- how many of these runs were not claimed since they entered the queue last -/
def unclaimed (rt : InMemoryRuntime) (runs : List UUID) : ℕ :=
  runs.countP fun j => rt.status? j = some .created ∨ rt.status? j = some .enqueued

end InMemoryRuntime

/-- how many of these runs the call finds with a lease that ran out, and puts back into the queue -/
def StoreOp.expiries (runs : List UUID) (rt : InMemoryRuntime) : StoreOp → ℕ
  | .claimRun _ now => runs.countP fun j => (rt.record? j).any (leaseRanOut now)
  | _ => 0

def StoreOp.isClaim : StoreOp → Bool
  | .claimRun _ _ => true
  | _ => false

theorem runnable_iff {st : RunStatus} : runnable st = true ↔ st.status = .enqueued ∧ st.cancelRequested = false := by
  simp [runnable]

/-- what is found first stands at or before any other candidate -/
theorem find?_before {l : List UUID} {p : UUID → Bool} {r : UUID} (hr : r ∈ l) (hp : p r = true) :
    ∃ j, l.find? p = some j ∧ (j = r ∨ j ∈ l.takeWhile fun i => i ≠ r) := by
  induction l with
  | nil => cases hr
  | cons i l ih =>
    by_cases hi : i = r
    · exact ⟨i, by rw [List.find?_cons, hi, hp], Or.inl hi⟩
    · have hwhile : (i :: l).takeWhile (fun i => decide (i ≠ r)) = i :: l.takeWhile fun i => i ≠ r := by
        rw [List.takeWhile_cons, if_pos (by simpa using hi)]
      rw [hwhile]
      cases hpi : p i with
      | true => exact ⟨i, by rw [List.find?_cons, hpi], Or.inr List.mem_cons_self⟩
      | false =>
        obtain ⟨j, hj, hjr⟩ := ih ((List.mem_cons.1 hr).resolve_left (Ne.symm hi))
        refine ⟨j, by rw [List.find?_cons, hpi, hj], hjr.imp_right ?_⟩
        exact List.mem_cons_of_mem i

/-- what comes after `r` does not matter to what comes before it -/
theorem takeWhile_append_of_mem {l : List UUID} (m : List UUID) {r : UUID} (hr : r ∈ l) :
    (l ++ m).takeWhile (fun j => decide (j ≠ r)) = l.takeWhile fun j => decide (j ≠ r) := by
  induction l with
  | nil => cases hr
  | cons i l ih =>
    rw [List.cons_append, List.takeWhile_cons, List.takeWhile_cons]
    by_cases hi : i = r
    · simp [hi]
    · rw [ih ((List.mem_cons.1 hr).resolve_left (Ne.symm hi))]

section Claim

variable {rt : InMemoryRuntime} {r : UUID}

theorem Waits.stored (h : rt.Waits r) : r ∈ rt.internalRunStorage.keys := by
  obtain ⟨st, hst, -⟩ := h
  exact (Dict.mem_iff _ _).2 ⟨st, hst⟩

/-- **A claim that leaves a run waiting answers an older one.** -/
theorem claim_before (hgood : Good rt) {w : String} {now : UnixTs} (hwaits : rt.Waits r)
    (hkept : (stores.step rt (.claimRun w now)).Waits r) : ∃ c,
      stores.reply rt (.claimRun w now) = .claimed (some c) ∧ c.id ∈ rt.before r ∧
      (c.id, .claim w now) ∈ (StoreOp.claimRun w now).decisions rt := by
  have hstored := Waits.stored hwaits
  obtain ⟨st, hst, hrunnable⟩ := hwaits
  obtain ⟨v, hv, rfl⟩ := exists_view hst
  obtain ⟨hstatus, hflag⟩ := runnable_iff.1 hrunnable
  obtain ⟨claimed, rt', hrun, -, hnext, -⟩ := claimRun_spec w now hgood
  set keys := rt.internalRunStorage.keys
  -- a run that waits is not touched by the first loop
  have hrecovered : recovered rt.view w now keys r = some v := by
    rw [recovered_apply _ _ _ rt.internalRunStorage.keys_nodup, if_neg, hv]
    intro hexpired
    obtain ⟨u, hu, hrunning, -⟩ := expiredIn_iff.1 hexpired.2
    obtain rfl := Option.some.inj (hv.symm.trans hu)
    rw [hstatus] at hrunning
    cases hrunning
  have hcandidate : (queuedIn (recovered rt.view w now keys) r && !intendedIn (recovered rt.view w now keys) r) =
      true := by
    simp [queuedIn, intendedIn, hrecovered, hstatus, hflag]
  obtain ⟨j, hj, hjr⟩ := find?_before (p := fun j => queuedIn (recovered rt.view w now keys) j &&
    !intendedIn (recovered rt.view w now keys) j) hstored hcandidate
  rw [nextRunnable_eq_find?, hj, Option.map_eq_some_iff] at hnext
  obtain ⟨c, rfl, rfl⟩ := hnext
  have hreply : stores.reply rt (.claimRun w now) = .claimed (some c) := by
    change (answer Reply.claimed (claimRun w now) rt).1 = _
    rw [answer_ok hrun]
  have hstep : stores.step rt (.claimRun w now) = rt' := by
    change (answer Reply.claimed (claimRun w now) rt).2 = _
    rw [answer_ok hrun]
  obtain ⟨l, u, hplan, -, -, -, -, hview, -⟩ := claimRun_some hgood hrun
  refine ⟨c, hreply, hjr.resolve_left ?_, ?_⟩
  · intro hid
    obtain ⟨st', hst', hrunnable'⟩ := hkept
    rw [hstep, ← hid, record?_of_view hview] at hst'
    obtain rfl := Option.some.inj hst'
    cases hrunnable'
  · change _ ∈ claimPlan rt.view w now rt.internalRunStorage.keys
    rw [hplan]
    simp

/-- calls create runs at the end only, so the runs before a stored one stay the same -/
theorem before_step (hgood : Good rt) (hr : r ∈ rt.internalRunStorage.keys) (op : StoreOp) :
    (stores.step rt op).before r = rt.before r := by
  unfold InMemoryRuntime.before
  rw [(exec_performs hgood op).keys]
  exact takeWhile_append_of_mem _ hr

theorem keys_kept (hgood : Good rt) {j : UUID} (hj : j ∈ rt.internalRunStorage.keys) (calls : List StoreOp) :
    j ∈ (stores.run rt calls).internalRunStorage.keys := by
  obtain ⟨st, hst⟩ := (Dict.mem_iff _ _).1 hj
  obtain ⟨st', hst'⟩ := record_kept hgood hst calls
  exact (Dict.mem_iff _ _).2 ⟨st', hst'⟩

end Claim

/-! ## The potential of a run -/

/-- one claim is due: the run was not claimed since it entered the queue last -/
def RunStatus.due (st : RunStatus) : ℕ := if st.status = .created ∨ st.status = .enqueued then 1 else 0

/-- what a run still owes the queue: the claim that is due -/
def owed : Option RunView → ℤ
  | none => 1
  | some v => v.record.due

/-- what is counted: the claims -/
def Act.claims : Act → ℕ
  | .claim _ _ => 1
  | _ => 0

/-- what is earned: the leases that expire -/
def Act.expiries : Act → ℕ
  | .expire _ _ => 1
  | _ => 0

theorem due_of_status {st : RunStatus} (hc : st.status ≠ .created) (he : st.status ≠ .enqueued) : st.due = 0 := by
  simp [RunStatus.due, hc, he]

/-- a claim is paid by the run that was due, and a return to the queue by the lease that expired -/
theorem record_due {st : RunStatus} {a : Act} (hg : a.Guard st) :
    (a.record st).due + a.claims ≤ st.due + a.expiries := by
  have hout : ∀ status : RunStatusCode, (a.record st).status = status → status ≠ .created → status ≠ .enqueued →
      a.claims = 0 → (a.record st).due + a.claims ≤ st.due + a.expiries := by
    intro status hstatus hc he hclaims
    rw [due_of_status (by rwa [hstatus]) (by rwa [hstatus]), hclaims]
    exact Nat.zero_le _
  cases a with
  | create => exact hg.elim
  | requestCancel => exact Nat.le_add_right _ _
  | loseClaim => exact Nat.le_add_right _ _
  | emit => exact Nat.le_add_right _ _
  | enqueue now =>
    have hdue : st.due = 1 := if_pos (Or.inl hg)
    have hdue' : ((Act.enqueue now).record st).due = 1 := if_pos (Or.inr rfl)
    rw [hdue, hdue']
    exact Nat.le_add_right 1 _
  | expire w now =>
    have hdue' : ((Act.expire w now).record st).due = 1 := if_pos (Or.inr rfl)
    rw [hdue', due_of_status (by rw [hg.1]; nofun) (by rw [hg.1]; nofun)]
    exact le_refl 1
  | claim w now =>
    have hdue : st.due = 1 := if_pos (Or.inr hg.1)
    have hdue' : ((Act.claim w now).record st).due = 0 := due_of_status (by nofun) (by nofun)
    rw [hdue, hdue']
    exact Nat.le_add_right 1 _
  | markCancel => exact hout .cancelled rfl (by nofun) (by nofun) rfl
  | drop => exact hout .cancelled rfl (by nofun) (by nofun) rfl
  | renew => exact hout .running rfl (by nofun) (by nofun) rfl
  | succeed => exact hout .succeeded rfl (by nofun) (by nofun) rfl
  | fail => exact hout .failed rfl (by nofun) (by nofun) rfl
  | cancel => exact hout .cancelled rfl (by nofun) (by nofun) rfl

/-- **Every decision is paid.** -/
theorem owed_pays (r : UUID) (o : Option RunView) (a : Act) (h : (lifecycle r).Enabled o a) :
    owed ((lifecycle r).apply o a) + a.claims ≤ owed o + a.expiries := by
  rcases lifecycle_cases h with ⟨userId, now, rfl, rfl⟩ | ⟨v, rfl, hg⟩
  · exact le_of_eq rfl
  · have hdue := record_due hg
    change ((a.record v.record).due : ℤ) + a.claims ≤ v.record.due + a.expiries
    omega

/-- a claim expires a run's lease at most once, and only one that ran out -/
theorem expiries_claim (rt : InMemoryRuntime) (w : String) (now : UnixTs) (j : UUID) :
    Automaton.total Act.expiries (Automaton.proj j ((StoreOp.claimRun w now).decisions rt)) ≤
      if (rt.record? j).any (leaseRanOut now) then 1 else 0 := by
  have hnd : rt.internalRunStorage.keys.Nodup := rt.internalRunStorage.keys_nodup
  change Automaton.total Act.expiries (Automaton.proj j (claimPlan rt.view w now rt.internalRunStorage.keys)) ≤ _
  -- the second loop expires nothing
  have hsecond : ∀ W : UUID → Option RunView, Automaton.total Act.expiries
      (Automaton.proj j (claimTurn W w now rt.internalRunStorage.keys)) = 0 := by
    intro W
    refine List.sum_eq_zero ?_
    intro n hn
    obtain ⟨a, ha, rfl⟩ := List.mem_map.1 hn
    rcases mem_claimTurn.1 (Automaton.mem_proj.1 ha) with ⟨-, rfl⟩ | ⟨-, rfl⟩
    · rfl
    · rfl
  rw [claimPlan, Automaton.proj_append, Automaton.total_append, hsecond, add_zero, proj_recoveries _ _ _ hnd]
  split_ifs with hexpired hlease hlease
  · exact le_refl 1
  · obtain ⟨v, hv, hrun, expiration, hexp, -, hlt⟩ := expiredIn_iff.1 hexpired.2
    refine absurd ?_ hlease
    rw [record?_of_view hv]
    simp [leaseRanOut, hrun, hexp, hlt]
  · exact Nat.zero_le _
  · exact le_refl 0

/-- no other call expires a lease -/
theorem expiries_eq_zero {rt : InMemoryRuntime} {op : StoreOp} (hop : op.isClaim = false) {p : UUID × Act}
    (h : p ∈ op.decisions rt) : p.2.expiries = 0 := by
  have hc := causes_of_mem h
  cases op with
  | claimRun => cases hop
  | heartbeat => rcases hc with hc | hc <;> rw [hc] <;> rfl
  | orchestratorCreateRun => rcases hc with hc | hc <;> rw [hc] <;> rfl
  | getStatus => exact hc.elim
  | _ => rw [show p = _ from hc]; rfl

/-- the leases that expire by a call's decisions are among those it finds run out -/
theorem expiries_le (rt : InMemoryRuntime) (runs : List UUID) (op : StoreOp) :
    (runs.map fun j => Automaton.total Act.expiries (Automaton.proj j (op.decisions rt))).sum ≤
      op.expiries runs rt := by
  cases hop : op.isClaim with
  | false =>
    refine (List.sum_eq_zero ?_).le.trans (Nat.zero_le _)
    intro n hn
    obtain ⟨j, -, rfl⟩ := List.mem_map.1 hn
    refine List.sum_eq_zero ?_
    intro m hm
    obtain ⟨a, ha, rfl⟩ := List.mem_map.1 hm
    exact expiries_eq_zero hop (Automaton.mem_proj.1 ha)
  | true =>
    cases op with
    | claimRun w now =>
      change _ ≤ runs.countP fun j => (rt.record? j).any (leaseRanOut now)
      induction runs with
      | nil => exact le_refl 0
      | cons j runs ih =>
        rw [List.map_cons, List.sum_cons, List.countP_cons, add_comm]
        exact add_le_add ih (expiries_claim rt w now j)
    | _ => cases hop

/-! ## Bounded overtaking -/

section Overtaking

variable {rt : InMemoryRuntime}

/-- what these runs owe together -/
def InMemoryRuntime.owedBy (rt : InMemoryRuntime) (runs : List UUID) : ℤ := (runs.map fun j => owed (rt.view j)).sum

theorem owedBy_eq {runs : List UUID} (h : ∀ j ∈ runs, j ∈ rt.internalRunStorage.keys) :
    rt.owedBy runs = rt.unclaimed runs := by
  induction runs with
  | nil => rfl
  | cons j runs ih =>
    have hrest := ih fun i hi => h i (List.mem_cons_of_mem j hi)
    obtain ⟨st, hst⟩ := (Dict.mem_iff _ _).1 (h j List.mem_cons_self)
    obtain ⟨v, hv, rfl⟩ := exists_view hst
    have hone : owed (rt.view j) = v.record.due := by
      rw [hv]
      rfl
    have hunclaimed : rt.unclaimed (j :: runs) = v.record.due + rt.unclaimed runs := by
      unfold InMemoryRuntime.unclaimed RunStatus.due
      rw [List.countP_cons, status?_of_view hv, Nat.add_comm]
      simp
    have hsum : rt.owedBy (j :: runs) = owed (rt.view j) + rt.owedBy runs := rfl
    rw [hsum, hrest, hone, hunclaimed]
    push_cast
    ring

/-- **One call is paid**: a claim that leaves `r` waiting by the older run it claims, and the runs that are due again by
their leases. -/
theorem owedBy_step (hgood : Good rt) {r : UUID} (hwaits : rt.Waits r) {op : StoreOp}
    (hkept : (stores.step rt op).Waits r) :
    (stores.step rt op).owedBy (rt.before r) + (if op.isClaim then 1 else 0 : ℕ) ≤
      rt.owedBy (rt.before r) + op.expiries (rt.before r) rt := by
  have hp := exec_performs hgood op
  have hpaid := Automaton.family_pays owed_pays hp.legal (rt.before r)
  rw [← hp.view] at hpaid
  have hearned := expiries_le rt (rt.before r) op
  have hcount : (if op.isClaim then 1 else 0) ≤
      ((rt.before r).map fun j => Automaton.total Act.claims (Automaton.proj j (op.decisions rt))).sum := by
    cases op with
    | claimRun w now =>
      obtain ⟨c, -, hbefore, hmem⟩ := claim_before hgood hwaits hkept
      calc 1 = (Act.claim w now).claims := rfl
        _ ≤ Automaton.total Act.claims (Automaton.proj c.id ((StoreOp.claimRun w now).decisions rt)) :=
          Automaton.le_total (Automaton.mem_proj.2 hmem)
        _ ≤ _ := List.single_le_sum (fun _ _ => Nat.zero_le _) _ (List.mem_map.2 ⟨c.id, hbefore, rfl⟩)
    | _ => exact Nat.zero_le _
  unfold InMemoryRuntime.owedBy
  omega

end Overtaking

/-- **Bounded overtaking.** While `r` waits, whoever calls whatever, every claim answers a run created before `r`; and
the claims are at most the older runs that were not claimed when `r` began to wait, plus the leases of older runs that
the claims since found expired (and minus what is left unclaimed of them). -/
theorem bounded_overtaking (ops calls : List StoreOp) {r : UUID}
    (hwaits : (stores.run createDefaultInMemoryRuntime ops).Waits r)
    (hkept : stores.Along (fun rt op => (stores.step rt op).Waits r) (stores.run createDefaultInMemoryRuntime ops)
      calls) :
    let rt := stores.run createDefaultInMemoryRuntime ops
    let rt' := stores.run createDefaultInMemoryRuntime (ops ++ calls)
    stores.Along (fun s op => ∀ w now, op = .claimRun w now →
      ∃ c, stores.reply s op = .claimed (some c) ∧ c.id ∈ rt.before r) rt calls ∧
    calls.countP StoreOp.isClaim + rt'.unclaimed (rt.before r) ≤
      rt.unclaimed (rt.before r) + stores.tally (fun s op => op.expiries (rt.before r) s) rt calls := by
  intro rt rt'
  have hgood : Good rt := reachable_good ops
  have hrt' : rt' = stores.run rt calls := Machine.run_append _ _ _ _
  have hkeep : ∀ s op, Good s ∧ s.Waits r ∧ s.before r = rt.before r → (stores.step s op).Waits r →
      Good (stores.step s op) ∧ (stores.step s op).Waits r ∧ (stores.step s op).before r = rt.before r := by
    intro s op hI hnext
    obtain ⟨hgood, hwaits, hbefore⟩ := hI
    exact ⟨(exec_performs hgood op).good hgood, hnext,
      (before_step hgood (Waits.stored hwaits) op).trans hbefore⟩
  have hstart : Good rt ∧ rt.Waits r ∧ rt.before r = rt.before r := ⟨hgood, hwaits, rfl⟩
  refine ⟨?_, ?_⟩
  · refine Machine.along_of_inv hkeep ?_ hstart hkept
    intro s op hI hnext w now hop
    subst hop
    obtain ⟨hgood, hwaits, hbefore⟩ := hI
    obtain ⟨c, hreply, hmem, -⟩ := claim_before hgood hwaits hnext
    exact ⟨c, hreply, hbefore ▸ hmem⟩
  · have hpaid := Machine.tally_le (M := stores) (Φ := fun s => s.owedBy (rt.before r))
      (f := fun _ op => if op.isClaim then 1 else 0) (g := fun s op => op.expiries (rt.before r) s) hkeep ?_ hstart
      hkept
    · have hsub : ∀ j ∈ rt.before r, j ∈ rt.internalRunStorage.keys := fun j hj => (List.takeWhile_subset _) hj
      have hsub' : ∀ j ∈ rt.before r, j ∈ rt'.internalRunStorage.keys := by
        intro j hj
        rw [hrt']
        exact keys_kept hgood (hsub j hj) calls
      rw [Machine.tally_eq_countP (fun _ _ => rfl), ← hrt', owedBy_eq hsub, owedBy_eq hsub'] at hpaid
      omega
    · intro s op hI hnext
      obtain ⟨hgood, hwaits, hbefore⟩ := hI
      have hstep := owedBy_step hgood hwaits hnext
      rwa [hbefore] at hstep

/-- runs 1 and 2 are created -/
def twoRuns : List StoreOp := [.orchestratorCreateRun 1 "user_1" 10, .orchestratorCreateRun 2 "user_1" 11]

/-- `w1` claims run 1, whose lease expires, and `w2` claims it again -/
def claimedTwice : List StoreOp := [.claimRun "w1" 20, .claimRun "w2" (seconds 40)]

theorem bounded_overtaking_twoRuns :
    let rt := stores.run createDefaultInMemoryRuntime twoRuns
    let rt' := stores.run createDefaultInMemoryRuntime (twoRuns ++ claimedTwice)
    stores.Along (fun s op => ∀ w now, op = .claimRun w now →
      ∃ c, stores.reply s op = .claimed (some c) ∧ c.id ∈ rt.before 2) rt claimedTwice ∧
    claimedTwice.countP StoreOp.isClaim + rt'.unclaimed (rt.before 2) ≤
      rt.unclaimed (rt.before 2) + stores.tally (fun s op => op.expiries (rt.before 2) s) rt claimedTwice := by
  have hwaits : (stores.run createDefaultInMemoryRuntime twoRuns).Waits 2 := ⟨_, rfl, rfl⟩
  have hkept : stores.Along (fun rt op => (stores.step rt op).Waits 2) (stores.run createDefaultInMemoryRuntime twoRuns)
      claimedTwice := ⟨⟨_, rfl, rfl⟩, ⟨_, rfl, rfl⟩, trivial⟩
  exact bounded_overtaking twoRuns claimedTwice hwaits hkept

end LlmAgent
