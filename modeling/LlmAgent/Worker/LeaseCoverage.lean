/-
Does a heartbeating worker keep its run?

While its heartbeat loop is alive and on time, a worker's lease reaches thirty seconds beyond the loop's last wake-up.
But the loop ends as soon as it sees a cancellation request, while the executor still finishes its current step: from
then on nothing renews the lease, and another worker's claim can recover the run.

- `Recovers`: the step writes TIMED_OUT for the run; `recovers_iff`: this is a claim that finds its lease expired;
- `Leased`, `leased_step`: the stored expiry follows the last wake-up, in every state;
- `neverRecovered_iff`: with loops that are on time, no owned run is recovered exactly when every claim comes within the
  lease of the loops that already ended (`Covered`);
- `recoveredWhileCancelling`: the run in which a cancelled run is recovered under its executing owner.
-/
import LlmAgent.Worker.Holding

namespace LlmAgent

open Core

/-- the step writes TIMED_OUT to the record of run `r`: it recovers the run -/
def Recovers (s : Sys) (op : SysOp) (r : UUID) : Prop :=
  .timedOut ∈ ((sys.step s op).runtime.writesOf r).drop (s.runtime.writesOf r).length

/-- worker `w` is inside its lease scope for run `r` and owns it -/
def Owns (s : Sys) (w : String) (r : UUID) : Prop :=
  (s.consumers w).phase.scope = some r ∧
    ∃ st, s.runtime.record? r = some st ∧ st.status = .running ∧ st.claimedWorker = some w

/-- no step recovers a run whose owner is inside its lease scope -/
def NeverRecovered (ops : List SysOp) : Prop :=
  sys.Along (fun s op => ∀ w r, Owns s w r → ¬ Recovers s op r) Sys.init ops

/-- the heartbeat loops that are alive are on time: their last wake-up, or the claim, is at most thirty seconds ago -/
def OnTime (s : Sys) (op : SysOp) : Prop :=
  ∀ w r, s.heartbeatRun w = some r → op.now ≤ (s.consumers w).lastWake + seconds 30

/-- a claim comes at most thirty seconds after the last wake-up of each loop that ended while its worker still owns the
run -/
def Covered (s : Sys) (op : SysOp) : Prop :=
  ∀ w' now w r, op = .advance w' now → (s.consumers w').phase = .claiming → Owns s w r →
    (s.consumers w).heartbeatActive = false → now ≤ (s.consumers w).lastWake + seconds 30

/-! ## Recovering a run -/

/-- a claim recovers exactly the runs whose lease ran out -/
theorem expire_mem_iff {rt : InMemoryRuntime} {r : UUID} {w w' : String} {now t : UnixTs} :
    (r, .expire w t) ∈ (StoreOp.claimRun w' now).decisions rt ↔
      (w = w' ∧ t = now) ∧ ∃ v, rt.view r = some v ∧ v.record.status = .running ∧ Expired v.record now := by
  constructor
  · intro h
    rcases List.mem_append.1 h with h | h
    · obtain ⟨j, -, hexp, hj⟩ := mem_recoveries.1 h
      cases hj
      exact ⟨⟨rfl, rfl⟩, expiredIn_iff.1 hexp⟩
    · rcases mem_claimTurn.1 h with ⟨-, hbad⟩ | ⟨-, hbad⟩ <;> cases hbad
  · rintro ⟨⟨rfl, rfl⟩, v, hv, hrun, hexp⟩
    refine List.mem_append_left _ (mem_recoveries.2 ⟨r, mem_of_view hv, expiredIn_iff.2 ⟨v, hv, hrun, hexp⟩, rfl⟩)

/-- the statuses a decision other than a recovery writes to a sound run do not contain TIMED_OUT -/
theorem timedOut_not_mem {st : RunStatus} {a : Act} (ha : ∀ w now, a ≠ .expire w now) (hst : st.status ≠ .timedOut) :
    .timedOut ∉ a.statuses st := by
  cases a with
  | expire w now => exact absurd rfl (ha w now)
  | requestCancel => simpa [Act.statuses] using Ne.symm hst
  | _ => simp [Act.statuses]

/-- TIMED_OUT is not among the statuses written to the run after `old` -/
def NotTimedOutSince (r : UUID) (old : List RunStatusCode) (o : Option RunView) : Prop :=
  ∃ u new, o = some u ∧ u.Sound r ∧ u.writes = old ++ new ∧ .timedOut ∉ new

theorem notTimedOut_act {r : UUID} {old : List RunStatusCode} {o : Option RunView} {a : Act}
    (ha : ∀ w now, a ≠ .expire w now) (hI : NotTimedOutSince r old o) (_ : (lifecycle r).Enabled o a) :
    NotTimedOutSince r old ((lifecycle r).apply o a) := by
  obtain ⟨u, new, rfl, hsound, hnew, hnot⟩ := hI
  refine ⟨u.effect a, new ++ a.statuses u.record, rfl, effect_sound a hsound, ?_, ?_⟩
  · rw [RunView.effect, hnew, List.append_assoc]
  · rw [List.mem_append, not_or]
    exact ⟨hnot, timedOut_not_mem ha hsound.settled.1⟩

/-- **A run is recovered exactly by a decision to do so.** -/
theorem recovers_iff {s : Sys} (hgood : Good s.runtime) {op : SysOp} {r : UUID} {v : RunView}
    (hv : s.runtime.view r = some v) : Recovers s op r ↔ ∃ w now, (r, .expire w now) ∈ op.decisions s := by
  have hp := sys_performs hgood op
  obtain ⟨-, -, hwrites⟩ := view_some_iff.1 hv
  constructor
  · intro hrec
    by_contra hno
    have hI := hp.keeps (I := NotTimedOutSince r v.writes) (C := fun a => ∀ w now, a ≠ .expire w now)
      (fun _ _ => notTimedOut_act) (fun a hmem w now ha => hno ⟨w, now, ha ▸ hmem⟩)
      ⟨v, [], hv, hgood.sound r v hv, (List.append_nil _).symm, by simp⟩
    obtain ⟨u, new, hu, -, hnew, hnot⟩ := hI
    rw [Recovers, ← (view_some_iff.1 hu).2.2, ← hwrites, hnew, List.drop_left] at hrec
    exact hnot hrec
  · rintro ⟨w, now, hmem⟩
    -- before and after the recovery the step only adds to the written statuses
    obtain ⟨l, m, hlm⟩ := List.append_of_mem (Automaton.mem_proj.2 hmem)
    obtain ⟨v₁, new₁, hrun₁, hw₁⟩ := lifecycle_run_some r v l
    obtain ⟨v₂, new₂, hrun₂, hw₂⟩ := lifecycle_run_some r (v₁.effect (.expire w now)) m
    have hview : (sys.step s op).runtime.view r = some v₂ := by
      rw [hp.view_apply, hlm, hv, Automaton.run_append, hrun₁, Automaton.run_cons, lifecycle_apply_some, hrun₂]
    rw [Recovers, ← (view_some_iff.1 hview).2.2, ← hwrites, hw₂, RunView.effect, hw₁]
    simp [Act.statuses]

/-! ## The stored expiry follows the last wake-up -/

/-- if the run is running for worker `w`, its lease ends at `expiration` -/
def LeasedTo (w : String) (expiration : UnixTs) (o : Option RunView) : Prop :=
  ∀ v, o = some v → v.record.status = .running → v.record.claimedWorker = some w →
    v.record.claimExpirationUnixTs = some expiration

/-- a run in hand that is running for its consumer is leased for thirty seconds from its last wake-up -/
def Leased (s : Sys) : Prop := ∀ w r, (s.consumers w).inHand = some r →
  LeasedTo w ((s.consumers w).lastWake + seconds 30) (s.runtime.view r)

/-- no decision changes the lease of a worker's running run but its own claim and its own renewal -/
theorem leasedTo_act {w : String} {expiration : UnixTs} {r : UUID} {o : Option RunView} {a : Act}
    (hclaim : ∀ w' now, a ≠ .claim w' now) (hrenew : ∀ now, a ≠ .renew w now) (hI : LeasedTo w expiration o)
    (hen : (lifecycle r).Enabled o a) : LeasedTo w expiration ((lifecycle r).apply o a) := by
  refine lifecycle_step (I := fun v => v.record.status = .running → v.record.claimedWorker = some w →
    v.record.claimExpirationUnixTs = some expiration) ?_ ?_ hI hen
  · intro userId now _ hrun
    cases hrun
  · intro v hv hg hrun howner
    cases a with
    | create => exact hg.elim
    | claim w' now => exact absurd rfl (hclaim w' now)
    | renew w' now =>
      obtain rfl : w' = w := Option.some.inj howner
      exact absurd rfl (hrenew now)
    | requestCancel => exact hv hrun howner
    | loseClaim => exact hv hrun howner
    | emit => exact hv hrun howner
    | _ => cases hrun

theorem leasedTo_step {s : Sys} (hgood : Good s.runtime) {op : SysOp} {w : String} {r : UUID} {expiration : UnixTs}
    (hclaim : ∀ w' now c, Claims s op w' now c → c.id ≠ r) (hbeat : ∀ now, op ≠ .heartbeat w now)
    (hI : LeasedTo w expiration (s.runtime.view r)) : LeasedTo w expiration ((sys.step s op).runtime.view r) := by
  refine (sys_performs hgood op).keeps (C := fun a => (∀ w' now, a ≠ .claim w' now) ∧ ∀ now, a ≠ .renew w now)
    (fun o a ha => leasedTo_act ha.1 ha.2) ?_ hI
  intro a hmem
  refine ⟨fun w' now ha => ?_, fun now ha => ?_⟩
  · subst ha
    obtain ⟨c, hc, hid⟩ := origin_of_mem hgood hmem
    exact hclaim w' now c hc hid
  · subst ha
    exact hbeat now (origin_of_mem hgood hmem).1

/-- a heartbeat that finds the run running for its worker renews the lease from now on -/
theorem leasedTo_heartbeat {s : Sys} (hgood : Good s.runtime) {w : String} {now : UnixTs} {r : UUID}
    (hrun : s.heartbeatRun w = some r) :
    LeasedTo w (now + seconds 30) ((sys.step s (.heartbeat w now)).runtime.view r) := by
  have hp := sys_performs hgood (.heartbeat w now)
  simp only [SysOp.decisions, SysOp.call, hrun, Option.map_some, StoreOp.decisions] at hp
  cases hv : s.runtime.view r with
  | none =>
    have hno : ∀ a : Act, ∀ v, s.runtime.view r = some v → ¬ a.Guard v.record := by simp [hv]
    rw [taken_of_not (hno _), taken_of_not (hno _)] at hp
    intro v' hv'
    rw [hp.view_apply, hv] at hv'
    cases hv'
  | some v =>
    by_cases hown : v.record.status = .running ∧ v.record.claimedWorker = some w
    · have hno : ∀ u, s.runtime.view r = some u → ¬ (Act.loseClaim w now).Guard u.record := by
        intro u hu hg
        obtain rfl := Option.some.inj (hv.symm.trans hu)
        exact hg.2 hown.2
      rw [taken_of_guard (a := .renew w now) hv hown, taken_of_not hno] at hp
      intro v' hv' _ _
      obtain rfl := Option.some.inj ((hp.effect hv).symm.trans hv')
      rfl
    · -- nothing is renewed, and the run is still not running for `w`
      have hI : LeasedTo w (now + seconds 30) (s.runtime.view r) := by
        intro u hu hs howner
        obtain rfl := Option.some.inj (hv.symm.trans hu)
        exact absurd ⟨hs, howner⟩ hown
      refine hp.keeps (C := fun a => a = .loseClaim w now) ?_ ?_ hI
      · intro o a ha hI hen
        subst ha
        exact leasedTo_act (by simp) (by simp) hI hen
      · intro a hmem
        rcases List.mem_append.1 hmem with hmem | hmem
        · obtain ⟨-, u, hu, hg⟩ := mem_taken.1 hmem
          obtain rfl := Option.some.inj (hv.symm.trans hu)
          exact absurd hg hown
        · exact (Prod.mk.inj (mem_taken.1 hmem).1).2

theorem Turn.lastWake {rt : InMemoryRuntime} {w : String} {now : UnixTs} {c c' : Consumer} (h : Turn rt w now c c')
    (hphase : c.phase ≠ .claiming) : c'.lastWake = c.lastWake := by
  cases h with
  | claim _ h => exact absurd h hphase
  | _ => rfl

theorem lastWake_executorEnds (c : Consumer) (outcome : Outcome) : (c.executorEnds outcome).lastWake = c.lastWake := by
  unfold Consumer.executorEnds
  split <;> rfl

/-- outside a claim only a heartbeat moves the last wake-up -/
theorem lastWake_step {s : Sys} {op : SysOp} {w : String} (hphase : (s.consumers w).phase ≠ .claiming)
    (hbeat : ¬ ∃ now, op = .heartbeat w now) : ((sys.step s op).consumers w).lastWake = (s.consumers w).lastWake := by
  rcases consumer_cases s op w with hc | ⟨now, -, hc⟩ | ⟨now, -, hc⟩ | ⟨now, j, hop, -, -⟩ | ⟨outcome, now, -, hc⟩
  · rw [hc]
  · rw [hc]
    rfl
  · rw [hc]
    exact (turn_advanced s w now).lastWake hphase
  · exact absurd ⟨now, hop⟩ hbeat
  · rw [hc, lastWake_executorEnds]

theorem lastWake_heartbeatReact (c : Consumer) (now : UnixTs) (reply : Reply) :
    (c.heartbeatReact now reply).lastWake = now := by
  unfold Consumer.heartbeatReact
  split
  · split <;> rfl
  · rfl
  · rfl

/-- **In every state the lease reaches thirty seconds beyond the last wake-up.** -/
theorem leased_step {s : Sys} (hgood : Good s.runtime) (op : SysOp) (hI : Leased s) : Leased (sys.step s op) := by
  intro w r hhand
  by_cases hclaim : ∃ w' now c, Claims s op w' now c ∧ c.id = r
  · obtain ⟨w', now, c, hc, rfl⟩ := hclaim
    obtain ⟨v, hv, -, howner, hexp⟩ := view_of_claims hgood hc
    intro u hu _ howner'
    obtain rfl := Option.some.inj (hv.symm.trans hu)
    obtain rfl : w' = w := Option.some.inj (howner.symm.trans howner')
    have hwake : ((sys.step s op).consumers w').lastWake = now := by
      obtain ⟨rfl, hphase, hreply⟩ := hc
      rw [consumer_advance]
      simp only [Sys.advanced, hphase, Phase.call, Consumer.react, hreply]
    rw [hexp, hwake]
  · have hno : ∀ w' now c, Claims s op w' now c → c.id ≠ r := fun w' now c hc hid => hclaim ⟨w', now, c, hc, hid⟩
    have hhand' : (s.consumers w).inHand = some r := by
      rcases inHand_step hhand with h | ⟨now, c, hc, hid⟩
      · exact h
      · exact absurd hid (hno w now c hc)
    have hold := hI w r hhand'
    by_cases hbeat : ∃ now, op = .heartbeat w now
    · obtain ⟨now, rfl⟩ := hbeat
      cases hrun : s.heartbeatRun w with
      | none => rwa [step_heartbeat_none now hrun]
      | some j =>
        obtain rfl : j = r := Option.some.inj ((inHand_of_scope (scope_of_heartbeatRun hrun)).symm.trans hhand')
        rw [consumers_heartbeat now hrun, Function.update_self, lastWake_heartbeatReact]
        exact leasedTo_heartbeat hgood hrun
    · have hphase : (s.consumers w).phase ≠ .claiming := by
        intro h
        rw [inHand_claiming h] at hhand'
        cases hhand'
      rw [lastWake_step hphase hbeat]
      exact leasedTo_step hgood hno (fun now hop => hbeat ⟨now, hop⟩) hold

theorem leased_run (ops : List SysOp) : Leased (sys.run Sys.init ops) := by
  have hleased₀ : Leased Sys.init := by
    intro w r hhand
    cases hhand
  exact sysRefine.inv_run (s := Sys.init) (P := fun _ _ => True) (fun _ op hgood hI _ => leased_step hgood op hI)
    good_default hleased₀ (Machine.along_of_forall (fun _ _ => trivial) _ _)

/-! ## When an owned run is recovered -/

/-- an owned run is leased for thirty seconds from its worker's last wake-up -/
theorem Owns.view {s : Sys} (hI : Leased s) {w : String} {r : UUID} (h : Owns s w r) :
    ∃ v, s.runtime.view r = some v ∧ v.record.status = .running ∧
      v.record.claimExpirationUnixTs = some ((s.consumers w).lastWake + seconds 30) := by
  obtain ⟨hscope, st, hst, hrun, howner⟩ := h
  obtain ⟨v, hv, rfl⟩ := exists_view hst
  exact ⟨v, hv, hrun, hI w r (inHand_of_scope hscope) v hv hrun howner⟩

/-- **An owned run is recovered exactly by a claim after that.** -/
theorem owned_recovers_iff {s : Sys} (hgood : Good s.runtime) (hI : Leased s) {op : SysOp} {w : String} {r : UUID}
    (h : Owns s w r) : Recovers s op r ↔ ∃ w' now, op = .advance w' now ∧ (s.consumers w').phase = .claiming ∧
      (s.consumers w).lastWake + seconds 30 < now := by
  obtain ⟨v, hv, hrun, hexp⟩ := h.view hI
  have hexpired : ∀ now, Expired v.record now ↔ (s.consumers w).lastWake + seconds 30 < now := by
    intro now
    constructor
    · rintro ⟨x, hx, -, hlt⟩
      rwa [Option.some.inj (hexp.symm.trans hx)]
    · exact fun hlt => ⟨_, hexp, by simp [seconds], hlt⟩
  have hcall : ∀ {w' : String} {now : UnixTs}, (s.consumers w').phase = .claiming →
      (SysOp.advance w' now).call s = some (.claimRun w' now) := by
    intro w' now hphase
    change (s.consumers w').phase.call w' now = _
    rw [hphase]
    rfl
  rw [recovers_iff hgood hv]
  constructor
  · rintro ⟨w', now, hmem⟩
    obtain ⟨rfl, hphase⟩ := origin_of_mem hgood hmem
    obtain ⟨call, hcall', hmem'⟩ := mem_decisions.1 hmem
    obtain rfl := Option.some.inj ((hcall hphase).symm.trans hcall')
    obtain ⟨-, u, hu, -, hexpu⟩ := expire_mem_iff.1 hmem'
    obtain rfl := Option.some.inj (hv.symm.trans hu)
    exact ⟨w', now, rfl, hphase, (hexpired now).1 hexpu⟩
  · rintro ⟨w', now, rfl, hphase, hlt⟩
    exact ⟨w', now, mem_decisions.2 ⟨_, hcall hphase,
      expire_mem_iff.2 ⟨⟨rfl, rfl⟩, v, hv, hrun, (hexpired now).2 hlt⟩⟩⟩

/-- **With heartbeat loops on time, no owned run is recovered exactly when every claim comes within the lease of the
loops that already ended.** -/
theorem neverRecovered_iff (ops : List SysOp) (hontime : sys.Along OnTime Sys.init ops) :
    NeverRecovered ops ↔ sys.Along Covered Sys.init ops := by
  constructor
  · intro h
    refine (Machine.along_iff _ _).2 ?_
    intro pre op post hops w' now w r hop hphase howns _
    subst hop
    by_contra hlate
    have hno := (Machine.along_iff _ _).1 h pre _ post hops w r howns
    exact hno ((owned_recovers_iff (sys_good pre) (leased_run pre) howns).2 ⟨w', now, rfl, hphase, not_le.1 hlate⟩)
  · intro h
    refine (Machine.along_iff _ _).2 fun pre op post hops w r howns hrec => ?_
    obtain ⟨w', now, rfl, hphase, hlt⟩ := (owned_recovers_iff (sys_good pre) (leased_run pre) howns).1 hrec
    refine absurd hlt (not_lt.2 ?_)
    cases hactive : ((sys.run Sys.init pre).consumers w).heartbeatActive with
    | true =>
      refine (Machine.along_iff _ _).1 hontime pre _ post hops w r ?_
      rw [Sys.heartbeatRun, if_pos hactive]
      exact howns.1
    | false => exact (Machine.along_iff _ _).1 h pre _ post hops w' now w r rfl hphase howns hactive

/-! ## A loop that goes on, and one that ends -/

/-- `w1` executes run 1 and beats on time; the claim of `w2` leaves the run alone -/
def beatingWorker : List SysOp :=
  [.api (.orchestratorCreateRun 1 "user_1" 10),
   .advance "w1" (seconds 1), .advance "w1" (seconds 1), .advance "w1" (seconds 1), .advance "w1" (seconds 1),
   .heartbeat "w1" (seconds 6), .advance "w2" (seconds 35), .advance "w2" (seconds 35), .advance "w2" (seconds 35)]

/-- the user cancels, the loop of `w1` sees it and ends; the executor's current step takes longer than the lease, and
the claim of `w2` recovers the run -/
def recoveredWhileCancelling : List SysOp :=
  [.api (.orchestratorCreateRun 1 "user_1" 10),
   .advance "w1" (seconds 1), .advance "w1" (seconds 1), .advance "w1" (seconds 1), .advance "w1" (seconds 1),
   .api (.orchestratorCancelRun 1 (seconds 5)), .heartbeat "w1" (seconds 6),
   .advance "w2" (seconds 40), .advance "w2" (seconds 40), .advance "w2" (seconds 40)]

/-- a run of `w1` and `w2` in which `w2` never enters a lease scope -/
def OnlyW1 (ops : List SysOp) : Prop :=
  (∀ op ∈ ops, op.mover = none ∨ op.mover = some "w1" ∨ op.mover = some "w2") ∧
    sys.Along (fun s _ => (s.consumers "w2").phase.scope = none) Sys.init ops

theorem OnlyW1.eq {ops pre post : List SysOp} {op : SysOp} (h : OnlyW1 ops) (hops : ops = pre ++ op :: post)
    {w : String} {r : UUID} (hscope : ((sys.run Sys.init pre).consumers w).phase.scope = some r) : w = "w1" := by
  by_contra hne
  by_cases hw : w = "w2"
  · subst hw
    rw [(Machine.along_iff _ _).1 h.2 pre op post hops] at hscope
    cases hscope
  · have hidle : (sys.run Sys.init pre).consumers w = {} := by
      refine consumers_of_movers fun o ho hmover => ?_
      rcases h.1 o (by simp [hops, ho]) with h | h | h <;> rw [h] at hmover
      · cases hmover
      · exact hne (Option.some.inj hmover).symm
      · exact hw (Option.some.inj hmover).symm
    rw [hidle] at hscope
    cases hscope

theorem onTime_of_onlyW1 {ops : List SysOp} (h : OnlyW1 ops) (hbeat : sys.Along (fun s op =>
      s.heartbeatRun "w1" = none ∨ op.now ≤ (s.consumers "w1").lastWake + seconds 30) Sys.init ops) :
    sys.Along OnTime Sys.init ops := by
  refine (Machine.along_iff _ _).2 fun pre op post hops w r hrun => ?_
  obtain rfl := h.eq hops (scope_of_heartbeatRun hrun)
  rcases (Machine.along_iff _ _).1 hbeat pre op post hops with hnone | hle
  · rw [hnone] at hrun
    cases hrun
  · exact hle

theorem neverRecovered_beating : NeverRecovered beatingWorker := by
  have honly : OnlyW1 beatingWorker := ⟨by simp [beatingWorker, SysOp.mover], by decide +kernel⟩
  refine (neverRecovered_iff beatingWorker (onTime_of_onlyW1 honly (by decide +kernel))).2 ?_
  refine (Machine.along_iff _ _).2 ?_
  intro pre op post hops w' now w r hop _ howns hactive
  subst hop
  have hscope := howns.1
  obtain rfl := honly.eq hops hscope
  have halive : sys.Along (fun s _ => (s.consumers "w1").phase.scope = none ∨
      (s.consumers "w1").heartbeatActive = true) Sys.init beatingWorker := by decide +kernel
  rcases (Machine.along_iff _ _).1 halive pre _ post hops with hnone | halive
  · rw [hnone] at hscope
    cases hscope
  · rw [halive] at hactive
    cases hactive

theorem recoveredWhileCancelling_recovers : (recoveredWhileCancelling.map SysOp.now).Pairwise (· ≤ ·) ∧
    sys.Along OnTime Sys.init recoveredWhileCancelling ∧ ¬ NeverRecovered recoveredWhileCancelling := by
  have honly : OnlyW1 recoveredWhileCancelling := ⟨by simp [recoveredWhileCancelling, SysOp.mover], by decide +kernel⟩
  refine ⟨by simp [recoveredWhileCancelling, SysOp.now, ApiOp.call, StoreOp.now, seconds],
    onTime_of_onlyW1 honly (by decide +kernel), fun h => ?_⟩
  have hlast := (Machine.along_iff _ _).1 h (recoveredWhileCancelling.take 9) (.advance "w2" (seconds 40)) [] rfl
  exact hlast "w1" 1 ⟨rfl, _, rfl, rfl, rfl⟩ (by unfold Recovers; decide +kernel)

end LlmAgent
