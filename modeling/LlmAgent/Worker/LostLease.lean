/-
Is a worker that lost its run told to stop?

`heartbeat` answers a run that is not RUNNING with its record, and raises for a run that runs for another worker. The
heartbeat loop cancels the execution context only when the answered record has `cancel_requested`; on the exception it
ends without a word to the executor.

- `Lost`: the stored run is not RUNNING for the worker; `lost_run`: this is for good, as long as the worker stays in its
  lease scope;
- `told_heartbeat_iff`: what one turn of the loop tells;
- `lost_heartbeat_iff`: a worker that lost its run is told to stop exactly when it was before, or the run it lost is not
  RUNNING and carries an intent;
- `reclaimedRun`: the run in which the run goes to another worker and the first one is not told.
-/
import LlmAgent.Worker.Holding

namespace LlmAgent

open Core

/-- the stored run, if any, is not RUNNING for worker `w` -/
def NotRunningFor (w : String) (o : Option RunView) : Prop :=
  ∀ v, o = some v → ¬ (v.record.status = .running ∧ v.record.claimedWorker = some w)

/-- worker `w` lost run `r`: the stored record is not RUNNING with `w` as its worker -/
def Lost (s : Sys) (w : String) (r : UUID) : Prop :=
  ¬ ∃ st, s.runtime.record? r = some st ∧ st.status = .running ∧ st.claimedWorker = some w

theorem lost_iff {s : Sys} {w : String} {r : UUID} : Lost s w r ↔ NotRunningFor w (s.runtime.view r) := by
  constructor
  · intro h v hv hown
    obtain ⟨hrun, howner⟩ := hown
    exact h ⟨v.record, record?_of_view hv, hrun, howner⟩
  · intro h hown
    obtain ⟨st, hst, hrun, howner⟩ := hown
    obtain ⟨v, hv, rfl⟩ := exists_view hst
    exact h v hv ⟨hrun, howner⟩

/-! ## Lost for good -/

/-- only a claim of its own gives a worker a run -/
theorem notRunningFor_act {w : String} {r : UUID} {o : Option RunView} {a : Act} (ha : ∀ now, a ≠ .claim w now)
    (hI : NotRunningFor w o) (hen : (lifecycle r).Enabled o a) : NotRunningFor w ((lifecycle r).apply o a) := by
  refine lifecycle_step (I := fun v => ¬ (v.record.status = .running ∧ v.record.claimedWorker = some w)) ?_ ?_ hI hen
  · intro userId now _ hown
    cases hown.1
  · intro v hv hg hown
    obtain ⟨hrun, howner⟩ := hown
    cases a with
    | create => exact hg.elim
    | claim w' now =>
      obtain rfl : w' = w := Option.some.inj howner
      exact ha now rfl
    | renew w' now =>
      obtain rfl : w' = w := Option.some.inj howner
      exact hv hg
    | requestCancel => exact hv ⟨hrun, howner⟩
    | loseClaim => exact hv ⟨hrun, howner⟩
    | emit => exact hv ⟨hrun, howner⟩
    | _ => cases hrun

theorem lost_step {s : Sys} (hgood : Good s.runtime) {op : SysOp} {w : String} {r : UUID}
    (hbeat : s.heartbeatRun w = some r) (h : Lost s w r) : Lost (sys.step s op) w r := by
  rw [lost_iff] at h ⊢
  refine (sys_performs hgood op).keeps (C := fun a => ∀ now, a ≠ .claim w now) (fun _ _ => notRunningFor_act) ?_ h
  intro a hmem now ha
  subst ha
  -- a worker in its lease scope is not at a claim
  obtain ⟨c, ⟨-, hphase, -⟩, -⟩ := origin_of_mem hgood hmem
  have hscope := scope_of_heartbeatRun hbeat
  rw [hphase] at hscope
  cases hscope

theorem lost_run {s : Sys} (hgood : Good s.runtime) {w : String} {r : UUID} {ops : List SysOp}
    (hbeat : sys.Along (fun s _ => s.heartbeatRun w = some r) s ops) (h : Lost s w r) : Lost (sys.run s ops) w r :=
  sysRefine.inv_run (I := fun s : Sys => Lost s w r) (fun _ _ hgood hI hbeat => lost_step hgood hbeat hI) hgood h hbeat

/-! ## What a turn of the heartbeat loop tells -/

/-- a consumer in its lease scope has its execution context -/
def InContext (c : Consumer) : Prop := ∀ r, c.phase.scope = some r → c.runExecutionCtx ≠ none

theorem Turn.inContext {rt : InMemoryRuntime} {w : String} {now : UnixTs} {c c' : Consumer} (h : Turn rt w now c c')
    (hc : InContext c) : InContext c' := by
  cases h with
  | idle => exact hc
  | execute => exact fun _ _ => by simp
  | observe j hphase => exact fun _ _ => hc j (by rw [hphase]; rfl)
  | check j hphase => exact fun _ _ => hc j (by rw [hphase]; rfl)
  | intent j _ hphase => exact fun _ _ => hc j (by rw [hphase]; rfl)
  | noIntent j _ hphase => exact fun _ _ => hc j (by rw [hphase]; rfl)
  | refused j _ _ hscope => exact fun _ _ => hc j hscope
  | _ => exact fun _ hr => by cases hr

theorem ctx_heartbeatReact_ne_none {c : Consumer} {now : UnixTs} {reply : Reply} (h : c.runExecutionCtx ≠ none) :
    (c.heartbeatReact now reply).runExecutionCtx ≠ none := by
  unfold Consumer.heartbeatReact
  split
  · split
    · simpa [Consumer.cancelCtx] using h
    · exact h
  · exact h
  · exact h

theorem inContext_step {s : Sys} (op : SysOp) (hI : ∀ w, InContext (s.consumers w)) (w : String) :
    InContext ((sys.step s op).consumers w) := by
  rcases consumer_cases s op w with hc | ⟨now, -, hc⟩ | ⟨now, -, hc⟩ | ⟨now, j, -, -, hc⟩ | ⟨outcome, now, -, hc⟩ <;>
    rw [hc]
  · exact hI w
  · exact fun r hr => by simpa [Consumer.shutdownExecution, Consumer.cancelCtx] using hI w r hr
  · exact (turn_advanced s w now).inContext (hI w)
  · intro r hr
    rw [phase_heartbeatReact] at hr
    exact ctx_heartbeatReact_ne_none (hI w r hr)
  · intro r hr
    rw [scope_executorEnds] at hr
    rw [ctx_executorEnds]
    exact hI w r hr

theorem inContext_run (ops : List SysOp) (w : String) : InContext ((sys.run Sys.init ops).consumers w) :=
  Machine.run_inv' (M := sys) (I := fun s : Sys => ∀ w, InContext (s.consumers w)) (fun _ op h => inContext_step op h)
    (fun _ r hr => by cases hr) ops w

/-- **A turn of the loop tells the executor to stop exactly when the answered record has the intent.** -/
theorem told_heartbeat_iff {s : Sys} {w : String} {r : UUID} (now : UnixTs) (hctx : InContext (s.consumers w))
    (hbeat : s.heartbeatRun w = some r) :
    ((sys.step s (.heartbeat w now)).consumers w).runExecutionCtx = some true ↔
      (s.consumers w).runExecutionCtx = some true ∨
        ∃ st, stores.reply s.runtime (.heartbeat r w now) = .status st ∧ st.cancelRequested = true := by
  rw [consumers_heartbeat now hbeat, Function.update_self]
  constructor
  · exact told_heartbeatReact
  · obtain ⟨b, hb⟩ := Option.ne_none_iff_exists'.1 (hctx r (scope_of_heartbeatRun hbeat))
    rintro (htrue | ⟨st, hreply, hflag⟩)
    · unfold Consumer.heartbeatReact
      split
      · split
        · simp [Consumer.cancelCtx, hb]
        · exact htrue
      · exact htrue
      · exact htrue
    · simp [Consumer.heartbeatReact, hreply, hflag, Consumer.cancelCtx, hb]

/-- **A worker that lost its run is told to stop exactly when** its cancellation event was set before, or the run is not
RUNNING and carries an intent: a heartbeat says nothing about a run that runs for another worker, was recovered, or was
finished or cancelled without the intent. -/
theorem lost_heartbeat_iff {pre mid : List SysOp} {w : String} {r : UUID} (now : UnixTs)
    (hlost : Lost (sys.run Sys.init pre) w r)
    (hmid : sys.Along (fun s _ => s.heartbeatRun w = some r) (sys.run Sys.init pre) mid)
    (hbeat : (sys.run Sys.init (pre ++ mid)).heartbeatRun w = some r) :
    ((sys.run Sys.init (pre ++ mid ++ [.heartbeat w now])).consumers w).runExecutionCtx = some true ↔
      ((sys.run Sys.init (pre ++ mid)).consumers w).runExecutionCtx = some true ∨
        ∃ st, (sys.run Sys.init (pre ++ mid)).runtime.record? r = some st ∧ st.status ≠ .running ∧
          st.cancelRequested = true := by
  have hlost' : Lost (sys.run Sys.init (pre ++ mid)) w r := by
    rw [Machine.run_append]
    exact lost_run (sys_good pre) hmid hlost
  rw [Machine.run_snoc, told_heartbeat_iff now (inContext_run _ w) hbeat]
  refine or_congr_right ?_
  rw [lost_iff] at hlost'
  rcases heartbeat_reply (sys_good (pre ++ mid)) r w now with ⟨hv, hreply⟩ | ⟨v, hv, ⟨hs, hreply⟩ | ⟨hs, -, hreply⟩ |
    ⟨hs, ho, -⟩⟩
  · rw [hreply, record?_eq_none_iff.2 hv]
    simp
  · rw [hreply, record?_of_view hv]
    simp [hs]
  · rw [hreply, record?_of_view hv]
    simp [hs]
  · exact absurd ⟨hs, ho⟩ (hlost' v hv)

/-- `w1` stalls while it executes run 1, and `w2` recovers and claims the run -/
def reclaimedRun : List SysOp :=
  [.api (.orchestratorCreateRun 1 "user_1" 10),
   .advance "w1" (seconds 1), .advance "w1" (seconds 1), .advance "w1" (seconds 1), .advance "w1" (seconds 1),
   .advance "w2" (seconds 40), .advance "w2" (seconds 40), .advance "w2" (seconds 40)]

/-- the loop of `w1` is told that the lease is lost, and its executor is not -/
theorem reclaimedRun_not_told : Lost (sys.run Sys.init reclaimedRun) "w1" 1 ∧
    (sys.run Sys.init reclaimedRun).heartbeatRun "w1" = some 1 ∧
    ((sys.run Sys.init (reclaimedRun ++ [.heartbeat "w1" (seconds 41)])).consumers "w1").runExecutionCtx ≠
      some true := by
  refine ⟨?_, by decide +kernel, by decide +kernel⟩
  intro hown
  obtain ⟨st, hst, -, howner⟩ := hown
  have hw2 : ((sys.run Sys.init reclaimedRun).runtime.record? 1).map RunStatus.claimedWorker = some (some "w2") := by
    decide +kernel
  rw [hst, Option.map_some, howner] at hw2
  exact absurd hw2 (by decide)

/-- the user cancels run 1 while `w1` stalls, and the claim of `w2` recovers it and cancels it -/
def cancelledElsewhere : List SysOp :=
  [.api (.orchestratorCreateRun 1 "user_1" 10),
   .advance "w1" (seconds 1), .advance "w1" (seconds 1), .advance "w1" (seconds 1), .advance "w1" (seconds 1),
   .api (.orchestratorCancelRun 1 (seconds 2)),
   .advance "w2" (seconds 40), .advance "w2" (seconds 40), .advance "w2" (seconds 40)]

theorem cancelledElsewhere_told :
    ((sys.run Sys.init (cancelledElsewhere ++ [.heartbeat "w1" (seconds 41)])).consumers "w1").runExecutionCtx =
      some true := by
  have hstored : ((sys.run Sys.init cancelledElsewhere).runtime.record? 1).map
      (fun st => (st.status, st.cancelRequested)) = some (.cancelled, true) := by decide +kernel
  obtain ⟨st, hst, hpair⟩ := Option.map_eq_some_iff.1 hstored
  obtain ⟨hstatus, hflag⟩ := Prod.mk.inj hpair
  have hlost : Lost (sys.run Sys.init cancelledElsewhere) "w1" 1 := by
    intro hown
    obtain ⟨st', hst', hrun, -⟩ := hown
    obtain rfl := Option.some.inj (hst.symm.trans hst')
    cases hstatus.symm.trans hrun
  have hbeat : (sys.run Sys.init (cancelledElsewhere ++ [])).heartbeatRun "w1" = some 1 := by decide +kernel
  have hiff := @lost_heartbeat_iff cancelledElsewhere [] "w1" 1 (seconds 41) hlost trivial hbeat
  rw [List.append_nil] at hiff
  exact hiff.2 (Or.inr ⟨st, hst, by rw [hstatus]; nofun, hflag⟩)

end LlmAgent
