/-
Workers under the lifespan of the application (`infrastructure/infra_setup/local_dev.py`, `di/fastapi_lifespan.py`).

`shutdown` asks the consumer to stop and then cancels its task. `shutdown_execution` awaits nothing that suspends, so
the task is cancelled before the executor could return at a checkpoint: the consumer leaves its loop where it stands,
without a terminal write.

- `Consumer.cancelTask`: a `CancelledError` at the await where the consumer stands;
- `lifespans`: the system whose consumers are shut down by their lifespans only;
- `onlyUsersCancel_lifespans`: there a run is CANCELLED only after a user's cancellation was acknowledged;
- `lease_after_shutdown`: the lease of an interrupted run is not renewed any more, and the first claim after it ran out
  takes the run back.
-/
import LlmAgent.Worker.LostLease
import LlmAgent.Worker.UserCancellation

namespace LlmAgent

open Core

/-- the task is cancelled: `finally`, the end of the lease scope, and out of the loop; a task that is over stays so -/
def Consumer.cancelTask (c : Consumer) : Consumer :=
  match c.phase with
  | .stopped => c
  | .crashed _ => c
  | _ => { c with phase := .stopped, runExecutionCtx := none, heartbeatActive := false }

/-- what awaiting the cancelled task raises: `CancelledError` is suppressed, what crashed the loop is not -/
def Consumer.awaitTask (c : Consumer) : Reply :=
  match c.phase with
  | .crashed e => .raised e
  | _ => .returned

inductive LifespanOp where
  | createRun (runId : UUID) (userId : String) (now : UnixTs)
  | cancelRun (runId : UUID) (now : UnixTs)
  | advance (workerId : String) (now : UnixTs)
  | heartbeat (workerId : String) (now : UnixTs)
  | emitEvent (workerId : String) (eventType : String) (payload : List (String × String)) (now : UnixTs)
  | executorEnds (workerId : String) (outcome : Outcome) (now : UnixTs)
  | shutdown (workerId : String) (now : UnixTs)

/-- the step of `sys` that a step other than a shutdown is -/
def LifespanOp.fine : LifespanOp → Option SysOp
  | .createRun runId userId now => some (.api (.orchestratorCreateRun runId userId now))
  | .cancelRun runId now => some (.api (.orchestratorCancelRun runId now))
  | .advance workerId now => some (.advance workerId now)
  | .heartbeat workerId now => some (.heartbeat workerId now)
  | .emitEvent workerId eventType payload now => some (.emitEvent workerId eventType payload now)
  | .executorEnds workerId outcome now => some (.executorEnds workerId outcome now)
  | .shutdown _ _ => none

namespace Sys

/-- the signal after `task.cancel()`: a `wait` that is cancelled clears it -/
def signalAfterCancel (s : Sys) (workerId : String) : Bool :=
  match (s.consumers workerId).phase with
  | .waiting => false
  | _ => s.runtime.runSignal

/-- `LocalDevInfrastructureSetup.shutdown` -/
def shutdown (s : Sys) (workerId : String) : Reply × Sys :=
  let s' := s.shutdownExecution workerId
  ((s'.consumers workerId).awaitTask,
    { s' with runtime := { s'.runtime with runSignal := s'.signalAfterCancel workerId } }.setConsumer workerId
      (s'.consumers workerId).cancelTask)

def lifespanExec (s : Sys) : LifespanOp → Reply × Sys
  | .createRun runId userId now => s.exec (.api (.orchestratorCreateRun runId userId now))
  | .cancelRun runId now => s.exec (.api (.orchestratorCancelRun runId now))
  | .advance workerId now => s.exec (.advance workerId now)
  | .heartbeat workerId now => s.exec (.heartbeat workerId now)
  | .emitEvent workerId eventType payload now => s.exec (.emitEvent workerId eventType payload now)
  | .executorEnds workerId outcome now => s.exec (.executorEnds workerId outcome now)
  | .shutdown workerId _ => s.shutdown workerId

end Sys

/-- **The system under its lifespans.** -/
def lifespans : Machine Sys LifespanOp Reply := ⟨Sys.lifespanExec⟩

section Steps

variable {s : Sys} {op : LifespanOp} {fine : SysOp} {w : String}

theorem lifespan_exec_fine (h : op.fine = some fine) (s : Sys) : lifespans.exec s op = sys.exec s fine := by
  cases op <;> cases h <;> rfl

theorem lifespan_step_fine (h : op.fine = some fine) (s : Sys) : lifespans.step s op = sys.step s fine :=
  congrArg Prod.snd (lifespan_exec_fine h s)

theorem lifespan_shutdown (h : op.fine = none) : ∃ w now, op = .shutdown w now := by
  cases op with
  | shutdown w now => exact ⟨w, now, rfl⟩
  | _ => cases h

/-- a shutdown touches no run -/
theorem performs_shutdown (hgood : Good s.runtime) (w : String) (now : UnixTs) :
    Performs s.runtime (lifespans.step s (.shutdown w now)).runtime [] := performs_signal hgood _

theorem phase_cancelTask (c : Consumer) : c.cancelTask.phase = .stopped ∨ ∃ e, c.cancelTask.phase = .crashed e := by
  unfold Consumer.cancelTask
  split
  · rename_i hphase
    exact Or.inl hphase
  · rename_i e hphase
    exact Or.inr ⟨e, hphase⟩
  · exact Or.inl rfl

theorem scope_cancelTask (c : Consumer) : c.cancelTask.phase.scope = none := by
  rcases phase_cancelTask c with h | ⟨e, h⟩ <;> rw [h] <;> rfl

theorem consumer_shutdown (s : Sys) (w : String) (now : UnixTs) :
    (lifespans.step s (.shutdown w now)).consumers w = ((s.shutdownExecution w).consumers w).cancelTask :=
  setConsumer_self _ _ _

theorem consumer_shutdown_ne (s : Sys) {w w' : String} (now : UnixTs) (h : w' ≠ w) :
    (lifespans.step s (.shutdown w now)).consumers w' = s.consumers w' := by
  change (Sys.setConsumer _ w _).consumers w' = _
  rw [setConsumer_ne _ _ h]
  exact setConsumer_ne _ _ h

end Steps

/-! ## Only users cancel -/

/-- a cancellation of run `r` by a user that answered True -/
def CancelAcknowledged (r : UUID) (s : Sys) (op : LifespanOp) : Prop :=
  ∃ now, op = .cancelRun r now ∧ lifespans.reply s op = .flag true

/-- every intended run has its acknowledged cancellation, and a worker that is to stop works on an intended run -/
structure Traceable (pre : List LifespanOp) (s : Sys) : Prop where
  good : Good s.runtime
  told : Told s
  caused : ∀ r, Caused (lifespans.Occurs (CancelAcknowledged r) Sys.init pre) (s.runtime.view r)

section Traceable

variable {pre : List LifespanOp} {s : Sys} {op : LifespanOp} {fine : SysOp}

theorem intake_fine (h : op.fine = some fine) : fine.Intake := by
  intro r now heq
  subst heq
  cases op <;> cases h

theorem not_shutsDown_fine (h : op.fine = some fine) : ¬ ShutsDownRun s fine := by
  intro hdown
  obtain ⟨w, now, r, rfl, -⟩ := hdown
  cases op <;> cases h

/-- a consumer at `set_cancelled` was told of an intent -/
theorem asked_of_told (h : Told s) (fine : SysOp) : Asked s fine := by
  intro w now r st hop hphase hst hnt
  obtain ⟨v, hv, hint⟩ := h w r (by rw [hphase]; rfl) (Or.inr hphase)
  obtain rfl := Option.some.inj ((record?_of_view hv).symm.trans hst)
  rcases hint with hflag | hcancelled
  · exact hflag
  · rw [hcancelled] at hnt
    exact absurd (by decide) hnt

theorem acknowledged_fine (h : op.fine = some fine) {r : UUID} (hack : Acknowledged r s fine) :
    CancelAcknowledged r s op := by
  obtain ⟨⟨now, heq⟩, hreply⟩ := hack
  have hsame : lifespans.reply s op = sys.reply s fine := congrArg Prod.fst (lifespan_exec_fine h s)
  rcases heq with rfl | rfl | rfl
  · cases op <;> cases h
  · refine ⟨now, ?_, hsame.trans hreply⟩
    cases op <;> cases h
    rfl
  · cases op <;> cases h

/-- a shutdown tells nobody: the consumer leaves its lease scope -/
theorem told_shutdown (hgood : Good s.runtime) (h : Told s) (w : String) (now : UnixTs) :
    Told (lifespans.step s (.shutdown w now)) := by
  intro w' r hscope htold
  have hview : (lifespans.step s (.shutdown w now)).runtime.view = s.runtime.view :=
    (performs_shutdown hgood w now).view
  rw [hview]
  by_cases hw : w' = w
  · subst hw
    rw [consumer_shutdown, scope_cancelTask] at hscope
    cases hscope
  · rw [consumer_shutdown_ne s now hw] at hscope htold
    exact h w' r hscope htold

theorem traceable_step (h : Traceable pre (lifespans.run Sys.init pre)) (op : LifespanOp) :
    Traceable (pre ++ [op]) (lifespans.step (lifespans.run Sys.init pre) op) := by
  have hbefore : ∀ r, Caused (lifespans.Occurs (CancelAcknowledged r) Sys.init (pre ++ [op]))
      ((lifespans.run Sys.init pre).runtime.view r) := by
    intro r v hv hint
    exact (Machine.occurs_snoc _ _ _).2 (Or.inl (h.caused r v hv hint))
  cases hfine : op.fine with
  | some fine =>
    have hstep := lifespan_step_fine hfine (lifespans.run Sys.init pre)
    constructor
    · rw [hstep]
      exact (sys_performs h.good fine).good h.good
    · rw [hstep]
      exact told_step h.good (intake_fine hfine) (not_shutsDown_fine hfine) h.told
    · intro r
      rw [hstep]
      refine caused_step h.good (asked_of_told h.told fine) ?_ (hbefore r)
      intro hack
      exact (Machine.occurs_snoc _ _ _).2 (Or.inr (acknowledged_fine hfine hack))
  | none =>
    obtain ⟨w, now, rfl⟩ := lifespan_shutdown hfine
    have hp := performs_shutdown h.good w now
    have hview : (lifespans.step (lifespans.run Sys.init pre) (.shutdown w now)).runtime.view =
        (lifespans.run Sys.init pre).runtime.view := hp.view
    constructor
    · exact hp.good h.good
    · exact told_shutdown h.good h.told w now
    · intro r
      rw [hview]
      exact hbefore r

theorem traceable_run (ops : List LifespanOp) : Traceable ops (lifespans.run Sys.init ops) := by
  refine Machine.hist_inv (M := lifespans) (J := Traceable) (P := fun _ _ => True) ?_ ?_
    (Machine.along_of_forall (fun _ _ => trivial) _ _)
  · constructor
    · exact good_default
    · intro w r hscope
      cases hscope
    · intro r v hv
      cases hv
  · intro pre op h _
    exact traceable_step h op

end Traceable

/-- **Under the lifespans only users cancel.** Whatever the users, the workers and their lifespans do, a run that is
CANCELLED was cancelled by a user before, and so was every run whose executor is told to stop. -/
theorem onlyUsersCancel_lifespans (ops : List LifespanOp) (r : UUID) :
    ((lifespans.run Sys.init ops).runtime.status? r = some .cancelled →
      lifespans.Occurs (CancelAcknowledged r) Sys.init ops) ∧
    ∀ w, ((lifespans.run Sys.init ops).consumers w).phase.scope = some r →
      ((lifespans.run Sys.init ops).consumers w).runExecutionCtx = some true →
        lifespans.Occurs (CancelAcknowledged r) Sys.init ops := by
  have h := traceable_run ops
  constructor
  · intro hcancelled
    obtain ⟨v, hv, hstatus⟩ := status?_eq_some_iff.1 hcancelled
    exact h.caused r v hv (Or.inr hstatus)
  · intro w hscope hctx
    obtain ⟨v, hv, hint⟩ := h.told w r hscope (Or.inl hctx)
    exact h.caused r v hv hint

/-! ## The lease of an interrupted run -/

/-- the loop is over -/
def Consumer.Over (c : Consumer) : Prop := c.phase = .stopped ∨ ∃ e, c.phase = .crashed e

/-- the decisions of a worker other than `w`, or of none -/
def Act.Without (w : String) : Act → Prop
  | .claim workerId _ => workerId ≠ w
  | .renew workerId _ => workerId ≠ w
  | _ => True

/-- if the run runs for `w`, it did so before, on the same lease -/
def SameLease (w : String) (st st' : RunStatus) : Prop :=
  st'.status = .running → st'.claimedWorker = some w → st.status = .running ∧ st.claimedWorker = some w ∧
    st'.claimExpirationUnixTs = st.claimExpirationUnixTs

section Interrupted

variable {s : Sys} {op : LifespanOp} {w : String} {r : UUID}

theorem Consumer.Over.call {c : Consumer} (h : c.Over) (now : UnixTs) : c.phase.call w now = none := by
  rcases h with h | ⟨e, h⟩ <;> rw [h] <;> rfl

theorem Consumer.Over.scope {c : Consumer} (h : c.Over) : c.phase.scope = none := by
  rcases h with h | ⟨e, h⟩ <;> rw [h] <;> rfl

theorem over_fine {fine : SysOp} (h : (s.consumers w).Over) : ((sys.step s fine).consumers w).Over := by
  rcases consumer_cases s fine w with hc | ⟨now, -, hc⟩ | ⟨now, -, hc⟩ | ⟨now, j, -, hbeat, hc⟩ |
    ⟨outcome, now, -, hc⟩ <;> rw [hc]
  · exact h
  · exact h
  · unfold Sys.advanced
    rw [h.call]
    rcases h with h | ⟨e, h⟩ <;> simp only [Consumer.move, h]
    · exact Or.inl h
    · exact Or.inr ⟨e, h⟩
  · have hscope := scope_of_heartbeatRun hbeat
    rw [h.scope] at hscope
    cases hscope
  · unfold Consumer.executorEnds
    rcases h with h | ⟨e, h⟩ <;> simp only [h]
    · exact Or.inl h
    · exact Or.inr ⟨e, h⟩

/-- **A loop that is over stays over.** -/
theorem over_step (h : (s.consumers w).Over) (op : LifespanOp) : ((lifespans.step s op).consumers w).Over := by
  cases hfine : op.fine with
  | some fine =>
    rw [lifespan_step_fine hfine]
    exact over_fine h
  | none =>
    obtain ⟨w', now, rfl⟩ := lifespan_shutdown hfine
    by_cases hw : w = w'
    · subst hw
      rw [consumer_shutdown]
      exact phase_cancelTask _
    · rw [consumer_shutdown_ne s now hw]
      exact h

/-- a worker whose loop is over decides nothing -/
theorem without_of_over {fine : SysOp} (hgood : Good s.runtime) (h : (s.consumers w).Over) {a : Act}
    (hmem : (r, a) ∈ fine.decisions s) : a.Without w := by
  have horigin := origin_of_mem hgood hmem
  cases a with
  | claim w' now =>
    intro heq
    subst heq
    obtain ⟨c, ⟨-, hphase, -⟩, -⟩ := horigin
    rcases h with h | ⟨e, h⟩ <;> rw [hphase] at h <;> cases h
  | renew w' now =>
    intro heq
    subst heq
    have hscope := scope_of_heartbeatRun horigin.2
    rw [h.scope] at hscope
    cases hscope
  | _ => trivial

theorem sameLease_act {st : RunStatus} {o : Option RunView} {a : Act} (ha : a.Without w)
    (h : ∃ v, o = some v ∧ SameLease w st v.record) (hen : (lifecycle r).Enabled o a) :
    ∃ v, (lifecycle r).apply o a = some v ∧ SameLease w st v.record := by
  obtain ⟨v, rfl, hlease⟩ := h
  have hg : a.Guard v.record := hen
  refine ⟨v.effect a, rfl, ?_⟩
  intro hrunning howner
  cases a with
  | create => exact hg.elim
  | claim w' now => exact absurd (Option.some.inj howner) ha
  | renew w' now => exact absurd (Option.some.inj howner) ha
  | requestCancel => exact hlease hrunning howner
  | loseClaim => exact hlease hrunning howner
  | emit => exact hlease hrunning howner
  | _ => cases hrunning

theorem sameLease_step {st : RunStatus} (hgood : Good s.runtime) (hover : (s.consumers w).Over)
    (h : ∃ v, s.runtime.view r = some v ∧ SameLease w st v.record) (op : LifespanOp) :
    ∃ v, (lifespans.step s op).runtime.view r = some v ∧ SameLease w st v.record := by
  cases hfine : op.fine with
  | some fine =>
    rw [lifespan_step_fine hfine]
    exact (sys_performs hgood fine).keeps (fun _ _ => sameLease_act) (fun _ => without_of_over hgood hover) h
  | none =>
    obtain ⟨w', now, rfl⟩ := lifespan_shutdown hfine
    rw [(performs_shutdown hgood w' now).view]
    exact h

theorem lifespan_good (hgood : Good s.runtime) (op : LifespanOp) : Good (lifespans.step s op).runtime := by
  cases hfine : op.fine with
  | some fine =>
    rw [lifespan_step_fine hfine]
    exact (sys_performs hgood fine).good hgood
  | none =>
    obtain ⟨w, now, rfl⟩ := lifespan_shutdown hfine
    exact (performs_shutdown hgood w now).good hgood

/-- **The first claim after the lease ran out** takes the run back. -/
theorem lost_of_claim (hgood : Good s.runtime) (hover : (s.consumers w).Over) {v : RunView}
    (hv : s.runtime.view r = some v) {w' : String} {t : UnixTs} (hphase : (s.consumers w').phase = .claiming)
    (hexpired : Expired v.record t) : Lost (sys.step s (.advance w' t)) w r := by
  have hp := sys_performs hgood (.advance w' t)
  have hdecisions : (SysOp.advance w' t).decisions s =
      claimPlan s.runtime.view w' t s.runtime.internalRunStorage.keys := by
    simp only [SysOp.decisions, SysOp.call, hphase, Phase.call]
    rfl
  have hne : w' ≠ w := by
    intro heq
    subst heq
    rcases hover with h | ⟨e, h⟩ <;> rw [hphase] at h <;> cases h
  rw [lost_iff]
  by_cases hrunning : v.record.status = .running
  · rw [hdecisions] at hp
    set keys := s.runtime.internalRunStorage.keys
    have hback : NotRunningFor w (recovered s.runtime.view w' t keys r) := by
      rw [recovered_apply _ _ _ s.runtime.internalRunStorage.keys_nodup,
        if_pos ⟨mem_of_view hv, expiredIn_iff.2 ⟨v, hv, hrunning, hexpired⟩⟩, hv]
      intro u hu hown
      obtain rfl := Option.some.inj hu
      cases hown.1
    have hlegal := ((Automaton.legal_append _ _ _ _).1 hp.legal).2
    rw [hp.view, claimPlan, Automaton.run_append]
    refine Automaton.family_keeps (C := fun a => ∀ now, a ≠ .claim w now) (fun _ _ => notRunningFor_act) hlegal ?_ hback
    intro a hmem now ha
    subst ha
    rcases mem_claimTurn.1 hmem with ⟨-, hbad⟩ | ⟨-, hbad⟩
    · cases hbad
    · exact hne (Act.claim.inj hbad).1.symm
  · refine hp.keeps (C := fun a => ∀ now, a ≠ .claim w now) (fun _ _ => notRunningFor_act) ?_ ?_
    · intro a hmem now ha
      subst ha
      exact without_of_over hgood hover hmem rfl
    · intro u hu hown
      obtain rfl := Option.some.inj (hv.symm.trans hu)
      exact hrunning hown.1

end Interrupted

/-- **After a shutdown** the lease of the interrupted run is not renewed: as long as the run still runs for the worker
that was shut down it does so on the lease it had, and the first `claim_run` after this lease ran out takes it back. -/
theorem lease_after_shutdown (pre ops : List LifespanOp) (w : String) (now : UnixTs) {r : UUID} {st : RunStatus}
    (hst : (lifespans.run Sys.init pre).runtime.record? r = some st) :
    let s' := lifespans.run Sys.init (pre ++ .shutdown w now :: ops)
    ∃ st', s'.runtime.record? r = some st' ∧ SameLease w st st' ∧
      ∀ w' t, (s'.consumers w').phase = .claiming → Expired st' t → Lost (lifespans.step s' (.advance w' t)) w r := by
  intro s'
  set s := lifespans.run Sys.init pre
  have hgood : Good s.runtime := (traceable_run pre).good
  obtain ⟨v, hv, rfl⟩ := exists_view hst
  have hrun : s' = lifespans.run (lifespans.step s (.shutdown w now)) ops := by
    change lifespans.run Sys.init (pre ++ .shutdown w now :: ops) = _
    rw [Machine.run_append, Machine.run_cons]
  have hover : ((lifespans.step s (.shutdown w now)).consumers w).Over := by
    rw [consumer_shutdown]
    exact phase_cancelTask _
  have hlease : ∃ v', (lifespans.step s (.shutdown w now)).runtime.view r = some v' ∧
      SameLease w v.record v'.record := by
    rw [(performs_shutdown hgood w now).view]
    exact ⟨v, hv, fun hrunning howner => ⟨hrunning, howner, rfl⟩⟩
  have hall := Machine.run_inv' (M := lifespans) (I := fun s : Sys => Good s.runtime ∧ (s.consumers w).Over ∧
      ∃ v', s.runtime.view r = some v' ∧ SameLease w v.record v'.record)
    (fun s op h => ⟨lifespan_good h.1 op, over_step h.2.1 op, sameLease_step h.1 h.2.1 h.2.2 op⟩)
    ⟨lifespan_good hgood _, hover, hlease⟩ ops
  rw [← hrun] at hall
  obtain ⟨hgood', hover', v', hv', hsame⟩ := hall
  refine ⟨v'.record, record?_of_view hv', hsame, ?_⟩
  intro w' t hphase hexpired
  rw [lifespan_step_fine rfl]
  exact lost_of_claim hgood' hover' hv' hphase hexpired

/-- `w1` executes run 1 when its application shuts down -/
def interrupted : List LifespanOp :=
  [.createRun 1 "user_1" 10, .advance "w1" (seconds 1), .advance "w1" (seconds 1), .advance "w1" (seconds 1),
   .advance "w1" (seconds 1)]

/-- another worker waits until the lease of run 1 ran out, and claims -/
theorem lease_after_shutdown_interrupted :
    Lost (lifespans.step (lifespans.run Sys.init (interrupted ++
      [.shutdown "w1" (seconds 2), .advance "w2" (seconds 3), .advance "w2" (seconds 40)]))
      (.advance "w2" (seconds 40))) "w1" 1 := by
  obtain ⟨st', hst', -, hlost⟩ := lease_after_shutdown interrupted
    [.advance "w2" (seconds 3), .advance "w2" (seconds 40)] "w1" (seconds 2) (r := 1) rfl
  refine hlost "w2" (seconds 40) rfl ?_
  cases hst'
  exact ⟨seconds 31, rfl, by decide, by decide⟩

end LlmAgent
