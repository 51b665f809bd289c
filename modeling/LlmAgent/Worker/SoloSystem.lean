/-
One consumer, never shut down, and the orchestrator, as one machine; and what each of its steps can do.

A step is a call of the orchestrator, a step of the consumer's loop, a turn of its heartbeat loop, an event of its
executor, or its finish. The clock reading of each step is arbitrary, so leases may run out at any time. Nothing in
`create_run` suspends between its store operations and its notification, so a call is one step.

- `SoloStep`, `solo_step`: the ways a step can go, guards included;
- `Fits`, `SoleConsumer`: a run is RUNNING exactly while the consumer has it in hand, and is never retried;
- `sole_step`, `sole_run`: this holds in every state of every run.
-/
import LlmAgent.Runs.FailedCalls
import LlmAgent.Worker.AtomicFinish

namespace LlmAgent

open Core

/-! ## The machine -/

inductive SoloOp where
  | createRun (runId : UUID) (userId : String) (now : UnixTs)
  | getRun (runId : UUID)
  | cancelRun (runId : UUID) (now : UnixTs)
  | getEvents (runId : UUID) (afterSequence : Option ℤ)
  | advance (now : UnixTs)
  | heartbeat (now : UnixTs)
  | emitEvent (eventType : String) (payload : List (String × String)) (now : UnixTs)
  | finish (outcome : Outcome) (now : UnixTs)

inductive SoloReply where
  | reply (reply : Reply)
  | events (runEvents : List RunEvent)

/-- the step of consumer `w`, or of the orchestrator, that a step other than a read is -/
def SoloOp.atomic (w : String) : SoloOp → Option AtomicOp
  | .createRun runId userId now => some (.createRun runId userId now)
  | .cancelRun runId now => some (.cancelRun runId now)
  | .advance now => some (.advance w now)
  | .heartbeat now => some (.heartbeat w now)
  | .emitEvent eventType payload now => some (.emitEvent w eventType payload now)
  | .finish outcome now => some (.finish w outcome now)
  | .getRun _ => none
  | .getEvents _ _ => none

namespace Sys

/-- `get_run` -/
def getRun (s : Sys) (runId : UUID) : SoloReply × Sys :=
  match answer .status (getStatus runId) s.runtime with
  | (reply, rt) => (.reply reply, { s with runtime := rt })

/-- `get_events` -/
def getEvents (s : Sys) (runId : UUID) (afterSequence : Option ℤ) : SoloReply × Sys :=
  match (LlmAgent.getEvents runId afterSequence).run s.runtime with
  | .ok runEvents rt => (.events runEvents, { s with runtime := rt })
  | .error e rt => (.reply (.raised e), { s with runtime := rt })

def atomically (s : Sys) (op : AtomicOp) : SoloReply × Sys := (.reply (s.atomicExec op).1, (s.atomicExec op).2)

def soloExec (w : String) (s : Sys) : SoloOp → SoloReply × Sys
  | .createRun runId userId now => s.atomically (.createRun runId userId now)
  | .getRun runId => s.getRun runId
  | .cancelRun runId now => s.atomically (.cancelRun runId now)
  | .getEvents runId afterSequence => s.getEvents runId afterSequence
  | .advance now => s.atomically (.advance w now)
  | .heartbeat now => s.atomically (.heartbeat w now)
  | .emitEvent eventType payload now => s.atomically (.emitEvent w eventType payload now)
  | .finish outcome now => s.atomically (.finish w outcome now)

end Sys

/-- **Consumer `w` alone with the orchestrator.** -/
def soloSys (w : String) : Machine Sys SoloOp SoloReply := ⟨Sys.soloExec w⟩

section Steps

variable {w : String} {s : Sys}

theorem solo_step_atomic {op : SoloOp} {a : AtomicOp} (h : op.atomic w = some a) :
    (soloSys w).step s op = atomicSys.step s a := by
  cases op <;> cases h <;> rfl

/-- a read changes nothing -/
theorem solo_step_read {op : SoloOp} (h : op.atomic w = none) : (soloSys w).step s op = s := by
  cases op with
  | getRun runId =>
    change (s.getRun runId).2 = s
    unfold Sys.getRun
    cases hrec : s.runtime.record? runId with
    | none =>
      have hread : (getStatus runId).run s.runtime = _ := findRun_unknown hrec
      rw [answer_error hread]
    | some st =>
      have hread : (getStatus runId).run s.runtime = _ := findRun_run hrec
      rw [answer_ok hread]
  | getEvents runId afterSequence =>
    change (s.getEvents runId afterSequence).2 = s
    unfold Sys.getEvents
    rcases getEvents_unchanged s.runtime runId afterSequence with ⟨runEvents, hrun⟩ | ⟨e, hrun⟩
    · rw [hrun]
    · rw [hrun]
  | _ => cases h

theorem solo_good_step (hgood : Good s.runtime) (op : SoloOp) : Good ((soloSys w).step s op).runtime := by
  cases hatomic : op.atomic w with
  | none => rwa [solo_step_read hatomic]
  | some a =>
    rw [solo_step_atomic hatomic]
    exact (atomic_performs hgood a).good hgood

theorem solo_good (w : String) (ops : List SoloOp) : Good ((soloSys w).run Sys.init ops).runtime :=
  Machine.run_inv' (M := soloSys w) (I := fun s : Sys => Good s.runtime) (fun _ op h => solo_good_step h op)
    good_default ops

end Steps

/-! ## The invariant -/

/-- the phases of a consumer that is not shut down, its finish being one step, and its execution context -/
def Consumer.AtWork (c : Consumer) : Prop :=
  c.executionAllowed = true ∧
    match c.phase with
    | .looping => c.runExecutionCtx = none
    | .waiting => c.runExecutionCtx = none
    | .claiming => c.runExecutionCtx = none
    | .claimed _ => c.runExecutionCtx = none
    | .executing _ => True
    | _ => False

/-- the record of run `r`: running, for `w`, exactly while `w` has the run in hand, and never retried; if the execution
of it was told to stop, it carries an intent -/
structure FitsRecord (w : String) (hand : Option UUID) (told : Prop) (r : UUID) (st : RunStatus) : Prop where
  fresh : st.retryCount = some 0
  running : st.status = .running ↔ hand = some r
  owner : st.status = .running → st.claimedWorker = some w
  told : hand = some r → told → st.cancelRequested = true

/-- the same for a run, which is in nobody's hand before it exists -/
def Fits (w : String) (hand : Option UUID) (told : Prop) (r : UUID) : Option RunView → Prop
  | none => hand ≠ some r
  | some v => FitsRecord w hand told r v.record

structure SoleConsumer (w : String) (s : Sys) : Prop where
  atWork : (s.consumers w).AtWork
  fits : ∀ r, Fits w (s.consumers w).inHand ((s.consumers w).runExecutionCtx = some true) r (s.runtime.view r)

theorem Fits.mono {w : String} {hand : Option UUID} {told told' : Prop} {r : UUID} {o : Option RunView}
    (h : Fits w hand told r o) (himp : told' → told) : Fits w hand told' r o := by
  cases o with
  | none => exact h
  | some v => exact ⟨h.fresh, h.running, h.owner, fun hr ht => h.told hr (himp ht)⟩

/-- a run that is in hand neither before nor after -/
theorem Fits.other {w : String} {hand hand' : Option UUID} {told told' : Prop} {r : UUID} {o : Option RunView}
    (h : Fits w hand told r o) (hr : hand ≠ some r) (hr' : hand' ≠ some r) : Fits w hand' told' r o := by
  cases o with
  | none => exact hr'
  | some v =>
    exact ⟨h.fresh, h.running.trans ⟨fun heq => absurd heq hr, fun heq => absurd heq hr'⟩, h.owner,
      fun heq => absurd heq hr'⟩

theorem sole_init (w : String) : SoleConsumer w Sys.init where
  atWork := ⟨rfl, rfl⟩
  fits r := by
    have hnone : Sys.init.runtime.view r = none := rfl
    rw [hnone]
    exact nofun

theorem SoleConsumer.fitsRecord {w : String} {s : Sys} (hI : SoleConsumer w s) {r : UUID} {v : RunView}
    (hv : s.runtime.view r = some v) :
    FitsRecord w (s.consumers w).inHand ((s.consumers w).runExecutionCtx = some true) r v.record := by
  have hfits := hI.fits r
  rwa [hv] at hfits

/-! ## What a step can do -/

/-- the steps that change nothing: reads, refused calls, and steps that are not enabled -/
def SoloOp.Idle (w : String) (s : Sys) : SoloOp → Prop
  | .createRun runId _ _ => runId ∈ s.runtime.internalRunStorage
  | .getRun _ => True
  | .cancelRun runId now => ∀ v, s.runtime.view runId = some v → ¬ (Act.requestCancel now).Guard v.record
  | .getEvents _ _ => True
  | .advance _ => ∃ r, (s.consumers w).phase = .executing r
  | .heartbeat _ => s.heartbeatRun w = none
  | .emitEvent _ _ _ => s.executingRun w = none
  | .finish _ _ => s.executingRun w = none

/-- the steps of the system, one constructor for each way they go -/
inductive SoloStep (w : String) (s s' : Sys) : SoloOp → Prop
  | still (op : SoloOp) : op.Idle w s → s' = s → SoloStep w s s' op
  | created (r : UUID) (userId : String) (now : UnixTs) : s.runtime.view r = none →
      s'.runtime.view = Function.update s.runtime.view r
        (some ((RunView.created r userId now).effect (.enqueue now))) →
      s'.consumers w = s.consumers w → SoloStep w s s' (.createRun r userId now)
  | intended (r : UUID) (v : RunView) (now : UnixTs) : s.runtime.view r = some v →
      (Act.requestCancel now).Guard v.record →
      s'.runtime.view = Function.update s.runtime.view r (some (v.effect (.requestCancel now))) →
      s'.consumers w = s.consumers w → SoloStep w s s' (.cancelRun r now)
  | entered (now : UnixTs) : (s.consumers w).phase = .looping → s'.runtime.view = s.runtime.view →
      s'.consumers w = { s.consumers w with phase := .waiting } → SoloStep w s s' (.advance now)
  | woke (now : UnixTs) : (s.consumers w).phase = .waiting → s'.runtime.view = s.runtime.view →
      s'.consumers w = { s.consumers w with phase := .claiming } → SoloStep w s s' (.advance now)
  /-- the claim takes the answered run, cancels intended ones, and leaves none waiting that it could have taken -/
  | claim (now : UnixTs) (claimed : Option ClaimedRun) : (s.consumers w).phase = .claiming →
      stores.reply s.runtime (.claimRun w now) = .claimed claimed →
      (∀ c, claimed = some c → ∃ v, s.runtime.view c.id = some v ∧ (Act.claim w now).Guard v.record ∧
        s'.runtime.view c.id = some (v.effect (.claim w now))) →
      (∀ j, (∀ c, claimed = some c → c.id ≠ j) → s'.runtime.view j = s.runtime.view j ∨
        ∃ v, s.runtime.view j = some v ∧ (Act.drop now).Guard v.record ∧
          s'.runtime.view j = some (v.effect (.drop now))) →
      (claimed = none → ∀ j v, s.runtime.view j = some v → v.record.status = .enqueued →
        v.record.cancelRequested = true) →
      s'.consumers w = (s.consumers w).react now (.claimed claimed) → SoloStep w s s' (.advance now)
  | started (c : ClaimedRun) (now : UnixTs) : (s.consumers w).phase = .claimed c →
      s'.runtime.view = s.runtime.view →
      s'.consumers w =
        { s.consumers w with phase := .executing c.id, runExecutionCtx := some false, heartbeatActive := true } →
      SoloStep w s s' (.advance now)
  | beat (r : UUID) (v : RunView) (now : UnixTs) : (s.consumers w).phase = .executing r →
      s.runtime.view r = some v → (Act.renew w now).Guard v.record →
      s'.runtime.view = Function.update s.runtime.view r (some (v.effect (.renew w now))) →
      s'.consumers w = (s.consumers w).heartbeatReact now (.status ((Act.renew w now).record v.record)) →
      SoloStep w s s' (.heartbeat now)
  | emitted (r : UUID) (v : RunView) (eventType : String) (payload : List (String × String)) (now : UnixTs) :
      (s.consumers w).phase = .executing r → s.runtime.view r = some v →
      s'.runtime.view = Function.update s.runtime.view r (some (v.effect (.emit eventType payload now))) →
      s'.consumers w = s.consumers w → SoloStep w s s' (.emitEvent eventType payload now)
  | finished (r : UUID) (v : RunView) (outcome : Outcome) (now : UnixTs) : (s.consumers w).phase = .executing r →
      s.runtime.view r = some v → v.record.status = .running →
      s'.runtime.view = Function.update s.runtime.view r (some (v.effect
        (finishAct s.runtime r outcome ((s.consumers w).runExecutionCtx = some true) now))) →
      s'.consumers w = (s.consumers w).leave → SoloStep w s s' (.finish outcome now)

section Inversion

variable {w : String} {s : Sys} (hgood : Good s.runtime)
include hgood

theorem step_createRun (r : UUID) (userId : String) (now : UnixTs) :
    SoloStep w s ((soloSys w).step s (.createRun r userId now)) (.createRun r userId now) := by
  by_cases hr : r ∈ s.runtime.internalRunStorage
  · refine .still _ hr ?_
    change { s with runtime := ((StoreOp.orchestratorCreateRun r userId now).exec s.runtime).2 } = s
    simp only [StoreOp.exec, if_pos hr]
  · have hp := exec_performs hgood (.orchestratorCreateRun r userId now)
    have hnone := view_eq_none_iff.2 hr
    rw [StoreOp.decisions, if_neg hr] at hp
    refine .created r userId now hnone ?_ rfl
    refine hp.view.trans ?_
    funext j
    by_cases hj : j = r
    · subst hj
      rw [Automaton.family_run_apply, Automaton.proj_cons_self, Automaton.proj_cons_self, hnone, Function.update_self]
      rfl
    · rw [Automaton.family_run_apply, Automaton.proj_cons_ne _ _ (Ne.symm hj), Automaton.proj_cons_ne _ _ (Ne.symm hj),
        Function.update_of_ne hj]
      rfl

theorem step_cancelRun (r : UUID) (now : UnixTs) :
    SoloStep w s ((soloSys w).step s (.cancelRun r now)) (.cancelRun r now) := by
  have hstep : (soloSys w).step s (.cancelRun r now) =
      { s with runtime := (answer .flag (orchestratorCancelRun r now) s.runtime).2 } := rfl
  rcases orchestratorCancelRun_spec hgood r now with ⟨v, x, rt', hv, hg, hrun, -, hp⟩ | ⟨hno, ⟨e, hrun⟩ | ⟨x, hrun, -⟩⟩
  · rw [hstep, answer_ok hrun]
    exact .intended r v now hv hg (hp.view_one hv) rfl
  · rw [hstep, answer_error hrun]
    exact .still _ hno rfl
  · rw [hstep, answer_ok hrun]
    exact .still _ hno rfl

/-- a claim when nothing is running -/
theorem step_claim (hidle : ∀ r v, s.runtime.view r = some v → v.record.status ≠ .running) (now : UnixTs)
    (hphase : (s.consumers w).phase = .claiming) :
    SoloStep w s ((soloSys w).step s (.advance now)) (.advance now) := by
  obtain ⟨claimed, rt', hrun, hp, hnext, -⟩ := claimRun_spec w now hgood
  set keys := s.runtime.internalRunStorage.keys
  have hnd : keys.Nodup := s.runtime.internalRunStorage.keys_nodup
  have hanswer : answer Reply.claimed (claimRun w now) s.runtime = (.claimed claimed, rt') := answer_ok hrun
  have hstep : (soloSys w).step s (.advance now) = { s with runtime := rt' }.setConsumer w
      ((s.consumers w).react now (.claimed claimed)) := by
    change sys.step s (.advance w now) = _
    rw [step_advance_call (.claimRun w now) (by rw [hphase]; rfl)]
    change { s with runtime := (answer Reply.claimed (claimRun w now) s.runtime).2 }.setConsumer w
      ((s.consumers w).react now (answer Reply.claimed (claimRun w now) s.runtime).1) = _
    rw [hanswer]
  have hquiet : ∀ r ∈ keys, expiredIn s.runtime.view now r = false := by
    intro r _
    refine Bool.eq_false_iff.2 fun hexp => ?_
    obtain ⟨v, hv, hrun, -⟩ := expiredIn_iff.1 hexp
    exact hidle r v hv hrun
  obtain ⟨hrec, hplan⟩ := claimPlan_of_no_recovery w hquiet
  rw [hplan] at hp
  rw [hrec] at hnext
  have hview : ∀ j, rt'.view j = (lifecycle j).run (s.runtime.view j)
      ((if j ∈ droppedRuns s.runtime.view keys then [.drop now] else []) ++
        if nextRunnable s.runtime.view keys = some j then [.claim w now] else []) := by
    intro j
    rw [hp.view_apply, proj_claimTurn _ _ _ hnd]
  rw [hstep]
  refine .claim now claimed hphase (congrArg Prod.fst hanswer) ?_ ?_ ?_ (setConsumer_self _ _ _)
  · rintro c rfl
    have hc : nextRunnable s.runtime.view keys = some c.id := hnext.symm
    obtain ⟨v, hv, hg⟩ := claim_guard_of_nextRunnable hc w now
    refine ⟨v, hv, hg, ?_⟩
    change rt'.view c.id = _
    rw [hview, if_neg (not_dropped_of_nextRunnable hc), if_pos hc, hv]
    rfl
  · intro j hj
    have hno : nextRunnable s.runtime.view keys ≠ some j := by
      intro h
      obtain ⟨c, rfl, hid⟩ := Option.map_eq_some_iff.1 (hnext.trans h)
      exact hj c rfl hid
    have hview := hview j
    rw [if_neg hno, List.append_nil] at hview
    by_cases hdrop : j ∈ droppedRuns s.runtime.view keys
    · obtain ⟨v, hv, hg⟩ := drop_guard_of_dropped hdrop now
      rw [if_pos hdrop, hv] at hview
      exact Or.inr ⟨v, hv, hg, hview⟩
    · rw [if_neg hdrop] at hview
      exact Or.inl hview
  · rintro rfl j v hv hstatus
    have hi := intendedIn_of_nextRunnable hnext.symm (mem_of_view hv) (queuedIn_iff.2 ⟨v, hv, hstatus⟩)
    simpa [intendedIn, hv] using hi

end Inversion

section InversionAtWork

variable {w : String} {s : Sys} (hI : SoleConsumer w s)
include hI

/-- nothing is running while the consumer has nothing in hand -/
theorem SoleConsumer.idle (hhand : (s.consumers w).inHand = none) (r : UUID) (v : RunView)
    (hv : s.runtime.view r = some v) : v.record.status ≠ .running := by
  intro hrun
  have hr := (hI.fitsRecord hv).running.1 hrun
  rw [hhand] at hr
  cases hr

/-- the run that is executed is running, for the consumer -/
theorem SoleConsumer.executing {r : UUID} (hphase : (s.consumers w).phase = .executing r) :
    ∃ v, s.runtime.view r = some v ∧ v.record.status = .running ∧ v.record.claimedWorker = some w := by
  have hhand : (s.consumers w).inHand = some r := inHand_of_scope (by rw [hphase]; rfl)
  cases hv : s.runtime.view r with
  | none =>
    have hfits := hI.fits r
    rw [hv] at hfits
    exact absurd hhand hfits
  | some v =>
    have hrun := (hI.fitsRecord hv).running.2 hhand
    exact ⟨v, rfl, hrun, (hI.fitsRecord hv).owner hrun⟩

/-- a consumer in its lease scope executes -/
theorem SoleConsumer.executing_of_scope {r : UUID} (h : (s.consumers w).phase.scope = some r) :
    (s.consumers w).phase = .executing r := by
  have hwork := hI.atWork.2
  cases hphase : (s.consumers w).phase with
  | executing j =>
    rw [hphase] at h
    exact congrArg Phase.executing (Option.some.inj h)
  | looping => rw [hphase] at h; cases h
  | waiting => rw [hphase] at h; cases h
  | claiming => rw [hphase] at h; cases h
  | claimed c => rw [hphase] at h; cases h
  | _ => rw [hphase] at hwork; exact hwork.elim

variable (hgood : Good s.runtime)
include hgood

theorem step_advance (now : UnixTs) : SoloStep w s ((soloSys w).step s (.advance now)) (.advance now) := by
  have hwork := hI.atWork.2
  have hmove : ∀ hcall : (s.consumers w).phase.call w now = none, (s.consumers w).phase ≠ .waiting →
      (soloSys w).step s (.advance now) = s.setConsumer w (s.consumers w).move :=
    fun hcall hwait => step_advance_move now hcall hwait
  cases hphase : (s.consumers w).phase with
  | looping =>
    have hstep := hmove (by rw [hphase]; rfl) (by rw [hphase]; rintro ⟨⟩)
    simp only [Consumer.move, hphase] at hstep
    rw [if_pos hI.atWork.1] at hstep
    rw [hstep]
    exact .entered now hphase rfl (setConsumer_self _ _ _)
  | waiting =>
    have hstep : (soloSys w).step s (.advance now) =
        { s with runtime := { s.runtime with runSignal := false } }.setConsumer w (s.consumers w).move := by
      change (s.advance w now).2 = _
      simp only [Sys.advance, hphase, Phase.call]
    simp only [Consumer.move, hphase] at hstep
    rw [hstep]
    exact .woke now hphase rfl (setConsumer_self _ _ _)
  | claiming =>
    refine step_claim hgood (fun r v hv => ?_) now hphase
    exact hI.idle (inHand_claiming hphase) r v hv
  | claimed c =>
    have hstep := hmove (by rw [hphase]; rfl) (by rw [hphase]; rintro ⟨⟩)
    simp only [Consumer.move, hphase] at hstep
    rw [if_pos hI.atWork.1] at hstep
    rw [hstep]
    exact .started c now hphase rfl (setConsumer_self _ _ _)
  | executing r =>
    have hstep := hmove (by rw [hphase]; rfl) (by rw [hphase]; rintro ⟨⟩)
    simp only [Consumer.move, hphase] at hstep
    rw [hstep]
    refine .still _ ⟨r, hphase⟩ ?_
    simp only [Sys.setConsumer, Function.update_eq_self]
  | _ => rw [hphase] at hwork; exact hwork.elim

theorem step_heartbeat (now : UnixTs) : SoloStep w s ((soloSys w).step s (.heartbeat now)) (.heartbeat now) := by
  change SoloStep w s (sys.step s (.heartbeat w now)) _
  cases hbeat : s.heartbeatRun w with
  | none => exact .still _ hbeat (step_heartbeat_none now hbeat)
  | some r =>
    have hphase := hI.executing_of_scope (scope_of_heartbeatRun hbeat)
    obtain ⟨v, hv, hrun, howner⟩ := hI.executing hphase
    have hp := sys_performs hgood (.heartbeat w now)
    simp only [SysOp.decisions, SysOp.call, hbeat, Option.map_some, StoreOp.decisions] at hp
    have hlose : taken s.runtime.view r (.loseClaim w now) = [] := by
      refine taken_of_not fun v' hv' hg => ?_
      obtain rfl := Option.some.inj (hv.symm.trans hv')
      exact hg.2 howner
    rw [taken_of_guard (a := .renew w now) hv ⟨hrun, howner⟩, hlose, List.append_nil] at hp
    refine .beat r v now hphase hv ⟨hrun, howner⟩ (hp.view_one hv) ?_
    have hreply : stores.reply s.runtime (.heartbeat r w now) = .status ((Act.renew w now).record v.record) := by
      rcases heartbeat_reply hgood r w now with ⟨hno, -⟩ | ⟨v', hv', ⟨hne, -⟩ | ⟨-, hne, -⟩ | ⟨-, -, hreply⟩⟩
      · rw [hno] at hv
        cases hv
      · obtain rfl := Option.some.inj (hv.symm.trans hv')
        exact absurd hrun hne
      · obtain rfl := Option.some.inj (hv.symm.trans hv')
        exact absurd howner hne
      · obtain rfl := Option.some.inj (hv.symm.trans hv')
        exact hreply
    rw [consumers_heartbeat now hbeat, Function.update_self, hreply]

theorem step_emitEvent (eventType : String) (payload : List (String × String)) (now : UnixTs) :
    SoloStep w s ((soloSys w).step s (.emitEvent eventType payload now)) (.emitEvent eventType payload now) := by
  have hp := sys_performs hgood (.emitEvent w eventType payload now)
  cases hexec : s.executingRun w with
  | none =>
    refine .still _ hexec ?_
    change (s.exec (.emitEvent w eventType payload now)).2 = s
    simp only [Sys.exec, hexec]
  | some r =>
    have hphase : (s.consumers w).phase = .executing r := executing_of_executingRun hexec
    obtain ⟨v, hv, -, -⟩ := hI.executing hphase
    simp only [SysOp.decisions, SysOp.call, hexec, Option.map_some, StoreOp.decisions] at hp
    rw [taken_of_guard (a := .emit eventType payload now) hv trivial] at hp
    refine .emitted r v eventType payload now hphase hv (hp.view_one hv) ?_
    change (s.exec (.emitEvent w eventType payload now)).2.consumers w = _
    simp only [Sys.exec, hexec]
    rfl

/-- an execution that ends is written, and the consumer goes back to its loop -/
theorem step_finish_executing {r : UUID} (hphase : (s.consumers w).phase = .executing r) (outcome : Outcome)
    (now : UnixTs) : ∃ v, s.runtime.view r = some v ∧ v.record.status = .running ∧
      ((soloSys w).step s (.finish outcome now)).runtime.view = Function.update s.runtime.view r (some (v.effect
        (finishAct s.runtime r outcome ((s.consumers w).runExecutionCtx = some true) now))) ∧
      ((soloSys w).step s (.finish outcome now)).consumers w = (s.consumers w).leave := by
  obtain ⟨v, hv, hrun, -⟩ := hI.executing hphase
  have hexec : s.executingRun w = some r := by simp only [Sys.executingRun, hphase]
  set isCancelled : Bool := decide ((s.consumers w).runExecutionCtx = some true)
  have hg : (finishAct s.runtime r outcome isCancelled now).Guard v.record := by
    unfold finishAct
    cases outcome with
    | raised message => exact hrun
    | returned =>
      dsimp only
      split_ifs
      · simp [Act.Guard, hrun, allowed_iff]
      · exact hrun
  have hstep : (soloSys w).step s (.finish outcome now) =
      s.endsWith w ((executeRun r outcome isCancelled now).run s.runtime) := by
    change s.finish w outcome now = _
    simp only [Sys.finish, hexec]
    rfl
  rcases executeRun_spec hgood r outcome isCancelled now with ⟨v', x, rt', hv', -, hrun', -, hp⟩ | ⟨hno, -⟩
  · obtain rfl := Option.some.inj (hv.symm.trans hv')
    rw [hstep, hrun']
    exact ⟨v, hv, hrun, hp.view_one hv, setConsumer_self _ _ _⟩
  · exact absurd hg (hno v hv)

theorem step_finish (outcome : Outcome) (now : UnixTs) :
    SoloStep w s ((soloSys w).step s (.finish outcome now)) (.finish outcome now) := by
  cases hexec : s.executingRun w with
  | none =>
    refine .still _ hexec ?_
    change s.finish w outcome now = s
    simp only [Sys.finish, hexec]
  | some r =>
    have hphase : (s.consumers w).phase = .executing r := executing_of_executingRun hexec
    obtain ⟨v, hv, hrun, hview, hconsumer⟩ := step_finish_executing hI hgood hphase outcome now
    exact .finished r v outcome now hphase hv hrun hview hconsumer

/-- **Every step goes one of these ways.** -/
theorem solo_step (op : SoloOp) : SoloStep w s ((soloSys w).step s op) op := by
  cases op with
  | createRun r userId now => exact step_createRun hgood r userId now
  | getRun r => exact .still _ trivial (solo_step_read rfl)
  | cancelRun r now => exact step_cancelRun hgood r now
  | getEvents r afterSequence => exact .still _ trivial (solo_step_read rfl)
  | advance now => exact step_advance hI hgood now
  | heartbeat now => exact step_heartbeat hI hgood now
  | emitEvent eventType payload now => exact step_emitEvent hI hgood eventType payload now
  | finish outcome now => exact step_finish hI hgood outcome now

end InversionAtWork

/-! ## The invariant is kept -/

section Kept

variable {w : String} {s s' : Sys}

/-- a step that leaves the consumer alone and replaces one run -/
theorem SoleConsumer.update (hI : SoleConsumer w s) {r : UUID} {v : RunView}
    (hview : s'.runtime.view = Function.update s.runtime.view r (some v))
    (hconsumer : s'.consumers w = s.consumers w)
    (hfits : FitsRecord w (s.consumers w).inHand ((s.consumers w).runExecutionCtx = some true) r v.record) :
    SoleConsumer w s' := by
  refine ⟨hconsumer ▸ hI.atWork, ?_⟩
  intro j
  rw [hconsumer, hview]
  by_cases hj : j = r
  · subst hj
    rw [Function.update_self]
    exact hfits
  · rw [Function.update_of_ne hj]
    exact hI.fits j

/-- a step that replaces the run in hand, and puts no other run in hand -/
theorem SoleConsumer.replace (hI : SoleConsumer w s) {r : UUID} {v : RunView}
    (hhand : (s.consumers w).inHand = some r)
    (hview : s'.runtime.view = Function.update s.runtime.view r (some v)) (hwork : (s'.consumers w).AtWork)
    (hothers : ∀ j, j ≠ r → (s'.consumers w).inHand ≠ some j)
    (hfits : FitsRecord w (s'.consumers w).inHand ((s'.consumers w).runExecutionCtx = some true) r v.record) :
    SoleConsumer w s' := by
  refine ⟨hwork, ?_⟩
  intro j
  rw [hview]
  by_cases hj : j = r
  · subst hj
    rw [Function.update_self]
    exact hfits
  · have hno : (s.consumers w).inHand ≠ some j := by
      rw [hhand]
      exact fun h => hj (Option.some.inj h).symm
    rw [Function.update_of_ne hj]
    exact (hI.fits j).other hno (hothers j hj)

/-- a step that leaves the stores alone and the consumer with what it has in hand -/
theorem SoleConsumer.turn (hI : SoleConsumer w s) {c : Consumer} (hview : s'.runtime.view = s.runtime.view)
    (hconsumer : s'.consumers w = c) (hwork : c.AtWork) (hhand : c.inHand = (s.consumers w).inHand)
    (htold : c.runExecutionCtx = some true → (s.consumers w).runExecutionCtx = some true) : SoleConsumer w s' := by
  subst hconsumer
  refine ⟨hwork, ?_⟩
  intro j
  rw [hhand, hview]
  exact (hI.fits j).mono htold

theorem atWork_ctx {c : Consumer} (h : c.AtWork) (hscope : c.phase.scope = none) : c.runExecutionCtx = none := by
  obtain ⟨-, hctx⟩ := h
  cases hphase : c.phase <;> simp only [hphase] at hctx <;> first | exact hctx | skip
  · rw [hphase] at hscope
    cases hscope

theorem atWork_heartbeatReact {c : Consumer} {r : UUID} (h : c.AtWork) (hphase : c.phase = .executing r)
    (now : UnixTs) (reply : Reply) : (c.heartbeatReact now reply).AtWork := by
  refine ⟨(executionAllowed_heartbeatReact c now reply).trans h.1, ?_⟩
  rw [phase_heartbeatReact, hphase]
  trivial

/-- what the end of an execution leaves in the record -/
theorem finishAct_record (rt : InMemoryRuntime) (r : UUID) (outcome : Outcome) (isCancelled : Bool) (now : UnixTs)
    (st : RunStatus) : ((finishAct rt r outcome isCancelled now).record st).status ∈ terminalRunStatuses ∧
      ((finishAct rt r outcome isCancelled now).record st).retryCount = st.retryCount ∧
      ((finishAct rt r outcome isCancelled now).record st).cancelRequested = st.cancelRequested := by
  unfold finishAct
  cases outcome with
  | raised message => exact ⟨by simp [Act.record, terminalRunStatuses], rfl, rfl⟩
  | returned =>
    dsimp only
    split_ifs
    · exact ⟨by simp [Act.record, terminalRunStatuses], rfl, rfl⟩
    · exact ⟨by simp [Act.record, terminalRunStatuses], rfl, rfl⟩

theorem sole_claim (hI : SoleConsumer w s) {now : UnixTs} {claimed : Option ClaimedRun}
    (hphase : (s.consumers w).phase = .claiming)
    (hclaimed : ∀ c, claimed = some c → ∃ v, s.runtime.view c.id = some v ∧ (Act.claim w now).Guard v.record ∧
      s'.runtime.view c.id = some (v.effect (.claim w now)))
    (hothers : ∀ j, (∀ c, claimed = some c → c.id ≠ j) → s'.runtime.view j = s.runtime.view j ∨
      ∃ v, s.runtime.view j = some v ∧ (Act.drop now).Guard v.record ∧ s'.runtime.view j = some (v.effect (.drop now)))
    (hconsumer : s'.consumers w = (s.consumers w).react now (.claimed claimed)) : SoleConsumer w s' := by
  have hctx := atWork_ctx hI.atWork (by rw [hphase]; rfl)
  have hhand := inHand_claiming hphase
  have hafter : (s'.consumers w).AtWork ∧ (s'.consumers w).runExecutionCtx = none ∧
      (s'.consumers w).inHand = claimed.map ClaimedRun.id := by
    rw [hconsumer]
    cases claimed with
    | none =>
      simp only [Consumer.react, hphase]
      exact ⟨⟨hI.atWork.1, hctx⟩, hctx, rfl⟩
    | some c =>
      simp only [Consumer.react, hphase]
      refine ⟨⟨hI.atWork.1, hctx⟩, hctx, ?_⟩
      simp only [Consumer.inHand, hI.atWork.1, if_true]
      rfl
  obtain ⟨hwork', hctx', hhand'⟩ := hafter
  refine ⟨hwork', ?_⟩
  intro j
  rw [hctx', hhand']
  by_cases hj : ∃ c, claimed = some c ∧ c.id = j
  · obtain ⟨c, rfl, rfl⟩ := hj
    obtain ⟨v, hv, hg, hview⟩ := hclaimed c rfl
    rw [hview]
    exact ⟨(hI.fitsRecord hv).fresh, ⟨fun _ => rfl, fun _ => rfl⟩, fun _ => rfl, by simp⟩
  · have hno : claimed.map ClaimedRun.id ≠ some j := fun h => hj (Option.map_eq_some_iff.1 h)
    have hno' : (s.consumers w).inHand ≠ some j := by rw [hhand]; rintro ⟨⟩
    rcases hothers j (fun c hc hid => hj ⟨c, hc, hid⟩) with hview | ⟨v, hv, hg, hview⟩
    · rw [hview]
      exact (hI.fits j).other hno' hno
    · rw [hview]
      exact ⟨(hI.fitsRecord hv).fresh, ⟨by rintro ⟨⟩, fun h => absurd h hno⟩, by rintro ⟨⟩, by simp⟩

theorem sole_beat (hI : SoleConsumer w s) {r : UUID} {v : RunView} {now : UnixTs}
    (hphase : (s.consumers w).phase = .executing r) (hv : s.runtime.view r = some v)
    (hview : s'.runtime.view = Function.update s.runtime.view r (some (v.effect (.renew w now))))
    (hconsumer : s'.consumers w =
      (s.consumers w).heartbeatReact now (.status ((Act.renew w now).record v.record))) : SoleConsumer w s' := by
  have hhand : (s.consumers w).inHand = some r := inHand_of_scope (by rw [hphase]; rfl)
  have hhand' : (s'.consumers w).inHand = some r := by rw [hconsumer, inHand_heartbeatReact, hhand]
  refine hI.replace hhand hview (hconsumer ▸ atWork_heartbeatReact hI.atWork hphase now _) ?_ ?_
  · intro j hj
    rw [hhand']
    exact fun h => hj (Option.some.inj h).symm
  · refine ⟨(hI.fitsRecord hv).fresh, ⟨fun _ => hhand', fun _ => rfl⟩, fun _ => rfl, ?_⟩
    intro _ htold
    rw [hconsumer] at htold
    -- the loop was told before, or this heartbeat answered the intent
    rcases told_heartbeatReact htold with htold | ⟨st, hst, hflag⟩
    · exact (hI.fitsRecord hv).told hhand htold
    · obtain rfl : (Act.renew w now).record v.record = st := Reply.status.inj hst
      exact hflag

/-- the run of an execution that ended is in a terminal status, and in no hand -/
theorem sole_finished (hI : SoleConsumer w s) {r : UUID} {v : RunView} {outcome : Outcome} {now : UnixTs}
    (hphase : (s.consumers w).phase = .executing r) (hv : s.runtime.view r = some v)
    (hview : s'.runtime.view = Function.update s.runtime.view r (some (v.effect
      (finishAct s.runtime r outcome ((s.consumers w).runExecutionCtx = some true) now))))
    (hconsumer : s'.consumers w = (s.consumers w).leave) : SoleConsumer w s' := by
  have hhand : (s.consumers w).inHand = some r := inHand_of_scope (by rw [hphase]; rfl)
  have hnone : (s'.consumers w).inHand = none := by rw [hconsumer]; rfl
  obtain ⟨hterminal, hretry, -⟩ := finishAct_record s.runtime r outcome
    (decide ((s.consumers w).runExecutionCtx = some true)) now v.record
  have hstopped : ∀ st : RunStatus, st.status ∈ terminalRunStatuses → st.status ≠ .running := by
    intro st hst hrunning
    rw [hrunning] at hst
    exact absurd hst (by decide)
  refine hI.replace hhand hview (hconsumer ▸ ⟨hI.atWork.1, rfl⟩) ?_ ?_
  · intro j _
    rw [hnone]
    rintro ⟨⟩
  · rw [hnone]
    exact ⟨hretry.trans (hI.fitsRecord hv).fresh, ⟨fun h => absurd h (hstopped _ hterminal), by rintro ⟨⟩⟩,
      fun h => absurd h (hstopped _ hterminal), by rintro ⟨⟩⟩

/-- **The invariant is kept by every step.** -/
theorem sole_step (hI : SoleConsumer w s) {op : SoloOp} (h : SoloStep w s s' op) : SoleConsumer w s' := by
  cases h with
  | still _ _ heq => exact heq ▸ hI
  | created r userId now hnone hview hconsumer =>
    have hhand := hI.fits r
    rw [hnone] at hhand
    refine hI.update hview hconsumer ⟨rfl, ?_, by rintro ⟨⟩, fun h => absurd h hhand⟩
    exact ⟨by rintro ⟨⟩, fun h => absurd h hhand⟩
  | intended r v now hv hg hview hconsumer =>
    have hfits := hI.fitsRecord hv
    exact hI.update hview hconsumer ⟨hfits.fresh, hfits.running, hfits.owner, fun _ _ => rfl⟩
  | emitted r v eventType payload now hphase hv hview hconsumer =>
    have hfits := hI.fitsRecord hv
    exact hI.update hview hconsumer hfits
  | entered now hphase hview hconsumer =>
    have hctx := atWork_ctx hI.atWork (by rw [hphase]; rfl)
    refine hI.turn hview hconsumer ⟨hI.atWork.1, hctx⟩ ?_ id
    simp only [Consumer.inHand, hphase, Phase.scope]
  | woke now hphase hview hconsumer =>
    have hctx := atWork_ctx hI.atWork (by rw [hphase]; rfl)
    refine hI.turn hview hconsumer ⟨hI.atWork.1, hctx⟩ ?_ id
    simp only [Consumer.inHand, hphase, Phase.scope]
  | started c now hphase hview hconsumer =>
    refine hI.turn hview hconsumer ⟨hI.atWork.1, trivial⟩ ?_ (by rintro ⟨⟩)
    simp only [Consumer.inHand, hphase, Phase.scope, hI.atWork.1, if_true]
  | claim now claimed hphase hreply hclaimed hothers _ hconsumer =>
    exact sole_claim hI hphase hclaimed hothers hconsumer
  | beat r v now hphase hv _ hview hconsumer => exact sole_beat hI hphase hv hview hconsumer
  | finished r v outcome now hphase hv _ hview hconsumer => exact sole_finished hI hphase hv hview hconsumer

theorem sole_run (w : String) (ops : List SoloOp) : SoleConsumer w ((soloSys w).run Sys.init ops) := by
  have hboth := Machine.run_inv' (M := soloSys w) (I := fun s : Sys => Good s.runtime ∧ SoleConsumer w s) ?_
    ⟨good_default, sole_init w⟩ ops
  · exact hboth.2
  · intro s op hI
    obtain ⟨hgood, hI⟩ := hI
    refine ⟨?_, sole_step hI (solo_step hI hgood op)⟩
    exact solo_good_step hgood op

end Kept

end LlmAgent
