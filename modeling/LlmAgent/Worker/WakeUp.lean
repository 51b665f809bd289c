/-
Can an enqueued run be overlooked while the consumer waits?

One signal stands for any number of enqueued runs. Every `wait` clears it, and the loop claims one run for each `wait`:
when a second run is queued at such a claim, it stays behind without a signal.

- `signal_kept`, `signal_created`, `signal_woke`: which steps move the signal;
- `claim_leaves`: a claim leaves a run in the queue exactly when two were there;
- `noLostWakeUp_iff`: the consumer never blocks with a run in the queue if and only if, after each claim that finds two
  runs in the queue and the signal unset, a run is created before the next `wait`.
-/
import LlmAgent.Core.Frame
import LlmAgent.Worker.SingleConsumer

namespace LlmAgent

open Core

/-! ## Store operations leave the signal alone -/

/-- the call does not touch the signal -/
abbrev KeepsSignal {α : Type} (call : StoreM α) : Prop := Keeps InMemoryRuntime.runSignal call

theorem signal_writeRun (r : UUID) (st : RunStatus) : KeepsSignal (writeRun r st) := fun _ => rfl

theorem signal_readRun (r : UUID) : KeepsSignal (readRun r) := by
  refine Keeps.bind Keeps.get fun rt => ?_
  cases rt.internalRunStorage.get? r with
  | none => exact Keeps.throw _
  | some st => exact Keeps.pure _

theorem signal_findRun (r : UUID) : KeepsSignal (findRun r) := by
  refine Keeps.bind Keeps.get fun rt => ?_
  cases rt.internalRunStorage.get? r with
  | none => exact Keeps.throw _
  | some st => exact Keeps.pure _

theorem signal_validate (st : RunStatus) (target : RunStatusCode) : KeepsSignal (validate st target) := by
  unfold validate
  cases runTransitionPolicy.validate st target with
  | error e => exact Keeps.throw _
  | ok _ => exact Keeps.pure _

theorem signal_appendEvent (r : UUID) (eventType : String) (payload : List (String × String)) (now : UnixTs) :
    KeepsSignal (appendEvent r eventType payload now) := by
  refine Keeps.bind Keeps.get fun rt => ?_
  cases rt.internalEventLogs.append r eventType payload now with
  | error e => exact Keeps.throw _
  | ok p => exact Keeps.bind (Keeps.modify fun _ => rfl) fun _ => Keeps.pure _

theorem signal_transitionLocked (r : UUID) (target : RunStatusCode) (request : TransitionRequestParams) :
    KeepsSignal (transitionLocked r target request) :=
  Keeps.bind (signal_readRun r) fun st => Keeps.bind (signal_validate st target) fun _ => signal_writeRun r _

theorem signal_setCancelled (r : UUID) (now : UnixTs) : KeepsSignal (setCancelled r now) :=
  Keeps.bind (signal_transitionLocked r _ _) fun _ => Keeps.bind (signal_appendEvent r _ _ now) fun _ => Keeps.pure _

theorem signal_setSucceeded (r : UUID) (result : PyDict) (now : UnixTs) : KeepsSignal (setSucceeded r result now) :=
  Keeps.bind (signal_transitionLocked r _ _) fun _ => Keeps.bind (signal_appendEvent r _ _ now) fun _ => Keeps.pure _

theorem signal_setFailed (r : UUID) (error : String) (now : UnixTs) : KeepsSignal (setFailed r error now) :=
  Keeps.bind (signal_transitionLocked r _ _) fun _ => Keeps.bind (signal_appendEvent r _ _ now) fun _ => Keeps.pure _

theorem signal_heartbeat (r : UUID) (workerId : String) (now : UnixTs) : KeepsSignal (heartbeat r workerId now) := by
  refine Keeps.bind (signal_readRun r) fun st => Keeps.ite (Keeps.pure _) (Keeps.ite (Keeps.pure _) (Keeps.ite ?_ ?_))
  · exact Keeps.bind (signal_appendEvent r _ _ now) fun _ => Keeps.throw _
  · exact Keeps.bind (signal_writeRun r _) fun _ => Keeps.pure _

theorem signal_recoverIfExpired (workerId : String) (now : UnixTs) (r : UUID) (st : RunStatus) :
    KeepsSignal (recoverIfExpired workerId now r st) := by
  refine Keeps.ite (Keeps.pure _) (Keeps.ite (Keeps.pure _) ?_)
  refine Keeps.bind (signal_appendEvent r _ _ now) fun _ => Keeps.bind (signal_transitionLocked r _ _) fun _ => ?_
  cases st.retryCount with
  | none => exact Keeps.throw _
  | some n => exact Keeps.bind (signal_transitionLocked r _ _) fun _ => signal_transitionLocked r _ _

theorem signal_recoverLoop (workerId : String) (now : UnixTs) (keys : List UUID) :
    KeepsSignal (recoverLoop workerId now keys) := by
  induction keys with
  | nil => exact Keeps.pure _
  | cons r rest ih =>
    refine Keeps.bind Keeps.get fun rt => ?_
    cases rt.internalRunStorage.get? r with
    | none => exact ih
    | some st => exact Keeps.bind (signal_recoverIfExpired workerId now r st) fun _ => ih

theorem signal_claimLoop (workerId : String) (now : UnixTs) (keys : List UUID) :
    KeepsSignal (claimLoop workerId now keys) := by
  induction keys with
  | nil => exact Keeps.pure _
  | cons r rest ih =>
    refine Keeps.bind Keeps.get fun rt => ?_
    cases rt.internalRunStorage.get? r with
    | none => exact ih
    | some st =>
      refine Keeps.ite (Keeps.ite (Keeps.bind (signal_setCancelled r now) fun _ => ih) ?_) ih
      refine Keeps.bind ?_ fun _ => Keeps.pure _
      refine Keeps.bind (signal_transitionLocked r _ _) fun _ => ?_
      exact Keeps.bind (signal_appendEvent r _ _ now) fun _ => Keeps.bind (signal_readRun r) fun _ => Keeps.pure _

theorem signal_claimRun (workerId : String) (now : UnixTs) : KeepsSignal (claimRun workerId now) :=
  Keeps.bind Keeps.get fun _ => Keeps.bind (signal_recoverLoop workerId now _) fun _ =>
    Keeps.bind Keeps.get fun _ => signal_claimLoop workerId now _

theorem signal_executeRun (r : UUID) (outcome : Outcome) (isCancelled : Bool) (now : UnixTs) :
    KeepsSignal (executeRun r outcome isCancelled now) := by
  refine Keeps.tryCatch ?_ fun e => signal_setFailed r _ now
  cases outcome with
  | raised message => exact Keeps.throw _
  | returned =>
    refine Keeps.ite (signal_setCancelled r now) (Keeps.bind (signal_findRun r) fun st => ?_)
    exact Keeps.ite (signal_setCancelled r now) (signal_setSucceeded r _ now)

theorem signal_answer {α : Type} {call : StoreM α} (h : KeepsSignal call) (reply : α → Reply) (rt : InMemoryRuntime) :
    (answer reply call rt).2.runSignal = rt.runSignal := by
  have hrt := h rt
  cases hrun : call.run rt with
  | ok x rt' =>
    rw [hrun] at hrt
    rw [answer_ok hrun]
    exact hrt
  | error e rt' =>
    rw [hrun] at hrt
    rw [answer_error hrun]
    exact hrt

/-! ## The law, and the condition for it -/

/-- a step without API cancellations: creations, executions and steps of the consumer, and reads -/
def SoloOp.Uncancelling : SoloOp → Prop
  | .cancelRun _ _ => False
  | _ => True

/-- the step creates a run (and so notifies) -/
def Creates (s : Sys) (op : SoloOp) : Prop :=
  ∃ r userId now, op = .createRun r userId now ∧ r ∉ s.runtime.internalRunStorage

/-- the consumer enters `wait` -/
def EntersWait (w : String) (s : Sys) (op : SoloOp) : Prop :=
  ∃ now, op = .advance now ∧ (s.consumers w).phase = .looping

/-- whenever the consumer enters `wait` and the signal is not set, no run is enqueued -/
def NoLostWakeUp (w : String) (ops : List SoloOp) : Prop :=
  (soloSys w).Along (fun s op => EntersWait w s op → s.runtime.runSignal = false →
    ∀ r, s.runtime.status? r ≠ some .enqueued) Sys.init ops

/-- the consumer calls `claim_run` while the signal is not set and two runs are enqueued -/
def ClaimsBehind (w : String) (s : Sys) (op : SoloOp) : Prop :=
  ∃ now, op = .advance now ∧ (s.consumers w).phase = .claiming ∧ s.runtime.runSignal = false ∧
    ∃ r r', r ≠ r' ∧ s.runtime.status? r = some .enqueued ∧ s.runtime.status? r' = some .enqueued

/-- after each such claim a run is created before the consumer enters `wait` -/
def Rescued (w : String) (ops : List SoloOp) : Prop :=
  ∀ pre claim mid enter post, ops = pre ++ claim :: (mid ++ enter :: post) →
    ClaimsBehind w ((soloSys w).run Sys.init pre) claim →
    EntersWait w ((soloSys w).run Sys.init (pre ++ claim :: mid)) enter →
    (soloSys w).Occurs Creates ((soloSys w).run Sys.init (pre ++ [claim])) mid

/-! ## How a step moves the signal -/

section Signal

variable {w : String} {s : Sys}

theorem signal_created (hgood : Good s.runtime) {op : SoloOp} (h : Creates s op) :
    ((soloSys w).step s op).runtime.runSignal = true := by
  obtain ⟨r, userId, now, rfl, hfresh⟩ := h
  obtain ⟨rt', hrun, hsignal, -⟩ := orchestratorCreateRun_spec hgood hfresh userId now
  change ((StoreOp.orchestratorCreateRun r userId now).exec s.runtime).2.runSignal = true
  simp only [StoreOp.exec, if_neg hfresh]
  rw [answer_ok hrun]
  exact hsignal

/-- a step of the consumer's loop that does not leave `wait` -/
theorem signal_advance (now : UnixTs) (hwait : (s.consumers w).phase ≠ .waiting) :
    ((soloSys w).step s (.advance now)).runtime.runSignal = s.runtime.runSignal := by
  change (s.advance w now).2.runtime.runSignal = _
  cases hcall : (s.consumers w).phase.call w now with
  | none =>
    simp only [Sys.advance, hcall]
    rfl
  | some call =>
    simp only [Sys.advance, hcall, Sys.perform, runtime_setConsumer]
    cases hphase : (s.consumers w).phase <;> rw [hphase] at hcall <;> cases hcall
    · exact signal_answer (signal_claimRun w now) _ _
    · exact signal_answer (signal_findRun _) _ _
    · exact signal_answer (signal_setCancelled _ now) _ _
    · exact signal_answer (signal_setSucceeded _ _ now) _ _
    · exact signal_answer (signal_setFailed _ _ now) _ _

/-- **Only creations, cancellations and the end of a wait move the signal.** -/
theorem signal_kept {op : SoloOp} (huncancelling : op.Uncancelling) (hcreates : ¬ Creates s op)
    (hwait : (s.consumers w).phase ≠ .waiting) :
    ((soloSys w).step s op).runtime.runSignal = s.runtime.runSignal := by
  cases op with
  | createRun r userId now =>
    have hr : r ∈ s.runtime.internalRunStorage := by
      by_contra hfresh
      exact hcreates ⟨r, userId, now, rfl, hfresh⟩
    change ((StoreOp.orchestratorCreateRun r userId now).exec s.runtime).2.runSignal = _
    simp only [StoreOp.exec, if_pos hr]
  | cancelRun => exact huncancelling.elim
  | getRun r => rw [solo_step_read rfl]
  | getEvents r afterSequence => rw [solo_step_read rfl]
  | advance now => exact signal_advance now hwait
  | heartbeat now =>
    change (s.heartbeat w now).2.runtime.runSignal = _
    unfold Sys.heartbeat
    split
    · rfl
    · exact signal_answer (signal_heartbeat _ w now) _ _
  | emitEvent eventType payload now =>
    change (s.exec (.emitEvent w eventType payload now)).2.runtime.runSignal = _
    simp only [Sys.exec]
    split
    · rfl
    · exact signal_answer (signal_appendEvent _ _ _ now) _ _
  | finish outcome now =>
    change (s.finish w outcome now).runtime.runSignal = _
    unfold Sys.finish
    split
    · rfl
    · rw [runtime_endsWith]
      exact signal_answer (signal_executeRun _ outcome _ now) _ _

end Signal

/-! ## How a step moves the queue -/

/-- some run is enqueued -/
def Queued (s : Sys) : Prop := ∃ r, s.runtime.status? r = some .enqueued

section Queue

variable {w : String} {s s' : Sys} {op : SoloOp}

/-- no run carries an intent -/
def Unintended (s : Sys) : Prop := ∀ r, ¬ Flagged (s.runtime.view r)

theorem queued_congr (h : s'.runtime.view = s.runtime.view) : Queued s' ↔ Queued s := by
  unfold Queued
  simp only [status?_eq_some_iff, h]

/-- a decision that moves a run neither into the queue nor out of it -/
theorem queued_update {r : UUID} {v v' : RunView} (hv : s.runtime.view r = some v)
    (hview : s'.runtime.view = Function.update s.runtime.view r (some v'))
    (hstatus : v'.record.status = .enqueued ↔ v.record.status = .enqueued) : Queued s' ↔ Queued s := by
  unfold Queued
  refine exists_congr fun j => ?_
  rw [status?_eq_some_iff, status?_eq_some_iff, hview]
  by_cases hj : j = r
  · subst hj
    rw [Function.update_self, hv]
    simp only [Option.some.injEq, exists_eq_left']
    exact hstatus
  · rw [Function.update_of_ne hj]

/-- **A claim leaves a run in the queue exactly when two were there.** -/
theorem claim_leaves (hplain : Unintended s) {now : UnixTs} {claimed : Option ClaimedRun}
    (hclaimed : ∀ c, claimed = some c → ∃ v, s.runtime.view c.id = some v ∧ (Act.claim w now).Guard v.record ∧
      s'.runtime.view c.id = some (v.effect (.claim w now)))
    (hothers : ∀ j, (∀ c, claimed = some c → c.id ≠ j) → s'.runtime.view j = s.runtime.view j ∨
      ∃ v, s.runtime.view j = some v ∧ (Act.drop now).Guard v.record ∧ s'.runtime.view j = some (v.effect (.drop now)))
    (hnone : claimed = none → ∀ j v, s.runtime.view j = some v → v.record.status = .enqueued →
      v.record.cancelRequested = true) :
    Queued s' ↔ ∃ r r', r ≠ r' ∧ s.runtime.status? r = some .enqueued ∧ s.runtime.status? r' = some .enqueued := by
  -- with nothing intended, nothing is dropped
  have hsame : ∀ j, (∀ c, claimed = some c → c.id ≠ j) → s'.runtime.view j = s.runtime.view j := by
    intro j hj
    rcases hothers j hj with h | ⟨v, hv, hg, -⟩
    · exact h
    · exact absurd ⟨v, hv, hg.2⟩ (hplain j)
  have hsome : Queued s → ∃ c, claimed = some c := by
    rintro ⟨r, hr⟩
    obtain ⟨v, hv, hstatus⟩ := status?_eq_some_iff.1 hr
    cases hc : claimed with
    | none => exact absurd ⟨v, hv, hnone hc r v hv hstatus⟩ (hplain r)
    | some c => exact ⟨c, rfl⟩
  constructor
  · rintro ⟨r, hr⟩
    obtain ⟨v', hv', hstatus⟩ := status?_eq_some_iff.1 hr
    have hne : ∀ c, claimed = some c → c.id ≠ r := by
      rintro c hc rfl
      obtain ⟨v, -, -, hview⟩ := hclaimed c hc
      obtain rfl := Option.some.inj (hview.symm.trans hv')
      cases hstatus
    rw [hsame r hne] at hv'
    have hqueued : s.runtime.status? r = some .enqueued := status?_eq_some_iff.2 ⟨v', hv', hstatus⟩
    obtain ⟨c, hc⟩ := hsome ⟨r, hqueued⟩
    obtain ⟨v, hv, hg, -⟩ := hclaimed c hc
    exact ⟨c.id, r, hne c hc, status?_eq_some_iff.2 ⟨v, hv, hg.1⟩, hqueued⟩
  · rintro ⟨r, r', hne, hr, hr'⟩
    obtain ⟨c, hc⟩ := hsome ⟨r, hr⟩
    have hstays : ∀ j, c.id ≠ j → s.runtime.status? j = some .enqueued → Queued s' := by
      intro j hj hqueued
      obtain ⟨v, hv, hstatus⟩ := status?_eq_some_iff.1 hqueued
      refine ⟨j, status?_eq_some_iff.2 ⟨v, ?_, hstatus⟩⟩
      rw [hsame j fun c' hc' => by rw [Option.some.inj (hc'.symm.trans hc)]; exact hj, hv]
    by_cases hid : c.id = r
    · exact hstays r' (fun h => hne (hid.symm.trans h)) hr'
    · exact hstays r hid hr

end Queue

/-! ## A run left behind -/

/-- the consumer is on its way from a claim to the next `wait`, the signal is not set, and a run is enqueued -/
structure LeftBehind (w : String) (s : Sys) : Prop where
  silent : s.runtime.runSignal = false
  queued : Queued s
  underway : (s.consumers w).phase ≠ .waiting ∧ (s.consumers w).phase ≠ .claiming

section LeftBehind

variable {w : String} {s s' : Sys} {op : SoloOp}

/-- a renewal, an event and a finish are about a running run, so the queue stays as it is -/
theorem SoloStep.queued_iff (h : SoloStep w s s' op) (huncancelling : op.Uncancelling) (hcreates : ¬ Creates s op)
    (hclaiming : (s.consumers w).phase ≠ .claiming) : Queued s' ↔ Queued s := by
  cases h with
  | still _ _ heq => rw [heq]
  | created r userId now hnone => exact absurd ⟨r, userId, now, rfl, view_eq_none_iff.1 hnone⟩ hcreates
  | intended => exact huncancelling.elim
  | entered now _ hview => exact queued_congr hview
  | woke now _ hview => exact queued_congr hview
  | started c now _ hview => exact queued_congr hview
  | claim now claimed hphase => exact absurd hphase hclaiming
  | emitted r v eventType payload now _ hv hview => exact queued_update hv hview Iff.rfl
  | beat r v now _ hv hg hview =>
    refine queued_update hv hview (iff_of_false (by nofun) ?_)
    rw [hg.1]
    decide
  | finished r v outcome now _ hv hrun hview =>
    refine queued_update hv hview (iff_of_false ?_ (by rw [hrun]; decide))
    obtain ⟨hterminal, -, -⟩ := finishAct_record s.runtime r outcome
      (decide ((s.consumers w).runExecutionCtx = some true)) now v.record
    intro hqueued
    change ((finishAct s.runtime r outcome _ now).record v.record).status = .enqueued at hqueued
    rw [hqueued] at hterminal
    exact absurd hterminal (by decide)

/-- where a step leads that does not enter or leave `wait`, nor claims -/
theorem SoloStep.underway (h : SoloStep w s s' op) (henters : ¬ EntersWait w s op)
    (hphase : (s.consumers w).phase ≠ .waiting ∧ (s.consumers w).phase ≠ .claiming) :
    (s'.consumers w).phase ≠ .waiting ∧ (s'.consumers w).phase ≠ .claiming := by
  cases h with
  | still _ _ heq => rwa [heq]
  | created _ _ _ _ _ hc => rwa [hc]
  | intended _ _ _ _ _ _ hc => rwa [hc]
  | emitted _ _ _ _ _ _ _ _ hc => rwa [hc]
  | entered now hloop => exact absurd ⟨now, rfl, hloop⟩ henters
  | woke now hwait => exact absurd hwait hphase.1
  | claim now _ hclaim => exact absurd hclaim hphase.2
  | started c now _ _ hc => rw [hc]; exact ⟨nofun, nofun⟩
  | beat r v now _ _ _ _ hc => rw [hc, phase_heartbeatReact]; exact hphase
  | finished r v outcome now _ _ _ _ hc => rw [hc]; exact ⟨nofun, nofun⟩

/-- only a claim leads the consumer from its wait or claim onto that way -/
theorem SoloStep.claims (h : SoloStep w s s' op)
    (hphase : ¬ ((s.consumers w).phase ≠ .waiting ∧ (s.consumers w).phase ≠ .claiming))
    (hphase' : (s'.consumers w).phase ≠ .waiting ∧ (s'.consumers w).phase ≠ .claiming) :
    ∃ now, op = .advance now ∧ (s.consumers w).phase = .claiming := by
  cases h with
  | still _ _ heq => rw [heq] at hphase'; exact absurd hphase' hphase
  | created _ _ _ _ _ hc => rw [hc] at hphase'; exact absurd hphase' hphase
  | intended _ _ _ _ _ _ hc => rw [hc] at hphase'; exact absurd hphase' hphase
  | emitted _ _ _ _ _ _ _ _ hc => rw [hc] at hphase'; exact absurd hphase' hphase
  | beat r v now _ _ _ _ hc => rw [hc, phase_heartbeatReact] at hphase'; exact absurd hphase' hphase
  | entered now _ _ hc => rw [hc] at hphase'; exact absurd rfl hphase'.1
  | woke now _ _ hc => rw [hc] at hphase'; exact absurd rfl hphase'.2
  | started c now hclaimed => rw [hclaimed] at hphase; exact absurd ⟨nofun, nofun⟩ hphase
  | finished r v outcome now hexec => rw [hexec] at hphase; exact absurd ⟨nofun, nofun⟩ hphase
  | claim now _ hclaiming => exact ⟨now, rfl, hclaiming⟩

/-- after a claim the consumer is on its way -/
theorem underway_claim {now : UnixTs} {claimed : Option ClaimedRun} (hphase : (s.consumers w).phase = .claiming)
    (hconsumer : s'.consumers w = (s.consumers w).react now (.claimed claimed)) :
    (s'.consumers w).phase ≠ .waiting ∧ (s'.consumers w).phase ≠ .claiming := by
  rw [hconsumer]
  cases claimed with
  | none => simp only [Consumer.react, hphase]; exact ⟨by rintro ⟨⟩, by rintro ⟨⟩⟩
  | some c => simp only [Consumer.react, hphase]; exact ⟨by rintro ⟨⟩, by rintro ⟨⟩⟩

end LeftBehind

/-! ## Runs -/

section Runs

variable {w : String} {ops : List SoloOp} (hops : ∀ op ∈ ops, op.Uncancelling)
include hops

/-- without cancellations no run carries an intent -/
theorem unintended_run : Unintended ((soloSys w).run Sys.init ops) := by
  intro r hflag
  obtain ⟨pre, op, post, hsplit, now, rfl, -⟩ := (flagged_iff w ops r).1 hflag
  exact hops (.cancelRun r now) (by simp [hsplit])

/-- the claim after the steps `ops` -/
theorem claim_queued (now : UnixTs) (hphase : (((soloSys w).run Sys.init ops).consumers w).phase = .claiming) :
    let s := (soloSys w).run Sys.init ops
    let s' := (soloSys w).step s (.advance now)
    (Queued s' ↔ ∃ r r', r ≠ r' ∧ s.runtime.status? r = some .enqueued ∧ s.runtime.status? r' = some .enqueued) ∧
      (s'.consumers w).phase ≠ .waiting ∧ (s'.consumers w).phase ≠ .claiming := by
  intro s s'
  have hstep : SoloStep w s s' (.advance now) := solo_step (sole_run w ops) (solo_good w ops) (.advance now)
  have hplain : Unintended s := unintended_run hops
  change (s.consumers w).phase = .claiming at hphase
  clear_value s s'
  cases hstep with
  | claim _ claimed _ _ hclaimed hothers hnone hconsumer =>
    exact ⟨claim_leaves hplain hclaimed hothers hnone, underway_claim hphase hconsumer⟩
  | still _ hidle =>
    obtain ⟨r, hbad⟩ := hidle
    rw [hphase] at hbad
    cases hbad
  | entered _ hbad => rw [hphase] at hbad; cases hbad
  | woke _ hbad => rw [hphase] at hbad; cases hbad
  | started c _ hbad => rw [hphase] at hbad; cases hbad

/-- a run that was left behind is still there when the consumer enters `wait` -/
theorem leftBehind_run {s : Sys} (hgood : Good s.runtime) (hI : SoleConsumer w s) (h : LeftBehind w s)
    (hcreates : (soloSys w).Along (fun s op => ¬ Creates s op) s ops)
    (hlaw : (soloSys w).Along (fun s op => EntersWait w s op → s.runtime.runSignal = false →
      ∀ r, s.runtime.status? r ≠ some .enqueued) s ops) : LeftBehind w ((soloSys w).run s ops) := by
  have hall := ((Machine.along_of_mem (M := soloSys w) hops s).and hcreates).and hlaw
  refine (Machine.run_inv (M := soloSys w) (I := fun s : Sys => Good s.runtime ∧ SoleConsumer w s ∧ LeftBehind w s)
    ?_ ⟨hgood, hI, h⟩ hall).2.2
  intro s op hs hop
  obtain ⟨hgood, hI, h⟩ := hs
  obtain ⟨⟨huncancelling, hcreates⟩, hlaw⟩ := hop
  have hstep := solo_step hI hgood op
  have henters : ¬ EntersWait w s op := by
    intro henters
    obtain ⟨r, hr⟩ := h.queued
    exact hlaw henters h.silent r hr
  refine ⟨solo_good_step hgood op, sole_step hI hstep, ?_, ?_, hstep.underway henters h.underway⟩
  · rw [signal_kept huncancelling hcreates h.underway.1, h.silent]
  · exact (hstep.queued_iff huncancelling hcreates h.underway.2).2 h.queued

end Runs

/-- some claim left a run behind, and none was created since -/
def Stale (w : String) (ops : List SoloOp) : Prop :=
  ∃ pre claim mid, ops = pre ++ claim :: mid ∧ ClaimsBehind w ((soloSys w).run Sys.init pre) claim ∧
    ¬ (soloSys w).Occurs Creates ((soloSys w).run Sys.init (pre ++ [claim])) mid

/-- on the way from a claim to the next `wait`: the signal is set, or the queue is empty, or a run was left behind -/
def Accounted (w : String) (ops : List SoloOp) (s : Sys) : Prop :=
  (s.consumers w).phase ≠ .waiting ∧ (s.consumers w).phase ≠ .claiming →
    s.runtime.runSignal = true ∨ ¬ Queued s ∨ Stale w ops

theorem stale_snoc {w : String} {ops : List SoloOp} {op : SoloOp} (h : Stale w ops)
    (hcreates : ¬ Creates ((soloSys w).run Sys.init ops) op) : Stale w (ops ++ [op]) := by
  obtain ⟨pre, claim, mid, rfl, hclaim, hno⟩ := h
  refine ⟨pre, claim, mid ++ [op], by simp, hclaim, ?_⟩
  rw [Machine.occurs_snoc, not_or]
  refine ⟨hno, ?_⟩
  rw [← Machine.run_append]
  simpa using hcreates

theorem accounted_step {w : String} {ops : List SoloOp} {op : SoloOp} (hops : ∀ o ∈ ops ++ [op], o.Uncancelling)
    (h : Accounted w ops ((soloSys w).run Sys.init ops)) :
    Accounted w (ops ++ [op]) ((soloSys w).run Sys.init (ops ++ [op])) := by
  have hgood := solo_good w ops
  have hops' : ∀ o ∈ ops, o.Uncancelling := fun o ho => hops o (by simp [ho])
  have huncancelling : op.Uncancelling := hops op (by simp)
  have hstep := solo_step (sole_run w ops) hgood op
  rw [Machine.run_snoc]
  intro hphase'
  by_cases hcreates : Creates ((soloSys w).run Sys.init ops) op
  · exact Or.inl (signal_created hgood hcreates)
  by_cases hphase : (((soloSys w).run Sys.init ops).consumers w).phase ≠ .waiting ∧
      (((soloSys w).run Sys.init ops).consumers w).phase ≠ .claiming
  · -- the signal and the queue stay as they are
    rw [signal_kept huncancelling hcreates hphase.1, hstep.queued_iff huncancelling hcreates hphase.2]
    exact (h hphase).imp_right (Or.imp_right fun hstale => stale_snoc hstale hcreates)
  · have hclaim : ∃ now, op = .advance now ∧ (((soloSys w).run Sys.init ops).consumers w).phase = .claiming :=
      hstep.claims hphase hphase'
    obtain ⟨now, rfl, hclaiming⟩ := hclaim
    obtain ⟨hqueued, -⟩ := claim_queued hops' now hclaiming
    rw [signal_advance now (by rw [hclaiming]; nofun), hqueued]
    cases hsignal : ((soloSys w).run Sys.init ops).runtime.runSignal with
    | true => exact Or.inl rfl
    | false =>
      refine Or.inr (or_iff_not_imp_left.2 fun htwo => ?_)
      exact ⟨ops, .advance now, [], rfl, ⟨now, rfl, hclaiming, hsignal, not_not.1 htwo⟩, Machine.not_occurs_nil _⟩

theorem accounted_run {w : String} {ops : List SoloOp} (hops : ∀ op ∈ ops, op.Uncancelling) :
    Accounted w ops ((soloSys w).run Sys.init ops) := by
  induction ops using List.reverseRecOn with
  | nil =>
    intro _
    refine Or.inr (Or.inl ?_)
    rintro ⟨r, hr⟩
    cases hr
  | append_singleton pre op ih => exact accounted_step hops (ih fun o ho => hops o (by simp [ho]))

/-- **No lost wake-up, exactly when every run left behind is rescued by a creation.** -/
theorem noLostWakeUp_iff (w : String) (ops : List SoloOp) (hops : ∀ op ∈ ops, op.Uncancelling) :
    NoLostWakeUp w ops ↔ Rescued w ops := by
  constructor
  · intro hlaw pre claim mid enter post hsplit hclaim henter
    subst hsplit
    by_contra hno
    obtain ⟨now, rfl, hclaiming, hsignal, htwo⟩ := hclaim
    have hpre : ∀ op ∈ pre, op.Uncancelling := fun op ho => hops op (by simp [ho])
    have hmid : ∀ op ∈ mid, op.Uncancelling := fun op ho => hops op (by simp [ho])
    obtain ⟨hqueued, hunderway⟩ := claim_queued hpre now hclaiming
    rw [NoLostWakeUp, List.append_cons, Machine.along_append] at hlaw
    obtain ⟨hlawMid, hlawEnter, -⟩ := (Machine.along_append _ _ _).1 hlaw.2
    have hleft : LeftBehind w ((soloSys w).run Sys.init (pre ++ [.advance now])) := by
      rw [Machine.run_snoc]
      refine ⟨?_, hqueued.2 htwo, hunderway⟩
      rw [signal_advance now (by rw [hclaiming]; nofun), hsignal]
    have hleft' := leftBehind_run hmid (solo_good w _) (sole_run w _) hleft ((Machine.not_occurs_iff _ _).1 hno) hlawMid
    rw [List.append_cons, Machine.run_append] at henter
    obtain ⟨r, hr⟩ := hleft'.queued
    exact hlawEnter henter hleft'.silent r hr
  · intro hrescued
    refine (Machine.along_iff _ _).2 ?_
    intro pre enter post hsplit henter hsignal r hr
    have hpre : ∀ op ∈ pre, op.Uncancelling := fun op ho => hops op (by simp [hsplit, ho])
    obtain ⟨now, -, hphase⟩ := id henter
    have hunderway : (((soloSys w).run Sys.init pre).consumers w).phase ≠ .waiting ∧
        (((soloSys w).run Sys.init pre).consumers w).phase ≠ .claiming := by
      rw [hphase]
      exact ⟨nofun, nofun⟩
    rcases accounted_run hpre hunderway with h | h | ⟨before, claim, mid, rfl, hclaim, hno⟩
    · rw [hsignal] at h
      cases h
    · exact h ⟨r, hr⟩
    · exact hno (hrescued before claim mid enter post (by simp [hsplit]) hclaim henter)

/-- the third run is created while the first is executed, so its notification also serves the second -/
def createdMeanwhile : List SoloOp :=
  [.createRun 1 "user_1" 10, .createRun 2 "user_1" 20, .advance (seconds 1), .advance (seconds 1),
   .advance (seconds 1), .createRun 3 "user_1" (seconds 1), .advance (seconds 1), .finish .returned (seconds 2),
   .advance (seconds 2)]

theorem createdMeanwhile_rescued : Rescued "w1" createdMeanwhile := by
  refine (noLostWakeUp_iff "w1" createdMeanwhile (by simp [createdMeanwhile, SoloOp.Uncancelling])).1 ?_
  refine ⟨?_, ?_, ?_, ?_, ?_, ?_, ?_, ?_, ?_, trivial⟩
  all_goals
    rintro ⟨now, hop, hphase⟩ hsignal
    first
      | cases hop; done
      | cases hphase; done
      | cases hsignal

/-- two runs are created before the consumer wakes: it claims and finishes the first, and goes to `wait` with the second
in the queue and the signal unset -/
def twoAtOnce : List SoloOp :=
  [.createRun 1 "user_1" 10, .createRun 2 "user_1" 20, .advance (seconds 1), .advance (seconds 1),
   .advance (seconds 1), .advance (seconds 1), .finish .returned (seconds 2), .advance (seconds 2)]

theorem twoAtOnce_waits : ¬ ∀ w ops, (∀ op ∈ ops, op.Uncancelling) → NoLostWakeUp w ops := by
  intro h
  have hlaw := (Machine.along_iff _ _).1 (h "w1" twoAtOnce (by simp [twoAtOnce, SoloOp.Uncancelling]))
  exact hlaw (twoAtOnce.take 7) (.advance (seconds 2)) [] rfl ⟨_, rfl, rfl⟩ rfl 2 rfl

end LlmAgent
