/-
Does the consumer loop survive every run it executes?

The exception handler of `execute_run` reports a failure with `set_failed`, which validates the transition itself: when
the run is no longer RUNNING, it raises, and the exception leaves `execute_run` and ends `consume_and_execute_loop`.

- `Reportable`: the handler finds its run RUNNING;
- `crashed_step`: a consumer crashes exactly in a handler that does not;
- `loopSurvives_iff`: all loops survive exactly the runs whose steps are reportable;
- `finishedElsewhere`: the run in which the loop ends with a `ValueError`;
- `reportable_of_undisturbed`: steps are reportable as long as nobody else takes a run in hand out of RUNNING.
-/
import LlmAgent.Worker.Holding

namespace LlmAgent

open Core

/-- in every state of the run no exception has left `execute_run`, and a loop that ended was shut down -/
def LoopSurvives (ops : List SysOp) : Prop :=
  ∀ pre post, ops = pre ++ post → ∀ w, (∀ e, ((sys.run Sys.init pre).consumers w).phase ≠ .crashed e) ∧
    (((sys.run Sys.init pre).consumers w).phase = .stopped → ∃ now, SysOp.shutdownExecution w now ∈ pre)

/-- a consumer whose handler calls `set_failed` finds its run RUNNING -/
def Reportable (s : Sys) (op : SysOp) : Prop :=
  ∀ w now r message, op = .advance w now → (s.consumers w).phase = .failing r message →
    s.runtime.status? r = some .running

/-! ## What one step does to the loop -/

theorem setFailed_raises_iff {rt : InMemoryRuntime} (hgood : Good rt) (r : UUID) (message : String) (now : UnixTs) :
    (∃ e, stores.reply rt (.setFailed r message now) = .raised e) ↔ rt.status? r ≠ some .running := by
  rw [ne_eq, status?_eq_some_iff]
  simp only [not_exists, not_and]
  exact (setFailed_spec hgood r now message).raised_iff

/-- a step of its loop crashes a consumer only in the handler -/
theorem Turn.crashed {rt : InMemoryRuntime} {w : String} {now : UnixTs} {c c' : Consumer} (h : Turn rt w now c c')
    {e : PyError} (hcrash : c'.phase = .crashed e) : c.phase = .crashed e ∨ ∃ r message,
      c.phase = .failing r message ∧ ∃ e', stores.reply rt (.setFailed r message now) = .raised e' := by
  cases h with
  | idle => exact Or.inl hcrash
  | crash r message e' hphase hreply => exact Or.inr ⟨r, message, hphase, e', hreply⟩
  | _ => cases hcrash

/-- and stops it only when execution is no longer allowed -/
theorem Turn.stopped {rt : InMemoryRuntime} {w : String} {now : UnixTs} {c c' : Consumer} (h : Turn rt w now c c')
    (hstop : c'.phase = .stopped) : c.phase = .stopped ∨ c.executionAllowed = false := by
  cases h with
  | idle => exact Or.inl hstop
  | stop _ hallowed => exact Or.inr hallowed
  | _ => cases hstop

theorem Turn.executionAllowed {rt : InMemoryRuntime} {w : String} {now : UnixTs} {c c' : Consumer}
    (h : Turn rt w now c c') : c'.executionAllowed = c.executionAllowed := by
  cases h <;> rfl

/-- a handler that finds its run no longer RUNNING crashes the consumer -/
theorem crashed_of_unreportable {s : Sys} (hgood : Good s.runtime) {w : String} (now : UnixTs) {r : UUID}
    {message : String} (hphase : (s.consumers w).phase = .failing r message)
    (hstatus : s.runtime.status? r ≠ some .running) :
    ∃ e, ((sys.step s (.advance w now)).consumers w).phase = .crashed e := by
  obtain ⟨e, hreply⟩ := (setFailed_raises_iff hgood r message now).2 hstatus
  refine ⟨e, ?_⟩
  rw [consumer_advance]
  simp only [Sys.advanced, hphase, Phase.call, Consumer.react, hreply]
  rfl

/-- where a consumer stands after the run `pre`, as long as every step was reportable -/
structure Standing (w : String) (pre : List SysOp) (c : Consumer) : Prop where
  intact : ∀ e, c.phase ≠ .crashed e
  stopped : c.phase = .stopped → c.executionAllowed = false
  asked : c.executionAllowed = false → ∃ now, SysOp.shutdownExecution w now ∈ pre

/-- **A reportable step leaves every consumer standing.** -/
theorem standing_step {s : Sys} (hgood : Good s.runtime) {op : SysOp} (hrep : Reportable s op) {w : String}
    {pre : List SysOp} (hI : Standing w pre (s.consumers w)) :
    Standing w (pre ++ [op]) ((sys.step s op).consumers w) := by
  have hasked : (s.consumers w).executionAllowed = false → ∃ now, SysOp.shutdownExecution w now ∈ pre ++ [op] := by
    intro h
    obtain ⟨now, hmem⟩ := hI.asked h
    exact ⟨now, List.mem_append_left _ hmem⟩
  rcases consumer_cases s op w with hc | ⟨now, rfl, hc⟩ | ⟨now, rfl, hc⟩ | ⟨now, j, rfl, -, hc⟩ |
    ⟨outcome, now, rfl, hc⟩ <;> rw [hc]
  · exact ⟨hI.intact, hI.stopped, hasked⟩
  · exact ⟨hI.intact, fun _ => rfl, fun _ => ⟨now, by simp⟩⟩
  · have hturn := turn_advanced s w now
    refine ⟨fun e he => ?_, fun hstop => ?_, fun hallowed => hasked (hturn.executionAllowed ▸ hallowed)⟩
    · rcases hturn.crashed he with h | ⟨r, message, hphase, hraised⟩
      · exact hI.intact e h
      · exact (setFailed_raises_iff hgood r message now).1 hraised (hrep w now r message rfl hphase)
    · rw [hturn.executionAllowed]
      rcases hturn.stopped hstop with h | h
      · exact hI.stopped h
      · exact h
  · refine ⟨?_, ?_, ?_⟩
    · rw [phase_heartbeatReact]; exact hI.intact
    · rw [phase_heartbeatReact, executionAllowed_heartbeatReact]; exact hI.stopped
    · rw [executionAllowed_heartbeatReact]; exact hasked
  · refine ⟨fun e he => ?_, fun hstop => ?_, ?_⟩
    · rcases phase_executorEnds (s.consumers w) outcome with h | ⟨r, h⟩ | ⟨r, message, h⟩
      · exact hI.intact e (h ▸ he)
      · cases h.symm.trans he
      · cases h.symm.trans he
    · rw [executionAllowed_executorEnds]
      rcases phase_executorEnds (s.consumers w) outcome with h | ⟨r, h⟩ | ⟨r, message, h⟩
      · exact hI.stopped (h ▸ hstop)
      · cases h.symm.trans hstop
      · cases h.symm.trans hstop
    · rw [executionAllowed_executorEnds]
      exact hasked

theorem standing_run {ops : List SysOp} (h : sys.Along Reportable Sys.init ops) (w : String) :
    Standing w ops ((sys.run Sys.init ops).consumers w) := by
  refine Machine.hist_inv (J := fun pre s => Standing w pre (s.consumers w)) ⟨by nofun, by nofun, by nofun⟩
    (fun pre op hI hrep => standing_step (sys_good pre) hrep hI) h

/-- **The loops survive exactly the reportable runs.** -/
theorem loopSurvives_iff (ops : List SysOp) : LoopSurvives ops ↔ sys.Along Reportable Sys.init ops := by
  constructor
  · intro h
    refine (Machine.along_iff _ _).2 ?_
    intro pre op post hops w now r message hop hphase
    subst hop
    by_contra hstatus
    obtain ⟨e, hcrash⟩ := crashed_of_unreportable (sys_good pre) now hphase hstatus
    rw [← Machine.run_snoc] at hcrash
    exact (h (pre ++ [.advance w now]) post (by simp [hops]) w).1 e hcrash
  · intro h pre post hops w
    subst hops
    have hstanding := standing_run ((Machine.along_append _ _ _).1 h).1 w
    exact ⟨hstanding.intact, fun hstop => hstanding.asked (hstanding.stopped hstop)⟩

/-- `w1` stalls beyond its lease while `w2` recovers, claims and finishes run 1; when the executor of `w1` returns,
`set_succeeded` raises, and so does `set_failed` in the handler -/
def finishedElsewhere : List SysOp :=
  [.api (.orchestratorCreateRun 1 "user_1" 10),
   .advance "w1" (seconds 1), .advance "w1" (seconds 1), .advance "w1" (seconds 1), .advance "w1" (seconds 1),
   .advance "w2" (seconds 40), .advance "w2" (seconds 40), .advance "w2" (seconds 40), .advance "w2" (seconds 40),
   .executorEnds "w2" .returned (seconds 41), .advance "w2" (seconds 41), .advance "w2" (seconds 41),
   .advance "w2" (seconds 41),
   .executorEnds "w1" .returned (seconds 42), .advance "w1" (seconds 42), .advance "w1" (seconds 42),
   .advance "w1" (seconds 42), .advance "w1" (seconds 42)]

theorem finishedElsewhere_crashes : ¬ LoopSurvives finishedElsewhere := fun h =>
  (h finishedElsewhere [] (by simp) "w1").1
    (.valueError "Invalid transition: RunStatusCode.SUCCEEDED -> RunStatusCode.FAILED") rfl

/-! ## When the handler finds its run RUNNING -/

/-- the step takes a RUNNING run out of RUNNING that a consumer other than the moving one has in hand -/
def Disturbs (s : Sys) (op : SysOp) : Prop :=
  ∃ w r, op.mover ≠ some w ∧ (s.consumers w).inHand = some r ∧ s.runtime.status? r = some .running ∧
    (sys.step s op).runtime.status? r ≠ some .running

/-- every run in hand is RUNNING -/
def HeldRunning (s : Sys) : Prop := ∀ w r, (s.consumers w).inHand = some r → s.runtime.status? r = some .running

/-- a call whose one decision cannot be taken leaves every run as it was -/
theorem view_of_decisions_nil {rt : InMemoryRuntime} (hgood : Good rt) {op : StoreOp} (h : op.decisions rt = []) :
    (stores.step rt op).view = rt.view := by
  have hp := exec_performs hgood op
  rw [h] at hp
  exact hp.view

/-- a step of the loop that ends with the run still in hand changed no run, or claimed it -/
theorem view_of_inHand_advanced {s : Sys} (hgood : Good s.runtime) {w : String} {now : UnixTs} {r : UUID}
    (hr : (s.advanced w now).inHand = some r) (hclaim : (s.consumers w).phase ≠ .claiming) :
    (sys.step s (.advance w now)).runtime.view = s.runtime.view := by
  change (s.advance w now).2.runtime.view = _
  rcases advance_runtime s w now with ⟨op, hcall, hrt⟩ | ⟨-, hrt | hrt⟩ <;> rw [hrt]
  · refine view_of_decisions_nil hgood ?_
    cases hphase : (s.consumers w).phase <;> rw [hphase] at hcall hclaim <;> cases hcall
    case inl.claiming.refl => exact absurd rfl hclaim
    case inl.checking.refl j => rfl
    -- a terminal write that goes through lets go of the run; one that raises decides nothing
    case inl.cancelling.refl j =>
      simp only [Sys.advanced, hphase, Phase.call, Consumer.react] at hr
      split at hr
      · rename_i e hreply
        exact taken_of_not ((setCancelled_spec hgood j now).raised_iff.1 ⟨e, hreply⟩)
      · cases hr
    case inl.succeeding.refl j =>
      simp only [Sys.advanced, hphase, Phase.call, Consumer.react] at hr
      split at hr
      · rename_i e hreply
        exact taken_of_not ((setSucceeded_spec hgood j now okResult).raised_iff.1 ⟨e, hreply⟩)
      · cases hr
    case inl.failing.refl j message =>
      simp only [Sys.advanced, hphase, Phase.call, Consumer.react] at hr
      split at hr <;> cases hr
  · rfl

/-- a heartbeat leaves a RUNNING run RUNNING -/
theorem running_of_heartbeat {s : Sys} (hgood : Good s.runtime) {w : String} {now : UnixTs} {r : UUID}
    (h : s.runtime.status? r = some .running) :
    (sys.step s (.heartbeat w now)).runtime.status? r = some .running := by
  rw [status?_eq_some_iff] at h ⊢
  refine (sys_performs hgood (.heartbeat w now)).keeps (I := fun o => ∃ v, o = some v ∧ v.record.status = .running)
    (C := fun a => a = .renew w now ∨ a = .loseClaim w now) ?_ ?_ h
  · intro o a ha hI hen
    obtain ⟨v, rfl, hrun⟩ := hI
    refine ⟨v.effect a, rfl, ?_⟩
    rcases ha with rfl | rfl
    · rfl
    · exact hrun
  · intro a hmem
    obtain ⟨call, hcall, hmem⟩ := mem_decisions.1 hmem
    obtain ⟨j, -, rfl⟩ := Option.map_eq_some_iff.1 hcall
    rcases causes_of_mem hmem with ha | ha
    · exact Or.inl (Prod.mk.inj ha).2
    · exact Or.inr (Prod.mk.inj ha).2

/-- **Runs in hand stay RUNNING** as long as nobody else disturbs them. -/
theorem heldRunning_step {s : Sys} (hgood : Good s.runtime) {op : SysOp} (hno : ¬ Disturbs s op)
    (hI : HeldRunning s) : HeldRunning (sys.step s op) := by
  intro w r hhand
  rcases inHand_step hhand with h | ⟨now, c, hc, rfl⟩
  · have hrun := hI w r h
    by_cases hmover : op.mover = some w
    · cases op with
      | api => cases hmover
      | emitEvent => cases hmover
      | shutdownExecution => exact hrun
      | executorEnds => exact hrun
      | heartbeat => exact running_of_heartbeat hgood hrun
      | advance w' now =>
        obtain rfl : w' = w := Option.some.inj hmover
        have hclaim : (s.consumers w').phase ≠ .claiming := by
          intro hphase
          rw [inHand_claiming hphase] at h
          cases h
        rw [consumer_advance] at hhand
        rw [status?_eq_some_iff, view_of_inHand_advanced hgood hhand hclaim, ← status?_eq_some_iff]
        exact hrun
    · by_contra hgone
      exact hno ⟨w, r, hmover, h, hrun, hgone⟩
  · obtain ⟨v, hv, hrun, -⟩ := view_of_claims hgood hc
    exact status?_eq_some_iff.2 ⟨v, hv, hrun⟩

/-- **Only somebody else's step can make a run unreportable**: a recovery by another worker's claim, `mark_cancelled`,
or the terminal write of another worker. -/
theorem reportable_of_undisturbed {ops : List SysOp} (h : sys.Along (fun s op => ¬ Disturbs s op) Sys.init ops) :
    sys.Along Reportable Sys.init ops := by
  have hheld₀ : HeldRunning Sys.init := by
    intro w r hhand
    cases hhand
  refine sysRefine.along_of_inv (s := Sys.init) (fun s op hgood hI hno => heldRunning_step hgood hno hI) ?_ good_default
    hheld₀ h
  intro s op _ hI _ w now r message _ hphase
  exact hI w r (inHand_of_scope (by rw [hphase]; rfl))

end LlmAgent
