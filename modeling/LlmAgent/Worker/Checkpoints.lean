/-
Executors whose worker was told of a cancellation.

The heartbeat loop sets the event, and the executor looks at it before its next step. Between the two, and after them,
any other worker and any user may do anything.

- `Stopping`, `Stopped`: an attempt whose event is set; an attempt that nobody works on any more, at a run that ended;
- `Shift.stopping`, `stopping_resumed`: the first lasts until the executor is resumed, which leads to the second;
- `stopping_run`: from then on no step of the attempt is begun;
- `cancelled_at_checkpoint`: a heartbeat that meets a cancellation ends the run at the executor's next checkpoint.
-/
import LlmAgent.Worker.LostLease
import LlmAgent.Worker.RunExecutor

namespace LlmAgent

open Core

/-- the worker's executor is at attempt `n` of the run, and its event is set -/
structure Stopping (s : Crew) (w : String) (r : UUID) (n : ℕ) : Prop where
  executing : s.sys.executingRun w = some r
  told : (s.sys.consumers w).runExecutionCtx = some true
  attempt : s.attempt w = n

/-- nobody works on attempt `n` any more, and the run has ended -/
structure Stopped (s : Crew) (r : UUID) (n : ℕ) : Prop where
  free : ∀ w, (s.sys.consumers w).inHand = some r → s.attempt w ≠ n
  made : Attempted (s.sys.runtime.view r) n
  ended : ∃ v, s.sys.runtime.view r = some v ∧ v.record.status ∈ terminalRunStatuses

section Stopping

variable {executors : String → AgentRunExecutor} {s s' : Crew} {op : CrewOp} {w : String} {r : UUID} {n : ℕ}

theorem inHand_of_executingRun (h : s.sys.executingRun w = some r) : (s.sys.consumers w).inHand = some r :=
  inHand_of_scope (by rw [executing_of_executingRun h]; rfl)

/-- only its own worker begins the steps of an attempt -/
theorem Shift.attemptLines (hs : Shift executors s op s')
    (hno : ∀ w', s.sys.executingRun w' = some r → s.attempt w' = n →
      (s.sys.consumers w').runExecutionCtx ≠ some true → False) :
    attemptLines s'.log r n = attemptLines s.log r n := by
  cases hs with
  | plain => rfl
  | claim => rfl
  | idle => rfl
  | finish => rfl
  | beginStep w' now r' hrun hlt hctx =>
    change LlmAgent.attemptLines (s.log ++ [_]) r n = _
    rw [attemptLines_snoc, if_neg, List.append_nil]
    intro heq
    obtain ⟨heq₁, heq₂⟩ := heq
    change r' = r at heq₁
    subst heq₁
    exact hno w' hrun heq₂ hctx

theorem Stopping.lines (h : Stopping s w r n) (ho : Orderly executors s) (hs : Shift executors s op s') :
    attemptLines s'.log r n = attemptLines s.log r n := by
  apply hs.attemptLines
  intro w' hrun hattempt hctx
  have hsame : w' = w := ho.single w' w r (inHand_of_executingRun hrun) (inHand_of_executingRun h.executing)
    (hattempt.trans h.attempt.symm)
  subst hsame
  exact hctx h.told

theorem Stopped.lines (h : Stopped s r n) (hs : Shift executors s op s') :
    attemptLines s'.log r n = attemptLines s.log r n := by
  apply hs.attemptLines
  intro w' hrun hattempt hctx
  exact h.free w' (inHand_of_executingRun hrun) hattempt

/-- a set event stays set while the executor works -/
theorem told_kept {sys₀ : Sys} {fine : SysOp} (hexec : (sys₀.consumers w).phase = .executing r)
    (htold : (sys₀.consumers w).runExecutionCtx = some true)
    (hno : ∀ outcome now, fine ≠ .executorEnds w outcome now) :
    ((sys.step sys₀ fine).consumers w).phase = .executing r ∧
      ((sys.step sys₀ fine).consumers w).runExecutionCtx = some true := by
  rcases consumer_cases sys₀ fine w with hc | ⟨now, -, hc⟩ | ⟨now, -, hc⟩ | ⟨now, j, -, -, hc⟩ | ⟨outcome, now, hop, -⟩
  · rw [hc]
    exact ⟨hexec, htold⟩
  · rw [hc]
    refine ⟨hexec, ?_⟩
    simp only [Consumer.shutdownExecution, Consumer.cancelCtx, htold, Option.map_some]
  · rw [hc]
    simp only [Sys.advanced, Phase.call, Consumer.move, hexec]
    exact ⟨trivial, htold⟩
  · rw [hc, phase_heartbeatReact]
    refine ⟨hexec, ?_⟩
    unfold Consumer.heartbeatReact
    split
    · split
      · simp only [Consumer.cancelCtx, htold, Option.map_some]
      · exact htold
    · exact htold
    · exact htold
  · exact absurd hop (hno outcome now)

theorem executingRun_iff {sys₀ : Sys} : sys₀.executingRun w = some r ↔ (sys₀.consumers w).phase = .executing r := by
  constructor
  · exact executing_of_executingRun
  · intro h
    simp only [Sys.executingRun, h]

/-- a finish of another worker does not move this one -/
theorem consumers_finish_ne {sys₀ : Sys} {w' : String} {now : UnixTs} {j : UUID} (hrun : sys₀.executingRun w' = some j)
    (hne : w ≠ w') : (atomicSys.step sys₀ (.finish w' .returned now)).consumers w = sys₀.consumers w := by
  change (sys₀.finish w' .returned now).consumers w = _
  simp only [Sys.finish, hrun]
  generalize (executeRun j .returned _ now).run sys₀.runtime = result
  cases result <;> exact setConsumer_ne _ _ hne

/-- **The attempt goes on stopping** until its executor is resumed. -/
theorem Shift.stopping (hs : Shift executors s op s') (h : Stopping s w r n) (hop : ∀ now, op ≠ .resume w now) :
    Stopping s' w r n := by
  have hexec := executing_of_executingRun h.executing
  cases hs with
  | idle => exact h
  | plain _ plain hplain =>
    obtain ⟨fine, hfine⟩ : ∃ fine, plain.fine = some fine := by
      cases op <;> cases hplain <;> exact ⟨_, rfl⟩
    have hno : ∀ outcome now, fine ≠ .executorEnds w outcome now := by
      intro outcome now heq
      subst heq
      cases op <;> cases hplain <;> cases hfine
    obtain ⟨hphase, hctx⟩ := told_kept hexec h.told hno
    rw [← atomic_step_fine hfine] at hphase hctx
    exact ⟨executingRun_iff.2 hphase, hctx, h.attempt⟩
  | claim w' now c hc =>
    have hne : w ≠ w' := by
      intro heq
      subst heq
      rw [hc.2.1] at hexec
      cases hexec
    have hno : ∀ outcome t, SysOp.advance w' now ≠ .executorEnds w outcome t := by
      intro outcome t heq
      cases heq
    obtain ⟨hphase, hctx⟩ := told_kept hexec h.told hno
    refine ⟨executingRun_iff.2 hphase, hctx, ?_⟩
    change Function.update s.attempt w' _ w = n
    rw [Function.update_of_ne hne]
    exact h.attempt
  | beginStep w' now r' hrun hlt hctx =>
    exact ⟨h.executing, h.told, h.attempt⟩
  | finish w' now r' hrun =>
    have hne : w ≠ w' := by
      intro heq
      subst heq
      exact hop now rfl
    have hsame : (atomicSys.step s.sys (.finish w' .returned now)).consumers w = s.sys.consumers w :=
      consumers_finish_ne hrun hne
    refine ⟨executingRun_iff.2 ?_, ?_, h.attempt⟩
    · rw [hsame]
      exact hexec
    · rw [hsame]
      exact h.told

/-- a run that has ended stays ended -/
theorem Performs.ended {rt rt' : InMemoryRuntime} {l : List (UUID × Act)} (hp : Performs rt rt' l)
    (h : ∃ v, rt.view r = some v ∧ v.record.status ∈ terminalRunStatuses) :
    ∃ v, rt'.view r = some v ∧ v.record.status ∈ terminalRunStatuses := by
  refine hp.keeps (C := fun _ => True) (I := fun o => ∃ v, o = some v ∧ v.record.status ∈ terminalRunStatuses) ?_
    (fun _ _ => trivial) h
  intro o a _ hI hen
  obtain ⟨v, rfl, hv⟩ := hI
  refine ⟨v.effect a, rfl, ?_⟩
  change (a.record v.record).status ∈ _
  rw [(record_of_terminal hv hen).1]
  exact hv

/-- a run whose execution was told to stop ends with it, if it has not ended before -/
theorem ended_of_told {sys₀ : Sys} (hgood : Good sys₀.runtime) (hrun : sys₀.executingRun w = some r)
    (htold : (sys₀.consumers w).runExecutionCtx = some true) {v : RunView} (hv : sys₀.runtime.view r = some v)
    (now : UnixTs) : ∃ v', (atomicSys.step sys₀ (.finish w .returned now)).runtime.view r = some v' ∧
      v'.record.status ∈ terminalRunStatuses := by
  have hp := atomic_performs hgood (.finish w .returned now)
  have hdecisions : (AtomicOp.finish w .returned now).decisions sys₀ =
      taken sys₀.runtime.view r (.cancel now) := by
    simp only [AtomicOp.decisions, hrun, htold]
    rfl
  rw [hdecisions] at hp
  by_cases hterminal : v.record.status ∈ terminalRunStatuses
  · exact hp.ended ⟨v, hv, hterminal⟩
  · have hg : (Act.cancel now).Guard v.record := allowed_cancelled (hgood.sound r v hv).settled hterminal
    rw [taken, if_pos ⟨v, hv, hg⟩] at hp
    refine ⟨_, hp.effect hv, ?_⟩
    change RunStatusCode.cancelled ∈ terminalRunStatuses
    decide

/-- **Resumed, the executor returns**, and its run has ended. -/
theorem stopping_resumed (ho : Orderly executors s) (h : Stopping s w r n) (now : UnixTs) :
    Stopped ((crew executors).step s (.resume w now)) r n := by
  have hs := shift_step executors s (.resume w now)
  generalize (crew executors).step s (.resume w now) = s' at hs
  obtain ⟨v, hv, hle⟩ : Attempted (s.sys.runtime.view r) n :=
    h.attempt ▸ ho.held w r (inHand_of_executingRun h.executing)
  cases hs with
  | plain _ plain hplain => cases hplain
  | idle _ _ hrun =>
    rw [h.executing] at hrun
    cases hrun
  | beginStep _ _ _ _ _ hctx => exact absurd h.told hctx
  | finish _ _ r' hrun hend =>
    obtain rfl := Option.some.inj (h.executing.symm.trans hrun)
    constructor
    · intro w' hw'
      rw [inHand_finish hrun] at hw'
      split_ifs at hw' with hne
      intro hattempt
      exact hne (ho.single w' w r hw' (inHand_of_executingRun hrun) (hattempt.trans h.attempt.symm))
    · exact attempted_kept ho.good (atomic_performs ho.good _) (fun a hmem => proper_finish ho hrun hend hmem)
        ⟨v, hv, hle⟩
    · exact ended_of_told ho.good hrun h.told hv now

/-- **A stopped attempt stays stopped.** -/
theorem Shift.stopped (hs : Shift executors s op s') (ho : Orderly executors s) (h : Stopped s r n) :
    Stopped s' r n := by
  cases hs with
  | idle => exact h
  | beginStep => exact ⟨h.free, h.made, h.ended⟩
  | plain _ plain hplain hno =>
    have hp := atomic_performs ho.good plain
    constructor
    · intro w hw
      rcases inHand_plain hplain hw with hbefore | ⟨now, c, heq, hc, -⟩
      · exact h.free w hbefore
      · exact absurd hc (hno w now c heq)
    · exact attempted_kept ho.good hp (fun a hmem => proper_plain ho hplain hmem True) h.made
    · exact hp.ended h.ended
  | claim w now c hc =>
    have hp := atomic_performs ho.good (.advance w now)
    have hclaim : (CrewOp.advance w now).plain = some (.advance w now) := rfl
    constructor
    · intro w' hw'
      change Function.update s.attempt w c.runStatus.retries w' ≠ n
      rcases inHand_claim hc hw' with ⟨rfl, rfl⟩ | ⟨hne, hbefore⟩
      · rw [Function.update_self]
        exact ne_of_gt ((attempt_new ho.good hc).2 n h.made)
      · rw [Function.update_of_ne hne]
        exact h.free w' hbefore
    · exact attempted_kept ho.good hp
        (fun a hmem => proper_plain ho hclaim hmem True) h.made
    · exact hp.ended h.ended
  | finish w now j hrun hend =>
    have hp := atomic_performs ho.good (.finish w .returned now)
    constructor
    · intro w' hw'
      rw [inHand_finish hrun] at hw'
      split_ifs at hw'
      exact h.free w' hw'
    · exact attempted_kept ho.good hp (fun a hmem => proper_finish ho hrun hend hmem) h.made
    · exact hp.ended h.ended

theorem stopped_run (ho : Orderly executors s) (h : Stopped s r n) (ops : List CrewOp) :
    attemptLines ((crew executors).run s ops).log r n = attemptLines s.log r n ∧
      Stopped ((crew executors).run s ops) r n := by
  induction ops generalizing s with
  | nil => exact ⟨rfl, h⟩
  | cons op ops ih =>
    have hs := shift_step executors s op
    obtain ⟨hlines, hstopped⟩ := ih (hs.orderly ho) (hs.stopped ho h)
    exact ⟨hlines.trans (h.lines hs), hstopped⟩

/-- **From the moment its event is set, an attempt begins no further step**, and it is over when its executor is
resumed. -/
theorem stopping_run (ho : Orderly executors s) (h : Stopping s w r n) (ops : List CrewOp) :
    attemptLines ((crew executors).run s ops).log r n = attemptLines s.log r n ∧
      ((∃ t, CrewOp.resume w t ∈ ops) → Stopped ((crew executors).run s ops) r n) := by
  induction ops generalizing s with
  | nil =>
    refine ⟨rfl, ?_⟩
    intro hmem
    obtain ⟨t, hmem⟩ := hmem
    cases hmem
  | cons op ops ih =>
    have hs := shift_step executors s op
    by_cases hop : ∃ now, op = .resume w now
    · obtain ⟨now, rfl⟩ := hop
      obtain ⟨hlines, hstopped⟩ := stopped_run (hs.orderly ho) (stopping_resumed ho h now) ops
      exact ⟨hlines.trans (h.lines ho hs), fun _ => hstopped⟩
    · have hop' : ∀ now, op ≠ .resume w now := fun now heq => hop ⟨now, heq⟩
      obtain ⟨hlines, hstopped⟩ := ih (hs.orderly ho) (hs.stopping h hop')
      refine ⟨hlines.trans (h.lines ho hs), ?_⟩
      intro hmem
      obtain ⟨t, hmem⟩ := hmem
      refine hstopped ⟨t, ?_⟩
      rcases List.mem_cons.1 hmem with heq | hmem
      · exact absurd heq.symm (hop' t)
      · exact hmem

/-- a heartbeat of the worker that holds the lease tells its executor to stop, when the run has an intent -/
theorem stopping_of_heartbeat (ho : Orderly executors s) {st : RunStatus} (now : UnixTs)
    (hexec : s.sys.executingRun w = some r) (hbeat : s.sys.heartbeatRun w = some r)
    (hst : s.sys.runtime.record? r = some st) (howner : st.claimedWorker = some w)
    (hflag : st.cancelRequested = true) :
    Stopping ((crew executors).step s (.heartbeat w now)) w r (s.attempt w) := by
  obtain ⟨steps, hsteps⟩ := ho.reached
  obtain ⟨fine, hfine⟩ := atomic_run Sys.init steps
  have hctx : InContext (s.sys.consumers w) := by
    rw [hsteps, ← hfine]
    exact inContext_run fine w
  have htold : ((sys.step s.sys (.heartbeat w now)).consumers w).runExecutionCtx = some true := by
    refine (told_heartbeat_iff now hctx hbeat).2 (Or.inr ?_)
    obtain ⟨v, hv, rfl⟩ := exists_view hst
    rcases heartbeat_reply ho.good r w now with ⟨hnone, -⟩ | ⟨v', hv', hcases⟩
    · rw [hv] at hnone
      cases hnone
    · obtain rfl := Option.some.inj (hv.symm.trans hv')
      rcases hcases with ⟨-, hreply⟩ | ⟨-, hother, -⟩ | ⟨-, -, hreply⟩
      · exact ⟨_, hreply, hflag⟩
      · exact absurd howner hother
      · exact ⟨_, hreply, hflag⟩
  have hphase : ((sys.step s.sys (.heartbeat w now)).consumers w).phase = .executing r := by
    rw [consumers_heartbeat now hbeat, Function.update_self, phase_heartbeatReact]
    exact executing_of_executingRun hexec
  exact ⟨executingRun_iff.2 hphase, htold, rfl⟩

end Stopping

/-- **Cancelled at the next checkpoint.** When a worker that executes a run and holds its lease sends a heartbeat after
the run was asked to be cancelled, then whatever follows: its executor begins no further step of this execution, and
once the executor is resumed the run is CANCELLED. -/
theorem cancelled_at_checkpoint (executors : String → AgentRunExecutor) (pre ops : List CrewOp) {w : String} {r : UUID}
    {st : RunStatus} (now : UnixTs) (hexec : ((crew executors).run Crew.init pre).sys.executingRun w = some r)
    (hbeat : ((crew executors).run Crew.init pre).sys.heartbeatRun w = some r)
    (hst : ((crew executors).run Crew.init pre).sys.runtime.record? r = some st)
    (hrunning : st.status = .running) (howner : st.claimedWorker = some w) (hflag : st.cancelRequested = true) :
    let s := (crew executors).run Crew.init pre
    let s' := (crew executors).run Crew.init (pre ++ .heartbeat w now :: ops)
    attemptLines s'.log r (s.attempt w) = attemptLines s.log r (s.attempt w) ∧
      ((∃ t, CrewOp.resume w t ∈ ops) → s'.sys.runtime.status? r = some .cancelled) := by
  intro s s'
  have ho : Orderly executors s := orderly_run pre
  have hstop := stopping_of_heartbeat ho now hexec hbeat hst howner hflag
  have hs := shift_step executors s (.heartbeat w now)
  have hrun : s' = (crew executors).run ((crew executors).step s (.heartbeat w now)) ops := by
    change (crew executors).run Crew.init (pre ++ .heartbeat w now :: ops) = _
    rw [Machine.run_append, Machine.run_cons]
  obtain ⟨hlines, hstopped⟩ := stopping_run (hs.orderly ho) hstop ops
  have hsame : ((crew executors).step s (.heartbeat w now)).log = s.log := rfl
  rw [← hrun, hsame] at hlines
  refine ⟨hlines, ?_⟩
  intro hresumed
  obtain ⟨v, hv, hterminal⟩ := (hstopped hresumed).ended
  rw [← hrun] at hv
  -- the intent is still there, so the run did not succeed, and no run fails
  obtain ⟨v₀, hv₀, rfl⟩ := exists_view hst
  have hhonoured : Honoured True (s.sys.runtime.view r) := by
    refine ⟨v₀, hv₀, hflag, ?_, fun _ => trivial⟩
    rw [hrunning]
    intro hbad
    cases hbad
  obtain ⟨steps, hsteps⟩ := crew_run executors s (.heartbeat w now :: ops)
  rw [Machine.run_cons, ← hrun] at hsteps
  obtain ⟨v', hv', -, hsucceeded, -⟩ := honoured_run ho.good ho.settled
    (Machine.along_of_forall (fun _ _ _ => trivial) _ steps) hhonoured
  rw [← hsteps, hv] at hv'
  obtain rfl := Option.some.inj hv'
  have hfailed : v.record.status ≠ .failed := ((orderly_run (pre ++ .heartbeat w now :: ops)).ended r v hv).1
  rw [status?_of_view hv]
  revert hterminal hsucceeded hfailed
  cases v.record.status <;> decide

/-- `w1` executes run 1 and begins its first step, then the user cancels the run -/
def cancelledMidway : List CrewOp :=
  [.createRun 1 "user_1" 10, .advance "w1" (seconds 1), .advance "w1" (seconds 1), .advance "w1" (seconds 1),
   .advance "w1" (seconds 1), .resume "w1" (seconds 1), .cancelRun 1 (seconds 3)]

/-- `cancelledMidway`, then a heartbeat and the end of the sleep -/
theorem cancelled_at_checkpoint_midway :
    ((crew fun _ => .randomSleep).run Crew.init
      (cancelledMidway ++ [.heartbeat "w1" (seconds 6), .resume "w1" (seconds 9)])).sys.runtime.status? 1 =
        some .cancelled :=
  (cancelled_at_checkpoint (fun _ => .randomSleep) cancelledMidway [.resume "w1" (seconds 9)] (seconds 6) rfl rfl rfl
    rfl rfl rfl).2 ⟨seconds 9, List.mem_singleton_self _⟩

end LlmAgent
