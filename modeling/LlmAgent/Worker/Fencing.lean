/-
Lease fencing: does a run leave RUNNING only through the worker that holds it?

`set_succeeded`, `set_failed` and `set_cancelled` carry no worker id, so the store cannot refuse the write of a worker
whose lease expired and whose run another worker claimed meanwhile.

- `Owned`: a run in hand, when RUNNING, is RUNNING for that consumer; `owned_step`: every step keeps it, except a claim
  of a run that somebody else has in hand (`ClaimsHeld`);
- `lease_fencing`: so a run without such a claim is fenced at every step;
- `handedOver`: a run whose worker is gone is recovered, claimed again and finished by another worker, fenced;
- `stalledWorker`: the run in which a stalled worker decides a run that another worker holds;
- `claimsHeld_unfenced`: the condition is tight: after such a claim, steps of the displaced worker alone lead to a
  terminal write that is not fenced.
-/
import LlmAgent.Worker.Holding

namespace LlmAgent

open Core

/-- by this step worker `w` takes run `r` out of RUNNING with `set_succeeded`, `set_failed` or `set_cancelled` -/
def Finishes (s : Sys) (op : SysOp) (w : String) (r : UUID) : Prop :=
  ∃ now, op = .advance w now ∧ (s.consumers w).phase.writes = some r ∧ s.runtime.status? r = some .running ∧
    (sys.step s op).runtime.status? r ≠ some .running

/-- only the run's current worker takes it out of RUNNING -/
def Fenced (s : Sys) (op : SysOp) : Prop :=
  ∀ w r st, Finishes s op w r → s.runtime.record? r = some st → st.claimedWorker = some w

/-- the step is a `claim_run` that answers a run another consumer has in hand -/
def ClaimsHeld (s : Sys) (op : SysOp) : Prop :=
  ∃ w now c w', Claims s op w now c ∧ w' ≠ w ∧ (s.consumers w').inHand = some c.id

/-! ## Without such claims, every write is fenced -/

/-- a run in hand that is RUNNING is RUNNING for that consumer -/
def Owned (s : Sys) : Prop := ∀ w r, (s.consumers w).inHand = some r → RunsFor w (s.runtime.view r)

theorem owned_init : Owned Sys.init := fun _ _ h => by cases h

/-- **Every step keeps the runs in hand owned**, unless it claims one of them. -/
theorem owned_step {s : Sys} (hgood : Good s.runtime) {op : SysOp} (hno : ¬ ClaimsHeld s op) (hI : Owned s) :
    Owned (sys.step s op) := by
  intro w r hhand
  by_cases hclaim : ∃ w' now c, Claims s op w' now c ∧ c.id = r
  · obtain ⟨w', now, c, hc, rfl⟩ := hclaim
    obtain ⟨v, hv, -, howner, -⟩ := view_of_claims hgood hc
    -- the claimer is `w` itself: nobody else had the run in hand, and `w` has it now
    have hw : w = w' := by
      by_contra hne
      rcases inHand_step hhand with h | ⟨t, c', hc', -⟩
      · exact hno ⟨w', now, c, w, hc, hne, h⟩
      · have hop : SysOp.advance w' now = .advance w t := hc.1.symm.trans hc'.1
        cases hop
        exact hne rfl
    subst hw
    intro u hu _
    obtain rfl := Option.some.inj (hv.symm.trans hu)
    exact howner
  · refine runsFor_step hgood (fun w' now c hc hid => hclaim ⟨w', now, c, hc, hid⟩) (hI w r ?_)
    rcases inHand_step hhand with h | ⟨now, c, hc, hid⟩
    · exact h
    · exact absurd ⟨w, now, c, hc, hid⟩ hclaim

theorem fenced_of_owned {s : Sys} (hI : Owned s) (op : SysOp) : Fenced s op := by
  intro w r st hfinishes hst
  obtain ⟨now, rfl, hwrites, hrun, -⟩ := hfinishes
  obtain ⟨v, hv, hstatus⟩ := status?_eq_some_iff.1 hrun
  obtain rfl := Option.some.inj ((record?_of_view hv).symm.trans hst)
  exact hI w r (inHand_of_scope (scope_of_writes hwrites)) v hv hstatus

/-- **Lease fencing.** In a run in which no `claim_run` answers a run that another consumer still has in hand, every
terminal write is made by the run's current worker. -/
theorem lease_fencing (ops : List SysOp) (h : sys.Along (fun s op => ¬ ClaimsHeld s op) Sys.init ops) :
    sys.Along Fenced Sys.init ops := by
  have hstep : ∀ s op, Good s.runtime → Owned s → ¬ ClaimsHeld s op → Owned (sys.step s op) :=
    fun s op hgood hI hno => owned_step hgood hno hI
  have hfenced : ∀ s op, Good s.runtime → Owned s → ¬ ClaimsHeld s op → Fenced s op :=
    fun s op _ hI _ => fenced_of_owned hI op
  exact sysRefine.along_of_inv (s := Sys.init) hstep hfenced good_default owned_init h

/-- while none but the mover has a run in hand, a claim takes nothing from anybody -/
theorem not_claimsHeld_of_movers {ws : List String} {ops : List SysOp}
    (hmovers : ∀ op ∈ ops, ∀ w, op.mover = some w → w ∈ ws)
    (h : sys.Along (fun s op => ∀ w ∈ ws, op.mover ≠ some w → (s.consumers w).inHand = none) Sys.init ops) :
    sys.Along (fun s op => ¬ ClaimsHeld s op) Sys.init ops := by
  refine (Machine.along_iff _ _).2 fun pre op post hops => ?_
  intro hclaims
  obtain ⟨w, now, c, w', hc, hne, hhand⟩ := hclaims
  have hmover : op.mover ≠ some w' := by
    rw [hc.1]
    exact fun hw => hne (Option.some.inj hw).symm
  by_cases hw' : w' ∈ ws
  · rw [(Machine.along_iff _ _).1 h pre op post hops w' hw' hmover] at hhand
    cases hhand
  · -- a consumer that never moves has never claimed
    have hidle : (sys.run Sys.init pre).consumers w' = {} :=
      consumers_of_movers fun o ho hw => hw' (hmovers o (by simp [hops, ho]) w' hw)
    rw [hidle] at hhand
    cases hhand

/-- `w1` claims run 1 and is shut down before it executes it; after the lease ran out `w2` recovers and claims the run,
its executor raises, and it writes FAILED -/
def handedOver : List SysOp :=
  [.api (.orchestratorCreateRun 1 "user_1" 10),
   .advance "w1" (seconds 1), .advance "w1" (seconds 1), .advance "w1" (seconds 1),
   .shutdownExecution "w1" (seconds 2), .advance "w1" (seconds 2),
   .advance "w2" (seconds 40), .advance "w2" (seconds 40), .advance "w2" (seconds 40), .advance "w2" (seconds 40),
   .executorEnds "w2" (.raised "boom") (seconds 41), .advance "w2" (seconds 41)]

theorem lease_fencing_handedOver : sys.Along Fenced Sys.init handedOver ∧
    ∃ st, (sys.run Sys.init handedOver).runtime.record? 1 = some st ∧ st.status = .failed ∧ st.retryCount = some 1 ∧
      st.claimedWorker = some "w2" := by
  have hmovers : ∀ op ∈ handedOver, ∀ w, op.mover = some w → w ∈ ["w1", "w2"] := by
    simp [handedOver, SysOp.mover]
  refine ⟨lease_fencing handedOver (not_claimsHeld_of_movers hmovers ?_), _, rfl, ?_⟩
  · decide +kernel
  · decide +kernel

/-- `w1` claims run 1 and stalls for longer than its lease; `w2` recovers and claims the run; then the executor of `w1`
returns, and `w1` writes SUCCEEDED although its heartbeat was told that the lease is lost -/
def stalledWorker : List SysOp :=
  [.api (.orchestratorCreateRun 1 "user_1" 10),
   .advance "w1" (seconds 1), .advance "w1" (seconds 1), .advance "w1" (seconds 1), .advance "w1" (seconds 1),
   .advance "w2" (seconds 40), .advance "w2" (seconds 40), .advance "w2" (seconds 40), .advance "w2" (seconds 40),
   .heartbeat "w1" (seconds 41), .executorEnds "w1" .returned (seconds 41),
   .advance "w1" (seconds 41), .advance "w1" (seconds 41), .advance "w1" (seconds 41)]

theorem stalledWorker_unfenced :
    (stalledWorker.map SysOp.now).Pairwise (· ≤ ·) ∧ ¬ sys.Along Fenced Sys.init stalledWorker := by
  refine ⟨by simp [stalledWorker, SysOp.now, ApiOp.call, StoreOp.now, seconds], fun h => ?_⟩
  have hlast := (Machine.along_iff _ _).1 h (stalledWorker.take 13) (.advance "w1" (seconds 41)) [] rfl
  have howner := hlast "w1" 1 _ ⟨seconds 41, rfl, rfl, rfl, by decide +kernel⟩ rfl
  exact absurd howner (by decide)

/-! ## After such a claim, a write can be unfenced -/

/-- steps at clock reading `now` that leave the stores as they are bring worker `w` to the terminal write of `r` -/
def Reaches (now : UnixTs) (w : String) (r : UUID) (s : Sys) : Prop :=
  ∃ more, (∀ op ∈ more, op.now = now) ∧ (sys.run s more).runtime = s.runtime ∧
    ((sys.run s more).consumers w).phase.writes = some r

section Reach

variable {now : UnixTs} {w : String} {r : UUID} {s : Sys}

theorem Reaches.here (h : (s.consumers w).phase.writes = some r) : Reaches now w r s := ⟨[], by simp, rfl, h⟩

theorem Reaches.of_step (op : SysOp) (hnow : op.now = now) (hrt : (sys.step s op).runtime = s.runtime)
    (h : Reaches now w r (sys.step s op)) : Reaches now w r s := by
  obtain ⟨more, hmore, hrun, hwrites⟩ := h
  refine ⟨op :: more, ?_, ?_, hwrites⟩
  · intro o ho
    rcases List.mem_cons.1 ho with rfl | ho
    · exact hnow
    · exact hmore o ho
  · rw [Machine.run_cons, hrun, hrt]

/-- reading a stored run changes nothing -/
theorem reaches_of_checking {v : RunView} (hv : s.runtime.view r = some v)
    (h : (s.consumers w).phase = .checking r) : Reaches now w r s := by
  have hcall : (s.consumers w).phase.call w now = some (.getStatus r now) := by rw [h]; rfl
  have hread : (getStatus r).run s.runtime = .ok v.record s.runtime := findRun_run (record?_of_view hv)
  have hexec : StoreOp.exec s.runtime (.getStatus r now) = (.status v.record, s.runtime) := answer_ok hread
  have hstep : sys.step s (.advance w now) = s.setConsumer w ((s.consumers w).react now (.status v.record)) := by
    change (s.advance w now).2 = _
    simp only [Sys.advance, hcall, Sys.perform, hexec]
  refine Reaches.of_step (.advance w now) rfl (by rw [hstep]; rfl) (Reaches.here ?_)
  rw [hstep, setConsumer_self]
  simp only [Consumer.react, h]
  split <;> rfl

theorem reaches_of_returned {v : RunView} (hv : s.runtime.view r = some v)
    (h : (s.consumers w).phase = .returned r) : Reaches now w r s := by
  have hstep := step_advance_move now (w := w) (s := s) (by rw [h]; rfl) (by rw [h]; nofun)
  refine Reaches.of_step (.advance w now) rfl (by rw [hstep]; rfl) ?_
  rw [hstep]
  by_cases hctx : (s.consumers w).runExecutionCtx = some true
  · refine Reaches.here ?_
    simp only [setConsumer_self, Consumer.move, h, hctx, if_true, Phase.writes]
  · refine reaches_of_checking (v := v) hv ?_
    simp only [setConsumer_self, Consumer.move, h, hctx, if_false]

/-- the executor may raise -/
theorem reaches_of_executing (h : (s.consumers w).phase = .executing r) : Reaches now w r s := by
  refine Reaches.of_step (.executorEnds w (.raised "") now) rfl rfl (Reaches.here ?_)
  change ((s.setConsumer w _).consumers w).phase.writes = some r
  simp only [setConsumer_self, Consumer.executorEnds, h, Phase.writes]

theorem reaches_of_claimed {c : ClaimedRun} (h : (s.consumers w).phase = .claimed c)
    (hallowed : (s.consumers w).executionAllowed = true) : Reaches now w c.id s := by
  have hstep := step_advance_move now (w := w) (s := s) (by rw [h]; rfl) (by rw [h]; nofun)
  refine Reaches.of_step (.advance w now) rfl (by rw [hstep]; rfl) (reaches_of_executing ?_)
  simp only [hstep, setConsumer_self, Consumer.move, h, hallowed, if_true]

/-- **A consumer with a run in hand can go on to its terminal write**, whatever the others do. -/
theorem reaches_write (now : UnixTs) {v : RunView} (hhand : (s.consumers w).inHand = some r)
    (hv : s.runtime.view r = some v) : Reaches now w r s := by
  unfold Consumer.inHand at hhand
  cases hphase : (s.consumers w).phase <;> rw [hphase] at hhand
  case claimed c =>
    obtain ⟨hallowed, hid⟩ := Option.ite_none_right_eq_some.1 hhand
    obtain rfl := Option.some.inj hid
    exact reaches_of_claimed hphase hallowed
  case executing j =>
    obtain rfl : j = r := Option.some.inj hhand
    exact reaches_of_executing hphase
  case returned j =>
    obtain rfl : j = r := Option.some.inj hhand
    exact reaches_of_returned hv hphase
  case checking j =>
    obtain rfl : j = r := Option.some.inj hhand
    exact reaches_of_checking hv hphase
  case cancelling j => exact Reaches.here (by rw [hphase]; exact hhand)
  case succeeding j => exact Reaches.here (by rw [hphase]; exact hhand)
  case failing j message => exact Reaches.here (by rw [hphase]; exact hhand)
  all_goals cases hhand

/-- a terminal write of a RUNNING run goes through -/
theorem writes_terminal (now : UnixTs) (hgood : Good s.runtime) {v : RunView}
    (hwrites : (s.consumers w).phase.writes = some r) (hv : s.runtime.view r = some v)
    (hrun : v.record.status = .running) :
    ∃ v', (sys.step s (.advance w now)).runtime.view r = some v' ∧ v'.record.status ∈ terminalRunStatuses := by
  have hp := sys_performs hgood (.advance w now)
  simp only [SysOp.decisions, SysOp.call] at hp
  cases hphase : (s.consumers w).phase <;> rw [hphase] at hwrites hp
  case cancelling j =>
    obtain rfl : j = r := Option.some.inj hwrites
    have hg : (Act.cancel now).Guard v.record := by simp [Act.Guard, hrun, allowed_iff]
    exact ⟨_, hp.took hv hg, by simp [RunView.effect, Act.record, terminalRunStatuses]⟩
  case succeeding j =>
    obtain rfl : j = r := Option.some.inj hwrites
    have hg : (Act.succeed okResult now).Guard v.record := hrun
    exact ⟨_, hp.took hv hg, by simp [RunView.effect, Act.record, terminalRunStatuses]⟩
  case failing j message =>
    obtain rfl : j = r := Option.some.inj hwrites
    have hg : (Act.fail message now).Guard v.record := hrun
    exact ⟨_, hp.took hv hg, by simp [RunView.effect, Act.record, terminalRunStatuses]⟩
  all_goals cases hwrites

end Reach

/-- **The condition is tight.** After a `claim_run` that answers a run somebody else has in hand, steps of that consumer
alone, at the same clock reading, lead to a terminal write that is not fenced. -/
theorem claimsHeld_unfenced {pre : List SysOp} {op : SysOp} (h : ClaimsHeld (sys.run Sys.init pre) op) :
    ∃ more, (∀ o ∈ more, o.now = op.now) ∧ ¬ sys.Along Fenced Sys.init (pre ++ op :: more) := by
  obtain ⟨w, now, c, w', hc, hne, hhand⟩ := h
  have hgood := sys_good pre
  obtain ⟨v, hv, hrun, howner, -⟩ := view_of_claims hgood hc
  obtain rfl := hc.1
  set s := sys.run Sys.init pre
  have hhand' : ((sys.step s (.advance w now)).consumers w').inHand = some c.id := by
    have hmover : (SysOp.advance w now).mover ≠ some w' := fun hw => hne (Option.some.inj hw).symm
    rw [consumers_of_mover hmover]
    exact hhand
  obtain ⟨more, hnow, hrt, hwrites⟩ := reaches_write now hhand' hv
  refine ⟨more ++ [.advance w' now], ?_, fun hfenced => ?_⟩
  · intro o ho
    rcases List.mem_append.1 ho with ho | ho
    · exact hnow o ho
    · rw [List.mem_singleton.1 ho]
      rfl
  · rw [Machine.along_append, Machine.along_cons, Machine.along_append] at hfenced
    set s' := sys.run (sys.step s (.advance w now)) more
    have hv' : s'.runtime.view c.id = some v := by rw [hrt]; exact hv
    have hgood' : Good s'.runtime := by rw [hrt]; exact (sys_performs hgood _).good hgood
    obtain ⟨v', hv'', hterminal⟩ := writes_terminal now hgood' hwrites hv' hrun
    have hfin : Finishes s' (.advance w' now) w' c.id := by
      refine ⟨now, rfl, hwrites, by rw [status?_of_view hv', hrun], ?_⟩
      rw [status?_of_view hv'']
      intro hbad
      rw [Option.some.inj hbad] at hterminal
      exact absurd hterminal (by decide)
    have hsame := hfenced.2.2.2.1 w' c.id v.record hfin (record?_of_view hv')
    exact hne (Option.some.inj (hsame.symm.trans howner))

end LlmAgent
