/-
A worker holds at most one lease. Its loop claims the next run only after the last one was written off, and a loop that
is over claims nothing, so in every reachable state at most one run is RUNNING for each worker.

- `Sys.Holds`: the run is RUNNING for the worker;
- `holds_step`: a worker comes to hold a run only by claiming it;
- `Consumer.BusyWith`, `busyWith_step`: the loop of a worker that holds a run is busy with it, or over;
- `one_lease`: so no worker holds two runs, and there are no more RUNNING runs than workers.
-/
import Mathlib.Data.Finset.Card
import LlmAgent.Runs.StoreInvariant
import LlmAgent.Worker.Fencing
import LlmAgent.Worker.Lifespan

namespace LlmAgent

open Core

/-- run `r` is RUNNING for worker `w` -/
def Sys.Holds (s : Sys) (w : String) (r : UUID) : Prop :=
  ∃ v, s.runtime.view r = some v ∧ v.record.status = .running ∧ v.record.claimedWorker = some w

/-- the loop goes on to execute run `r`, or is in its lease scope -/
def Consumer.BusyWith (c : Consumer) (r : UUID) : Prop :=
  (∃ claimedRun, c.phase = .claimed claimedRun ∧ claimedRun.id = r) ∨ c.phase.scope = some r

/-- the worker holds one run at most, and is busy with it or over -/
structure Exclusive (s : Sys) (w : String) : Prop where
  one : ∀ r r', s.Holds w r → s.Holds w r' → r = r'
  busy : ∀ r, s.Holds w r → (s.consumers w).BusyWith r ∨ (s.consumers w).Over

section Exclusive

variable {s : Sys} {op : SysOp} {w : String} {r : UUID}

theorem not_holds_iff : ¬ s.Holds w r ↔ NotRunningFor w (s.runtime.view r) := by
  unfold Sys.Holds NotRunningFor
  simp only [not_exists, not_and]

/-- **A worker comes to hold a run only by claiming it.** -/
theorem holds_step (hgood : Good s.runtime) (h : (sys.step s op).Holds w r) :
    s.Holds w r ∨ ∃ now c, Claims s op w now c ∧ c.id = r := by
  by_contra hno
  obtain ⟨hbefore, hclaims⟩ := not_or.1 hno
  refine not_holds_iff.2 ?_ h
  refine (sys_performs hgood op).keeps (C := fun a => ∀ now, a ≠ .claim w now) (fun _ _ => notRunningFor_act) ?_
    (not_holds_iff.1 hbefore)
  intro a hmem now ha
  subst ha
  exact hclaims ⟨now, origin_of_mem hgood hmem⟩

theorem busyWith_executorEnds {c : Consumer} (outcome : Outcome) (h : c.BusyWith r) :
    (c.executorEnds outcome).BusyWith r := by
  rcases h with ⟨claimedRun, hphase, hid⟩ | hscope
  · refine Or.inl ⟨claimedRun, ?_, hid⟩
    unfold Consumer.executorEnds
    simp only [hphase]
  · exact Or.inr ((scope_executorEnds c outcome).trans hscope)

/-- a turn of the loop leaves a run only after its terminal write -/
theorem Turn.busyWith {rt : InMemoryRuntime} {now : UnixTs} {c c' : Consumer} (h : Turn rt w now c c')
    (hr : c.BusyWith r) (hwrites : c.phase.writes ≠ some r) : c'.BusyWith r ∨ c'.Over := by
  have hscope : ∀ p, c.phase = p → (∀ claimedRun, p ≠ .claimed claimedRun) → p.scope = some r := by
    intro p hphase hclaimed
    rcases hr with ⟨claimedRun, hbad, -⟩ | hscope
    · exact absurd (hphase.symm.trans hbad) (hclaimed claimedRun)
    · rw [← hphase]
      exact hscope
  cases h with
  | idle => exact Or.inl hr
  | stop => exact Or.inr (Or.inl rfl)
  | crash j message e => exact Or.inr (Or.inr ⟨e, rfl⟩)
  | wait hphase => cases hscope _ hphase (by intro claimedRun h; cases h)
  | wake hphase => cases hscope _ hphase (by intro claimedRun h; cases h)
  | claim claimedRun hphase => cases hscope _ hphase (by intro claimedRun h; cases h)
  | claimNone hphase => cases hscope _ hphase (by intro claimedRun h; cases h)
  | observe j hphase =>
    have hj := hscope _ hphase (by intro claimedRun h; cases h)
    exact Or.inl (Or.inr hj)
  | check j hphase =>
    have hj := hscope _ hphase (by intro claimedRun h; cases h)
    exact Or.inl (Or.inr hj)
  | intent j _ hphase =>
    have hj := hscope _ hphase (by intro claimedRun h; cases h)
    exact Or.inl (Or.inr hj)
  | noIntent j _ hphase =>
    have hj := hscope _ hphase (by intro claimedRun h; cases h)
    exact Or.inl (Or.inr hj)
  | execute claimedRun hphase =>
    refine Or.inl (Or.inr ?_)
    rcases hr with ⟨claimedRun', hphase', rfl⟩ | hbad
    · obtain rfl := Phase.claimed.inj (hphase.symm.trans hphase')
      rfl
    · rw [hphase] at hbad
      cases hbad
  | written j hphase =>
    rcases hr with ⟨claimedRun, hbad, -⟩ | hbad
    · rw [hbad] at hphase
      cases hphase
    · obtain rfl := Option.some.inj ((scope_of_writes hphase).symm.trans hbad)
      exact absurd hphase hwrites
  | refused j call e hj =>
    refine Or.inl (Or.inr ?_)
    rcases hr with ⟨claimedRun, hbad, -⟩ | hbad
    · rw [hbad] at hj
      cases hj
    · exact hj.symm.trans hbad

/-- **The loop stays with the run that its worker holds.** -/
theorem busyWith_step (hgood : Good s.runtime) (hbefore : s.Holds w r)
    (hbusy : (s.consumers w).BusyWith r ∨ (s.consumers w).Over) (hafter : (sys.step s op).Holds w r) :
    ((sys.step s op).consumers w).BusyWith r ∨ ((sys.step s op).consumers w).Over := by
  rcases hbusy with hr | hover
  · rcases consumer_cases s op w with hc | ⟨now, -, hc⟩ | ⟨now, rfl, hc⟩ | ⟨now, j, -, -, hc⟩ |
      ⟨outcome, now, -, hc⟩
    · rw [hc]
      exact Or.inl hr
    · rw [hc]
      exact Or.inl hr
    · rw [hc]
      refine (turn_advanced s w now).busyWith hr ?_
      -- a terminal write of a RUNNING run goes through
      intro hwrites
      obtain ⟨v, hv, hrunning, -⟩ := hbefore
      obtain ⟨v', hv', hterminal⟩ := writes_terminal now hgood hwrites hv hrunning
      obtain ⟨u, hu, hrunning', -⟩ := hafter
      obtain rfl := Option.some.inj (hv'.symm.trans hu)
      rw [hrunning'] at hterminal
      exact absurd hterminal (by decide)
    · rw [hc]
      left
      unfold Consumer.BusyWith
      rw [phase_heartbeatReact]
      exact hr
    · rw [hc]
      exact Or.inl (busyWith_executorEnds outcome hr)
  · exact Or.inr (over_fine hover)

theorem exclusive_step (hgood : Good s.runtime) (h : Exclusive s w) : Exclusive (sys.step s op) w := by
  -- a worker that claims holds nothing
  have hfree : ∀ now c j, Claims s op w now c → ¬ s.Holds w j := by
    intro now c j hc hj
    have hphase := hc.2.1
    rcases h.busy j hj with (⟨claimedRun, hbad, -⟩ | hbad) | hbad | ⟨e, hbad⟩
    · rw [hphase] at hbad
      cases hbad
    · rw [hphase] at hbad
      cases hbad
    · rw [hphase] at hbad
      cases hbad
    · rw [hphase] at hbad
      cases hbad
  constructor
  · intro r r' hr hr'
    rcases holds_step hgood hr with hbefore | ⟨now, c, hc, rfl⟩
    · rcases holds_step hgood hr' with hbefore' | ⟨now, c, hc, -⟩
      · exact h.one r r' hbefore hbefore'
      · exact absurd hbefore (hfree now c r hc)
    · rcases holds_step hgood hr' with hbefore' | ⟨now', c', hc', rfl⟩
      · exact absurd hbefore' (hfree now c r' hc)
      · obtain ⟨rfl, -, hreply⟩ := hc
        obtain ⟨heq, -, hreply'⟩ := hc'
        cases heq
        rw [hreply] at hreply'
        cases hreply'
        rfl
  · intro r hr
    rcases holds_step hgood hr with hbefore | ⟨now, c, ⟨rfl, hphase, hreply⟩, rfl⟩
    · exact busyWith_step hgood hbefore (h.busy r hbefore) hr
    · refine Or.inl (Or.inl ⟨c, ?_, rfl⟩)
      rw [consumer_advance]
      simp only [Sys.advanced, Phase.call, Consumer.react, hphase, hreply]

theorem exclusive_run (ops : List SysOp) (w : String) : Exclusive (sys.run Sys.init ops) w := by
  refine sysRefine.inv_run (s := Sys.init) (I := fun s : Sys => Exclusive s w) (P := fun _ _ => True)
    (fun s op hgood h _ => exclusive_step hgood h) good_default ?_ (Machine.along_of_forall (fun _ _ => trivial) _ _)
  constructor
  · intro r r' hr
    obtain ⟨v, hv, -⟩ := hr
    cases hv
  · intro r hr
    obtain ⟨v, hv, -⟩ := hr
    cases hv

/-- only a worker that moved holds a run -/
theorem mover_of_holds {ops : List SysOp} (h : (sys.run Sys.init ops).Holds w r) :
    w ∈ ops.filterMap SysOp.mover := by
  by_contra hno
  have hmovers : ∀ op ∈ ops, op.mover ≠ some w := by
    intro op hop hmover
    exact hno (List.mem_filterMap.2 ⟨op, hop, hmover⟩)
  have hbusy := (exclusive_run ops w).busy r h
  rw [show (sys.run Sys.init ops).consumers w = Sys.init.consumers w from consumers_of_movers hmovers] at hbusy
  rcases hbusy with (⟨claimedRun, hbad, -⟩ | hbad) | hbad | ⟨e, hbad⟩ <;> cases hbad

/-- a RUNNING run is held -/
theorem holds_of_running (ops : List SysOp) {st : RunStatus}
    (hst : (sys.run Sys.init ops).runtime.record? r = some st) (hrunning : st.status = .running) :
    ∃ w, st.claimedWorker = some w ∧ (sys.run Sys.init ops).Holds w r := by
  obtain ⟨v, hv, rfl⟩ := exists_view hst
  have horder := sysRefine.local_run' (I := fun o => ∀ v, o = some v → v.record.InOrder)
    (fun o a => lifecycle_step (fun userId now _ => created_inOrder r userId now) fun v hI hg => record_inOrder hg hI)
    (s := Sys.init) good_default (fun v hv => by cases hv) ops
  obtain ⟨w, hw⟩ := (horder v hv).owner hrunning
  exact ⟨w, hw, v, hv, hrunning, hw⟩

end Exclusive

/-- the RUNNING runs -/
def InMemoryRuntime.runningRuns (rt : InMemoryRuntime) : List UUID :=
  rt.internalRunStorage.keys.filter fun r => rt.status? r = some .running

/-- **One lease for each worker.** In every reachable state no worker holds two runs, and the RUNNING runs are at most
as many as the workers that made a step. -/
theorem one_lease (ops : List SysOp) :
    (∀ w r r', (sys.run Sys.init ops).Holds w r → (sys.run Sys.init ops).Holds w r' → r = r') ∧
      (sys.run Sys.init ops).runtime.runningRuns.length ≤ (ops.filterMap SysOp.mover).dedup.length := by
  set s := sys.run Sys.init ops
  have hone : ∀ w r r', s.Holds w r → s.Holds w r' → r = r' := fun w => (exclusive_run ops w).one
  refine ⟨hone, ?_⟩
  -- each RUNNING run goes to the worker that holds it
  have howner : ∀ r ∈ s.runtime.runningRuns.toFinset, ∃ w, s.Holds w r := by
    intro r hr
    have hmem : r ∈ s.runtime.runningRuns := List.mem_toFinset.1 hr
    have hstatus := of_decide_eq_true (List.mem_filter.1 hmem).2
    obtain ⟨v, hv, hrunning⟩ := status?_eq_some_iff.1 hstatus
    obtain ⟨w, -, hw⟩ := holds_of_running ops (record?_of_view hv) hrunning
    exact ⟨w, hw⟩
  choose! owner howner using howner
  calc s.runtime.runningRuns.length = s.runtime.runningRuns.toFinset.card :=
        (List.toFinset_card_of_nodup (s.runtime.internalRunStorage.keys_nodup.filter _)).symm
    _ ≤ (ops.filterMap SysOp.mover).toFinset.card := by
        refine Finset.card_le_card_of_injOn owner ?_ ?_
        · intro r hr
          exact List.mem_toFinset.2 (mover_of_holds (howner r hr))
        · intro r hr r' hr' heq
          have hr₂ := howner r' hr'
          rw [← heq] at hr₂
          exact hone _ r r' (howner r hr) hr₂
    _ = (ops.filterMap SysOp.mover).dedup.length := List.card_toFinset _

end LlmAgent
