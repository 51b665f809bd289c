/-
Does a run become CANCELLED only because a user asked for it?

`shutdown_execution` and the heartbeat loop set the same cancellation event, and when the executor returns,
`execute_run` calls `set_cancelled` whoever set it. So a shutdown during an execution writes CANCELLED for a run nobody
cancelled.

- `Acknowledged`: an API call that answered True for the run;
- `Asked`: a `set_cancelled` that goes through finds the intent in the record;
- `caused_step`, `hasIntent_step`: an intent or a CANCELLED status has an acknowledged call behind it, and the other way
  round;
- `asked_of_undisturbed`: every step is asked for as long as no consumer is shut down while it has a run in its scope;
- `onlyUsersCancel_iff`: only users cancel in exactly the runs whose steps are all `Asked`;
- `shutdownCancels`: the run that a shutdown cancels.
-/
import LlmAgent.Worker.Holding

namespace LlmAgent

open Core

/-- a cancellation of run `r` by the API that answered True -/
def Acknowledged (r : UUID) (s : Sys) (op : SysOp) : Prop :=
  (∃ now, op = .api (.requestCancellation r now) ∨ op = .api (.orchestratorCancelRun r now) ∨
    op = .api (.markCancelled r now)) ∧ sys.reply s op = .flag true

/-- in every state of the run a CANCELLED run has an acknowledged cancellation behind it -/
def OnlyUsersCancel (ops : List SysOp) : Prop :=
  ∀ pre post r, ops = pre ++ post → (sys.run Sys.init pre).runtime.status? r = some .cancelled →
    sys.Occurs (Acknowledged r) Sys.init pre

/-- a `set_cancelled` for a run that is not terminal finds the intent in its record -/
def Asked (s : Sys) (op : SysOp) : Prop :=
  ∀ w now r st, op = .advance w now → (s.consumers w).phase = .cancelling r → s.runtime.record? r = some st →
    st.status ∉ terminalRunStatuses → st.cancelRequested = true

/-- the API enqueues a run only inside `create_run` -/
def SysOp.Intake (op : SysOp) : Prop := ∀ r now, op ≠ .api (.markEnqueued r now)

/-! ## What an intent and a CANCELLED status come from -/

/-- the decisions of an API cancellation are taken exactly when it answers True -/
theorem acknowledged_of_mem {s : Sys} (hgood : Good s.runtime) {op : SysOp} {r : UUID} {a : Act}
    (h : (r, a) ∈ op.decisions s) (ha : ∃ now, a = .requestCancel now ∨ a = .markCancel now) : Acknowledged r s op := by
  have horigin := origin_of_mem hgood h
  obtain ⟨call, hcall, hmem⟩ := mem_decisions.1 h
  obtain ⟨now, rfl | rfl⟩ := ha
  · rcases horigin with rfl | rfl <;> obtain rfl := Option.some.inj hcall
    · exact ⟨⟨now, Or.inl rfl⟩, (requestCancellation_spec hgood r now).flag_true_iff.2 (mem_taken.1 hmem).2⟩
    · exact ⟨⟨now, Or.inr (Or.inl rfl)⟩,
        (orchestratorCancelRun_spec hgood r now).flag_true_iff.2 (mem_taken.1 hmem).2⟩
  · obtain rfl : op = .api (.markCancelled r now) := horigin
    obtain rfl := Option.some.inj hcall
    exact ⟨⟨now, Or.inr (Or.inr rfl)⟩, (markCancelled_spec hgood r now).flag_true_iff.2 (mem_taken.1 hmem).2⟩

/-- a `set_cancelled` that goes through finds a run that is not terminal -/
theorem cancel_of_mem {s : Sys} (hgood : Good s.runtime) {op : SysOp} {r : UUID} {now : UnixTs}
    (h : (r, .cancel now) ∈ op.decisions s) : ∃ w v, op = .advance w now ∧ (s.consumers w).phase = .cancelling r ∧
      s.runtime.view r = some v ∧ v.record.status ∉ terminalRunStatuses := by
  obtain ⟨w, rfl, hphase⟩ := origin_of_mem hgood h
  obtain ⟨call, hcall, hmem⟩ := mem_decisions.1 h
  change (s.consumers w).phase.call w now = some call at hcall
  rw [hphase] at hcall
  obtain rfl := Option.some.inj hcall
  obtain ⟨-, v, hv, hg⟩ := mem_taken.1 hmem
  exact ⟨w, v, rfl, hphase, hv, fun ht => not_allowed_of_terminal ht _ hg⟩

/-- the run was asked to be cancelled, or it is cancelled -/
def Intended (st : RunStatus) : Prop := st.cancelRequested = true ∨ st.status = .cancelled

/-- an intended run has the cause `H` -/
def Caused (H : Prop) (o : Option RunView) : Prop := ∀ v, o = some v → Intended v.record → H

/-- the decisions that start an intent, or cancel without one, need the cause -/
def Act.NeedsCause : Act → Prop
  | .requestCancel _ => True
  | .markCancel _ => True
  | .cancel _ => True
  | _ => False

theorem caused_act {H : Prop} {r : UUID} {o : Option RunView} {a : Act} (ha : a.NeedsCause → H) (hI : Caused H o)
    (hen : (lifecycle r).Enabled o a) : Caused H ((lifecycle r).apply o a) := by
  refine lifecycle_step (I := fun v => Intended v.record → H) ?_ ?_ hI hen
  · intro userId now _ hint
    rcases hint with h | h <;> cases h
  · intro v hv hg hint
    have hflag : v.record.cancelRequested = true → H := fun h => hv (Or.inl h)
    cases a with
    | create => exact hg.elim
    | requestCancel => exact ha trivial
    | markCancel => exact ha trivial
    | cancel => exact ha trivial
    | drop => exact hflag hg.2
    | loseClaim => exact hv hint
    | emit => exact hv hint
    | enqueue => rcases hint with h | h <;> cases h
    | _ =>
      rcases hint with h | h
      · exact hflag h
      · cases h

/-- **Causes are recorded**: if the step is asked for, what it makes intended has the cause `H`, given that an
acknowledged call is one and that the intended runs before had it. -/
theorem caused_step {s : Sys} (hgood : Good s.runtime) {op : SysOp} {r : UUID} {H : Prop} (hasked : Asked s op)
    (hack : Acknowledged r s op → H) (hI : Caused H (s.runtime.view r)) :
    Caused H ((sys.step s op).runtime.view r) := by
  refine (sys_performs hgood op).keeps (C := fun a => a.NeedsCause → H) (fun _ _ => caused_act) ?_ hI
  intro a hmem hneeds
  cases a with
  | requestCancel now => exact hack (acknowledged_of_mem hgood hmem ⟨now, Or.inl rfl⟩)
  | markCancel now => exact hack (acknowledged_of_mem hgood hmem ⟨now, Or.inr rfl⟩)
  | cancel now =>
    obtain ⟨w, v, hop, hphase, hv, hnt⟩ := cancel_of_mem hgood hmem
    exact hI v hv (Or.inl (hasked w now r v.record hop hphase (record?_of_view hv) hnt))
  | _ => exact hneeds.elim

/-! ## An acknowledged cancellation stays visible -/

/-- the run exists and is intended -/
def HasIntent (o : Option RunView) : Prop := ∃ v, o = some v ∧ Intended v.record

theorem hasIntent_act {r : UUID} {o : Option RunView} {a : Act} (ha : ∀ now, a ≠ .enqueue now) (hI : HasIntent o)
    (hen : (lifecycle r).Enabled o a) : HasIntent ((lifecycle r).apply o a) := by
  obtain ⟨v, rfl, hint⟩ := hI
  have hg : a.Guard v.record := hen
  refine ⟨v.effect a, rfl, ?_⟩
  by_cases ht : v.record.status ∈ terminalRunStatuses
  · change Intended (a.record v.record)
    rw [(record_of_terminal ht hg).1]
    exact hint
  · have hflag : v.record.cancelRequested = true := by
      rcases hint with h | h
      · exact h
      · rw [h] at ht
        exact absurd (by decide) ht
    cases a with
    | create => exact hg.elim
    | enqueue now => exact absurd rfl (ha now)
    | markCancel => exact Or.inr rfl
    | requestCancel => exact Or.inl rfl
    | _ => exact Or.inl hflag

/-- the API does not enqueue a run that is already there -/
theorem not_enqueued {s : Sys} (hgood : Good s.runtime) {op : SysOp} (hintake : op.Intake) {r : UUID} {v : RunView}
    (hv : s.runtime.view r = some v) (now : UnixTs) : (r, .enqueue now) ∉ op.decisions s := by
  intro hmem
  obtain ⟨call, hcall, hmem'⟩ := mem_decisions.1 hmem
  rcases origin_of_mem hgood hmem with rfl | ⟨userId, rfl⟩
  · exact hintake r now rfl
  · obtain rfl := Option.some.inj hcall
    rw [fresh_of_enqueue hmem'] at hv
    cases hv

theorem hasIntent_step {s : Sys} (hgood : Good s.runtime) {op : SysOp} (hintake : op.Intake) {r : UUID}
    (hI : HasIntent (s.runtime.view r)) : HasIntent ((sys.step s op).runtime.view r) := by
  have ⟨v, hv, _⟩ := hI
  refine (sys_performs hgood op).keeps (C := fun a => ∀ now, a ≠ .enqueue now) (fun _ _ => hasIntent_act) ?_ hI
  intro a hmem now ha
  subst ha
  exact not_enqueued hgood hintake hv now hmem

/-- an acknowledged call leaves the run intended -/
theorem hasIntent_of_ack {s : Sys} (hgood : Good s.runtime) {op : SysOp} {r : UUID} (h : Acknowledged r s op) :
    HasIntent ((sys.step s op).runtime.view r) := by
  obtain ⟨⟨now, rfl | rfl | rfl⟩, hreply⟩ := h
  · obtain ⟨v, -, -, hview⟩ := (requestCancellation_spec hgood r now).view_of_flag hgood hreply
    exact ⟨_, hview, Or.inl rfl⟩
  · obtain ⟨v, -, -, hview⟩ := (orchestratorCancelRun_spec hgood r now).view_of_flag hgood hreply
    exact ⟨_, hview, Or.inl rfl⟩
  · obtain ⟨v, -, -, hview⟩ := (markCancelled_spec hgood r now).view_of_flag hgood hreply
    exact ⟨_, hview, Or.inr rfl⟩

/-- **Once acknowledged, always visible.** -/
theorem hasIntent_of_occurs {ops : List SysOp} (hintake : ∀ op ∈ ops, op.Intake) {r : UUID}
    (h : sys.Occurs (Acknowledged r) Sys.init ops) : HasIntent ((sys.run Sys.init ops).runtime.view r) := by
  obtain ⟨pre, op, post, rfl, hack⟩ := h
  rw [List.append_cons, Machine.run_append, Machine.run_snoc]
  have hgood := sys_good pre
  refine sysRefine.inv_run (P := fun (_ : Sys) (op : SysOp) => op.Intake)
    (I := fun s : Sys => HasIntent (s.runtime.view r)) ?_ ((sys_performs hgood op).good hgood)
    (hasIntent_of_ack hgood hack) ?_
  · exact fun s op hgood hI hintake => hasIntent_step hgood hintake hI
  · exact Machine.along_of_mem (fun o ho => hintake o (by simp [ho])) _

/-! ## Only a shutdown cancels unasked -/

/-- the step shuts a consumer down that has a run in its lease scope -/
def ShutsDownRun (s : Sys) (op : SysOp) : Prop :=
  ∃ w now r, op = .shutdownExecution w now ∧ (s.consumers w).phase.scope = some r

/-- a consumer whose cancellation event is set, or that is about to call `set_cancelled`, works on an intended run -/
def Told (s : Sys) : Prop := ∀ w r, (s.consumers w).phase.scope = some r →
  (s.consumers w).runExecutionCtx = some true ∨ (s.consumers w).phase = .cancelling r → HasIntent (s.runtime.view r)

/-- a step of the loop sets out to cancel a run only when its consumer was told, or read the intent -/
theorem Turn.told {rt : InMemoryRuntime} {w : String} {now : UnixTs} {c c' : Consumer} (h : Turn rt w now c c')
    {r : UUID} (hscope : c'.phase.scope = some r) (htold : c'.runExecutionCtx = some true ∨ c'.phase = .cancelling r) :
    (c.phase.scope = some r ∧ (c.runExecutionCtx = some true ∨ c.phase = .cancelling r)) ∨
      ∃ st, rt.record? r = some st ∧ st.cancelRequested = true := by
  cases h with
  | idle => exact Or.inl ⟨hscope, htold⟩
  | observe j hphase hctx => exact Or.inl ⟨by rw [hphase]; exact hscope, Or.inl hctx⟩
  | check j hphase hctx =>
    rcases htold with h | h
    · exact absurd h hctx
    · cases h
  | intent j st hphase hreply hflag =>
    obtain rfl : j = r := Option.some.inj hscope
    exact Or.inr ⟨st, getStatus_reply hreply, hflag⟩
  | noIntent j st hphase =>
    rcases htold with h | h
    · exact Or.inl ⟨by rw [hphase]; exact hscope, Or.inl h⟩
    · cases h
  | refused j call e hsc =>
    rcases htold with h | h
    · exact Or.inl ⟨hsc.trans hscope, Or.inl h⟩
    · cases h
  | execute => rcases htold with h | h <;> cases h
  | _ => cases hscope

/-- **Without such a shutdown only intended runs are told to stop.** -/
theorem told_step {s : Sys} (hgood : Good s.runtime) {op : SysOp} (hintake : op.Intake) (hno : ¬ ShutsDownRun s op)
    (hI : Told s) : Told (sys.step s op) := by
  intro w r hscope htold
  refine hasIntent_step hgood hintake ?_
  rcases consumer_cases s op w with hc | ⟨now, rfl, hc⟩ | ⟨now, rfl, hc⟩ | ⟨now, j, rfl, hbeat, hc⟩ |
    ⟨outcome, now, rfl, hc⟩ <;> rw [hc] at hscope htold
  · exact hI w r hscope htold
  · exact absurd ⟨w, now, r, rfl, hscope⟩ hno
  · rcases (turn_advanced s w now).told hscope htold with ⟨hscope, htold⟩ | ⟨st, hst, hflag⟩
    · exact hI w r hscope htold
    · obtain ⟨v, hv, rfl⟩ := exists_view hst
      exact ⟨v, hv, Or.inl hflag⟩
  · rw [phase_heartbeatReact] at hscope htold
    rcases htold with hctx | hphase
    · rcases told_heartbeatReact hctx with hctx | ⟨st, hreply, hflag⟩
      · exact hI w r hscope (Or.inl hctx)
      · obtain rfl : j = r := Option.some.inj ((scope_of_heartbeatRun hbeat).symm.trans hscope)
        obtain ⟨v, hv, hst⟩ := heartbeat_reply_intent hgood hreply
        exact ⟨v, hv, Or.inl (hst.trans hflag)⟩
    · exact hI w r hscope (Or.inr hphase)
  · rw [scope_executorEnds] at hscope
    rw [ctx_executorEnds] at htold
    refine hI w r hscope (htold.imp_right fun hphase => ?_)
    rcases phase_executorEnds (s.consumers w) outcome with h | ⟨j, h⟩ | ⟨j, message, h⟩ <;> rw [h] at hphase
    · exact hphase
    · cases hphase
    · cases hphase

/-- **Only a shutdown cancels unasked.** As long as no consumer is shut down while it has a run in its lease scope,
every `set_cancelled` was asked for. -/
theorem asked_of_undisturbed {ops : List SysOp} (hintake : ∀ op ∈ ops, op.Intake)
    (h : sys.Along (fun s op => ¬ ShutsDownRun s op) Sys.init ops) : sys.Along Asked Sys.init ops := by
  have htold₀ : Told Sys.init := by
    intro w r hscope
    cases hscope
  refine sysRefine.along_of_inv (s := Sys.init) (P := fun (s : Sys) (op : SysOp) => op.Intake ∧ ¬ ShutsDownRun s op)
    (fun s op hgood hI hop => told_step hgood hop.1 hop.2 hI) ?_ good_default htold₀
    ((Machine.along_of_mem hintake Sys.init).and h)
  · intro s op _ hI _ w now r st hop hphase hst hnt
    subst hop
    obtain ⟨v, hv, hint⟩ := hI w r (by rw [hphase]; rfl) (Or.inr hphase)
    obtain rfl := Option.some.inj ((record?_of_view hv).symm.trans hst)
    rcases hint with hflag | hs
    · exact hflag
    · rw [hs] at hnt
      exact absurd (by decide) hnt

/-! ## The whole run -/

/-- in a run of asked steps every intended run has its acknowledged cancellation -/
theorem caused_run {ops : List SysOp} (h : sys.Along Asked Sys.init ops) (r : UUID) :
    Caused (sys.Occurs (Acknowledged r) Sys.init ops) ((sys.run Sys.init ops).runtime.view r) := by
  refine Machine.hist_inv (M := sys)
    (J := fun pre s => Caused (sys.Occurs (Acknowledged r) Sys.init pre) (s.runtime.view r)) ?_ ?_ h
  · intro v hv
    cases hv
  · intro pre op hI hasked
    refine caused_step (sys_good pre) hasked ?_ ?_
    · exact fun hack => (Machine.occurs_snoc _ _ _).2 (Or.inr hack)
    · exact fun v hv hint => (Machine.occurs_snoc _ _ _).2 (Or.inl (hI v hv hint))

/-- **Only users cancel exactly when every `set_cancelled` was asked for.** -/
theorem onlyUsersCancel_iff (ops : List SysOp) (hintake : ∀ op ∈ ops, op.Intake) :
    OnlyUsersCancel ops ↔ sys.Along Asked Sys.init ops := by
  constructor
  · intro h
    refine (Machine.along_iff _ _).2 ?_
    intro pre op post hops w now r st hop hphase hst hnt
    subst hop
    obtain ⟨v, hv, rfl⟩ := exists_view hst
    -- the write goes through, so an acknowledged call came before, and its intent is still there
    have hgood := sys_good pre
    have hp := sys_performs hgood (.advance w now)
    simp only [SysOp.decisions, SysOp.call, hphase, Phase.call, StoreOp.decisions] at hp
    have hview := hp.took hv (allowed_cancelled (hgood.sound r v hv).settled hnt)
    have hcancelled : (sys.run Sys.init (pre ++ [.advance w now])).runtime.status? r = some .cancelled := by
      rw [Machine.run_snoc, status?_of_view hview]
      rfl
    have hocc := h (pre ++ [.advance w now]) post r (by simp [hops]) hcancelled
    rcases (Machine.occurs_snoc _ _ _).1 hocc with hocc | ⟨⟨t, hbad | hbad | hbad⟩, -⟩
    · obtain ⟨v', hv', hint⟩ := hasIntent_of_occurs (fun o ho => hintake o (by simp [hops, ho])) hocc
      obtain rfl := Option.some.inj (hv.symm.trans hv')
      rcases hint with hflag | hs
      · exact hflag
      · rw [hs] at hnt
        exact absurd (by decide) hnt
    · cases hbad
    · cases hbad
    · cases hbad
  · intro h pre post r hops hcancelled
    subst hops
    obtain ⟨v, hv, hs⟩ := status?_eq_some_iff.1 hcancelled
    exact caused_run ((Machine.along_append _ _ _).1 h).1 r v hv (Or.inr hs)

/-- `w1` executes run 1 and is shut down; its executor returns at the next checkpoint, and `set_cancelled` goes
through -/
def shutdownCancels : List SysOp :=
  [.api (.orchestratorCreateRun 1 "user_1" 10),
   .advance "w1" (seconds 1), .advance "w1" (seconds 1), .advance "w1" (seconds 1), .advance "w1" (seconds 1),
   .shutdownExecution "w1" (seconds 2), .executorEnds "w1" .returned (seconds 3),
   .advance "w1" (seconds 3), .advance "w1" (seconds 3)]

theorem shutdownCancels_unasked : ¬ OnlyUsersCancel shutdownCancels := by
  intro h
  obtain ⟨pre, op, post, hops, ⟨now, hop⟩, -⟩ := h shutdownCancels [] 1 (by simp) rfl
  have hmem : op ∈ shutdownCancels := by rw [hops]; simp
  rcases hop with rfl | rfl | rfl <;> simp [shutdownCancels] at hmem

/-- `w1` executes run 1, the user cancels it, and the heartbeat of `w1` notices -/
def userCancels : List SysOp :=
  [.api (.orchestratorCreateRun 1 "user_1" 10),
   .advance "w1" (seconds 1), .advance "w1" (seconds 1), .advance "w1" (seconds 1), .advance "w1" (seconds 1),
   .api (.orchestratorCancelRun 1 (seconds 2)), .heartbeat "w1" (seconds 6), .executorEnds "w1" .returned (seconds 7),
   .advance "w1" (seconds 7), .advance "w1" (seconds 7)]

theorem onlyUsersCancel_userCancels : OnlyUsersCancel userCancels := by
  have hintake : ∀ op ∈ userCancels, op.Intake := by simp [userCancels, SysOp.Intake]
  refine (onlyUsersCancel_iff userCancels hintake).2 (asked_of_undisturbed hintake ?_)
  refine (Machine.along_of_mem (C := fun op : SysOp => ∀ w now, op ≠ .shutdownExecution w now)
    (by simp [userCancels]) Sys.init).imp ?_
  intro s op hop hshut
  obtain ⟨w, now, r, heq, -⟩ := hshut
  exact hop w now heq

end LlmAgent
