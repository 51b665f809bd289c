/-
The system with `execute_run`'s end as one step. With the in-memory event log nothing suspends between the executor's
end and the terminal write, so this is how the consumers really interleave; `sys` allows more.

- `Sys.finish`, `atomicSys`: the executor's end, the checks and the terminal write in one step;
- `finish_eq_steps`, `atomic_run`: a finish is a sequence of steps of `sys`, and a run of `atomicSys` one of `sys`;
- `finishAct`, `executeRun_spec`: the decision a finish takes;
- `atomicRefine`: the system refines the life cycles of its runs;
- `settled_run`: no consumer is ever seen between its executor's end and its terminal write.
-/
import LlmAgent.Worker.Holding

namespace LlmAgent

open Core

/-- a step of the orchestrator or of a consumer; a finish is one step -/
inductive AtomicOp where
  | createRun (runId : UUID) (userId : String) (now : UnixTs)
  | cancelRun (runId : UUID) (now : UnixTs)
  | shutdownExecution (workerId : String) (now : UnixTs)
  | advance (workerId : String) (now : UnixTs)
  | heartbeat (workerId : String) (now : UnixTs)
  | emitEvent (workerId : String) (eventType : String) (payload : List (String × String)) (now : UnixTs)
  | finish (workerId : String) (outcome : Outcome) (now : UnixTs)

namespace Sys

/-- `execute_run` ended, with a result or with an exception -/
def endsWith (s : Sys) (workerId : String) : EStateM.Result PyError InMemoryRuntime Unit → Sys
  | .ok _ rt => { s with runtime := rt }.setConsumer workerId (s.consumers workerId).leave
  | .error e rt => { s with runtime := rt }.setConsumer workerId ((s.consumers workerId).crash e)

/-- the executor ends and `execute_run` runs to its end -/
def finish (s : Sys) (workerId : String) (outcome : Outcome) (now : UnixTs) : Sys :=
  match s.executingRun workerId with
  | none => s
  | some runId => s.endsWith workerId
      ((executeRun runId outcome ((s.consumers workerId).runExecutionCtx = some true) now).run s.runtime)

end Sys

/-- the step of `sys` that a step other than a finish is -/
def AtomicOp.fine : AtomicOp → Option SysOp
  | .createRun runId userId now => some (.api (.orchestratorCreateRun runId userId now))
  | .cancelRun runId now => some (.api (.orchestratorCancelRun runId now))
  | .shutdownExecution workerId now => some (.shutdownExecution workerId now)
  | .advance workerId now => some (.advance workerId now)
  | .heartbeat workerId now => some (.heartbeat workerId now)
  | .emitEvent workerId eventType payload now => some (.emitEvent workerId eventType payload now)
  | .finish _ _ _ => none

def Sys.atomicExec (s : Sys) (op : AtomicOp) : Reply × Sys :=
  match op with
  | .finish workerId outcome now => (.returned, s.finish workerId outcome now)
  | .createRun runId userId now => s.exec (.api (.orchestratorCreateRun runId userId now))
  | .cancelRun runId now => s.exec (.api (.orchestratorCancelRun runId now))
  | .shutdownExecution workerId now => s.exec (.shutdownExecution workerId now)
  | .advance workerId now => s.exec (.advance workerId now)
  | .heartbeat workerId now => s.exec (.heartbeat workerId now)
  | .emitEvent workerId eventType payload now => s.exec (.emitEvent workerId eventType payload now)

/-- **The system with atomic finishes.** -/
def atomicSys : Machine Sys AtomicOp Reply := ⟨Sys.atomicExec⟩

theorem atomic_exec_fine {op : AtomicOp} {fine : SysOp} (h : op.fine = some fine) (s : Sys) :
    atomicSys.exec s op = sys.exec s fine := by
  cases op <;> cases h <;> rfl

theorem atomic_step_fine {op : AtomicOp} {fine : SysOp} (h : op.fine = some fine) (s : Sys) :
    atomicSys.step s op = sys.step s fine := congrArg Prod.snd (atomic_exec_fine h s)

theorem fine_eq_none {op : AtomicOp} (h : op.fine = none) :
    ∃ workerId outcome now, op = .finish workerId outcome now := by
  cases op with
  | finish workerId outcome now => exact ⟨workerId, outcome, now, rfl⟩
  | _ => cases h

/-! ## A finish is a sequence of steps -/

section Steps

variable {s : Sys} {w : String} {r : UUID} {now : UnixTs}

theorem tryCatch_ok {α : Type} {rt : InMemoryRuntime} {body : StoreM α} {handler : PyError → StoreM α}
    {rt' : InMemoryRuntime} {x : α} (h : body.run rt = .ok x rt') : (tryCatch body handler).run rt = .ok x rt' := by
  have h' : body rt = .ok x rt' := h
  change EStateM.tryCatch body handler rt = _
  simp only [EStateM.tryCatch, h']

theorem tryCatch_error {α : Type} {rt : InMemoryRuntime} {body : StoreM α} {handler : PyError → StoreM α}
    {rt' : InMemoryRuntime} {e : PyError} (h : body.run rt = .error e rt') :
    (tryCatch body handler).run rt = (handler e).run rt' := by
  have h' : body rt = .error e rt' := h
  change EStateM.tryCatch body handler rt = _
  simp only [EStateM.tryCatch, h']
  rfl

/-- only what the body does on this runtime matters -/
theorem tryCatch_congr {α : Type} {rt : InMemoryRuntime} {body body' : StoreM α} (handler : PyError → StoreM α)
    (h : body.run rt = body'.run rt) : (tryCatch body handler).run rt = (tryCatch body' handler).run rt := by
  cases hb : body'.run rt with
  | ok x rt' => rw [tryCatch_ok hb, tryCatch_ok (h.trans hb)]
  | error e rt' => rw [tryCatch_error hb, tryCatch_error (h.trans hb)]

/-- the consumer with its loop at phase `p`, over runtime `rt` -/
def Sys.standing (s : Sys) (rt : InMemoryRuntime) (w : String) (p : Phase) : Sys :=
  Sys.setConsumer { s with runtime := rt } w { s.consumers w with phase := p }

theorem phase_standing (s : Sys) (rt : InMemoryRuntime) (w : String) (p : Phase) :
    ((s.standing rt w p).consumers w).phase = p := by
  rw [Sys.standing, setConsumer_self]

/-- where the consumer stood inside `execute_run` is forgotten at its end -/
theorem endsWith_standing (s : Sys) (rt : InMemoryRuntime) (w : String) (p : Phase)
    (result : EStateM.Result PyError InMemoryRuntime Unit) :
    (s.standing rt w p).endsWith w result = s.endsWith w result := by
  cases result <;>
    simp only [Sys.standing, Sys.endsWith, Sys.setConsumer, Function.update_self, Function.update_idem,
      Consumer.leave, Consumer.crash]

/-- some steps of the loop of `w` lead from `s` to `s'` -/
def Leads (now : UnixTs) (w : String) (s s' : Sys) : Prop := ∃ k, sys.run s (List.replicate k (.advance w now)) = s'

theorem Leads.step {s' : Sys} (h : Leads now w (sys.step s (.advance w now)) s') : Leads now w s s' := by
  obtain ⟨k, hk⟩ := h
  exact ⟨k + 1, hk⟩

/-- a step of the loop at a store operation -/
theorem step_advance_call (call : StoreOp) (hcall : (s.consumers w).phase.call w now = some call) :
    sys.step s (.advance w now) = { s with runtime := (call.exec s.runtime).2 }.setConsumer w
      ((s.consumers w).react now (call.exec s.runtime).1) := by
  change (s.advance w now).2 = _
  simp only [Sys.advance, hcall, Sys.perform]

theorem leads_failing {message : String} (now : UnixTs) (h : (s.consumers w).phase = .failing r message) :
    Leads now w s (s.endsWith w ((setFailed r message now).run s.runtime)) := by
  refine ⟨1, ?_⟩
  change sys.step s (.advance w now) = _
  rw [step_advance_call (.setFailed r message now) (by rw [h]; rfl)]
  simp only [StoreOp.exec, Consumer.react, h]
  cases hrun : (setFailed r message now).run s.runtime with
  | ok x rt => rw [answer_ok hrun]; rfl
  | error e rt => rw [answer_error hrun]; rfl

/-- the handler, after an exception over runtime `rt` -/
theorem leads_handler (s : Sys) (w : String) (r : UUID) (now : UnixTs) (rt : InMemoryRuntime) (e : PyError) :
    Leads now w (s.standing rt w (.failing r e.str)) (s.endsWith w ((setFailed r e.str now).run rt)) := by
  have h := leads_failing now (phase_standing s rt w (.failing r e.str))
  rwa [endsWith_standing] at h

/-- a terminal write, and the handler when it raises -/
theorem leads_handled {call : StoreOp} {body : StoreM Unit} (hcall : (s.consumers w).phase.call w now = some call)
    (hexec : call.exec s.runtime = answer (fun _ => .returned) body s.runtime)
    (hraised : ∀ e, (s.consumers w).react now (.raised e) = { s.consumers w with phase := .failing r e.str })
    (hreturned : (s.consumers w).react now .returned = (s.consumers w).leave) :
    Leads now w s (s.endsWith w ((tryCatch body fun exc => setFailed r exc.str now).run s.runtime)) := by
  refine Leads.step ?_
  rw [step_advance_call call hcall, hexec]
  cases hrun : body.run s.runtime with
  | ok x rt =>
    rw [tryCatch_ok hrun, answer_ok hrun, hreturned]
    exact ⟨0, rfl⟩
  | error e rt =>
    rw [tryCatch_error hrun, answer_error hrun, hraised]
    exact leads_handler s w r now rt e

theorem leads_cancelling (now : UnixTs) (h : (s.consumers w).phase = .cancelling r) : Leads now w s
    (s.endsWith w ((tryCatch (setCancelled r now) fun exc => setFailed r exc.str now).run s.runtime)) :=
  leads_handled (by rw [h]; rfl) rfl (fun e => by simp only [Consumer.react, h]) (by simp only [Consumer.react, h])

theorem leads_succeeding (now : UnixTs) (h : (s.consumers w).phase = .succeeding r) : Leads now w s
    (s.endsWith w ((tryCatch (setSucceeded r okResult now) fun exc => setFailed r exc.str now).run s.runtime)) :=
  leads_handled (by rw [h]; rfl) rfl (fun e => by simp only [Consumer.react, h]) (by simp only [Consumer.react, h])

/-- an exception of the executor goes to the handler -/
theorem executeRun_raised (rt : InMemoryRuntime) (r : UUID) (message : String) (isCancelled : Bool) (now : UnixTs) :
    (executeRun r (.raised message) isCancelled now).run rt = (setFailed r message now).run rt :=
  tryCatch_error (e := .executor message) rfl

theorem executeRun_cancelled (rt : InMemoryRuntime) (r : UUID) (now : UnixTs) :
    (executeRun r .returned true now).run rt =
      (tryCatch (setCancelled r now) fun exc => setFailed r exc.str now).run rt := rfl

/-- with the run's record at hand, `execute_run` goes on by its intent -/
theorem executeRun_checked {rt : InMemoryRuntime} {st : RunStatus} (h : rt.record? r = some st) (now : UnixTs) :
    (executeRun r .returned false now).run rt = if st.cancelRequested
      then (tryCatch (setCancelled r now) fun exc => setFailed r exc.str now).run rt
      else (tryCatch (setSucceeded r okResult now) fun exc => setFailed r exc.str now).run rt := by
  have hread : (getStatus r).run rt = _ := findRun_run h
  cases hflag : st.cancelRequested with
  | true =>
    refine tryCatch_congr _ ?_
    simp only [Bool.false_eq_true, if_false, EStateM.run_bind, hread, hflag, if_true]
  | false =>
    refine tryCatch_congr _ ?_
    simp only [Bool.false_eq_true, if_false, EStateM.run_bind, hread, hflag]

theorem executeRun_unknown {rt : InMemoryRuntime} (h : rt.record? r = none) (now : UnixTs) :
    (executeRun r .returned false now).run rt =
      (setFailed r (PyError.str (.runNotFound (UUID.str r))) now).run rt := by
  have hread : (getStatus r).run rt = _ := findRun_unknown h
  refine tryCatch_error ?_
  simp only [Bool.false_eq_true, if_false, EStateM.run_bind, hread]

theorem leads_checking (now : UnixTs) (h : (s.consumers w).phase = .checking r) :
    Leads now w s (s.endsWith w ((executeRun r .returned false now).run s.runtime)) := by
  refine Leads.step ?_
  rw [step_advance_call (.getStatus r now) (by rw [h]; rfl)]
  change Leads now w (Sys.setConsumer { s with runtime := (answer .status (getStatus r) s.runtime).2 } w
    ((s.consumers w).react now (answer .status (getStatus r) s.runtime).1)) _
  cases hrec : s.runtime.record? r with
  | none =>
    have hread : (getStatus r).run s.runtime = _ := findRun_unknown hrec
    rw [executeRun_unknown hrec, answer_error hread]
    simp only [Consumer.react, h]
    exact leads_handler s w r now s.runtime (.runNotFound (UUID.str r))
  | some st =>
    have hread : (getStatus r).run s.runtime = _ := findRun_run hrec
    rw [executeRun_checked hrec, answer_ok hread]
    simp only [Consumer.react, h]
    split_ifs
    · have hlead := leads_cancelling now (phase_standing s s.runtime w (.cancelling r))
      rwa [endsWith_standing] at hlead
    · have hlead := leads_succeeding now (phase_standing s s.runtime w (.succeeding r))
      rwa [endsWith_standing] at hlead

theorem leads_returned (now : UnixTs) (h : (s.consumers w).phase = .returned r) : Leads now w s
    (s.endsWith w ((executeRun r .returned ((s.consumers w).runExecutionCtx = some true) now).run s.runtime)) := by
  refine Leads.step ?_
  rw [step_advance_move now (by rw [h]; rfl) (by rw [h]; nofun)]
  simp only [Consumer.move, h]
  by_cases hctx : (s.consumers w).runExecutionCtx = some true
  · rw [if_pos hctx, decide_eq_true hctx, executeRun_cancelled]
    have hlead := leads_cancelling now (phase_standing s s.runtime w (.cancelling r))
    rwa [endsWith_standing] at hlead
  · rw [if_neg hctx, decide_eq_false hctx]
    have hlead := leads_checking now (phase_standing s s.runtime w (.checking r))
    rwa [endsWith_standing] at hlead

/-- **A finish is the end of the executor and some steps of the consumer's loop.** -/
theorem finish_eq_steps (s : Sys) (w : String) (outcome : Outcome) (now : UnixTs) : ∃ k,
    s.finish w outcome now = sys.run s (.executorEnds w outcome now :: List.replicate k (.advance w now)) := by
  have hstep : sys.step s (.executorEnds w outcome now) = s.setConsumer w ((s.consumers w).executorEnds outcome) := rfl
  cases hphase : (s.consumers w).phase with
  | executing r =>
    have hrun : s.executingRun w = some r := by simp only [Sys.executingRun, hphase]
    simp only [Sys.finish, hrun]
    have hlead : Leads now w (sys.step s (.executorEnds w outcome now)) (s.endsWith w
        ((executeRun r outcome ((s.consumers w).runExecutionCtx = some true) now).run s.runtime)) := by
      cases outcome with
      | raised message =>
        rw [hstep, executeRun_raised]
        simp only [Consumer.executorEnds, hphase]
        exact leads_handler s w r now s.runtime (.executor message)
      | returned =>
        rw [hstep]
        simp only [Consumer.executorEnds, hphase]
        have hlead := leads_returned now (phase_standing s s.runtime w (.returned r))
        rw [endsWith_standing] at hlead
        simpa only [Sys.standing, setConsumer_self, runtime_setConsumer] using hlead
    obtain ⟨k, hk⟩ := hlead
    exact ⟨k, hk.symm⟩
  | _ =>
    refine ⟨0, ?_⟩
    change _ = sys.step s (.executorEnds w outcome now)
    rw [hstep]
    simp only [Sys.finish, Sys.executingRun, Consumer.executorEnds, hphase, Sys.setConsumer, Function.update_eq_self]

/-- **Every run with atomic finishes is a run of `sys`.** -/
theorem atomic_run (s : Sys) (ops : List AtomicOp) : ∃ steps, sys.run s steps = atomicSys.run s ops := by
  induction ops generalizing s with
  | nil => exact ⟨[], rfl⟩
  | cons op ops ih =>
    obtain ⟨steps, hsteps⟩ := ih (atomicSys.step s op)
    rw [Machine.run_cons, ← hsteps]
    cases hfine : op.fine with
    | some fine =>
      rw [atomic_step_fine hfine]
      exact ⟨fine :: steps, rfl⟩
    | none =>
      obtain ⟨w, outcome, now, rfl⟩ := fine_eq_none hfine
      obtain ⟨k, hk⟩ := finish_eq_steps s w outcome now
      change ∃ steps', sys.run s steps' = sys.run (s.finish w outcome now) steps
      rw [hk, ← Machine.run_append]
      exact ⟨_, rfl⟩

end Steps

/-! ## What a finish decides -/

/-- the decision `execute_run` takes about its run after the executor ended -/
def finishAct (rt : InMemoryRuntime) (runId : UUID) (outcome : Outcome) (isCancelled : Bool) (now : UnixTs) : Act :=
  match outcome with
  | .raised message => .fail message now
  | .returned => if isCancelled || intendedIn rt.view runId then .cancel now else .succeed okResult now

section ExecuteRun

variable {rt : InMemoryRuntime} {r : UUID}

/-- a body that takes its decision ends the block; when it cannot, the run is not RUNNING, and the handler cannot take
its own either -/
theorem handled_spec (hgood : Good rt) {body : StoreM Unit} {a : Act} (now : UnixTs)
    (h : Decides body rt r a fun _ => True) (hrunning : ∀ st, st.status = .running → a.Guard st) :
    Decides (tryCatch body fun exc => setFailed r exc.str now) rt r a fun _ => True := by
  rcases h with ⟨v, x, rt', hv, hg, hrun, hx, hp⟩ | ⟨hno, ⟨e, hrun⟩ | ⟨x, -, hx⟩⟩
  · exact Or.inl ⟨v, x, rt', hv, hg, tryCatch_ok hrun, hx, hp⟩
  · refine Or.inr ⟨hno, Or.inl ?_⟩
    rw [tryCatch_error hrun]
    rcases setFailed_spec hgood r now e.str with ⟨v, -, -, hv, hg, -⟩ | ⟨-, herr | ⟨x, -, hx⟩⟩
    · exact absurd (hrunning _ hg) (hno v hv)
    · exact herr
    · exact absurd trivial hx
  · exact absurd trivial hx

/-- a call that runs like another one decides like it -/
theorem Decides.congr {α : Type} {call call' : StoreM α} {a : Act} {yes : α → Prop}
    (h : Decides call rt r a yes) (hrun : call'.run rt = call.run rt) : Decides call' rt r a yes := by
  unfold Decides at h ⊢
  rwa [hrun]

/-- **A finish takes the decision of its outcome**, or raises and changes nothing. -/
theorem executeRun_spec (hgood : Good rt) (r : UUID) (outcome : Outcome) (isCancelled : Bool) (now : UnixTs) :
    Decides (executeRun r outcome isCancelled now) rt r (finishAct rt r outcome isCancelled now) fun _ => True := by
  have hcancel := handled_spec hgood now (setCancelled_spec hgood r now)
    (fun st hst => by simp [Act.Guard, hst, allowed_iff])
  have hsucceed := handled_spec hgood now (setSucceeded_spec hgood r now okResult) (fun st hst => hst)
  cases outcome with
  | raised message => exact (setFailed_spec hgood r now message).congr (executeRun_raised rt r message isCancelled now)
  | returned =>
    cases isCancelled with
    | true => exact hcancel
    | false =>
      cases hv : rt.view r with
      | none =>
        have hno : ∀ a : Act, ∀ v, rt.view r = some v → ¬ a.Guard v.record :=
          fun a v h => (Option.some_ne_none v (h.symm.trans hv)).elim
        refine Or.inr ⟨hno _, Or.inl ?_⟩
        rw [executeRun_unknown (record?_eq_none_iff.2 hv)]
        rcases setFailed_spec hgood r now (PyError.str (.runNotFound (UUID.str r))) with
          ⟨v, -, -, hv', hg, -⟩ | ⟨-, herr | ⟨x, -, hx⟩⟩
        · exact absurd hg (hno _ v hv')
        · exact herr
        · exact absurd trivial hx
      | some v =>
        have hrun := executeRun_checked (record?_of_view hv) now
        have hact : finishAct rt r .returned false now =
            if v.record.cancelRequested then .cancel now else .succeed okResult now := by
          simp [finishAct, intendedIn, hv]
        rw [hact]
        cases hflag : v.record.cancelRequested with
        | true =>
          rw [hflag] at hrun
          exact hcancel.congr hrun
        | false =>
          rw [hflag] at hrun
          exact hsucceed.congr hrun

end ExecuteRun

/-- the decisions of a step -/
noncomputable def AtomicOp.decisions (s : Sys) (op : AtomicOp) : List (UUID × Act) :=
  match op with
  | .finish workerId outcome now =>
    match s.executingRun workerId with
    | none => []
    | some runId => taken s.runtime.view runId (finishAct s.runtime runId outcome
        ((s.consumers workerId).runExecutionCtx = some true) now)
  | op =>
    match op.fine with
    | none => []
    | some fine => fine.decisions s

theorem decisions_fine {op : AtomicOp} {fine : SysOp} (h : op.fine = some fine) (s : Sys) :
    op.decisions s = fine.decisions s := by
  cases op <;> cases h <;> rfl

theorem runtime_endsWith (s : Sys) (w : String) (call : StoreM Unit) (rt : InMemoryRuntime) :
    (s.endsWith w (call.run rt)).runtime = (answer (fun _ => .returned) call rt).2 := by
  cases hrun : call.run rt with
  | ok x rt' => rw [answer_ok hrun]; rfl
  | error e rt' => rw [answer_error hrun]; rfl

/-- **Every step performs its decisions**, a finish too. -/
theorem atomic_performs {s : Sys} (hgood : Good s.runtime) (op : AtomicOp) :
    Performs s.runtime (atomicSys.step s op).runtime (op.decisions s) := by
  cases hfine : op.fine with
  | some fine =>
    rw [atomic_step_fine hfine, decisions_fine hfine]
    exact sys_performs hgood fine
  | none =>
    obtain ⟨w, outcome, now, rfl⟩ := fine_eq_none hfine
    change Performs s.runtime (s.finish w outcome now).runtime _
    cases hrun : s.executingRun w with
    | none =>
      simp only [Sys.finish, AtomicOp.decisions, hrun]
      exact Performs.refl hgood.toStructural
    | some r =>
      simp only [Sys.finish, AtomicOp.decisions, hrun]
      rw [runtime_endsWith]
      exact (executeRun_spec hgood r outcome _ now).performs hgood _

/-- **The system with atomic finishes refines the life cycles of its runs.** -/
noncomputable def atomicRefine : Refines atomicSys lifecycles where
  abs s := s.runtime.view
  Good s := Good s.runtime
  Explains s op l := l = op.decisions s
  step _ op hgood :=
    have hp := atomic_performs hgood op
    ⟨hp.good hgood, _, rfl, hp.legal, hp.view⟩

theorem atomic_good (ops : List AtomicOp) : Good (atomicSys.run Sys.init ops).runtime :=
  atomicRefine.good_run (s := Sys.init) good_default ops

/-! ## No consumer is seen on its way through a finish -/

/-- a consumer in its lease scope is inside its executor -/
def Consumer.Settled (c : Consumer) : Prop := ∀ r, c.phase.scope = some r → c.phase = .executing r

theorem Turn.settled {rt : InMemoryRuntime} {w : String} {now : UnixTs} {c c' : Consumer} (h : Turn rt w now c c')
    (hc : c.Settled) : c'.Settled := by
  -- a consumer that is settled is at none of the phases between the executor's end and the terminal write
  have hscope : ∀ p r, c.phase = p → p.scope = some r → p = .executing r := by
    rintro p r rfl hr
    exact hc r hr
  cases h with
  | idle => exact hc
  | observe j hphase => cases hscope _ j hphase rfl
  | check j hphase => cases hscope _ j hphase rfl
  | intent j _ hphase => cases hscope _ j hphase rfl
  | noIntent j _ hphase => cases hscope _ j hphase rfl
  | refused j call e hsc hcall =>
    rw [hc j hsc] at hcall
    cases hcall
  | execute claimedRun => exact fun r hr => congrArg Phase.executing (Option.some.inj hr)
  | _ => exact fun r hr => by cases hr

theorem settled_step {s : Sys} {op : AtomicOp} (h : ∀ w, (s.consumers w).Settled) (w : String) :
    ((atomicSys.step s op).consumers w).Settled := by
  cases hfine : op.fine with
  | none =>
    obtain ⟨w', outcome, now, rfl⟩ := fine_eq_none hfine
    change ((s.finish w' outcome now).consumers w).Settled
    cases hrun : s.executingRun w' with
    | none =>
      simp only [Sys.finish, hrun]
      exact h w
    | some r =>
      simp only [Sys.finish, hrun]
      by_cases hw : w = w'
      · subst hw
        cases (executeRun r outcome ((s.consumers w).runExecutionCtx = some true) now).run s.runtime <;>
          simp only [Sys.endsWith, setConsumer_self] <;> exact fun j hj => by cases hj
      · cases (executeRun r outcome ((s.consumers w').runExecutionCtx = some true) now).run s.runtime <;>
          simp only [Sys.endsWith, setConsumer_ne _ _ hw] <;> exact h w
  | some fine =>
    rw [atomic_step_fine hfine]
    rcases consumer_cases s fine w with hc | ⟨now, -, hc⟩ | ⟨now, -, hc⟩ | ⟨now, j, -, -, hc⟩ |
      ⟨outcome, now, rfl, -⟩
    · rw [hc]; exact h w
    · rw [hc]; exact h w
    · rw [hc]; exact (turn_advanced s w now).settled (h w)
    · rw [hc, Consumer.Settled, phase_heartbeatReact]; exact h w
    · cases op <;> cases hfine

theorem settled_run (ops : List AtomicOp) (w : String) : ((atomicSys.run Sys.init ops).consumers w).Settled :=
  Machine.run_inv' (M := atomicSys) (I := fun s : Sys => ∀ w, (s.consumers w).Settled)
    (fun _ _ h => settled_step h) (fun _ r hr => by cases hr) ops w

end LlmAgent
