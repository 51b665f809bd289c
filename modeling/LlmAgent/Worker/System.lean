/-
Any number of consumers and the API over one runtime, as one machine.

A consumer is known by its worker id, so ids are distinct. An input says who moves and what the clock shows: an API
call, one step of a consumer's loop (`advance`), one turn of its heartbeat loop, the end of its executor, a shutdown.
Every store operation is one step, and steps interleave in any order; a step that is not enabled changes nothing.

- `SysOp.call`: the store operation a step performs; `sys_performs`: the step performs its decisions;
- `sysRefine`: the system refines the life cycles of its runs, so (`sys_lifecycle`) each run takes a legal path through
  its own.
-/
import LlmAgent.Runs.StoreRefinement
import LlmAgent.Worker.Consumer

namespace LlmAgent

open Core

/-- a call on the API side: the orchestrator's, or the intake store's -/
inductive ApiOp where
  | orchestratorCreateRun (runId : UUID) (userId : String) (now : UnixTs)
  | orchestratorCancelRun (runId : UUID) (now : UnixTs)
  | createRun (runId : UUID) (userId : String) (now : UnixTs)
  | markEnqueued (runId : UUID) (now : UnixTs)
  | requestCancellation (runId : UUID) (now : UnixTs)
  | markCancelled (runId : UUID) (now : UnixTs)

def ApiOp.call : ApiOp → StoreOp
  | .orchestratorCreateRun runId userId now => .orchestratorCreateRun runId userId now
  | .orchestratorCancelRun runId now => .orchestratorCancelRun runId now
  | .createRun runId userId now => .createRun runId userId now
  | .markEnqueued runId now => .markEnqueued runId now
  | .requestCancellation runId now => .requestCancellation runId now
  | .markCancelled runId now => .markCancelled runId now

structure Sys where
  runtime : InMemoryRuntime
  consumers : String → Consumer

inductive SysOp where
  | api (op : ApiOp)
  | shutdownExecution (workerId : String) (now : UnixTs)
  | advance (workerId : String) (now : UnixTs)
  | heartbeat (workerId : String) (now : UnixTs)
  | emitEvent (workerId : String) (eventType : String) (payload : List (String × String)) (now : UnixTs)
  | executorEnds (workerId : String) (outcome : Outcome) (now : UnixTs)

/-- the clock reading of a step -/
def SysOp.now : SysOp → UnixTs
  | .api op => op.call.now
  | .shutdownExecution _ now => now
  | .advance _ now => now
  | .heartbeat _ now => now
  | .emitEvent _ _ _ now => now
  | .executorEnds _ _ now => now

/-- the consumer a step moves -/
def SysOp.mover : SysOp → Option String
  | .api _ => none
  | .shutdownExecution workerId _ => some workerId
  | .advance workerId _ => some workerId
  | .heartbeat workerId _ => some workerId
  | .emitEvent _ _ _ _ => none
  | .executorEnds workerId _ _ => some workerId

namespace Sys

/-- the empty stores, and consumers at the top of their loops -/
def init : Sys := ⟨createDefaultInMemoryRuntime, fun _ => {}⟩

def setConsumer (s : Sys) (workerId : String) (c : Consumer) : Sys :=
  { s with consumers := Function.update s.consumers workerId c }

/-- the run whose lease scope the consumer is in, with its heartbeat loop still going -/
def heartbeatRun (s : Sys) (workerId : String) : Option UUID :=
  if (s.consumers workerId).heartbeatActive then (s.consumers workerId).phase.scope else none

/-- the run the consumer's executor works on -/
def executingRun (s : Sys) (workerId : String) : Option UUID :=
  match (s.consumers workerId).phase with
  | .executing runId => some runId
  | _ => none

/-- perform a store operation -/
def perform (s : Sys) (op : StoreOp) : Reply × Sys :=
  ((op.exec s.runtime).1, { s with runtime := (op.exec s.runtime).2 })

/-- one step of a consumer's loop -/
def advance (s : Sys) (workerId : String) (now : UnixTs) : Reply × Sys :=
  let c := s.consumers workerId
  match c.phase.call workerId now with
  | some op =>
    let (reply, s') := s.perform op
    (reply, s'.setConsumer workerId (c.react now reply))
  | none =>
    match c.phase with
    | .waiting =>
      -- whether it was notified or timed out, `wait` clears the event
      (.returned, { s with runtime := { s.runtime with runSignal := false } }.setConsumer workerId c.move)
    | _ => (.returned, s.setConsumer workerId c.move)

/-- one turn of a consumer's heartbeat loop -/
def heartbeat (s : Sys) (workerId : String) (now : UnixTs) : Reply × Sys :=
  match s.heartbeatRun workerId with
  | none => (.returned, s)
  | some runId =>
    let (reply, s') := s.perform (.heartbeat runId workerId now)
    (reply, s'.setConsumer workerId ((s.consumers workerId).heartbeatReact now reply))

/-- `shutdown_execution`: no more runs, cancel the current context, wake the loop -/
def shutdownExecution (s : Sys) (workerId : String) : Sys :=
  { s with runtime := { s.runtime with runSignal := true } }.setConsumer workerId
    (s.consumers workerId).shutdownExecution

def exec (s : Sys) : SysOp → Reply × Sys
  | .api op => s.perform op.call
  | .shutdownExecution workerId _ => (.returned, s.shutdownExecution workerId)
  | .advance workerId now => s.advance workerId now
  | .heartbeat workerId now => s.heartbeat workerId now
  | .emitEvent workerId eventType payload now =>
    match s.executingRun workerId with
    | none => (.returned, s)
    | some runId => s.perform (.emitEvent runId eventType payload now)
  | .executorEnds workerId outcome _ =>
    (.returned, s.setConsumer workerId ((s.consumers workerId).executorEnds outcome))

end Sys

/-- **The whole system.** -/
def sys : Machine Sys SysOp Reply := ⟨Sys.exec⟩

/-! ## The refinement -/

/-- the store operation a step performs -/
def SysOp.call (s : Sys) : SysOp → Option StoreOp
  | .api op => some op.call
  | .shutdownExecution _ _ => none
  | .advance workerId now => (s.consumers workerId).phase.call workerId now
  | .heartbeat workerId now => (s.heartbeatRun workerId).map fun runId => .heartbeat runId workerId now
  | .emitEvent workerId eventType payload now =>
    (s.executingRun workerId).map fun runId => .emitEvent runId eventType payload now
  | .executorEnds _ _ _ => none

/-- the decisions of a step -/
noncomputable def SysOp.decisions (s : Sys) (op : SysOp) : List (UUID × Act) :=
  match op.call s with
  | none => []
  | some call => call.decisions s.runtime

@[simp] theorem runtime_setConsumer (s : Sys) (workerId : String) (c : Consumer) :
    (s.setConsumer workerId c).runtime = s.runtime := rfl

/-- clearing or setting the signal is no decision -/
theorem performs_signal {rt : InMemoryRuntime} (hgood : Good rt) (b : Bool) :
    Performs rt { rt with runSignal := b } [] :=
  ⟨⟨hgood.known, hgood.stored, hgood.unwritten⟩, trivial, rfl, (List.append_nil _).symm⟩

theorem advance_runtime (s : Sys) (workerId : String) (now : UnixTs) :
    (∃ op, (s.consumers workerId).phase.call workerId now = some op ∧
      (s.advance workerId now).2.runtime = stores.step s.runtime op) ∨
    ((s.consumers workerId).phase.call workerId now = none ∧
      ((s.advance workerId now).2.runtime = s.runtime ∨
        (s.advance workerId now).2.runtime = { s.runtime with runSignal := false })) := by
  cases hcall : (s.consumers workerId).phase.call workerId now with
  | some op =>
    refine Or.inl ⟨op, rfl, ?_⟩
    simp only [Sys.advance, hcall]
    rfl
  | none =>
    refine Or.inr ⟨rfl, ?_⟩
    simp only [Sys.advance, hcall]
    cases (s.consumers workerId).phase with
    | waiting => exact Or.inr rfl
    | _ => exact Or.inl rfl

/-- **Every step performs its decisions.** -/
theorem sys_performs {s : Sys} (hgood : Good s.runtime) (op : SysOp) :
    Performs s.runtime (sys.step s op).runtime (op.decisions s) := by
  have hrefl := Performs.refl hgood.toStructural
  cases op with
  | api op => exact exec_performs hgood op.call
  | shutdownExecution workerId now => exact performs_signal hgood true
  | executorEnds workerId outcome now => exact hrefl
  | advance workerId now =>
    change Performs s.runtime (s.advance workerId now).2.runtime _
    rcases advance_runtime s workerId now with ⟨op, hcall, hrt⟩ | ⟨hcall, hrt | hrt⟩
    · rw [hrt]
      simp only [SysOp.decisions, SysOp.call, hcall]
      exact exec_performs hgood op
    · rw [hrt]
      simp only [SysOp.decisions, SysOp.call, hcall]
      exact hrefl
    · rw [hrt]
      simp only [SysOp.decisions, SysOp.call, hcall]
      exact performs_signal hgood false
  | heartbeat workerId now =>
    change Performs s.runtime (s.heartbeat workerId now).2.runtime _
    cases hrun : s.heartbeatRun workerId with
    | none =>
      simp only [Sys.heartbeat, SysOp.decisions, SysOp.call, hrun, Option.map_none]
      exact hrefl
    | some r =>
      simp only [Sys.heartbeat, SysOp.decisions, SysOp.call, hrun, Option.map_some]
      exact exec_performs hgood (.heartbeat r workerId now)
  | emitEvent workerId eventType payload now =>
    change Performs s.runtime (s.exec (.emitEvent workerId eventType payload now)).2.runtime _
    cases hrun : s.executingRun workerId with
    | none =>
      simp only [Sys.exec, SysOp.decisions, SysOp.call, hrun, Option.map_none]
      exact hrefl
    | some r =>
      simp only [Sys.exec, SysOp.decisions, SysOp.call, hrun, Option.map_some]
      exact exec_performs hgood (.emitEvent r eventType payload now)

/-- **The system refines the life cycles of its runs.** -/
noncomputable def sysRefine : Refines sys lifecycles where
  abs s := s.runtime.view
  Good s := Good s.runtime
  Explains s op l := l = op.decisions s
  step _ op hgood :=
    have hp := sys_performs hgood op
    ⟨hp.good hgood, _, rfl, hp.legal, hp.view⟩

theorem sys_good (ops : List SysOp) : Good (sys.run Sys.init ops).runtime :=
  sysRefine.good_run (s := Sys.init) good_default ops

/-- **Every run of the system is, seen from one run id, a legal path of that run's life cycle.** -/
theorem sys_lifecycle (ops : List SysOp) (r : UUID) :
    ∃ l, (lifecycle r).Legal none l ∧ (sys.run Sys.init ops).runtime.view r = (lifecycle r).run none l := by
  obtain ⟨l, hlegal, hview⟩ := sysRefine.run (s := Sys.init) good_default ops
  have hpath : (lifecycle r).Legal none (Automaton.proj r l) := Automaton.family_legal_proj hlegal r
  refine ⟨Automaton.proj r l, hpath, ?_⟩
  calc (sys.run Sys.init ops).runtime.view r
      = lifecycles.run Sys.init.runtime.view l r := congrFun hview r
    _ = (lifecycle r).run none (Automaton.proj r l) := Automaton.family_run_apply _ l r

/-! ## How a consumer changes -/

/-- a consumer after one step of its loop -/
def Sys.advanced (s : Sys) (workerId : String) (now : UnixTs) : Consumer :=
  match (s.consumers workerId).phase.call workerId now with
  | some op => (s.consumers workerId).react now (stores.reply s.runtime op)
  | none => (s.consumers workerId).move

/-- the steps of a consumer's loop, one constructor for each way they go -/
inductive Turn (rt : InMemoryRuntime) (w : String) (now : UnixTs) (c : Consumer) : Consumer → Prop
  /-- the loop stays where it is -/
  | idle : c.phase.writes = none → Turn rt w now c c
  | wait : c.phase = .looping → c.executionAllowed = true → Turn rt w now c { c with phase := .waiting }
  | stop : c.phase.scope = none → c.executionAllowed = false → Turn rt w now c { c with phase := .stopped }
  | wake : c.phase = .waiting → Turn rt w now c { c with phase := .claiming }
  | claim (claimedRun : ClaimedRun) : c.phase = .claiming →
      stores.reply rt (.claimRun w now) = .claimed (some claimedRun) →
      Turn rt w now c { c with phase := .claimed claimedRun, lastWake := now }
  | claimNone : c.phase = .claiming → Turn rt w now c { c with phase := .looping }
  | execute (claimedRun : ClaimedRun) : c.phase = .claimed claimedRun → c.executionAllowed = true → Turn rt w now c
      { c with phase := .executing claimedRun.id, runExecutionCtx := some false, heartbeatActive := true }
  | observe (runId : UUID) : c.phase = .returned runId → c.runExecutionCtx = some true →
      Turn rt w now c { c with phase := .cancelling runId }
  | check (runId : UUID) : c.phase = .returned runId → c.runExecutionCtx ≠ some true →
      Turn rt w now c { c with phase := .checking runId }
  | intent (runId : UUID) (runStatus : RunStatus) : c.phase = .checking runId →
      stores.reply rt (.getStatus runId now) = .status runStatus → runStatus.cancelRequested = true →
      Turn rt w now c { c with phase := .cancelling runId }
  | noIntent (runId : UUID) (runStatus : RunStatus) : c.phase = .checking runId →
      stores.reply rt (.getStatus runId now) = .status runStatus → runStatus.cancelRequested = false →
      Turn rt w now c { c with phase := .succeeding runId }
  | written (runId : UUID) : c.phase.writes = some runId → Turn rt w now c c.leave
  | refused (runId : UUID) (call : StoreOp) (e : PyError) : c.phase.scope = some runId →
      c.phase.call w now = some call → stores.reply rt call = .raised e →
      Turn rt w now c { c with phase := .failing runId e.str }
  | crash (runId : UUID) (message : String) (e : PyError) : c.phase = .failing runId message →
      stores.reply rt (.setFailed runId message now) = .raised e → Turn rt w now c (c.crash e)

/-- a phase that awaits no operation moves on in one of these ways -/
theorem turn_move (rt : InMemoryRuntime) {w : String} {now : UnixTs} {c : Consumer}
    (hcall : c.phase.call w now = none) : Turn rt w now c c.move := by
  cases hphase : c.phase with
  | looping =>
    simp only [Consumer.move, hphase]
    split
    · rename_i hallowed
      exact .wait hphase hallowed
    · rename_i hallowed
      exact .stop (by rw [hphase]; rfl) (Bool.eq_false_iff.2 hallowed)
  | waiting =>
    simp only [Consumer.move, hphase]
    exact .wake hphase
  | claimed claimedRun =>
    simp only [Consumer.move, hphase]
    split
    · rename_i hallowed
      exact .execute claimedRun hphase hallowed
    · rename_i hallowed
      exact .stop (by rw [hphase]; rfl) (Bool.eq_false_iff.2 hallowed)
  | returned j =>
    simp only [Consumer.move, hphase]
    split
    · rename_i hctx
      exact .observe j hphase hctx
    · rename_i hctx
      exact .check j hphase hctx
  | executing j =>
    simp only [Consumer.move, hphase]
    exact .idle (by rw [hphase]; rfl)
  | stopped =>
    simp only [Consumer.move, hphase]
    exact .idle (by rw [hphase]; rfl)
  | crashed e =>
    simp only [Consumer.move, hphase]
    exact .idle (by rw [hphase]; rfl)
  | _ =>
    rw [hphase] at hcall
    cases hcall

/-- so does a phase that awaits one, once it is answered -/
theorem turn_react (rt : InMemoryRuntime) {w : String} {now : UnixTs} {c : Consumer} {call : StoreOp}
    (hcall : c.phase.call w now = some call) : Turn rt w now c (c.react now (stores.reply rt call)) := by
  have hcall' := hcall
  cases hphase : c.phase <;> rw [hphase] at hcall' <;> cases hcall' <;> simp only [Consumer.react, hphase]
  case claiming =>
    split
    · rename_i claimedRun hreply
      exact .claim claimedRun hphase hreply
    · exact .claimNone hphase
  case checking j =>
    split
    · rename_i runStatus hreply
      split
      · rename_i hflag
        exact .intent j runStatus hphase hreply hflag
      · rename_i hflag
        exact .noIntent j runStatus hphase hreply (Bool.eq_false_iff.2 hflag)
    · rename_i e hreply
      exact .refused j _ e (by rw [hphase]; rfl) hcall hreply
    · exact .idle (by rw [hphase]; rfl)
  case cancelling j =>
    split
    · rename_i e hreply
      exact .refused j _ e (by rw [hphase]; rfl) hcall hreply
    · exact .written j (by rw [hphase]; rfl)
  case succeeding j =>
    split
    · rename_i e hreply
      exact .refused j _ e (by rw [hphase]; rfl) hcall hreply
    · exact .written j (by rw [hphase]; rfl)
  case failing j message =>
    split
    · rename_i e hreply
      exact .crash j message e hphase hreply
    · exact .written j (by rw [hphase]; rfl)

/-- **Every step of the loop is one of these.** -/
theorem turn_advanced (s : Sys) (w : String) (now : UnixTs) :
    Turn s.runtime w now (s.consumers w) (s.advanced w now) := by
  cases hcall : (s.consumers w).phase.call w now with
  | none =>
    simp only [Sys.advanced, hcall]
    exact turn_move s.runtime hcall
  | some call =>
    simp only [Sys.advanced, hcall]
    exact turn_react s.runtime hcall

theorem setConsumer_self (s : Sys) (workerId : String) (c : Consumer) :
    (s.setConsumer workerId c).consumers workerId = c := by
  simp only [Sys.setConsumer, Function.update_self]

theorem setConsumer_ne (s : Sys) {workerId w : String} (c : Consumer) (h : w ≠ workerId) :
    (s.setConsumer workerId c).consumers w = s.consumers w := by
  simp only [Sys.setConsumer, Function.update_of_ne h]

theorem consumers_advance (s : Sys) (workerId : String) (now : UnixTs) :
    (s.advance workerId now).2.consumers = Function.update s.consumers workerId (s.advanced workerId now) := by
  cases hcall : (s.consumers workerId).phase.call workerId now with
  | some op =>
    simp only [Sys.advance, Sys.advanced, hcall]
    rfl
  | none =>
    simp only [Sys.advance, Sys.advanced, hcall]
    split <;> rfl

theorem consumer_advance (s : Sys) (w : String) (now : UnixTs) :
    (sys.step s (.advance w now)).consumers w = s.advanced w now := by
  change (s.advance w now).2.consumers w = _
  rw [consumers_advance, Function.update_self]

/-- a phase that neither awaits an operation nor waits moves on alone -/
theorem step_advance_move {s : Sys} {w : String} (now : UnixTs) (hcall : (s.consumers w).phase.call w now = none)
    (hwait : (s.consumers w).phase ≠ .waiting) :
    sys.step s (.advance w now) = s.setConsumer w (s.consumers w).move := by
  change (s.advance w now).2 = _
  simp only [Sys.advance, hcall]

/-- without a heartbeat loop there is no turn of it -/
theorem step_heartbeat_none {s : Sys} {w : String} (now : UnixTs) (h : s.heartbeatRun w = none) :
    sys.step s (.heartbeat w now) = s := by
  change (s.heartbeat w now).2 = s
  simp only [Sys.heartbeat, h]

theorem consumers_heartbeat {s : Sys} {w : String} {r : UUID} (now : UnixTs) (h : s.heartbeatRun w = some r) :
    (sys.step s (.heartbeat w now)).consumers = Function.update s.consumers w
      ((s.consumers w).heartbeatReact now (stores.reply s.runtime (.heartbeat r w now))) := by
  change (s.heartbeat w now).2.consumers = _
  simp only [Sys.heartbeat, h]
  rfl

/-- **What a step does to a consumer**: nothing, or one of its own four kinds of step. -/
theorem consumer_cases (s : Sys) (op : SysOp) (w : String) : (sys.step s op).consumers w = s.consumers w ∨
    (∃ now, op = .shutdownExecution w now ∧ (sys.step s op).consumers w = (s.consumers w).shutdownExecution) ∨
    (∃ now, op = .advance w now ∧ (sys.step s op).consumers w = s.advanced w now) ∨
    (∃ now runId, op = .heartbeat w now ∧ s.heartbeatRun w = some runId ∧ (sys.step s op).consumers w =
      (s.consumers w).heartbeatReact now (stores.reply s.runtime (.heartbeat runId w now))) ∨
    ∃ outcome now, op = .executorEnds w outcome now ∧
      (sys.step s op).consumers w = (s.consumers w).executorEnds outcome := by
  cases op with
  | api op => exact Or.inl rfl
  | emitEvent workerId eventType payload now =>
    refine Or.inl ?_
    change (s.exec (.emitEvent workerId eventType payload now)).2.consumers w = _
    cases hrun : s.executingRun workerId <;> simp only [Sys.exec, hrun, Sys.perform]
  | shutdownExecution workerId now =>
    by_cases h : w = workerId
    · subst h
      exact Or.inr (Or.inl ⟨now, rfl, setConsumer_self _ _ _⟩)
    · exact Or.inl (setConsumer_ne _ _ h)
  | advance workerId now =>
    by_cases h : w = workerId
    · subst h
      exact Or.inr (Or.inr (Or.inl ⟨now, rfl, consumer_advance s w now⟩))
    · refine Or.inl ?_
      change (s.advance workerId now).2.consumers w = _
      rw [consumers_advance, Function.update_of_ne h]
  | heartbeat workerId now =>
    cases hrun : s.heartbeatRun workerId with
    | none => exact Or.inl (by rw [step_heartbeat_none now hrun])
    | some runId =>
      by_cases h : w = workerId
      · subst h
        exact Or.inr (Or.inr (Or.inr (Or.inl ⟨now, runId, rfl, hrun, by
          rw [consumers_heartbeat now hrun, Function.update_self]⟩)))
      · exact Or.inl (by rw [consumers_heartbeat now hrun, Function.update_of_ne h])
  | executorEnds workerId outcome now =>
    by_cases h : w = workerId
    · subst h
      exact Or.inr (Or.inr (Or.inr (Or.inr ⟨outcome, now, rfl, setConsumer_self _ _ _⟩)))
    · exact Or.inl (setConsumer_ne _ _ h)

/-- a step moves no other consumer -/
theorem consumers_of_mover {s : Sys} {op : SysOp} {w : String} (h : op.mover ≠ some w) :
    (sys.step s op).consumers w = s.consumers w := by
  rcases consumer_cases s op w with hc | ⟨now, rfl, -⟩ | ⟨now, rfl, -⟩ | ⟨now, r, rfl, -⟩ | ⟨outcome, now, rfl, -⟩
  · exact hc
  all_goals exact absurd rfl h

theorem consumers_of_movers {s : Sys} {ops : List SysOp} {w : String} (h : ∀ op ∈ ops, op.mover ≠ some w) :
    (sys.run s ops).consumers w = s.consumers w :=
  Machine.run_inv (M := sys) (I := fun s' : Sys => s'.consumers w = s.consumers w)
    (P := fun (_ : Sys) (op : SysOp) => op.mover ≠ some w) (fun _ _ hI hop => (consumers_of_mover hop).trans hI) rfl
    (Machine.along_of_mem h s)

end LlmAgent
