/-
The executors of `agent_run_worker/in_memory/run_executor.py`, inside the whole system.

`execute` runs its steps one after another, looks at the cancellation event before each of them, and sleeps in each.
While it sleeps anything may happen, so an executor is resumed again and again, and each time it begins its next step
or returns.

- `AgentRunExecutor.goesOn`: what `execute` does when it is resumed;
- `Crew`, `crew`: the system in which every worker has one of these executors, with the log of the steps they begin. A
  line of the log also holds the retry count that `claim_run` answered, which numbers the attempts at a run;
- `crew_run`: without its log, a run of the crew is a run of `atomicSys`;
- `Attempted`, `attempt_new`: the attempts at a run that were made so far; a claim starts a new one;
- `Orderly`: the lines of each attempt are the first steps of one worker, in order;
- `steps_of_run`: so a run that was not retried went through each step once, and it succeeded only after all of them.
-/
import LlmAgent.Runs.QueueOrder
import LlmAgent.Worker.CancellationHonoured

namespace LlmAgent

open Core

/-! ## The executors -/

inductive AgentRunExecutor where
  | randomSleep
  | dummy
deriving DecidableEq, Repr

namespace AgentRunExecutor

/-- how many steps `execute` has -/
def steps : AgentRunExecutor → ℕ
  | .randomSleep => 5
  | .dummy => 1

/-- `execute` is called, or its sleep is over, after so many steps: it begins the next one, or returns -/
def goesOn (executor : AgentRunExecutor) (begun : ℕ) (isCancelled : Bool) : Bool :=
  if begun < executor.steps then !isCancelled else false

end AgentRunExecutor

/-- how often the run went back to the queue -/
def RunStatus.retries (st : RunStatus) : ℕ := (st.retryCount.getD 0).toNat

/-- a line of the log: a step of a run that an executor began, and the retry count of the run at its claim -/
structure StepLine where
  runId : UUID
  workerId : String
  attempt : ℕ
  step : ℕ
deriving DecidableEq, Repr

/-- the system and its executors -/
structure Crew where
  sys : Sys
  /-- the steps begun since the worker's last claim -/
  begun : String → ℕ
  /-- the retry count that the worker's last claim answered -/
  attempt : String → ℕ
  log : List StepLine

inductive CrewOp where
  | createRun (runId : UUID) (userId : String) (now : UnixTs)
  | cancelRun (runId : UUID) (now : UnixTs)
  | shutdownExecution (workerId : String) (now : UnixTs)
  | advance (workerId : String) (now : UnixTs)
  | heartbeat (workerId : String) (now : UnixTs)
  /-- the worker's executor goes on -/
  | resume (workerId : String) (now : UnixTs)

namespace Crew

def init : Crew := ⟨Sys.init, fun _ => 0, fun _ => 0, []⟩

/-- a step in which no executor begins anything -/
def move (s : Crew) (op : AtomicOp) : Reply × Crew :=
  let (reply, sys) := s.sys.atomicExec op
  (reply, { s with sys })

/-- the worker claimed a run -/
def claim (s : Crew) (workerId : String) (claimedRun : ClaimedRun) : Crew :=
  { s with
    begun := Function.update s.begun workerId 0
    attempt := Function.update s.attempt workerId claimedRun.runStatus.retries }

/-- the worker's executor begins its next step of the run -/
def beginStep (s : Crew) (workerId : String) (runId : UUID) : Crew :=
  { s with
    begun := Function.update s.begun workerId (s.begun workerId + 1)
    log := s.log ++ [⟨runId, workerId, s.attempt workerId, s.begun workerId⟩] }

def advance (s : Crew) (workerId : String) (now : UnixTs) : Reply × Crew :=
  match s.move (.advance workerId now) with
  | (.claimed (some claimedRun), s') => (.claimed (some claimedRun), s'.claim workerId claimedRun)
  | (reply, s') => (reply, s')

def resume (executors : String → AgentRunExecutor) (s : Crew) (workerId : String) (now : UnixTs) : Reply × Crew :=
  match s.sys.executingRun workerId with
  | none => (.returned, s)
  | some runId =>
    if (executors workerId).goesOn (s.begun workerId) ((s.sys.consumers workerId).runExecutionCtx = some true) then
      (.returned, s.beginStep workerId runId)
    else
      s.move (.finish workerId .returned now)

def exec (executors : String → AgentRunExecutor) (s : Crew) : CrewOp → Reply × Crew
  | .createRun runId userId now => s.move (.createRun runId userId now)
  | .cancelRun runId now => s.move (.cancelRun runId now)
  | .shutdownExecution workerId now => s.move (.shutdownExecution workerId now)
  | .advance workerId now => s.advance workerId now
  | .heartbeat workerId now => s.move (.heartbeat workerId now)
  | .resume workerId now => s.resume executors workerId now

end Crew

/-- **The system whose workers have these executors.** -/
def crew (executors : String → AgentRunExecutor) : Machine Crew CrewOp Reply := ⟨Crew.exec executors⟩

/-! ## How a crew moves -/

/-- the step of `atomicSys` that a step of no executor is -/
def CrewOp.plain : CrewOp → Option AtomicOp
  | .createRun runId userId now => some (.createRun runId userId now)
  | .cancelRun runId now => some (.cancelRun runId now)
  | .shutdownExecution workerId now => some (.shutdownExecution workerId now)
  | .advance workerId now => some (.advance workerId now)
  | .heartbeat workerId now => some (.heartbeat workerId now)
  | .resume _ _ => none

/-- the crew after a step, one constructor for each way it goes -/
inductive Shift (executors : String → AgentRunExecutor) (s : Crew) : CrewOp → Crew → Prop
  | plain (op : CrewOp) (plain : AtomicOp) : op.plain = some plain →
      (∀ w now c, plain = .advance w now → ¬ Claims s.sys (.advance w now) w now c) →
      Shift executors s op { s with sys := atomicSys.step s.sys plain }
  | claim (w : String) (now : UnixTs) (c : ClaimedRun) : Claims s.sys (.advance w now) w now c →
      Shift executors s (.advance w now) (Crew.claim { s with sys := atomicSys.step s.sys (.advance w now) } w c)
  | idle (w : String) (now : UnixTs) : s.sys.executingRun w = none → Shift executors s (.resume w now) s
  | beginStep (w : String) (now : UnixTs) (r : UUID) : s.sys.executingRun w = some r →
      s.begun w < (executors w).steps → (s.sys.consumers w).runExecutionCtx ≠ some true →
      Shift executors s (.resume w now) (s.beginStep w r)
  | finish (w : String) (now : UnixTs) (r : UUID) : s.sys.executingRun w = some r →
      (s.begun w < (executors w).steps → (s.sys.consumers w).runExecutionCtx = some true) →
      Shift executors s (.resume w now) { s with sys := atomicSys.step s.sys (.finish w .returned now) }

section Shift

variable {executors : String → AgentRunExecutor}

theorem goesOn_iff {executor : AgentRunExecutor} {begun : ℕ} {isCancelled : Bool} :
    executor.goesOn begun isCancelled = true ↔ begun < executor.steps ∧ isCancelled = false := by
  unfold AgentRunExecutor.goesOn
  split_ifs with h
  · simp [h]
  · simp [h]

theorem reply_of_claims {s : Sys} {w : String} {now : UnixTs} {c : ClaimedRun}
    (h : Claims s (.advance w now) w now c) : sys.reply s (.advance w now) = .claimed (some c) := by
  obtain ⟨-, hphase, hreply⟩ := h
  change (s.advance w now).1 = _
  simp only [Sys.advance, hphase, Phase.call, Sys.perform]
  exact hreply

theorem shift_advance (s : Crew) (w : String) (now : UnixTs) :
    Shift executors s (.advance w now) ((crew executors).step s (.advance w now)) := by
  change Shift executors s (.advance w now) (s.advance w now).2
  have hmove : s.move (.advance w now) =
      (sys.reply s.sys (.advance w now), { s with sys := atomicSys.step s.sys (.advance w now) }) := rfl
  have hplain : (∀ c, sys.reply s.sys (.advance w now) ≠ .claimed (some c)) →
      Shift executors s (.advance w now) { s with sys := atomicSys.step s.sys (.advance w now) } := by
    intro hno
    refine .plain _ _ rfl ?_
    intro w' now' c heq hc
    cases heq
    exact hno c (reply_of_claims hc)
  unfold Crew.advance
  rw [hmove]
  cases hreply : sys.reply s.sys (.advance w now) with
  | claimed claimed =>
    cases claimed with
    | some c => exact .claim w now c (claims_of_reply hreply)
    | none => exact hplain (by rw [hreply]; intro c h; cases h)
  | _ => exact hplain (by rw [hreply]; intro c h; cases h)

variable (executors) in
/-- **Every step is one of these.** -/
theorem shift_step (s : Crew) (op : CrewOp) : Shift executors s op ((crew executors).step s op) := by
  cases op with
  | advance w now => exact shift_advance s w now
  | resume w now =>
    change Shift executors s _ (s.resume executors w now).2
    unfold Crew.resume
    cases hrun : s.sys.executingRun w with
    | none => exact .idle w now hrun
    | some r =>
      dsimp only
      split_ifs with hgoes
      · rw [goesOn_iff] at hgoes
        exact .beginStep w now r hrun hgoes.1 (of_decide_eq_false hgoes.2)
      · refine .finish w now r hrun ?_
        intro hlt
        by_contra hctx
        exact hgoes (goesOn_iff.2 ⟨hlt, decide_eq_false hctx⟩)
  | createRun r userId now => exact .plain _ (.createRun r userId now) rfl (by intro w now c heq; cases heq)
  | cancelRun r now => exact .plain _ (.cancelRun r now) rfl (by intro w now c heq; cases heq)
  | shutdownExecution w now => exact .plain _ (.shutdownExecution w now) rfl (by intro w now c heq; cases heq)
  | heartbeat w now => exact .plain _ (.heartbeat w now) rfl (by intro w now c heq; cases heq)

theorem Shift.sys {s s' : Crew} {op : CrewOp} (h : Shift executors s op s') :
    ∃ steps, s'.sys = atomicSys.run s.sys steps := by
  cases h with
  | plain _ plain => exact ⟨[plain], rfl⟩
  | claim w now => exact ⟨[.advance w now], rfl⟩
  | idle => exact ⟨[], rfl⟩
  | beginStep => exact ⟨[], rfl⟩
  | finish w now => exact ⟨[.finish w .returned now], rfl⟩

variable (executors) in
/-- **Without its log, a run of the crew is a run of the system.** -/
theorem crew_run (s : Crew) (ops : List CrewOp) :
    ∃ steps, ((crew executors).run s ops).sys = atomicSys.run s.sys steps := by
  induction ops generalizing s with
  | nil => exact ⟨[], rfl⟩
  | cons op ops ih =>
    obtain ⟨steps, hsteps⟩ := ih ((crew executors).step s op)
    obtain ⟨first, hfirst⟩ := (shift_step executors s op).sys
    refine ⟨first ++ steps, ?_⟩
    rw [Machine.run_cons, hsteps, hfirst, Machine.run_append]

end Shift

/-! ## Attempts at a run -/

/-- attempt `n` at the run was made: it came back to the queue since, or it was claimed and did not -/
def Attempted (o : Option RunView) (n : ℕ) : Prop := ∃ v, o = some v ∧ n + v.record.due ≤ v.record.retries

/-- what the steps of a crew may decide: nothing fails, and a run succeeds only if `done` -/
def Act.Proper (done : Prop) : Act → Prop
  | .markCancel _ => False
  | .fail _ _ => False
  | .succeed _ _ => done
  | _ => True

section Attempts

theorem retries_eq {st : RunStatus} {n : ℕ} (h : st.retryCount = some (n : ℤ)) : st.retries = n := by
  unfold RunStatus.retries
  rw [h, Option.getD_some, Int.toNat_natCast]

/-- attempts are never taken back -/
theorem attempted_record {r : UUID} {v : RunView} (hv : v.Sound r) {done : Prop} {a : Act} (ha : a.Proper done)
    (hg : a.Guard v.record) {n : ℕ} (h : n + v.record.due ≤ v.record.retries) :
    n + (a.record v.record).due ≤ (a.record v.record).retries := by
  -- a decision after which no claim is due
  have hout : (a.record v.record).due = 0 → (a.record v.record).retries = v.record.retries →
      n + (a.record v.record).due ≤ (a.record v.record).retries := by
    intro hdue hretries
    omega
  cases a with
  | create => exact hg.elim
  | markCancel => exact ha.elim
  | fail => exact ha.elim
  | requestCancel => exact h
  | loseClaim => exact h
  | emit => exact h
  | enqueue now =>
    have hdue : v.record.due = 1 := if_pos (Or.inl hg)
    have hfresh : v.record.retries = 0 := retries_eq (n := 0) (hv.fresh hg)
    omega
  | expire w now =>
    obtain ⟨m, hm⟩ := hv.retries
    have hbefore : v.record.retries = m := retries_eq hm
    have hafter : ((Act.expire w now).record v.record).retries = m + 1 := by
      apply retries_eq
      simp [Act.record, hm]
    have hdue : ((Act.expire w now).record v.record).due = 1 := if_pos (Or.inr rfl)
    omega
  | claim => exact hout rfl rfl
  | drop => exact hout rfl rfl
  | renew => exact hout rfl rfl
  | succeed => exact hout rfl rfl
  | cancel => exact hout rfl rfl

theorem attempted_act {r : UUID} {n : ℕ} {done : Prop} {o : Option RunView} {a : Act} (ha : a.Proper done)
    (h : ∃ v, o = some v ∧ v.Sound r ∧ n + v.record.due ≤ v.record.retries) (hen : (lifecycle r).Enabled o a) :
    ∃ v, (lifecycle r).apply o a = some v ∧ v.Sound r ∧ n + v.record.due ≤ v.record.retries := by
  obtain ⟨v, rfl, hsound, hle⟩ := h
  exact ⟨v.effect a, rfl, effect_sound a hsound, attempted_record hsound ha hen hle⟩

theorem attempted_kept {rt rt' : InMemoryRuntime} (hgood : Good rt) {l : List (UUID × Act)} (hp : Performs rt rt' l)
    {r : UUID} {done : Prop} (hl : ∀ a, (r, a) ∈ l → a.Proper done) {n : ℕ} (h : Attempted (rt.view r) n) :
    Attempted (rt'.view r) n := by
  obtain ⟨v, hv, hle⟩ := h
  obtain ⟨v', hv', -, hle'⟩ := hp.keeps (fun _ _ => attempted_act) hl ⟨v, hv, hgood.sound r v hv, hle⟩
  exact ⟨v', hv', hle'⟩

/-- **A claim starts a new attempt**, numbered by the retry count it answers. -/
theorem attempt_new {s : Sys} (hgood : Good s.runtime) {op : SysOp} {w : String} {now : UnixTs} {c : ClaimedRun}
    (h : Claims s op w now c) : Attempted ((sys.step s op).runtime.view c.id) c.runStatus.retries ∧
      ∀ n, Attempted (s.runtime.view c.id) n → n < c.runStatus.retries := by
  obtain ⟨rfl, hphase, hreply⟩ := h
  obtain ⟨l, v, -, hl, hlegal, hv, hg, hview, hstatus⟩ := claimRun_some hgood (claimed_reply hreply)
  have hretries : c.runStatus.retries = v.record.retries := by
    rw [hstatus]
    rfl
  constructor
  · refine ⟨v.effect (.claim w now), ?_, ?_⟩
    · rcases advance_runtime s w now with ⟨op, hcall, hrt⟩ | ⟨hcall, -⟩ <;> rw [hphase] at hcall
      · obtain rfl := Option.some.inj hcall
        exact hrt ▸ hview
      · cases hcall
    · rw [hretries]
      exact le_refl _
  · intro n hn
    obtain ⟨u, hu, hle⟩ := hn
    have hproper : ∀ a, (c.id, a) ∈ l → a.Proper True := by
      intro a hmem
      rcases hl _ hmem with rfl | rfl <;> trivial
    obtain ⟨v', hv', -, hle'⟩ := Automaton.family_keeps (fun _ _ => attempted_act) hlegal hproper
      ⟨u, hu, hgood.sound c.id u hu, hle⟩
    obtain rfl := Option.some.inj (hv.symm.trans hv')
    have hdue : v.record.due = 1 := if_pos (Or.inr hg.1)
    omega

end Attempts

/-! ## The log -/

/-- the lines about one attempt at a run -/
def attemptLines (log : List StepLine) (r : UUID) (n : ℕ) : List StepLine :=
  log.filter fun line => line.runId = r ∧ line.attempt = n

/-- the lines of a worker that began `k` steps in an attempt -/
def stepLines (r : UUID) (w : String) (n k : ℕ) : List StepLine := (List.range k).map fun step => ⟨r, w, n, step⟩

/-- all steps were begun in one of the attempts at the run -/
def Done (executors : String → AgentRunExecutor) (s : Crew) (r : UUID) : Prop :=
  ∃ n w, attemptLines s.log r n = stepLines r w n (executors w).steps

/-- **The log is in order.** -/
structure Orderly (executors : String → AgentRunExecutor) (s : Crew) : Prop where
  reached : ∃ steps, s.sys = atomicSys.run Sys.init steps
  /-- what a worker has in hand is an attempt that was made -/
  held : ∀ w r, (s.sys.consumers w).inHand = some r → Attempted (s.sys.runtime.view r) (s.attempt w)
  logged : ∀ line ∈ s.log, Attempted (s.sys.runtime.view line.runId) line.attempt
  /-- no two workers have one attempt in hand -/
  single : ∀ w w' r, (s.sys.consumers w).inHand = some r → (s.sys.consumers w').inHand = some r →
    s.attempt w = s.attempt w' → w = w'
  /-- the lines of an attempt in hand are the steps that its worker has begun -/
  current : ∀ w r, (s.sys.consumers w).inHand = some r → s.begun w ≤ (executors w).steps ∧
    attemptLines s.log r (s.attempt w) = stepLines r w (s.attempt w) (s.begun w)
  ordered : ∀ r n, ∃ w k, k ≤ (executors w).steps ∧ attemptLines s.log r n = stepLines r w n k
  ended : ∀ r v, s.sys.runtime.view r = some v →
    v.record.status ≠ .failed ∧ (v.record.status = .succeeded → Done executors s r)

section Orderly

variable {executors : String → AgentRunExecutor} {s : Crew}

theorem steps_pos (executor : AgentRunExecutor) : 0 < executor.steps := by
  cases executor <;> decide

theorem stepLines_succ (r : UUID) (w : String) (n k : ℕ) :
    stepLines r w n (k + 1) = stepLines r w n k ++ [⟨r, w, n, k⟩] := by
  unfold stepLines
  rw [List.range_succ, List.map_append, List.map_singleton]

theorem stepLines_inj {r : UUID} {w w' : String} {n k k' : ℕ} (h : stepLines r w n k = stepLines r w' n k')
    (hk : 0 < k) : w = w' ∧ k = k' := by
  have hlength := congrArg List.length h
  simp only [stepLines, List.length_map, List.length_range] at hlength
  subst hlength
  refine ⟨?_, rfl⟩
  obtain ⟨m, rfl⟩ : ∃ m, k = m + 1 := ⟨k - 1, by omega⟩
  rw [stepLines_succ, stepLines_succ] at h
  have hlast := (List.append_inj' h rfl).2
  exact (StepLine.mk.inj (List.cons.inj hlast).1).2.1

theorem attemptLines_snoc (log : List StepLine) (line : StepLine) (r : UUID) (n : ℕ) :
    attemptLines (log ++ [line]) r n =
      attemptLines log r n ++ if line.runId = r ∧ line.attempt = n then [line] else [] := by
  unfold attemptLines
  rw [List.filter_append, List.filter_singleton]
  simp

/-- an attempt that was not made has no line -/
theorem attemptLines_nil (h : Orderly executors s) {r : UUID} {n : ℕ}
    (hno : ¬ Attempted (s.sys.runtime.view r) n) : attemptLines s.log r n = [] := by
  refine List.filter_eq_nil_iff.2 ?_
  intro line hmem hline
  obtain ⟨rfl, rfl⟩ := of_decide_eq_true hline
  exact hno (h.logged line hmem)

theorem Orderly.good (h : Orderly executors s) : Good s.sys.runtime := by
  obtain ⟨steps, hsteps⟩ := h.reached
  rw [hsteps]
  exact atomic_good steps

theorem Orderly.settled (h : Orderly executors s) (w : String) : (s.sys.consumers w).Settled := by
  obtain ⟨steps, hsteps⟩ := h.reached
  rw [hsteps]
  exact settled_run steps w

/-! ## What the steps decide -/

theorem proper_plain (h : Orderly executors s) {op : CrewOp} {plain : AtomicOp} (hplain : op.plain = some plain)
    {r : UUID} {a : Act} (hmem : (r, a) ∈ plain.decisions s.sys) (done : Prop) : a.Proper done := by
  obtain ⟨fine, hfine⟩ : ∃ fine, plain.fine = some fine := by
    cases op <;> cases hplain <;> exact ⟨_, rfl⟩
  rw [decisions_fine hfine] at hmem
  have horigin := origin_of_mem h.good hmem
  -- no worker is seen at its terminal write
  have hwrites : ∀ w p, (s.sys.consumers w).phase = p → p.writes = some r → False := by
    intro w p hphase hwrites
    have hexec := h.settled w r (by rw [hphase]; exact scope_of_writes hwrites)
    rw [← hphase, hexec] at hwrites
    cases hwrites
  cases a with
  | markCancel now =>
    obtain rfl : fine = .api (.markCancelled r now) := horigin
    cases op <;> cases hplain <;> cases hfine
  | succeed result now =>
    obtain ⟨w, -, hphase, -⟩ := horigin
    exact (hwrites w _ hphase rfl).elim
  | fail error now =>
    obtain ⟨w, -, hphase⟩ := horigin
    exact (hwrites w _ hphase rfl).elim
  | _ => trivial

/-- an executor that returned has begun all its steps, unless its event is set -/
theorem proper_finish (h : Orderly executors s) {w : String} {now : UnixTs} {j : UUID}
    (hrun : s.sys.executingRun w = some j)
    (hend : s.begun w < (executors w).steps → (s.sys.consumers w).runExecutionCtx = some true) {r : UUID} {a : Act}
    (hmem : (r, a) ∈ (AtomicOp.finish w .returned now).decisions s.sys) : a.Proper (Done executors s r) := by
  simp only [AtomicOp.decisions, hrun] at hmem
  obtain ⟨hp, -⟩ := mem_taken.1 hmem
  obtain ⟨rfl, rfl⟩ := Prod.mk.inj hp
  unfold finishAct
  dsimp only
  split_ifs with hcancel
  · trivial
  · have hctx : (s.sys.consumers w).runExecutionCtx ≠ some true := by
      intro hctx
      apply hcancel
      rw [decide_eq_true hctx, Bool.true_or]
    have hhand : (s.sys.consumers w).inHand = some r :=
      inHand_of_scope (by rw [executing_of_executingRun hrun]; rfl)
    obtain ⟨hle, hlines⟩ := h.current w r hhand
    have hall : s.begun w = (executors w).steps := by
      by_contra hne
      exact hctx (hend (by omega))
    refine ⟨s.attempt w, w, ?_⟩
    rw [hlines, hall]

theorem ended_act {r : UUID} {done : Prop} {o : Option RunView} {a : Act} (ha : a.Proper done)
    (h : ∀ v, o = some v → v.record.status ≠ .failed ∧ (v.record.status = .succeeded → done))
    (hen : (lifecycle r).Enabled o a) : ∀ v, (lifecycle r).apply o a = some v →
      v.record.status ≠ .failed ∧ (v.record.status = .succeeded → done) := by
  refine lifecycle_step ?_ ?_ h hen
  · intro userId now _
    constructor
    · intro hbad
      cases hbad
    · intro hbad
      cases hbad
  · intro v hv hg
    cases a with
    | create => exact hg.elim
    | markCancel => exact ha.elim
    | fail => exact ha.elim
    | succeed => exact ⟨(by intro hbad; cases hbad), fun _ => ha⟩
    | requestCancel => exact hv
    | loseClaim => exact hv
    | emit => exact hv
    | _ => exact ⟨(by intro hbad; cases hbad), (by intro hbad; cases hbad)⟩

/-- **A step that begins nothing** keeps the log in order, if it gives no worker a run. -/
theorem Orderly.still (h : Orderly executors s) (op : AtomicOp)
    (hproper : ∀ r a, (r, a) ∈ op.decisions s.sys → a.Proper (Done executors s r))
    (hhand : ∀ w r, ((atomicSys.step s.sys op).consumers w).inHand = some r → (s.sys.consumers w).inHand = some r) :
    Orderly executors { s with sys := atomicSys.step s.sys op } := by
  have hp := atomic_performs h.good op
  obtain ⟨steps, hsteps⟩ := h.reached
  constructor
  · refine ⟨steps ++ [op], ?_⟩
    rw [Machine.run_snoc, ← hsteps]
  · intro w r hw
    exact attempted_kept h.good hp (hproper r) (h.held w r (hhand w r hw))
  · intro line hline
    exact attempted_kept h.good hp (hproper line.runId) (h.logged line hline)
  · intro w w' r hw hw'
    exact h.single w w' r (hhand w r hw) (hhand w' r hw')
  · intro w r hw
    exact h.current w r (hhand w r hw)
  · exact h.ordered
  · intro r
    exact hp.keeps (fun _ _ => ended_act) (hproper r) (h.ended r)

/-! ## Who has a run in hand -/

/-- a worker gets a run in hand only by claiming it -/
theorem inHand_plain {op : CrewOp} {plain : AtomicOp} (hplain : op.plain = some plain) {w : String} {r : UUID}
    (h : ((atomicSys.step s.sys plain).consumers w).inHand = some r) : (s.sys.consumers w).inHand = some r ∨
      ∃ now c, plain = .advance w now ∧ Claims s.sys (.advance w now) w now c ∧ c.id = r := by
  obtain ⟨fine, hfine⟩ : ∃ fine, plain.fine = some fine := by
    cases op <;> cases hplain <;> exact ⟨_, rfl⟩
  rw [atomic_step_fine hfine] at h
  rcases inHand_step h with h | ⟨now, c, hc, hid⟩
  · exact Or.inl h
  · have heq := hc.1
    subst heq
    refine Or.inr ⟨now, c, ?_, hc, hid⟩
    cases op <;> cases hplain <;> cases hfine
    rfl

/-- after a claim the claimer has at most the claimed run in hand, and the others what they had -/
theorem inHand_claim {w w' : String} {now : UnixTs} {c : ClaimedRun} {r : UUID}
    (hc : Claims s.sys (.advance w now) w now c)
    (h : ((atomicSys.step s.sys (.advance w now)).consumers w').inHand = some r) :
    (w' = w ∧ r = c.id) ∨ (w' ≠ w ∧ (s.sys.consumers w').inHand = some r) := by
  have hclaim : (CrewOp.advance w now).plain = some (.advance w now) := rfl
  rcases inHand_plain hclaim h with hbefore | ⟨t, c', heq, hc', hid⟩
  · by_cases hw : w' = w
    · subst hw
      rw [inHand_claiming hc.2.1] at hbefore
      cases hbefore
    · exact Or.inr ⟨hw, hbefore⟩
  · cases heq
    have hreply := (reply_of_claims hc).symm.trans (reply_of_claims hc')
    cases hreply
    exact Or.inl ⟨rfl, hid.symm⟩

/-- a worker that ended an execution has nothing in hand, and the others keep what they have -/
theorem inHand_finish {w : String} {now : UnixTs} {j : UUID} (hrun : s.sys.executingRun w = some j) (w' : String) :
    ((atomicSys.step s.sys (.finish w .returned now)).consumers w').inHand =
      if w' = w then none else (s.sys.consumers w').inHand := by
  change ((s.sys.finish w .returned now).consumers w').inHand = _
  simp only [Sys.finish, hrun]
  generalize (executeRun j .returned _ now).run s.sys.runtime = result
  by_cases hw : w' = w
  · subst hw
    rw [if_pos rfl]
    cases result <;> simp only [Sys.endsWith, setConsumer_self] <;> rfl
  · rw [if_neg hw]
    cases result <;> simp only [Sys.endsWith, setConsumer_ne _ _ hw]

/-- **A claim** starts an attempt that has no line yet. -/
theorem Orderly.claim (h : Orderly executors s) {w : String} {now : UnixTs} {c : ClaimedRun}
    (hc : Claims s.sys (.advance w now) w now c) :
    Orderly executors (Crew.claim { s with sys := atomicSys.step s.sys (.advance w now) } w c) := by
  have hp := atomic_performs h.good (.advance w now)
  have hclaim : (CrewOp.advance w now).plain = some (.advance w now) := rfl
  have hproper : ∀ r a, (r, a) ∈ (AtomicOp.advance w now).decisions s.sys → a.Proper (Done executors s r) := by
    intro r a hmem
    exact proper_plain h hclaim hmem _
  obtain ⟨hnew, hfresh⟩ := attempt_new h.good hc
  have hself : Function.update s.attempt w c.runStatus.retries w = c.runStatus.retries := Function.update_self ..
  have hother : ∀ w', w' ≠ w → Function.update s.attempt w c.runStatus.retries w' = s.attempt w' := by
    intro w' hw
    exact Function.update_of_ne hw ..
  obtain ⟨steps, hsteps⟩ := h.reached
  constructor
  · refine ⟨steps ++ [.advance w now], ?_⟩
    rw [Machine.run_snoc, ← hsteps]
    rfl
  · intro w' r hw'
    change Attempted _ (Function.update s.attempt w c.runStatus.retries w')
    rcases inHand_claim hc hw' with ⟨rfl, rfl⟩ | ⟨hne, hbefore⟩
    · rw [hself]
      exact hnew
    · rw [hother w' hne]
      exact attempted_kept h.good hp (hproper r) (h.held w' r hbefore)
  · intro line hline
    exact attempted_kept h.good hp (hproper line.runId) (h.logged line hline)
  · intro w₁ w₂ r hw₁ hw₂ heq
    change Function.update s.attempt w _ w₁ = Function.update s.attempt w _ w₂ at heq
    rcases inHand_claim hc hw₁ with ⟨rfl, rfl⟩ | ⟨hne₁, hbefore₁⟩
    · rcases inHand_claim hc hw₂ with ⟨rfl, -⟩ | ⟨hne₂, hbefore₂⟩
      · rfl
      · rw [hself, hother w₂ hne₂] at heq
        have hlt := hfresh _ (h.held w₂ c.id hbefore₂)
        omega
    · rcases inHand_claim hc hw₂ with ⟨rfl, rfl⟩ | ⟨hne₂, hbefore₂⟩
      · rw [hself, hother w₁ hne₁] at heq
        have hlt := hfresh _ (h.held w₁ c.id hbefore₁)
        omega
      · rw [hother w₁ hne₁, hother w₂ hne₂] at heq
        exact h.single w₁ w₂ r hbefore₁ hbefore₂ heq
  · intro w' r hw'
    change Function.update s.begun w 0 w' ≤ _ ∧ attemptLines s.log r (Function.update s.attempt w _ w') =
      stepLines r w' (Function.update s.attempt w _ w') (Function.update s.begun w 0 w')
    rcases inHand_claim hc hw' with ⟨rfl, rfl⟩ | ⟨hne, hbefore⟩
    · rw [hself, Function.update_self]
      refine ⟨Nat.zero_le _, attemptLines_nil h ?_⟩
      intro hmade
      exact lt_irrefl _ (hfresh _ hmade)
    · rw [hother w' hne, Function.update_of_ne hne]
      exact h.current w' r hbefore
  · exact h.ordered
  · intro r
    exact hp.keeps (fun _ _ => ended_act) (hproper r) (h.ended r)

/-- **An executor that begins a step** adds the next line of its attempt. -/
theorem Orderly.beginStep (h : Orderly executors s) {w : String} {r : UUID}
    (hhand : (s.sys.consumers w).inHand = some r) (hlt : s.begun w < (executors w).steps) :
    Orderly executors (s.beginStep w r) := by
  obtain ⟨-, hlines⟩ := h.current w r hhand
  have hown : attemptLines (s.beginStep w r).log r (s.attempt w) =
      stepLines r w (s.attempt w) (s.begun w + 1) := by
    change attemptLines (s.log ++ [_]) r (s.attempt w) = _
    rw [attemptLines_snoc, if_pos ⟨rfl, rfl⟩, hlines, stepLines_succ]
  have hother : ∀ j n, ¬ (j = r ∧ n = s.attempt w) →
      attemptLines (s.beginStep w r).log j n = attemptLines s.log j n := by
    intro j n hne
    change attemptLines (s.log ++ [_]) j n = _
    rw [attemptLines_snoc, if_neg, List.append_nil]
    intro heq
    exact hne ⟨heq.1.symm, heq.2.symm⟩
  constructor
  · exact h.reached
  · exact h.held
  · intro line hline
    rcases List.mem_append.1 hline with hline | hline
    · exact h.logged line hline
    · rw [List.mem_singleton.1 hline]
      exact h.held w r hhand
  · exact h.single
  · intro w' r' hw'
    change Function.update s.begun w (s.begun w + 1) w' ≤ _ ∧ _ = stepLines r' w' _
      (Function.update s.begun w (s.begun w + 1) w')
    by_cases hw : w' = w
    · subst hw
      obtain rfl := Option.some.inj (hhand.symm.trans hw')
      rw [Function.update_self]
      exact ⟨hlt, hown⟩
    · rw [Function.update_of_ne hw]
      obtain ⟨hle, hlines'⟩ := h.current w' r' hw'
      refine ⟨hle, (hother _ _ ?_).trans hlines'⟩
      intro heq
      obtain ⟨rfl, heq⟩ := heq
      exact hw (h.single w' w r' hw' hhand heq)
  · intro j n
    by_cases heq : j = r ∧ n = s.attempt w
    · obtain ⟨rfl, rfl⟩ := heq
      exact ⟨w, s.begun w + 1, hlt, hown⟩
    · rw [hother j n heq]
      exact h.ordered j n
  · intro j v hv
    refine ⟨(h.ended j v hv).1, fun hsucceeded => ?_⟩
    obtain ⟨n, w', hdone⟩ := (h.ended j v hv).2 hsucceeded
    refine ⟨n, w', (hother j n ?_).trans hdone⟩
    -- an attempt that has all its lines begins no step
    intro heq
    obtain ⟨rfl, rfl⟩ := heq
    obtain ⟨rfl, hall⟩ := stepLines_inj (hdone.symm.trans hlines) (steps_pos _)
    omega

theorem orderly_init : Orderly executors Crew.init where
  reached := ⟨[], rfl⟩
  held w r h := by cases h
  logged line h := by cases h
  single w w' r h := by cases h
  current w r h := by cases h
  ordered r n := ⟨"", 0, Nat.zero_le _, rfl⟩
  ended r v h := by cases h

/-- **The log stays in order.** -/
theorem Shift.orderly {s' : Crew} {op : CrewOp} (hs : Shift executors s op s') (h : Orderly executors s) :
    Orderly executors s' := by
  cases hs with
  | plain _ plain hplain hno =>
    refine h.still plain (fun r a hmem => proper_plain h hplain hmem _) ?_
    intro w r hw
    rcases inHand_plain hplain hw with hbefore | ⟨now, c, heq, hc, -⟩
    · exact hbefore
    · exact absurd hc (hno w now c heq)
  | claim w now c hc => exact h.claim hc
  | idle => exact h
  | beginStep w now r hrun hlt =>
    exact h.beginStep (inHand_of_scope (by rw [executing_of_executingRun hrun]; rfl)) hlt
  | finish w now r hrun hend =>
    refine h.still _ (fun j a hmem => proper_finish h hrun hend hmem) ?_
    intro w' j hw'
    rw [inHand_finish hrun] at hw'
    split_ifs at hw'
    exact hw'

theorem orderly_run (ops : List CrewOp) : Orderly executors ((crew executors).run Crew.init ops) :=
  Machine.run_inv' (M := crew executors) (I := Orderly executors) (fun s op h => (shift_step executors s op).orderly h)
    orderly_init ops

/-- **What is done for a run.** In every reachable state the lines of each attempt at a run are the first steps of one
worker's executor, each once and in order; there are at most as many further attempts as retries; no run has failed; and
a run that succeeded went through all steps in one attempt, so once without a retry. -/
theorem steps_of_run (executors : String → AgentRunExecutor) (ops : List CrewOp) (r : UUID) :
    let s := (crew executors).run Crew.init ops
    (∀ n, ∃ w k, k ≤ (executors w).steps ∧ attemptLines s.log r n = stepLines r w n k) ∧
    ∀ st, s.sys.runtime.record? r = some st →
      (∀ line ∈ s.log, line.runId = r → line.attempt ≤ st.retries) ∧ st.status ≠ .failed ∧
      (st.status = .succeeded → Done executors s r) ∧
      (st.status = .succeeded → st.retries = 0 → ∃ w,
        s.log.filter (fun line => line.runId = r) = stepLines r w 0 (executors w).steps) := by
  intro s
  have h : Orderly executors s := orderly_run ops
  refine ⟨h.ordered r, ?_⟩
  intro st hst
  obtain ⟨v, hv, rfl⟩ := exists_view hst
  have hattempts : ∀ line ∈ s.log, line.runId = r → line.attempt ≤ v.record.retries := by
    intro line hline hrun
    obtain ⟨v', hv', hle⟩ := h.logged line hline
    rw [hrun, hv] at hv'
    obtain rfl := Option.some.inj hv'
    omega
  obtain ⟨hfailed, hdone⟩ := h.ended r v hv
  refine ⟨hattempts, hfailed, hdone, ?_⟩
  intro hsucceeded hretries
  obtain ⟨n, w, hlines⟩ := hdone hsucceeded
  -- there is one attempt only
  have hzero : attemptLines s.log r 0 = s.log.filter fun line => line.runId = r := by
    refine List.filter_congr ?_
    intro line hline
    by_cases hrun : line.runId = r
    · have hle := hattempts line hline hrun
      simp [hrun, show line.attempt = 0 by omega]
    · simp [hrun]
  have hn : n = 0 := by
    have hmem : (⟨r, w, n, 0⟩ : StepLine) ∈ attemptLines s.log r n := by
      rw [hlines]
      exact List.mem_map.2 ⟨0, List.mem_range.2 (steps_pos _), rfl⟩
    have hle := hattempts _ (List.mem_of_mem_filter hmem) rfl
    change n ≤ v.record.retries at hle
    omega
  subst hn
  exact ⟨w, hzero ▸ hlines⟩

end Orderly

end LlmAgent
