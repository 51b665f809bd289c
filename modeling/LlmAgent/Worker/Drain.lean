/-
A worker that is left alone empties the queue. The workers that held the running runs are gone, so their leases run
out, and whatever the survivor's executor returns or raises, after as many turns of its loop as there are unfinished
runs nothing is left to do.

- `round`, `executions`: one turn of `consume_and_execute_loop`, from the top of the loop back to it, and how the
  executions of a run end that such rounds claimed;
- `Stale`, `Quiet`: every lease ran out; no run is queued or running;
- `Ended`, `Toward`: how an unfinished run ends, and how far it has come;
- `round_spec`: a round claims a run and finishes it, or finds nothing to claim;
- `drained`: after enough rounds every run has ended as its intent says, or as its only execution ended, and no other
  run changed.
-/
import LlmAgent.Core.Potential
import LlmAgent.Worker.AtomicFinish

namespace LlmAgent

open Core

/-! ## What a round does to a run -/

/-- one turn of the loop: wait, claim, execute, and the end of the executor -/
def round (w : String) (p : Outcome × UnixTs) : List AtomicOp :=
  [.advance w p.2, .advance w p.2, .advance w p.2, .advance w p.2, .finish w p.1 p.2]

/-- the reply hands out run `r` -/
def Reply.handsOut (r : UUID) : Reply → Bool
  | .claimed (some c) => decide (c.id = r)
  | _ => false

/-- how the executions of `r` end that these rounds start: the end of the executor in a round, for each claim of the
round that answers `r` -/
def executions (w : String) (r : UUID) : Sys → List (Outcome × UnixTs) → List Outcome
  | _, [] => []
  | s, p :: rounds => List.replicate ((atomicSys.replies s (round w p)).countP (Reply.handsOut r)) p.1 ++
      executions w r (atomicSys.run s (round w p)) rounds

namespace Outcome

/-- the decision about a run without an intent -/
def act (o : Outcome) (now : UnixTs) : Act :=
  match o with
  | .returned => .succeed okResult now
  | .raised message => .fail message now

/-- the record shows that the executor ended so -/
def Ends (o : Outcome) (st : RunStatus) : Prop :=
  match o with
  | .returned => st.status = .succeeded ∧ st.result = some okResult
  | .raised message => st.status = .failed ∧ st.error = some message

end Outcome

/-- how a run that was queued or running ends, when its executions ended so: without one if it had an intent, else with
a single one that decides -/
structure Ended (executed : List Outcome) (st st' : RunStatus) : Prop where
  flag : st'.cancelRequested = st.cancelRequested
  /-- a run whose worker is gone is retried once, the others not at all -/
  retries : st'.retryCount = st.retryCount.map (· + if st.status = .running then 1 else 0)
  ends : if st.cancelRequested then executed = [] ∧ st'.status = .cancelled else ∃ o, executed = [o] ∧ o.Ends st'

/-- how far a run has come since its record was `st`, and how its executions since then ended -/
inductive Toward (w : String) (st : RunStatus) : List Outcome → RunStatus → Prop
  | kept : Toward w st [] st
  | queued (now : UnixTs) : st.status = .running → Toward w st [] ((Act.expire w now).record st)
  | ended (executed : List Outcome) (st' : RunStatus) : st.status = .enqueued ∨ st.status = .running →
      Ended executed st st' → Toward w st executed st'

section Toward

variable {w : String} {executed : List Outcome} {st st' : RunStatus} {now : UnixTs}

theorem Ended.terminal (h : Ended executed st st') : st'.status ∈ terminalRunStatuses := by
  have hends := h.ends
  split_ifs at hends with hflag
  · rw [hends.2]
    decide
  · obtain ⟨o, -, ho⟩ := hends
    cases o with
    | returned =>
      rw [ho.1]
      decide
    | raised message =>
      rw [ho.1]
      decide

/-- an ended run takes no decision that needs it to be queued or running -/
theorem Ended.not_open (h : Ended executed st st') : st'.status ≠ .enqueued ∧ st'.status ≠ .running := by
  have hterminal := h.terminal
  constructor
  · intro hst
    rw [hst] at hterminal
    exact absurd hterminal (by decide)
  · intro hst
    rw [hst] at hterminal
    exact absurd hterminal (by decide)

/-- what a claim does to the runs it does not answer -/
theorem Toward.act {a : Act} (h : Toward w st executed st') (ha : a = .expire w now ∨ a = .drop now)
    (hg : a.Guard st') : Toward w st executed (a.record st') := by
  rcases ha with rfl | rfl
  · cases h with
    | kept => exact .queued now hg.1
    | queued t => cases hg.1
    | ended _ _ _ hended => exact absurd hg.1 hended.not_open.2
  · cases h with
    | kept =>
      refine .ended _ _ (Or.inl hg.1) ⟨rfl, ?_, ?_⟩
      · simp [Act.record, hg.1]
      · rw [if_pos hg.2]
        exact ⟨rfl, rfl⟩
    | queued t hrunning =>
      have hintent : st.cancelRequested = true := hg.2
      refine .ended _ _ (Or.inr hrunning) ⟨rfl, ?_, ?_⟩
      · simp [Act.record, hrunning]
      · rw [if_pos hintent]
        exact ⟨rfl, rfl⟩
    | ended _ _ _ hended => exact absurd hg.1 hended.not_open.1

/-- a claimed run is finished before the round is over; it was not executed before -/
theorem Toward.finished (o : Outcome) (h : Toward w st executed st') (hg : (Act.claim w now).Guard st') :
    Toward w st (executed ++ [o]) ((o.act now).record ((Act.claim w now).record st')) := by
  have hends : o.Ends ((o.act now).record ((Act.claim w now).record st')) := by
    cases o with
    | returned => exact ⟨rfl, rfl⟩
    | raised message => exact ⟨rfl, rfl⟩
  have hflag : ((o.act now).record ((Act.claim w now).record st')).cancelRequested = st'.cancelRequested := by
    cases o <;> rfl
  have hretries : ((o.act now).record ((Act.claim w now).record st')).retryCount = st'.retryCount := by
    cases o <;> rfl
  cases h with
  | kept =>
    refine .ended _ _ (Or.inl hg.1) ⟨hflag, ?_, ?_⟩
    · rw [hretries, hg.1]
      simp
    · rw [hg.2, if_neg Bool.false_ne_true]
      exact ⟨o, rfl, hends⟩
  | queued t hrunning =>
    have hintent : st.cancelRequested = false := hg.2
    refine .ended _ _ (Or.inr hrunning) ⟨hflag, ?_, ?_⟩
    · rw [hretries, hrunning]
      rfl
    · rw [hintent, if_neg Bool.false_ne_true]
      exact ⟨o, rfl, hends⟩
  | ended _ _ _ hended => exact absurd hg.1 hended.not_open.1

end Toward

/-! ## The queue -/

namespace InMemoryRuntime

/-- every lease has run out: nobody is left to renew one -/
def Stale (rt : InMemoryRuntime) (now : UnixTs) : Prop :=
  ∀ r v, rt.view r = some v → v.record.status = .running → Expired v.record now

/-- no run is queued or running -/
def Quiet (rt : InMemoryRuntime) : Prop :=
  ∀ r v, rt.view r = some v → v.record.status ≠ .enqueued ∧ v.record.status ≠ .running

/-- how many runs have not ended -/
def unfinished (rt : InMemoryRuntime) : ℕ :=
  rt.internalRunStorage.keys.countP fun r => (rt.status? r).any fun status => decide (status ∉ terminalRunStatuses)

end InMemoryRuntime

/-- one end is due -/
def endDue : Option RunView → ℤ
  | none => 1
  | some v => if v.record.status ∈ terminalRunStatuses then 0 else 1

/-- what is counted: the ends of executions -/
def Act.finishes : Act → ℕ
  | .succeed _ _ => 1
  | .fail _ _ => 1
  | _ => 0

theorem endDue_le (o : Option RunView) : endDue o ≤ 1 := by
  cases o with
  | none => exact le_refl 1
  | some v =>
    unfold endDue
    dsimp only
    split_ifs <;> omega

/-- **The end of an execution is paid by the run that ends.** -/
theorem endDue_pays (r : UUID) (o : Option RunView) (a : Act) (h : (lifecycle r).Enabled o a) :
    endDue ((lifecycle r).apply o a) + a.finishes ≤ endDue o + (0 : ℕ) := by
  rw [Nat.cast_zero, add_zero]
  rcases lifecycle_cases h with ⟨userId, now, rfl, rfl⟩ | ⟨v, rfl, hg⟩
  · exact le_of_eq rfl
  · by_cases hterminal : v.record.status ∈ terminalRunStatuses
    · have hrecord := (record_of_terminal hterminal hg).1
      have hfinishes : a.finishes = 0 := by
        cases a with
        | succeed =>
          rw [show v.record.status = .running from hg] at hterminal
          exact absurd hterminal (by decide)
        | fail =>
          rw [show v.record.status = .running from hg] at hterminal
          exact absurd hterminal (by decide)
        | _ => rfl
      have hsame : endDue (some (v.effect a)) = endDue (some v) := by
        simp only [endDue, RunView.effect, hrecord]
      rw [lifecycle_apply_some, hsame, hfinishes]
      omega
    · have hdue : endDue (some v) = 1 := if_neg hterminal
      rw [lifecycle_apply_some, hdue]
      cases a with
      | succeed => exact le_refl 1
      | fail => exact le_refl 1
      | _ => exact (add_zero (endDue (some (v.effect _)))).le.trans (endDue_le _)

/-- the ends that are due are the unfinished runs -/
theorem endDue_eq (rt : InMemoryRuntime) :
    (rt.internalRunStorage.keys.map fun r => endDue (rt.view r)).sum = rt.unfinished := by
  have hone : ∀ r ∈ rt.internalRunStorage.keys, endDue (rt.view r) =
      if (rt.status? r).any fun status => decide (status ∉ terminalRunStatuses) then 1 else 0 := by
    intro r hr
    obtain ⟨st, hst⟩ := (Dict.mem_iff _ _).1 hr
    obtain ⟨v, hv, rfl⟩ := exists_view hst
    rw [hv, status?_of_view hv]
    unfold endDue
    by_cases hterminal : v.record.status ∈ terminalRunStatuses <;> simp [hterminal]
  unfold InMemoryRuntime.unfinished
  generalize rt.internalRunStorage.keys = keys at hone ⊢
  induction keys with
  | nil => rfl
  | cons r keys ih =>
    have hrest := ih fun j hj => hone j (List.mem_cons_of_mem r hj)
    rw [List.map_cons, List.sum_cons, hrest, hone r List.mem_cons_self, List.countP_cons]
    split_ifs <;> omega

theorem quiet_of_unfinished {rt : InMemoryRuntime} (h : rt.unfinished = 0) : rt.Quiet := by
  intro r v hv
  have hnone := List.countP_eq_zero.1 h r (mem_of_view hv)
  rw [status?_of_view hv] at hnone
  constructor
  · intro hst
    exact hnone (by rw [hst]; decide)
  · intro hst
    exact hnone (by rw [hst]; decide)

/-! ## A round -/

section Round

variable {s : Sys} {w : String}

theorem handsOut_iff {reply : Reply} {r : UUID} :
    reply.handsOut r = true ↔ ∃ c, reply = .claimed (some c) ∧ c.id = r := by
  constructor
  · intro h
    unfold Reply.handsOut at h
    split at h
    · exact ⟨_, rfl, of_decide_eq_true h⟩
    · cases h
  · intro h
    obtain ⟨c, rfl, hid⟩ := h
    exact decide_eq_true hid

/-- only a claim hands out a run -/
theorem handsOut_advance (t : UnixTs) (r : UUID) (hphase : (s.consumers w).phase ≠ .claiming) :
    (atomicSys.reply s (.advance w t)).handsOut r = false := by
  refine Bool.eq_false_iff.2 ?_
  intro hout
  obtain ⟨c, hreply, -⟩ := handsOut_iff.1 hout
  exact hphase (claims_of_reply hreply).2.1

/-- `wait` clears the event, and the loop goes on to claim -/
theorem atomic_wake (t : UnixTs) (hphase : (s.consumers w).phase = .waiting) : atomicSys.step s (.advance w t) =
    Sys.setConsumer { s with runtime := { s.runtime with runSignal := false } } w
      { s.consumers w with phase := .claiming } := by
  change (s.advance w t).2 = _
  simp only [Sys.advance, Phase.call, Consumer.move, hphase]

theorem atomic_wait (t : UnixTs) (hphase : (s.consumers w).phase = .looping)
    (hallowed : (s.consumers w).executionAllowed = true) :
    atomicSys.step s (.advance w t) = s.setConsumer w { s.consumers w with phase := .waiting } := by
  rw [atomic_step_fine rfl, step_advance_move t (by rw [hphase]; rfl) (by rw [hphase]; nofun)]
  simp only [Consumer.move, hphase, hallowed, if_true]

/-- a worker at the top of its loop waits, and goes on to claim -/
theorem run_to_claim (t : UnixTs) (hphase : (s.consumers w).phase = .looping)
    (hallowed : (s.consumers w).executionAllowed = true) :
    atomicSys.run s [.advance w t, .advance w t] =
      Sys.setConsumer { s with runtime := { s.runtime with runSignal := false } } w
        { s.consumers w with phase := .claiming } := by
  rw [Machine.run_cons, atomic_wait t hphase hallowed, Machine.run_cons, Machine.run_nil,
    atomic_wake t (by rw [setConsumer_self])]
  simp only [setConsumer_self, runtime_setConsumer]
  simp only [Sys.setConsumer, Function.update_idem]

/-- neither of these steps hands out a run -/
theorem handsOut_wait (t : UnixTs) (r : UUID) (hphase : (s.consumers w).phase = .looping)
    (hallowed : (s.consumers w).executionAllowed = true) :
    (atomicSys.replies s [.advance w t, .advance w t]).countP (Reply.handsOut r) = 0 := by
  have hfirst := handsOut_advance (s := s) (w := w) t r (by rw [hphase]; nofun)
  have hsecond := handsOut_advance (s := atomicSys.step s (.advance w t)) (w := w) t r (by
    rw [atomic_wait t hphase hallowed, setConsumer_self]
    nofun)
  simp [hfirst, hsecond]

/-- the claim, on a runtime in order: the loop goes on to execute the answered run, or back to its top -/
theorem atomic_claim (hgood : Good s.runtime) (t : UnixTs) (hphase : (s.consumers w).phase = .claiming) :
    ∃ claimed rt, (claimRun w t).run s.runtime = .ok claimed rt ∧
      atomicSys.reply s (.advance w t) = .claimed claimed ∧
      Performs s.runtime rt (claimPlan s.runtime.view w t s.runtime.internalRunStorage.keys) ∧
      claimed.map ClaimedRun.id = nextRunnable (recovered s.runtime.view w t s.runtime.internalRunStorage.keys)
        s.runtime.internalRunStorage.keys ∧
      atomicSys.step s (.advance w t) = Sys.setConsumer { s with runtime := rt } w
        (match claimed with
        | some c => { s.consumers w with phase := .claimed c, lastWake := t }
        | none => { s.consumers w with phase := .looping }) := by
  obtain ⟨claimed, rt, hrun, hp, hnext, -⟩ := claimRun_spec w t hgood
  have hexec : (StoreOp.claimRun w t).exec s.runtime = (.claimed claimed, rt) := answer_ok hrun
  refine ⟨claimed, rt, hrun, ?_, hp, hnext, ?_⟩
  · change (s.advance w t).1 = _
    simp only [Sys.advance, hphase, Phase.call, Sys.perform, hexec]
  rw [atomic_step_fine rfl, step_advance_call (.claimRun w t) (by rw [hphase]; rfl), hexec]
  cases claimed <;> simp only [Consumer.react, hphase]

/-- with the claimed run at hand, the loop executes it -/
theorem atomic_execute {c : ClaimedRun} (t : UnixTs) (hphase : (s.consumers w).phase = .claimed c)
    (hallowed : (s.consumers w).executionAllowed = true) :
    atomicSys.step s (.advance w t) = s.setConsumer w { s.consumers w with
      phase := .executing c.id, runExecutionCtx := some false, heartbeatActive := true } := by
  rw [atomic_step_fine rfl, step_advance_move t (by rw [hphase]; rfl) (by rw [hphase]; nofun)]
  simp only [Consumer.move, hphase, hallowed, if_true]

/-- **A finish of a running run without an intent** takes the decision of its outcome and goes back to the loop. -/
theorem atomic_finish_running (hgood : Good s.runtime) {r : UUID} {v : RunView} (o : Outcome) (t : UnixTs)
    (hphase : (s.consumers w).phase = .executing r) (hctx : (s.consumers w).runExecutionCtx = some false)
    (hv : s.runtime.view r = some v) (hrunning : v.record.status = .running)
    (hflag : v.record.cancelRequested = false) :
    Performs s.runtime (atomicSys.step s (.finish w o t)).runtime [(r, o.act t)] ∧
      (atomicSys.step s (.finish w o t)).consumers w = (s.consumers w).leave := by
  have hact : finishAct s.runtime r o false t = o.act t := by
    cases o <;> simp [finishAct, Outcome.act, intendedIn, hv, hflag]
  have hg : (o.act t).Guard v.record := by
    cases o <;> exact hrunning
  have hfinish : atomicSys.step s (.finish w o t) =
      s.endsWith w ((executeRun r o false t).run s.runtime) := by
    change s.finish w o t = _
    simp only [Sys.finish, Sys.executingRun, hphase, hctx]
    rfl
  have hspec := executeRun_spec hgood r o false t
  rw [hact] at hspec
  rcases hspec with ⟨-, x, rt, -, -, hrun, -, hp⟩ | ⟨hno, -⟩
  · rw [hfinish, hrun]
    exact ⟨hp, setConsumer_self _ _ _⟩
  · exact absurd hg (hno v hv)

/-- what a round decides, where it leaves the worker, and the run it was handed: it finished that run, or found none to
claim -/
inductive Served (rt : InMemoryRuntime) (w : String) (p : Outcome × UnixTs) (rt' : InMemoryRuntime) (c : Consumer) :
    Option UUID → Prop
  | finished (l : List (UUID × Act)) (r : UUID) (v : RunView) : r ∈ rt.internalRunStorage.keys →
      (∀ q ∈ l, q.2 = .expire w p.2 ∨ q.2 = .drop p.2) → lifecycles.run rt.view l r = some v →
      (Act.claim w p.2).Guard v.record → Performs rt rt' (l ++ [(r, .claim w p.2), (r, p.1.act p.2)]) →
      c.phase = .looping → Served rt w p rt' c (some r)
  | nothing : nextRunnable (recovered rt.view w p.2 rt.internalRunStorage.keys) rt.internalRunStorage.keys = none →
      Performs rt rt' (claimPlan rt.view w p.2 rt.internalRunStorage.keys) → c.phase = .waiting →
      Served rt w p rt' c none

/-- **A round** claims a run and finishes it, or finds nothing to claim. -/
theorem round_spec (hgood : Good s.runtime) (p : Outcome × UnixTs) (hphase : (s.consumers w).phase = .looping)
    (hallowed : (s.consumers w).executionAllowed = true) :
    ∃ handed, Served s.runtime w p (atomicSys.run s (round w p)).runtime ((atomicSys.run s (round w p)).consumers w)
        handed ∧
      ((atomicSys.run s (round w p)).consumers w).executionAllowed = true ∧
      ∀ j, (atomicSys.replies s (round w p)).countP (Reply.handsOut j) = if handed = some j then 1 else 0 := by
  obtain ⟨o, t⟩ := p
  set s₂ := Sys.setConsumer { s with runtime := { s.runtime with runSignal := false } } w
    { s.consumers w with phase := .claiming } with hs₂
  have hrun₂ : atomicSys.run s (round w (o, t)) = atomicSys.run s₂ [.advance w t, .advance w t, .finish w o t] := by
    change atomicSys.run s ([.advance w t, .advance w t] ++ [.advance w t, .advance w t, .finish w o t]) = _
    rw [Machine.run_append, run_to_claim t hphase hallowed]
  have hconsumer₂ : s₂.consumers w = { s.consumers w with phase := .claiming } := setConsumer_self _ _ _
  have hsignal : Performs s.runtime s₂.runtime [] := performs_signal hgood false
  have hgood₂ : Good s₂.runtime := hsignal.good hgood
  obtain ⟨claimed, rt, hrun, hreply, hp, hnext, hstep⟩ := atomic_claim hgood₂ t (by rw [hconsumer₂])
  have hplan : Performs s.runtime rt (claimPlan s.runtime.view w t s.runtime.internalRunStorage.keys) :=
    hsignal.trans hp
  have hreplies : ∀ j, (atomicSys.replies s (round w (o, t))).countP (Reply.handsOut j) =
      if (Reply.claimed claimed).handsOut j then 1 else 0 := by
    intro j
    have hnot : ((atomicSys.step s₂ (.advance w t)).consumers w).phase ≠ .claiming := by
      rw [hstep, setConsumer_self]
      cases claimed <;> nofun
    have hexecute := handsOut_advance t j hnot
    have hfinish : (atomicSys.reply (atomicSys.step (atomicSys.step s₂ (.advance w t)) (.advance w t))
        (.finish w o t)).handsOut j = false := rfl
    change (atomicSys.replies s
      ([.advance w t, .advance w t] ++ [.advance w t, .advance w t, .finish w o t])).countP _ = _
    rw [Machine.replies_append, List.countP_append, handsOut_wait t j hphase hallowed, run_to_claim t hphase hallowed,
      Machine.replies_cons, Machine.replies_cons, Machine.replies_cons, Machine.replies_nil, List.countP_cons,
      List.countP_cons, List.countP_cons, List.countP_nil, hreply, hexecute, hfinish]
    simp
  rw [hrun₂, Machine.run_cons, hstep, hconsumer₂]
  cases claimed with
  | none =>
    set s₃ := Sys.setConsumer { s₂ with runtime := rt } w { s.consumers w with phase := .looping }
    have hconsumer₃ : s₃.consumers w = { s.consumers w with phase := .looping } := setConsumer_self _ _ _
    have hstep₄ := atomic_wait (s := s₃) t (by rw [hconsumer₃]) (by rw [hconsumer₃]; exact hallowed)
    have hidle : atomicSys.run s₃ [.advance w t, .finish w o t] =
        s₃.setConsumer w { s.consumers w with phase := .waiting } := by
      rw [Machine.run_cons, hstep₄, hconsumer₃, Machine.run_cons, Machine.run_nil]
      change Sys.finish _ w o t = _
      simp only [Sys.finish, Sys.executingRun, setConsumer_self]
    rw [hidle, setConsumer_self]
    exact ⟨none, .nothing hnext.symm hplan rfl, hallowed, hreplies⟩
  | some c =>
    set s₃ := Sys.setConsumer { s₂ with runtime := rt } w { s.consumers w with phase := .claimed c, lastWake := t }
    have hconsumer₃ : s₃.consumers w = { s.consumers w with phase := .claimed c, lastWake := t } :=
      setConsumer_self _ _ _
    obtain ⟨l, v, hl, hacts, -, hv, hg, hview, -⟩ := claimRun_some hgood₂ hrun
    change claimPlan s.runtime.view w t s.runtime.internalRunStorage.keys = _ at hl
    have hstep₄ := atomic_execute (s := s₃) (c := c) t (by rw [hconsumer₃]) (by rw [hconsumer₃]; exact hallowed)
    rw [Machine.run_cons, hstep₄, hconsumer₃, Machine.run_cons, Machine.run_nil]
    set s₄ := s₃.setConsumer w { s.consumers w with
      phase := .executing c.id, lastWake := t, runExecutionCtx := some false, heartbeatActive := true }
    have hconsumer₄ : s₄.consumers w = { s.consumers w with
        phase := .executing c.id, lastWake := t, runExecutionCtx := some false, heartbeatActive := true } :=
      setConsumer_self _ _ _
    obtain ⟨hfinish, hleave⟩ := atomic_finish_running (s := s₄) (hplan.good hgood) o t (by rw [hconsumer₄])
      (by rw [hconsumer₄]) hview rfl hg.2
    rw [hleave, hconsumer₄]
    have hstored : c.id ∈ s.runtime.internalRunStorage.keys := (nextRunnable_queued hnext.symm).1
    refine ⟨some c.id, .finished l c.id v hstored hacts hv hg ?_ rfl, hallowed, ?_⟩
    · have hall := hplan.trans hfinish
      rw [hl, List.append_assoc] at hall
      exact hall
    · intro j
      rw [hreplies j]
      simp [Reply.handsOut]

end Round

section Served

variable {rt rt' : InMemoryRuntime} {w : String} {p : Outcome × UnixTs} {now : UnixTs}

/-- what a round that finished a run shows of the runs -/
theorem view_finished {l : List (UUID × Act)} {r : UUID} {v : RunView} {a b : Act}
    (hp : Performs rt rt' (l ++ [(r, a), (r, b)])) (hv : lifecycles.run rt.view l r = some v) :
    rt'.view = Function.update (lifecycles.run rt.view l) r (some ((v.effect a).effect b)) := by
  rw [hp.view, Automaton.run_append, Automaton.run_cons, Automaton.run_cons, Automaton.run_nil]
  change Function.update (Function.update _ r _) r _ = _
  rw [Function.update_idem, Automaton.family_apply_self, hv]
  rfl

/-- **A round brings every run further**, or leaves it alone. -/
theorem Served.toward {c : Consumer} {handed : Option UUID} (h : Served rt w p rt' c handed) {executed : List Outcome}
    {st : RunStatus} {j : UUID} (hI : ∃ v, rt.view j = some v ∧ Toward w st executed v.record) :
    ∃ v, rt'.view j = some v ∧ Toward w st (executed ++ if handed = some j then [p.1] else []) v.record := by
  -- a decision of the claim, before it answers
  have hact : ∀ o a, (a = .expire w p.2 ∨ a = .drop p.2) → (∃ v, o = some v ∧ Toward w st executed v.record) →
      (lifecycle j).Enabled o a → ∃ v, (lifecycle j).apply o a = some v ∧ Toward w st executed v.record := by
    intro o a ha hI hen
    obtain ⟨v, rfl, htoward⟩ := hI
    exact ⟨v.effect a, rfl, htoward.act ha hen⟩
  cases h with
  | nothing hnext hp _ =>
    rw [if_neg nofun, List.append_nil]
    refine hp.keeps hact ?_ hI
    intro a hmem
    rcases List.mem_append.1 hmem with hmem | hmem
    · obtain ⟨i, -, -, heq⟩ := mem_recoveries.1 hmem
      exact Or.inl (Prod.mk.inj heq).2
    · rcases mem_claimTurn.1 hmem with hdrop | hclaim
      · exact Or.inr hdrop.2
      · rw [hnext] at hclaim
        cases hclaim.1
  | finished l r v _ hacts hv hg hp _ =>
    have hlegal := ((Automaton.legal_append _ _ _ _).1 hp.legal).1
    have hbefore := Automaton.family_keeps hact hlegal (fun a hmem => hacts (j, a) hmem) hI
    rw [view_finished hp hv]
    by_cases hj : j = r
    · subst hj
      obtain ⟨v', hv', htoward⟩ := hbefore
      obtain rfl := Option.some.inj (hv.symm.trans hv')
      rw [Function.update_self, if_pos rfl]
      exact ⟨_, rfl, htoward.finished p.1 hg⟩
    · rw [Function.update_of_ne hj, if_neg (fun heq => hj (Option.some.inj heq).symm), List.append_nil]
      exact hbefore

/-- after a round that found nothing, nothing is left -/
theorem quiet_of_nothing (hstale : rt.Stale now) (hnow : now ≤ p.2)
    (hnext : nextRunnable (recovered rt.view w p.2 rt.internalRunStorage.keys) rt.internalRunStorage.keys = none)
    (hp : Performs rt rt' (claimPlan rt.view w p.2 rt.internalRunStorage.keys)) : rt'.Quiet := by
  intro r v hv
  set keys := rt.internalRunStorage.keys
  set W := recovered rt.view w p.2 keys with hW
  have hnd : keys.Nodup := rt.internalRunStorage.keys_nodup
  have hview : rt'.view r = (lifecycle r).run (W r) (if r ∈ droppedRuns W keys then [.drop p.2] else []) := by
    have hproj : Automaton.proj r (claimTurn W w p.2 keys) = if r ∈ droppedRuns W keys then [.drop p.2] else [] := by
      rw [proj_claimTurn _ _ _ hnd, hnext]
      simp
    rw [hp.view, claimPlan, Automaton.run_append, Automaton.family_run_apply, hproj]
    rfl
  -- the first loop left no run running
  have hrunning : ∀ u, W r = some u → u.record.status ≠ .running := by
    intro u hu hst
    rw [hW, recovered_apply _ _ _ hnd] at hu
    split_ifs at hu with hexpired
    · obtain ⟨u', hu', -⟩ := expiredIn_iff.1 hexpired.2
      rw [hu'] at hu
      obtain rfl := Option.some.inj hu
      cases hst
    · refine hexpired ⟨mem_of_view hu, expiredIn_iff.2 ⟨u, hu, hst, ?_⟩⟩
      obtain ⟨expiration, hsome, hne, hlt⟩ := hstale r u hu hst
      exact ⟨expiration, hsome, hne, lt_of_lt_of_le hlt hnow⟩
  rw [hview] at hv
  split_ifs at hv with hdrop
  · obtain ⟨u, hu, -⟩ := drop_guard_of_dropped hdrop p.2
    rw [hu] at hv
    obtain rfl := Option.some.inj hv
    constructor <;> (intro hst; cases hst)
  · refine ⟨?_, hrunning v hv⟩
    intro hst
    refine hdrop ?_
    have hstored : r ∈ keys := by
      rw [hW, recovered_apply _ _ _ hnd] at hv
      split_ifs at hv with hexpired
      · exact hexpired.1
      · exact mem_of_view hv
    have hall : droppedRuns W keys = keys.filter (queuedIn W) := by
      refine List.takeWhile_eq_self_iff.2 ?_
      intro i hi
      exact intendedIn_of_nextRunnable hnext (List.mem_of_mem_filter hi) (List.of_mem_filter hi)
    rw [hall]
    exact List.mem_filter.2 ⟨hstored, queuedIn_iff.2 ⟨v, hv, hst⟩⟩

/-- after a round that finished a run, no run is running -/
theorem stale_of_finished (hstale : rt.Stale now) {l : List (UUID × Act)} {r : UUID} {v : RunView}
    (hacts : ∀ q ∈ l, q.2 = .expire w p.2 ∨ q.2 = .drop p.2) (hv : lifecycles.run rt.view l r = some v)
    (hp : Performs rt rt' (l ++ [(r, .claim w p.2), (r, p.1.act p.2)])) : rt'.Stale now := by
  intro j u hu hst
  rw [view_finished hp hv] at hu
  by_cases hj : j = r
  · subst hj
    rw [Function.update_self] at hu
    obtain rfl := Option.some.inj hu
    cases hp₁ : p.1 with
    | returned =>
      rw [hp₁] at hst
      cases hst
    | raised message =>
      rw [hp₁] at hst
      cases hst
  · rw [Function.update_of_ne hj] at hu
    have hkeep : ∀ o a, (a = .expire w p.2 ∨ a = .drop p.2) →
        (∀ u, o = some u → u.record.status = .running → Expired u.record now) → (lifecycle j).Enabled o a →
        ∀ u, (lifecycle j).apply o a = some u → u.record.status = .running → Expired u.record now := by
      intro o a ha hI hen u hu hst
      rcases lifecycle_cases hen with ⟨userId, t, rfl, rfl⟩ | ⟨v', rfl, -⟩
      · rcases ha with ha | ha <;> cases ha
      · obtain rfl := Option.some.inj hu
        rcases ha with rfl | rfl
        · cases hst
        · cases hst
    have hlegal := ((Automaton.legal_append _ _ _ _).1 hp.legal).1
    exact Automaton.family_keeps hkeep hlegal (fun a hmem => hacts (j, a) hmem) (hstale j) u hu hst

/-- a round that finished a run left one less to finish -/
theorem unfinished_of_finished {l : List (UUID × Act)} {r : UUID}
    (hacts : ∀ q ∈ l, q.2 = .expire w p.2 ∨ q.2 = .drop p.2)
    (hstored : r ∈ rt.internalRunStorage.keys)
    (hp : Performs rt rt' (l ++ [(r, .claim w p.2), (r, p.1.act p.2)])) : rt'.unfinished + 1 ≤ rt.unfinished := by
  have hkeys : rt'.internalRunStorage.keys = rt.internalRunStorage.keys := by
    rw [hp.keys]
    have hnone : createdIn (l ++ [(r, .claim w p.2), (r, p.1.act p.2)]) = [] := by
      unfold createdIn
      rw [List.filterMap_eq_nil_iff]
      intro q hq
      rcases List.mem_append.1 hq with hq | hq
      · obtain ⟨i, a⟩ := q
        rcases hacts _ hq with rfl | rfl <;> rfl
      · cases hp₁ : p.1 <;> rw [hp₁] at hq <;> simp [Outcome.act] at hq <;> rcases hq with rfl | rfl <;> rfl
    rw [hnone, List.append_nil]
  have hpaid := Automaton.family_pays endDue_pays hp.legal rt.internalRunStorage.keys
  rw [← hp.view, endDue_eq] at hpaid
  nth_rewrite 1 [← hkeys] at hpaid
  simp only [endDue_eq, Automaton.total_zero, List.map_const', List.sum_replicate, smul_zero, Nat.cast_zero,
    add_zero] at hpaid
  have hone : 1 ≤ (rt.internalRunStorage.keys.map fun j => Automaton.total Act.finishes
      (Automaton.proj j (l ++ [(r, .claim w p.2), (r, p.1.act p.2)]))).sum := by
    calc 1 = (p.1.act p.2).finishes := by cases p.1 <;> rfl
      _ ≤ Automaton.total Act.finishes (Automaton.proj r (l ++ [(r, .claim w p.2), (r, p.1.act p.2)])) :=
        Automaton.le_total (Automaton.mem_proj.2 (by simp))
      _ ≤ _ := List.single_le_sum (fun _ _ => Nat.zero_le _) _ (List.mem_map.2 ⟨r, hstored, rfl⟩)
  omega

end Served

/-! ## An idle worker -/

/-- the worker is between two claims -/
structure Consumer.Idle (c : Consumer) : Prop where
  allowed : c.executionAllowed = true
  phase : c.phase = .looping ∨ c.phase = .waiting ∨ c.phase = .claiming

/-- in a quiet queue there is nothing to recover, to drop or to claim -/
theorem claimPlan_of_quiet {rt : InMemoryRuntime} (h : rt.Quiet) (w : String) (t : UnixTs) :
    claimPlan rt.view w t rt.internalRunStorage.keys = [] ∧
      nextRunnable (recovered rt.view w t rt.internalRunStorage.keys) rt.internalRunStorage.keys = none := by
  have hrunning : ∀ r ∈ rt.internalRunStorage.keys, expiredIn rt.view t r = false := by
    intro r _
    refine Bool.eq_false_iff.2 ?_
    intro hexpired
    obtain ⟨v, hv, hst, -⟩ := expiredIn_iff.1 hexpired
    exact (h r v hv).2 hst
  have hqueued : rt.internalRunStorage.keys.filter (queuedIn rt.view) = [] := by
    rw [List.filter_eq_nil_iff]
    intro r _ hqueued
    obtain ⟨v, hv, hst⟩ := queuedIn_iff.1 hqueued
    exact (h r v hv).1 hst
  obtain ⟨hrecovered, hplan⟩ := claimPlan_of_no_recovery w hrunning
  rw [hplan, hrecovered]
  unfold claimTurn droppedRuns nextRunnable
  rw [hqueued]
  exact ⟨rfl, rfl⟩

/-- **A round in a quiet queue changes no run.** -/
theorem idle_step {s : Sys} {w : String} (hgood : Good s.runtime) (hquiet : s.runtime.Quiet)
    (hidle : (s.consumers w).Idle) {op : AtomicOp}
    (hop : (∃ t, op = .advance w t) ∨ ∃ o t, op = .finish w o t) :
    (atomicSys.step s op).runtime.view = s.runtime.view ∧ ((atomicSys.step s op).consumers w).Idle ∧
      ∀ r, (atomicSys.reply s op).handsOut r = false := by
  obtain ⟨hallowed, hphase⟩ := hidle
  rcases hop with ⟨t, rfl⟩ | ⟨o, t, rfl⟩
  · rcases hphase with hphase | hphase | hphase
    · rw [atomic_wait t hphase hallowed]
      refine ⟨rfl, ?_, fun r => handsOut_advance t r (by rw [hphase]; nofun)⟩
      rw [setConsumer_self]
      exact ⟨hallowed, Or.inr (Or.inl rfl)⟩
    · rw [atomic_wake t hphase]
      refine ⟨rfl, ?_, fun r => handsOut_advance t r (by rw [hphase]; nofun)⟩
      rw [setConsumer_self]
      exact ⟨hallowed, Or.inr (Or.inr rfl)⟩
    · obtain ⟨hplan, hnone⟩ := claimPlan_of_quiet hquiet w t
      obtain ⟨claimed, rt, -, hreply, hp, hnext, hstep⟩ := atomic_claim hgood t hphase
      rw [hnone, Option.map_eq_none_iff] at hnext
      subst hnext
      rw [hplan] at hp
      rw [hstep, setConsumer_self, hreply]
      exact ⟨hp.view, ⟨hallowed, Or.inl rfl⟩, fun r => rfl⟩
  · have hexecuting : s.executingRun w = none := by
      unfold Sys.executingRun
      rcases hphase with hphase | hphase | hphase <;> rw [hphase]
    have hstep : atomicSys.step s (.finish w o t) = s := by
      change s.finish w o t = s
      simp only [Sys.finish, hexecuting]
    rw [hstep]
    exact ⟨rfl, ⟨hallowed, hphase⟩, fun r => rfl⟩

/-- the steps of a round are steps of the worker's loop and the end of its executor -/
theorem mem_round {w : String} {p : Outcome × UnixTs} {op : AtomicOp} (h : op ∈ round w p) :
    (∃ t, op = .advance w t) ∨ ∃ o t, op = .finish w o t := by
  simp only [round, List.mem_cons, List.not_mem_nil, or_false] at h
  rcases h with rfl | rfl | rfl | rfl | rfl
  all_goals first | exact Or.inl ⟨_, rfl⟩ | exact Or.inr ⟨_, _, rfl⟩

/-- **An idle round**: no run changes, and none is handed out. -/
theorem idle_round {s : Sys} {w : String} (hgood : Good s.runtime) (hquiet : s.runtime.Quiet)
    (hidle : (s.consumers w).Idle) (p : Outcome × UnixTs) :
    (atomicSys.run s (round w p)).runtime.view = s.runtime.view ∧ ((atomicSys.run s (round w p)).consumers w).Idle ∧
      ∀ r, (atomicSys.replies s (round w p)).countP (Reply.handsOut r) = 0 := by
  set I : Sys → Prop := fun s' => Good s'.runtime ∧ s'.runtime.view = s.runtime.view ∧ (s'.consumers w).Idle
  have hstep : ∀ s' op, I s' → ((∃ t, op = .advance w t) ∨ ∃ o t, op = .finish w o t) →
      I (atomicSys.step s' op) ∧ ∀ r, (atomicSys.reply s' op).handsOut r = false := by
    intro s' op hI hop
    obtain ⟨hgood', hview, hidle'⟩ := hI
    have hquiet' : s'.runtime.Quiet := by
      intro r v hv
      rw [hview] at hv
      exact hquiet r v hv
    obtain ⟨hsame, hnext, hout⟩ := idle_step hgood' hquiet' hidle' hop
    exact ⟨⟨(atomic_performs hgood' op).good hgood', hsame.trans hview, hnext⟩, hout⟩
  have hround := Machine.along_of_mem (M := atomicSys) (fun op hop => mem_round (w := w) (p := p) hop) s
  have hstart : I s := ⟨hgood, rfl, hidle⟩
  have hend : I (atomicSys.run s (round w p)) :=
    Machine.run_inv (fun s' op hI hop => (hstep s' op hI hop).1) hstart hround
  refine ⟨hend.2.1, hend.2.2, ?_⟩
  intro r
  refine List.countP_eq_zero.2 ?_
  intro reply hreply
  have hout := Machine.replies_of_inv (R := fun reply => reply.handsOut r = false)
    (fun s' op hI hop => (hstep s' op hI hop).1) (fun s' op hI hop => (hstep s' op hI hop).2 r) hstart hround reply
    hreply
  rw [hout]
  exact Bool.false_ne_true

theorem idle_rounds {w : String} (rounds : List (Outcome × UnixTs)) {s : Sys} (hgood : Good s.runtime)
    (hquiet : s.runtime.Quiet) (hidle : (s.consumers w).Idle) :
    (atomicSys.run s (rounds.flatMap (round w))).runtime.view = s.runtime.view ∧
      ∀ r, executions w r s rounds = [] := by
  induction rounds generalizing s with
  | nil => exact ⟨rfl, fun r => rfl⟩
  | cons p rounds ih =>
    obtain ⟨hview, hidle', hout⟩ := idle_round hgood hquiet hidle p
    have hquiet' : (atomicSys.run s (round w p)).runtime.Quiet := by
      unfold InMemoryRuntime.Quiet
      rw [hview]
      exact hquiet
    obtain ⟨hrest, hnone⟩ := ih (atomicRefine.good_run hgood (round w p)) hquiet' hidle'
    rw [List.flatMap_cons, Machine.run_append]
    refine ⟨hrest.trans hview, ?_⟩
    intro r
    rw [executions, hout r, hnone r]
    rfl

/-! ## The run -/

/-- **Rounds until nothing is left**, seen from the records the runs had before them and the executions since. -/
theorem rounds_run {w : String} {now : UnixTs} {records : UUID → Option RunStatus} {rounds : List (Outcome × UnixTs)}
    (hrounds : ∀ p ∈ rounds, now ≤ p.2) {s : Sys} (hgood : Good s.runtime) (hphase : (s.consumers w).phase = .looping)
    (hallowed : (s.consumers w).executionAllowed = true) (hstale : s.runtime.Stale now)
    (hmany : s.runtime.unfinished ≤ rounds.length) {executed : UUID → List Outcome}
    (hI : ∀ r st, records r = some st → ∃ v, s.runtime.view r = some v ∧ Toward w st (executed r) v.record) :
    (atomicSys.run s (rounds.flatMap (round w))).runtime.Quiet ∧ ∀ r st, records r = some st →
      ∃ v, (atomicSys.run s (rounds.flatMap (round w))).runtime.view r = some v ∧
        Toward w st (executed r ++ executions w r s rounds) v.record := by
  induction rounds generalizing s executed with
  | nil =>
    refine ⟨quiet_of_unfinished (Nat.le_zero.1 hmany), ?_⟩
    intro r st hst
    rw [executions, List.append_nil]
    exact hI r st hst
  | cons p rounds ih =>
    have hnow := hrounds p List.mem_cons_self
    have hrest := fun q hq => hrounds q (List.mem_cons_of_mem p hq)
    obtain ⟨handed, hserved, hallowed', hout⟩ := round_spec hgood p hphase hallowed
    have hgood' : Good (atomicSys.run s (round w p)).runtime := atomicRefine.good_run hgood (round w p)
    have hI' := fun r st hst => hserved.toward (hI r st hst)
    -- the round counts for the run it was handed
    have hexecutions : ∀ r, executions w r s (p :: rounds) =
        (if handed = some r then [p.1] else []) ++ executions w r (atomicSys.run s (round w p)) rounds := by
      intro r
      rw [executions, hout r]
      split_ifs <;> rfl
    simp only [hexecutions, List.flatMap_cons, Machine.run_append, ← List.append_assoc]
    cases hserved with
    | finished l r v hstored hacts hv hg hp hphase' =>
      have hless := unfinished_of_finished hacts hstored hp
      rw [List.length_cons] at hmany
      exact ih hrest hgood' hphase' hallowed' (stale_of_finished hstale hacts hv hp) (by omega) hI'
    | nothing hnext hp hphase' =>
      have hquiet := quiet_of_nothing hstale hnow hnext hp
      obtain ⟨hview, hnone⟩ := idle_rounds rounds hgood' hquiet ⟨hallowed', Or.inr (Or.inl hphase')⟩
      unfold InMemoryRuntime.Quiet
      simp only [hview, hnone, List.append_nil]
      exact ⟨hquiet, hI'⟩

/-- **The survivor drains the queue.** In any reachable state in which every lease has run out and worker `w` stands at
the top of its loop, let its loop turn as often as there are unfinished runs, its executor ending each time in any way.
Then every run that was queued or running has ended: cancelled, without an execution, if it had an intent; else as the
executor ended in the round whose claim answered the run, which is one round only; it was retried once more if it was
running; and the other runs are as they were and were not executed. -/
theorem drained (ops : List AtomicOp) (w : String) (now : UnixTs) (rounds : List (Outcome × UnixTs))
    (hphase : ((atomicSys.run Sys.init ops).consumers w).phase = .looping)
    (hallowed : ((atomicSys.run Sys.init ops).consumers w).executionAllowed = true)
    (hstale : (atomicSys.run Sys.init ops).runtime.Stale now)
    (hrounds : (atomicSys.run Sys.init ops).runtime.unfinished ≤ rounds.length)
    (htimes : ∀ p ∈ rounds, now ≤ p.2) {r : UUID} {st : RunStatus}
    (hst : (atomicSys.run Sys.init ops).runtime.record? r = some st) :
    ∃ st', (atomicSys.run Sys.init (ops ++ rounds.flatMap (round w))).runtime.record? r = some st' ∧
      (st.status = .enqueued ∨ st.status = .running →
        Ended (executions w r (atomicSys.run Sys.init ops) rounds) st st') ∧
      (st.status ≠ .enqueued → st.status ≠ .running →
        st' = st ∧ executions w r (atomicSys.run Sys.init ops) rounds = []) := by
  have hstart : ∀ r st, (atomicSys.run Sys.init ops).runtime.record? r = some st → ∃ v,
      (atomicSys.run Sys.init ops).runtime.view r = some v ∧ Toward w st [] v.record := by
    intro r st hst
    obtain ⟨v, hv, rfl⟩ := exists_view hst
    exact ⟨v, hv, .kept⟩
  obtain ⟨hquiet, hend⟩ := rounds_run htimes (atomic_good ops) hphase hallowed hstale hrounds hstart
  rw [← Machine.run_append] at hquiet hend
  obtain ⟨v, hv, htoward⟩ := hend r st hst
  refine ⟨v.record, record?_of_view hv, ?_⟩
  obtain ⟨hnotEnqueued, hnotRunning⟩ := hquiet r v hv
  rw [List.nil_append] at htoward
  generalize v.record = st' at htoward hnotEnqueued hnotRunning ⊢
  generalize executions w r (atomicSys.run Sys.init ops) rounds = executed at htoward ⊢
  cases htoward with
  | kept => exact ⟨fun hopen => absurd hopen (not_or.2 ⟨hnotEnqueued, hnotRunning⟩), fun _ _ => ⟨rfl, rfl⟩⟩
  | queued t => exact absurd rfl hnotEnqueued
  | ended _ _ hopen hended => exact ⟨fun _ => hended, fun he hr => absurd hopen (not_or.2 ⟨he, hr⟩)⟩

/-- worker `w1` claims run 1 and is gone; run 2 is cancelled while it waits, and run 3 waits -/
def abandoned : List AtomicOp := [.createRun 1 "user_1" 0, .advance "w1" 1, .advance "w1" 1, .advance "w1" 1,
  .advance "w1" 1, .createRun 2 "user_1" 2, .createRun 3 "user_1" 2, .cancelRun 2 3]

/-- three turns of the survivor's loop, after the lease ran out; its executor raises once -/
def survivor : List (Outcome × UnixTs) :=
  [(.returned, seconds 40), (.raised "boom", seconds 41), (.returned, seconds 42)]

/-- the record of run 1 while its worker is gone -/
def orphaned : RunStatus where
  id := 1
  status := .running
  result := none
  error := none
  claimedWorker := some "w1"
  claimExpirationUnixTs := some (1 + seconds 30)

/-- the record of run 3 -/
def left : RunStatus where
  id := 3
  status := .enqueued
  result := none
  error := none

/-- the first turn executes run 1, the second run 3; run 2 is cancelled on the way, and the third turn finds nothing -/
theorem executions_abandoned : executions "w2" 1 (atomicSys.run Sys.init abandoned) survivor = [.returned] ∧
    executions "w2" 3 (atomicSys.run Sys.init abandoned) survivor = [.raised "boom"] := by
  decide +kernel

theorem drained_abandoned :
    (∃ st', (atomicSys.run Sys.init (abandoned ++ survivor.flatMap (round "w2"))).runtime.record? 1 = some st' ∧
      Ended [.returned] orphaned st') ∧
    ∃ st', (atomicSys.run Sys.init (abandoned ++ survivor.flatMap (round "w2"))).runtime.record? 3 = some st' ∧
      Ended [.raised "boom"] left st' := by
  have hstale : (atomicSys.run Sys.init abandoned).runtime.Stale (seconds 40) := by
    intro r v hv hst
    have hstored := mem_of_view hv
    have hkeys : (atomicSys.run Sys.init abandoned).runtime.internalRunStorage.keys = [1, 2, 3] := rfl
    have hmem : r ∈ [1, 2, 3] := hkeys ▸ hstored
    simp only [List.mem_cons, List.not_mem_nil, or_false] at hmem
    rcases hmem with rfl | rfl | rfl
    · obtain rfl := Option.some.inj hv
      exact ⟨_, rfl, by decide, by decide⟩
    · obtain rfl := Option.some.inj hv
      cases hst
    · obtain rfl := Option.some.inj hv
      cases hst
  obtain ⟨hone, hthree⟩ := executions_abandoned
  constructor
  · have hst : (atomicSys.run Sys.init abandoned).runtime.record? 1 = some orphaned := rfl
    obtain ⟨st', hst', hended, -⟩ :=
      drained abandoned "w2" (seconds 40) survivor rfl rfl hstale (by decide) (by decide) hst
    rw [hone] at hended
    exact ⟨st', hst', hended (Or.inr rfl)⟩
  · have hst : (atomicSys.run Sys.init abandoned).runtime.record? 3 = some left := rfl
    obtain ⟨st', hst', hended, -⟩ :=
      drained abandoned "w2" (seconds 40) survivor rfl rfl hstale (by decide) (by decide) hst
    rw [hthree] at hended
    exact ⟨st', hst', hended (Or.inl rfl)⟩

end LlmAgent
