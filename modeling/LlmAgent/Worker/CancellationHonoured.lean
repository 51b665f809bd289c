/-
An acknowledged cancellation is always honoured.

Once `cancel_run` answered True, the record carries the intent, and every later decision respects it: the intent
survives claims, renewals and recoveries, a claim cancels the run instead of taking it, and a finish reads the intent
before its terminal write.

- `Honoured`: the invariant of the cancelled run; `honoured_act`: every decision that is open to it keeps it;
- `decisions_honour`: no step takes another one;
- `cancellation_honoured`: so it holds after every continuation.
-/
import LlmAgent.Worker.AtomicFinish

namespace LlmAgent

open Core

/-- the step is the end of an execution of run `r` that raised -/
def ExecutionRaises (r : UUID) (s : Sys) (op : AtomicOp) : Prop :=
  ∃ w message now, op = .finish w (.raised message) now ∧ s.executingRun w = some r

/-- the run carries its intent, has not succeeded, and failed only if `raised` -/
def Honoured (raised : Prop) (o : Option RunView) : Prop :=
  ∃ v, o = some v ∧ v.record.cancelRequested = true ∧ v.record.status ≠ .succeeded ∧
    (v.record.status = .failed → raised)

/-- the decisions that honour an intent -/
def Act.Honours (raised : Prop) : Act → Prop
  | .enqueue _ => False
  | .markCancel _ => False
  | .succeed _ _ => False
  | .fail _ _ => raised
  | _ => True

theorem honoured_act {raised : Prop} {r : UUID} {o : Option RunView} {a : Act} (ha : a.Honours raised)
    (hI : Honoured raised o) (hen : (lifecycle r).Enabled o a) : Honoured raised ((lifecycle r).apply o a) := by
  obtain ⟨v, rfl, hflag, hsucc, hfail⟩ := hI
  have hg : a.Guard v.record := hen
  refine ⟨v.effect a, rfl, ?_⟩
  cases a with
  | create => exact hg.elim
  | enqueue => exact ha.elim
  | markCancel => exact ha.elim
  | succeed => exact ha.elim
  | claim =>
    rw [hg.2] at hflag
    cases hflag
  | fail => exact ⟨hflag, by nofun, fun _ => ha⟩
  | requestCancel => exact ⟨rfl, hsucc, hfail⟩
  | loseClaim => exact ⟨hflag, hsucc, hfail⟩
  | emit => exact ⟨hflag, hsucc, hfail⟩
  | expire => exact ⟨hflag, by nofun, by nofun⟩
  | drop => exact ⟨hflag, by nofun, by nofun⟩
  | renew => exact ⟨hflag, by nofun, by nofun⟩
  | cancel => exact ⟨hflag, by nofun, by nofun⟩

/-! ## The decisions that are open to a step -/

/-- a finish reads the intent before it decides -/
theorem finish_honours {s : Sys} {w : String} {outcome : Outcome} {now : UnixTs} {r : UUID} {raised : Prop}
    (hI : Honoured raised (s.runtime.view r)) (hr : ExecutionRaises r s (.finish w outcome now) → raised) {a : Act}
    (h : (r, a) ∈ (AtomicOp.finish w outcome now).decisions s) : a.Honours raised := by
  obtain ⟨v, hv, hflag, -⟩ := hI
  simp only [AtomicOp.decisions] at h
  cases hrun : s.executingRun w with
  | none =>
    rw [hrun] at h
    cases h
  | some j =>
    rw [hrun] at h
    obtain ⟨hp, -⟩ := mem_taken.1 h
    obtain ⟨rfl, rfl⟩ := Prod.mk.inj hp
    cases outcome with
    | raised message => exact hr ⟨w, message, now, rfl, hrun⟩
    | returned =>
      have hintent : intendedIn s.runtime.view r = true := by simp [intendedIn, hv, hflag]
      simp only [finishAct, hintent, Bool.or_true, if_true]
      trivial

/-- **Every step honours the intent.** -/
theorem decisions_honour {s : Sys} (hgood : Good s.runtime) (hsettled : ∀ w, (s.consumers w).Settled) {op : AtomicOp}
    {r : UUID} {raised : Prop} (hI : Honoured raised (s.runtime.view r)) (hr : ExecutionRaises r s op → raised)
    {a : Act} (h : (r, a) ∈ op.decisions s) : a.Honours raised := by
  cases hfine : op.fine with
  | none =>
    obtain ⟨w, outcome, now, rfl⟩ := fine_eq_none hfine
    exact finish_honours hI hr h
  | some fine =>
    rw [decisions_fine hfine] at h
    have horigin := origin_of_mem hgood h
    cases a with
    | enqueue now =>
      rcases horigin with rfl | ⟨userId, rfl⟩
      · cases op <;> cases hfine
      · obtain ⟨call, hcall, hmem⟩ := mem_decisions.1 h
        obtain rfl := Option.some.inj hcall
        obtain ⟨v, hv, -⟩ := hI
        rw [fresh_of_enqueue hmem] at hv
        cases hv
    | markCancel now =>
      obtain rfl : fine = .api (.markCancelled r now) := horigin
      cases op <;> cases hfine
    | succeed result now =>
      obtain ⟨w, -, hphase, -⟩ := horigin
      have hexec := hsettled w r (by rw [hphase]; rfl)
      rw [hphase] at hexec
      cases hexec
    | fail error now =>
      obtain ⟨w, -, hphase⟩ := horigin
      have hexec := hsettled w r (by rw [hphase]; rfl)
      rw [hphase] at hexec
      cases hexec
    | _ => trivial

theorem honoured_step {s : Sys} (hgood : Good s.runtime) (hsettled : ∀ w, (s.consumers w).Settled) {op : AtomicOp}
    {r : UUID} {raised : Prop} (hr : ExecutionRaises r s op → raised) (hI : Honoured raised (s.runtime.view r)) :
    Honoured raised ((atomicSys.step s op).runtime.view r) := by
  refine (atomic_performs hgood op).keeps (fun _ _ => honoured_act) ?_ hI
  intro a hmem
  exact decisions_honour hgood hsettled hI hr hmem

/-- **The invariant along a run**, with `raised` read off the run itself -/
theorem honoured_run {s : Sys} (hgood : Good s.runtime) (hsettled : ∀ w, (s.consumers w).Settled) {r : UUID}
    {raised : Prop} {ops : List AtomicOp} (hr : atomicSys.Along (fun s op => ExecutionRaises r s op → raised) s ops)
    (hI : Honoured raised (s.runtime.view r)) : Honoured raised ((atomicSys.run s ops).runtime.view r) := by
  refine (atomicRefine.inv_run (I := fun s : Sys => (∀ w, (s.consumers w).Settled) ∧
    Honoured raised (s.runtime.view r)) ?_ hgood ⟨hsettled, hI⟩ hr).2
  intro s op hgood hboth hr
  exact ⟨settled_step hboth.1, honoured_step hgood hboth.1 hr hboth.2⟩

/-! ## What a claim answers -/

/-- an honoured run is not claimed -/
theorem not_claimed_of_honoured {s : Sys} (hgood : Good s.runtime) {raised : Prop} {op : SysOp} {w : String}
    {now : UnixTs} {c : ClaimedRun} (hc : Claims s op w now c) (hI : Honoured raised (s.runtime.view c.id)) :
    False := by
  obtain ⟨-, -, hreply⟩ := hc
  obtain ⟨l, v, -, hl, hlegal, hv, hg, -, -⟩ := claimRun_some hgood (claimed_reply hreply)
  -- what the call did before it claims keeps the intent, and the claim needs a run without one
  have hhonours : ∀ a, (c.id, a) ∈ l → a.Honours raised := by
    intro a hmem
    rcases hl _ hmem with rfl | rfl <;> trivial
  obtain ⟨v', hv', hflag, -⟩ := Automaton.family_keeps (fun _ _ => honoured_act) hlegal hhonours hI
  obtain rfl := Option.some.inj (hv.symm.trans hv')
  rw [hg.2] at hflag
  cases hflag

/-- an acknowledged cancellation leaves the run with its intent and not terminal -/
theorem honoured_of_ack {s : Sys} (hgood : Good s.runtime) {r : UUID} {now : UnixTs}
    (hack : atomicSys.reply s (.cancelRun r now) = .flag true) (raised : Prop) :
    Honoured raised ((atomicSys.step s (.cancelRun r now)).runtime.view r) := by
  obtain ⟨v, -, hg, hview⟩ := (orchestratorCancelRun_spec hgood r now).view_of_flag hgood hack
  refine ⟨_, hview, rfl, fun hsucc => hg.1 ?_, fun hfail => absurd ?_ hg.1⟩
  · rw [show v.record.status = .succeeded from hsucc]
    decide
  · rw [show v.record.status = .failed from hfail]
    decide

/-- **An acknowledged cancellation is always honoured.** After `cancel_run(r)` answered True, whatever follows: no
`claim_run` answers `r`, `r` keeps its intent and does not become SUCCEEDED, and when it is terminal it is CANCELLED, or
FAILED after an execution of it raised. -/
theorem cancellation_honoured {pre mid : List AtomicOp} {r : UUID} {now : UnixTs}
    (hack : atomicSys.reply (atomicSys.run Sys.init pre) (.cancelRun r now) = .flag true) :
    (∀ w t c, atomicSys.reply (atomicSys.run Sys.init (pre ++ .cancelRun r now :: mid)) (.advance w t) =
      .claimed (some c) → c.id ≠ r) ∧
    ∃ st, (atomicSys.run Sys.init (pre ++ .cancelRun r now :: mid)).runtime.record? r = some st ∧
      st.cancelRequested = true ∧ st.status ≠ .succeeded ∧
      (st.status ∈ terminalRunStatuses → st.status = .cancelled ∨ (st.status = .failed ∧
        atomicSys.Occurs (ExecutionRaises r) (atomicSys.run Sys.init (pre ++ [.cancelRun r now])) mid)) := by
  have hgood := atomic_good pre
  have hgood' := atomic_good (pre ++ .cancelRun r now :: mid)
  set raised := atomicSys.Occurs (ExecutionRaises r) (atomicSys.run Sys.init (pre ++ [.cancelRun r now])) mid
  have hI : Honoured raised ((atomicSys.run Sys.init (pre ++ .cancelRun r now :: mid)).runtime.view r) := by
    rw [List.append_cons, Machine.run_append]
    refine honoured_run (atomic_good _) (settled_run _) ?_ ?_
    · refine (Machine.along_iff _ _).2 fun a op b hmid hr => ?_
      exact ⟨a, op, b, hmid, hr⟩
    · rw [Machine.run_snoc]
      exact honoured_of_ack hgood hack raised
  refine ⟨?_, ?_⟩
  · intro w t c hreply hid
    subst hid
    exact not_claimed_of_honoured hgood' (claims_of_reply hreply) hI
  · obtain ⟨v, hv, hflag, hsucc, hfail⟩ := hI
    refine ⟨v.record, record?_of_view hv, hflag, hsucc, fun hterminal => ?_⟩
    cases hs : v.record.status with
    | cancelled => exact Or.inl rfl
    | failed => exact Or.inr ⟨rfl, hfail hs⟩
    | succeeded => exact absurd hs hsucc
    | _ => rw [hs] at hterminal; exact absurd hterminal (by decide)

/-- `w1` claims run 1 and executes it -/
def executingRunOne : List AtomicOp :=
  [.createRun 1 "user_1" 10, .advance "w1" (seconds 1), .advance "w1" (seconds 1), .advance "w1" (seconds 1),
   .advance "w1" (seconds 1)]

/-- its lease expires, and `w2` recovers it and cancels it at its claim -/
def recoveredByOther : List AtomicOp :=
  [.advance "w2" (seconds 40), .advance "w2" (seconds 40), .advance "w2" (seconds 40)]

theorem cancellation_honoured_recovered :
    (∀ w t c, atomicSys.reply (atomicSys.run Sys.init (executingRunOne ++ .cancelRun 1 (seconds 2) :: recoveredByOther))
      (.advance w t) = .claimed (some c) → c.id ≠ 1) ∧
    ∃ st, (atomicSys.run Sys.init (executingRunOne ++ .cancelRun 1 (seconds 2) :: recoveredByOther)).runtime.record? 1 =
        some st ∧ st.cancelRequested = true ∧ st.status ≠ .succeeded ∧
      (st.status ∈ terminalRunStatuses → st.status = .cancelled ∨ (st.status = .failed ∧ atomicSys.Occurs
        (ExecutionRaises 1) (atomicSys.run Sys.init (executingRunOne ++ [.cancelRun 1 (seconds 2)]))
        recoveredByOther)) :=
  @cancellation_honoured executingRunOne recoveredByOther 1 (seconds 2) rfl

end LlmAgent
