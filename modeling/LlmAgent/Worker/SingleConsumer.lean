/-
With a single consumer every run is executed exactly once.

- `Taken`, `taken_step`: a run that left the queue is never queued again, so no run is returned twice;
- `Flagged`, `flagged_step`: a run carries an intent exactly after an acknowledged cancellation;
- `exactly_once`: what follows for every run of the system.
-/
import LlmAgent.Worker.SoloSystem

namespace LlmAgent

open Core

/-! ## Histories -/

/-- the step is a `claim_run` that returns run `r` -/
def Answers (w : String) (r : UUID) (s : Sys) (op : SoloOp) : Prop :=
  ∃ c, (soloSys w).reply s op = .reply (.claimed (some c)) ∧ c.id = r

/-- the step is a `cancel_run(r)` that returns True -/
def Acked (w : String) (r : UUID) (s : Sys) (op : SoloOp) : Prop :=
  ∃ now, op = .cancelRun r now ∧ (soloSys w).reply s op = .reply (.flag true)

/-- the run left the queue -/
def Taken (o : Option RunView) : Prop := ∃ v, o = some v ∧ v.record.status ≠ .enqueued

def Flagged (o : Option RunView) : Prop := ∃ v, o = some v ∧ v.record.cancelRequested = true

section Histories

variable {w : String} {s s' : Sys} {op : SoloOp} {r : UUID}

/-- **A step, seen from one run**: nothing, its creation, or one decision about it that does not put it back into the
queue. -/
theorem SoloStep.run_cases (h : SoloStep w s s' op) (r : UUID) : s'.runtime.view r = s.runtime.view r ∨
    (∃ userId now, s.runtime.view r = none ∧ op = .createRun r userId now ∧
      s'.runtime.view r = some ((RunView.created r userId now).effect (.enqueue now))) ∨
    ∃ v a, s.runtime.view r = some v ∧ s'.runtime.view r = some (v.effect a) ∧
      ((v.record.status ≠ .enqueued → (a.record v.record).status ≠ .enqueued) ∧
        ((∃ now, op = .cancelRun r now ∧ a = .requestCancel now ∧ a.Guard v.record) ∨
          ((∀ now, op ≠ .cancelRun r now) ∧ (a.record v.record).cancelRequested = v.record.cancelRequested))) := by
  have hother : ∀ {j : UUID} {x : Option RunView}, s'.runtime.view = Function.update s.runtime.view j x → r ≠ j →
      s'.runtime.view r = s.runtime.view r := by
    intro j x hview hj
    rw [hview, Function.update_of_ne hj]
  have hself : ∀ {j : UUID} {x : Option RunView}, s'.runtime.view = Function.update s.runtime.view j x →
      s'.runtime.view j = x := by
    intro j x hview
    rw [hview, Function.update_self]
  cases h with
  | still _ _ heq => exact Or.inl (by rw [heq])
  | entered now _ hview => exact Or.inl (by rw [hview])
  | woke now _ hview => exact Or.inl (by rw [hview])
  | started c now _ hview => exact Or.inl (by rw [hview])
  | created j userId now hnone hview =>
    by_cases hj : r = j
    · subst hj
      exact Or.inr (Or.inl ⟨userId, now, hnone, rfl, hself hview⟩)
    · exact Or.inl (hother hview hj)
  | intended j v now hv hg hview =>
    by_cases hj : r = j
    · subst hj
      exact Or.inr (Or.inr ⟨v, _, hv, hself hview, id, Or.inl ⟨now, rfl, rfl, hg⟩⟩)
    · exact Or.inl (hother hview hj)
  | beat j v now _ hv hg hview =>
    by_cases hj : r = j
    · subst hj
      exact Or.inr (Or.inr ⟨v, _, hv, hself hview, fun _ => by nofun, Or.inr ⟨by nofun, rfl⟩⟩)
    · exact Or.inl (hother hview hj)
  | emitted j v eventType payload now _ hv hview =>
    by_cases hj : r = j
    · subst hj
      exact Or.inr (Or.inr ⟨v, _, hv, hself hview, id, Or.inr ⟨by nofun, rfl⟩⟩)
    · exact Or.inl (hother hview hj)
  | finished j v outcome now _ hv _ hview =>
    by_cases hj : r = j
    · subst hj
      obtain ⟨hterminal, -, hflag⟩ := finishAct_record s.runtime r outcome
        (decide ((s.consumers w).runExecutionCtx = some true)) now v.record
      refine Or.inr (Or.inr ⟨v, _, hv, hself hview, fun _ hqueued => ?_, Or.inr ⟨by nofun, hflag⟩⟩)
      rw [hqueued] at hterminal
      exact absurd hterminal (by decide)
    · exact Or.inl (hother hview hj)
  | claim now claimed _ _ hclaimed hothers =>
    by_cases hj : ∃ c, claimed = some c ∧ c.id = r
    · obtain ⟨c, rfl, rfl⟩ := hj
      obtain ⟨v, hv, -, hview⟩ := hclaimed c rfl
      exact Or.inr (Or.inr ⟨v, _, hv, hview, fun _ => by nofun, Or.inr ⟨by nofun, rfl⟩⟩)
    · rcases hothers r (fun c hc hid => hj ⟨c, hc, hid⟩) with hview | ⟨v, hv, -, hview⟩
      · exact Or.inl hview
      · exact Or.inr (Or.inr ⟨v, _, hv, hview, fun _ => by nofun, Or.inr ⟨by nofun, rfl⟩⟩)

/-- a run that left the queue stays out of it -/
theorem taken_step (h : SoloStep w s s' op) (hI : Taken (s.runtime.view r)) : Taken (s'.runtime.view r) := by
  obtain ⟨v, hv, hstatus⟩ := hI
  rcases h.run_cases r with hview | ⟨userId, now, hnone, -⟩ | ⟨v', a, hv', hview, hqueue, -⟩
  · exact ⟨v, hview.trans hv, hstatus⟩
  · rw [hnone] at hv
    cases hv
  · obtain rfl := Option.some.inj (hv.symm.trans hv')
    exact ⟨_, hview, hqueue hstatus⟩

theorem acked_iff (hgood : Good s.runtime) {now : UnixTs} : Acked w r s (.cancelRun r now) ↔
    ∃ v, s.runtime.view r = some v ∧ (Act.requestCancel now).Guard v.record := by
  rw [← (orchestratorCancelRun_spec hgood r now).flag_true_iff]
  constructor
  · rintro ⟨t, -, hreply⟩
    exact SoloReply.reply.inj hreply
  · intro hreply
    exact ⟨now, rfl, congrArg SoloReply.reply hreply⟩

/-- a step gives a run its intent exactly when it is an acknowledged cancellation -/
theorem flagged_step (hgood : Good s.runtime) (h : SoloStep w s s' op) :
    Flagged (s'.runtime.view r) ↔ Flagged (s.runtime.view r) ∨ Acked w r s op := by
  constructor
  · rintro ⟨v', hv', hflag⟩
    rcases h.run_cases r with hview | ⟨userId, now, -, -, hview⟩ | ⟨v, a, hv, hview, -, hcause⟩
    · exact Or.inl ⟨v', hview.symm.trans hv', hflag⟩
    · obtain rfl := Option.some.inj (hview.symm.trans hv')
      cases hflag
    · obtain rfl := Option.some.inj (hview.symm.trans hv')
      rcases hcause with ⟨now, rfl, rfl, hg⟩ | ⟨-, hkeep⟩
      · exact Or.inr ((acked_iff hgood).2 ⟨v, hv, hg⟩)
      · exact Or.inl ⟨v, hv, hkeep.symm.trans hflag⟩
  · rintro (⟨v, hv, hflag⟩ | hacked)
    · rcases h.run_cases r with hview | ⟨userId, now, hnone, -⟩ | ⟨v', a, hv', hview, -, hcause⟩
      · exact ⟨v, hview.trans hv, hflag⟩
      · rw [hnone] at hv
        cases hv
      · obtain rfl := Option.some.inj (hv.symm.trans hv')
        refine ⟨_, hview, ?_⟩
        rcases hcause with ⟨now, -, rfl, -⟩ | ⟨-, hkeep⟩
        · rfl
        · exact hkeep.trans hflag
    · obtain ⟨now, rfl, -⟩ := id hacked
      obtain ⟨v, hv, hg⟩ := (acked_iff hgood).1 hacked
      cases h with
      | still _ hidle => exact absurd hg (hidle v hv)
      | intended _ v' _ hv' _ hview => exact ⟨_, by rw [hview, Function.update_self], rfl⟩

/-- what another call returned or raised is no claimed run -/
theorem answer_ne_claimed {α : Type} {reply : α → Reply} {call : StoreM α} {rt : InMemoryRuntime}
    {claimed : Option ClaimedRun} (h : ∀ x, reply x ≠ .claimed claimed) :
    (answer reply call rt).1 ≠ .claimed claimed := by
  unfold answer
  split
  · exact h _
  · nofun

/-- only the consumer's `claim_run` answers with a claimed run -/
theorem claimed_of_answers (h : Answers w r s op) : ∃ now, op = .advance now ∧ (s.consumers w).phase = .claiming ∧
    ∃ c, stores.reply s.runtime (.claimRun w now) = .claimed (some c) ∧ c.id = r := by
  obtain ⟨c, hreply, hid⟩ := h
  cases op with
  | advance now =>
    obtain ⟨-, hphase, hclaim⟩ := claims_of_reply (SoloReply.reply.inj hreply)
    exact ⟨now, rfl, hphase, c, hclaim, hid⟩
  | createRun j userId now =>
    have hexec : ((StoreOp.orchestratorCreateRun j userId now).exec s.runtime).1 = .claimed (some c) :=
      SoloReply.reply.inj hreply
    simp only [StoreOp.exec] at hexec
    split_ifs at hexec
    exact absurd hexec (answer_ne_claimed fun _ h => by cases h)
  | getRun j => exact absurd (SoloReply.reply.inj hreply) (answer_ne_claimed fun _ h => by cases h)
  | cancelRun j now => exact absurd (SoloReply.reply.inj hreply) (answer_ne_claimed fun _ h => by cases h)
  | getEvents j afterSequence =>
    change (s.getEvents j afterSequence).1 = _ at hreply
    unfold Sys.getEvents at hreply
    split at hreply <;> cases hreply
  | heartbeat now =>
    have hexec : (s.heartbeat w now).1 = .claimed (some c) := SoloReply.reply.inj hreply
    unfold Sys.heartbeat at hexec
    split at hexec
    · cases hexec
    · exact absurd hexec (answer_ne_claimed fun _ h => by cases h)
  | emitEvent eventType payload now =>
    have hexec : (s.exec (.emitEvent w eventType payload now)).1 = .claimed (some c) := SoloReply.reply.inj hreply
    simp only [Sys.exec] at hexec
    split at hexec
    · cases hexec
    · exact absurd hexec (answer_ne_claimed fun _ h => by cases h)
  | finish outcome now => cases SoloReply.reply.inj hreply

/-- a run that is returned was queued, and leaves the queue -/
theorem answered (h : SoloStep w s s' op) (hans : Answers w r s op) :
    ¬ Taken (s.runtime.view r) ∧ Taken (s'.runtime.view r) := by
  obtain ⟨now, rfl, hphase, c, hreply, rfl⟩ := claimed_of_answers hans
  cases h with
  | still _ hidle =>
    obtain ⟨j, hbad⟩ := hidle
    rw [hphase] at hbad
    cases hbad
  | entered _ hbad => rw [hphase] at hbad; cases hbad
  | woke _ hbad => rw [hphase] at hbad; cases hbad
  | started j _ hbad => rw [hphase] at hbad; cases hbad
  | claim _ claimed _ hreply' hclaimed =>
    obtain rfl := Reply.claimed.inj (hreply.symm.trans hreply')
    obtain ⟨v, hv, hg, hview⟩ := hclaimed c rfl
    refine ⟨?_, ⟨_, hview, by nofun⟩⟩
    rintro ⟨v', hv', hstatus⟩
    obtain rfl := Option.some.inj (hv.symm.trans hv')
    exact hstatus hg.1

end Histories

/-! ## The system -/

theorem taken_of_occurs {w : String} {ops : List SoloOp} {r : UUID}
    (h : (soloSys w).Occurs (Answers w r) Sys.init ops) : Taken (((soloSys w).run Sys.init ops).runtime.view r) := by
  induction ops using List.reverseRecOn with
  | nil => exact absurd h (Machine.not_occurs_nil _)
  | append_singleton pre op ih =>
    have hstep := solo_step (sole_run w pre) (solo_good w pre) op
    rw [Machine.run_snoc]
    rcases (Machine.occurs_snoc _ _ _).1 h with h | h
    · exact taken_step hstep (ih h)
    · exact (answered hstep h).2

theorem flagged_iff (w : String) (ops : List SoloOp) (r : UUID) :
    Flagged (((soloSys w).run Sys.init ops).runtime.view r) ↔ (soloSys w).Occurs (Acked w r) Sys.init ops := by
  induction ops using List.reverseRecOn with
  | nil =>
    refine iff_of_false ?_ (Machine.not_occurs_nil _)
    rintro ⟨v, hv, -⟩
    cases hv
  | append_singleton pre op ih =>
    have hstep := solo_step (sole_run w pre) (solo_good w pre) op
    rw [Machine.run_snoc, Machine.occurs_snoc, flagged_step (solo_good w pre) hstep, ih]

/-- what holds after the steps `ops`, and of the step that comes next -/
structure ExactlyOnce (w : String) (ops : List SoloOp) : Prop where
  /-- a run that `claim_run` returned is never returned again -/
  once : ∀ r op, (soloSys w).Occurs (Answers w r) Sys.init ops →
    ¬ Answers w r ((soloSys w).run Sys.init ops) op
  neverRetried : ∀ r st, ((soloSys w).run Sys.init ops).runtime.record? r = some st → st.retryCount = some 0
  /-- at the top of the loop nothing is running -/
  idle : (((soloSys w).run Sys.init ops).consumers w).phase = .looping →
    ∀ r st, ((soloSys w).run Sys.init ops).runtime.record? r = some st → st.status ≠ .running
  /-- when `execute_run` ends, the run is FAILED with the exception's text if the executor raised, else CANCELLED if a
  cancellation was acknowledged, else SUCCEEDED; and the loop goes on -/
  ended : ∀ r outcome now, ((soloSys w).run Sys.init ops).executingRun w = some r → ∃ st,
    ((soloSys w).run Sys.init (ops ++ [.finish outcome now])).runtime.record? r = some st ∧
    (((soloSys w).run Sys.init (ops ++ [.finish outcome now])).consumers w).phase = .looping ∧
    (∀ message, outcome = .raised message → st.status = .failed ∧ st.error = some message) ∧
    (outcome = .returned → (soloSys w).Occurs (Acked w r) Sys.init ops → st.status = .cancelled) ∧
    (outcome = .returned → ¬ (soloSys w).Occurs (Acked w r) Sys.init ops → st.status = .succeeded)

/-- **Exactly-once execution with a single consumer**, in every run of the system. -/
theorem exactly_once (w : String) (ops : List SoloOp) : ExactlyOnce w ops := by
  have hgood := solo_good w ops
  have hI := sole_run w ops
  refine ⟨?_, ?_, ?_, ?_⟩
  · intro r op hocc hans
    exact (answered (solo_step hI hgood op) hans).1 (taken_of_occurs hocc)
  · intro r st hst
    obtain ⟨v, hv, rfl⟩ := exists_view hst
    exact (hI.fitsRecord hv).fresh
  · intro hphase r st hst
    obtain ⟨v, hv, rfl⟩ := exists_view hst
    refine hI.idle ?_ r v hv
    simp only [Consumer.inHand, hphase, Phase.scope]
  · intro r outcome now hexec
    have hphase := executing_of_executingRun hexec
    obtain ⟨v, hv, hrun, hview, hconsumer⟩ := step_finish_executing hI hgood hphase outcome now
    rw [Machine.run_snoc]
    set s := (soloSys w).run Sys.init ops
    set isCancelled : Bool := decide ((s.consumers w).runExecutionCtx = some true)
    have hview' := congrFun hview r
    rw [Function.update_self] at hview'
    have hhand : (s.consumers w).inHand = some r := inHand_of_scope (by rw [hphase]; rfl)
    -- the context was told to stop only for an intent, so the intent decides
    have hflag : v.record.cancelRequested = true ↔ (soloSys w).Occurs (Acked w r) Sys.init ops := by
      rw [← flagged_iff]
      constructor
      · exact fun h => ⟨v, hv, h⟩
      · rintro ⟨v', hv', h⟩
        obtain rfl := Option.some.inj (hv.symm.trans hv')
        exact h
    have hintent : (isCancelled || intendedIn s.runtime.view r) = v.record.cancelRequested := by
      have hin : intendedIn s.runtime.view r = v.record.cancelRequested := by simp [intendedIn, hv]
      rw [hin]
      cases hctx : isCancelled with
      | false => rfl
      | true =>
        have htold := (hI.fitsRecord hv).told hhand (of_decide_eq_true hctx)
        rw [htold]
        rfl
    refine ⟨_, record?_of_view hview', by rw [hconsumer]; rfl, ?_, ?_, ?_⟩
    · rintro message rfl
      exact ⟨rfl, rfl⟩
    · rintro rfl hocc
      rw [← hflag] at hocc
      simp only [finishAct, hintent, hocc, if_true]
      rfl
    · rintro rfl hocc
      rw [← hflag, Bool.not_eq_true] at hocc
      simp only [finishAct, hintent, hocc, Bool.false_eq_true, if_false]
      rfl

/-- run 1 is created, claimed and executed; its lease runs out and is renewed late, and it is cancelled meanwhile -/
def executedOnce : List SoloOp :=
  [.createRun 1 "user_1" 10, .advance (seconds 1), .advance (seconds 1), .advance (seconds 1), .advance (seconds 1),
   .cancelRun 1 (seconds 2), .heartbeat (seconds 40)]

/-- run 1 was claimed, it ends CANCELLED when its executor returns, and no later step claims it again -/
theorem exactly_once_executed : (soloSys "w1").Occurs (Answers "w1" 1) Sys.init executedOnce ∧
    (∃ st, ((soloSys "w1").run Sys.init (executedOnce ++ [.finish .returned (seconds 41)])).runtime.record? 1 =
      some st ∧ st.status = .cancelled) ∧
    ∀ op, ¬ Answers "w1" 1 ((soloSys "w1").run Sys.init executedOnce) op := by
  have hclaimed : (soloSys "w1").Occurs (Answers "w1" 1) Sys.init executedOnce :=
    ⟨executedOnce.take 3, .advance (seconds 1), executedOnce.drop 4, rfl, _, rfl, rfl⟩
  have hacked : (soloSys "w1").Occurs (Acked "w1" 1) Sys.init executedOnce :=
    ⟨executedOnce.take 5, .cancelRun 1 (seconds 2), executedOnce.drop 6, rfl, seconds 2, rfl, rfl⟩
  have honce := exactly_once "w1" executedOnce
  obtain ⟨st, hst, -, -, hcancelled, -⟩ := honce.ended 1 .returned (seconds 41) rfl
  exact ⟨hclaimed, ⟨st, hst, hcancelled rfl hacked⟩, fun op => honce.once 1 op hclaimed⟩

end LlmAgent
