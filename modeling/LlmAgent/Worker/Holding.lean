/-
Which run a consumer has in hand, which step takes which decision, and what keeps the two together.

- `Consumer.inHand`: the run the consumer claimed and may still write to;
- `inHand_step`: it gets one in hand only by claiming it;
- `Origin`, `origin_of_mem`: the step behind each decision;
- `RunsFor`, `runsFor_step`: a running run stays with its worker unless a claim takes it.
-/
import LlmAgent.Worker.System

namespace LlmAgent

open Core

/-! ## Runs in hand -/

/-- the run the consumer claimed and goes on to execute, or has in its lease scope -/
def Consumer.inHand (c : Consumer) : Option UUID :=
  match c.phase with
  | .claimed claimedRun => if c.executionAllowed then some claimedRun.id else none
  | phase => phase.scope

/-- the step is a `claim_run` of worker `w` that answers the run `c` -/
def Claims (s : Sys) (op : SysOp) (w : String) (now : UnixTs) (c : ClaimedRun) : Prop :=
  op = .advance w now ∧ (s.consumers w).phase = .claiming ∧
    stores.reply s.runtime (.claimRun w now) = .claimed (some c)

/-- only `claim_run` answers with a claimed run -/
theorem claims_of_reply {s : Sys} {w : String} {now : UnixTs} {c : ClaimedRun}
    (h : sys.reply s (.advance w now) = .claimed (some c)) : Claims s (.advance w now) w now c := by
  change (s.advance w now).1 = _ at h
  cases hphase : (s.consumers w).phase <;>
    simp only [Sys.advance, hphase, Phase.call, Sys.perform] at h
  case claiming => exact ⟨rfl, hphase, h⟩
  case checking => simp only [StoreOp.exec, answer] at h; split at h <;> cases h
  case cancelling => simp only [StoreOp.exec, answer] at h; split at h <;> cases h
  case succeeding => simp only [StoreOp.exec, answer] at h; split at h <;> cases h
  case failing => simp only [StoreOp.exec, answer] at h; split at h <;> cases h
  all_goals cases h

theorem inHand_of_scope {c : Consumer} {r : UUID} (h : c.phase.scope = some r) : c.inHand = some r := by
  unfold Consumer.inHand
  cases hphase : c.phase with
  | claimed => rw [hphase] at h; cases h
  | _ => rw [hphase] at h; exact h

theorem scope_of_writes {p : Phase} {r : UUID} (h : p.writes = some r) : p.scope = some r := by
  cases p with
  | cancelling => exact h
  | succeeding => exact h
  | failing => exact h
  | _ => cases h

/-- a consumer that claims has nothing in hand -/
theorem inHand_claiming {c : Consumer} (h : c.phase = .claiming) : c.inHand = none := by
  simp only [Consumer.inHand, h, Phase.scope]

/-- a step of its loop keeps the run in hand, lets go of it, or claims one -/
theorem Turn.inHand {rt : InMemoryRuntime} {w : String} {now : UnixTs} {c c' : Consumer} (h : Turn rt w now c c')
    {r : UUID} (hr : c'.inHand = some r) : c.inHand = some r ∨ (c.phase = .claiming ∧
      ∃ claimedRun, stores.reply rt (.claimRun w now) = .claimed (some claimedRun) ∧ claimedRun.id = r) := by
  cases h with
  | claim claimedRun hphase hreply =>
    simp only [Consumer.inHand, Option.ite_none_right_eq_some] at hr
    exact Or.inr ⟨hphase, claimedRun, hreply, Option.some.inj hr.2⟩
  | execute claimedRun hphase hallowed =>
    refine Or.inl ?_
    simp only [Consumer.inHand, hphase, hallowed, if_true]
    exact hr
  | idle => exact Or.inl hr
  | observe j hphase => exact Or.inl (inHand_of_scope (by rw [hphase]; exact hr))
  | check j hphase => exact Or.inl (inHand_of_scope (by rw [hphase]; exact hr))
  | intent j _ hphase => exact Or.inl (inHand_of_scope (by rw [hphase]; exact hr))
  | noIntent j _ hphase => exact Or.inl (inHand_of_scope (by rw [hphase]; exact hr))
  | refused j _ _ hscope => exact Or.inl (inHand_of_scope (hscope.trans hr))
  | wait => cases hr
  | stop => cases hr
  | wake => cases hr
  | claimNone => cases hr
  | written => cases hr
  | crash => cases hr

theorem inHand_shutdown {c : Consumer} {r : UUID} (h : c.shutdownExecution.inHand = some r) : c.inHand = some r := by
  simp only [Consumer.inHand, Consumer.shutdownExecution, Consumer.cancelCtx] at h ⊢
  cases hphase : c.phase with
  | claimed => rw [hphase] at h; cases h
  | _ => rw [hphase] at h; exact h

@[simp] theorem phase_heartbeatReact (c : Consumer) (now : UnixTs) (reply : Reply) :
    (c.heartbeatReact now reply).phase = c.phase := by
  unfold Consumer.heartbeatReact
  split
  · split <;> rfl
  · rfl
  · rfl

@[simp] theorem executionAllowed_heartbeatReact (c : Consumer) (now : UnixTs) (reply : Reply) :
    (c.heartbeatReact now reply).executionAllowed = c.executionAllowed := by
  unfold Consumer.heartbeatReact
  split
  · split <;> rfl
  · rfl
  · rfl

theorem inHand_heartbeatReact (c : Consumer) (now : UnixTs) (reply : Reply) :
    (c.heartbeatReact now reply).inHand = c.inHand := by
  rw [Consumer.inHand, phase_heartbeatReact, executionAllowed_heartbeatReact]
  rfl

/-- the end of the executor does not change the run in hand -/
theorem inHand_executorEnds (c : Consumer) (outcome : Outcome) : (c.executorEnds outcome).inHand = c.inHand := by
  unfold Consumer.executorEnds
  split
  · rename_i hphase
    simp only [Consumer.inHand, hphase, Phase.scope]
  · rename_i hphase
    simp only [Consumer.inHand, hphase, Phase.scope]
  · rfl

theorem executionAllowed_executorEnds (c : Consumer) (outcome : Outcome) :
    (c.executorEnds outcome).executionAllowed = c.executionAllowed := by
  unfold Consumer.executorEnds
  split <;> rfl

/-- the end of an executor leads on inside `execute_run` -/
theorem phase_executorEnds (c : Consumer) (outcome : Outcome) : (c.executorEnds outcome).phase = c.phase ∨
    (∃ r, (c.executorEnds outcome).phase = .returned r) ∨
    ∃ r message, (c.executorEnds outcome).phase = .failing r message := by
  unfold Consumer.executorEnds
  split
  · exact Or.inr (Or.inl ⟨_, rfl⟩)
  · exact Or.inr (Or.inr ⟨_, _, rfl⟩)
  · exact Or.inl rfl

theorem scope_executorEnds (c : Consumer) (outcome : Outcome) :
    (c.executorEnds outcome).phase.scope = c.phase.scope := by
  unfold Consumer.executorEnds
  split
  · rename_i hphase
    rw [hphase]
    rfl
  · rename_i hphase
    rw [hphase]
    rfl
  · rfl

theorem ctx_executorEnds (c : Consumer) (outcome : Outcome) :
    (c.executorEnds outcome).runExecutionCtx = c.runExecutionCtx := by
  unfold Consumer.executorEnds
  split <;> rfl

/-- a heartbeat sets the cancellation event only when it answers the intent -/
theorem told_heartbeatReact {c : Consumer} {now : UnixTs} {reply : Reply}
    (h : (c.heartbeatReact now reply).runExecutionCtx = some true) :
    c.runExecutionCtx = some true ∨ ∃ st, reply = .status st ∧ st.cancelRequested = true := by
  unfold Consumer.heartbeatReact at h
  split at h
  · rename_i st
    split at h
    · rename_i hflag
      exact Or.inr ⟨st, rfl, hflag⟩
    · exact Or.inl h
  · exact Or.inl h
  · exact Or.inl h

theorem scope_of_heartbeatRun {s : Sys} {w : String} {r : UUID} (h : s.heartbeatRun w = some r) :
    (s.consumers w).phase.scope = some r := (Option.ite_none_right_eq_some.1 h).2

theorem executing_of_executingRun {s : Sys} {w : String} {r : UUID} (h : s.executingRun w = some r) :
    (s.consumers w).phase = .executing r := by
  unfold Sys.executingRun at h
  split at h
  · rename_i hphase
    rw [hphase, Option.some.inj h]
  · cases h

/-- **A consumer gets a run in hand only by claiming it.** -/
theorem inHand_step {s : Sys} {op : SysOp} {w : String} {r : UUID}
    (h : ((sys.step s op).consumers w).inHand = some r) :
    (s.consumers w).inHand = some r ∨ ∃ now c, Claims s op w now c ∧ c.id = r := by
  rcases consumer_cases s op w with hc | ⟨now, rfl, hc⟩ | ⟨now, rfl, hc⟩ | ⟨now, j, rfl, -, hc⟩ |
    ⟨outcome, now, rfl, hc⟩ <;> rw [hc] at h
  · exact Or.inl h
  · exact Or.inl (inHand_shutdown h)
  · rcases (turn_advanced s w now).inHand h with h | ⟨hphase, c, hreply, hid⟩
    · exact Or.inl h
    · exact Or.inr ⟨now, c, ⟨rfl, hphase, hreply⟩, hid⟩
  · rw [inHand_heartbeatReact] at h
    exact Or.inl h
  · rw [inHand_executorEnds] at h
    exact Or.inl h

/-! ## The step behind a decision -/

/-- the steps that can take a decision about run `r` -/
def Origin (s : Sys) (op : SysOp) (r : UUID) : Act → Prop
  | .create userId now => op = .api (.createRun r userId now) ∨ op = .api (.orchestratorCreateRun r userId now)
  | .enqueue now => op = .api (.markEnqueued r now) ∨ ∃ userId, op = .api (.orchestratorCreateRun r userId now)
  | .requestCancel now => op = .api (.requestCancellation r now) ∨ op = .api (.orchestratorCancelRun r now)
  | .markCancel now => op = .api (.markCancelled r now)
  | .expire w now => op = .advance w now ∧ (s.consumers w).phase = .claiming
  | .drop now => ∃ w, op = .advance w now ∧ (s.consumers w).phase = .claiming
  | .claim w now => ∃ c, Claims s op w now c ∧ c.id = r
  | .renew w now => op = .heartbeat w now ∧ s.heartbeatRun w = some r
  | .loseClaim w now => op = .heartbeat w now ∧ s.heartbeatRun w = some r
  | .succeed result now => ∃ w, op = .advance w now ∧ (s.consumers w).phase = .succeeding r ∧ result = okResult
  | .fail error now => ∃ w, op = .advance w now ∧ (s.consumers w).phase = .failing r error
  | .cancel now => ∃ w, op = .advance w now ∧ (s.consumers w).phase = .cancelling r
  | .emit eventType payload now => ∃ w, op = .emitEvent w eventType payload now ∧ s.executingRun w = some r

theorem mem_decisions {s : Sys} {op : SysOp} {p : UUID × Act} :
    p ∈ op.decisions s ↔ ∃ call, op.call s = some call ∧ p ∈ call.decisions s.runtime := by
  unfold SysOp.decisions
  cases op.call s <;> simp

/-- a claim of `r` is decided only by a `claim_run` that answers `r` -/
theorem claimed_of_mem {rt : InMemoryRuntime} (hgood : Good rt) {workerId w : String} {now t : UnixTs} {r : UUID}
    (h : (r, .claim w t) ∈ (StoreOp.claimRun workerId now).decisions rt) :
    ∃ c, stores.reply rt (.claimRun workerId now) = .claimed (some c) ∧ c.id = r := by
  by_contra hno
  exact not_claimed_of_reply hgood (fun c hc hid => hno ⟨c, hc, hid⟩) h

/-- the requests of the API: which decisions each of them takes -/
theorem origin_of_api {s : Sys} {op : ApiOp} {r : UUID} {a : Act} (hcauses : op.call.Causes (r, a)) :
    Origin s (.api op) r a := by
  cases op with
  | createRun => cases hcauses; exact Or.inl rfl
  | orchestratorCreateRun j userId now =>
    rcases hcauses with h | h <;> cases h
    · exact Or.inr rfl
    · exact Or.inr ⟨userId, rfl⟩
  | markEnqueued => cases hcauses; exact Or.inl rfl
  | markCancelled => cases hcauses; rfl
  | requestCancellation => cases hcauses; exact Or.inl rfl
  | orchestratorCancelRun => cases hcauses; exact Or.inr rfl

/-- a turn of a consumer's loop: the phase it stands in decides which call it makes -/
theorem origin_of_advance {s : Sys} (hgood : Good s.runtime) {w : String} {now : UnixTs} {call : StoreOp} {r : UUID}
    {a : Act} (hcall : (s.consumers w).phase.call w now = some call) (hmem : (r, a) ∈ call.decisions s.runtime) :
    Origin s (.advance w now) r a := by
  have hcauses := causes_of_mem hmem
  cases hphase : (s.consumers w).phase with
  | claiming =>
    rw [hphase] at hcall
    obtain rfl := Option.some.inj hcall
    rcases hcauses with rfl | rfl | rfl
    · exact ⟨rfl, hphase⟩
    · exact ⟨w, rfl, hphase⟩
    · obtain ⟨c, hreply, hid⟩ := claimed_of_mem hgood hmem
      exact ⟨c, ⟨rfl, hphase, hreply⟩, hid⟩
  | checking =>
    rw [hphase] at hcall
    obtain rfl := Option.some.inj hcall
    exact hcauses.elim
  | cancelling =>
    rw [hphase] at hcall
    obtain rfl := Option.some.inj hcall
    cases hcauses
    exact ⟨w, rfl, hphase⟩
  | succeeding =>
    rw [hphase] at hcall
    obtain rfl := Option.some.inj hcall
    cases hcauses
    exact ⟨w, rfl, hphase, rfl⟩
  | failing =>
    rw [hphase] at hcall
    obtain rfl := Option.some.inj hcall
    cases hcauses
    exact ⟨w, rfl, hphase⟩
  | _ => rw [hphase] at hcall; cases hcall

/-- **The step behind a decision.** -/
theorem origin_of_mem {s : Sys} (hgood : Good s.runtime) {op : SysOp} {r : UUID} {a : Act}
    (h : (r, a) ∈ op.decisions s) : Origin s op r a := by
  obtain ⟨call, hcall, hmem⟩ := mem_decisions.1 h
  have hcauses := causes_of_mem hmem
  cases op with
  | shutdownExecution => cases hcall
  | executorEnds => cases hcall
  | api op =>
    obtain rfl : op.call = call := Option.some.inj hcall
    exact origin_of_api hcauses
  | heartbeat w now =>
    obtain ⟨j, hrun, rfl⟩ := Option.map_eq_some_iff.1 hcall
    rcases hcauses with h | h <;> cases h <;> exact ⟨rfl, hrun⟩
  | emitEvent w eventType payload now =>
    obtain ⟨j, hrun, rfl⟩ := Option.map_eq_some_iff.1 hcall
    cases hcauses
    exact ⟨w, rfl, hrun⟩
  | advance w now => exact origin_of_advance hgood hcall hmem

/-! ## The worker a run runs for -/

/-- if the run is running, then for worker `w` -/
def RunsFor (w : String) (o : Option RunView) : Prop :=
  ∀ v, o = some v → v.record.status = .running → v.record.claimedWorker = some w

/-- only a claim makes a run RUNNING or gives a running run another worker -/
theorem running_of_record {st : RunStatus} {a : Act} (hg : a.Guard st) (hno : ∀ w now, a ≠ .claim w now)
    (h : (a.record st).status = .running) :
    st.status = .running ∧ (a.record st).claimedWorker = st.claimedWorker := by
  cases a with
  | create => exact hg.elim
  | claim w now => exact absurd rfl (hno w now)
  | renew => exact ⟨hg.1, hg.2.symm⟩
  | requestCancel => exact ⟨h, rfl⟩
  | loseClaim => exact ⟨h, rfl⟩
  | emit => exact ⟨h, rfl⟩
  | _ => cases h

/-- a run stays with its worker unless a claim takes it -/
theorem runsFor_step {s : Sys} (hgood : Good s.runtime) {op : SysOp} {w : String} {r : UUID}
    (hno : ∀ w' now c, Claims s op w' now c → c.id ≠ r) (h : RunsFor w (s.runtime.view r)) :
    RunsFor w ((sys.step s op).runtime.view r) := by
  refine (sys_performs hgood op).keeps (C := fun a => ∀ w' now, a ≠ .claim w' now) ?_ ?_ h
  · intro o a hclaim
    refine lifecycle_step (I := fun v => v.record.status = .running → v.record.claimedWorker = some w) ?_ ?_
    · intro userId now _ hrun
      cases hrun
    · intro v hI hg hrun
      obtain ⟨hrun', howner⟩ := running_of_record hg hclaim hrun
      exact howner.trans (hI hrun')
  · intro a hmem w' now ha
    subst ha
    obtain ⟨c, hc, hid⟩ := origin_of_mem hgood hmem
    exact hno w' now c hc hid

/-- what a claim leaves: the run runs for the claimer, on a lease of thirty seconds -/
theorem view_of_claims {s : Sys} (hgood : Good s.runtime) {op : SysOp} {w : String} {now : UnixTs} {c : ClaimedRun}
    (h : Claims s op w now c) : ∃ v, (sys.step s op).runtime.view c.id = some v ∧ v.record.status = .running ∧
      v.record.claimedWorker = some w ∧ v.record.claimExpirationUnixTs = some (now + seconds 30) := by
  obtain ⟨rfl, hphase, hreply⟩ := h
  obtain ⟨-, v, -, -, -, -, -, hview, -⟩ := claimRun_some hgood (claimed_reply hreply)
  refine ⟨v.effect (.claim w now), ?_, rfl, rfl, rfl⟩
  rcases advance_runtime s w now with ⟨op, hcall, hrt⟩ | ⟨hcall, -⟩ <;> rw [hphase] at hcall
  · obtain rfl := Option.some.inj hcall
    exact hrt ▸ hview
  · cases hcall

end LlmAgent
