/-
The stores refine the life cycle: every call of a store operation is a legal list of decisions about runs.

- `StoreOp.decisions`: the decisions a call takes, read off the runtime before it;
- `exec_performs`: the call performs them;
- `storesRefine`: hence `stores` refines `lifecycles`; `reachable_good`: every reachable runtime is in order;
- `StoreOp.Causes`, `causes_of_mem`: which decisions a kind of call may take at all;
- `Decides.flag_true_iff`, `heartbeat_reply`, `not_claimed_of_reply`: what the replies say about the decisions.
-/
import LlmAgent.Runs.ClaimSpec

namespace LlmAgent

open Core

/-! ## The decisions of a call -/

open Classical in
/-- decision `a` about run `r`, when its guard holds -/
noncomputable def taken (W : UUID → Option RunView) (r : UUID) (a : Act) : List (UUID × Act) :=
  if ∃ v, W r = some v ∧ a.Guard v.record then [(r, a)] else []

theorem taken_of_guard {W : UUID → Option RunView} {r : UUID} {a : Act} {v : RunView} (hv : W r = some v)
    (hg : a.Guard v.record) : taken W r a = [(r, a)] := if_pos ⟨v, hv, hg⟩

theorem taken_of_not {W : UUID → Option RunView} {r : UUID} {a : Act} (h : ∀ v, W r = some v → ¬ a.Guard v.record) :
    taken W r a = [] := if_neg fun ⟨v, hv, hg⟩ => h v hv hg

/-- a decision that is open is taken -/
theorem Performs.took {rt rt' : InMemoryRuntime} {r : UUID} {a : Act} {v : RunView}
    (h : Performs rt rt' (taken rt.view r a)) (hv : rt.view r = some v) (hg : a.Guard v.record) :
    rt'.view r = some (v.effect a) := by
  rw [taken_of_guard hv hg] at h
  exact h.effect hv

theorem mem_taken {W : UUID → Option RunView} {r : UUID} {a : Act} {p : UUID × Act} :
    p ∈ taken W r a ↔ p = (r, a) ∧ ∃ v, W r = some v ∧ a.Guard v.record := by
  unfold taken
  split_ifs with h <;> simp [h]

/-- the decisions of a call on runtime `rt` -/
noncomputable def StoreOp.decisions (rt : InMemoryRuntime) : StoreOp → List (UUID × Act)
  | .createRun runId userId now => if runId ∈ rt.internalRunStorage then [] else [(runId, .create userId now)]
  | .markEnqueued runId now => taken rt.view runId (.enqueue now)
  | .markCancelled runId now => taken rt.view runId (.markCancel now)
  | .requestCancellation runId now => taken rt.view runId (.requestCancel now)
  | .orchestratorCreateRun runId userId now =>
    if runId ∈ rt.internalRunStorage then [] else [(runId, .create userId now), (runId, .enqueue now)]
  | .orchestratorCancelRun runId now => taken rt.view runId (.requestCancel now)
  | .claimRun workerId now => claimPlan rt.view workerId now rt.internalRunStorage.keys
  | .heartbeat runId workerId now =>
    taken rt.view runId (.renew workerId now) ++ taken rt.view runId (.loseClaim workerId now)
  | .setSucceeded runId result now => taken rt.view runId (.succeed result now)
  | .setFailed runId error now => taken rt.view runId (.fail error now)
  | .setCancelled runId now => taken rt.view runId (.cancel now)
  | .getStatus _ _ => []
  | .emitEvent runId eventType payload now => taken rt.view runId (.emit eventType payload now)

theorem answer_ok {α : Type} {reply : α → Reply} {call : StoreM α} {rt rt' : InMemoryRuntime} {x : α}
    (h : call.run rt = .ok x rt') : answer reply call rt = (reply x, rt') := by
  rw [answer, h]

theorem answer_error {α : Type} {reply : α → Reply} {call : StoreM α} {rt rt' : InMemoryRuntime} {e : PyError}
    (h : call.run rt = .error e rt') : answer reply call rt = (.raised e, rt') := by
  rw [answer, h]

/-- a call that takes at most one decision performs what is taken of it -/
theorem Decides.performs {α : Type} {call : StoreM α} {rt : InMemoryRuntime} {r : UUID} {a : Act} {yes : α → Prop}
    (h : Decides call rt r a yes) (hgood : Good rt) (reply : α → Reply) :
    Performs rt (answer reply call rt).2 (taken rt.view r a) := by
  rcases h with ⟨v, x, rt', hv, hg, hrun, -, hp⟩ | ⟨hno, ⟨e, hrun⟩ | ⟨x, hrun, -⟩⟩
  · rw [answer_ok hrun, taken_of_guard hv hg]
    exact hp
  · rw [answer_error hrun, taken_of_not hno]
    exact Performs.refl hgood.toStructural
  · rw [answer_ok hrun, taken_of_not hno]
    exact Performs.refl hgood.toStructural

/-- setting the signal is no decision -/
theorem Performs.notified {rt rt' : InMemoryRuntime} {l : List (UUID × Act)} (h : Performs rt rt' l) :
    Performs rt { rt' with runSignal := true } l :=
  ⟨⟨h.structural.known, h.structural.stored, h.structural.unwritten⟩, h.legal, h.view, h.keys⟩

/-- `cancel_run` decides what `request_cancellation` decides -/
theorem orchestratorCancelRun_spec {rt : InMemoryRuntime} (hgood : Good rt) (r : UUID) (now : UnixTs) :
    Decides (orchestratorCancelRun r now) rt r (.requestCancel now) fun b => b = true := by
  rcases requestCancellation_spec hgood r now with ⟨v, x, rt', hv, hg, hrun, hx, hp⟩ | ⟨hno, hrest⟩
  · refine Or.inl ⟨v, x, _, hv, hg, ?_, hx, hp.notified⟩
    simp only [orchestratorCancelRun, EStateM.run_bind, hrun, hx, if_true, notify, EStateM.run_modify,
      EStateM.run_pure]
  · refine Or.inr ⟨hno, ?_⟩
    rcases hrest with ⟨e, hrun⟩ | ⟨x, hrun, hx⟩
    · refine Or.inl ⟨e, ?_⟩
      simp only [orchestratorCancelRun, EStateM.run_bind, hrun]
    · refine Or.inr ⟨x, ?_, hx⟩
      simp only [orchestratorCancelRun, EStateM.run_bind, hrun, hx, if_false, EStateM.run_pure]

/-- `create_run` on a fresh id: created, enqueued, notified -/
theorem orchestratorCreateRun_spec {rt : InMemoryRuntime} (hgood : Good rt) {r : UUID}
    (hfresh : r ∉ rt.internalRunStorage) (userId : String) (now : UnixTs) : ∃ rt',
    (orchestratorCreateRun r userId now).run rt = .ok (RunView.created r userId now).record rt' ∧
      rt'.runSignal = true ∧ Performs rt rt' [(r, .create userId now), (r, .enqueue now)] := by
  obtain ⟨rt₁, hrun₁, hp₁⟩ := createRun_spec hgood.toStructural hfresh userId now
  have hv₁ : rt₁.view r = some (RunView.created r userId now) := by
    rw [hp₁.view_apply, Automaton.proj_cons_self, view_eq_none_iff.2 hfresh]
    rfl
  rcases markEnqueued_spec (hp₁.good hgood) r now with ⟨-, x, rt₂, -, -, hrun₂, -, hp₂⟩ | ⟨hno, -⟩
  · refine ⟨{ rt₂ with runSignal := true }, ?_, rfl, (hp₁.trans hp₂).notified⟩
    have hid : (RunView.created r userId now).record.id = r := rfl
    simp only [orchestratorCreateRun, EStateM.run_bind, hrun₁, hid, hrun₂, notify, EStateM.run_modify,
      EStateM.run_pure]
  · exact absurd rfl (hno _ hv₁)

theorem heartbeat_performs {rt : InMemoryRuntime} (hgood : Good rt) (r : UUID) (workerId : String) (now : UnixTs) :
    Performs rt (answer .status (heartbeat r workerId now) rt).2
      (taken rt.view r (.renew workerId now) ++ taken rt.view r (.loseClaim workerId now)) := by
  rcases heartbeat_spec hgood r workerId now with ⟨hv, hrun⟩ | ⟨v, hv, ⟨hs, hrun⟩ | ⟨hs, ho, rt', hrun, hp⟩ |
    ⟨hs, ho, rt', hrun, hp⟩⟩
  · have hno : ∀ a : Act, ∀ v, rt.view r = some v → ¬ a.Guard v.record := by simp [hv]
    rw [answer_error hrun, taken_of_not (hno _), taken_of_not (hno _)]
    exact Performs.refl hgood.toStructural
  · have hno : ∀ a : Act, (∀ st, a.Guard st → st.status = .running) →
        ∀ v, rt.view r = some v → ¬ a.Guard v.record := by
      intro a ha v' hv' hg
      obtain rfl := Option.some.inj (hv.symm.trans hv')
      exact hs (ha _ hg)
    rw [answer_ok hrun, taken_of_not (hno (.renew workerId now) fun _ h => h.1),
      taken_of_not (hno (.loseClaim workerId now) fun _ h => h.1)]
    exact Performs.refl hgood.toStructural
  · have hno : ∀ v, rt.view r = some v → ¬ (Act.renew workerId now).Guard v.record := by
      intro v' hv' hg
      obtain rfl := Option.some.inj (hv.symm.trans hv')
      exact ho hg.2
    rw [answer_error hrun, taken_of_not hno, taken_of_guard (a := .loseClaim workerId now) hv ⟨hs, ho⟩]
    exact hp
  · have hno : ∀ v, rt.view r = some v → ¬ (Act.loseClaim workerId now).Guard v.record := by
      intro v' hv' hg
      obtain rfl := Option.some.inj (hv.symm.trans hv')
      exact hg.2 ho
    rw [answer_ok hrun, taken_of_guard (a := .renew workerId now) hv ⟨hs, ho⟩, taken_of_not hno]
    exact hp

/-! ## The refinement -/

/-- **Every call performs its decisions.** -/
theorem exec_performs {rt : InMemoryRuntime} (hgood : Good rt) (op : StoreOp) :
    Performs rt (stores.step rt op) (op.decisions rt) := by
  cases op with
  | createRun r userId now =>
    by_cases h : r ∈ rt.internalRunStorage
    · simp only [Machine.step, stores, StoreOp.exec, StoreOp.decisions, if_pos h]
      exact Performs.refl hgood.toStructural
    · obtain ⟨rt', hrun, hp⟩ := createRun_spec hgood.toStructural h userId now
      simp only [Machine.step, stores, StoreOp.exec, StoreOp.decisions, if_neg h]
      rw [answer_ok hrun]
      exact hp
  | orchestratorCreateRun r userId now =>
    by_cases h : r ∈ rt.internalRunStorage
    · simp only [Machine.step, stores, StoreOp.exec, StoreOp.decisions, if_pos h]
      exact Performs.refl hgood.toStructural
    · obtain ⟨rt', hrun, -, hp⟩ := orchestratorCreateRun_spec hgood h userId now
      simp only [Machine.step, stores, StoreOp.exec, StoreOp.decisions, if_neg h]
      rw [answer_ok hrun]
      exact hp
  | markEnqueued r now => exact (markEnqueued_spec hgood r now).performs hgood _
  | markCancelled r now => exact (markCancelled_spec hgood r now).performs hgood _
  | requestCancellation r now => exact (requestCancellation_spec hgood r now).performs hgood _
  | orchestratorCancelRun r now => exact (orchestratorCancelRun_spec hgood r now).performs hgood _
  | claimRun workerId now =>
    obtain ⟨claimed, rt', hrun, hp, -⟩ := claimRun_spec workerId now hgood
    change Performs rt (answer Reply.claimed (LlmAgent.claimRun workerId now) rt).2 _
    rw [answer_ok hrun]
    exact hp
  | heartbeat r workerId now => exact heartbeat_performs hgood r workerId now
  | setSucceeded r result now => exact (setSucceeded_spec hgood r now result).performs hgood _
  | setFailed r error now => exact (setFailed_spec hgood r now error).performs hgood _
  | setCancelled r now => exact (setCancelled_spec hgood r now).performs hgood _
  | getStatus r now =>
    change Performs rt (answer Reply.status (findRun r) rt).2 []
    cases h : rt.record? r with
    | none => rw [answer_error (findRun_unknown h)]; exact Performs.refl hgood.toStructural
    | some st => rw [answer_ok (findRun_run h)]; exact Performs.refl hgood.toStructural
  | emitEvent r eventType payload now => exact (appendEvent_spec hgood r now eventType payload).performs hgood _

theorem good_default : Good createDefaultInMemoryRuntime where
  known r hr := by simp [createDefaultInMemoryRuntime, Dict.mem_iff] at hr
  stored r hr := by simp [createDefaultInMemoryRuntime, InMemoryRunEventLog.empty, Dict.mem_iff] at hr
  unwritten _ _ := rfl
  sound r v hv := by cases hv
  traced r v hv := by cases hv

/-- **The stores refine the life cycles of their runs.** -/
noncomputable def storesRefine : Refines stores lifecycles where
  abs := InMemoryRuntime.view
  Good := Good
  Explains rt op l := l = op.decisions rt
  step _ op hgood :=
    have hp := exec_performs hgood op
    ⟨hp.good hgood, _, rfl, hp.legal, hp.view⟩

theorem reachable_good (ops : List StoreOp) : Good (stores.run createDefaultInMemoryRuntime ops) :=
  storesRefine.good_run good_default ops

/-! ## Which decisions a kind of call may take -/

/-- the decisions a call can take in any runtime -/
def StoreOp.Causes : StoreOp → UUID × Act → Prop
  | .createRun runId userId now, p => p = (runId, .create userId now)
  | .markEnqueued runId now, p => p = (runId, .enqueue now)
  | .markCancelled runId now, p => p = (runId, .markCancel now)
  | .requestCancellation runId now, p => p = (runId, .requestCancel now)
  | .orchestratorCreateRun runId userId now, p => p = (runId, .create userId now) ∨ p = (runId, .enqueue now)
  | .orchestratorCancelRun runId now, p => p = (runId, .requestCancel now)
  | .claimRun workerId now, p => p.2 = .expire workerId now ∨ p.2 = .drop now ∨ p.2 = .claim workerId now
  | .heartbeat runId workerId now, p => p = (runId, .renew workerId now) ∨ p = (runId, .loseClaim workerId now)
  | .setSucceeded runId result now, p => p = (runId, .succeed result now)
  | .setFailed runId error now, p => p = (runId, .fail error now)
  | .setCancelled runId now, p => p = (runId, .cancel now)
  | .getStatus _ _, _ => False
  | .emitEvent runId eventType payload now, p => p = (runId, .emit eventType payload now)

theorem causes_of_mem {rt : InMemoryRuntime} {op : StoreOp} {p : UUID × Act} (h : p ∈ op.decisions rt) :
    op.Causes p := by
  cases op with
  | createRun r userId now =>
    simp only [StoreOp.decisions] at h
    split_ifs at h
    · cases h
    · exact List.mem_singleton.1 h
  | orchestratorCreateRun r userId now =>
    simp only [StoreOp.decisions] at h
    split_ifs at h
    · cases h
    · simpa [StoreOp.Causes] using h
  | claimRun workerId now =>
    rcases List.mem_append.1 h with h | h
    · obtain ⟨r, -, -, rfl⟩ := mem_recoveries.1 h
      exact Or.inl rfl
    · rcases mem_claimTurn.1 h with ⟨-, h⟩ | ⟨-, h⟩
      · exact Or.inr (Or.inl h)
      · exact Or.inr (Or.inr h)
  | heartbeat r workerId now =>
    rcases List.mem_append.1 h with h | h
    · exact Or.inl (mem_taken.1 h).1
    · exact Or.inr (mem_taken.1 h).1
  | getStatus => cases h
  | markEnqueued => exact (mem_taken.1 h).1
  | markCancelled => exact (mem_taken.1 h).1
  | requestCancellation => exact (mem_taken.1 h).1
  | orchestratorCancelRun => exact (mem_taken.1 h).1
  | setSucceeded => exact (mem_taken.1 h).1
  | setFailed => exact (mem_taken.1 h).1
  | setCancelled => exact (mem_taken.1 h).1
  | emitEvent => exact (mem_taken.1 h).1

/-- `create_run` enqueues only a fresh run -/
theorem fresh_of_enqueue {rt : InMemoryRuntime} {r : UUID} {userId : String} {now t : UnixTs}
    (h : (r, .enqueue t) ∈ (StoreOp.orchestratorCreateRun r userId now).decisions rt) : rt.view r = none := by
  simp only [StoreOp.decisions] at h
  split_ifs at h with hmem
  · cases h
  · exact view_eq_none_iff.2 hmem

/-! ### What is known of a decision where it is taken -/

section Meets

variable {C : Act → RunStatus → Prop}

/-- what a decision meets on every record it meets wherever it is taken -/
theorem along_of_acts {l : List (UUID × Act)} (h : ∀ p ∈ l, ∀ st, C p.2 st) (W : UUID → Option RunView) :
    lifecycles.machine.Along (fun W p => ∀ v, W p.1 = some v → C p.2 v.record) W l :=
  (Machine.along_of_mem (C := fun p => ∀ st, C p.2 st) h W).imp fun _ _ hp v _ => hp v.record

theorem along_taken {W : UUID → Option RunView} {r : UUID} {a : Act}
    (h : ∀ v, W r = some v → a.Guard v.record → C a v.record) :
    lifecycles.machine.Along (fun W p => ∀ v, W p.1 = some v → C p.2 v.record) W (taken W r a) := by
  by_cases hex : ∃ v, W r = some v ∧ a.Guard v.record
  · obtain ⟨v, hv, hg⟩ := hex
    rw [taken_of_guard hv hg]
    refine ⟨fun v' hv' => ?_, trivial⟩
    obtain rfl := Option.some.inj (hv.symm.trans hv')
    exact h v hv hg
  · rw [taken, if_neg hex]
    trivial

/-- `create_run` enqueues the record it created -/
theorem along_created {rt : InMemoryRuntime} {r : UUID} {userId : String} {now : UnixTs}
    (h : C (.enqueue now) (RunView.created r userId now).record) :
    lifecycles.machine.Along (fun W p => ∀ v, W p.1 = some v → C p.2 v.record) rt.view
      ((StoreOp.orchestratorCreateRun r userId now).decisions rt) := by
  simp only [StoreOp.decisions]
  split_ifs with hr
  · trivial
  · have hnone : rt.view r = none := view_eq_none_iff.2 hr
    refine ⟨fun v hv => ?_, fun v hv => ?_, trivial⟩
    · rw [hnone] at hv
      cases hv
    · have happ : lifecycles.machine.step rt.view (r, .create userId now) r =
          (lifecycle r).apply (rt.view r) (.create userId now) := Automaton.family_apply_self _ _ _
      rw [happ, hnone] at hv
      obtain rfl : RunView.created r userId now = v := Option.some.inj hv
      exact h

end Meets

/-- an executor's call emits a type of its own -/
def StoreOp.Foreign : StoreOp → Prop
  | .emitEvent _ eventType _ _ => eventType ∉ ownEventTypes
  | _ => True

theorem foreign_of_mem {rt : InMemoryRuntime} {op : StoreOp} (hf : op.Foreign) {p : UUID × Act}
    (h : p ∈ op.decisions rt) : p.2.Foreign := by
  have hc := causes_of_mem h
  cases op with
  | claimRun => rcases hc with h | h | h <;> rw [h] <;> trivial
  | heartbeat => rcases hc with h | h <;> rw [h] <;> trivial
  | orchestratorCreateRun => rcases hc with h | h <;> rw [h] <;> trivial
  | getStatus => exact hc.elim
  | emitEvent => rw [show p = _ from hc]; exact hf
  | _ => rw [show p = _ from hc]; trivial

/-- a call decides at its own clock reading -/
theorem now_of_mem {rt : InMemoryRuntime} {op : StoreOp} {p : UUID × Act} (h : p ∈ op.decisions rt) :
    p.2.now = op.now := by
  have hc := causes_of_mem h
  cases op with
  | claimRun => rcases hc with h | h | h <;> rw [h] <;> rfl
  | heartbeat => rcases hc with h | h <;> rw [h] <;> rfl
  | orchestratorCreateRun => rcases hc with h | h <;> rw [h] <;> rfl
  | getStatus => exact hc.elim
  | _ => rw [show p = _ from hc]; rfl

/-! ## What the replies say -/

/-- a call that answers True took its decision, and the other way round -/
theorem Decides.flag_true_iff {call : StoreM Bool} {rt : InMemoryRuntime} {r : UUID} {a : Act}
    (h : Decides call rt r a fun b => b = true) :
    (answer .flag call rt).1 = .flag true ↔ ∃ v, rt.view r = some v ∧ a.Guard v.record := by
  rcases h with ⟨v, x, rt', hv, hg, hrun, hx, -⟩ | ⟨hno, hrest⟩
  · rw [answer_ok hrun, hx]
    exact ⟨fun _ => ⟨v, hv, hg⟩, fun _ => rfl⟩
  · refine ⟨fun hflag => ?_, fun ⟨v, hv, hg⟩ => absurd hg (hno v hv)⟩
    rcases hrest with ⟨e, hrun⟩ | ⟨x, hrun, hx⟩
    · rw [answer_error hrun] at hflag
      cases hflag
    · rw [answer_ok hrun] at hflag
      exact absurd (Reply.flag.inj hflag) hx

/-- and then it leaves the run as the decision makes it -/
theorem Decides.view_of_flag {call : StoreM Bool} {rt : InMemoryRuntime} {r : UUID} {a : Act}
    (h : Decides call rt r a fun b => b = true) (hgood : Good rt) (hreply : (answer .flag call rt).1 = .flag true) :
    ∃ v, rt.view r = some v ∧ a.Guard v.record ∧ (answer .flag call rt).2.view r = some (v.effect a) := by
  obtain ⟨v, hv, hg⟩ := h.flag_true_iff.1 hreply
  exact ⟨v, hv, hg, (h.performs hgood .flag).took hv hg⟩

/-- a write raises exactly when its decision cannot be taken -/
theorem Decides.raised_iff {call : StoreM Unit} {rt : InMemoryRuntime} {r : UUID} {a : Act}
    (h : Decides call rt r a fun _ => True) :
    (∃ e, (answer (fun _ => .returned) call rt).1 = .raised e) ↔ ∀ v, rt.view r = some v → ¬ a.Guard v.record := by
  rcases h with ⟨v, x, rt', hv, hg, hrun, -, -⟩ | ⟨hno, ⟨e, hrun⟩ | ⟨x, -, hx⟩⟩
  · rw [answer_ok hrun]
    exact ⟨fun ⟨e, he⟩ => Reply.noConfusion he, fun hno => absurd hg (hno v hv)⟩
  · rw [answer_error hrun]
    exact ⟨fun _ => hno, fun _ => ⟨e, rfl⟩⟩
  · exact absurd trivial hx

/-- **The four answers of a heartbeat.** -/
theorem heartbeat_reply {rt : InMemoryRuntime} (hgood : Good rt) (r : UUID) (workerId : String) (now : UnixTs) :
    (rt.view r = none ∧ stores.reply rt (.heartbeat r workerId now) = .raised (.keyError r)) ∨
    ∃ v, rt.view r = some v ∧
      ((v.record.status ≠ .running ∧ stores.reply rt (.heartbeat r workerId now) = .status v.record) ∨
      (v.record.status = .running ∧ v.record.claimedWorker ≠ some workerId ∧
        stores.reply rt (.heartbeat r workerId now) =
          .raised (.runLeaseLost ("Run " ++ UUID.str r ++ " is not claimed by " ++ workerId))) ∨
      (v.record.status = .running ∧ v.record.claimedWorker = some workerId ∧
        stores.reply rt (.heartbeat r workerId now) = .status ((Act.renew workerId now).record v.record))) := by
  have hans : stores.reply rt (.heartbeat r workerId now) = (answer .status (heartbeat r workerId now) rt).1 := rfl
  rw [hans]
  rcases heartbeat_spec hgood r workerId now with ⟨hv, hrun⟩ | ⟨v, hv, ⟨hs, hrun⟩ | ⟨hs, ho, rt', hrun, -⟩ |
    ⟨hs, ho, rt', hrun, -⟩⟩
  · rw [answer_error hrun]
    exact Or.inl ⟨hv, rfl⟩
  · rw [answer_ok hrun]
    exact Or.inr ⟨v, hv, Or.inl ⟨hs, rfl⟩⟩
  · rw [answer_error hrun]
    exact Or.inr ⟨v, hv, Or.inr (Or.inl ⟨hs, ho, rfl⟩)⟩
  · rw [answer_ok hrun]
    exact Or.inr ⟨v, hv, Or.inr (Or.inr ⟨hs, ho, rfl⟩)⟩

/-- a heartbeat that answers a record answers the stored intent -/
theorem heartbeat_reply_intent {rt : InMemoryRuntime} (hgood : Good rt) {r : UUID} {workerId : String} {now : UnixTs}
    {st : RunStatus} (h : stores.reply rt (.heartbeat r workerId now) = .status st) :
    ∃ v, rt.view r = some v ∧ v.record.cancelRequested = st.cancelRequested := by
  rcases heartbeat_reply hgood r workerId now with ⟨-, hreply⟩ |
    ⟨v, hv, ⟨-, hreply⟩ | ⟨-, -, hreply⟩ | ⟨-, -, hreply⟩⟩ <;> rw [hreply] at h
  · cases h
  · exact ⟨v, hv, by rw [Reply.status.inj h]⟩
  · cases h
  · exact ⟨v, hv, by rw [← Reply.status.inj h]; rfl⟩

theorem getStatus_reply {rt : InMemoryRuntime} {r : UUID} {now : UnixTs} {st : RunStatus}
    (h : stores.reply rt (.getStatus r now) = .status st) : rt.record? r = some st := by
  change (answer .status (getStatus r) rt).1 = .status st at h
  cases hrec : rt.record? r with
  | none =>
    have hread : (getStatus r).run rt = _ := findRun_unknown hrec
    rw [answer_error hread] at h
    cases h
  | some st' =>
    have hread : (getStatus r).run rt = _ := findRun_run hrec
    rw [answer_ok hread] at h
    rw [Reply.status.inj h]

/-- what a claim answered is what `claim_run` returned -/
theorem claimed_reply {rt : InMemoryRuntime} {workerId : String} {now : UnixTs} {claimed : Option ClaimedRun}
    (h : stores.reply rt (.claimRun workerId now) = .claimed claimed) :
    (claimRun workerId now).run rt = .ok claimed (stores.step rt (.claimRun workerId now)) := by
  have hans : (answer Reply.claimed (claimRun workerId now) rt).1 = .claimed claimed := h
  change _ = EStateM.Result.ok claimed (answer Reply.claimed (claimRun workerId now) rt).2
  cases hrun : (claimRun workerId now).run rt with
  | ok x rt' =>
    rw [answer_ok hrun] at hans ⊢
    rw [Reply.claimed.inj hans]
  | error e rt' =>
    rw [answer_error hrun] at hans
    cases hans

/-- a claim that answers another run, or none, claims nothing of this one -/
theorem not_claimed_of_reply {rt : InMemoryRuntime} (hgood : Good rt) {workerId w : String} {now t : UnixTs} {r : UUID}
    (h : ∀ c, stores.reply rt (.claimRun workerId now) = .claimed (some c) → c.id ≠ r) :
    (r, .claim w t) ∉ (StoreOp.claimRun workerId now).decisions rt := by
  obtain ⟨claimed, rt', hrun, -⟩ := claimRun_spec workerId now hgood
  refine claimRun_other hgood hrun fun c hc => h c ?_
  change (answer Reply.claimed (claimRun workerId now) rt).1 = _
  rw [answer_ok hrun, hc]

end LlmAgent
