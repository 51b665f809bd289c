/-
What a client of the service can tell from the answers it gets, whatever other clients and the workers do in between.

- `Act.Orderly`, `orderly_of_mem`: which decisions the service takes about a run that exists;
- `Presentable`, `presentable_run`: what the record of every run looks like between two steps;
- `Since`, `since_run`: how a record compares with what it was before;
- `found_iff_created`: a run is answered 404 until a create request is answered with its id, and 200 ever after;
- `later_answers`: what one `GET` shows binds every later one;
- `cancel_contract`: what a cancellation answers, and what its acknowledgement binds.
-/
import LlmAgent.Api.AgentRoutes
import LlmAgent.Runs.LifecycleSafety
import LlmAgent.Runs.StoreInvariant

namespace LlmAgent

open Core

/-! ## The decisions of the service about a run that exists -/

/-- the service enqueues no run again, cancels through the intent only, and has one result -/
def Act.Orderly : Act → Prop
  | .enqueue _ => False
  | .markCancel _ => False
  | .succeed result _ => result = okResult
  | _ => True

theorem finishAct_orderly (rt : InMemoryRuntime) (r : UUID) (outcome : Outcome) (isCancelled : Bool) (now : UnixTs) :
    (finishAct rt r outcome isCancelled now).Orderly := by
  unfold finishAct
  cases outcome with
  | raised message => trivial
  | returned =>
    split_ifs
    · trivial
    · rfl

theorem orderly_of_mem {s : Sys} (hgood : Good s.runtime) {op : AtomicOp} {r : UUID} {v : RunView}
    (hv : s.runtime.view r = some v) {a : Act} (h : (r, a) ∈ op.decisions s) : a.Orderly := by
  cases hfine : op.fine with
  | none =>
    obtain ⟨w, outcome, now, rfl⟩ := fine_eq_none hfine
    simp only [AtomicOp.decisions] at h
    cases hrun : s.executingRun w with
    | none =>
      rw [hrun] at h
      cases h
    | some j =>
      rw [hrun] at h
      obtain ⟨hp, -⟩ := mem_taken.1 h
      obtain ⟨rfl, rfl⟩ := Prod.mk.inj hp
      exact finishAct_orderly _ _ _ _ _
  | some fine =>
    rw [decisions_fine hfine] at h
    have horigin := origin_of_mem hgood h
    cases a with
    | enqueue now =>
      rcases horigin with rfl | ⟨userId, rfl⟩
      · cases op <;> cases hfine
      · obtain ⟨call, hcall, hmem⟩ := mem_decisions.1 h
        obtain rfl := Option.some.inj hcall
        rw [fresh_of_enqueue hmem] at hv
        cases hv
    | markCancel now =>
      obtain rfl : fine = .api (.markCancelled r now) := horigin
      cases op <;> cases hfine
    | succeed result now =>
      obtain ⟨w, -, -, hresult⟩ := horigin
      exact hresult
    | _ => trivial

/-- **Rule for a run that exists**: what the orderly decisions keep, every step keeps. -/
theorem atomic_keeps {s : Sys} (hgood : Good s.runtime) (op : AtomicOp) {r : UUID} {I : RunView → Prop}
    (hact : ∀ v a, a.Orderly → I v → a.Guard v.record → I (v.effect a))
    (hI : ∃ v, s.runtime.view r = some v ∧ I v) : ∃ v, (atomicSys.step s op).runtime.view r = some v ∧ I v := by
  have ⟨v, hv, _⟩ := hI
  refine (atomic_performs hgood op).keeps (I := fun o => ∃ v, o = some v ∧ I v) (C := Act.Orderly) ?_ ?_ hI
  · intro o a ha ho hen
    obtain ⟨v, rfl, hv⟩ := ho
    exact ⟨v.effect a, rfl, hact v a ha hv hen⟩
  · intro a hmem
    exact orderly_of_mem hgood hv hmem

/-- a finish creates no run -/
theorem finishAct_ne_create (rt : InMemoryRuntime) (r : UUID) (outcome : Outcome) (isCancelled : Bool) (t now : UnixTs)
    (userId : String) : finishAct rt r outcome isCancelled t ≠ .create userId now := by
  unfold finishAct
  cases outcome with
  | raised message => nofun
  | returned => split_ifs <;> nofun

theorem create_of_mem {s : Sys} (hgood : Good s.runtime) {op : AtomicOp} {r : UUID} {userId : String} {now : UnixTs}
    (h : (r, .create userId now) ∈ op.decisions s) : op = .createRun r userId now := by
  cases hfine : op.fine with
  | none =>
    obtain ⟨w, outcome, t, rfl⟩ := fine_eq_none hfine
    simp only [AtomicOp.decisions] at h
    cases hrun : s.executingRun w with
    | none =>
      rw [hrun] at h
      cases h
    | some j =>
      rw [hrun] at h
      obtain ⟨hp, -⟩ := mem_taken.1 h
      exact absurd (Prod.mk.inj hp).2.symm (finishAct_ne_create _ _ _ _ _ _ _)
  | some fine =>
    rw [decisions_fine hfine] at h
    rcases origin_of_mem hgood h with rfl | rfl
    · cases op <;> cases hfine
    · cases op <;> cases hfine
      rfl

/-- **A run comes into existence by `create_run` only**, which leaves it enqueued. -/
theorem atomic_new {s : Sys} (hgood : Good s.runtime) (op : AtomicOp) {r : UUID} (hv : s.runtime.view r = none) :
    ((atomicSys.step s op).runtime.view r = none ∧ ∀ userId now, op ≠ .createRun r userId now) ∨
    ∃ userId now, op = .createRun r userId now ∧
      (atomicSys.step s op).runtime.view r = some ((RunView.created r userId now).effect (.enqueue now)) := by
  have hp := atomic_performs hgood op
  by_cases hop : ∃ userId now, op = .createRun r userId now
  · obtain ⟨userId, now, rfl⟩ := hop
    refine Or.inr ⟨userId, now, rfl, ?_⟩
    have hdec : (AtomicOp.createRun r userId now).decisions s = [(r, .create userId now), (r, .enqueue now)] :=
      if_neg (view_eq_none_iff.1 hv)
    rw [hp.view_apply, hdec, Automaton.proj_cons_self, Automaton.proj_cons_self, hv]
    rfl
  · refine Or.inl ⟨?_, fun userId now h => hop ⟨userId, now, h⟩⟩
    have hproj : Automaton.proj r (op.decisions s) = [] := by
      by_contra hne
      obtain ⟨a, l, hl⟩ := List.exists_cons_of_ne_nil hne
      -- the first decision about a run that does not exist creates it
      have hlegal := Automaton.family_legal_proj hp.legal r
      rw [hl, hv] at hlegal
      rcases lifecycle_cases hlegal.1 with ⟨userId, now, -, rfl⟩ | ⟨v, hbad, -⟩
      · have hmem : (r, Act.create userId now) ∈ op.decisions s := by
          apply Automaton.mem_proj.1
          rw [hl]
          exact List.mem_cons_self
        exact hop ⟨userId, now, create_of_mem hgood hmem⟩
      · cases hbad
    rw [hp.view_apply, hproj, hv]
    rfl

/-! ## Records between two steps -/

/-- a record as a client may see it -/
structure Presentable (st : RunStatus) : Prop where
  inOrder : st.InOrder
  enqueued : st.status ≠ .created
  result : ∀ result, st.result = some result → result = okResult

/-- the first record a client can see -/
theorem enqueued_presentable (r : UUID) (userId : String) (now : UnixTs) :
    Presentable ((RunView.created r userId now).effect (.enqueue now)).record where
  inOrder := by
    have hguard : (Act.enqueue now).Guard (RunView.created r userId now).record := rfl
    exact record_inOrder hguard (created_inOrder r userId now)
  enqueued := nofun
  result := nofun

theorem record_presentable {st : RunStatus} {a : Act} (ha : a.Orderly) (hg : a.Guard st) (h : Presentable st) :
    Presentable (a.record st) := by
  refine ⟨record_inOrder hg h.inOrder, ?_, ?_⟩
  · have hne := h.enqueued
    cases a with
    | create => exact hg.elim
    | requestCancel => exact hne
    | loseClaim => exact hne
    | emit => exact hne
    | _ => nofun
  · intro result hresult
    cases a with
    | enqueue => exact ha.elim
    | markCancel => exact ha.elim
    | succeed res now =>
      obtain rfl := Option.some.inj hresult
      exact ha
    | _ => exact h.result result hresult

/-- what a record that once was `st` still tells of it -/
structure Since (st st' : RunStatus) : Prop where
  id : st'.id = st.id
  flag : st.cancelRequested = true → st'.cancelRequested = true
  final : st.status ∈ terminalRunStatuses → st' = st

theorem Since.refl (st : RunStatus) : Since st st := ⟨rfl, fun h => h, fun _ => rfl⟩

theorem record_since {st st' : RunStatus} {a : Act} (ha : a.Orderly) (hg : a.Guard st') (h : Since st st') :
    Since st (a.record st') := by
  refine ⟨(record_id st' a).trans h.id, ?_, ?_⟩
  · intro hflag
    have hflag' := h.flag hflag
    cases a with
    | enqueue => exact ha.elim
    | markCancel => exact ha.elim
    | requestCancel => rfl
    | _ => exact hflag'
  · intro hterminal
    obtain rfl := h.final hterminal
    exact (record_of_terminal hterminal hg).1

theorem presentable_run (ops : List AtomicOp) {r : UUID} {v : RunView}
    (hv : (atomicSys.run Sys.init ops).runtime.view r = some v) : Presentable v.record := by
  have hinv : ∀ v, (atomicSys.run Sys.init ops).runtime.view r = some v → Presentable v.record := by
    refine atomicRefine.inv_run (s := Sys.init) (P := fun _ _ => True)
      (I := fun s : Sys => ∀ v, s.runtime.view r = some v → Presentable v.record) ?_ good_default (by nofun)
      (Machine.along_of_forall (fun _ _ => trivial) _ _)
    intro s op hgood hI _ v' hv'
    cases hv : s.runtime.view r with
    | none =>
      rcases atomic_new hgood op hv with ⟨hnone, -⟩ | ⟨userId, now, -, hview⟩
      · rw [hnone] at hv'
        cases hv'
      · obtain rfl := Option.some.inj (hview.symm.trans hv')
        exact enqueued_presentable r userId now
    | some v =>
      obtain ⟨u, hu, hpresentable⟩ := atomic_keeps hgood op (I := fun v => Presentable v.record)
        (fun v a ha h hg => record_presentable ha hg h) ⟨v, hv, hI v hv⟩
      obtain rfl := Option.some.inj (hu.symm.trans hv')
      exact hpresentable
  exact hinv v hv

theorem since_run {s : Sys} (hgood : Good s.runtime) {r : UUID} {v : RunView} (hv : s.runtime.view r = some v)
    (ops : List AtomicOp) :
    ∃ v', (atomicSys.run s ops).runtime.view r = some v' ∧ Since v.record v'.record := by
  refine atomicRefine.inv_run (P := fun _ _ => True)
    (I := fun s : Sys => ∃ v', s.runtime.view r = some v' ∧ Since v.record v'.record) ?_ hgood
    ⟨v, hv, Since.refl _⟩ (Machine.along_of_forall (fun _ _ => trivial) _ _)
  intro s op hgood hI _
  exact atomic_keeps hgood op (I := fun v' => Since v.record v'.record) (fun u a ha h hg => record_since ha hg h) hI

/-! ## Answers -/

/-- the run can still be cancelled, and nobody asked for it yet -/
def RunStatus.isOpen (st : RunStatus) : Bool := decide (st.status ∉ terminalRunStatuses) && !st.cancelRequested

section Answers

variable {s : Sys} {r : UUID} {v : RunView}

theorem reply_request {agentRequest : AgentRequest} {uuid4 : UUID} (h : ¬ agentRequest.Collides uuid4 s.runtime)
    (now : UnixTs) : service.reply s (.request agentRequest uuid4 now) =
      some (agentRequest.serve uuid4 now s.runtime).1 := by
  change (ServiceOp.exec s (.request agentRequest uuid4 now)).1 = _
  simp only [ServiceOp.exec, if_neg h]

/-- a request that names a run collides with none -/
theorem not_collides {agentRequest : AgentRequest} (hr : agentRequest.runId? = some r) (uuid4 : UUID)
    (rt : InMemoryRuntime) : ¬ agentRequest.Collides uuid4 rt := by
  intro hc
  have hnone := hc.1
  rw [hr] at hnone
  cases hnone

theorem reply_create (hgood : Good s.runtime) (agentPrompt : AgentPromptDto) (hv : s.runtime.view r = none)
    (now : UnixTs) : service.reply s (.request (.createAgentRun agentPrompt) r now) =
      some ⟨200, .createdRun ⟨r⟩⟩ := by
  have hfresh := view_eq_none_iff.1 hv
  rw [reply_request (fun hc => hfresh hc.2)]
  obtain ⟨rt', hrun, -⟩ := orchestratorCreateRun_spec hgood hfresh hardcodedUser now
  rw [serve_of_ok (.createAgentRun agentPrompt) (createAgentRun_returned agentPrompt hrun)]
  rfl

theorem reply_get (hv : s.runtime.view r = some v) (uuid4 : UUID) (now : UnixTs) :
    service.reply s (.request (.getAgentRun r) uuid4 now) = some ⟨200, .run (RunV1Mapper.toDto v.record)⟩ := by
  rw [reply_request (not_collides rfl _ _), serve_of_ok (.getAgentRun r) (getAgentRun_known (record?_of_view hv))]

/-- what a cancellation answers depends on the record alone -/
theorem reply_cancel (hgood : Good s.runtime) (hv : s.runtime.view r = some v) (uuid4 : UUID) (now : UnixTs) :
    service.reply s (.request (.cancelAgentRun r) uuid4 now) = some (cancelResponse r v.record.isOpen) := by
  rw [reply_request (not_collides rfl _ _)]
  have hcall : ∃ rt', (orchestratorCancelRun r now).run s.runtime = .ok v.record.isOpen rt' := by
    have hopen : (Act.requestCancel now).Guard v.record ↔ v.record.isOpen = true := by
      simp [Act.Guard, RunStatus.isOpen]
    have hread := findRun_run (record?_of_view hv)
    rcases orchestratorCancelRun_spec hgood r now with ⟨u, b, rt', hu, hg, hrun, rfl, -⟩ | ⟨hno, -⟩
    · obtain rfl := Option.some.inj (hv.symm.trans hu)
      exact ⟨rt', by rw [hopen.1 hg]; exact hrun⟩
    · have hclosed : v.record.isOpen = false := Bool.eq_false_iff.2 (mt hopen.2 (hno v hv))
      refine ⟨s.runtime, ?_⟩
      rw [hclosed]
      by_cases ht : v.record.status ∈ terminalRunStatuses
      · simp only [orchestratorCancelRun, requestCancellation, EStateM.run_bind, hread, if_pos ht, EStateM.run_pure,
          Bool.false_eq_true, if_false]
      · have hflag : v.record.cancelRequested = true := by simpa [RunStatus.isOpen, ht] using hclosed
        simp only [orchestratorCancelRun, requestCancellation, EStateM.run_bind, hread, if_neg ht, hflag, if_true,
          EStateM.run_pure, Bool.false_eq_true, if_false]
  obtain ⟨rt', hrun⟩ := hcall
  rw [serve_of_ok (.cancelAgentRun r) (cancelAgentRun_returned hrun)]

/-- the events of a stored run can always be listed -/
theorem reply_events (hgood : Good s.runtime) (hv : s.runtime.view r = some v) (after : Option ℤ) (uuid4 : UUID)
    (now : UnixTs) : ∃ events, s.runtime.internalEventLogs.list r after = .ok events ∧
      service.reply s (.request (.getAgentRunEvents r after) uuid4 now) =
        some ⟨200, .runEvents (events.map RunEventV1Mapper.toDto)⟩ := by
  obtain ⟨stored, hstored⟩ := (Dict.mem_iff _ _).1 (hgood.known r (mem_of_view hv)).1
  have hlist : ∃ events, s.runtime.internalEventLogs.list r after = .ok events := by
    unfold InMemoryRunEventLog.list
    rw [hstored]
    cases after with
    | none => exact ⟨_, rfl⟩
    | some number => exact ⟨_, rfl⟩
  obtain ⟨events, hevents⟩ := hlist
  refine ⟨events, hevents, ?_⟩
  rw [reply_request (not_collides rfl _ _),
    serve_of_ok (.getAgentRunEvents r after) (getAgentRunEvents_known (record?_of_view hv) hevents)]

theorem reply_unknown {agentRequest : AgentRequest} (hr : agentRequest.runId? = some r) (hv : s.runtime.view r = none)
    (uuid4 : UUID) (now : UnixTs) :
    service.reply s (.request agentRequest uuid4 now) = some (notFound r) := by
  rw [reply_request (not_collides hr _ _)]
  have hrec := record?_eq_none_iff.2 hv
  cases agentRequest with
  | createAgentRun agentPrompt => cases hr
  | getAgentRun j =>
    obtain rfl := Option.some.inj hr
    rw [serve_of_ok (.getAgentRun j) (getAgentRun_unknown hrec)]
  | cancelAgentRun j =>
    obtain rfl := Option.some.inj hr
    have hcall : (orchestratorCancelRun j now).run s.runtime = .error (.runNotFound (UUID.str j)) s.runtime := by
      simp only [orchestratorCancelRun, requestCancellation, EStateM.run_bind, findRun_unknown hrec]
    rw [serve_of_ok (.cancelAgentRun j) (cancelAgentRun_raised hcall)]
    rfl
  | getAgentRunEvents j after =>
    obtain rfl := Option.some.inj hr
    rw [serve_of_ok (.getAgentRunEvents j after) (getAgentRunEvents_unknown hrec after)]

end Answers

/-! ## Which runs are known -/

/-- a create request that is answered with run `r` -/
def Issues (r : UUID) (s : Sys) (op : ServiceOp) : Prop := service.reply s op = some ⟨200, .createdRun ⟨r⟩⟩

theorem issues_iff {s : Sys} (hgood : Good s.runtime) {r : UUID} {op : ServiceOp} :
    Issues r s op ↔ ∃ agentPrompt now, op = .request (.createAgentRun agentPrompt) r now ∧
      s.runtime.view r = none := by
  constructor
  · intro h
    unfold Issues at h
    cases op with
    | worker op => cases h
    | request agentRequest uuid4 now =>
      cases hr : agentRequest.runId? with
      | none =>
        cases agentRequest with
        | createAgentRun agentPrompt =>
          cases hv : s.runtime.view uuid4 with
          | none =>
            rw [reply_create hgood agentPrompt hv] at h
            cases h
            exact ⟨agentPrompt, now, rfl, hv⟩
          | some v =>
            have hcollides : (AgentRequest.createAgentRun agentPrompt).Collides uuid4 s.runtime :=
              ⟨rfl, mem_of_view hv⟩
            change (ServiceOp.exec s (.request (.createAgentRun agentPrompt) uuid4 now)).1 = _ at h
            simp only [ServiceOp.exec, if_pos hcollides] at h
            cases h
        | _ => cases hr
      | some j =>
        cases hv : s.runtime.view j with
        | none =>
          rw [reply_unknown hr hv] at h
          cases h
        | some v =>
          -- a request that names a run is not answered with a created one
          cases agentRequest with
          | createAgentRun agentPrompt => cases hr
          | getAgentRun i =>
            obtain rfl := Option.some.inj hr
            rw [reply_get hv] at h
            cases h
          | cancelAgentRun i =>
            obtain rfl := Option.some.inj hr
            rw [reply_cancel hgood hv] at h
            unfold cancelResponse at h
            split_ifs at h <;> cases h
          | getAgentRunEvents i after =>
            obtain rfl := Option.some.inj hr
            obtain ⟨events, -, hreply⟩ := reply_events hgood hv after uuid4 now
            rw [hreply] at h
            cases h
  · intro h
    obtain ⟨agentPrompt, now, rfl, hv⟩ := h
    exact reply_create hgood agentPrompt hv now

/-- the run exists -/
def Sys.Stores (s : Sys) (r : UUID) : Prop := ∃ v, s.runtime.view r = some v

/-- the create call a step makes -/
theorem createRun_of_atomic {op : ServiceOp} {r : UUID} {userId : String} {now : UnixTs}
    (h : AtomicOp.createRun r userId now ∈ op.atomic) :
    ∃ agentPrompt, op = .request (.createAgentRun agentPrompt) r now := by
  cases op with
  | worker op =>
    have hop := List.mem_singleton.1 h
    cases op <;> cases hop
  | request agentRequest uuid4 t =>
    cases agentRequest with
    | createAgentRun agentPrompt =>
      cases List.mem_singleton.1 h
      exact ⟨agentPrompt, rfl⟩
    | cancelAgentRun j => cases List.mem_singleton.1 h
    | getAgentRun j => cases h
    | getAgentRunEvents j after => cases h

theorem stores_step {s : Sys} (hgood : Good s.runtime) (op : ServiceOp) (r : UUID) :
    (service.step s op).Stores r ↔ s.Stores r ∨ Issues r s op := by
  rw [service_step]
  constructor
  · intro hstored
    cases hv : s.runtime.view r with
    | some v => exact Or.inl ⟨v, hv⟩
    | none =>
      right
      cases hatomic : op.atomic with
      | nil =>
        obtain ⟨v, hv'⟩ := hstored
        rw [hatomic, Machine.run_nil, hv] at hv'
        cases hv'
      | cons a l =>
        have hl : l = [] := by
          cases op with
          | worker op => cases hatomic; rfl
          | request agentRequest uuid4 now => cases agentRequest <;> cases hatomic <;> rfl
        subst hl
        obtain ⟨v, hv'⟩ := hstored
        rw [hatomic, Machine.run_cons, Machine.run_nil] at hv'
        rcases atomic_new hgood a hv with ⟨hnone, -⟩ | ⟨userId, now, rfl, -⟩
        · rw [hnone] at hv'
          cases hv'
        · have hmem : AtomicOp.createRun r userId now ∈ op.atomic := by
            rw [hatomic]
            exact List.mem_singleton_self _
          obtain ⟨agentPrompt, hop⟩ := createRun_of_atomic hmem
          exact (issues_iff hgood).2 ⟨agentPrompt, now, hop, hv⟩
  · intro h
    rcases h with ⟨v, hv⟩ | hissues
    · obtain ⟨v', hv', -⟩ := since_run hgood hv op.atomic
      exact ⟨v', hv'⟩
    · obtain ⟨agentPrompt, now, rfl, hv⟩ := (issues_iff hgood).1 hissues
      change (atomicSys.step s (.createRun r hardcodedUser now)).Stores r
      rcases atomic_new hgood (.createRun r hardcodedUser now) hv with ⟨-, hno⟩ | ⟨userId, t, -, hview⟩
      · exact absurd rfl (hno _ _)
      · exact ⟨_, hview⟩

theorem stores_iff_created (ops : List ServiceOp) (r : UUID) :
    (service.run Sys.init ops).Stores r ↔ service.Occurs (Issues r) Sys.init ops := by
  refine Machine.hist_inv (M := service) (P := fun _ _ => True)
    (J := fun pre s => s.Stores r ↔ service.Occurs (Issues r) Sys.init pre) ?_ ?_
    (Machine.along_of_forall (fun _ _ => trivial) _ _)
  · constructor
    · intro h
      obtain ⟨v, hv⟩ := h
      cases hv
    · intro h
      exact absurd h (Machine.not_occurs_nil _)
  · intro pre op hI _
    rw [stores_step (service_good pre), hI, Machine.occurs_snoc]

/-- **A run is found exactly from its creation on.** A request that names a run is answered 404 until some create
request was answered with its id, and 200 ever after; no request is answered 400 or 500. -/
theorem found_iff_created (ops : List ServiceOp) {agentRequest : AgentRequest} {r : UUID}
    (hr : agentRequest.runId? = some r) (uuid4 : UUID) (now : UnixTs) :
    (service.Occurs (Issues r) Sys.init ops ∧ ∃ body,
      service.reply (service.run Sys.init ops) (.request agentRequest uuid4 now) = some ⟨200, body⟩) ∨
    (¬ service.Occurs (Issues r) Sys.init ops ∧
      service.reply (service.run Sys.init ops) (.request agentRequest uuid4 now) = some (notFound r)) := by
  have hgood := service_good ops
  rw [← stores_iff_created]
  cases hv : (service.run Sys.init ops).runtime.view r with
  | none =>
    refine Or.inr ⟨?_, reply_unknown hr hv uuid4 now⟩
    intro h
    obtain ⟨v, hv'⟩ := h
    rw [hv] at hv'
    cases hv'
  | some v =>
    refine Or.inl ⟨⟨v, hv⟩, ?_⟩
    cases agentRequest with
    | createAgentRun agentPrompt => cases hr
    | getAgentRun i =>
      obtain rfl := Option.some.inj hr
      exact ⟨_, reply_get hv uuid4 now⟩
    | cancelAgentRun i =>
      obtain rfl := Option.some.inj hr
      rw [reply_cancel hgood hv]
      cases v.record.isOpen <;> exact ⟨_, rfl⟩
    | getAgentRunEvents i after =>
      obtain rfl := Option.some.inj hr
      obtain ⟨events, -, hreply⟩ := reply_events hgood hv after uuid4 now
      exact ⟨_, hreply⟩

/-- run 1 is created, a worker claims and executes it, and it ends -/
def servedRunOne : List ServiceOp :=
  [.request (.createAgentRun ⟨"prompt", []⟩) 1 10, .worker (.advance "w1" 20), .worker (.advance "w1" 20),
   .worker (.advance "w1" 20), .worker (.advance "w1" 20), .worker (.finish "w1" .returned 30)]

/-- then a cancellation of run 1 is answered 200, and one of run 2 is answered 404 -/
theorem found_iff_created_served :
    (∃ body, service.reply (service.run Sys.init servedRunOne) (.request (.cancelAgentRun 1) 0 40) =
      some ⟨200, body⟩) ∧
    service.reply (service.run Sys.init servedRunOne) (.request (.cancelAgentRun 2) 0 40) = some (notFound 2) := by
  have hone : service.Occurs (Issues 1) Sys.init servedRunOne := ⟨[], _, servedRunOne.tail, rfl, rfl⟩
  have htwo : ¬ service.Occurs (Issues 2) Sys.init servedRunOne := by
    intro h
    obtain ⟨pre, op, post, hsplit, hissues⟩ := h
    obtain ⟨agentPrompt, now, rfl, -⟩ := (issues_iff (service_good pre)).1 hissues
    have hmem : ServiceOp.request (.createAgentRun agentPrompt) 2 now ∈ servedRunOne := by simp [hsplit]
    simp [servedRunOne] at hmem
  constructor
  · have hanswer := found_iff_created servedRunOne (show (AgentRequest.cancelAgentRun 1).runId? = some 1 from rfl) 0 40
    exact (hanswer.resolve_right fun h => h.1 hone).2
  · have hanswer := found_iff_created servedRunOne (show (AgentRequest.cancelAgentRun 2).runId? = some 2 from rfl) 0 40
    exact (hanswer.resolve_left fun h => htwo h.1).2

/-! ## What one answer binds -/

/-- a `GET` of run `r` is answered with `dto`, whenever it comes -/
def Sys.Shows (s : Sys) (r : UUID) (dto : RunDto) : Prop :=
  ∀ uuid4 now, service.reply s (.request (.getAgentRun r) uuid4 now) = some ⟨200, .run dto⟩

/-- the status names of a run that ended -/
def terminalNames : List String := terminalRunStatuses.map RunStatusCode.name

theorem name_mem_terminal {status : RunStatusCode} : status.name ∈ terminalNames ↔ status ∈ terminalRunStatuses := by
  cases status <;> decide

/-- a run as it is shown -/
structure RunDto.WellFormed (dto : RunDto) (r : UUID) : Prop where
  id : dto.id = r
  status : dto.status ∈ ["ENQUEUED", "RUNNING", "SUCCEEDED", "FAILED", "CANCELLED"]
  result : dto.result = if dto.status = "SUCCEEDED" then some okResult else none
  error : dto.error ≠ none ↔ dto.status = "FAILED"

theorem toDto_wellFormed {r : UUID} {v : RunView} (hsound : v.Sound r) (h : Presentable v.record) :
    (RunV1Mapper.toDto v.record).WellFormed r where
  id := hsound.id
  status := by
    have hcreated := h.enqueued
    have hsettled := hsound.settled
    change v.record.status.name ∈ _
    cases hs : v.record.status with
    | created => exact absurd hs hcreated
    | timedOut => exact absurd hs hsettled.1
    | retrying => exact absurd hs hsettled.2
    | _ => decide
  result := by
    change v.record.result = if v.record.status.name = RunStatusCode.succeeded.name then some okResult else none
    have hiff := h.inOrder.result
    split_ifs with hname
    · have hs : v.record.status = .succeeded := RunStatusCode.name_injective hname
      obtain ⟨result, hresult⟩ := Option.ne_none_iff_exists'.1 (hiff.2 hs)
      rw [hresult, h.result result hresult]
    · by_contra hne
      exact hname (congrArg RunStatusCode.name (hiff.1 hne))
  error := by
    change v.record.error ≠ none ↔ v.record.status.name = RunStatusCode.failed.name
    rw [h.inOrder.error]
    exact ⟨fun hs => congrArg RunStatusCode.name hs, fun hname => RunStatusCode.name_injective hname⟩

/-- what is shown is the stored record -/
theorem shows_iff {s : Sys} {r : UUID} {dto : RunDto} :
    s.Shows r dto ↔ ∃ v, s.runtime.view r = some v ∧ dto = RunV1Mapper.toDto v.record := by
  constructor
  · intro h
    have hanswer := h 0 0
    cases hv : s.runtime.view r with
    | none =>
      rw [reply_unknown (show (AgentRequest.getAgentRun r).runId? = some r from rfl) hv] at hanswer
      cases hanswer
    | some v =>
      rw [reply_get hv] at hanswer
      cases hanswer
      exact ⟨v, rfl, rfl⟩
  · intro h uuid4 now
    obtain ⟨v, hv, rfl⟩ := h
    exact reply_get hv uuid4 now

/-- a later record, from an earlier one -/
theorem since_service {pre mid : List ServiceOp} {r : UUID} {v : RunView}
    (hv : (service.run Sys.init pre).runtime.view r = some v) :
    ∃ v', (service.run Sys.init (pre ++ mid)).runtime.view r = some v' ∧ Since v.record v'.record := by
  rw [Machine.run_append, service_run (service.run Sys.init pre)]
  exact since_run (service_good pre) hv _

/-- **One answer binds every later one.** What a `GET` shows is well formed: a status other than CREATED, TIMED_OUT and
RETRYING, a result exactly when it is SUCCEEDED, an error exactly when it is FAILED. Whatever requests and worker steps
follow, the run is shown again; a cancellation request, once shown, stays shown, and what was shown of a run that ended
is shown forever. -/
theorem later_answers (pre mid : List ServiceOp) {r : UUID} {dto : RunDto}
    (h : (service.run Sys.init pre).Shows r dto) : dto.WellFormed r ∧
    ∃ dto', (service.run Sys.init (pre ++ mid)).Shows r dto' ∧
      (dto.cancelRequested = true → dto'.cancelRequested = true) ∧ (dto.status ∈ terminalNames → dto' = dto) := by
  obtain ⟨v, hv, rfl⟩ := shows_iff.1 h
  have hpresentable : Presentable v.record := by
    rw [service_run] at hv
    exact presentable_run _ hv
  refine ⟨toDto_wellFormed ((service_good pre).sound r v hv) hpresentable, ?_⟩
  obtain ⟨v', hv', hsince⟩ := since_service hv
  refine ⟨RunV1Mapper.toDto v'.record, shows_iff.2 ⟨v', hv', rfl⟩, hsince.flag, ?_⟩
  intro hterminal
  rw [hsince.final (name_mem_terminal.1 hterminal)]

/-- run 1 is created and cancelled, and then read -/
def cancelledRunOne : List ServiceOp :=
  [.request (.createAgentRun ⟨"prompt", []⟩) 1 10, .request (.cancelAgentRun 1) 0 20]

theorem later_answers_cancelled : ∃ dto', (service.run Sys.init (cancelledRunOne ++
      [.worker (.advance "w1" 30), .worker (.advance "w1" 30), .worker (.advance "w1" 30)])).Shows 1 dto' ∧
    dto'.cancelRequested = true := by
  have hshown : (service.run Sys.init cancelledRunOne).Shows 1
      { id := 1, status := "ENQUEUED", cancelRequested := true } := fun _ _ => rfl
  obtain ⟨-, dto', hshown', hflag, -⟩ := later_answers cancelledRunOne _ hshown
  exact ⟨dto', hshown', hflag rfl⟩

/-! ## Cancellations -/

/-- a cancellation of run `r` that is answered "cancel_requested" -/
def Acks (r : UUID) (s : Sys) (op : ServiceOp) : Prop :=
  ∃ uuid4 now, op = .request (.cancelAgentRun r) uuid4 now ∧ service.reply s op = some (cancelResponse r true)

/-- an acknowledged cancellation is the orchestrator's that returned True -/
theorem honoured_of_acks {s : Sys} (hgood : Good s.runtime) {r : UUID} {op : ServiceOp} (h : Acks r s op)
    (raised : Prop) : Honoured raised ((service.step s op).runtime.view r) := by
  obtain ⟨uuid4, now, rfl, hreply⟩ := h
  cases hv : s.runtime.view r with
  | none =>
    rw [reply_unknown (show (AgentRequest.cancelAgentRun r).runId? = some r from rfl) hv] at hreply
    cases hreply
  | some v =>
    rw [reply_cancel hgood hv] at hreply
    have hopen : v.record.isOpen = true := by
      by_contra hclosed
      rw [Bool.eq_false_iff.2 hclosed] at hreply
      unfold cancelResponse at hreply
      simp at hreply
    have hguard : (Act.requestCancel now).Guard v.record := by simpa [Act.Guard, RunStatus.isOpen] using hopen
    have hack : atomicSys.reply s (.cancelRun r now) = .flag true :=
      (orchestratorCancelRun_spec hgood r now).flag_true_iff.2 ⟨v, hv, hguard⟩
    rw [service_step]
    exact honoured_of_ack hgood hack raised

/-- **The cancellation contract.** A cancellation of a stored run is acknowledged exactly when a `GET` at that moment
shows it neither ended nor already requested. After an acknowledgement, whatever follows, no other cancellation of the
run is acknowledged, and every `GET` shows the request and a status other than SUCCEEDED. -/
theorem cancel_contract (pre mid : List ServiceOp) (r : UUID) :
    (∀ dto, (service.run Sys.init pre).Shows r dto → ∀ uuid4 now,
      service.reply (service.run Sys.init pre) (.request (.cancelAgentRun r) uuid4 now) =
        some (cancelResponse r (decide (dto.status ∉ terminalNames) && !dto.cancelRequested))) ∧
    ∀ op, Acks r (service.run Sys.init pre) op →
      (∀ op', ¬ Acks r (service.run Sys.init (pre ++ op :: mid)) op') ∧
      ∃ dto, (service.run Sys.init (pre ++ op :: mid)).Shows r dto ∧ dto.cancelRequested = true ∧
        dto.status ≠ "SUCCEEDED" := by
  have hgood := service_good pre
  refine ⟨?_, ?_⟩
  · intro dto h uuid4 now
    obtain ⟨v, hv, rfl⟩ := shows_iff.1 h
    have hopen : v.record.isOpen = (decide (v.record.status.name ∉ terminalNames) && !v.record.cancelRequested) := by
      simp only [RunStatus.isOpen, name_mem_terminal]
    rw [reply_cancel hgood hv, hopen]
    rfl
  · intro op hack
    have hrun : service.run Sys.init (pre ++ op :: mid) =
        atomicSys.run (service.step (service.run Sys.init pre) op) (mid.flatMap ServiceOp.atomic) := by
      rw [Machine.run_append, Machine.run_cons, service_run (service.step _ op)]
    have hafter : service.step (service.run Sys.init pre) op = service.run Sys.init (pre ++ [op]) :=
      (Machine.run_snoc _ _ _ _).symm
    have hsettled : ∀ w, ((service.run Sys.init (pre ++ [op])).consumers w).Settled := by
      rw [service_run]
      exact settled_run _
    have hI : Honoured True ((service.run Sys.init (pre ++ op :: mid)).runtime.view r) := by
      rw [hrun]
      have hstart := honoured_of_acks hgood hack True
      rw [hafter] at hstart ⊢
      exact honoured_run (service_good _) hsettled (Machine.along_of_forall (fun _ _ _ => trivial) _ _) hstart
    obtain ⟨v, hv, hflag, hsucc, -⟩ := hI
    refine ⟨?_, RunV1Mapper.toDto v.record, shows_iff.2 ⟨v, hv, rfl⟩, hflag, ?_⟩
    · intro op' hack'
      obtain ⟨uuid4, now, rfl, hreply⟩ := hack'
      rw [reply_cancel (service_good _) hv] at hreply
      have hclosed : v.record.isOpen = false := by simp [RunStatus.isOpen, hflag]
      rw [hclosed] at hreply
      simp [cancelResponse] at hreply
    · intro hname
      exact hsucc (RunStatusCode.name_injective hname)

end LlmAgent
