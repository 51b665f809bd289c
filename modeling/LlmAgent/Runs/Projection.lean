/-
The run store is a projection of the event log: replaying a run's stream gives its stored record.

`replay` is the reading of the stream, again as a guarded automaton: `Enabled` says where an event may stand, `apply`
what it means. The replayed part of a record is its status, intent, retry count, error and, while RUNNING, its owner.

- `effect_projects`: a decision appends an event that is legal where it stands and means what the decision wrote;
- `awake_step`: calls of the orchestrator and of the workers never leave a run in CREATED;
- `store_is_projection`: hence in every reachable state every stream is legal and replays to the stored record.
-/
import LlmAgent.Runs.IntentPreservation

namespace LlmAgent

open Core

/-! ## Replaying a stream -/

/-- what an event says; `other` is an event of an executor -/
inductive EventKind where
  | created
  | enqueued
  | claimed
  | claimExpired
  | cancelRequested
  | cancelled
  | runSucceeded
  | runFailed
  | claimLost
  | other
deriving DecidableEq, Repr

def EventKind.ofType (eventType : String) : EventKind :=
  if eventType = "created" then .created
  else if eventType = "enqueued" then .enqueued
  else if eventType = "claimed" then .claimed
  else if eventType = "claim_expired" then .claimExpired
  else if eventType = "cancel requested" then .cancelRequested
  else if eventType = "cancelled" then .cancelled
  else if eventType = "run_succeeded" then .runSucceeded
  else if eventType = "run_failed" then .runFailed
  else if eventType = "claim_lost" then .claimLost
  else .other

/-- the part of a record that its stream determines -/
structure Projection where
  status : RunStatusCode
  claimedWorker : Option String
  retryCount : ℤ
  cancelRequested : Bool
  error : Option String

/-- where an event may stand -/
def LegalEvent (o : Option Projection) (e : RunEvent) : Prop :=
  match EventKind.ofType e.eventType, o with
  | .created, o => o = none
  | _, none => False
  | .enqueued, some p => p.status = .created
  | .claimed, some p => p.status = .enqueued
  | .claimExpired, some p => p.status = .running
  | .cancelRequested, some p => p.status ∉ terminalRunStatuses ∧ p.cancelRequested = false
  | .cancelled, some p => p.status = .enqueued ∨ p.status = .running
  | .runSucceeded, some p => p.status = .running
  | .runFailed, some p => p.status = .running
  | .claimLost, some _ => True
  | .other, some _ => True

/-- what it means -/
def replayEvent (o : Option Projection) (e : RunEvent) : Option Projection :=
  match EventKind.ofType e.eventType, o with
  | .created, _ => some ⟨.created, none, 0, false, none⟩
  | _, none => none
  | .enqueued, some p => some { p with status := .enqueued }
  | .claimed, some p => some { p with status := .running, claimedWorker := e.payload.lookup "worker" }
  | .claimExpired, some p => some { p with status := .enqueued, retryCount := p.retryCount + 1 }
  | .cancelRequested, some p => some { p with cancelRequested := true }
  | .cancelled, some p => some { p with status := .cancelled }
  | .runSucceeded, some p => some { p with status := .succeeded }
  | .runFailed, some p => some { p with status := .failed, error := e.payload.lookup "error" }
  | .claimLost, some p => some p
  | .other, some p => some p

/-- the reading of a stream, event by event -/
def replay : Automaton (Option Projection) RunEvent := ⟨LegalEvent, replayEvent⟩

/-- the replayed part of the record -/
structure Agrees (p : Projection) (st : RunStatus) : Prop where
  status : p.status = st.status
  cancelRequested : p.cancelRequested = st.cancelRequested
  retryCount : st.retryCount = some p.retryCount
  error : p.error = st.error
  owner : st.status = .running → p.claimedWorker = st.claimedWorker

/-- every event of the stream is legal where it stands, and the stream replays to the record -/
def Projects (o : Option RunView) : Prop :=
  ∀ v, o = some v → replay.Legal none v.events ∧ ∃ p, replay.run none v.events = some p ∧ Agrees p v.record

/-! ## One decision -/

/-- what the orchestrator and the workers observe when they take a decision: only fresh runs are enqueued, only
enqueued or running ones are cancelled, and executors use types of their own -/
def Act.Projectable (st : RunStatus) : Act → Prop
  | .enqueue _ => st.cancelRequested = false ∧ st.retryCount = some 0
  | .markCancel _ => False
  | .cancel _ => st.status ≠ .created
  | .emit eventType _ _ => eventType ∉ ownEventTypes
  | _ => True

/-- an executor's type is none of the stores' -/
theorem ofType_foreign {eventType : String} (h : eventType ∉ ownEventTypes) : EventKind.ofType eventType = .other := by
  simp only [ownEventTypes, List.mem_cons, List.not_mem_nil, or_false, not_or] at h
  obtain ⟨h₁, h₂, h₃, h₄, h₅, h₆, h₇, h₈, h₉⟩ := h
  simp only [EventKind.ofType, h₁, h₂, h₃, h₄, h₅, h₆, h₇, h₈, h₉, if_false]

/-- **The event of a decision is legal, and means what the decision wrote.** -/
theorem effect_projects {st : RunStatus} {a : Act} {p : Projection} (hagree : Agrees p st) (hg : a.Guard st)
    (hp : a.Projectable st) {e : RunEvent} (he : a.event = some (e.eventType, e.payload, e.timestampUtc)) :
    LegalEvent (some p) e ∧ ∃ q, replayEvent (some p) e = some q ∧ Agrees q (a.record st) := by
  obtain ⟨runId, nr, eventType, payload, now⟩ := e
  obtain ⟨hstatus, hflag, hretry, herror, howner⟩ := hagree
  cases a with
  | create => exact hg.elim
  | markCancel => exact hp.elim
  | renew => cases he
  | enqueue =>
    cases he
    refine ⟨hstatus.trans hg, _, rfl, rfl, hflag.trans hp.1, ?_, herror, fun h => by cases h⟩
    rw [← hretry, hp.2]
    rfl
  | requestCancel =>
    cases he
    exact ⟨⟨hstatus ▸ hg.1, hflag.trans hg.2⟩, _, rfl, hstatus, rfl, hretry, herror, howner⟩
  | expire =>
    cases he
    refine ⟨hstatus.trans hg.1, _, rfl, rfl, hflag, ?_, herror, fun h => by cases h⟩
    simp [Act.record, hretry]
  | drop =>
    cases he
    exact ⟨Or.inl (hstatus.trans hg.1), _, rfl, rfl, hflag, hretry, herror, fun h => by cases h⟩
  | claim =>
    cases he
    exact ⟨hstatus.trans hg.1, _, rfl, rfl, hflag, hretry, herror, fun _ => rfl⟩
  | loseClaim =>
    cases he
    exact ⟨trivial, _, rfl, hstatus, hflag, hretry, herror, howner⟩
  | succeed =>
    cases he
    exact ⟨hstatus.trans hg, _, rfl, rfl, hflag, hretry, herror, fun h => by cases h⟩
  | fail =>
    cases he
    exact ⟨hstatus.trans hg, _, rfl, rfl, hflag, hretry, rfl, fun h => by cases h⟩
  | cancel =>
    cases he
    have hlegal : st.status = .enqueued ∨ st.status = .running := by
      rcases (allowed_iff _ _).1 hg with ⟨h, -⟩ | ⟨h, -⟩ | ⟨h, -⟩ | ⟨-, h⟩ | ⟨-, h⟩
      · exact absurd h hp
      · exact Or.inl h
      · exact Or.inr h
      · cases h
      · cases h
    rw [← hstatus] at hlegal
    exact ⟨hlegal, _, rfl, rfl, hflag, hretry, herror, fun h => by cases h⟩
  | emit =>
    cases he
    have hkind := ofType_foreign hp
    simp only [LegalEvent, replayEvent, hkind]
    exact ⟨trivial, _, rfl, hstatus, hflag, hretry, herror, howner⟩

/-- what is known of a decision, where it is taken -/
def ProjectableAt (W : UUID → Option RunView) (p : UUID × Act) : Prop :=
  ∀ v, W p.1 = some v → p.2.Projectable v.record

theorem projects_step {W : UUID → Option RunView} {r : UUID} {a : Act} (hp : ProjectableAt W (r, a))
    (hI : Projects (W r)) (hen : (lifecycle r).Enabled (W r) a) : Projects ((lifecycle r).apply (W r) a) := by
  intro v' hv'
  rcases lifecycle_cases hen with ⟨userId, now, hnone, rfl⟩ | ⟨v, hv, hg⟩
  · rw [hnone] at hv'
    obtain rfl : RunView.created r userId now = v' := Option.some.inj hv'
    exact ⟨⟨rfl, trivial⟩, _, rfl, rfl, rfl, rfl, rfl, fun h => by cases h⟩
  · rw [hv] at hv'
    obtain rfl : v.effect a = v' := Option.some.inj hv'
    obtain ⟨hlegal, p, hrun, hagree⟩ := hI v hv
    simp only [RunView.effect, RunView.nextEvents]
    cases he : a.event with
    | none =>
      -- only a renewal appends nothing, and it writes nothing that is replayed
      refine ⟨by simpa using hlegal, p, by simpa using hrun, ?_⟩
      cases a with
      | renew => exact ⟨hagree.status.trans hg.1, hagree.cancelRequested, hagree.retryCount, hagree.error,
          fun _ => (hagree.owner hg.1).trans hg.2⟩
      | _ => cases he
    | some e =>
      obtain ⟨hok, q, hq, hagree'⟩ := effect_projects hagree hg (hp v hv)
        (e := ⟨v.record.id, v.events.length + 1, e.1, e.2.1, e.2.2⟩) he
      simp only [Option.toList_some, List.map_cons, List.map_nil]
      refine ⟨?_, q, ?_, hagree'⟩
      · rw [Automaton.legal_append, hrun]
        exact ⟨hlegal, hok, trivial⟩
      · rw [Automaton.run_append, hrun]
        exact hq

/-! ## The orchestrator's and the workers' calls -/

/-- a call of the orchestrator or of a worker, with executors that emit types of their own -/
def StoreOp.Orchestrated : StoreOp → Prop
  | .createRun _ _ _ => False
  | .markEnqueued _ _ => False
  | .markCancelled _ _ => False
  | .requestCancellation _ _ => False
  | .emitEvent _ eventType _ _ => eventType ∉ ownEventTypes
  | _ => True

/-- no run rests in CREATED -/
def Awake (rt : InMemoryRuntime) : Prop := ∀ r v, rt.view r = some v → v.record.status ≠ .created

theorem record_awake {st : RunStatus} (a : Act) (h : st.status ≠ .created) : (a.record st).status ≠ .created := by
  cases a <;> first | exact h | simp [Act.record]

/-- such a call keeps every run awake -/
theorem awake_step {rt : InMemoryRuntime} (hgood : Good rt) {op : StoreOp} (ho : op.Orchestrated) (h : Awake rt) :
    Awake (stores.step rt op) := by
  have hp := exec_performs hgood op
  intro r v' hv'
  by_cases hcreate : ∃ userId now, (r, .create userId now) ∈ op.decisions rt
  · -- the only creating call also enqueues
    obtain ⟨userId, now, hmem⟩ := hcreate
    cases op with
    | orchestratorCreateRun runId userId' now' =>
      simp only [StoreOp.decisions] at hmem hp
      split_ifs at hmem hp with hr
      · cases hmem
      · obtain ⟨rfl, -, -⟩ : r = runId ∧ userId = userId' ∧ now = now' := by simpa using hmem
        rw [hp.view_apply, Automaton.proj_cons_self, Automaton.proj_cons_self, view_eq_none_iff.2 hr] at hv'
        cases hv'
        simp [RunView.effect, Act.record]
    | createRun => exact ho.elim
    | claimRun => rcases causes_of_mem hmem with hc | hc | hc <;> cases hc
    | heartbeat => rcases causes_of_mem hmem with hc | hc <;> cases hc
    | getStatus => cases hmem
    | _ => exact absurd (causes_of_mem hmem) (by simp [StoreOp.Causes])
  · refine hp.keeps (I := fun o => ∀ v, o = some v → v.record.status ≠ .created)
      (C := fun a => ∀ userId now, a ≠ .create userId now) ?_ ?_ (h r) v' hv'
    · intro o a ha
      refine lifecycle_step ?_ ?_
      · exact fun userId now hcreate => absurd hcreate (ha userId now)
      · exact fun v hv _ => record_awake a hv
    · intro a hmem userId now ha
      subst ha
      exact hcreate ⟨userId, now, hmem⟩

theorem along_projectable {l : List (UUID × Act)} (h : ∀ p ∈ l, ∀ st, p.2.Projectable st)
    (W : UUID → Option RunView) : lifecycles.machine.Along ProjectableAt W l :=
  along_of_acts (C := fun a st => a.Projectable st) h W

/-- the decisions of such a call, on runs that are awake -/
theorem decisions_projectable {rt : InMemoryRuntime} {op : StoreOp} (ho : op.Orchestrated) (h : Awake rt) :
    lifecycles.machine.Along ProjectableAt rt.view (op.decisions rt) := by
  cases op with
  | createRun => exact ho.elim
  | markEnqueued => exact ho.elim
  | markCancelled => exact ho.elim
  | requestCancellation => exact ho.elim
  | orchestratorCreateRun => exact along_created (C := fun a st => a.Projectable st) ⟨rfl, rfl⟩
  | setCancelled r now =>
    exact along_taken (C := fun a st => a.Projectable st) fun v hv _ => h r v hv
  | claimRun =>
    refine along_projectable (fun p hp st => ?_) _
    rcases causes_of_mem hp with h | h | h <;> rw [h] <;> trivial
  | heartbeat =>
    refine along_projectable (fun p hp st => ?_) _
    rcases causes_of_mem hp with h | h <;> rw [h] <;> trivial
  | getStatus => trivial
  | emitEvent => exact along_projectable (fun p hp st => by rw [causes_of_mem hp]; exact ho) _
  | orchestratorCancelRun => exact along_projectable (fun p hp st => by rw [causes_of_mem hp]; trivial) _
  | setSucceeded => exact along_projectable (fun p hp st => by rw [causes_of_mem hp]; trivial) _
  | setFailed => exact along_projectable (fun p hp st => by rw [causes_of_mem hp]; trivial) _

/-- the stream of a run is a legal history and its record is the replay of it -/
def InMemoryRuntime.IsProjection (rt : InMemoryRuntime) (runId : UUID) : Prop :=
  (rt.record? runId = none ∧ rt.stream runId = []) ∨
  ∃ st, rt.record? runId = some st ∧ replay.Legal none (rt.stream runId) ∧
    ∃ p, replay.run none (rt.stream runId) = some p ∧ Agrees p st

/-- **The run store is a projection of the event log.** -/
theorem store_is_projection (ops : List StoreOp) (ho : ∀ op ∈ ops, op.Orchestrated) (runId : UUID) :
    (stores.run createDefaultInMemoryRuntime ops).IsProjection runId := by
  have hgood := reachable_good ops
  have hinv := storesRefine.inv_run (P := fun _ op => op.Orchestrated)
    (I := fun rt => Awake rt ∧ Projects (rt.view runId)) ?_ good_default ?_
    (Machine.along_of_mem ho createDefaultInMemoryRuntime)
  · obtain ⟨-, hproj⟩ := hinv
    cases hv : (stores.run createDefaultInMemoryRuntime ops).view runId with
    | none => exact Or.inl ⟨record?_eq_none_iff.2 hv, stream_of_unknown hgood.toStructural hv⟩
    | some v =>
      obtain ⟨hrec, hevents, -⟩ := view_some_iff.1 hv
      obtain ⟨hlegal, p, hrun, hagree⟩ := hproj v hv
      rw [hevents] at hlegal hrun
      exact Or.inr ⟨v.record, hrec, hlegal, p, hrun, hagree⟩
  · intro rt op hgood hboth ho
    obtain ⟨hawake, hproj⟩ := hboth
    refine ⟨awake_step hgood ho hawake, ?_⟩
    exact storesRefine.local_step (k := runId) (I := Projects) (Q := ProjectableAt) hgood
      (fun l hl => hl ▸ decisions_projectable ho hawake) (fun W a hQ hI hen => projects_step hQ hI hen) hproj
  · refine ⟨?_, ?_⟩
    · intro r v hv
      cases hv
    · intro v hv
      cases hv

/-- a run that is created, claimed, recovered by the second claim and finished by its new owner -/
theorem store_is_projection_recovered :
    (stores.run createDefaultInMemoryRuntime [.orchestratorCreateRun 1 "user_1" 10, .claimRun "w1" 20,
      .claimRun "w2" (seconds 60), .setSucceeded 1 [("ok", .bool true)] (seconds 61)]).IsProjection 1 :=
  store_is_projection _ (by simp [StoreOp.Orchestrated]) 1

end LlmAgent
