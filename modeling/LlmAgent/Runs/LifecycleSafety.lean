/-
Life-cycle safety of the stores, for every sequence of calls with arbitrary arguments.

- `terminal_step`: no decision writes the record of a terminal run;
- `record_kept`: a record, once stored, stays stored;
- `lifecycle_safety`: the statuses written to a record start at CREATED and change along the default rules only, a
  terminal record is final in every field, and no record is removed.
-/
import LlmAgent.Runs.StoreRefinement

namespace LlmAgent

open Core

/-- what was written to the record of a run: nothing when there is none, else a path of the default rules from CREATED
to the stored status -/
def InMemoryRuntime.WriteHistory (rt : InMemoryRuntime) (runId : UUID) : Prop :=
  (rt.record? runId = none ∧ rt.writesOf runId = []) ∨
  ∃ st, rt.record? runId = some st ∧ (rt.writesOf runId).head? = some .created ∧
    (rt.writesOf runId).IsChain Follows ∧ (rt.writesOf runId).getLast? = some st.status

theorem Good.writeHistory {rt : InMemoryRuntime} (h : Good rt) (runId : UUID) : rt.WriteHistory runId := by
  cases hv : rt.view runId with
  | none => exact Or.inl ⟨record?_eq_none_iff.2 hv, h.unwritten _ (view_eq_none_iff.1 hv)⟩
  | some v =>
    obtain ⟨hrec, -, hwrites⟩ := view_some_iff.1 hv
    have ht := h.traced runId v hv
    refine Or.inr ⟨v.record, hrec, ?_⟩
    rw [← hwrites]
    exact ⟨ht.starts, ht.chain, ht.ends⟩

/-- a terminal run keeps its record under every enabled decision -/
theorem terminal_step {runId : UUID} {st : RunStatus} (ht : st.status ∈ terminalRunStatuses) (o : Option RunView)
    (a : Act) (ho : ∃ v, o = some v ∧ v.record = st) (ha : (lifecycle runId).Enabled o a) :
    ∃ v, (lifecycle runId).apply o a = some v ∧ v.record = st := by
  obtain ⟨v, rfl, rfl⟩ := ho
  exact ⟨v.effect a, rfl, (record_of_terminal ht ha).1⟩

/-- a run that exists keeps existing -/
theorem exists_step {runId : UUID} (o : Option RunView) (a : Act) (ho : ∃ v, o = some v)
    (_ : (lifecycle runId).Enabled o a) : ∃ v, (lifecycle runId).apply o a = some v := by
  obtain ⟨v, rfl⟩ := ho
  exact ⟨v.effect a, rfl⟩

theorem terminal_record_final {rt : InMemoryRuntime} (hgood : Good rt) {runId : UUID} {st : RunStatus}
    (hrec : rt.record? runId = some st) (ht : st.status ∈ terminalRunStatuses) (ops : List StoreOp) :
    (stores.run rt ops).record? runId = some st := by
  obtain ⟨v, hv, rfl⟩ := exists_view hrec
  obtain ⟨v', hv', hrec'⟩ := storesRefine.local_run' (I := fun o => ∃ v', o = some v' ∧ v'.record = v.record)
    (terminal_step ht) hgood ⟨v, hv, rfl⟩ ops
  rw [← hrec']
  exact record?_of_view hv'

theorem record_kept {rt : InMemoryRuntime} (hgood : Good rt) {runId : UUID} {st : RunStatus}
    (hrec : rt.record? runId = some st) (ops : List StoreOp) : ∃ st', (stores.run rt ops).record? runId = some st' := by
  obtain ⟨v, hv, -⟩ := exists_view hrec
  obtain ⟨v', hv'⟩ := storesRefine.local_run' (I := fun o => ∃ v', o = some v') exists_step hgood ⟨v, hv⟩ ops
  exact ⟨v'.record, record?_of_view hv'⟩

/-- **Life-cycle safety and terminal immutability.** After any calls `ops` the statuses written to a run's record form a
path of the default rules from CREATED; whatever calls `ops'` follow, the record still exists, and if it was terminal it
is the same record. -/
theorem lifecycle_safety (ops ops' : List StoreOp) (runId : UUID) :
    (stores.run createDefaultInMemoryRuntime ops).WriteHistory runId ∧
    ∀ st, (stores.run createDefaultInMemoryRuntime ops).record? runId = some st →
      (∃ st', (stores.run createDefaultInMemoryRuntime (ops ++ ops')).record? runId = some st') ∧
      (st.status ∈ terminalRunStatuses →
        (stores.run createDefaultInMemoryRuntime (ops ++ ops')).record? runId = some st) := by
  have hgood := reachable_good ops
  refine ⟨hgood.writeHistory runId, fun st hrec => ⟨?_, fun ht => ?_⟩⟩
  · rw [Machine.run_append]
    exact record_kept hgood hrec ops'
  · rw [Machine.run_append]
    exact terminal_record_final hgood hrec ht ops'

end LlmAgent
