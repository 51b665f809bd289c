/-
Cancellation intents and retry counts across the calls of both stores.

Most operations rebuild the record with every field copied; `mark_enqueued` and `mark_cancelled` rebuild it with the
dataclass defaults for the claim fields, so they forget `cancel_requested` and `retry_count`.

- `Kept`: the intent stays and the retry count does not go down;
- `kept_of_careful`: every decision keeps both, except these two on a record that has something to forget;
- `nothingLost_step_iff`: one call loses nothing exactly when it is `Careful`;
- `intentNeverLost_iff`: a run loses nothing, and records each intent once, exactly when all its calls are careful;
- `forgottenIntent`: the run in which an intent is forgotten.
-/
import LlmAgent.Runs.StoreRefinement

namespace LlmAgent

open Core

/-- the intent stays, and the retry count does not go down -/
def Kept (st st' : RunStatus) : Prop :=
  (st.cancelRequested = true → st'.cancelRequested = true) ∧
    ∀ n, st.retryCount = some n → ∃ n', st'.retryCount = some n' ∧ n ≤ n'

theorem Kept.refl (st : RunStatus) : Kept st st := ⟨id, fun n hn => ⟨n, hn, le_refl n⟩⟩

theorem Kept.trans {a b c : RunStatus} (h : Kept a b) (h' : Kept b c) : Kept a c := by
  refine ⟨fun ha => h'.1 (h.1 ha), fun n hn => ?_⟩
  obtain ⟨m, hm, hnm⟩ := h.2 n hn
  obtain ⟨k, hk, hmk⟩ := h'.2 m hm
  exact ⟨k, hk, hnm.trans hmk⟩

/-- every record of `rt` is kept in `rt'` -/
def NothingLost (rt rt' : InMemoryRuntime) : Prop :=
  ∀ r st, rt.record? r = some st → ∃ st', rt'.record? r = some st' ∧ Kept st st'

theorem NothingLost.refl (rt : InMemoryRuntime) : NothingLost rt rt := fun _ st h => ⟨st, h, Kept.refl st⟩

theorem NothingLost.trans {a b c : InMemoryRuntime} (h : NothingLost a b) (h' : NothingLost b c) :
    NothingLost a c := by
  intro r st hst
  obtain ⟨st₁, hst₁, hk₁⟩ := h r st hst
  obtain ⟨st₂, hst₂, hk₂⟩ := h' r st₁ hst₁
  exact ⟨st₂, hst₂, hk₁.trans hk₂⟩

/-! ## One decision -/

/-- the record has nothing that the decision would forget -/
def Act.Careful (st : RunStatus) : Act → Prop
  | .enqueue _ => st.cancelRequested = false ∧ st.retryCount = some 0
  | .markCancel _ => st.cancelRequested = false ∧ st.retryCount = some 0
  | _ => True

/-- **A careful decision keeps the intent and the retry count.** -/
theorem kept_of_careful {st : RunStatus} {a : Act} (hc : a.Careful st) : Kept st (a.record st) := by
  cases a with
  | enqueue =>
    refine ⟨fun h => absurd h (by rw [hc.1]; decide), fun n hn => ⟨0, rfl, ?_⟩⟩
    obtain rfl := Option.some.inj (hn.symm.trans hc.2)
    exact le_refl 0
  | markCancel =>
    refine ⟨fun h => absurd h (by rw [hc.1]; decide), fun n hn => ⟨0, rfl, ?_⟩⟩
    obtain rfl := Option.some.inj (hn.symm.trans hc.2)
    exact le_refl 0
  | requestCancel => exact ⟨fun _ => rfl, fun n hn => ⟨n, hn, le_refl n⟩⟩
  | expire =>
    refine ⟨id, fun n hn => ⟨n + 1, ?_, by omega⟩⟩
    simp [Act.record, hn]
  | create => exact Kept.refl st
  | drop => exact ⟨id, fun n hn => ⟨n, hn, le_refl n⟩⟩
  | claim => exact ⟨id, fun n hn => ⟨n, hn, le_refl n⟩⟩
  | renew => exact ⟨id, fun n hn => ⟨n, hn, le_refl n⟩⟩
  | loseClaim => exact Kept.refl st
  | succeed => exact ⟨id, fun n hn => ⟨n, hn, le_refl n⟩⟩
  | fail => exact ⟨id, fun n hn => ⟨n, hn, le_refl n⟩⟩
  | cancel => exact ⟨id, fun n hn => ⟨n, hn, le_refl n⟩⟩
  | emit => exact Kept.refl st

/-- what is known of a decision of a careful call, where it is taken -/
def CarefulAt (W : UUID → Option RunView) (p : UUID × Act) : Prop := ∀ v, W p.1 = some v → p.2.Careful v.record

/-! ## One call -/

/-- no intent and no retry count is there to be forgotten: `mark_enqueued` meets a run without an intent, and
`mark_cancelled` a run without an intent that was never retried -/
def Careful (rt : InMemoryRuntime) : StoreOp → Prop
  | .markEnqueued runId _ =>
    ∀ st, rt.record? runId = some st → st.status = .created → st.cancelRequested = false
  | .markCancelled runId _ =>
    ∀ st, rt.record? runId = some st → st.status ∉ terminalRunStatuses →
      st.cancelRequested = false ∧ st.retryCount = some 0
  | _ => True

theorem along_careful {l : List (UUID × Act)} (h : ∀ p ∈ l, ∀ st, p.2.Careful st) (W : UUID → Option RunView) :
    lifecycles.machine.Along CarefulAt W l :=
  along_of_acts (C := fun a st => a.Careful st) h W

/-- the decisions of a careful call are careful -/
theorem decisions_careful {rt : InMemoryRuntime} (hgood : Good rt) {op : StoreOp} (hc : Careful rt op) :
    lifecycles.machine.Along CarefulAt rt.view (op.decisions rt) := by
  cases op with
  | markEnqueued r now =>
    refine along_taken (C := fun a st => a.Careful st) fun v hv hg => ?_
    exact ⟨hc v.record (record?_of_view hv) hg, (hgood.sound r v hv).fresh hg⟩
  | markCancelled r now =>
    refine along_taken (C := fun a st => a.Careful st) fun v hv hg => ?_
    exact hc v.record (record?_of_view hv) fun ht => not_allowed_of_terminal ht _ hg
  | orchestratorCreateRun => exact along_created (C := fun a st => a.Careful st) ⟨rfl, rfl⟩
  | createRun => exact along_careful (fun p hp st => by rw [causes_of_mem hp]; trivial) _
  | requestCancellation => exact along_careful (fun p hp st => by rw [causes_of_mem hp]; trivial) _
  | orchestratorCancelRun => exact along_careful (fun p hp st => by rw [causes_of_mem hp]; trivial) _
  | setSucceeded => exact along_careful (fun p hp st => by rw [causes_of_mem hp]; trivial) _
  | setFailed => exact along_careful (fun p hp st => by rw [causes_of_mem hp]; trivial) _
  | setCancelled => exact along_careful (fun p hp st => by rw [causes_of_mem hp]; trivial) _
  | emitEvent => exact along_careful (fun p hp st => by rw [causes_of_mem hp]; trivial) _
  | claimRun =>
    refine along_careful (fun p hp st => ?_) _
    rcases causes_of_mem hp with h | h | h <;> rw [h] <;> trivial
  | heartbeat =>
    refine along_careful (fun p hp st => ?_) _
    rcases causes_of_mem hp with h | h <;> rw [h] <;> trivial
  | getStatus => trivial

/-- a call that is not careful loses something -/
theorem careful_of_nothingLost {rt : InMemoryRuntime} (hgood : Good rt) {op : StoreOp}
    (hlost : NothingLost rt (stores.step rt op)) : Careful rt op := by
  cases op with
  | markEnqueued r now =>
    intro st hst hcreated
    obtain ⟨v, hv, rfl⟩ := exists_view hst
    have hview : (stores.step rt (.markEnqueued r now)).view r = some (v.effect (.enqueue now)) :=
      (exec_performs hgood (.markEnqueued r now)).took hv hcreated
    obtain ⟨st', hst', hk⟩ := hlost r _ hst
    obtain rfl := Option.some.inj ((record?_of_view hview).symm.trans hst')
    exact Bool.eq_false_iff.2 fun hflag => Bool.false_ne_true (hk.1 hflag)
  | markCancelled r now =>
    intro st hst hnt
    obtain ⟨v, hv, rfl⟩ := exists_view hst
    have hsound := hgood.sound r v hv
    have hview : (stores.step rt (.markCancelled r now)).view r = some (v.effect (.markCancel now)) :=
      (exec_performs hgood (.markCancelled r now)).took hv (allowed_cancelled hsound.settled hnt)
    obtain ⟨st', hst', hk⟩ := hlost r _ hst
    obtain rfl := Option.some.inj ((record?_of_view hview).symm.trans hst')
    refine ⟨Bool.eq_false_iff.2 fun hflag => Bool.false_ne_true (hk.1 hflag), ?_⟩
    -- the rebuilt record has no retries, and it has at least as many as before
    obtain ⟨n, hn⟩ := hsound.retries
    obtain ⟨m, hm, hnm⟩ := hk.2 n hn
    obtain rfl : (0 : ℤ) = m := Option.some.inj hm
    have hzero : (n : ℤ) = 0 := by omega
    rw [hn, hzero]
  | _ => trivial

theorem nothingLost_of_careful {rt : InMemoryRuntime} (hgood : Good rt) {op : StoreOp} (hc : Careful rt op) :
    NothingLost rt (stores.step rt op) := by
  intro r st hst
  obtain ⟨v, hv, rfl⟩ := exists_view hst
  have hkept : ∀ W a, CarefulAt W (r, a) → (∃ u, W r = some u ∧ Kept v.record u.record) →
      (lifecycle r).Enabled (W r) a → ∃ u, (lifecycle r).apply (W r) a = some u ∧ Kept v.record u.record := by
    intro W a hcareful hW _
    obtain ⟨u, hu, hk⟩ := hW
    rw [hu]
    exact ⟨u.effect a, rfl, hk.trans (kept_of_careful (hcareful u hu))⟩
  obtain ⟨v', hv', hk⟩ := storesRefine.local_step (I := fun o => ∃ u, o = some u ∧ Kept v.record u.record) hgood
    (fun l hl => hl ▸ decisions_careful hgood hc) hkept ⟨v, hv, Kept.refl _⟩
  exact ⟨v'.record, record?_of_view hv', hk⟩

/-- **One call loses nothing exactly when it is careful.** -/
theorem nothingLost_step_iff {rt : InMemoryRuntime} (hgood : Good rt) (op : StoreOp) :
    NothingLost rt (stores.step rt op) ↔ Careful rt op :=
  ⟨careful_of_nothingLost hgood, nothingLost_of_careful hgood⟩

/-! ## Intents are recorded once -/

/-- the call records a cancellation intent for run `r`: it answers True -/
def RecordsIntent (r : UUID) (rt : InMemoryRuntime) (op : StoreOp) : Prop :=
  (∃ now, op = .requestCancellation r now ∨ op = .orchestratorCancelRun r now) ∧ stores.reply rt op = .flag true

/-- it does so when the run is there, not terminal, and without an intent; then the intent is stored -/
theorem RecordsIntent.step {rt : InMemoryRuntime} (hgood : Good rt) {r : UUID} {op : StoreOp}
    (h : RecordsIntent r rt op) : ∃ v, rt.view r = some v ∧ v.record.cancelRequested = false ∧
      ∃ st, (stores.step rt op).record? r = some st ∧ st.cancelRequested = true := by
  obtain ⟨⟨now, rfl | rfl⟩, hreply⟩ := h
  · obtain ⟨v, hv, hg, hview⟩ := (requestCancellation_spec hgood r now).view_of_flag hgood hreply
    exact ⟨v, hv, hg.2, _, record?_of_view hview, rfl⟩
  · obtain ⟨v, hv, hg, hview⟩ := (orchestratorCancelRun_spec hgood r now).view_of_flag hgood hreply
    exact ⟨v, hv, hg.2, _, record?_of_view hview, rfl⟩

theorem nothingLost_run {rt : InMemoryRuntime} (hgood : Good rt) {ops : List StoreOp}
    (h : stores.Along Careful rt ops) : NothingLost rt (stores.run rt ops) := by
  refine Machine.run_rel NothingLost.refl NothingLost.trans ?_
  exact Machine.along_of_inv (I := Good) (fun s op hs _ => (exec_performs hs op).good hs)
    (fun s op hs hc => (nothingLost_step_iff hs op).2 hc) hgood h

/-- the stream of a run holds at most as many intent events as its record holds intents -/
def IntentCounted (o : Option RunView) : Prop :=
  ∀ v, o = some v → countEvents "cancel requested" v.events ≤ v.record.cancelRequested.toNat

theorem intentCounted_step {W : UUID → Option RunView} {r : UUID} {a : Act} (hc : CarefulAt W (r, a))
    (hf : a.Foreign) (hI : IntentCounted (W r)) (hen : (lifecycle r).Enabled (W r) a) :
    IntentCounted ((lifecycle r).apply (W r) a) := by
  intro v' hv'
  rcases lifecycle_cases hen with ⟨userId, now, hnone, rfl⟩ | ⟨v, hv, hg⟩
  · rw [hnone] at hv'
    obtain rfl : RunView.created r userId now = v' := Option.some.inj hv'
    simp [countEvents, RunView.created]
  · rw [hv] at hv'
    obtain rfl : v.effect a = v' := Option.some.inj hv'
    have hk := kept_of_careful (hc v hv)
    have hle := hI v hv
    rw [countEvents_effect]
    by_cases hrc : ∃ now, a = .requestCancel now
    · obtain ⟨now, rfl⟩ := hrc
      rw [hg.2] at hle
      simpa [RunView.effect, Act.record, Act.eventType, Act.event] using hle
    · have htype : a.eventType ≠ some "cancel requested" := by
        cases a with
        | requestCancel now => exact absurd ⟨now, rfl⟩ hrc
        | emit eventType payload now =>
          intro h
          have := Option.some.inj h
          exact hf (by rw [show eventType = "cancel requested" from this]; decide)
        | _ => simp [Act.eventType, Act.event]
      rw [if_neg htype, Nat.add_zero]
      have hmono : v.record.cancelRequested.toNat ≤ (a.record v.record).cancelRequested.toNat := by
        cases hflag : v.record.cancelRequested with
        | false => exact Nat.zero_le _
        | true => rw [hk.1 hflag]
      exact hle.trans hmono

theorem intentCounted_run {rt : InMemoryRuntime} (hgood : Good rt) {r : UUID} (hI : IntentCounted (rt.view r))
    {ops : List StoreOp} (hc : stores.Along Careful rt ops) (hf : ∀ op ∈ ops, op.Foreign) :
    IntentCounted ((stores.run rt ops).view r) := by
  refine storesRefine.local_run (k := r) (P := fun rt op => Careful rt op ∧ op.Foreign)
    (Q := fun W p => CarefulAt W p ∧ p.2.Foreign) ?_ ?_ hgood hI (hc.and (Machine.along_of_mem hf rt))
  · intro rt op hgood hop l hl
    subst hl
    exact (decisions_careful hgood hop.1).and (Machine.along_of_mem (fun p hp => foreign_of_mem hop.2 hp) _)
  · exact fun W a hQ hI hen => intentCounted_step hQ.1 hQ.2 hI hen

/-! ## The whole run -/

/-- in the run `ops` from the empty stores, no intent and no retry is ever lost between an earlier and a later state,
each run's intent is recorded at most once, and at most one event says so -/
def IntentNeverLost (ops : List StoreOp) : Prop :=
  (∀ pre mid post, ops = pre ++ mid ++ post → NothingLost (stores.run createDefaultInMemoryRuntime pre)
    (stores.run createDefaultInMemoryRuntime (pre ++ mid))) ∧
  (∀ r pre op mid op' post, ops = pre ++ op :: (mid ++ op' :: post) →
    RecordsIntent r (stores.run createDefaultInMemoryRuntime pre) op →
    ¬ RecordsIntent r (stores.run createDefaultInMemoryRuntime (pre ++ op :: mid)) op') ∧
  ∀ r pre post, ops = pre ++ post →
    countEvents "cancel requested" ((stores.run createDefaultInMemoryRuntime pre).stream r) ≤ 1

theorem recorded_once {rt : InMemoryRuntime} (hgood : Good rt) {r : UUID} {op op' : StoreOp} {mid : List StoreOp}
    (hc : stores.Along Careful (stores.step rt op) mid) (h : RecordsIntent r rt op) :
    ¬ RecordsIntent r (stores.run rt (op :: mid)) op' := by
  intro h'
  obtain ⟨-, -, -, st, hst, hflag⟩ := h.step hgood
  obtain ⟨v, hv, hno, -⟩ := h'.step (storesRefine.good_run hgood (op :: mid))
  obtain ⟨st', hst', hk⟩ := nothingLost_run (storesRefine.good_run hgood [op]) hc r st hst
  rw [Machine.run_cons] at hv
  obtain rfl := Option.some.inj ((record?_of_view hv).symm.trans hst')
  exact Bool.false_ne_true (hno.symm.trans (hk.1 hflag))

/-- **Intents and retry counts are kept exactly by careful runs.** -/
theorem intentNeverLost_iff (ops : List StoreOp) (hforeign : ∀ op ∈ ops, op.Foreign) :
    IntentNeverLost ops ↔ stores.Along Careful createDefaultInMemoryRuntime ops := by
  constructor
  · intro h
    refine (Machine.along_iff _ _).2 fun pre op post hops => ?_
    have hlost := h.1 pre [op] post (by simp [hops])
    rw [Machine.run_snoc] at hlost
    exact (nothingLost_step_iff (reachable_good pre) op).1 hlost
  · intro h
    refine ⟨?_, ?_, ?_⟩
    · intro pre mid post hops
      subst hops
      rw [Machine.along_append, Machine.along_append] at h
      rw [Machine.run_append]
      exact nothingLost_run (reachable_good pre) h.1.2
    · intro r pre op mid op' post hops hrec
      subst hops
      rw [Machine.along_append, Machine.along_cons, Machine.along_append] at h
      rw [Machine.run_append]
      exact recorded_once (reachable_good pre) h.2.2.1 hrec
    · intro r pre post hops
      subst hops
      rw [Machine.along_append] at h
      have hI := intentCounted_run (r := r) good_default (by intro v hv; cases hv) h.1
        fun op hop => hforeign op (List.mem_append_left post hop)
      cases hv : (stores.run createDefaultInMemoryRuntime pre).view r with
      | none =>
        rw [stream_of_unknown (reachable_good pre).toStructural hv]
        exact Nat.zero_le 1
      | some v =>
        obtain ⟨-, hevents, -⟩ := view_some_iff.1 hv
        rw [← hevents]
        exact (hI v hv).trans (Bool.toNat_le _)

/-- an intent recorded while the run is CREATED is gone after `mark_enqueued`, and is recorded again -/
def forgottenIntent : List StoreOp :=
  [.createRun 1 "user_1" 10, .requestCancellation 1 20, .markEnqueued 1 30, .requestCancellation 1 40]

/-- a cautious run of the same calls -/
def keptIntent : List StoreOp :=
  [.createRun 1 "user_1" 10, .markEnqueued 1 20, .requestCancellation 1 30, .claimRun "w1" 40]

theorem intent_forgotten : ¬ IntentNeverLost forgottenIntent := by
  intro h
  obtain ⟨st', hst', hk⟩ := h.1 [.createRun 1 "user_1" 10, .requestCancellation 1 20] [.markEnqueued 1 30]
    [.requestCancellation 1 40] rfl 1 _ rfl
  cases hst'
  exact Bool.false_ne_true (hk.1 rfl)

theorem intentNeverLost_kept : IntentNeverLost keptIntent := by
  refine (intentNeverLost_iff keptIntent (by simp [keptIntent, StoreOp.Foreign])).2
    ⟨trivial, ?_, trivial, trivial, trivial⟩
  intro st hst _
  cases hst
  rfl

end LlmAgent
