/-
The abstraction from the shared runtime to the life cycles of its runs, and what it means for a move of the runtime to
be a list of decisions.

`InMemoryRuntime.view` is the abstraction: the record, the stream and the written statuses of each run.
`Performs rt rt' l` says that going from `rt` to `rt'` is, seen through the views, the legal list of decisions `l`.

- `Performs.good`: decisions keep the runtime in order (`Good`);
- `performs_write`, `performs_log`, `performs_write_log`: writing the decided record, appending the decided event, and
  both, perform the decision.
-/
import LlmAgent.Runs.Lifecycle
import LlmAgent.Runs.StoreMachine

namespace LlmAgent

open Core

/-! ## The abstraction -/

/-- all there is to know about one run of the runtime -/
def InMemoryRuntime.view (rt : InMemoryRuntime) (runId : UUID) : Option RunView :=
  (rt.record? runId).map fun st => ⟨st, rt.stream runId, rt.writesOf runId⟩

/-- the life cycles of all runs side by side -/
abbrev lifecycles : Automaton (UUID → Option RunView) (UUID × Act) := Automaton.family lifecycle

/-- records and streams go together, and only stored runs have been written -/
structure Structural (rt : InMemoryRuntime) : Prop where
  known : ∀ r, r ∈ rt.internalRunStorage → rt.internalEventLogs.Known r
  stored : ∀ r, r ∈ rt.internalEventLogs.internalRunEvents → r ∈ rt.internalRunStorage
  unwritten : ∀ r, r ∉ rt.internalRunStorage → rt.writesOf r = []

/-- a runtime in order: the structure above, and every run sound and on its traced path -/
structure Good (rt : InMemoryRuntime) : Prop extends Structural rt where
  sound : ∀ r v, rt.view r = some v → v.Sound r
  traced : ∀ r v, rt.view r = some v → v.Traced

theorem view_some_iff {rt : InMemoryRuntime} {r : UUID} {v : RunView} : rt.view r = some v ↔
    rt.record? r = some v.record ∧ v.events = rt.stream r ∧ v.writes = rt.writesOf r := by
  obtain ⟨st, evs, ws⟩ := v
  simp only [InMemoryRuntime.view, Option.map_eq_some_iff, RunView.mk.injEq]
  constructor
  · rintro ⟨st', h, rfl, rfl, rfl⟩; exact ⟨h, rfl, rfl⟩
  · rintro ⟨h, rfl, rfl⟩; exact ⟨st, h, rfl, rfl, rfl⟩

theorem view_eq_none_iff {rt : InMemoryRuntime} {r : UUID} : rt.view r = none ↔ r ∉ rt.internalRunStorage := by
  rw [InMemoryRuntime.view, Option.map_eq_none_iff, InMemoryRuntime.record?, Dict.get?_eq_none]

theorem record?_of_view {rt : InMemoryRuntime} {r : UUID} {v : RunView} (h : rt.view r = some v) :
    rt.record? r = some v.record := (view_some_iff.1 h).1

theorem status?_of_view {rt : InMemoryRuntime} {r : UUID} {v : RunView} (h : rt.view r = some v) :
    rt.status? r = some v.record.status := by
  rw [InMemoryRuntime.status?, record?_of_view h, Option.map_some]

theorem status?_eq_some_iff {rt : InMemoryRuntime} {r : UUID} {status : RunStatusCode} :
    rt.status? r = some status ↔ ∃ v, rt.view r = some v ∧ v.record.status = status := by
  constructor
  · intro h
    obtain ⟨st, hst, rfl⟩ := Option.map_eq_some_iff.1 h
    exact ⟨⟨st, rt.stream r, rt.writesOf r⟩, view_some_iff.2 ⟨hst, rfl, rfl⟩, rfl⟩
  · rintro ⟨v, hv, rfl⟩
    exact status?_of_view hv

theorem exists_view {rt : InMemoryRuntime} {r : UUID} {st : RunStatus} (h : rt.record? r = some st) :
    ∃ v, rt.view r = some v ∧ v.record = st :=
  ⟨⟨st, rt.stream r, rt.writesOf r⟩, view_some_iff.2 ⟨h, rfl, rfl⟩, rfl⟩

theorem mem_of_view {rt : InMemoryRuntime} {r : UUID} {v : RunView} (h : rt.view r = some v) :
    r ∈ rt.internalRunStorage := (Dict.mem_iff _ _).2 ⟨_, record?_of_view h⟩

/-- an unknown run has an empty stream -/
theorem stream_of_unknown {rt : InMemoryRuntime} (h : Structural rt) {r : UUID} (hv : rt.view r = none) :
    rt.stream r = [] := by
  have hno : r ∉ rt.internalEventLogs.internalRunEvents := fun hmem => view_eq_none_iff.1 hv (h.stored r hmem)
  simp [InMemoryRuntime.stream, InMemoryRunEventLog.stream, (Dict.get?_eq_none _ _).2 hno]

theorem view_congr {rt rt' : InMemoryRuntime} {r : UUID} (hrec : rt'.record? r = rt.record? r)
    (hstream : rt'.stream r = rt.stream r) (hwrites : rt'.writesOf r = rt.writesOf r) : rt'.view r = rt.view r := by
  rw [InMemoryRuntime.view, InMemoryRuntime.view, hrec, hstream, hwrites]

/-- the runs a list of decisions creates, in order -/
def createdIn (l : List (UUID × Act)) : List UUID :=
  l.filterMap fun p => match p.2 with
    | .create _ _ => some p.1
    | _ => none

/-- the move from `rt` to `rt'` is the legal list of decisions `l` -/
structure Performs (rt rt' : InMemoryRuntime) (l : List (UUID × Act)) : Prop where
  structural : Structural rt'
  legal : lifecycles.Legal rt.view l
  view : rt'.view = lifecycles.run rt.view l
  keys : rt'.internalRunStorage.keys = rt.internalRunStorage.keys ++ createdIn l

theorem Performs.refl {rt : InMemoryRuntime} (h : Structural rt) : Performs rt rt [] :=
  ⟨h, trivial, rfl, (List.append_nil _).symm⟩

theorem Performs.trans {rt rt' rt'' : InMemoryRuntime} {l m : List (UUID × Act)} (h : Performs rt rt' l)
    (h' : Performs rt' rt'' m) : Performs rt rt'' (l ++ m) where
  structural := h'.structural
  legal := (Automaton.legal_append _ _ _ _).2 ⟨h.legal, h.view ▸ h'.legal⟩
  view := by rw [h'.view, h.view, Automaton.run_append]
  keys := by rw [h'.keys, h.keys, createdIn, createdIn, createdIn, List.filterMap_append, List.append_assoc]

/-- seen from one run, a move is the decisions about that run -/
theorem Performs.view_apply {rt rt' : InMemoryRuntime} {l : List (UUID × Act)} (h : Performs rt rt' l) (r : UUID) :
    rt'.view r = (lifecycle r).run (rt.view r) (Automaton.proj r l) := by
  rw [h.view, Automaton.family_run_apply]

/-- one decision leaves every other run as it was -/
theorem Performs.frame {rt rt' : InMemoryRuntime} {r j : UUID} {a : Act} (h : Performs rt rt' [(r, a)]) (hj : j ≠ r) :
    rt'.view j = rt.view j := by
  rw [h.view_apply, Automaton.proj_cons_ne a [] (Ne.symm hj)]
  rfl

/-- the run a decision is about, after it -/
theorem Performs.effect {rt rt' : InMemoryRuntime} {r : UUID} {a : Act} {v : RunView} (h : Performs rt rt' [(r, a)])
    (hv : rt.view r = some v) : rt'.view r = some (v.effect a) := by
  rw [h.view_apply, Automaton.proj_cons_self, hv]
  rfl

theorem Performs.view_one {rt rt' : InMemoryRuntime} {r : UUID} {a : Act} {v : RunView}
    (h : Performs rt rt' [(r, a)]) (hv : rt.view r = some v) :
    rt'.view = Function.update rt.view r (some (v.effect a)) := by
  funext j
  by_cases hj : j = r
  · rw [hj, h.effect hv, Function.update_self]
  · rw [h.frame hj, Function.update_of_ne hj]

/-- **What the decisions about a run keep, the move keeps**: `C` is what is known of these decisions. -/
theorem Performs.keeps {rt rt' : InMemoryRuntime} {l : List (UUID × Act)} (h : Performs rt rt' l) {r : UUID}
    {I : Option RunView → Prop} {C : Act → Prop}
    (hact : ∀ o a, C a → I o → (lifecycle r).Enabled o a → I ((lifecycle r).apply o a))
    (hC : ∀ a, (r, a) ∈ l → C a) (hI : I (rt.view r)) : I (rt'.view r) := by
  rw [h.view]
  exact Automaton.family_keeps hact h.legal hC hI

/-- **Decisions keep the runtime in order.** -/
theorem Performs.good {rt rt' : InMemoryRuntime} {l : List (UUID × Act)} (hg : Good rt) (h : Performs rt rt' l) :
    Good rt' where
  toStructural := h.structural
  sound r := by
    rw [h.view]
    exact Automaton.family_keeps' (I := fun o => ∀ v, o = some v → v.Sound r)
      (fun o a => lifecycle_step (fun userId now _ => created_sound r userId now) fun v hv _ => effect_sound a hv)
      h.legal (hg.sound r)
  traced r := by
    rw [h.view]
    exact Automaton.family_keeps' (I := fun o => ∀ v, o = some v → v.Traced)
      (fun o a => lifecycle_step (fun userId now _ => created_traced r userId now) fun v hv hg => effect_traced hg hv)
      h.legal (hg.traced r)

/-! ## Writing a record and appending an event -/

/-- the runtime after `self._runs[run_id] = run_status` -/
def InMemoryRuntime.put (rt : InMemoryRuntime) (runId : UUID) (runStatus : RunStatus) : InMemoryRuntime :=
  { rt with
    internalRunStorage := rt.internalRunStorage.set runId runStatus
    written := rt.written ++ [(runId, runStatus.status)] }

/-- the runtime after an append to a known stream -/
def InMemoryRuntime.emit (rt : InMemoryRuntime) (runId : UUID) (e : String × List (String × String) × UnixTs) :
    InMemoryRuntime :=
  { rt with internalEventLogs := rt.internalEventLogs.push runId e.1 e.2.1 e.2.2 }

theorem writesOf_put (rt : InMemoryRuntime) (r j : UUID) (st : RunStatus) :
    (rt.put r st).writesOf j = if j = r then rt.writesOf j ++ [st.status] else rt.writesOf j := by
  by_cases h : j = r
  · simp [InMemoryRuntime.writesOf, InMemoryRuntime.put, h]
  · simp [InMemoryRuntime.writesOf, InMemoryRuntime.put, h, Ne.symm h]

theorem view_put (rt : InMemoryRuntime) (r : UUID) (st : RunStatus) :
    (rt.put r st).view = Function.update rt.view r (some ⟨st, rt.stream r, rt.writesOf r ++ [st.status]⟩) := by
  funext j
  by_cases h : j = r
  · subst h
    rw [Function.update_self, InMemoryRuntime.view, writesOf_put, if_pos rfl]
    simp [InMemoryRuntime.record?, InMemoryRuntime.put, InMemoryRuntime.stream]
  · rw [Function.update_of_ne h]
    exact view_congr (Dict.get?_set_ne _ _ h) rfl ((writesOf_put rt r j st).trans (if_neg h))

theorem view_emit {rt : InMemoryRuntime} {r : UUID} {v : RunView} (hv : rt.view r = some v) (hid : v.record.id = r)
    (e : String × List (String × String) × UnixTs) :
    (rt.emit r e).view = Function.update rt.view r
      (some { v with events := v.events ++ [⟨v.record.id, v.events.length + 1, e.1, e.2.1, e.2.2⟩] }) := by
  obtain ⟨hrec, hev, hw⟩ := view_some_iff.1 hv
  funext j
  by_cases h : j = r
  · subst h
    rw [Function.update_self]
    refine view_some_iff.2 ⟨hrec, ?_, hw⟩
    simp [InMemoryRuntime.stream, InMemoryRuntime.emit, InMemoryRunEventLog.nextEvent, hid, hev]
  · rw [Function.update_of_ne h]
    exact view_congr rfl (InMemoryRunEventLog.stream_push_ne _ _ _ _ h) rfl

theorem structural_put {rt : InMemoryRuntime} (h : Structural rt) {r : UUID} (hr : r ∈ rt.internalRunStorage)
    (st : RunStatus) : Structural (rt.put r st) := by
  have hkeys : ∀ j, j ∈ (rt.put r st).internalRunStorage ↔ j ∈ rt.internalRunStorage := by
    intro j
    change j ∈ (rt.internalRunStorage.set r st).keys ↔ j ∈ rt.internalRunStorage.keys
    rw [Dict.keys_set_of_mem _ _ _ hr]
  refine ⟨fun j hj => h.known j ((hkeys j).1 hj), fun j hj => (hkeys j).2 (h.stored j hj), fun j hj => ?_⟩
  rw [hkeys] at hj
  rw [writesOf_put, if_neg (fun he : j = r => hj (he ▸ hr)), h.unwritten j hj]

theorem structural_emit {rt : InMemoryRuntime} (h : Structural rt) {r : UUID} (hr : r ∈ rt.internalRunStorage)
    (e : String × List (String × String) × UnixTs) : Structural (rt.emit r e) := by
  refine ⟨fun j hj => InMemoryRunEventLog.known_push _ _ _ (h.known j hj), fun j hj => ?_, h.unwritten⟩
  rcases (InMemoryRunEventLog.mem_push _ _ _ _ _ _).1 hj with rfl | hj
  · exact hr
  · exact h.stored j hj

/-! ## One decision -/

theorem keys_put {rt : InMemoryRuntime} {r : UUID} (hr : r ∈ rt.internalRunStorage) (st : RunStatus) :
    (rt.put r st).internalRunStorage.keys = rt.internalRunStorage.keys :=
  Dict.keys_set_of_mem _ _ _ hr

/-- a guarded decision does not create a run -/
theorem createdIn_of_guard {st : RunStatus} {a : Act} (hg : a.Guard st) (r : UUID) : createdIn [(r, a)] = [] := by
  cases a with
  | create => exact hg.elim
  | _ => rfl

/-- a move whose views differ by the effect of a guarded decision performs it -/
theorem performs_one {rt rt' : InMemoryRuntime} {r : UUID} {v : RunView} {a : Act} (hs : Structural rt')
    (hv : rt.view r = some v) (hg : a.Guard v.record)
    (hview : rt'.view = Function.update rt.view r (some (v.effect a)))
    (hkeys : rt'.internalRunStorage.keys = rt.internalRunStorage.keys) : Performs rt rt' [(r, a)] where
  structural := hs
  legal := by
    refine ⟨?_, trivial⟩
    change (lifecycle r).Enabled (rt.view r) a
    rw [hv]
    exact hg
  view := by
    rw [hview, Automaton.run_cons, Automaton.run_nil]
    change _ = Function.update rt.view r ((lifecycle r).apply (rt.view r) a)
    rw [hv]
    rfl
  keys := by rw [hkeys, createdIn_of_guard hg, List.append_nil]

section OneDecision

variable {rt : InMemoryRuntime} {r : UUID} {v : RunView} {a : Act}

theorem performs_write (hgood : Good rt) (hv : rt.view r = some v) (hg : a.Guard v.record)
    (hst : a.statuses v.record = [(a.record v.record).status]) (hev : a.event = none) :
    Performs rt (rt.put r (a.record v.record)) [(r, a)] := by
  obtain ⟨-, hevents, hwrites⟩ := view_some_iff.1 hv
  have hr := mem_of_view hv
  refine performs_one (structural_put hgood.toStructural hr _) hv hg ?_ (keys_put hr _)
  rw [view_put, RunView.effect, RunView.nextEvents, hev, hst, hevents, hwrites]
  simp

theorem performs_log (hgood : Good rt) (hv : rt.view r = some v) (hg : a.Guard v.record)
    (hst : a.statuses v.record = []) (hrec : a.record v.record = v.record)
    {e : String × List (String × String) × UnixTs} (hev : a.event = some e) :
    Performs rt (rt.emit r e) [(r, a)] := by
  have hr := mem_of_view hv
  refine performs_one (structural_emit hgood.toStructural hr _) hv hg ?_ rfl
  rw [view_emit hv (hgood.sound r v hv).id, RunView.effect, RunView.nextEvents, hev, hst, hrec]
  simp

theorem performs_write_log (hgood : Good rt) (hv : rt.view r = some v) (hg : a.Guard v.record)
    (hst : a.statuses v.record = [(a.record v.record).status])
    {e : String × List (String × String) × UnixTs} (hev : a.event = some e) :
    Performs rt ((rt.put r (a.record v.record)).emit r e) [(r, a)] := by
  obtain ⟨-, hevents, hwrites⟩ := view_some_iff.1 hv
  have hr := mem_of_view hv
  have hput := structural_put hgood.toStructural hr (a.record v.record)
  have hrput : r ∈ (rt.put r (a.record v.record)).internalRunStorage := by
    change r ∈ Dict.keys _
    rw [keys_put hr]
    exact hr
  refine performs_one (structural_emit hput hrput _) hv hg ?_ (keys_put hr _)
  have hvput : (rt.put r (a.record v.record)).view r =
      some ⟨a.record v.record, rt.stream r, rt.writesOf r ++ [(a.record v.record).status]⟩ := by
    rw [view_put, Function.update_self]
  have hid : (a.record v.record).id = r := (record_id v.record a).trans (hgood.sound r v hv).id
  rw [view_emit hvput hid, view_put, Function.update_idem, RunView.effect, RunView.nextEvents, hev, hst, hevents,
    hwrites, record_id]
  simp

end OneDecision

end LlmAgent
