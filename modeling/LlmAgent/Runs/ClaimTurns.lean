/-
What one turn of a `claim_run` task does to the shared memory, with other calls in between.

- `claimNext_spec`, `recoverNext_spec`: where the two loops stop next;
- `resume_spec`: every turn is one `ClaimStep`;
- `ClaimStep.rank`: a turn brings an unfinished task nearer to its end;
- `claimRun_atOnce`: over a log that never suspends the turns of the task are `claim_run`.
-/
import LlmAgent.Runs.IntakeCells

namespace LlmAgent

open Core

/-! ## What the loops look for -/

def queued (record : Option RunStatus) : Bool := record.any fun st => decide (st.status = .enqueued)

def intended (record : Option RunStatus) : Bool := record.any fun st => st.cancelRequested

/-- the run is running, and its lease has run out when the call checks it -/
def ClaimCall.overdue (call : ClaimCall) (r : UUID) (record : Option RunStatus) : Bool :=
  record.any fun st => decide (st.status = .running) && hasClaimExpired st (call.leaseClock r)

theorem queued_iff {record : Option RunStatus} :
    queued record = true ↔ ∃ st, record = some st ∧ st.status = .enqueued := by
  cases record <;> simp [queued]

theorem overdue_iff {call : ClaimCall} {r : UUID} {record : Option RunStatus} :
    call.overdue r record = true ↔
      ∃ st, record = some st ∧ st.status = .running ∧ hasClaimExpired st (call.leaseClock r) = true := by
  cases record <;> simp [ClaimCall.overdue]

theorem transitioned_cancelled (st : RunStatus) : transitioned st .cancelled {} = (Act.drop 0).record st := rfl

theorem transitioned_claimed (call : ClaimCall) (r : UUID) (st : RunStatus) :
    transitioned st .running (call.claimRequest r) = (Act.claim call.workerId (call.claimClock r)).record st := rfl

/-! ## The loops up to their next append -/

/-- where the second loop stops -/
inductive SecondScan (call : ClaimCall) (reached rest : List UUID) (size : ℕ) (rt : InMemoryRuntime) :
    ClaimTask × InMemoryRuntime → Prop where
  | none (hrest : ∀ q ∈ rest, queued (rt.record? q) = false) :
    SecondScan call reached rest size rt (.finished (reached ++ rest) (.ok .none), rt)
  | cancel (skipped : List UUID) (r : UUID) (rest' : List UUID) (st : RunStatus) (hsplit : rest = skipped ++ r :: rest')
    (hskipped : ∀ q ∈ skipped, queued (rt.record? q) = false) (hrecord : rt.record? r = some st)
    (hst : st.status = .enqueued) (hflag : st.cancelRequested = true) :
    SecondScan call reached rest size rt
      (.cancelling r (reached ++ skipped ++ [r]) rest' size false, rt.put r ((Act.drop 0).record st))
  | claim (skipped : List UUID) (r : UUID) (rest' : List UUID) (st : RunStatus) (hsplit : rest = skipped ++ r :: rest')
    (hskipped : ∀ q ∈ skipped, queued (rt.record? q) = false) (hrecord : rt.record? r = some st)
    (hst : st.status = .enqueued) (hflag : st.cancelRequested = false) :
    SecondScan call reached rest size rt (.claiming r (reached ++ skipped ++ [r]) false,
      rt.put r ((Act.claim call.workerId (call.claimClock r)).record st))

/-- where the first loop stops; when it ends, the second loop starts over all keys -/
inductive FirstScan (call : ClaimCall) (rest : List UUID) (size : ℕ) (rt : InMemoryRuntime) :
    ClaimTask × InMemoryRuntime → Prop where
  | ended {next : ClaimTask × InMemoryRuntime} (hrest : ∀ q ∈ rest, call.overdue q (rt.record? q) = false)
    (hsecond : SecondScan call [] rt.keys size rt next) : FirstScan call rest size rt next
  | expiring (skipped : List UUID) (r : UUID) (rest' : List UUID) (st : RunStatus)
    (hsplit : rest = skipped ++ r :: rest') (hskipped : ∀ q ∈ skipped, call.overdue q (rt.record? q) = false)
    (hrecord : rt.record? r = some st) (hoverdue : call.overdue r (some st) = true) :
    FirstScan call rest size rt (.expiring r st rest' size false, rt)

section Scans

variable {call : ClaimCall} {rt : InMemoryRuntime} {size : ℕ}

/-- a run that the second loop passes over changes only the list of reached runs -/
theorem SecondScan.skip {reached rest : List UUID} {r : UUID} {next : ClaimTask × InMemoryRuntime}
    (h : SecondScan call (reached ++ [r]) rest size rt next) (hr : queued (rt.record? r) = false) :
    SecondScan call reached (r :: rest) size rt next := by
  have hcons : ∀ skipped : List UUID, (∀ q ∈ skipped, queued (rt.record? q) = false) →
      ∀ q ∈ r :: skipped, queued (rt.record? q) = false := by
    intro skipped hskipped q hq
    rcases List.mem_cons.1 hq with rfl | hq
    · exact hr
    · exact hskipped q hq
  cases h with
  | none hrest =>
    rw [List.append_assoc]
    exact .none (hcons rest hrest)
  | cancel skipped r' rest' st hsplit hskipped hrecord hst hflag =>
    have h : SecondScan call reached (r :: rest) size rt _ :=
      .cancel (r :: skipped) r' rest' st (by rw [hsplit]; rfl) (hcons skipped hskipped) hrecord hst hflag
    simpa using h
  | claim skipped r' rest' st hsplit hskipped hrecord hst hflag =>
    have h : SecondScan call reached (r :: rest) size rt _ :=
      .claim (r :: skipped) r' rest' st (by rw [hsplit]; rfl) (hcons skipped hskipped) hrecord hst hflag
    simpa using h

theorem claimNext_spec (hsize : rt.size = size) (reached rest : List UUID) :
    SecondScan call reached rest size rt (call.claimNext size reached rest rt) := by
  induction rest generalizing reached with
  | nil =>
    rw [ClaimCall.claimNext, if_neg (not_not.2 hsize)]
    have h : SecondScan call reached [] size rt _ := .none (by simp)
    simpa using h
  | cons r rest ih =>
    rw [ClaimCall.claimNext, if_neg (not_not.2 hsize)]
    cases hrecord : rt.record? r with
    | none => exact (ih (reached ++ [r])).skip (by simp [hrecord, queued])
    | some st =>
      by_cases hst : st.status = .enqueued
      · have hcancelled : Allowed st.status .cancelled := by rw [hst]; decide
        have hrunning : Allowed st.status .running := by rw [hst]; decide
        simp only [hst, if_true]
        split_ifs with hflag
        · have h : SecondScan call reached (r :: rest) size rt _ := .cancel [] r rest st rfl (by simp) hrecord hst hflag
          simp only [proceed, transitionLocked_run hrecord hcancelled, transitioned_cancelled]
          simpa using h
        · have h : SecondScan call reached (r :: rest) size rt _ :=
            .claim [] r rest st rfl (by simp) hrecord hst (Bool.eq_false_of_not_eq_true hflag)
          simp only [proceed, transitionLocked_run hrecord hrunning, transitioned_claimed]
          simpa using h
      · simp only [hst, if_false]
        exact (ih (reached ++ [r])).skip (by simp [hrecord, queued, hst])

theorem FirstScan.skip {rest : List UUID} {r : UUID} {next : ClaimTask × InMemoryRuntime}
    (h : FirstScan call rest size rt next) (hr : call.overdue r (rt.record? r) = false) :
    FirstScan call (r :: rest) size rt next := by
  have hcons : ∀ skipped : List UUID, (∀ q ∈ skipped, call.overdue q (rt.record? q) = false) →
      ∀ q ∈ r :: skipped, call.overdue q (rt.record? q) = false := by
    intro skipped hskipped q hq
    rcases List.mem_cons.1 hq with rfl | hq
    · exact hr
    · exact hskipped q hq
  cases h with
  | ended hrest hsecond => exact .ended (hcons rest hrest) hsecond
  | expiring skipped r' rest' st hsplit hskipped hrecord hoverdue =>
    exact .expiring (r :: skipped) r' rest' st (by rw [hsplit]; rfl) (hcons skipped hskipped) hrecord hoverdue

theorem recoverNext_spec (hsize : rt.size = size) (rest : List UUID) :
    FirstScan call rest size rt (call.recoverNext size rest rt) := by
  induction rest with
  | nil =>
    rw [ClaimCall.recoverNext, if_neg (not_not.2 hsize), hsize]
    exact .ended (by simp) (claimNext_spec hsize [] _)
  | cons r rest ih =>
    rw [ClaimCall.recoverNext, if_neg (not_not.2 hsize)]
    cases hrecord : rt.record? r with
    | none => exact ih.skip (by simp [hrecord, ClaimCall.overdue])
    | some st =>
      by_cases hst : st.status = .running
      · by_cases hexpired : hasClaimExpired st (call.leaseClock r) = true
        · simp only [hst, ne_eq, not_true_eq_false, if_false, hexpired]
          exact .expiring [] r rest st rfl (by simp) hrecord (by simp [ClaimCall.overdue, hst, hexpired])
        · simp only [hst, ne_eq, not_true_eq_false, if_false, hexpired, Bool.false_eq_true, not_false_eq_true, if_true]
          exact ih.skip (by simp [hrecord, ClaimCall.overdue, hexpired])
      · simp only [ne_eq, hst, not_false_eq_true, if_true]
        exact ih.skip (by simp [hrecord, ClaimCall.overdue, hst])

end Scans

/-! ## Recovering while other calls run -/

theorem Wrote.put {rt rt' : InMemoryRuntime} {r : UUID} {st : RunStatus} (h : Wrote rt rt' r st) (st' : RunStatus) :
    Wrote rt (rt'.put r st') r st' := by
  refine ⟨?_, h.notes, ?_⟩
  · rw [record?_put, h.record, Function.update_idem]
  · have hmem : r ∈ rt'.internalRunStorage := mem_keys_iff.2 ⟨st, by rw [h.record, Function.update_self]⟩
    rw [keys_put_eq, if_pos hmem, h.keys]

/-- of the record read before the append, only the number of retries is used after it -/
theorem recoverExpiredRuns_congr {st st' : RunStatus} (h : st'.retryCount = st.retryCount) (r : UUID)
    (workerId : String) : recoverExpiredRuns r st workerId = recoverExpiredRuns r st' workerId := by
  simp only [recoverExpiredRuns, h]

theorem recoverExpiredRuns_wrote {rt : InMemoryRuntime} {r : UUID} {st st' : RunStatus} {n : ℤ}
    (hrecord : rt.record? r = some st') (hrunning : st'.status = .running) (hretries : st'.retryCount = some n)
    (hread : st'.retryCount = st.retryCount) (workerId : String) :
    ∃ rt', (recoverExpiredRuns r st workerId).run rt = .ok () rt' ∧
      Wrote rt rt' r ((Act.expire workerId 0).record st') := by
  refine ⟨_, ?_, ((wrote_put rt r (timedOutRecord st' workerId)).put (retryingRecord st' workerId n)).put _⟩
  rw [recoverExpiredRuns_congr hread]
  exact recoverExpiredRuns_run hrecord hrunning hretries workerId 0

/-! ## One turn -/

/-- where a task stands fits the memory it works on -/
def ClaimTask.Placed (rt : InMemoryRuntime) : ClaimTask → Prop
  | .idle => True
  | .expiring r st rest size _ => (∃ before, rt.keys = before ++ r :: rest) ∧ rt.size = size ∧
      ∃ st', rt.record? r = some st' ∧ st'.status = .running ∧ st'.retryCount = st.retryCount
  | .cancelling r reached rest size _ => rt.keys = reached ++ rest ∧ r ∈ reached ∧ rt.size = size ∧
      ∃ st, rt.record? r = some st ∧ st.status = .cancelled
  | .claiming r _ _ => ∃ st, rt.record? r = some st ∧ st.status = .running ∧ st.cancelRequested = false
  | .finished _ _ => True

/-- every stored record has a number of retries -/
def Counted (rt : InMemoryRuntime) : Prop := ∀ r st, rt.record? r = some st → ∃ n, st.retryCount = some n

theorem Counted.wrote {rt rt' : InMemoryRuntime} {r : UUID} {st : RunStatus} (h : Counted rt)
    (hwrote : Wrote rt rt' r st) (hst : ∃ n, st.retryCount = some n) : Counted rt' := by
  intro q st' hst'
  rw [hwrote.record] at hst'
  by_cases hq : q = r
  · rw [hq, Function.update_self] at hst'
    obtain rfl := Option.some.inj hst'
    exact hst
  · rw [Function.update_of_ne hq] at hst'
    exact h q st' hst'

theorem counted_map {st : RunStatus} (h : ∃ n, st.retryCount = some n) (workerId : String) (now : UnixTs) :
    ∃ n, ((Act.expire workerId now).record st).retryCount = some n := by
  obtain ⟨n, hn⟩ := h
  exact ⟨n + 1, by simp [Act.record, hn]⟩

/-- what one turn of a placed task does -/
inductive ClaimStep (call : ClaimCall) (now : UnixTs) (rt : InMemoryRuntime) :
    ClaimTask → ClaimTask × InMemoryRuntime → Prop where
  | first {next : ClaimTask × InMemoryRuntime} (hscan : FirstScan call rt.keys rt.size rt next) :
    ClaimStep call now rt .idle next
  | logExpired (r : UUID) (st : RunStatus) (rest : List UUID) (size : ℕ) :
    ClaimStep call now rt (.expiring r st rest size false)
      (.expiring r st rest size true, rt.emit r ("claim_expired", [], now))
  | recover {next : ClaimTask × InMemoryRuntime} (r : UUID) (st : RunStatus) (rest : List UUID) (size : ℕ)
    (st' : RunStatus) (rt' : InMemoryRuntime) (hrecord : rt.record? r = some st') (hrunning : st'.status = .running)
    (hwrote : Wrote rt rt' r ((Act.expire call.workerId 0).record st')) (hscan : FirstScan call rest size rt' next) :
    ClaimStep call now rt (.expiring r st rest size true) next
  | logCancelled (r : UUID) (reached rest : List UUID) (size : ℕ) :
    ClaimStep call now rt (.cancelling r reached rest size false)
      (.cancelling r reached rest size true, rt.emit r ("cancelled", [], now))
  | second {next : ClaimTask × InMemoryRuntime} (r : UUID) (reached rest : List UUID) (size : ℕ)
    (hscan : SecondScan call reached rest size rt next) :
    ClaimStep call now rt (.cancelling r reached rest size true) next
  | logClaimed (r : UUID) (reached : List UUID) :
    ClaimStep call now rt (.claiming r reached false)
      (.claiming r reached true, rt.emit r ("claimed", [("worker", call.workerId)], now))
  | claimed (r : UUID) (reached : List UUID) (st : RunStatus) (hrecord : rt.record? r = some st) :
    ClaimStep call now rt (.claiming r reached true) (.finished reached (.ok (some ⟨r, "enqueued", st⟩)), rt)
  | finished (reached : List UUID) (outcome : Except TaskError (Option ClaimedRun)) :
    ClaimStep call now rt (.finished reached outcome) (.finished reached outcome, rt)

/-- a written record leaves the number of keys -/
theorem Wrote.keys_eq {rt rt' : InMemoryRuntime} {r : UUID} {st st' : RunStatus} (h : Wrote rt rt' r st')
    (hrecord : rt.record? r = some st) : rt'.keys = rt.keys := by
  have hmem : r ∈ rt.internalRunStorage := mem_keys_iff.2 ⟨st, hrecord⟩
  rw [h.keys, if_pos hmem]

/-- **A turn of a task is one of these steps.** -/
theorem resume_spec {call : ClaimCall} {rt : InMemoryRuntime} {task : ClaimTask} (hcounted : Counted rt)
    (hplaced : task.Placed rt) (now : UnixTs) : ClaimStep call now rt task (call.resume now rt task) := by
  cases task with
  | idle => exact .first (recoverNext_spec rfl _)
  | expiring r st rest size appended =>
    cases appended with
    | false => exact .logExpired r st rest size
    | true =>
      obtain ⟨-, hsize, st', hrecord, hrunning, hread⟩ := hplaced
      obtain ⟨n, hn⟩ := hcounted r st' hrecord
      obtain ⟨rt', hrun, hwrote⟩ := recoverExpiredRuns_wrote hrecord hrunning hn hread call.workerId
      have hsize' : rt'.size = size := by
        rw [← hsize]
        exact congrArg List.length (hwrote.keys_eq hrecord)
      simp only [ClaimCall.resume, proceed, hrun]
      exact .recover r st rest size st' rt' hrecord hrunning hwrote (recoverNext_spec hsize' rest)
  | cancelling r reached rest size appended =>
    cases appended with
    | false => exact .logCancelled r reached rest size
    | true => exact .second r reached rest size (claimNext_spec hplaced.2.2.1 reached rest)
  | claiming r reached appended =>
    cases appended with
    | false => exact .logClaimed r reached
    | true =>
      obtain ⟨st, hrecord, -⟩ := hplaced
      simp only [ClaimCall.resume, hrecord]
      exact .claimed r reached st hrecord
  | finished reached outcome => exact .finished reached outcome

/-! ## A task finishes -/

/-- the loop a task is in, and what is left of it -/
def ClaimTask.rank : ClaimTask → ℕ ×ₗ ℕ
  | .idle => toLex (3, 0)
  | .expiring _ _ rest _ appended => toLex (2, 2 * rest.length + (!appended).toNat)
  | .cancelling _ _ rest _ appended => toLex (1, 2 * rest.length + (!appended).toNat)
  | .claiming _ _ appended => toLex (0, 1 + (!appended).toNat)
  | .finished _ _ => toLex (0, 0)

theorem SecondScan.rank {call : ClaimCall} {reached rest : List UUID} {size : ℕ} {rt : InMemoryRuntime}
    {next : ClaimTask × InMemoryRuntime} (h : SecondScan call reached rest size rt next) {n : ℕ}
    (hn : 2 * rest.length ≤ n) : next.1.rank < toLex (1, n) := by
  cases h with
  | none => simp [ClaimTask.rank, Prod.Lex.toLex_lt_toLex]
  | cancel skipped r rest' st hsplit =>
    rw [hsplit] at hn
    simp [ClaimTask.rank, Prod.Lex.toLex_lt_toLex] at hn ⊢
    omega
  | claim => simp [ClaimTask.rank, Prod.Lex.toLex_lt_toLex]

theorem FirstScan.rank {call : ClaimCall} {rest : List UUID} {size : ℕ} {rt : InMemoryRuntime}
    {next : ClaimTask × InMemoryRuntime} (h : FirstScan call rest size rt next) {n : ℕ}
    (hn : 2 * rest.length ≤ n) : next.1.rank < toLex (2, n) := by
  cases h with
  | ended hrest hsecond =>
    refine (hsecond.rank le_rfl).trans ?_
    simp [Prod.Lex.toLex_lt_toLex]
  | expiring skipped r rest' st hsplit =>
    rw [hsplit] at hn
    simp [ClaimTask.rank, Prod.Lex.toLex_lt_toLex] at hn ⊢
    omega

/-- every turn of an unfinished task brings it nearer to its end -/
theorem ClaimStep.rank {call : ClaimCall} {now : UnixTs} {rt : InMemoryRuntime} {task : ClaimTask}
    {next : ClaimTask × InMemoryRuntime} (h : ClaimStep call now rt task next) (htask : task.outcome? = none) :
    next.1.rank < task.rank := by
  cases h with
  | first hscan =>
    refine (hscan.rank le_rfl).trans ?_
    simp [ClaimTask.rank, Prod.Lex.toLex_lt_toLex]
  | logExpired => simp [ClaimTask.rank, Prod.Lex.toLex_lt_toLex]
  | recover r st rest size st' rt' hrecord hrunning hwrote hscan => exact hscan.rank (by simp)
  | logCancelled => simp [ClaimTask.rank, Prod.Lex.toLex_lt_toLex]
  | second r reached rest size hscan => exact hscan.rank (by simp)
  | logClaimed => simp [ClaimTask.rank, Prod.Lex.toLex_lt_toLex]
  | claimed => simp [ClaimTask.rank, Prod.Lex.toLex_lt_toLex]
  | finished => cases htask

/-! ## Without suspension -/

/-- `p` comes to `q` in some turns of the claim alone -/
def ComesTo (call : ClaimCall) (now : UnixTs) (p q : ClaimTask × InMemoryRuntime) : Prop :=
  ∃ n, (fun p => call.resume now p.2 p.1)^[n] p = q

theorem ComesTo.refl {call : ClaimCall} {now : UnixTs} (p : ClaimTask × InMemoryRuntime) : ComesTo call now p p :=
  ⟨0, rfl⟩

theorem ComesTo.turn {call : ClaimCall} {now : UnixTs} {task : ClaimTask} {rt : InMemoryRuntime}
    {q : ClaimTask × InMemoryRuntime} (h : ComesTo call now (call.resume now rt task) q) :
    ComesTo call now (task, rt) q := by
  obtain ⟨n, hn⟩ := h
  exact ⟨n + 1, hn⟩

/-- every stored run has a stream -/
def Streamed (rt : InMemoryRuntime) : Prop := ∀ r st, rt.record? r = some st → rt.internalEventLogs.Known r

section AtOnce

variable {call : ClaimCall} {now : UnixTs} {size : ℕ}

/-- a stored run is written between two appends -/
theorem Streamed.put {rt : InMemoryRuntime} {r : UUID} {st : RunStatus} (h : Streamed rt)
    (hrecord : rt.record? r = some st) (st' : RunStatus) :
    Streamed (rt.put r st') ∧ (rt.put r st').record? r = some st' ∧ (rt.put r st').size = rt.size := by
  have hwrote := wrote_put rt r st'
  refine ⟨fun q old hold => ?_, by rw [hwrote.record, Function.update_self],
    congrArg List.length (hwrote.keys_eq hrecord)⟩
  by_cases hq : q = r
  · rw [hq]
    exact h r st hrecord
  · rw [hwrote.record, Function.update_of_ne hq] at hold
    exact h q old hold

theorem Streamed.emit {rt : InMemoryRuntime} (h : Streamed rt) (r : UUID)
    (e : String × List (String × String) × UnixTs) : Streamed (rt.emit r e) :=
  fun q st hst => InMemoryRunEventLog.known_push _ _ _ (h q st hst)

/-- the claim of a run is the claim task's request, the event and the record -/
theorem claimLocked_eq (hclock : ∀ r, call.claimClock r = now) (r : UUID) :
    claimLocked call.workerId now r = (do
      transitionLocked r .running (call.claimRequest r)
      let _ ← appendEvent r "claimed" [("worker", call.workerId)] now
      let runStatus ← readRun r
      pure { id := r, claimType := "enqueued", runStatus := runStatus }) := by
  rw [ClaimCall.claimRequest, hclock]
  rfl

/-- the second loop without suspension: the turns of the task do what `claimLoop` does -/
theorem claimLoop_atOnce (hclock : ∀ r, call.claimClock r = now) {rest reached : List UUID} {rt rt' : InMemoryRuntime}
    {result : Option ClaimedRun} (hstreamed : Streamed rt) (hsize : rt.size = size)
    (h : (claimLoop call.workerId now rest).run rt = .ok result rt') :
    ∃ reached', ComesTo call now (call.claimNext size reached rest rt) (.finished reached' (.ok result), rt') := by
  induction rest generalizing reached rt with
  | nil =>
    simp only [claimLoop, EStateM.run_pure, EStateM.Result.ok.injEq] at h
    obtain ⟨rfl, rfl⟩ := h
    rw [ClaimCall.claimNext, if_neg (not_not.2 hsize)]
    exact ⟨reached, ComesTo.refl _⟩
  | cons r rest ih =>
    rw [ClaimCall.claimNext, if_neg (not_not.2 hsize)]
    simp only [claimLoop, EStateM.run_bind, EStateM.run_get] at h
    cases hrecord : rt.record? r with
    | none =>
      rw [InMemoryRuntime.record?] at hrecord
      simp only [hrecord] at h
      exact ih hstreamed hsize h
    | some st =>
      have hget : rt.internalRunStorage.get? r = some st := hrecord
      simp only [hget] at h
      by_cases hst : st.status = .enqueued
      · have hcancelled : Allowed st.status .cancelled := by rw [hst]; decide
        have hrunning : Allowed st.status .running := by rw [hst]; decide
        simp only [hst, if_true] at h ⊢
        split_ifs at h ⊢ with hflag
        · obtain ⟨hstreamed', hself, hsize'⟩ := hstreamed.put hrecord (transitioned st .cancelled {})
          simp only [setCancelledLocked, EStateM.run_bind, transitionLocked_run hrecord hcancelled,
            appendEvent_run (hstreamed' r _ hself), EStateM.run_pure] at h
          obtain ⟨reached', hleads⟩ := ih (hstreamed'.emit r _) (hsize'.trans hsize) h
          refine ⟨reached', ?_⟩
          simp only [proceed, transitionLocked_run hrecord hcancelled]
          exact (ComesTo.turn hleads).turn
        · obtain ⟨hstreamed', hself, -⟩ := hstreamed.put hrecord (transitioned st .running (call.claimRequest r))
          have hemitted : ((rt.put r (transitioned st .running (call.claimRequest r))).emit r
              ("claimed", [("worker", call.workerId)], now)).record? r =
              some (transitioned st .running (call.claimRequest r)) := hself
          simp only [claimLocked_eq hclock, EStateM.run_bind, transitionLocked_run hrecord hrunning,
            appendEvent_run (hstreamed' r _ hself), readRun_run hemitted, EStateM.run_pure,
            EStateM.Result.ok.injEq] at h
          obtain ⟨rfl, rfl⟩ := h
          refine ⟨reached ++ [r], ?_⟩
          simp only [proceed, transitionLocked_run hrecord hrunning]
          refine (ComesTo.turn ?_).turn
          simp only [ClaimCall.resume, hemitted]
          exact ComesTo.refl _
      · simp only [hst, if_false] at h ⊢
        exact ih hstreamed hsize h

/-- the first loop without suspension: the turns of the task lead to where the second loop starts -/
theorem recoverLoop_atOnce (hclock : ∀ r, call.leaseClock r = now) {rest : List UUID} {rt rt₁ : InMemoryRuntime}
    (hstreamed : Streamed rt) (hcounted : Counted rt) (hsize : rt.size = size)
    (h : (recoverLoop call.workerId now rest).run rt = .ok () rt₁) :
    Streamed rt₁ ∧ rt₁.size = size ∧
      ∀ q, ComesTo call now (call.claimNext size [] rt₁.keys rt₁) q →
        ComesTo call now (call.recoverNext size rest rt) q := by
  induction rest generalizing rt with
  | nil =>
    simp only [recoverLoop, EStateM.run_pure, EStateM.Result.ok.injEq] at h
    obtain ⟨-, rfl⟩ := h
    refine ⟨hstreamed, hsize, fun q hq => ?_⟩
    rw [ClaimCall.recoverNext, if_neg (not_not.2 hsize), hsize]
    exact hq
  | cons r rest ih =>
    rw [ClaimCall.recoverNext, if_neg (not_not.2 hsize)]
    simp only [recoverLoop, EStateM.run_bind, EStateM.run_get] at h
    cases hrecord : rt.record? r with
    | none =>
      rw [InMemoryRuntime.record?] at hrecord
      simp only [hrecord] at h
      exact ih hstreamed hcounted hsize h
    | some st =>
      have hget : rt.internalRunStorage.get? r = some st := hrecord
      simp only [hget, recoverIfExpired] at h
      by_cases hst : st.status = .running
      · by_cases hexpired : hasClaimExpired st now = true
        · obtain ⟨n, hn⟩ := hcounted r st hrecord
          have hemitted : (rt.emit r ("claim_expired", [], now)).record? r = some st := hrecord
          have hcountedEmit : Counted (rt.emit r ("claim_expired", [], now)) := hcounted
          have hrun := recoverExpiredRuns_run hemitted hst hn call.workerId now
          obtain ⟨hstreamed₁, hself₁, hsize₁⟩ :=
            (hstreamed.emit r ("claim_expired", [], now)).put hemitted (timedOutRecord st call.workerId)
          obtain ⟨hstreamed₂, hself₂, hsize₂⟩ := hstreamed₁.put hself₁ (retryingRecord st call.workerId n)
          obtain ⟨hstreamed₃, -, hsize₃⟩ := hstreamed₂.put hself₂ ((Act.expire call.workerId now).record st)
          have hcounted' := hcountedEmit.wrote
            (((wrote_put _ r (timedOutRecord st call.workerId)).put (retryingRecord st call.workerId n)).put _)
            (counted_map ⟨n, hn⟩ call.workerId now)
          simp only [hst, ne_eq, not_true_eq_false, if_false, hexpired, hclock, EStateM.run_bind,
            appendEvent_run (hstreamed r st hrecord), hrun] at h ⊢
          obtain ⟨hlast, hsize', hleads⟩ :=
            ih hstreamed₃ hcounted' (hsize₃.trans (hsize₂.trans (hsize₁.trans hsize))) h
          refine ⟨hlast, hsize', fun q hq => (ComesTo.turn ?_).turn⟩
          simp only [ClaimCall.resume, proceed, hrun]
          exact hleads q hq
        · simp only [hst, ne_eq, not_true_eq_false, if_false, hexpired, hclock, Bool.false_eq_true, not_false_eq_true,
            if_true, EStateM.run_bind, EStateM.run_pure] at h ⊢
          exact ih hstreamed hcounted hsize h
      · simp only [ne_eq, hst, not_false_eq_true, if_true, EStateM.run_bind, EStateM.run_pure] at h ⊢
        exact ih hstreamed hcounted hsize h

/-- **Without suspension the turns of the task are `claim_run`.** -/
theorem claimRun_atOnce (hlease : ∀ r, call.leaseClock r = now) (hclaim : ∀ r, call.claimClock r = now)
    {rt rt' : InMemoryRuntime} {result : Option ClaimedRun} (hstreamed : Streamed rt) (hcounted : Counted rt)
    (h : (claimRun call.workerId now).run rt = .ok result rt') :
    ∃ reached, ComesTo call now (.idle, rt) (.finished reached (.ok result), rt') := by
  simp only [claimRun, EStateM.run_bind, EStateM.run_get] at h
  split at h
  · next u rt₁ hfirst =>
    obtain ⟨hstreamed₁, hsize₁, hleads⟩ := recoverLoop_atOnce hlease hstreamed hcounted rfl hfirst
    obtain ⟨reached, hsecond⟩ : ∃ reached, ComesTo call now (call.claimNext rt.size [] rt₁.keys rt₁)
        (.finished reached (.ok result), rt') := claimLoop_atOnce hclaim hstreamed₁ hsize₁ h
    exact ⟨reached, ComesTo.turn (hleads _ hsecond)⟩
  · cases h

end AtOnce

end LlmAgent
