/-
Every orderly turn keeps the serial order.

- `linearized_claim`: a turn of the claim; only the event of an expired lease can move a call behind the claim;
- `linearized_before`, `linearized_after`: an intake call enters before or after the claim;
- `linearized_append`: the event of an intake call reaches the log.
-/
import LlmAgent.Runs.SerialOrder

namespace LlmAgent

open Core

section ClaimTurns

variable {call : ClaimCall} {W₀ : UUID → Cell} {keys₀ : List UUID} {P F : List Answer} {s : Interleaved} {now : UnixTs}

/-- a turn that brings no `claim_expired` event to the log -/
theorem claimTurn_eq (h : s.aboutToExpire = none) :
    s.claimTurn call now =
      { s with runtime := (call.resume now s.runtime s.claim).2, claim := (call.resume now s.runtime s.claim).1 } := by
  simp [Interleaved.claimTurn, h]

/-- the claim starts: no call comes after it yet -/
theorem linearized_start (h : Linearized call W₀ keys₀ P F s) (htask : s.claim = .idle)
    {next : ClaimTask × InMemoryRuntime} (hscan : FirstScan call s.runtime.keys s.runtime.size s.runtime next)
    (hlate : ∀ q ∈ next.1.reached, q ∉ s.late) :
    Linearized call W₀ keys₀ P F { s with runtime := next.2, claim := next.1 } := by
  have hordered := h.ordered
  rw [htask] at hordered
  have hunsettled : ∀ q, ¬ ClaimTask.Settled q .idle := by
    rintro q (hq | hq)
    · exact hq
    · cases hq
  have hseen : ∀ q, s.runtime.record? q = (intakeCalls.after W₀ P q).1 := by
    intro q
    have hcell := hordered.cell_untouched (q := q) ?_
    · exact congrArg Prod.fst hcell
    · intro e he _
      rcases hordered.moved e he with hexpired | hsettled
      · exact ((hordered.expired _).1 hexpired).2
      · exact hunsettled _ hsettled
  have hstored : ∀ q, call.overdue q (intakeCalls.after W₀ P q).1 = true → q ∈ s.runtime.keys := by
    intro q hq
    obtain ⟨st, hst, -⟩ := overdue_iff.1 hq
    exact mem_keys_iff.2 ⟨st, (hseen q).trans hst⟩
  refine linearized_first (hordered.restage (fun q => ?_) (fun q hq => hunsettled q hq) fun q hq => ?_)
    (h.steady.place trivial) (h.keys ?_) (List.nil_append _).symm rfl hscan hlate
  · rw [ClaimCall.firstStage]
    split_ifs with hq
    · rfl
    · exact recoverCell_of_not_overdue (Bool.eq_false_of_not_eq_true (mt (hstored q) hq))
  · exact ⟨fun hex => hex.elim, fun hmem => absurd (hstored q hq) hmem⟩
  · rw [htask]
    exact id

/-- the claim recovers the run whose event is in the log -/
theorem linearized_recover (h : Linearized call W₀ keys₀ P F s) {r : UUID} {st st' : RunStatus} {rest : List UUID}
    {size : ℕ} (htask : s.claim = .expiring r st rest size true) {rt' : InMemoryRuntime}
    (hrecord : s.runtime.record? r = some st') (hrunning : st'.status = .running)
    (hwrote : Wrote s.runtime rt' r ((Act.expire call.workerId 0).record st')) {next : ClaimTask × InMemoryRuntime}
    (hscan : FirstScan call rest size rt' next) (hlate : ∀ q ∈ next.1.reached, q ∉ s.late) :
    Linearized call W₀ keys₀ P F { s with runtime := next.2, claim := next.1 } := by
  have hordered := h.ordered
  have hposition := h.position
  have hplaced := h.steady.placed
  have hrequests := h.requests
  rw [htask] at hordered hposition hplaced hrequests
  obtain ⟨⟨before, hkeys⟩, hsize, -⟩ := hplaced
  have hoverdue : call.overdue r (intakeCalls.after W₀ P r).1 = true := hposition
  have hr : r ∉ rest := by
    have hnodup := s.runtime.internalRunStorage.keys_nodup
    rw [show s.runtime.internalRunStorage.keys = before ++ r :: rest from hkeys, List.nodup_append] at hnodup
    exact (List.nodup_cons.1 hnodup.2.1).1
  have hplain : Ordered call W₀ P F (ClaimTask.stage call (.expiring r st rest size true)) (fun _ => False) (· ∉ rest)
      s := by
    refine hordered.restage (fun q => rfl) (fun q hq => ?_) fun q hq => ?_
    · rcases hq with hq | hq
      · exact hq
      · cases hq
    · exact ⟨fun hex => hex.1, fun hmem => ⟨hmem, fun _ => rfl⟩⟩
  have hact : Ordered call W₀ P F (call.firstStage rest) (fun _ => False) (· ∉ rest) { s with runtime := rt' } := by
    refine hplain.act (cells_wrote hrecord hwrote)
      (commutes_expire fun e he hkey => hrequests e he (Eq.symm hkey)) ?_ ?_ fun q hq => ?_
    · obtain ⟨st'', hst'', hrun, -⟩ := overdue_iff.1 hoverdue
      exact ⟨st'', by simp [ClaimTask.stage, Cell.logIf, Cell.log, hst''], hrun⟩
    · simp only [ClaimTask.stage, ClaimCall.firstStage, if_neg hr, ClaimCall.recoverCell, hoverdue, if_true]
      rfl
    · simp only [ClaimTask.stage, if_neg hq]
  have hsteady := h.steady.wrote hwrote hrecord (counted_map (h.steady.counted r st' hrecord) _ 0)
    (touched_expire hrunning _)
  have hkeys' := hwrote.keys_eq hrecord
  have hsplit : rt'.keys = (before ++ [r]) ++ rest := by rw [hkeys', hkeys, ← List.append_cons]
  refine linearized_first (s := { s with runtime := rt' }) hact hsteady (hkeys'.trans (h.keys ?_)) hsplit ?_ hscan hlate
  · rw [htask]
    exact id
  · rw [← hsize]
    exact congrArg List.length hkeys'

/-- the claim goes on to the next runs of its second loop -/
theorem linearized_goOn (h : Linearized call W₀ keys₀ P F s) {r : UUID} {reached rest : List UUID} {size : ℕ}
    (htask : s.claim = .cancelling r reached rest size true) {next : ClaimTask × InMemoryRuntime}
    (hscan : SecondScan call reached rest size s.runtime next)
    (hlate : ∀ q ∈ next.1.reached, q ∉ reached → q ∉ s.late) :
    Linearized call W₀ keys₀ P F { s with runtime := next.2, claim := next.1 } := by
  have hordered := h.ordered
  have hposition := h.position
  have hplaced := h.steady.placed
  rw [htask] at hordered hposition hplaced
  obtain ⟨hkeys, hr, hsize, -⟩ := hplaced
  obtain ⟨-, hreached, hqueued⟩ := hposition
  refine linearized_second (hordered.restage (fun q => ?_) (fun q hq => ?_) fun q _ => Iff.rfl)
    (h.steady.place trivial) (h.keys ?_) hkeys hsize hreached hscan hlate
  · by_cases hq : q = r
    · subst hq
      have hqueued' : queued (call.recoverCell q (intakeCalls.after W₀ P q)).1 = true := hqueued
      rw [ClaimCall.secondStage, if_pos hr, dropCell, if_pos hqueued']
      simp [ClaimTask.stage, Cell.logIf]
    · simp [ClaimTask.stage, hq]
  · rcases hq with hq | hq
    · exact hq.elim
    · exact hq
  · rw [htask]
    exact id

/-- the `cancelled` event of the claim reaches the log -/
theorem linearized_logCancelled (h : Linearized call W₀ keys₀ P F s) {r : UUID} {reached rest : List UUID} {size : ℕ}
    (htask : s.claim = .cancelling r reached rest size false) (hclear : ∀ note, s.appending ≠ some (r, note))
    (hsteady : Steady (s.runtime.emit r ("cancelled", [], now)) s.appending (.cancelling r reached rest size true)) :
    Linearized call W₀ keys₀ P F { s with
      runtime := s.runtime.emit r ("cancelled", [], now), claim := .cancelling r reached rest size true } := by
  have hordered := h.ordered
  have hposition := h.position
  have hkeys := h.keys
  rw [htask] at hordered hposition hkeys
  obtain ⟨st, hst, -⟩ := queued_iff.1 hposition.2.2
  have hact : Ordered call W₀ P F (ClaimTask.stage call (.cancelling r reached rest size true))
      (fun q => ClaimTask.Settled q (.cancelling r reached rest size false)) (fun _ => True)
      { s with runtime := s.runtime.emit r ("cancelled", [], now) } := by
    refine hordered.act (cells_emit hclear "cancelled" [] now) (commutes_log F r _) ?_ ?_ fun q hq => ?_
    · refine ⟨(Act.drop 0).record st, ?_, rfl⟩
      have hst' : (call.recoverCell r (intakeCalls.after W₀ P r)).1 = some st := hst
      simp [ClaimTask.stage, Cell.logIf, Cell.rewrite, hst']
    · simp [ClaimTask.stage, Cell.logIf, cancelledNote]
    · simp only [ClaimTask.stage, if_neg hq]
  exact ⟨hact.claim _, hsteady, hkeys, hposition, fun e _ he => he.elim, fun e _ he => he⟩

/-- the `claimed` event reaches the log -/
theorem linearized_logClaimed (h : Linearized call W₀ keys₀ P F s) {r : UUID} {reached : List UUID}
    (htask : s.claim = .claiming r reached false)
    (hsteady : Steady (s.runtime.emit r ("claimed", [("worker", call.workerId)], now)) s.appending
      (.claiming r reached true)) :
    Linearized call W₀ keys₀ P F { s with
      runtime := s.runtime.emit r ("claimed", [("worker", call.workerId)], now)
      claim := .claiming r reached true } := by
  have hordered := h.ordered
  have hposition := h.position
  have huntouched := h.untouched
  have hplaced := h.steady.placed
  rw [htask] at hordered hposition huntouched hplaced
  -- no call on the claimed run waits in its append: it would have left its mark
  have hclear : ∀ note, s.appending ≠ some (r, note) := by
    intro note hnote
    obtain ⟨st, hst, hmark⟩ := h.steady.pending r note hnote
    obtain ⟨st', hst', hrunning, hflag⟩ := hplaced
    obtain rfl := Option.some.inj (hst.symm.trans hst')
    rcases hmark with hmark | hmark | hmark
    · rw [hrunning] at hmark; cases hmark
    · rw [hrunning] at hmark; cases hmark
    · rw [hflag] at hmark; cases hmark
  have hact : Ordered call W₀ P F (ClaimTask.stage call (.claiming r reached true))
      (fun q => ClaimTask.Settled q (.claiming r reached false)) (fun _ => True)
      { s with runtime := s.runtime.emit r ("claimed", [("worker", call.workerId)], now) } := by
    refine hordered.act (I := fun _ => True) (cells_emit hclear "claimed" _ now)
      (commutes_of_untouched fun e he hr => huntouched e he (Eq.symm hr)) trivial ?_ fun q hq => ?_
    · simp [ClaimTask.stage, Cell.logIf, ClaimCall.claimedNote]
    · simp only [ClaimTask.stage, if_neg hq]
  exact ⟨hact.claim _, hsteady, fun hleft => absurd trivial hleft, hposition, fun e _ he => he.elim, huntouched⟩

/-- the claim returns the run -/
theorem linearized_return (h : Linearized call W₀ keys₀ P F s) {r : UUID} {reached : List UUID}
    (htask : s.claim = .claiming r reached true) {st : RunStatus} (hrecord : s.runtime.record? r = some st) :
    Linearized call W₀ keys₀ P F { s with claim := .finished reached (.ok (some ⟨r, "enqueued", st⟩)) } := by
  have hordered := h.ordered
  have hposition := h.position
  have huntouched := h.untouched
  rw [htask] at hordered hposition huntouched
  have hcell := hordered.cell_untouched fun e he hr => huntouched e he (Eq.symm hr)
  refine ⟨(hordered.restage (fun q => ?_) (fun q _ => Or.inl trivial) fun q _ => Iff.rfl).claim _,
    h.steady.place trivial, fun hleft => absurd trivial hleft, ⟨hposition, st, ?_, rfl⟩, fun e _ he => he.elim,
    fun e _ he => he⟩
  · simp [ClaimTask.stage, Cell.logIf]
  · have hst := congrArg Prod.fst hcell
    rw [← hrecord]
    simpa [ClaimTask.stage, Cell.logIf, Cell.log, Interleaved.cells] using hst.symm

/-- with its event, the expired run is decided about -/
theorem expired_snoc {expired : List UUID} {W W' : UUID → Cell} {r : UUID} {st : RunStatus} {rest : List UUID}
    {size : ℕ} (h : ∀ q, q ∈ expired ↔
      call.overdue q (W q).1 = true ∧ ClaimTask.Examined q (.expiring r st rest size false))
    (hother : ∀ q, q ≠ r → W' q = W q) (hself : call.overdue r (W' r).1 = true) (hr : r ∉ rest) (q : UUID) :
    q ∈ expired ++ [r] ↔ call.overdue q (W' q).1 = true ∧ ClaimTask.Examined q (.expiring r st rest size true) := by
  by_cases hq : q = r
  · subst hq
    simp [ClaimTask.Examined, hself, hr]
  · simp [h q, hother q hq, ClaimTask.Examined, hq]

section LogExpired

variable {r : UUID} {st : RunStatus} {rest : List UUID} {size : ℕ}

/-- no call comes after the claim on a run that the claim has not decided about -/
theorem Linearized.untouched_expiring (h : Linearized call W₀ keys₀ P F s)
    (htask : s.claim = .expiring r st rest size false) : ∀ e ∈ F, e.1.runId ≠ r := by
  have hordered := h.ordered
  rw [htask] at hordered
  rintro e he rfl
  rcases hordered.moved e he with hexpired | hsettled
  · exact Bool.false_ne_true (((hordered.expired _).1 hexpired).2.2 rfl)
  · rcases hsettled with hleft | hreached
    · exact hleft
    · cases hreached

theorem Linearized.expiring_facts (h : Linearized call W₀ keys₀ P F s)
    (htask : s.claim = .expiring r st rest size false) :
    r ∉ rest ∧ call.overdue r (intakeCalls.after W₀ P r).1 = true := by
  have hposition := h.position
  have hplaced := h.steady.placed
  rw [htask] at hposition hplaced
  obtain ⟨⟨before, hkeys⟩, -⟩ := hplaced
  have hnodup := s.runtime.internalRunStorage.keys_nodup
  rw [show s.runtime.internalRunStorage.keys = before ++ r :: rest from hkeys, List.nodup_append] at hnodup
  exact ⟨(List.nodup_cons.1 hnodup.2.1).1, hposition⟩

theorem claimTurn_logExpired (htask : s.claim = .expiring r st rest size false) :
    s.claimTurn call now = { s with
      runtime := s.runtime.emit r ("claim_expired", [], now)
      claim := .expiring r st rest size true
      expired := s.expired ++ [r]
      late := s.late ++ [r].filter fun q => s.appending.any fun pending => pending.1 = q } := by
  simp only [Interleaved.claimTurn, htask, ClaimCall.resume, Interleaved.aboutToExpire, Option.toList]

/-- the `claim_expired` event reaches the log, and no call on its run waits -/
theorem linearized_logExpired (h : Linearized call W₀ keys₀ P F s) (htask : s.claim = .expiring r st rest size false)
    (hclear : ∀ note, s.appending ≠ some (r, note))
    (hsteady : Steady (s.claimTurn call now).runtime s.appending (s.claimTurn call now).claim) :
    Linearized call W₀ keys₀ P F (s.claimTurn call now) := by
  have huntouched := h.untouched_expiring htask
  obtain ⟨hr, hoverdue⟩ := h.expiring_facts htask
  have hordered := h.ordered
  have hposition := h.position
  have hkeys := h.keys
  rw [claimTurn_logExpired htask] at hsteady ⊢
  rw [htask] at hordered hposition hkeys
  have hact := hordered.act (I := fun _ => True) (cells_emit hclear "claim_expired" [] now)
    (commutes_of_untouched huntouched) trivial
    (show ClaimTask.stage call (.expiring r st rest size true) r _ = _ by
      simp [ClaimTask.stage, Cell.logIf, expiredNote])
    fun q hq => by simp only [ClaimTask.stage, if_neg hq]
  refine ⟨⟨hact.before, hact.after, hact.cells, hact.answers, hact.fresh,
    expired_snoc hordered.expired (fun q _ => rfl) hoverdue hr, fun e he => ?_, fun e he hs hlate => ?_,
    hact.pending⟩, hsteady, hkeys, hposition, fun e he hexpiring => ?_, fun e _ he => he⟩
  · exact (hordered.moved e he).imp_left fun hmem => List.mem_append_left _ hmem
  · exact hordered.quiet e he hs fun hmem => hlate (List.mem_append_left _ hmem)
  · exact absurd (Eq.symm hexpiring) (huntouched e he)

/-- only a request leaves a run that was overdue before it -/
theorem Changed.overdue {intake : IntakeCall} {record : Option RunStatus} {st : RunStatus} {note : Note} {q : UUID}
    (h : Changed intake record st note) (hoverdue : call.overdue q (some st) = true) :
    (∃ r, intake = .requestCancellation r) ∧ call.overdue q record = true := by
  cases h with
  | create => simp [ClaimCall.overdue, createdRecord] at hoverdue
  | mark => simp [ClaimCall.overdue, Act.record] at hoverdue
  | request r st₀ => exact ⟨⟨r, rfl⟩, hoverdue⟩

/-! ### An event that overtakes a request -/

section Overtaken

variable {X : List Answer} {e : Answer} {new : RunStatus} {note : Note} (hkey : intakeCalls.key e.1 = r)
include hkey

/-- the last call before the claim is about `r` alone -/
theorem overtaken_other {q : UUID} (hq : q ≠ r) :
    intakeCalls.after W₀ X q = intakeCalls.after W₀ (X ++ [e]) q := by
  rw [intakeCalls.after_snoc, intakeCalls.act_other (by rw [hkey]; exact Ne.symm hq)]

/-- the cells behind the claim's deed, without and with that call -/
theorem overtaken_staged (q : UUID) (hq : q ≠ r) :
    staged (ClaimTask.stage call (.expiring r st rest size true)) (intakeCalls.after W₀ X) q =
      staged (ClaimTask.stage call (.expiring r st rest size false)) (intakeCalls.after W₀ (X ++ [e])) q := by
  rw [staged, staged, overtaken_other hkey hq]
  simp only [ClaimTask.stage, if_neg hq]

omit hkey in
theorem overtaken_logged (huntouched : ∀ e' ∈ F, e'.1.runId ≠ r) :
    intakeCalls.after (staged (ClaimTask.stage call (.expiring r st rest size true)) (intakeCalls.after W₀ X)) F r =
      Cell.log expiredNote (intakeCalls.after W₀ X r) := by
  rw [intakeCalls.after_untouched huntouched]
  simp [staged, ClaimTask.stage, Cell.logIf]

variable (hdecision : e.1.decision (intakeCalls.after W₀ X r).1 = (e.2, some (new, note)))
include hdecision

/-- what it has left of `r` -/
theorem overtaken_self :
    intakeCalls.after W₀ (X ++ [e]) r = (some new, (intakeCalls.after W₀ X r).2 ++ [note]) := by
  have hact := intakeCalls.act_self (intakeCalls.after W₀ X) e.1
  rw [hkey] at hact
  rw [intakeCalls.after_snoc, hact]
  change Cell.write _ (e.1.decision (intakeCalls.after W₀ X r).1).2 = _
  rw [hdecision]
  rfl

/-- what it leaves of `r` behind the claim's deed -/
theorem overtaken_last (huntouched : ∀ e' ∈ F, e'.1.runId ≠ r) :
    intakeCalls.act (intakeCalls.after
      (staged (ClaimTask.stage call (.expiring r st rest size true)) (intakeCalls.after W₀ X)) F) e.1 r =
      (some new, (intakeCalls.after W₀ X r).2 ++ [expiredNote] ++ [note]) := by
  have hact := intakeCalls.act_self (intakeCalls.after
    (staged (ClaimTask.stage call (.expiring r st rest size true)) (intakeCalls.after W₀ X)) F) e.1
  rw [hkey, overtaken_logged huntouched] at hact
  rw [hact]
  change Cell.write _ (e.1.decision (intakeCalls.after W₀ X r).1).2 = _
  rw [hdecision]
  rfl

/-- so the cells are those of the order in which the call goes behind the claim -/
theorem overtaken_cells
    (hordered : Ordered call W₀ (X ++ [e]) F (ClaimTask.stage call (.expiring r st rest size false))
      (ClaimTask.Settled · (.expiring r st rest size false)) (ClaimTask.Examined · (.expiring r st rest size false)) s)
    (huntouched : ∀ e' ∈ F, e'.1.runId ≠ r) (hpending : s.appending = some (r, note)) :
    Interleaved.cells { s with runtime := s.runtime.emit r ("claim_expired", [], now) } =
      intakeCalls.after (staged (ClaimTask.stage call (.expiring r st rest size true)) (intakeCalls.after W₀ X))
        (F ++ [e]) := by
  have hcell := hordered.cell_untouched huntouched
  rw [overtaken_self hkey hdecision] at hcell
  simp only [ClaimTask.stage, Cell.logIf, if_true, Bool.false_eq_true, if_false] at hcell
  have hwaiting : s.waiting r = [note] := by simp [Interleaved.waiting, hpending, Option.filter]
  obtain ⟨hrecord, hnotes⟩ := Prod.mk.inj hcell
  rw [hwaiting] at hnotes
  have hnotes' := List.append_cancel_right hnotes
  rw [intakeCalls.after_snoc]
  funext q
  by_cases hq : q = r
  · subst hq
    rw [overtaken_last hkey hdecision huntouched]
    simp only [Interleaved.waiting] at hwaiting
    simp only [Interleaved.cells, record?_emit, notes_emit, Function.update_self, Interleaved.waiting, hwaiting,
      hrecord, hnotes', expiredNote]
  · rw [intakeCalls.act_other (by rw [hkey]; exact Ne.symm hq), intakeCalls.after_congr (overtaken_staged hkey q hq),
      ← hordered.cells]
    simp only [Interleaved.cells, record?_emit, notes_emit, Function.update_of_ne hq, Interleaved.waiting]

end Overtaken

/-- **The `claim_expired` event overtakes a request.** The request on its run has changed the record, and its own event
comes later: it goes behind the claim. -/
theorem linearized_overtaken (h : Linearized call W₀ keys₀ P F s) (htask : s.claim = .expiring r st rest size false)
    {note : Note} (hpending : s.appending = some (r, note))
    (hsteady : Steady (s.claimTurn call now).runtime s.appending (s.claimTurn call now).claim) :
    ∃ X e, P = X ++ [e] ∧ Linearized call W₀ keys₀ X (F ++ [e]) (s.claimTurn call now) := by
  have huntouched := h.untouched_expiring htask
  obtain ⟨hr, hoverdue⟩ := h.expiring_facts htask
  have hordered := h.ordered
  have hkeys := h.keys
  rw [claimTurn_logExpired htask] at hsteady ⊢
  rw [htask] at hordered hkeys
  obtain ⟨X, e, new, rfl, hkey, hdecision⟩ | ⟨e, he, hkey⟩ := hordered.pending r note hpending
  swap
  · exact absurd hkey (huntouched e he)
  refine ⟨X, e, rfl, ?_⟩
  rw [overtaken_self hkey hdecision] at hoverdue
  obtain ⟨⟨r', hrequest⟩, hoverdue'⟩ := (decision_changed hdecision).overdue hoverdue
  refine ⟨⟨(intakeCalls.answered_snoc.1 hordered.before).1, ?_,
    overtaken_cells hkey hdecision hordered huntouched hpending, ?_, fun q userId answer hmem => ?_,
    expired_snoc hordered.expired (fun q hq => overtaken_other hkey hq) hoverdue' hr, fun e' he' => ?_,
    fun e' he' hs hlate => ?_, fun q n hq => ?_⟩, hsteady, fun hleft => ?_, hoverdue', fun e' he' hexpiring => ?_,
    fun e' _ he' => he'⟩
  · refine intakeCalls.answered_snoc.2 ⟨?_, ?_⟩
    · exact hordered.after.congr _ fun e' he' => (overtaken_staged hkey _ (huntouched e' he')).symm
    · rw [show intakeCalls.key e.1 = r from hkey, overtaken_logged huntouched]
      change e.2 = (e.1.decision (intakeCalls.after W₀ X r).1).1
      rw [hdecision]
  · refine hordered.answers.trans ?_
    rw [List.append_assoc]
    exact (List.perm_append_comm).append_left X
  · refine hordered.fresh q userId answer ?_
    simp only [List.mem_append] at hmem ⊢
    tauto
  · rcases List.mem_append.1 he' with he' | he'
    · exact (hordered.moved e' he').imp_left fun hmem => List.mem_append_left _ hmem
    · obtain rfl := List.mem_singleton.1 he'
      exact Or.inl (by simp [hkey])
  · rcases List.mem_append.1 he' with he' | he'
    · exact hordered.quiet e' he' hs fun hmem => hlate (List.mem_append_left _ hmem)
    · obtain rfl := List.mem_singleton.1 he'
      refine absurd ?_ hlate
      simp [hkey, hpending]
  · obtain ⟨rfl, -⟩ := Prod.mk.inj (Option.some.inj (hpending.symm.trans hq))
    exact Or.inr ⟨e, by simp, hkey⟩
  · rw [keys_emit, hkeys hleft]
    simp [createdBy, hrequest]
  · rcases List.mem_append.1 he' with he' | he'
    · exact absurd (Eq.symm hexpiring) (huntouched e' he')
    · obtain rfl := List.mem_singleton.1 he'
      exact ⟨r', hrequest⟩

end LogExpired

/-- **A turn of the claim keeps the serial order**, and while no intake call waits it moves none. -/
theorem linearized_claim (h : Linearized call W₀ keys₀ P F s) (horderly : s.Orderly call (.claim now)) :
    ∃ P' F', Linearized call W₀ keys₀ P' F' (s.claimTurn call now) ∧ (s.appending = none → P' = P ∧ F' = F) := by
  have hsteady : Steady (s.claimTurn call now).runtime s.appending (s.claimTurn call now).claim :=
    steady_claim h.steady now
  have hstep : ClaimStep call now s.runtime s.claim (call.resume now s.runtime s.claim) :=
    resume_spec h.steady.counted h.steady.placed now
  obtain ⟨hlate, hclear⟩ := horderly
  have hturn : s.aboutToExpire = none → s.claimTurn call now = { s with
      runtime := (call.resume now s.runtime s.claim).2, claim := (call.resume now s.runtime s.claim).1 } := claimTurn_eq
  generalize call.resume now s.runtime s.claim = next at hstep hturn
  generalize htask : s.claim = task at hstep hlate
  cases hstep with
  | logExpired r st rest size =>
    by_cases hpending : ∃ note, s.appending = some (r, note)
    · obtain ⟨note, hpending⟩ := hpending
      obtain ⟨X, e, -, hlinear⟩ := linearized_overtaken h htask hpending hsteady
      refine ⟨X, F ++ [e], hlinear, fun hnone => ?_⟩
      rw [hnone] at hpending
      cases hpending
    · exact ⟨P, F, linearized_logExpired h htask (not_exists.1 hpending) hsteady, fun _ => ⟨rfl, rfl⟩⟩
  | first hscan =>
    rw [hturn (by simp [Interleaved.aboutToExpire, htask])] at hlate ⊢
    exact ⟨P, F, linearized_start h htask hscan fun q hq => hlate q hq (List.not_mem_nil), fun _ => ⟨rfl, rfl⟩⟩
  | recover r st rest size st' rt' hrecord hrunning hwrote hscan =>
    rw [hturn (by simp [Interleaved.aboutToExpire, htask])] at hlate ⊢
    exact ⟨P, F, linearized_recover h htask hrecord hrunning hwrote hscan fun q hq => hlate q hq (List.not_mem_nil),
      fun _ => ⟨rfl, rfl⟩⟩
  | logCancelled r reached rest size =>
    rw [hturn (by simp [Interleaved.aboutToExpire, htask])] at hsteady ⊢
    have hfree : ∀ note, s.appending ≠ some (r, note) :=
      fun note hnote => hclear r (by simp [Interleaved.aboutToCancel, htask]) (r, note) hnote rfl
    exact ⟨P, F, linearized_logCancelled h htask hfree hsteady, fun _ => ⟨rfl, rfl⟩⟩
  | second r reached rest size hscan =>
    rw [hturn (by simp [Interleaved.aboutToExpire, htask])] at hlate ⊢
    exact ⟨P, F, linearized_goOn h htask hscan hlate, fun _ => ⟨rfl, rfl⟩⟩
  | logClaimed r reached =>
    rw [hturn (by simp [Interleaved.aboutToExpire, htask])] at hsteady ⊢
    exact ⟨P, F, linearized_logClaimed h htask hsteady, fun _ => ⟨rfl, rfl⟩⟩
  | claimed r reached st hrecord =>
    rw [hturn (by simp [Interleaved.aboutToExpire, htask])]
    exact ⟨P, F, linearized_return h htask hrecord, fun _ => ⟨rfl, rfl⟩⟩
  | finished reached outcome =>
    rw [hturn (by simp [Interleaved.aboutToExpire, htask])]
    rw [← htask]
    exact ⟨P, F, h, fun _ => ⟨rfl, rfl⟩⟩

end ClaimTurns

end LlmAgent
