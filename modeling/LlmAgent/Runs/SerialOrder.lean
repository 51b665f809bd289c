/-
The serial order of the calls along an orderly run: every turn of the task and of the intake store keeps it.

- `Linearized`: the calls before the claim and the calls after it, at the place where the task stands;
- `linearized_first`, `linearized_second`: the loops up to their next append;
- `linearized_claim`, `linearized_before`, `linearized_after`, `linearized_append`: every turn.
-/
import LlmAgent.Runs.Linearization

namespace LlmAgent

open Core

/-! ## What the claim decides, in the serial order -/

namespace ClaimCall

variable (call : ClaimCall) (W : UUID → Cell)

/-- the record of a run after the first loop -/
def stored (q : UUID) : Option RunStatus := (call.recoverCell q (W q)).1

/-- queued after the first loop, and nobody asked for its cancellation -/
def Runnable (q : UUID) : Prop := queued (call.stored W q) = true ∧ intended (call.stored W q) = false

/-- the second loop goes up to `r`, the first runnable run -/
def Picks (keys : List UUID) (r : UUID) (reached : List UUID) : Prop :=
  call.Runnable W r ∧
    ∃ before rest, reached = before ++ [r] ∧ keys = before ++ r :: rest ∧ ∀ q ∈ before, ¬ call.Runnable W q

end ClaimCall

/-- where the task stands is where the claim alone would stand, on the cells `W` and the keys `keys` -/
def ClaimTask.Position (call : ClaimCall) (W : UUID → Cell) (keys : List UUID) : ClaimTask → Prop
  | .idle => True
  | .expiring r _ _ _ _ => call.overdue r (W r).1 = true
  | .cancelling r reached rest _ _ =>
    keys = reached ++ rest ∧ (∀ q ∈ reached, ¬ call.Runnable W q) ∧ queued (call.stored W r) = true
  | .claiming r reached _ => call.Picks W keys r reached
  | .finished reached (.ok (some claimed)) => call.Picks W keys claimed.id reached ∧
      ∃ st, (call.claimCell claimed.id (call.recoverCell claimed.id (W claimed.id))).1 = some st ∧
        claimed = ⟨claimed.id, "enqueued", st⟩
  | .finished reached (.ok none) => reached = keys ∧ ∀ q ∈ keys, ¬ call.Runnable W q
  | .finished _ (.error _) => False

/-- the calls in a serial order, and the task at its place in it -/
structure Linearized (call : ClaimCall) (W₀ : UUID → Cell) (keys₀ : List UUID) (P F : List Answer)
    (s : Interleaved) : Prop where
  ordered : Ordered call W₀ P F (s.claim.stage call) s.claim.Settled s.claim.Examined s
  steady : Steady s.runtime s.appending s.claim
  keys : ¬ s.claim.Left → s.runtime.keys = keys₀ ++ createdBy P
  position : s.claim.Position call (intakeCalls.after W₀ P) (keys₀ ++ createdBy P)
  requests : ∀ e ∈ F, s.claim.Expiring e.1.runId → ∃ r, e.1 = .requestCancellation r
  untouched : ∀ e ∈ F, ¬ s.claim.Claiming e.1.runId

section Scans

variable {call : ClaimCall} {W₀ : UUID → Cell} {keys₀ : List UUID} {P F : List Answer} {s : Interleaved}
  {reached rest : List UUID} {size : ℕ} {next : ClaimTask × InMemoryRuntime}

theorem Ordered.claim {stage : UUID → Cell → Cell} {settled examined : UUID → Prop}
    (h : Ordered call W₀ P F stage settled examined s) (task : ClaimTask) :
    Ordered call W₀ P F stage settled examined { s with claim := task } :=
  ⟨h.before, h.after, h.cells, h.answers, h.fresh, h.expired, h.moved, h.quiet, h.pending⟩

theorem recoverCell_of_not_overdue {q : UUID} {cell : Cell} (h : call.overdue q cell.1 = false) :
    call.recoverCell q cell = cell := by
  rw [ClaimCall.recoverCell, h, if_neg Bool.false_ne_true]

theorem dropCell_of_not_queued {cell : Cell} (h : queued cell.1 = false) : dropCell cell = cell := by
  rw [dropCell, h, if_neg Bool.false_ne_true]

theorem not_runnable_of_not_queued {W : UUID → Cell} {q : UUID} (h : queued (call.stored W q) = false) :
    ¬ call.Runnable W q := by
  rintro ⟨hqueued, -⟩
  rw [h] at hqueued
  cases hqueued

/-- reaching more runs that are not queued does nothing to them -/
theorem secondStage_append {W : UUID → Cell} {more : List UUID}
    (hmore : ∀ q ∈ more, queued (call.stored W q) = false) (q : UUID) :
    call.secondStage (reached ++ more) q (W q) = call.secondStage reached q (W q) := by
  rw [ClaimCall.secondStage, ClaimCall.secondStage]
  by_cases hq : q ∈ more
  · have hstill := dropCell_of_not_queued (hmore q hq)
    simp only [List.mem_append, hq, or_true, hstill, ite_self]
  · simp only [List.mem_append, hq, or_false]

/-- the second loop stops at `r` and writes its record -/
theorem Ordered.stop (h : Ordered call W₀ P F (call.secondStage reached) (· ∈ reached) (fun _ => True) s)
    {skipped : List UUID} {r : UUID} {st : RunStatus} {f : RunStatus → RunStatus} {I : Cell → Prop}
    {stage' : UUID → Cell → Cell} {settled' : UUID → Prop} (hr : r ∉ reached)
    (hskipped : ∀ q ∈ skipped, queued (call.stored (intakeCalls.after W₀ P) q) = false)
    (hrecord : s.runtime.record? r = some st) (hcommutes : intakeCalls.Commutes F r (Cell.rewrite f) I)
    (hI : I (call.recoverCell r (intakeCalls.after W₀ P r)))
    (hself : ∀ cell, stage' r cell = Cell.rewrite f (call.recoverCell r cell))
    (hother : ∀ q, q ≠ r → ∀ cell, stage' q cell = call.secondStage (reached ++ skipped ++ [r]) q cell)
    (hsettled : ∀ q ∈ reached, settled' q) :
    Ordered call W₀ P F stage' settled' (fun _ => True) { s with runtime := s.runtime.put r (f st) } := by
  have hbefore : call.secondStage reached r (intakeCalls.after W₀ P r) =
      call.recoverCell r (intakeCalls.after W₀ P r) := if_neg hr
  have hact : Ordered call W₀ P F stage' (· ∈ reached) (fun _ => True)
      { s with runtime := s.runtime.put r (f st) } := by
    refine h.act (cells_wrote hrecord (wrote_put _ _ _)) hcommutes (hbefore ▸ hI) (by rw [hself, hbefore]) ?_
    intro q hq
    rw [hother q hq]
    calc call.secondStage (reached ++ skipped ++ [r]) q (intakeCalls.after W₀ P q)
        = call.secondStage (reached ++ skipped) q (intakeCalls.after W₀ P q) := by simp [ClaimCall.secondStage, hq]
      _ = call.secondStage reached q (intakeCalls.after W₀ P q) := secondStage_append hskipped q
  exact hact.restage (fun q => rfl) hsettled fun q _ => Iff.rfl

/-- what the second loop finds of the runs it comes to (`ahead`), in terms of the cells `W` after the calls before -/
structure Foresees (call : ClaimCall) (W : UUID → Cell) (F : List Answer) (s : Interleaved)
    (reached rest ahead : List UUID) : Prop where
  fresh : ∀ q ∈ rest, q ∉ reached
  stored : ∀ q ∈ rest, q ∈ ahead → s.runtime.record? q = call.stored W q
  quiet : ∀ r ∈ rest, r ∈ ahead → ∀ e ∈ F, e.1.runId = r → Quiet e
  passed : ∀ q ∈ reached, ¬ call.Runnable W q

/-- the loop sees the record that the first loop has left -/
theorem Ordered.foresees (h : Ordered call W₀ P F (call.secondStage reached) (· ∈ reached) (fun _ => True) s)
    (hsplit : s.runtime.keys = reached ++ rest) (hreached : ∀ q ∈ reached, ¬ call.Runnable (intakeCalls.after W₀ P) q)
    {ahead : List UUID} (hlate : ∀ q ∈ ahead, q ∉ reached → q ∉ s.late) :
    Foresees call (intakeCalls.after W₀ P) F s reached rest ahead := by
  have hdisjoint : ∀ q ∈ rest, q ∉ reached := by
    have hnodup := s.runtime.internalRunStorage.keys_nodup
    rw [show s.runtime.internalRunStorage.keys = reached ++ rest from hsplit] at hnodup
    intro q hq hmem
    exact (List.nodup_append.1 hnodup).2.2 q hmem q hq rfl
  refine ⟨hdisjoint, ?_, ?_, hreached⟩
  · intro q hq hahead
    have hcell := h.cell_quiet (hdisjoint q hq) (hlate q hahead (hdisjoint q hq))
    rw [ClaimCall.secondStage, if_neg (hdisjoint q hq)] at hcell
    exact congrArg Prod.fst hcell
  · rintro r hr hahead e he rfl
    exact h.quiet e he (hdisjoint _ hr) (hlate _ hahead (hdisjoint _ hr))

namespace Foresees

variable {W : UUID → Cell} {skipped ahead : List UUID} (h : Foresees call W F s reached rest ahead)
include h

theorem idle (hmem : ∀ q ∈ skipped, q ∈ rest ∧ q ∈ ahead)
    (hskipped : ∀ q ∈ skipped, queued (s.runtime.record? q) = false) (q : UUID) (hq : q ∈ skipped) :
    queued (call.stored W q) = false := by
  rw [← h.stored q (hmem q hq).1 (hmem q hq).2]
  exact hskipped q hq

theorem not_runnable (hskipped : ∀ q ∈ skipped, queued (call.stored W q) = false) (q : UUID)
    (hq : q ∈ reached ++ skipped) : ¬ call.Runnable W q := by
  rcases List.mem_append.1 hq with hq | hq
  · exact h.passed q hq
  · exact not_runnable_of_not_queued (hskipped q hq)

end Foresees

section Second

variable {ahead skipped rest' : List UUID} {r : UUID} {st : RunStatus}
  (h : Ordered call W₀ P F (call.secondStage reached) (· ∈ reached) (fun _ => True) s)
  (hforesees : Foresees call (intakeCalls.after W₀ P) F s reached rest ahead)
  (hkeys : s.runtime.keys = keys₀ ++ createdBy P) (hsplit : s.runtime.keys = reached ++ rest)
include h hforesees hkeys hsplit

/-- the second loop ends -/
theorem linearized_none (hahead : ahead = reached ++ rest) (hrest : ∀ q ∈ rest, queued (s.runtime.record? q) = false)
    (hsteady : Steady s.runtime s.appending (.finished (reached ++ rest) (.ok none))) :
    Linearized call W₀ keys₀ P F { s with claim := .finished (reached ++ rest) (.ok none) } := by
  have hidle := hforesees.idle (fun q hq => ⟨hq, by simp [hahead, hq]⟩) hrest
  refine ⟨(h.restage (fun q => secondStage_append hidle q) (fun q _ => Or.inl trivial) fun q _ => Iff.rfl).claim _,
    hsteady, fun hleft => absurd trivial hleft, ⟨by rw [← hkeys, hsplit], ?_⟩, fun e _ he => he.elim, fun e _ he => he⟩
  rw [← hkeys, hsplit]
  exact hforesees.not_runnable hidle

variable (hahead : ahead = reached ++ skipped ++ [r]) (hrest : rest = skipped ++ r :: rest')
  (hskipped : ∀ q ∈ skipped, queued (s.runtime.record? q) = false) (hrecord : s.runtime.record? r = some st)
  (hst : st.status = .enqueued)
include hahead hrest hskipped hrecord hst

/-- the second loop drops a run -/
theorem linearized_cancelling (hflag : st.cancelRequested = true)
    (hsteady : Steady (s.runtime.put r ((Act.drop 0).record st)) s.appending
      (.cancelling r (reached ++ skipped ++ [r]) rest' size false)) :
    Linearized call W₀ keys₀ P F { s with
      runtime := s.runtime.put r ((Act.drop 0).record st)
      claim := .cancelling r (reached ++ skipped ++ [r]) rest' size false } := by
  have hr : r ∈ rest ∧ r ∈ ahead := by simp [hrest, hahead]
  have hidle := hforesees.idle (fun q (hq : q ∈ skipped) => by simp [hrest, hahead, hq]) hskipped
  have hstored := (hforesees.stored r hr.1 hr.2).symm.trans hrecord
  have hqueued : queued (call.stored (intakeCalls.after W₀ P) r) = true := by rw [hstored]; simp [queued, hst]
  have hordered : Ordered call W₀ P F
      (ClaimTask.stage call (.cancelling r (reached ++ skipped ++ [r]) rest' size false))
      (fun q => ClaimTask.Settled q (.cancelling r (reached ++ skipped ++ [r]) rest' size false)) (fun _ => True)
      { s with runtime := s.runtime.put r ((Act.drop 0).record st) } :=
    h.stop (hforesees.fresh r hr.1) hidle hrecord (commutes_drop (hforesees.quiet r hr.1 hr.2)) hqueued
      (fun cell => if_pos rfl) (fun q hq cell => if_neg hq) fun q hq => Or.inr (by simp [ClaimTask.reached, hq])
  refine ⟨hordered.claim _, hsteady, fun _ => ?_, ⟨?_, ?_, hqueued⟩, fun e _ he => he.elim, fun e _ he => he⟩
  · exact ((wrote_put s.runtime r _).keys_eq hrecord).trans hkeys
  · rw [← hkeys, hsplit, hrest]
    simp
  · intro q hq
    rcases List.mem_append.1 hq with hq | hq
    · exact hforesees.not_runnable hidle q hq
    · obtain rfl := List.mem_singleton.1 hq
      rintro ⟨-, hintended⟩
      rw [hstored] at hintended
      simp [intended, hflag] at hintended

omit hkeys hsplit hskipped in
/-- no call after the claim meets the run it picks: a quiet call would have found the run requested -/
theorem not_after_picked (hflag : st.cancelRequested = false) (e : Answer) (he : e ∈ F) : e.1.runId ≠ r := by
  have hr : r ∈ rest ∧ r ∈ ahead := by simp [hrest, hahead]
  have hstored := (hforesees.stored r hr.1 hr.2).symm.trans hrecord
  have hquiet := hforesees.quiet r hr.1 hr.2
  intro hkey
  have hanswer := intakeCalls.answered_still h.after
    (fun e' he' hr' cell hcell => exec_quiet (hquiet e' he' hr') hcell) he hkey
  obtain ⟨q, rfl⟩ := hquiet e he hkey
  obtain ⟨-, st', hst', hover⟩ := decision_quiet hanswer
  have hst' : call.stored (intakeCalls.after W₀ P) r = some st' := by
    rw [← hst', staged, ClaimCall.secondStage, if_neg (hforesees.fresh r hr.1), ClaimCall.stored]
  obtain rfl := Option.some.inj (hstored.symm.trans hst')
  rcases hover with hterminal | hrequested
  · rw [hst] at hterminal
    exact absurd hterminal (by decide)
  · rw [hflag] at hrequested
    cases hrequested

/-- the second loop claims a run -/
theorem linearized_claiming (hflag : st.cancelRequested = false)
    (hsteady : Steady (s.runtime.put r ((Act.claim call.workerId (call.claimClock r)).record st)) s.appending
      (.claiming r (reached ++ skipped ++ [r]) false)) :
    Linearized call W₀ keys₀ P F { s with
      runtime := s.runtime.put r ((Act.claim call.workerId (call.claimClock r)).record st)
      claim := .claiming r (reached ++ skipped ++ [r]) false } := by
  have hr : r ∈ rest ∧ r ∈ ahead := by simp [hrest, hahead]
  have hidle := hforesees.idle (fun q (hq : q ∈ skipped) => by simp [hrest, hahead, hq]) hskipped
  have hstored := (hforesees.stored r hr.1 hr.2).symm.trans hrecord
  have hrunnable : call.Runnable (intakeCalls.after W₀ P) r :=
    ⟨by rw [hstored]; simp [queued, hst], by rw [hstored]; simp [intended, hflag]⟩
  have hordered : Ordered call W₀ P F (ClaimTask.stage call (.claiming r (reached ++ skipped ++ [r]) false))
      (fun q => ClaimTask.Settled q (.claiming r (reached ++ skipped ++ [r]) false)) (fun _ => True)
      { s with runtime := s.runtime.put r ((Act.claim call.workerId (call.claimClock r)).record st) } :=
    h.stop (f := (Act.claim call.workerId (call.claimClock r)).record) (hforesees.fresh r hr.1) hidle hrecord
      (commutes_claim (hforesees.quiet r hr.1 hr.2) _) hrunnable (fun cell => if_pos rfl)
      (fun q hq cell => if_neg hq) fun q hq => Or.inl trivial
  refine ⟨hordered.claim _, hsteady, fun hleft => absurd trivial hleft,
    ⟨hrunnable, reached ++ skipped, rest', rfl, ?_, hforesees.not_runnable hidle⟩, fun e _ he => he.elim, ?_⟩
  · rw [← hkeys, hsplit, hrest]
    simp
  · intro e he heq
    exact not_after_picked h hforesees hahead hrest hrecord hst hflag e he (Eq.symm heq)

end Second

/-- **The second loop up to its next append.** -/
theorem linearized_second
    (h : Ordered call W₀ P F (call.secondStage reached) (· ∈ reached) (fun _ => True) s)
    (hsteady : Steady s.runtime s.appending .idle) (hkeys : s.runtime.keys = keys₀ ++ createdBy P)
    (hsplit : s.runtime.keys = reached ++ rest) (hsize : s.runtime.size = size)
    (hreached : ∀ q ∈ reached, ¬ call.Runnable (intakeCalls.after W₀ P) q)
    (hscan : SecondScan call reached rest size s.runtime next)
    (hlate : ∀ q ∈ next.1.reached, q ∉ reached → q ∉ s.late) :
    Linearized call W₀ keys₀ P F { s with runtime := next.2, claim := next.1 } := by
  have hsteady' := steady_second hsteady hsplit hsize hscan
  have hforesees := h.foresees hsplit hreached hlate
  cases hscan with
  | none hrest => exact linearized_none h hforesees hkeys hsplit rfl hrest hsteady'
  | cancel skipped r rest' st hrest hskipped hrecord hst hflag =>
    exact linearized_cancelling h hforesees hkeys hsplit rfl hrest hskipped hrecord hst hflag hsteady'
  | claim skipped r rest' st hrest hskipped hrecord hst hflag =>
    exact linearized_claiming h hforesees hkeys hsplit rfl hrest hskipped hrecord hst hflag hsteady'

/-- the first loop sees the record that the calls before it have left -/
theorem Ordered.first_seen (h : Ordered call W₀ P F (call.firstStage rest) (fun _ => False) (· ∉ rest) s) {q : UUID}
    (hq : q ∈ rest) : s.runtime.record? q = (intakeCalls.after W₀ P q).1 := by
  have hcell : s.cells q = call.firstStage rest q (intakeCalls.after W₀ P q) := by
    refine h.cell_untouched ?_
    rintro e he rfl
    rcases h.moved e he with hexpired | hsettled
    · exact ((h.expired _).1 hexpired).2 hq
    · exact hsettled
  rw [ClaimCall.firstStage, if_pos hq] at hcell
  exact congrArg Prod.fst hcell

/-- once no run that is left is overdue, the first loop has done its part and the second one starts -/
theorem Ordered.first_ended (h : Ordered call W₀ P F (call.firstStage rest) (fun _ => False) (· ∉ rest) s)
    (hrest : ∀ q ∈ rest, call.overdue q (s.runtime.record? q) = false) :
    Ordered call W₀ P F (call.secondStage []) (· ∈ []) (fun _ => True) s := by
  have hfresh : ∀ q ∈ rest, call.overdue q (intakeCalls.after W₀ P q).1 = false := by
    intro q hq
    rw [← h.first_seen hq]
    exact hrest q hq
  refine h.restage ?_ (fun q hq => hq.elim) fun q hq => ?_
  · intro q
    rw [ClaimCall.secondStage, if_neg (List.not_mem_nil), ClaimCall.firstStage]
    split_ifs with hq
    · exact recoverCell_of_not_overdue (hfresh q hq)
    · rfl
  · refine iff_true_intro fun hmem => ?_
    rw [hfresh q hmem] at hq
    cases hq

/-- the first loop stops at an overdue run, before it appends the event of the recovery -/
theorem linearized_expiring (h : Ordered call W₀ P F (call.firstStage rest) (fun _ => False) (· ∉ rest) s)
    (hkeys : s.runtime.keys = keys₀ ++ createdBy P) {skipped rest' : List UUID} {r : UUID} {st : RunStatus}
    (hrest : rest = skipped ++ r :: rest') (hskipped : ∀ q ∈ skipped, call.overdue q (s.runtime.record? q) = false)
    (hrecord : s.runtime.record? r = some st) (hoverdue : call.overdue r (some st) = true)
    (hsteady : Steady s.runtime s.appending (.expiring r st rest' size false)) :
    Linearized call W₀ keys₀ P F { s with claim := .expiring r st rest' size false } := by
  have hr : r ∈ rest := by rw [hrest]; simp
  have hfresh : ∀ q ∈ skipped, call.overdue q (intakeCalls.after W₀ P q).1 = false := by
    intro q hq
    rw [← h.first_seen (by rw [hrest]; simp [hq])]
    exact hskipped q hq
  have hmem : ∀ q, q ∈ rest ↔ q ∈ skipped ∨ q = r ∨ q ∈ rest' := by
    intro q
    rw [hrest]
    simp
  have hstage : ∀ q, ClaimTask.stage call (.expiring r st rest' size false) q (intakeCalls.after W₀ P q) =
      call.firstStage rest q (intakeCalls.after W₀ P q) := by
    intro q
    simp only [ClaimTask.stage, Cell.logIf, ClaimCall.firstStage]
    by_cases hq : q = r
    · simp [hq, hr]
    · by_cases hq' : q ∈ skipped
      · simp [hq, hmem, hq', recoverCell_of_not_overdue (hfresh q hq')]
      · simp [hq, hmem, hq']
  have hexamined : ∀ q, call.overdue q (intakeCalls.after W₀ P q).1 = true →
      (q ∉ rest ↔ ClaimTask.Examined q (.expiring r st rest' size false)) := by
    intro q hq
    have hskip : q ∉ skipped := by
      intro hmem
      rw [hfresh q hmem] at hq
      cases hq
    simp [hmem, ClaimTask.Examined, hskip, and_comm]
  refine ⟨(h.restage hstage (fun q hq => hq.elim) hexamined).claim _, hsteady, fun _ => hkeys, ?_,
    fun e he hexpiring => ?_, fun e _ he => he⟩
  · change call.overdue r (intakeCalls.after W₀ P r).1 = true
    rw [← h.first_seen hr, hrecord]
    exact hoverdue
  · rcases h.moved e he with hexpired | hsettled
    · obtain rfl : r = e.1.runId := hexpiring
      exact absurd hr ((h.expired _).1 hexpired).2
    · exact hsettled.elim

/-- **The first loop up to the next append.** -/
theorem linearized_first (h : Ordered call W₀ P F (call.firstStage rest) (fun _ => False) (· ∉ rest) s)
    (hsteady : Steady s.runtime s.appending .idle) (hkeys : s.runtime.keys = keys₀ ++ createdBy P)
    {before : List UUID} (hsplit : s.runtime.keys = before ++ rest) (hsize : s.runtime.size = size)
    (hscan : FirstScan call rest size s.runtime next) (hlate : ∀ q ∈ next.1.reached, q ∉ s.late) :
    Linearized call W₀ keys₀ P F { s with runtime := next.2, claim := next.1 } := by
  cases hscan with
  | ended hrest hsecond =>
    exact linearized_second (h.first_ended hrest) hsteady hkeys (List.nil_append _).symm hsize (by simp) hsecond
      fun q hq _ => hlate q hq
  | expiring skipped r rest' st hrest hskipped hrecord hoverdue =>
    exact linearized_expiring h hkeys hrest hskipped hrecord hoverdue
      (steady_first hsteady hsplit hsize (.expiring skipped r rest' st hrest hskipped hrecord hoverdue))

end Scans

end LlmAgent
