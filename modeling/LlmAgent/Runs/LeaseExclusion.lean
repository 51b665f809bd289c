/-
Lease exclusion: two successive claims of one run are separated by the expiry of the first lease.

`Held` is what is known of a run between two claims, relative to an expiry `bound` that the first lease reached and to
the time `last` of the second claim: it is still running under that lease or a longer one, or it was recovered once and
the bound lies in the past, or it is over.

- `held_step`: every decision but a claim keeps it;
- `reclaim_after_expiry`: a claim at its end is after the bound, one retry and one recovery later;
- `next_claim`: so the next claim of a run that runs under a lease comes after that lease;
- `lease_exclusion`: for the lease of the first claim and for every renewal accepted after it.
-/
import LlmAgent.Runs.StoreRefinement

namespace LlmAgent

open Core

/-- a run between two claims: `s` is its stream and `n` its retry count at the first one -/
def Held (bound last : UnixTs) (n : ℤ) (s : List RunEvent) (o : Option RunView) : Prop :=
  ∃ v between, o = some v ∧ v.events = s ++ between ∧ countEvents "claimed" between = 0 ∧
    ((v.record.status = .running ∧ v.record.retryCount = some n ∧ countEvents "claim_expired" between = 0 ∧
        ∃ expiration, v.record.claimExpirationUnixTs = some expiration ∧ bound ≤ expiration) ∨
      (v.record.status = .enqueued ∧ v.record.retryCount = some (n + 1) ∧ countEvents "claim_expired" between = 1 ∧
        bound < last) ∨
      v.record.status ∈ terminalRunStatuses)

/-- a decision taken between the two claims: at a clock reading between the bound's heartbeat and the second claim -/
structure Between (bound last : UnixTs) (a : Act) : Prop where
  noClaim : ∀ workerId now, a ≠ .claim workerId now
  foreign : a.Foreign
  after : bound ≤ a.now + seconds 30
  before : a.now ≤ last

section Step

variable {bound last : UnixTs} {n : ℤ} {v : RunView} {a : Act}

/-- such a decision appends no claimed event, and a claim_expired event only when it recovers the run -/
theorem Between.types (h : Between bound last a) : a.eventType ≠ some "claimed" ∧
    (a.eventType = some "claim_expired" → ∃ workerId now, a = .expire workerId now) := by
  cases a with
  | claim workerId now => exact absurd rfl (h.noClaim workerId now)
  | expire workerId now => exact ⟨by simp [Act.eventType, Act.event], fun _ => ⟨workerId, now, rfl⟩⟩
  | emit eventType payload now =>
    have hf := h.foreign
    simp only [Act.Foreign, ownEventTypes, List.mem_cons, List.not_mem_nil, or_false, not_or] at hf
    obtain ⟨-, -, -, -, hexp, hcl, -⟩ := hf
    exact ⟨fun he => hcl (Option.some.inj he), fun he => absurd (Option.some.inj he) hexp⟩
  | _ => simp [Act.eventType, Act.event]

/-- the running case of `held_step` -/
theorem running_step (hb : Between bound last a) (hg : a.Guard v.record) (hrun : v.record.status = .running)
    (hn : v.record.retryCount = some n)
    (hexp : ∃ expiration, v.record.claimExpirationUnixTs = some expiration ∧ bound ≤ expiration) :
    ((a.record v.record).status = .running ∧ (a.record v.record).retryCount = some n ∧
        a.eventType ≠ some "claim_expired" ∧
        ∃ expiration, (a.record v.record).claimExpirationUnixTs = some expiration ∧ bound ≤ expiration) ∨
      ((a.record v.record).status = .enqueued ∧ (a.record v.record).retryCount = some (n + 1) ∧
        a.eventType = some "claim_expired" ∧ bound < last) ∨
      (a.record v.record).status ∈ terminalRunStatuses := by
  cases a with
  | create => exact hg.elim
  | enqueue => rw [show v.record.status = _ from hg] at hrun; cases hrun
  | drop => rw [hg.1] at hrun; cases hrun
  | claim => rw [hg.1] at hrun; cases hrun
  | markCancel => exact Or.inr (Or.inr (by simp [Act.record, terminalRunStatuses]))
  | succeed => exact Or.inr (Or.inr (by simp [Act.record, terminalRunStatuses]))
  | fail => exact Or.inr (Or.inr (by simp [Act.record, terminalRunStatuses]))
  | cancel => exact Or.inr (Or.inr (by simp [Act.record, terminalRunStatuses]))
  | requestCancel => exact Or.inl ⟨hrun, hn, by simp [Act.eventType, Act.event], hexp⟩
  | loseClaim => exact Or.inl ⟨hrun, hn, by simp [Act.eventType, Act.event], hexp⟩
  | renew workerId now => exact Or.inl ⟨rfl, hn, by simp [Act.eventType, Act.event], _, rfl, hb.after⟩
  | emit eventType payload now =>
    refine Or.inl ⟨hrun, hn, fun he => ?_, hexp⟩
    obtain ⟨w, t, hbad⟩ := hb.types.2 he
    cases hbad
  | expire workerId now =>
    -- the recovery is after the expiry, which is at least the bound, and not after the second claim
    obtain ⟨expiration, hexpiration, hle⟩ := hexp
    obtain ⟨x, hx, -, hlt⟩ := hg.2
    obtain rfl := Option.some.inj (hexpiration.symm.trans hx)
    have hlast : bound < last := calc
      bound ≤ expiration := hle
      _ < now := hlt
      _ ≤ last := hb.before
    refine Or.inr (Or.inl ⟨rfl, ?_, rfl, hlast⟩)
    simp [Act.record, hn]

/-- the recovered case -/
theorem queued_step (hb : Between bound last a) (hg : a.Guard v.record) (hq : v.record.status = .enqueued)
    (hn : v.record.retryCount = some (n + 1)) :
    ((a.record v.record).status = .enqueued ∧ (a.record v.record).retryCount = some (n + 1) ∧
        a.eventType ≠ some "claim_expired") ∨ (a.record v.record).status ∈ terminalRunStatuses := by
  cases a with
  | create => exact hg.elim
  | enqueue => rw [show v.record.status = _ from hg] at hq; cases hq
  | expire => rw [hg.1] at hq; cases hq
  | renew => rw [hg.1] at hq; cases hq
  | loseClaim => rw [hg.1] at hq; cases hq
  | succeed => rw [show v.record.status = _ from hg] at hq; cases hq
  | fail => rw [show v.record.status = _ from hg] at hq; cases hq
  | claim workerId now => exact absurd rfl (hb.noClaim workerId now)
  | markCancel => exact Or.inr (by simp [Act.record, terminalRunStatuses])
  | cancel => exact Or.inr (by simp [Act.record, terminalRunStatuses])
  | drop => exact Or.inr (by simp [Act.record, terminalRunStatuses])
  | requestCancel => exact Or.inl ⟨hq, hn, by simp [Act.eventType, Act.event]⟩
  | emit eventType payload now =>
    refine Or.inl ⟨hq, hn, fun he => ?_⟩
    obtain ⟨w, t, hbad⟩ := hb.types.2 he
    cases hbad

/-- **Every decision but a claim keeps the run held.** -/
theorem held_step {r : UUID} {s : List RunEvent} {o : Option RunView} (hb : Between bound last a)
    (hI : Held bound last n s o) (hen : (lifecycle r).Enabled o a) : Held bound last n s ((lifecycle r).apply o a) := by
  obtain ⟨v, between, rfl, hevents, hclaimed, hcase⟩ := hI
  have hg : a.Guard v.record := hen
  refine ⟨v.effect a, between ++ v.nextEvents a, rfl, ?_, ?_, ?_⟩
  · rw [RunView.effect, hevents, List.append_assoc]
  · rw [countEvents_append, hclaimed, countEvents_nextEvents, if_neg hb.types.1]
  · have hcount := countEvents_append "claim_expired" between (v.nextEvents a)
    rw [countEvents_nextEvents] at hcount
    rcases hcase with ⟨hrun, hn, hzero, hexp⟩ | ⟨hq, hn, hone, hlast⟩ | ht
    · rcases running_step hb hg hrun hn hexp with ⟨hs, hn', htype, hexp'⟩ | ⟨hs, hn', htype, hlast⟩ | ht
      · exact Or.inl ⟨hs, hn', by rw [hcount, hzero, if_neg htype], hexp'⟩
      · exact Or.inr (Or.inl ⟨hs, hn', by rw [hcount, hzero, if_pos htype], hlast⟩)
      · exact Or.inr (Or.inr ht)
    · rcases queued_step hb hg hq hn with ⟨hs, hn', htype⟩ | ht
      · exact Or.inr (Or.inl ⟨hs, hn', by rw [hcount, hone, if_neg htype], hlast⟩)
      · exact Or.inr (Or.inr ht)
    · refine Or.inr (Or.inr ?_)
      change (a.record v.record).status ∈ terminalRunStatuses
      rw [(record_of_terminal ht hg).1]
      exact ht

end Step

/-! ## Calls between two claims -/

/-- the call claims run `r` -/
def ClaimsRun (r : UUID) (rt : InMemoryRuntime) (op : StoreOp) : Prop :=
  ∃ workerId now c, op = .claimRun workerId now ∧ stores.reply rt op = .claimed (some c) ∧ c.id = r

/-- the decisions of a call that does not claim `r` -/
theorem decisions_between {bound last : UnixTs} {r : UUID} {rt : InMemoryRuntime} (hgood : Good rt) {op : StoreOp}
    (hno : ¬ ClaimsRun r rt op) (hforeign : op.Foreign) (hafter : bound ≤ op.now + seconds 30)
    (hbefore : op.now ≤ last) {a : Act} (hmem : (r, a) ∈ op.decisions rt) : Between bound last a := by
  have hnow := now_of_mem hmem
  refine ⟨fun workerId now ha => ?_, foreign_of_mem hforeign hmem, by rwa [hnow], by rwa [hnow]⟩
  subst ha
  cases op with
  | claimRun w t =>
    exact not_claimed_of_reply hgood (fun c hc hid => hno ⟨w, t, c, rfl, hc, hid⟩) hmem
  | heartbeat => rcases causes_of_mem hmem with h | h <;> cases h
  | orchestratorCreateRun => rcases causes_of_mem hmem with h | h <;> cases h
  | getStatus => cases hmem
  | _ => exact absurd (causes_of_mem hmem) (by simp [StoreOp.Causes])

theorem held_run {bound last : UnixTs} {n : ℤ} {s : List RunEvent} {r : UUID} {rt : InMemoryRuntime} (hgood : Good rt)
    {mid : List StoreOp} (hI : Held bound last n s (rt.view r))
    (hno : stores.Along (fun rt op => ¬ ClaimsRun r rt op) rt mid)
    (hmid : ∀ op ∈ mid, op.Foreign ∧ bound ≤ op.now + seconds 30 ∧ op.now ≤ last) :
    Held bound last n s ((stores.run rt mid).view r) := by
  refine storesRefine.inv_run (I := fun rt => Held bound last n s (rt.view r)) ?_ hgood hI
    (hno.and (Machine.along_of_mem hmid rt))
  intro rt op hgood hheld hop
  obtain ⟨hno, hf, hafter, hbefore⟩ := hop
  refine (exec_performs hgood op).keeps (fun _ _ => held_step) ?_ hheld
  intro a hmem
  exact decisions_between hgood hno hf hafter hbefore hmem

/-- **A claim of a held run comes after the bound**, one recovery and one retry later. -/
theorem reclaim_after_expiry {bound now : UnixTs} {n : ℤ} {s : List RunEvent} {rt : InMemoryRuntime} (hgood : Good rt)
    {workerId : String} {c : ClaimedRun} (hreply : stores.reply rt (.claimRun workerId now) = .claimed (some c))
    (hI : Held bound now n s (rt.view c.id)) (hafter : bound ≤ now + seconds 30) :
    bound < now ∧ c.runStatus.retryCount = some (n + 1) ∧ ∃ between e,
      (stores.step rt (.claimRun workerId now)).stream c.id = s ++ between ++ [e] ∧ e.eventType = "claimed" ∧
      countEvents "claimed" between = 0 ∧ countEvents "claim_expired" between = 1 := by
  obtain ⟨l, v, -, hl, hlegal, hv, hg, hview, hrec⟩ := claimRun_some hgood (claimed_reply hreply)
  have hbetween : ∀ a, (c.id, a) ∈ l → Between bound now a := by
    intro a hmem
    rcases hl _ hmem with rfl | rfl
    · exact ⟨by simp, trivial, hafter, le_refl now⟩
    · exact ⟨by simp, trivial, hafter, le_refl now⟩
  have hheld := Automaton.family_keeps (fun _ _ => held_step) hlegal hbetween hI
  obtain ⟨v', between, hv', hevents, hclaimed, hcase⟩ := hheld
  obtain rfl : v = v' := Option.some.inj (hv.symm.trans hv')
  rcases hcase with ⟨hrun, -⟩ | ⟨-, hn, hone, hlt⟩ | ht
  · rw [hg.1] at hrun
    cases hrun
  · refine ⟨hlt, by rw [hrec]; exact hn, between,
      ⟨v.record.id, v.events.length + 1, "claimed", [("worker", workerId)], now⟩, ?_, rfl, hclaimed, hone⟩
    have heffect : (v.effect (.claim workerId now)).events = v.events ++
        [⟨v.record.id, v.events.length + 1, "claimed", [("worker", workerId)], now⟩] := rfl
    rw [← (view_some_iff.1 hview).2.1, heffect, hevents]
  · rw [hg.1] at ht
    exact absurd ht (by decide)

/-! ## Two successive claims -/

/-- the call is a heartbeat for `r` that was accepted, and it wrote the expiry `expiration` -/
def AcceptedHeartbeat (r : UUID) (expiration : UnixTs) (rt : InMemoryRuntime) (op : StoreOp) : Prop :=
  ∃ workerId now st, op = .heartbeat r workerId now ∧ stores.reply rt op = .status st ∧ st.status = .running ∧
    st.claimExpirationUnixTs = some expiration

/-- an accepted heartbeat leaves the run running with the expiry it wrote, thirty seconds after its clock reading, and
the stream and the retry count as they were -/
theorem AcceptedHeartbeat.spec {r : UUID} {expiration : UnixTs} {rt : InMemoryRuntime} {op : StoreOp} (hgood : Good rt)
    (h : AcceptedHeartbeat r expiration rt op) : expiration = op.now + seconds 30 ∧
      ∃ v v', rt.view r = some v ∧ (stores.step rt op).view r = some v' ∧ v'.events = v.events ∧
        v.record.status = .running ∧ v'.record.status = .running ∧ v'.record.retryCount = v.record.retryCount ∧
        v'.record.claimExpirationUnixTs = some expiration := by
  obtain ⟨workerId, now, st, rfl, hreply, hst, hexp⟩ := h
  rcases heartbeat_spec hgood r workerId now with ⟨-, hrun⟩ | ⟨v, hv, ⟨hs, hrun⟩ | ⟨-, -, rt', hrun, -⟩ |
    ⟨hs, ho, rt', hrun, hp⟩⟩ <;> have hans : (answer .status (heartbeat r workerId now) rt).1 = .status st := hreply
  · rw [answer_error hrun] at hans
    cases hans
  · rw [answer_ok hrun] at hans
    rw [Reply.status.inj hans] at hs
    exact absurd hst hs
  · rw [answer_error hrun] at hans
    cases hans
  · rw [answer_ok hrun] at hans
    obtain rfl := Reply.status.inj hans
    obtain rfl : now + seconds 30 = expiration := Option.some.inj hexp
    have hstep : stores.step rt (.heartbeat r workerId now) = rt' := by
      change (answer .status (heartbeat r workerId now) rt).2 = rt'
      rw [answer_ok hrun]
    refine ⟨rfl, v, v.effect (.renew workerId now), hv, hstep ▸ hp.effect hv, ?_, hs, rfl, rfl, rfl⟩
    simp [RunView.effect, RunView.nextEvents, Act.event]

/-- the clock readings of a run do not go back -/
def NonDecreasing (ops : List StoreOp) : Prop := (ops.map StoreOp.now).Pairwise (· ≤ ·)

theorem NonDecreasing.le {pre post : List StoreOp} {op op' : StoreOp} (h : NonDecreasing (pre ++ op :: post))
    (hop : op' ∈ post) : op.now ≤ op'.now := by
  rw [NonDecreasing, List.map_append, List.map_cons, List.pairwise_append, List.pairwise_cons] at h
  exact h.2.1.1 _ (List.mem_map_of_mem hop)

/-- `r` runs under a lease up to `bound`; the next claim of it is after `bound` -/
theorem next_claim {rt : InMemoryRuntime} (hgood : Good rt) {r : UUID} {v : RunView} (hv : rt.view r = some v)
    (hrun : v.record.status = .running) {bound : UnixTs} (hexp : v.record.claimExpirationUnixTs = some bound)
    {mid : List StoreOp} {workerId : String} {now : UnixTs} {c : ClaimedRun}
    (hno : stores.Along (fun rt op => ¬ ClaimsRun r rt op) rt mid)
    (hmid : ∀ op ∈ mid, op.Foreign ∧ bound ≤ op.now + seconds 30 ∧ op.now ≤ now)
    (hafter : bound ≤ now + seconds 30)
    (hreply : stores.reply (stores.run rt mid) (StoreOp.claimRun workerId now) = .claimed (some c)) (hr : c.id = r) :
    bound < now ∧ (∃ n, v.record.retryCount = some n ∧ c.runStatus.retryCount = some (n + 1)) ∧ ∃ between e,
      (stores.run rt (mid ++ [StoreOp.claimRun workerId now])).stream r = v.events ++ between ++ [e] ∧
      e.eventType = "claimed" ∧ countEvents "claimed" between = 0 ∧ countEvents "claim_expired" between = 1 := by
  subst hr
  obtain ⟨n, hn⟩ := (hgood.sound _ _ hv).retries
  have hheld : Held bound now n v.events (rt.view c.id) :=
    ⟨v, [], hv, (List.append_nil _).symm, rfl, Or.inl ⟨hrun, hn, rfl, bound, hexp, le_refl bound⟩⟩
  have hend := held_run hgood hheld hno hmid
  obtain ⟨hlt, hn', hstream⟩ := reclaim_after_expiry (storesRefine.good_run hgood mid) hreply hend hafter
  rw [← Machine.run_snoc] at hstream
  exact ⟨hlt, ⟨n, hn, hn'⟩, hstream⟩

/-- the two claims, from any runtime in order -/
theorem two_claims {rt : InMemoryRuntime} (hgood : Good rt) {mid : List StoreOp} {w₁ w₂ : String} {t₁ t₂ : UnixTs}
    {c₁ c₂ : ClaimedRun} {r : UUID}
    (hclock : NonDecreasing (StoreOp.claimRun w₁ t₁ :: (mid ++ [StoreOp.claimRun w₂ t₂])))
    (hforeign : ∀ op ∈ mid, op.Foreign) (h₁ : stores.reply rt (StoreOp.claimRun w₁ t₁) = .claimed (some c₁))
    (hr₁ : c₁.id = r)
    {rt₁ : InMemoryRuntime} (hrt₁ : stores.step rt (StoreOp.claimRun w₁ t₁) = rt₁)
    (hsuccessive : stores.Along (fun rt op => ¬ ClaimsRun r rt op) rt₁ mid)
    (h₂ : stores.reply (stores.run rt₁ mid) (StoreOp.claimRun w₂ t₂) = .claimed (some c₂)) (hr₂ : c₂.id = r) :
    (c₁.runStatus.claimExpirationUnixTs = some (t₁ + seconds 30) ∧ t₁ + seconds 30 < t₂) ∧
    (∀ a op b expiration, mid = a ++ op :: b → AcceptedHeartbeat r expiration (stores.run rt₁ a) op →
      expiration < t₂) ∧
    (∃ s e₁ between e₂, rt₁.stream r = s ++ [e₁] ∧
      (stores.run rt₁ (mid ++ [StoreOp.claimRun w₂ t₂])).stream r = s ++ [e₁] ++ between ++ [e₂] ∧
      e₁.eventType = "claimed" ∧ e₂.eventType = "claimed" ∧ countEvents "claimed" between = 0 ∧
      countEvents "claim_expired" between = 1) ∧
    ∃ n, c₁.runStatus.retryCount = some n ∧ c₂.runStatus.retryCount = some (n + 1) := by
  subst hr₁
  obtain ⟨-, v₁, -, -, -, -, -, hview₁, hrec₁⟩ := claimRun_some hgood (claimed_reply h₁)
  have hgood₁ : Good rt₁ := hrt₁ ▸ (exec_performs hgood _).good hgood
  rw [hrt₁] at hview₁
  have hle₁ : ∀ op ∈ mid ++ [StoreOp.claimRun w₂ t₂], t₁ + seconds 30 ≤ op.now + seconds 30 :=
    fun op hop => Nat.add_le_add_right (@NonDecreasing.le [] _ _ _ hclock hop) _
  have hclock' : ∀ a op b, mid = a ++ op :: b →
      NonDecreasing ((StoreOp.claimRun w₁ t₁ :: a) ++ op :: (b ++ [StoreOp.claimRun w₂ t₂])) := by
    rintro a op b rfl
    simpa using hclock
  have hle₂ : ∀ op ∈ mid, op.now ≤ t₂ := by
    intro op hop
    obtain ⟨a, b, hab⟩ := List.append_of_mem hop
    exact (hclock' a op b hab).le (by simp : StoreOp.claimRun w₂ t₂ ∈ b ++ [StoreOp.claimRun w₂ t₂])
  -- from the first claim on
  obtain ⟨hlt, ⟨n, hn, hn'⟩, between, e₂, hstream, he₂, hb₁, hb₂⟩ := next_claim hgood₁ hview₁ rfl rfl hsuccessive
    (fun op hop => ⟨hforeign op hop, hle₁ op (List.mem_append_left _ hop), hle₂ op hop⟩)
    (hle₁ (StoreOp.claimRun w₂ t₂) (by simp)) h₂ hr₂
  refine ⟨⟨by rw [hrec₁]; rfl, hlt⟩, ?_, ⟨v₁.events, ⟨v₁.record.id, v₁.events.length + 1, "claimed",
    [("worker", w₁)], t₁⟩, between, e₂, (view_some_iff.1 hview₁).2.1.symm, hstream, rfl, he₂, hb₁, hb₂⟩, n,
    by rw [hrec₁]; exact hn, hn'⟩
  -- from an accepted heartbeat on
  intro a op b expiration hmid hacc
  subst hmid
  rw [Machine.along_append, Machine.along_cons] at hsuccessive
  rw [Machine.run_append, Machine.run_cons] at h₂
  have hgooda := storesRefine.good_run hgood₁ a
  obtain ⟨rfl, v, v', -, hview', -, -, hrun', -, hexp'⟩ := hacc.spec hgooda
  have hle' : ∀ op' ∈ b ++ [StoreOp.claimRun w₂ t₂], op.now + seconds 30 ≤ op'.now + seconds 30 :=
    fun op' hop' => Nat.add_le_add_right ((hclock' a op b rfl).le hop') _
  exact (next_claim ((exec_performs hgooda op).good hgooda) hview' hrun' hexp' hsuccessive.2.2
    (fun op' hop' => ⟨hforeign op' (by simp [hop']), hle' op' (List.mem_append_left _ hop'), hle₂ op' (by simp [hop'])⟩)
    (hle' (StoreOp.claimRun w₂ t₂) (by simp)) h₂ hr₂).1

/-- **Lease exclusion.** Let two calls of `claim_run` at `t₁` and `t₂` answer the run `r`, with no claim of `r` between
them. Then `t₂` is after every expiry that the first claim or an accepted heartbeat between them wrote for `r`; between
the two claimed events the stream holds exactly one claim_expired event; and the second claim is exactly one retry
later. -/
theorem lease_exclusion {pre mid : List StoreOp} {w₁ w₂ : String} {t₁ t₂ : UnixTs} {c₁ c₂ : ClaimedRun} {r : UUID}
    (hclock : NonDecreasing (pre ++ StoreOp.claimRun w₁ t₁ :: (mid ++ [StoreOp.claimRun w₂ t₂])))
    (hforeign : ∀ op ∈ mid, op.Foreign)
    (h₁ : stores.reply (stores.run createDefaultInMemoryRuntime pre) (StoreOp.claimRun w₁ t₁) = .claimed (some c₁))
    (hr₁ : c₁.id = r)
    (hsuccessive : stores.Along (fun rt op => ¬ ClaimsRun r rt op)
      (stores.run createDefaultInMemoryRuntime (pre ++ [StoreOp.claimRun w₁ t₁])) mid)
    (h₂ : stores.reply (stores.run createDefaultInMemoryRuntime (pre ++ StoreOp.claimRun w₁ t₁ :: mid))
      (StoreOp.claimRun w₂ t₂) = .claimed (some c₂))
    (hr₂ : c₂.id = r) :
    (c₁.runStatus.claimExpirationUnixTs = some (t₁ + seconds 30) ∧ t₁ + seconds 30 < t₂) ∧
    (∀ a op b expiration, mid = a ++ op :: b → AcceptedHeartbeat r expiration
      (stores.run createDefaultInMemoryRuntime (pre ++ StoreOp.claimRun w₁ t₁ :: a)) op → expiration < t₂) ∧
    (∃ s e₁ between e₂,
      (stores.run createDefaultInMemoryRuntime (pre ++ [StoreOp.claimRun w₁ t₁])).stream r = s ++ [e₁] ∧
      (stores.run createDefaultInMemoryRuntime
        (pre ++ StoreOp.claimRun w₁ t₁ :: (mid ++ [StoreOp.claimRun w₂ t₂]))).stream r =
        s ++ [e₁] ++ between ++ [e₂] ∧
      e₁.eventType = "claimed" ∧ e₂.eventType = "claimed" ∧ countEvents "claimed" between = 0 ∧
      countEvents "claim_expired" between = 1) ∧
    ∃ n, c₁.runStatus.retryCount = some n ∧ c₂.runStatus.retryCount = some (n + 1) := by
  have hsuffix : NonDecreasing (StoreOp.claimRun w₁ t₁ :: (mid ++ [StoreOp.claimRun w₂ t₂])) := by
    rw [NonDecreasing, List.map_append, List.pairwise_append] at hclock
    exact hclock.2.1
  simp only [Machine.run_append _ _ pre, Machine.run_cons, Machine.run_nil] at h₂ hsuccessive ⊢
  exact two_claims (reachable_good pre) hsuffix hforeign h₁ hr₁ rfl hsuccessive h₂ hr₂

/-- the first lease of run 1, renewed once -/
def firstClaim : ClaimedRun :=
  ⟨1, "enqueued", ⟨1, .running, none, none, some "w1", some (seconds 31), some 0, false⟩⟩

/-- the second lease, after the first ran out -/
def secondClaim : ClaimedRun :=
  ⟨1, "enqueued", ⟨1, .running, none, none, some "w2", some (seconds 70), some 1, false⟩⟩

/-- the run's creation -/
def beforeLease : List StoreOp := [.orchestratorCreateRun 1 "user_1" 10]

/-- the renewal -/
def duringLease : List StoreOp := [.heartbeat 1 "w1" (seconds 6)]

theorem lease_exclusion_reclaimed :
    (firstClaim.runStatus.claimExpirationUnixTs = some (seconds 1 + seconds 30) ∧ seconds 1 + seconds 30 < seconds 40) ∧
    (∀ a op b expiration, duringLease = a ++ op :: b → AcceptedHeartbeat 1 expiration
      (stores.run createDefaultInMemoryRuntime (beforeLease ++ .claimRun "w1" (seconds 1) :: a)) op →
        expiration < seconds 40) ∧
    (∃ s e₁ between e₂,
      (stores.run createDefaultInMemoryRuntime (beforeLease ++ [.claimRun "w1" (seconds 1)])).stream 1 = s ++ [e₁] ∧
      (stores.run createDefaultInMemoryRuntime (beforeLease ++ .claimRun "w1" (seconds 1) ::
        (duringLease ++ [.claimRun "w2" (seconds 40)]))).stream 1 = s ++ [e₁] ++ between ++ [e₂] ∧
      e₁.eventType = "claimed" ∧ e₂.eventType = "claimed" ∧ countEvents "claimed" between = 0 ∧
      countEvents "claim_expired" between = 1) ∧
    ∃ n, firstClaim.runStatus.retryCount = some n ∧ secondClaim.runStatus.retryCount = some (n + 1) := by
  have hclock : NonDecreasing (beforeLease ++ StoreOp.claimRun "w1" (seconds 1) ::
      (duringLease ++ [StoreOp.claimRun "w2" (seconds 40)])) := by
    simp [NonDecreasing, beforeLease, duringLease, StoreOp.now, seconds]
  refine lease_exclusion hclock (by simp [duringLease, StoreOp.Foreign]) (by rfl) (by rfl) ⟨?_, trivial⟩ (by rfl)
    (by rfl)
  intro hclaims
  obtain ⟨workerId, now, c, hbad, -⟩ := hclaims
  cases hbad

end LlmAgent
