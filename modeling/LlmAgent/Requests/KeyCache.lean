/-
What the validation client knows of the identity provider, under any calls and answers.

Its two caches are read-through caches: a call that awaits the metadata or the keys is a reader that fetches, and an
answer that is no exception fills the cache.

- `metadataRefine`, `jwksRefine`: every step of the client is at most one access to each cache;
- `Delivered`, `honest_run`: what is cached, and what a call works on, was answered to a request for that URL;
- `accepted_verified`: an accepted token verified under a key that the identity provider served;
- `warm_calls`: once both documents are cached and nobody awaits either, they decide every later call at once;
- `late_answers`: once one of them is cached, it is replaced at most once for each call that awaited it.
-/
import LlmAgent.Core.ReadThrough
import LlmAgent.Requests.TokenValidation

namespace LlmAgent

open Core

/-! ## The caches -/

/-- the metadata that a call awaits -/
def Validation.discoveryUrl? : Validation → Option String
  | .metadata _ oidcDiscoveryUrl => some oidcDiscoveryUrl
  | .jwks _ _ _ _ => none

/-- the keys that a call awaits -/
def Validation.jwksUri? : Validation → Option String
  | .metadata _ _ => none
  | .jwks _ _ _ jwksUri => some jwksUri

namespace JwtValidationClient

def metadataTable (c : JwtValidationClient) : ReadThrough String PyAny ℕ :=
  ⟨c.metadataCache.get?, fun call => (c.calls call).bind Validation.discoveryUrl?⟩

def jwksTable (c : JwtValidationClient) : ReadThrough String PyAny ℕ :=
  ⟨c.jwksCache.get?, fun call => (c.calls call).bind Validation.jwksUri?⟩

/-- what a step does to the metadata cache -/
def metadataAccess (c : JwtValidationClient) : ClientOp → Option (Access String PyAny ℕ)
  | .authenticate call _ oidcDiscoveryUrl _ =>
    if (c.calls call).isSome ∨ (c.metadataCache.get? oidcDiscoveryUrl).isSome then none
    else some (.miss call oidcDiscoveryUrl)
  | .respond call response _ =>
    match c.calls call, response with
    | some (.metadata _ _), .ok metadata => some (.fill call metadata)
    | some (.metadata _ _), .error _ => some (.fail call)
    | _, _ => none

/-- what `_get_jwks` does to the other cache -/
def jwksMiss (c : JwtValidationClient) (call : ℕ) (metadata : PyAny) : Option (Access String PyAny ℕ) :=
  match metadata.getItem "jwks_uri" with
  | .ok (.str jwksUri) => if (c.jwksCache.get? jwksUri).isSome then none else some (.miss call jwksUri)
  | _ => none

/-- what a step does to the cache of keys -/
def jwksAccess (c : JwtValidationClient) : ClientOp → Option (Access String PyAny ℕ)
  | .authenticate call _ oidcDiscoveryUrl _ =>
    if (c.calls call).isSome then none
    else (c.metadataCache.get? oidcDiscoveryUrl).bind (c.jwksMiss call)
  | .respond call response _ =>
    match c.calls call, response with
    | some (.metadata _ _), .ok metadata => c.jwksMiss call metadata
    | some (.jwks _ _ _ _), .ok jwks => some (.fill call jwks)
    | some (.jwks _ _ _ _), .error _ => some (.fail call)
    | _, _ => none

end JwtValidationClient

section Refinement

variable {lib : TokenLibraries} {c : JwtValidationClient}

theorem get?_set {κ ν : Type} [DecidableEq κ] (d : Dict κ ν) (k : κ) (v : ν) :
    (d.set k v).get? = Function.update d.get? k (some v) := by
  funext j
  by_cases h : j = k
  · subst h
    rw [Dict.get?_set_self, Function.update_self]
  · rw [Dict.get?_set_ne _ _ h, Function.update_of_ne h]

/-- where a call stands, as the caches see it -/
theorem awaiting_update (key : Validation → Option String) (calls : ℕ → Option Validation) (call : ℕ)
    (validation : Option Validation) :
    (fun t => (Function.update calls call validation t).bind key) =
      Function.update (fun t => (calls t).bind key) call (validation.bind key) := by
  funext t
  by_cases h : t = call
  · subst h
    rw [Function.update_self, Function.update_self]
  · rw [Function.update_of_ne h, Function.update_of_ne h]

theorem metadataTable_stand (call : ℕ) (validation : Option Validation) :
    (c.stand call validation).metadataTable = ⟨c.metadataTable.stored,
      Function.update c.metadataTable.fetching call (validation.bind Validation.discoveryUrl?)⟩ := by
  unfold JwtValidationClient.metadataTable JwtValidationClient.stand
  rw [awaiting_update]

theorem jwksTable_stand (call : ℕ) (validation : Option Validation) :
    (c.stand call validation).jwksTable = ⟨c.jwksTable.stored,
      Function.update c.jwksTable.fetching call (validation.bind Validation.jwksUri?)⟩ := by
  unfold JwtValidationClient.jwksTable JwtValidationClient.stand
  rw [awaiting_update]

/-- `_get_jwks` does not await metadata -/
theorem metadataTable_getJwks (call : ℕ) (token url : String) (metadata : PyAny) (now : UnixTs) :
    (c.getJwks lib call token url metadata now).2.metadataTable =
      ⟨c.metadataTable.stored, Function.update c.metadataTable.fetching call none⟩ := by
  unfold JwtValidationClient.getJwks
  split
  · exact metadataTable_stand call none
  · split
    · exact metadataTable_stand call none
    · exact metadataTable_stand call _
  · exact metadataTable_stand call none

theorem update_none {τ κ : Type} [DecidableEq τ] {f : τ → Option κ} {t : τ} (h : f t = none) :
    Function.update f t none = f := by
  rw [← h]
  exact Function.update_eq_self t f

/-- a call that awaits nothing reads the cache of keys, or starts to fetch them -/
theorem jwksTable_getJwks {call : ℕ} (hfree : c.jwksTable.fetching call = none) (token url : String) (metadata : PyAny)
    (now : UnixTs) : readThrough.Legal c.jwksTable (c.jwksMiss call metadata).toList ∧
      (c.getJwks lib call token url metadata now).2.jwksTable =
        readThrough.run c.jwksTable (c.jwksMiss call metadata).toList := by
  have hdone : (c.stand call none).jwksTable = c.jwksTable := by
    rw [jwksTable_stand, Option.bind_none, update_none hfree]
  unfold JwtValidationClient.getJwks JwtValidationClient.jwksMiss
  cases metadata.getItem "jwks_uri" with
  | error e => exact ⟨trivial, hdone⟩
  | ok uri =>
    cases uri with
    | str jwksUri =>
      dsimp only
      cases hcache : c.jwksCache.get? jwksUri with
      | some jwks => exact ⟨trivial, hdone⟩
      | none => exact ⟨⟨⟨hfree, hcache⟩, trivial⟩, jwksTable_stand call _⟩
    | _ => exact ⟨trivial, hdone⟩

variable (lib c) in
/-- **Every step is at most one access to the metadata cache.** -/
theorem metadata_step (op : ClientOp) : readThrough.Legal c.metadataTable (c.metadataAccess op).toList ∧
    ((tokenClient lib).step c op).metadataTable = readThrough.run c.metadataTable (c.metadataAccess op).toList := by
  cases op with
  | authenticate call token url now =>
    change _ ∧ (c.exec lib (.authenticate call token url now)).2.metadataTable = _
    simp only [JwtValidationClient.exec, JwtValidationClient.metadataAccess]
    cases hcall : c.calls call with
    | some validation => exact ⟨trivial, rfl⟩
    | none =>
      have hfree : c.metadataTable.fetching call = none := by
        simp only [JwtValidationClient.metadataTable, hcall, Option.bind_none]
      cases hcache : c.metadataCache.get? url with
      | none => exact ⟨⟨⟨hfree, hcache⟩, trivial⟩, metadataTable_stand call _⟩
      | some metadata =>
        refine ⟨trivial, (metadataTable_getJwks call token url metadata now).trans ?_⟩
        rw [update_none hfree]
        rfl
  | respond call response now =>
    change _ ∧ (c.exec lib (.respond call response now)).2.metadataTable = _
    simp only [JwtValidationClient.exec, JwtValidationClient.metadataAccess]
    cases hcall : c.calls call with
    | none => exact ⟨trivial, rfl⟩
    | some validation =>
      cases validation with
      | metadata token url =>
        have hfetching : c.metadataTable.fetching call = some url := by
          simp only [JwtValidationClient.metadataTable, hcall]
          rfl
        cases response with
        | error e => exact ⟨⟨⟨url, hfetching⟩, trivial⟩, metadataTable_stand call none⟩
        | ok metadata =>
          refine ⟨⟨⟨url, hfetching⟩, trivial⟩, (metadataTable_getJwks call token url metadata now).trans ?_⟩
          change _ = c.metadataTable.apply (.fill call metadata)
          simp only [ReadThrough.apply, hfetching]
          simp only [JwtValidationClient.metadataTable, get?_set]
      | jwks token url metadata uri =>
        have hfree : c.metadataTable.fetching call = none := by
          simp only [JwtValidationClient.metadataTable, hcall]
          rfl
        have hdone : (c.stand call none).metadataTable = c.metadataTable := by
          rw [metadataTable_stand, Option.bind_none, update_none hfree]
        cases response with
        | error e => exact ⟨trivial, hdone⟩
        | ok jwks => exact ⟨trivial, hdone⟩

variable (lib c) in
/-- **Every step is at most one access to the cache of keys.** -/
theorem jwks_step (op : ClientOp) : readThrough.Legal c.jwksTable (c.jwksAccess op).toList ∧
    ((tokenClient lib).step c op).jwksTable = readThrough.run c.jwksTable (c.jwksAccess op).toList := by
  cases op with
  | authenticate call token url now =>
    change _ ∧ (c.exec lib (.authenticate call token url now)).2.jwksTable = _
    simp only [JwtValidationClient.exec, JwtValidationClient.jwksAccess]
    cases hcall : c.calls call with
    | some validation => exact ⟨trivial, rfl⟩
    | none =>
      have hfree : c.jwksTable.fetching call = none := by
        simp only [JwtValidationClient.jwksTable, hcall, Option.bind_none]
      cases hcache : c.metadataCache.get? url with
      | some metadata => exact jwksTable_getJwks hfree token url metadata now
      | none =>
        refine ⟨trivial, (jwksTable_stand call _).trans ?_⟩
        change _ = c.jwksTable
        rw [show ((some (Validation.metadata token url)).bind Validation.jwksUri?) = none from rfl, update_none hfree]
  | respond call response now =>
    change _ ∧ (c.exec lib (.respond call response now)).2.jwksTable = _
    simp only [JwtValidationClient.exec, JwtValidationClient.jwksAccess]
    cases hcall : c.calls call with
    | none => exact ⟨trivial, rfl⟩
    | some validation =>
      cases validation with
      | metadata token url =>
        have hfree : c.jwksTable.fetching call = none := by
          simp only [JwtValidationClient.jwksTable, hcall]
          rfl
        cases response with
        | ok metadata =>
          exact jwksTable_getJwks (c := { c with metadataCache := c.metadataCache.set url metadata }) hfree token url
            metadata now
        | error e =>
          refine ⟨trivial, (jwksTable_stand call none).trans ?_⟩
          rw [Option.bind_none, update_none hfree]
          rfl
      | jwks token url metadata uri =>
        have hfetching : c.jwksTable.fetching call = some uri := by
          simp only [JwtValidationClient.jwksTable, hcall]
          rfl
        cases response with
        | error e => exact ⟨⟨⟨uri, hfetching⟩, trivial⟩, jwksTable_stand call none⟩
        | ok jwks =>
          refine ⟨⟨⟨uri, hfetching⟩, trivial⟩, (jwksTable_stand call none).trans ?_⟩
          change _ = c.jwksTable.apply (.fill call jwks)
          simp only [ReadThrough.apply, hfetching]
          simp only [JwtValidationClient.jwksTable, get?_set]
          rfl

end Refinement

/-- **The metadata cache is a read-through cache.** -/
def metadataRefine (lib : TokenLibraries) : Refines (tokenClient lib) (readThrough (κ := String) (ν := PyAny) (τ := ℕ))
    where
  abs := JwtValidationClient.metadataTable
  Good _ := True
  Explains c op l := l = (c.metadataAccess op).toList
  step c op _ :=
    have h := metadata_step lib c op
    ⟨trivial, _, rfl, h.1, h.2⟩

/-- **So is the cache of keys.** -/
def jwksRefine (lib : TokenLibraries) : Refines (tokenClient lib) (readThrough (κ := String) (ν := PyAny) (τ := ℕ))
    where
  abs := JwtValidationClient.jwksTable
  Good _ := True
  Explains c op l := l = (c.jwksAccess op).toList
  step c op _ :=
    have h := jwks_step lib c op
    ⟨trivial, _, rfl, h.1, h.2⟩

/-! ## What was delivered -/

/-- the identity provider answered `body` to a request for `url` -/
def Delivered (lib : TokenLibraries) (ops : List ClientOp) (url : String) (body : PyAny) : Prop :=
  (tokenClient lib).Occurs (fun c op => ∃ call now, op = .respond call (.ok body) now ∧ c.getting lib call = some url)
    {} ops

/-- **All that the client works with was delivered.** -/
structure Honest (lib : TokenLibraries) (ops : List ClientOp) (c : JwtValidationClient) : Prop where
  metadata : ∀ url m, c.metadataCache.get? url = some m → Delivered lib ops (lib.wellKnownUrl url) m
  jwks : ∀ uri j, c.jwksCache.get? uri = some j → Delivered lib ops uri j
  calls : ∀ call token url m uri, c.calls call = some (.jwks token url m uri) →
    Delivered lib ops (lib.wellKnownUrl url) m ∧ m.getItem "jwks_uri" = .ok (.str uri)

section Delivered

variable {lib : TokenLibraries} {ops : List ClientOp} {c : JwtValidationClient}

theorem Delivered.snoc {url : String} {body : PyAny} (h : Delivered lib ops url body) (op : ClientOp) :
    Delivered lib (ops ++ [op]) url body := (Machine.occurs_snoc _ ops op).2 (Or.inl h)

/-- the last answer was delivered -/
theorem delivered_last {call : ℕ} {body : PyAny} {now : UnixTs} {url : String}
    (h : ((tokenClient lib).run {} ops).getting lib call = some url) :
    Delivered lib (ops ++ [.respond call (.ok body) now]) url body :=
  (Machine.occurs_snoc _ ops _).2 (Or.inr ⟨call, now, rfl, h⟩)

/-- what a step leaves in a cache was there, or is the answer it takes -/
theorem filled {o : Option (Access String PyAny ℕ)} {t : ReadThrough String PyAny ℕ} (hl : readThrough.Legal t o.toList)
    {k : String} {v : PyAny} (h : (readThrough.run t o.toList).stored k = some v) :
    t.stored k = some v ∨ ∃ call, o = some (.fill call v) ∧ t.fetching call = some k := by
  cases o with
  | none => exact Or.inl h
  | some a =>
    rcases stored_apply hl.1 h with hbefore | ⟨call, rfl, hfetching⟩
    · exact Or.inl hbefore
    · exact Or.inr ⟨call, rfl, hfetching⟩

theorem metadataAccess_fill {op : ClientOp} {call : ℕ} {v : PyAny} (h : c.metadataAccess op = some (.fill call v)) :
    ∃ now, op = .respond call (.ok v) now := by
  cases op with
  | authenticate t token url now =>
    simp only [JwtValidationClient.metadataAccess] at h
    split_ifs at h
    cases h
  | respond t response now =>
    simp only [JwtValidationClient.metadataAccess] at h
    split at h
    · cases h
      exact ⟨now, rfl⟩
    · cases h
    · cases h

theorem jwksMiss_ne_fill {t call : ℕ} {m v : PyAny} : c.jwksMiss t m ≠ some (.fill call v) := by
  intro h
  unfold JwtValidationClient.jwksMiss at h
  split at h
  · split_ifs at h
    cases h
  · cases h

theorem jwksAccess_fill {op : ClientOp} {call : ℕ} {v : PyAny} (h : c.jwksAccess op = some (.fill call v)) :
    ∃ now, op = .respond call (.ok v) now := by
  cases op with
  | authenticate t token url now =>
    simp only [JwtValidationClient.jwksAccess] at h
    split_ifs at h
    obtain ⟨m, -, hm⟩ := Option.bind_eq_some_iff.1 h
    exact absurd hm jwksMiss_ne_fill
  | respond t response now =>
    simp only [JwtValidationClient.jwksAccess] at h
    split at h
    · exact absurd h jwksMiss_ne_fill
    · cases h
      exact ⟨now, rfl⟩
    · cases h
    · cases h

/-- a call that awaits metadata awaits the document at its well-known URL -/
theorem getting_metadata {call : ℕ} {url : String} (h : c.metadataTable.fetching call = some url) :
    c.getting lib call = some (lib.wellKnownUrl url) := by
  obtain ⟨validation, hcall, hurl⟩ := Option.bind_eq_some_iff.1 h
  cases validation with
  | metadata token u =>
    obtain rfl := Option.some.inj hurl
    simp only [JwtValidationClient.getting, hcall]
  | jwks => cases hurl

theorem getting_jwks {call : ℕ} {uri : String} (h : c.jwksTable.fetching call = some uri) :
    c.getting lib call = some uri := by
  obtain ⟨validation, hcall, huri⟩ := Option.bind_eq_some_iff.1 h
  cases validation with
  | metadata => cases huri
  | jwks token url m u =>
    obtain rfl := Option.some.inj huri
    simp only [JwtValidationClient.getting, hcall]

/-- what `_get_jwks` leaves of the calls -/
theorem calls_getJwks {call t : ℕ} {token url : String} {m : PyAny} {now : UnixTs} {validation : Validation}
    (h : (c.getJwks lib call token url m now).2.calls t = some validation) :
    c.calls t = some validation ∨
      ∃ uri, m.getItem "jwks_uri" = .ok (.str uri) ∧ validation = .jwks token url m uri := by
  have hdone : Function.update c.calls call none t = some validation → c.calls t = some validation := by
    intro hcall
    exact fetching_ended hcall
  unfold JwtValidationClient.getJwks at h
  cases huri : m.getItem "jwks_uri" with
  | error e =>
    rw [huri] at h
    exact Or.inl (hdone h)
  | ok value =>
    rw [huri] at h
    cases value with
    | str uri =>
      dsimp only at h
      cases hcache : c.jwksCache.get? uri with
      | some jwks =>
        rw [hcache] at h
        exact Or.inl (hdone h)
      | none =>
        rw [hcache] at h
        change Function.update c.calls call _ t = _ at h
        by_cases ht : t = call
        · subst ht
          rw [Function.update_self] at h
          exact Or.inr ⟨uri, rfl, (Option.some.inj h).symm⟩
        · rw [Function.update_of_ne ht] at h
          exact Or.inl h
    | _ => exact Or.inl (hdone h)

/-- a step starts to fetch keys by metadata that is cached, or that the step takes -/
theorem honest_calls (hI : Honest lib ops ((tokenClient lib).run {} ops)) {op : ClientOp} {t : ℕ} {token url : String}
    {m : PyAny} {uri : String}
    (h : ((tokenClient lib).step ((tokenClient lib).run {} ops) op).calls t = some (.jwks token url m uri)) :
    Delivered lib (ops ++ [op]) (lib.wellKnownUrl url) m ∧ m.getItem "jwks_uri" = .ok (.str uri) := by
  set c := (tokenClient lib).run {} ops with hc
  have hkept : c.calls t = some (.jwks token url m uri) →
      Delivered lib (ops ++ [op]) (lib.wellKnownUrl url) m ∧ m.getItem "jwks_uri" = .ok (.str uri) := by
    intro hcall
    obtain ⟨hdelivered, huri⟩ := hI.calls t token url m uri hcall
    exact ⟨hdelivered.snoc op, huri⟩
  change (c.exec lib op).2.calls t = _ at h
  cases op with
  | authenticate call token' url' now =>
    simp only [JwtValidationClient.exec] at h
    split_ifs at h with hbusy
    · exact hkept h
    · cases hcache : c.metadataCache.get? url' with
      | none =>
        rw [hcache] at h
        change Function.update c.calls call _ t = _ at h
        by_cases ht : t = call
        · subst ht
          rw [Function.update_self] at h
          cases h
        · rw [Function.update_of_ne ht] at h
          exact hkept h
      | some m' =>
        rw [hcache] at h
        rcases calls_getJwks h with hcall | ⟨uri', huri, heq⟩
        · exact hkept hcall
        · cases heq
          exact ⟨(hI.metadata url m hcache).snoc _, huri⟩
  | respond call response now =>
    simp only [JwtValidationClient.exec] at h
    cases hcall : c.calls call with
    | none =>
      rw [hcall] at h
      exact hkept h
    | some validation =>
      rw [hcall] at h
      cases validation with
      | metadata token' url' =>
        cases response with
        | error e => exact hkept (fetching_ended h)
        | ok m' =>
          rcases calls_getJwks h with hcall' | ⟨uri', huri, heq⟩
          · exact hkept hcall'
          · cases heq
            refine ⟨delivered_last ?_, huri⟩
            rw [← hc]
            simp only [JwtValidationClient.getting, hcall]
      | jwks token' url' m' uri' =>
        cases response with
        | error e => exact hkept (fetching_ended h)
        | ok j => exact hkept (fetching_ended h)

theorem honest_run (lib : TokenLibraries) (ops : List ClientOp) : Honest lib ops ((tokenClient lib).run {} ops) := by
  refine Machine.hist_inv (M := tokenClient lib) (J := fun ops c => Honest lib ops c) (P := fun _ _ => True) ?_ ?_
    (Machine.along_of_forall (fun _ _ => trivial) _ _)
  · exact ⟨nofun, nofun, nofun⟩
  · intro pre op hI _
    refine ⟨?_, ?_, fun _ _ _ _ _ h => honest_calls hI h⟩
    · intro url m h
      obtain ⟨hlegal, htable⟩ := metadata_step lib ((tokenClient lib).run {} pre) op
      have hstored : (((tokenClient lib).step ((tokenClient lib).run {} pre) op).metadataTable).stored url = some m := h
      rw [htable] at hstored
      rcases filled hlegal hstored with hbefore | ⟨call, ho, hfetching⟩
      · exact (hI.metadata url m hbefore).snoc op
      · obtain ⟨now, rfl⟩ := metadataAccess_fill ho
        exact delivered_last (getting_metadata hfetching)
    · intro uri j h
      obtain ⟨hlegal, htable⟩ := jwks_step lib ((tokenClient lib).run {} pre) op
      have hstored : (((tokenClient lib).step ((tokenClient lib).run {} pre) op).jwksTable).stored uri = some j := h
      rw [htable] at hstored
      rcases filled hlegal hstored with hbefore | ⟨call, ho, hfetching⟩
      · exact (hI.jwks uri j hbefore).snoc op
      · obtain ⟨now, rfl⟩ := jwksAccess_fill ho
        exact delivered_last (getting_jwks hfetching)

/-- a call that accepts its token without awaiting the keys finds them in the cache -/
theorem getJwks_ok {call : ℕ} {token url : String} {m : PyAny} {now : UnixTs} {ended : Authenticated}
    {claims : PyDict} (h : (c.getJwks lib call token url m now).1 = some ended) (hok : ended.result = .ok claims) :
    ∃ uri j, m.getItem "jwks_uri" = .ok (.str uri) ∧ c.jwksCache.get? uri = some j ∧
      ended = ⟨token, url, now, validateToken lib m j token now⟩ := by
  unfold JwtValidationClient.getJwks at h
  cases huri : m.getItem "jwks_uri" with
  | error e =>
    rw [huri] at h
    obtain rfl := Option.some.inj h
    cases hok
  | ok value =>
    rw [huri] at h
    cases value with
    | str uri =>
      dsimp only at h
      cases hcache : c.jwksCache.get? uri with
      | some j =>
        rw [hcache] at h
        obtain rfl := Option.some.inj h
        exact ⟨uri, j, rfl, hcache, rfl⟩
      | none =>
        rw [hcache] at h
        cases h
    | _ =>
      obtain rfl := Option.some.inj h
      cases hok

/-- **A token that is accepted was checked against delivered documents.** -/
theorem accepted_delivered {op : ClientOp} {ended : Authenticated} {claims : PyDict}
    (h : (tokenClient lib).reply ((tokenClient lib).run {} ops) op = some ended) (hok : ended.result = .ok claims) :
    ∃ m uri j, Delivered lib (ops ++ [op]) (lib.wellKnownUrl ended.oidcDiscoveryUrl) m ∧
      m.getItem "jwks_uri" = .ok (.str uri) ∧ Delivered lib (ops ++ [op]) uri j ∧
      validateToken lib m j ended.token ended.now = .ok claims := by
  have hI := honest_run lib ops
  set c := (tokenClient lib).run {} ops with hc
  change (c.exec lib op).1 = _ at h
  cases op with
  | authenticate call token url now =>
    simp only [JwtValidationClient.exec] at h
    split_ifs at h
    cases hcache : c.metadataCache.get? url with
    | none =>
      rw [hcache] at h
      cases h
    | some m =>
      rw [hcache] at h
      obtain ⟨uri, j, huri, hj, rfl⟩ := getJwks_ok h hok
      exact ⟨m, uri, j, (hI.metadata url m hcache).snoc _, huri, (hI.jwks uri j hj).snoc _, hok⟩
  | respond call response now =>
    simp only [JwtValidationClient.exec] at h
    cases hcall : c.calls call with
    | none =>
      rw [hcall] at h
      cases h
    | some validation =>
      have hgetting : ∀ url, c.getting lib call = some url →
          ((tokenClient lib).run {} ops).getting lib call = some url := by
        intro url hurl
        rwa [← hc]
      rw [hcall] at h
      cases validation with
      | metadata token url =>
        cases response with
        | error e =>
          obtain rfl := Option.some.inj h
          cases hok
        | ok m =>
          obtain ⟨uri, j, huri, hj, rfl⟩ := getJwks_ok h hok
          refine ⟨m, uri, j, delivered_last (hgetting _ ?_), huri, (hI.jwks uri j hj).snoc _, hok⟩
          simp only [JwtValidationClient.getting, hcall]
      | jwks token url m uri =>
        cases response with
        | error e =>
          obtain rfl := Option.some.inj h
          cases hok
        | ok j =>
          obtain rfl := Option.some.inj h
          obtain ⟨hm, huri⟩ := hI.calls call token url m uri hcall
          refine ⟨m, uri, j, hm.snoc _, huri, delivered_last (hgetting _ ?_), hok⟩
          simp only [JwtValidationClient.getting, hcall]

end Delivered

/-! ## A provider with one key -/

/-- one token, signed with key `k1` -/
def demoLibraries : TokenLibraries where
  wellKnownUrl issuer := issuer ++ "/.well-known/openid-configuration"
  invalidUrl url := .typeError ("Invalid type for url.  Expected str or httpx.URL, got " ++ url.typeName)
  header token := if token = "abc" then .ok [("kid", .str "k1")] else .error (.service "DecodeError")
  verify _ key :=
    match key with
    | .dict _ => .ok [("sub", .str "user-1"), ("iss", .str "idp")]
    | _ => .error (.service "BadSignatureError")
  validate claims options _ :=
    match PyDict.get options "iss" with
    | .dict issuer =>
      if (PyDict.get claims "iss").sameKey (PyDict.get issuer "value") then .ok ()
      else .error (.service "InvalidClaimError")
    | _ => .ok ()
  formatFloat _ := "0.0"

def demoMetadata : PyAny := .dict [("issuer", .str "idp"), ("jwks_uri", .str "idp/keys")]

def demoKeys : PyAny := .dict [("keys", .list [.dict [("kid", .str "k1")]])]

/-- two calls fetch the metadata, and one of them the keys -/
def coldCalls : List ClientOp :=
  [.authenticate 0 "abc" "idp" 1, .authenticate 1 "abc" "idp" 1, .respond 0 (.ok demoMetadata) 2,
    .respond 0 (.ok demoKeys) 3]

/-! ## Accepted tokens -/

/-- **An accepted token verified under a key that the identity provider served.** Whatever calls and answers come in
whatever order, when a call accepts its token, the metadata was answered for the call's own discovery URL and the keys
for the URL in that metadata; one of these keys has the `kid` of the token's header and verifies the token; and its
claims validate against the issuer of that metadata when the call ends. -/
theorem accepted_verified (lib : TokenLibraries) (ops : List ClientOp) {op : ClientOp} {ended : Authenticated}
    {claims : PyDict} (h : (tokenClient lib).reply ((tokenClient lib).run {} ops) op = some ended)
    (hok : ended.result = .ok claims) :
    ∃ metadata uri issuer jwks header key,
      Delivered lib (ops ++ [op]) (lib.wellKnownUrl ended.oidcDiscoveryUrl) metadata ∧
      metadata.getItem "jwks_uri" = .ok (.str uri) ∧ metadata.getItem "issuer" = .ok issuer ∧
      Delivered lib (ops ++ [op]) uri jwks ∧ lib.header ended.token = .ok header ∧
      (PyDict.get header "kid").truthy = true ∧ KeyOf jwks (PyDict.get header "kid") key ∧
      lib.verify ended.token key = .ok claims ∧
      lib.validate claims (claimsOptions issuer) ended.now = .ok () := by
  obtain ⟨m, uri, j, hm, huri, hj, hvalid⟩ := accepted_delivered h hok
  obtain ⟨header, key, issuer, hheader, htruthy, hkey, hverify, hissuer, hvalidate⟩ := validateToken_ok hvalid
  exact ⟨m, uri, issuer, j, header, key, hm, huri, hissuer, hj, hheader, htruthy, hkey, hverify, hvalidate⟩

theorem accepted_verified_abc : ∃ metadata uri issuer jwks header key,
    Delivered demoLibraries coldCalls "idp/.well-known/openid-configuration" metadata ∧
    metadata.getItem "jwks_uri" = .ok (.str uri) ∧ metadata.getItem "issuer" = .ok issuer ∧
    Delivered demoLibraries coldCalls uri jwks ∧ demoLibraries.header "abc" = .ok header ∧
    (PyDict.get header "kid").truthy = true ∧ KeyOf jwks (PyDict.get header "kid") key ∧
    demoLibraries.verify "abc" key = .ok [("sub", .str "user-1"), ("iss", .str "idp")] ∧
    demoLibraries.validate [("sub", .str "user-1"), ("iss", .str "idp")] (claimsOptions issuer) 3 = .ok () :=
  have hlast : (tokenClient demoLibraries).reply ((tokenClient demoLibraries).run {} (coldCalls.take 3))
      (.respond 0 (.ok demoKeys) 3) =
        some ⟨"abc", "idp", 3, .ok [("sub", .str "user-1"), ("iss", .str "idp")]⟩ := rfl
  accepted_verified demoLibraries (coldCalls.take 3) hlast rfl

/-! ## Warm caches -/

namespace JwtValidationClient

/-- no call awaits the metadata of this URL -/
def MetadataStill (c : JwtValidationClient) (url : String) : Prop :=
  ∀ call token, c.calls call ≠ some (.metadata token url)

/-- no call awaits the keys at this URL -/
def JwksStill (c : JwtValidationClient) (uri : String) : Prop :=
  ∀ call token url m, c.calls call ≠ some (.jwks token url m uri)

end JwtValidationClient

section Warm

variable {c : JwtValidationClient} {url uri : String}

theorem metadata_still (h : c.MetadataStill url) : c.metadataTable.Still url := by
  intro call hfetching
  obtain ⟨validation, hcall, hurl⟩ := Option.bind_eq_some_iff.1 hfetching
  cases validation with
  | metadata token u =>
    obtain rfl := Option.some.inj hurl
    exact h call token hcall
  | jwks => cases hurl

theorem jwks_still (h : c.JwksStill uri) : c.jwksTable.Still uri := by
  intro call hfetching
  obtain ⟨validation, hcall, huri⟩ := Option.bind_eq_some_iff.1 hfetching
  cases validation with
  | metadata => cases huri
  | jwks token u m v =>
    obtain rfl := Option.some.inj huri
    exact h call token u m hcall

end Warm

/-- **A warm client asks nobody.** Once the metadata of a URL and the keys it points to are cached and no call awaits
either, then whatever calls and answers follow, a new call for that URL ends at once, and its result depends on these
two documents, the token and the clock alone: keys that the identity provider adds later are never seen. -/
theorem warm_calls (lib : TokenLibraries) (ops later : List ClientOp) {url uri : String} {m j : PyAny}
    (hm : ((tokenClient lib).run {} ops).metadataCache.get? url = some m) (huri : m.getItem "jwks_uri" = .ok (.str uri))
    (hj : ((tokenClient lib).run {} ops).jwksCache.get? uri = some j)
    (hmstill : ((tokenClient lib).run {} ops).MetadataStill url)
    (hjstill : ((tokenClient lib).run {} ops).JwksStill uri)
    {call : ℕ} (hfree : ((tokenClient lib).run {} (ops ++ later)).calls call = none) (token : String) (now : UnixTs) :
    (tokenClient lib).exec ((tokenClient lib).run {} (ops ++ later)) (.authenticate call token url now) =
      (some ⟨token, url, now, validateToken lib m j token now⟩, (tokenClient lib).run {} (ops ++ later)) := by
  rw [Machine.run_append] at hfree ⊢
  obtain ⟨l, hl, hrun⟩ := (metadataRefine lib).run trivial later
  obtain ⟨l', hl', hrun'⟩ := (jwksRefine lib).run trivial later
  have hmetadata := (stored_kept hl (v := m) hm (metadata_still hmstill)).1
  have hjwks := (stored_kept hl' (v := j) hj (jwks_still hjstill)).1
  rw [← hrun] at hmetadata
  rw [← hrun'] at hjwks
  set c := (tokenClient lib).run ((tokenClient lib).run {} ops) later
  have hm' : c.metadataCache.get? url = some m := hmetadata
  have hj' : c.jwksCache.get? uri = some j := hjwks
  have hstand : c.stand call none = c := by
    unfold JwtValidationClient.stand
    rw [update_none hfree]
  change c.exec lib (.authenticate call token url now) = _
  simp only [JwtValidationClient.exec, hfree, hm', JwtValidationClient.getJwks, huri, hj', JwtValidationClient.finish,
    hstand]
  rfl

/-- a token of another provider is under way -/
def otherProvider : List ClientOp := [.respond 1 (.ok demoMetadata) 4, .authenticate 2 "abc" "other" 5]

theorem warm_calls_abc :
    (tokenClient demoLibraries).exec ((tokenClient demoLibraries).run {} (coldCalls ++ otherProvider))
        (.authenticate 3 "abc" "idp" 6) =
      (some ⟨"abc", "idp", 6, validateToken demoLibraries demoMetadata demoKeys "abc" 6⟩,
        (tokenClient demoLibraries).run {} (coldCalls ++ otherProvider)) := by
  have hcalls : ∀ call, ((tokenClient demoLibraries).run {} (coldCalls ++ otherProvider.take 1)).calls call = none := by
    intro call
    rcases call with _ | _ | call <;> rfl
  have hmstill : ((tokenClient demoLibraries).run {} (coldCalls ++ otherProvider.take 1)).MetadataStill "idp" := by
    intro call token
    rw [hcalls call]
    nofun
  have hjstill : ((tokenClient demoLibraries).run {} (coldCalls ++ otherProvider.take 1)).JwksStill "idp/keys" := by
    intro call token url m
    rw [hcalls call]
    nofun
  exact warm_calls demoLibraries (coldCalls ++ otherProvider.take 1) (otherProvider.drop 1) (m := demoMetadata)
    (j := demoKeys) rfl rfl rfl hmstill hjstill rfl "abc" 6

/-! ## Late answers -/

/-- the step stores an answer in the metadata cache, under this URL -/
def ClientOp.storesMetadata (url : String) (c : JwtValidationClient) : ClientOp → Bool
  | .respond call (.ok _) _ =>
    match c.calls call with
    | some (.metadata _ u) => u = url
    | _ => false
  | _ => false

/-- the step stores an answer in the cache of keys, under this URL -/
def ClientOp.storesJwks (uri : String) (c : JwtValidationClient) : ClientOp → Bool
  | .respond call (.ok _) _ =>
    match c.calls call with
    | some (.jwks _ _ _ v) => v = uri
    | _ => false
  | _ => false

section Late

variable {lib : TokenLibraries} {c : JwtValidationClient}

theorem storesMetadata_iff (url : String) (c : JwtValidationClient) (op : ClientOp) :
    op.storesMetadata url c = ((c.metadataAccess op).bind (filler url c.metadataTable)).isSome := by
  cases op with
  | authenticate call token u now =>
    simp only [ClientOp.storesMetadata, JwtValidationClient.metadataAccess]
    split_ifs <;> rfl
  | respond call response now =>
    simp only [JwtValidationClient.metadataAccess]
    cases response with
    | error e =>
      simp only [ClientOp.storesMetadata]
      cases c.calls call with
      | none => rfl
      | some validation => cases validation <;> rfl
    | ok m =>
      simp only [ClientOp.storesMetadata]
      cases hcall : c.calls call with
      | none => rfl
      | some validation =>
        cases validation with
        | jwks => rfl
        | metadata token u =>
          have hfetching : c.metadataTable.fetching call = some u := by
            simp only [JwtValidationClient.metadataTable, hcall]
            rfl
          simp only [Option.bind_some, filler, hfetching, Option.some.injEq]
          split_ifs with hu <;> simp [hu]

theorem storesJwks_iff (uri : String) (c : JwtValidationClient) (op : ClientOp) :
    op.storesJwks uri c = ((c.jwksAccess op).bind (filler uri c.jwksTable)).isSome := by
  have hmiss : ∀ call m, ((c.jwksMiss call m).bind (filler uri c.jwksTable)).isSome = false := by
    intro call m
    unfold JwtValidationClient.jwksMiss
    split
    · split_ifs <;> rfl
    · rfl
  cases op with
  | authenticate call token u now =>
    simp only [ClientOp.storesJwks, JwtValidationClient.jwksAccess]
    split_ifs
    · rfl
    · cases c.metadataCache.get? u with
      | none => rfl
      | some m => exact (hmiss call m).symm
  | respond call response now =>
    simp only [JwtValidationClient.jwksAccess]
    cases response with
    | error e =>
      simp only [ClientOp.storesJwks]
      cases c.calls call with
      | none => rfl
      | some validation => cases validation <;> rfl
    | ok j =>
      simp only [ClientOp.storesJwks]
      cases hcall : c.calls call with
      | none => rfl
      | some validation =>
        cases validation with
        | metadata => exact (hmiss call j).symm
        | jwks token u m v =>
          have hfetching : c.jwksTable.fetching call = some v := by
            simp only [JwtValidationClient.jwksTable, hcall]
            rfl
          simp only [Option.bind_some, filler, hfetching, Option.some.injEq]
          split_ifs with hv <;> simp [hv]

end Late

/-- **A stampede ends with the first answer.** Once a document is cached, no call starts to fetch it any more, so the
answers that may still replace it are at most as many as the calls that awaited it then. This holds of the metadata of a
URL whatever the keys are, and of the keys at a URL whatever the metadata is. -/
theorem late_answers (lib : TokenLibraries) (ops later : List ClientOp) :
    (∀ url (W : Finset ℕ), url ∈ ((tokenClient lib).run {} ops).metadataCache →
      (∀ call token, ((tokenClient lib).run {} ops).calls call = some (.metadata token url) → call ∈ W) →
      (tokenClient lib).tally (fun c op => if op.storesMetadata url c then 1 else 0) ((tokenClient lib).run {} ops)
        later ≤ W.card) ∧
    ∀ uri (W : Finset ℕ), uri ∈ ((tokenClient lib).run {} ops).jwksCache →
      (∀ call token u m, ((tokenClient lib).run {} ops).calls call = some (.jwks token u m uri) → call ∈ W) →
      (tokenClient lib).tally (fun c op => if op.storesJwks uri c then 1 else 0) ((tokenClient lib).run {} ops)
        later ≤ W.card := by
  set c := (tokenClient lib).run {} ops
  constructor
  · intro url W hm hW
    have hmetadata : c.metadataTable.stored url ≠ none := by
      obtain ⟨m, hm⟩ := (Dict.mem_iff _ _).1 hm
      change c.metadataCache.get? url ≠ none
      rw [hm]
      exact Option.some_ne_none m
    simp only [storesMetadata_iff]
    refine late_fills (metadata_step lib) url hmetadata ?_ later
    intro call hfetching
    obtain ⟨validation, hcall, hurl⟩ := Option.bind_eq_some_iff.1 hfetching
    cases validation with
    | metadata token u =>
      obtain rfl := Option.some.inj hurl
      exact hW call token hcall
    | jwks => cases hurl
  · intro uri W hj hW
    have hjwks : c.jwksTable.stored uri ≠ none := by
      obtain ⟨j, hj⟩ := (Dict.mem_iff _ _).1 hj
      change c.jwksCache.get? uri ≠ none
      rw [hj]
      exact Option.some_ne_none j
    simp only [storesJwks_iff]
    refine late_fills (jwks_step lib) uri hjwks ?_ later
    intro call hfetching
    obtain ⟨validation, hcall, huri⟩ := Option.bind_eq_some_iff.1 hfetching
    cases validation with
    | metadata => cases huri
    | jwks token u m v =>
      obtain rfl := Option.some.inj huri
      exact hW call token u m hcall

/-- three calls find the caches cold, and each of them fetches both documents -/
def stampede : List ClientOp :=
  [.authenticate 0 "abc" "idp" 1, .authenticate 1 "abc" "idp" 1, .authenticate 2 "abc" "idp" 1,
    .respond 0 (.ok demoMetadata) 2, .respond 1 (.ok demoMetadata) 3, .respond 2 (.ok demoMetadata) 4,
    .respond 0 (.ok demoKeys) 5, .respond 1 (.ok demoKeys) 6, .respond 2 (.ok demoKeys) 7]

/-- after the first answer the metadata is cached, and two calls await it; after the fourth the keys are, and two calls
await these -/
theorem late_answers_abc :
    (tokenClient demoLibraries).tally (fun c op => if op.storesMetadata "idp" c then 1 else 0)
        ((tokenClient demoLibraries).run {} (stampede.take 4)) (stampede.drop 4) ≤ 2 ∧
      (tokenClient demoLibraries).tally (fun c op => if op.storesJwks "idp/keys" c then 1 else 0)
        ((tokenClient demoLibraries).run {} (stampede.take 7)) (stampede.drop 7) ≤ 2 := by
  constructor
  · refine (late_answers demoLibraries (stampede.take 4) (stampede.drop 4)).1 "idp" {1, 2} (by decide +kernel) ?_
    intro call token hcall
    rcases call with _ | _ | _ | call
    · cases hcall
    · decide
    · decide
    · cases hcall
  · refine (late_answers demoLibraries (stampede.take 7) (stampede.drop 7)).2 "idp/keys" {1, 2} (by decide +kernel) ?_
    intro call token u m hcall
    rcases call with _ | _ | _ | call
    · cases hcall
    · decide
    · decide
    · cases hcall

end LlmAgent
