/-
What a request with a token is answered, once the documents of the identity provider are cached.

Three things can happen: the token is accepted and its claims are readable, so the application is called; one of the
checks that the code names fails, so the answer is 401; anything else is taken for a failure of the service, 500. A
token whose signature does not verify belongs to the third kind, since `BadSignatureError` is not among the classes that
`authenticate` handles.

- `Readable`, `parse_iff`: the claims that `parse_keycloak_claims` accepts, and the user it makes of them;
- `buildKeyLoader_error`, `loadKey_unknown_iff`: which errors the keys raise, and when a key is unknown;
- `Refused`, `refused_iff`: the tokens for which `authenticate` raises `AuthenticationError`;
- `Passed`, `passed_iff`: those that pass every check;
- `token_answers`: the three answers, each with its exact condition.
-/
import LlmAgent.Requests.Credentials
import LlmAgent.Requests.KeyCache

namespace LlmAgent

open Core

/-! ## Claims -/

/-- `if roles := access.get("roles"): ...` can be evaluated: what is read has a `get`, and its roles can be iterated -/
def RolesReadable (access : PyAny) : Prop :=
  ∃ fields, access = .dict fields ∧ ((PyDict.get fields "roles").truthy = true → ∃ items,
    (PyDict.get fields "roles").items = .ok items)

/-- what `if items := v: extend(items)` adds -/
def PyAny.added (v : PyAny) : List PyAny :=
  match v.items with
  | .ok items => if v.truthy then items else []
  | .error _ => []

/-- the roles read off an access entry -/
def rolesOf : PyAny → List PyAny
  | .dict fields => (PyDict.get fields "roles").added
  | _ => []

/-- the clients in `resource_access` -/
def clientsOf (claims : PyDict) : List PyAny :=
  match PyDict.get claims "resource_access" with
  | .dict clients => clients.map Prod.snd
  | _ => []

/-- **Claims that can be parsed.** -/
structure Readable (claims : PyDict) : Prop where
  sub : (claims.lookup "sub").isSome
  realm : RolesReadable (PyDict.get claims "realm_access" (.dict []))
  resource : (PyDict.get claims "resource_access").truthy = true →
    (∃ clients, PyDict.get claims "resource_access" = .dict clients) ∧ ∀ access ∈ clientsOf claims, RolesReadable access
  scope : (PyDict.get claims "scope" (.str "")).truthy = true → ∃ scopes,
    PyDict.get claims "scope" (.str "") = .str scopes

section Parsing

theorem extendWith_iff {roles out : List PyAny} {value : PyAny} : extendWith roles value = .ok out ↔
    (value.truthy = true → ∃ items, value.items = .ok items) ∧ out = roles ++ value.added := by
  unfold extendWith PyAny.added
  cases htruthy : value.truthy with
  | false =>
    have hnone : (match value.items with
        | .ok items => if false = true then items else []
        | .error _ => []) = ([] : List PyAny) := by
      cases value.items <;> rfl
    rw [if_neg Bool.false_ne_true, hnone, List.append_nil]
    constructor
    · intro h
      exact ⟨fun hfalse => absurd hfalse Bool.false_ne_true, (Except.ok.inj h).symm⟩
    · intro h
      rw [h.2]
      rfl
  | true =>
    rw [if_pos rfl]
    cases value.items with
    | error e =>
      constructor
      · intro h
        cases h
      · intro h
        obtain ⟨items, hbad⟩ := h.1 rfl
        cases hbad
    | ok items =>
      constructor
      · intro h
        exact ⟨fun _ => ⟨items, rfl⟩, (Except.ok.inj h).symm⟩
      · intro h
        rw [h.2]
        rfl

/-- one access entry, read and added to the roles -/
theorem extendAccess_iff {roles out : List PyAny} {access : PyAny} :
    (access.attrGet "roles" >>= extendWith roles) = .ok out ↔ RolesReadable access ∧ out = roles ++ rolesOf access := by
  by_cases hdict : ∃ fields, access = .dict fields
  · obtain ⟨fields, rfl⟩ := hdict
    rw [PyAny.attrGet_dict, ok_bind, extendWith_iff]
    constructor
    · intro h
      exact ⟨⟨fields, rfl, h.1⟩, h.2⟩
    · intro h
      obtain ⟨⟨fields', heq, hreadable⟩, hout⟩ := h
      cases heq
      exact ⟨hreadable, hout⟩
  · constructor
    · intro h
      rw [PyAny.attrGet_of_not_dict (fun fields heq => hdict ⟨fields, heq⟩)] at h
      cases h
    · intro h
      obtain ⟨⟨fields, heq, -⟩, -⟩ := h
      exact absurd ⟨fields, heq⟩ hdict

/-- the roles of each client in turn -/
theorem extendClients_iff {clients roles out : List PyAny} :
    clients.foldlM (fun roles access => do extendWith roles (← access.attrGet "roles")) roles = .ok out ↔
      (∀ access ∈ clients, RolesReadable access) ∧ out = roles ++ clients.flatMap rolesOf := by
  induction clients generalizing roles with
  | nil =>
    rw [List.foldlM_nil, List.flatMap_nil, List.append_nil]
    constructor
    · intro h
      exact ⟨fun access hmem => absurd hmem List.not_mem_nil, (Except.ok.inj h).symm⟩
    · intro h
      rw [h.2]
      rfl
  | cons access clients ih =>
    rw [List.foldlM_cons, List.flatMap_cons]
    constructor
    · intro h
      obtain ⟨next, hnext, hrest⟩ := bind_ok h
      obtain ⟨hreadable, rfl⟩ := extendAccess_iff.1 hnext
      obtain ⟨hothers, rfl⟩ := ih.1 hrest
      exact ⟨List.forall_mem_cons.2 ⟨hreadable, hothers⟩, List.append_assoc _ _ _⟩
    · intro h
      obtain ⟨hall, rfl⟩ := h
      obtain ⟨hreadable, hothers⟩ := List.forall_mem_cons.1 hall
      have hfirst : (access.attrGet "roles" >>= extendWith roles) = .ok (roles ++ rolesOf access) :=
        extendAccess_iff.2 ⟨hreadable, rfl⟩
      have hrest := (@ih (roles ++ rolesOf access)).2 ⟨hothers, (List.append_assoc _ _ _).symm⟩
      change (access.attrGet "roles" >>= extendWith roles) >>= _ = _
      rw [hfirst, ok_bind, hrest]

/-- where there is nothing to go through there are no clients -/
theorem clientsOf_falsy {claims : PyDict} (h : (PyDict.get claims "resource_access").truthy = false) :
    clientsOf claims = [] := by
  unfold clientsOf
  cases hvalue : PyDict.get claims "resource_access" with
  | dict clients =>
    rw [hvalue] at h
    cases clients with
    | nil => rfl
    | cons client clients => cases h
  | _ => rfl

/-- **Roles**: the realm's, then those of each client, when all of them can be read. -/
theorem parseRoles_iff {claims : PyDict} {roles : List PyAny} : parseRoles claims = .ok roles ↔
    (RolesReadable (PyDict.get claims "realm_access" (.dict [])) ∧
      ((PyDict.get claims "resource_access").truthy = true →
        (∃ clients, PyDict.get claims "resource_access" = .dict clients) ∧
          ∀ access ∈ clientsOf claims, RolesReadable access)) ∧
    roles = rolesOf (PyDict.get claims "realm_access" (.dict [])) ++ (clientsOf claims).flatMap rolesOf := by
  unfold parseRoles
  set realm := PyDict.get claims "realm_access" (.dict [])
  have hsplit : ∀ (rest : List PyAny → Except RequestError (List PyAny)) (out : List PyAny),
      (do let realmRoles ← realm.attrGet "roles"; let roles ← extendWith [] realmRoles; rest roles) = .ok out ↔
        RolesReadable realm ∧ rest (rolesOf realm) = .ok out := by
    intro rest out
    rw [← bind_assoc]
    constructor
    · intro h
      obtain ⟨roles, hroles, hrest⟩ := bind_ok h
      obtain ⟨hreadable, rfl⟩ := extendAccess_iff.1 hroles
      exact ⟨hreadable, hrest⟩
    · intro h
      rw [extendAccess_iff.2 ⟨h.1, rfl⟩, ok_bind]
      exact h.2
  rw [hsplit, and_assoc]
  refine and_congr_right fun _ => ?_
  dsimp only
  cases htruthy : (PyDict.get claims "resource_access").truthy with
  | false =>
    rw [clientsOf_falsy htruthy, if_neg Bool.false_ne_true, List.flatMap_nil, List.append_nil]
    constructor
    · intro h
      exact ⟨fun hfalse => absurd hfalse Bool.false_ne_true, (Except.ok.inj h).symm⟩
    · intro h
      rw [h.2]
      rfl
  | true =>
    rw [if_pos rfl]
    cases hvalue : PyDict.get claims "resource_access" with
    | dict clients =>
      have hclients : clientsOf claims = clients.map Prod.snd := by
        unfold clientsOf
        rw [hvalue]
      rw [hclients]
      refine extendClients_iff.trans (and_congr_left fun _ => ?_)
      exact ⟨fun h _ => ⟨⟨clients, rfl⟩, h⟩, fun h => (h rfl).2⟩
    | _ =>
      constructor
      · intro h
        cases h
      · intro h
        obtain ⟨⟨clients, hbad⟩, -⟩ := h.1 rfl
        cases hbad

/-- the scopes of the claims -/
def scopesOf (claims : PyDict) : List String :=
  match (PyDict.get claims "scope" (.str "")).attrSplit with
  | .ok scopes => scopes
  | .error _ => []

/-- the user that readable claims describe -/
def userOf (claims : PyDict) : AuthenticatedUser where
  userId := PyDict.get claims "sub"
  username := ((PyDict.get claims "preferred_username").or (PyDict.get claims "name")).or (PyDict.get claims "sub")
  email := PyDict.get claims "email"
  roles := rolesOf (PyDict.get claims "realm_access" (.dict [])) ++ (clientsOf claims).flatMap rolesOf
  scopes := if (PyDict.get claims "scope" (.str "")).truthy then scopesOf claims else []

/-- `scope_str.split() if scope_str else []` -/
def readScopes (claims : PyDict) : Except RequestError (List String) :=
  if (PyDict.get claims "scope" (.str "")).truthy then (PyDict.get claims "scope" (.str "")).attrSplit else pure []

theorem readScopes_iff {claims : PyDict} {scopes : List String} : readScopes claims = .ok scopes ↔
    ((PyDict.get claims "scope" (.str "")).truthy = true → ∃ text, PyDict.get claims "scope" (.str "") = .str text) ∧
      scopes = if (PyDict.get claims "scope" (.str "")).truthy then scopesOf claims else [] := by
  unfold readScopes scopesOf
  generalize PyDict.get claims "scope" (.str "") = value
  cases htruthy : value.truthy with
  | false =>
    rw [if_neg Bool.false_ne_true, if_neg Bool.false_ne_true]
    exact ⟨fun h => ⟨fun hfalse => absurd hfalse Bool.false_ne_true, (Except.ok.inj h).symm⟩, fun h => h.2 ▸ rfl⟩
  | true =>
    rw [if_pos rfl, if_pos rfl]
    cases value with
    | str text => exact ⟨fun h => ⟨fun _ => ⟨text, rfl⟩, (Except.ok.inj h).symm⟩, fun h => h.2 ▸ rfl⟩
    | _ =>
      constructor
      · intro h
        cases h
      · intro h
        obtain ⟨text, hbad⟩ := h.1 rfl
        cases hbad

/-- the parser, step by step -/
theorem parse_eq (claims : PyDict) : parseKeycloakClaims claims = (do
    let userId ← PyDict.item claims "sub"
    let roles ← parseRoles claims
    let scopes ← readScopes claims
    pure ⟨userId, ((PyDict.get claims "preferred_username").or (PyDict.get claims "name")).or userId,
      PyDict.get claims "email", roles, scopes⟩) := by
  unfold parseKeycloakClaims
  refine bind_congr fun userId => bind_congr fun roles => ?_
  unfold readScopes
  dsimp only
  split_ifs <;> rfl

theorem item_eq {claims : PyDict} {value : PyAny} (h : claims.lookup "sub" = some value) :
    PyDict.item claims "sub" = .ok value ∧ PyDict.get claims "sub" = value := by
  unfold PyDict.item PyDict.get
  rw [h]
  exact ⟨rfl, rfl⟩

/-- **Parsing the claims.** -/
theorem parse_iff {claims : PyDict} {user : AuthenticatedUser} :
    parseKeycloakClaims claims = .ok user ↔ Readable claims ∧ user = userOf claims := by
  rw [parse_eq]
  constructor
  · intro h
    obtain ⟨userId, hsub, h⟩ := bind_ok h
    obtain ⟨roles, hroles, h⟩ := bind_ok h
    obtain ⟨scopes, hscopes, h⟩ := bind_ok h
    obtain rfl := Except.ok.inj h
    obtain ⟨⟨hrealm, hresource⟩, rfl⟩ := parseRoles_iff.1 hroles
    obtain ⟨hscope, rfl⟩ := readScopes_iff.1 hscopes
    cases hlookup : claims.lookup "sub" with
    | none =>
      unfold PyDict.item at hsub
      rw [hlookup] at hsub
      cases hsub
    | some value =>
      obtain ⟨hitem, hget⟩ := item_eq hlookup
      obtain rfl := Except.ok.inj (hitem.symm.trans hsub)
      refine ⟨⟨by rw [hlookup]; rfl, hrealm, hresource, hscope⟩, ?_⟩
      unfold userOf
      rw [hget]
  · intro h
    obtain ⟨hreadable, rfl⟩ := h
    obtain ⟨value, hlookup⟩ := Option.isSome_iff_exists.1 hreadable.sub
    obtain ⟨hitem, hget⟩ := item_eq hlookup
    have hroles := parseRoles_iff.2 ⟨⟨hreadable.realm, hreadable.resource⟩, rfl⟩
    have hscopes := readScopes_iff.2 ⟨hreadable.scope, rfl⟩
    unfold userOf
    rw [hitem, ok_bind, hroles, ok_bind, hscopes, ok_bind, hget]
    rfl

end Parsing

/-! ## Keys -/

/-- an exception that a value of the wrong kind raises -/
def RequestError.IsPlain : RequestError → Prop
  | .keyError _ => True
  | .attributeError _ => True
  | .typeError _ => True
  | _ => False

section Keys

theorem attrGet_error {v default : PyAny} {key : String} {e : RequestError} (h : v.attrGet key default = .error e) :
    e.IsPlain := by
  cases v <;> cases h <;> trivial

theorem items_error {v : PyAny} {e : RequestError} (h : v.items = .error e) : e.IsPlain := by
  cases v <;> cases h <;> trivial

theorem getItem_error {v : PyAny} {key : String} {e : RequestError} (h : v.getItem key = .error e) : e.IsPlain := by
  cases v with
  | dict kvs =>
    unfold PyAny.getItem PyDict.item at h
    dsimp only at h
    split at h <;> cases h
    trivial
  | _ =>
    cases h
    trivial

theorem contains_error {v : PyAny} {key : String} {e : RequestError} (h : v.contains key = .error e) : e.IsPlain := by
  cases v <;> cases h <;> trivial

theorem addKey_error {keysByKid : List (PyAny × PyAny)} {key : PyAny} {e : RequestError}
    (h : addKey keysByKid key = .error e) : e.IsPlain := by
  rcases bind_error h with hcontains | ⟨b, -, h⟩
  · exact contains_error hcontains
  · cases b with
    | false => cases h
    | true =>
      rcases bind_error h with hkid | ⟨kid, -, h⟩
      · exact getItem_error hkid
      · split_ifs at h
        · cases h
        · obtain rfl := Except.error.inj h
          exact trivial

/-- **A document without a loader** raises an exception that nobody handles as a failed check. -/
theorem buildKeyLoader_error {jwks : PyAny} {e : RequestError} (h : buildKeyLoader jwks = .error e) : e.IsPlain := by
  rcases bind_error h with hkeys | ⟨keys, -, h⟩
  · exact attrGet_error hkeys
  · rcases bind_error h with hitems | ⟨items, -, h⟩
    · exact items_error hitems
    · generalize ([] : List (PyAny × PyAny)) = keysByKid at h
      induction items generalizing keysByKid with
      | nil => cases h
      | cons key items ih =>
        rw [List.foldlM_cons] at h
        rcases bind_error h with hkey | ⟨next, -, h⟩
        · exact addKey_error hkey
        · exact ih next h

/-- what has a `kid` contains one -/
theorem contains_of_getItem {key kid : PyAny} (h : key.getItem "kid" = .ok kid) : key.contains "kid" = .ok true := by
  cases key with
  | dict kvs =>
    unfold PyAny.getItem PyDict.item at h
    dsimp only at h
    unfold PyAny.contains
    dsimp only
    cases hlookup : kvs.lookup "kid" with
    | none =>
      rw [hlookup] at h
      cases h
    | some value => rfl
  | _ => cases h

theorem addKey_eq {keysByKid : List (PyAny × PyAny)} {key kid : PyAny} (h : key.getItem "kid" = .ok kid) :
    addKey keysByKid key = if kid.isHashable then .ok ((kid, key) :: keysByKid) else .error kid.unhashable := by
  unfold addKey
  rw [contains_of_getItem h, ok_bind, if_pos rfl, h, ok_bind]
  rfl

theorem addKeys_keep {items : List PyAny} {keysByKid added : List (PyAny × PyAny)}
    (h : items.foldlM addKey keysByKid = .ok added) {entry : PyAny × PyAny} (hmem : entry ∈ keysByKid) :
    entry ∈ added := by
  induction items generalizing keysByKid with
  | nil =>
    obtain rfl := Except.ok.inj h
    exact hmem
  | cons key items ih =>
    rw [List.foldlM_cons] at h
    obtain ⟨next, hnext, h⟩ := bind_ok h
    refine ih h ?_
    rcases addKey_ok hnext with rfl | ⟨kid, -, rfl⟩
    · exact hmem
    · exact List.mem_cons_of_mem _ hmem

theorem addKeys_complete {items : List PyAny} {keysByKid added : List (PyAny × PyAny)}
    (h : items.foldlM addKey keysByKid = .ok added) {key kid : PyAny} (hmem : key ∈ items)
    (hkid : key.getItem "kid" = .ok kid) : (kid, key) ∈ added := by
  induction items generalizing keysByKid with
  | nil => cases hmem
  | cons first items ih =>
    rw [List.foldlM_cons] at h
    obtain ⟨next, hnext, h⟩ := bind_ok h
    rcases List.mem_cons.1 hmem with rfl | hmem
    · rw [addKey_eq hkid] at hnext
      split_ifs at hnext
      obtain rfl := Except.ok.inj hnext
      exact addKeys_keep h List.mem_cons_self
    · exact ih h hmem

/-- every key of the document is held by the loader -/
theorem buildKeyLoader_complete {jwks : PyAny} {keysByKid : List (PyAny × PyAny)}
    (h : buildKeyLoader jwks = .ok keysByKid) {kid key : PyAny} (hkey : KeyOf jwks kid key) :
    ∃ entry ∈ keysByKid, entry.1.sameKey kid = true := by
  obtain ⟨keys, items, entryKid, hkeys, hitems, hmem, hkid, hsame⟩ := hkey
  obtain ⟨keys', hkeys', h⟩ := bind_ok h
  obtain rfl := Except.ok.inj (hkeys.symm.trans hkeys')
  obtain ⟨items', hitems', h⟩ := bind_ok h
  obtain rfl := Except.ok.inj (hitems.symm.trans hitems')
  exact ⟨(entryKid, key), addKeys_complete h hmem hkid, hsame⟩

/-- the header names no key, or none of the document's -/
def UnknownKey (jwks : PyAny) (header : PyDict) : Prop :=
  (PyDict.get header "kid").truthy = false ∨
    (PyDict.get header "kid").isHashable = true ∧ ∀ key, ¬ KeyOf jwks (PyDict.get header "kid") key

/-- **Unknown keys.** -/
theorem loadKey_unknown_iff (lib : TokenLibraries) {jwks : PyAny} {keysByKid : List (PyAny × PyAny)}
    (hbuild : buildKeyLoader jwks = .ok keysByKid) (header : PyDict) :
    (∃ message, loadKey lib keysByKid header = .error (.authenticationError message)) ↔ UnknownKey jwks header := by
  unfold loadKey UnknownKey
  dsimp only
  generalize PyDict.get header "kid" = kid
  cases htruthy : kid.truthy with
  | false =>
    rw [if_neg Bool.false_ne_true]
    exact ⟨fun _ => Or.inl rfl, fun _ => ⟨_, rfl⟩⟩
  | true =>
    rw [if_pos rfl]
    cases hhash : kid.isHashable with
    | false =>
      rw [if_neg Bool.false_ne_true]
      constructor
      · intro h
        obtain ⟨message, h⟩ := h
        cases h
      · intro h
        rcases h with hbad | ⟨hbad, -⟩ <;> cases hbad
    | true =>
      rw [if_pos rfl]
      cases hfind : keysByKid.find? fun entry => entry.1.sameKey kid with
      | none =>
        refine ⟨fun _ => Or.inr ⟨rfl, ?_⟩, fun _ => ⟨_, rfl⟩⟩
        intro key hkey
        obtain ⟨entry, hmem, hsame⟩ := buildKeyLoader_complete hbuild hkey
        exact List.find?_eq_none.1 hfind entry hmem hsame
      | some entry =>
        constructor
        · intro h
          obtain ⟨message, h⟩ := h
          cases h
        · intro h
          rcases h with hbad | ⟨-, hnone⟩
          · cases hbad
          · obtain ⟨keys, items, hkeys, hitems, hitem, hkid⟩ :=
              buildKeyLoader_mem hbuild (List.mem_of_find?_eq_some hfind)
            have hsame := @List.find?_some _ (fun entry : PyAny × PyAny => entry.1.sameKey kid) _ _ hfind
            exact absurd ⟨keys, items, entry.1, hkeys, hitems, hitem, hkid, hsame⟩ (hnone entry.2)

theorem loadKey_error {lib : TokenLibraries} {keysByKid : List (PyAny × PyAny)} {header : PyDict} {e : RequestError}
    (h : loadKey lib keysByKid header = .error e) : (∃ message, e = .authenticationError message) ∨ e.IsPlain := by
  unfold loadKey at h
  dsimp only at h
  split_ifs at h
  · split at h
    · exact Or.inl ⟨_, (Except.error.inj h).symm⟩
    · cases h
  · obtain rfl := Except.error.inj h
    exact Or.inr trivial
  · exact Or.inl ⟨_, (Except.error.inj h).symm⟩

end Keys

/-! ## Refusals -/

/-- the loader of this document finds this key for the header -/
def Loads (lib : TokenLibraries) (jwks : PyAny) (header : PyDict) (key : PyAny) : Prop :=
  ∃ keysByKid, buildKeyLoader jwks = .ok keysByKid ∧ loadKey lib keysByKid header = .ok key

/-- a check of the token fails in a way that `authenticate` names -/
inductive FailedCheck (lib : TokenLibraries) (jwks issuer : PyAny) (token : String) (now : UnixTs) : Prop where
  | header (className : String) : lib.header token = .error (.service className) → className ∈ tokenErrors →
      FailedCheck lib jwks issuer token now
  | key (header : PyDict) : lib.header token = .ok header → UnknownKey jwks header →
      FailedCheck lib jwks issuer token now
  | signature (header : PyDict) (key : PyAny) (className : String) : lib.header token = .ok header →
      Loads lib jwks header key → lib.verify token key = .error (.service className) → className ∈ tokenErrors →
      FailedCheck lib jwks issuer token now
  | claims (header : PyDict) (key : PyAny) (claims : PyDict) (className : String) : lib.header token = .ok header →
      Loads lib jwks header key → lib.verify token key = .ok claims →
      lib.validate claims (claimsOptions issuer) now = .error (.service className) → className ∈ tokenErrors →
      FailedCheck lib jwks issuer token now

/-- the documents can be read, and a check of the token fails -/
def Refused (lib : TokenLibraries) (metadata jwks : PyAny) (token : String) (now : UnixTs) : Prop :=
  ∃ keysByKid issuer, buildKeyLoader jwks = .ok keysByKid ∧ metadata.getItem "issuer" = .ok issuer ∧
    FailedCheck lib jwks issuer token now

/-- the libraries raise exceptions of their own: no `AuthenticationError`, and nothing outside `Exception` -/
structure TokenLibraries.Ordinary (lib : TokenLibraries) : Prop where
  header : ∀ token e, lib.header token = .error e →
    (∀ message, e ≠ .authenticationError message) ∧ ∀ className, e ≠ .interrupt className
  verify : ∀ token key e, lib.verify token key = .error e →
    (∀ message, e ≠ .authenticationError message) ∧ ∀ className, e ≠ .interrupt className
  validate : ∀ claims options now e, lib.validate claims options now = .error e →
    (∀ message, e ≠ .authenticationError message) ∧ ∀ className, e ≠ .interrupt className

/-- the exception is raised on as a failed authentication -/
def RequestError.FailsAuthentication (e : RequestError) : Prop :=
  ∃ message, handleTokenErrors e = .authenticationError message

section Refusals

variable {lib : TokenLibraries} {metadata jwks : PyAny} {token : String} {now : UnixTs}

theorem failsAuthentication_iff {e : RequestError} : e.FailsAuthentication ↔
    (∃ message, e = .authenticationError message) ∨ ∃ className, e = .service className ∧ className ∈ tokenErrors := by
  unfold RequestError.FailsAuthentication
  cases e with
  | service className =>
    simp only [handleTokenErrors]
    split_ifs with hmem
    · exact ⟨fun _ => Or.inr ⟨className, rfl, hmem⟩, fun _ => ⟨_, rfl⟩⟩
    · constructor
      · intro h
        obtain ⟨message, h⟩ := h
        cases h
      · intro h
        rcases h with ⟨message, h⟩ | ⟨name, h, hname⟩
        · cases h
        · cases h
          exact absurd hname hmem
  | authenticationError message => exact ⟨fun _ => Or.inl ⟨message, rfl⟩, fun _ => ⟨message, rfl⟩⟩
  | _ =>
    constructor
    · intro h
      obtain ⟨message, h⟩ := h
      cases h
    · intro h
      rcases h with ⟨message, h⟩ | ⟨name, h, -⟩ <;> cases h

theorem not_failsAuthentication_of_plain {e : RequestError} (h : e.IsPlain) : ¬ e.FailsAuthentication := by
  rw [failsAuthentication_iff]
  intro hfails
  rcases hfails with ⟨message, rfl⟩ | ⟨className, rfl, -⟩ <;> exact h

/-- an exception of a library fails the authentication when its class is named -/
theorem failsAuthentication_library {e : RequestError} (h : ∀ message, e ≠ .authenticationError message) :
    e.FailsAuthentication ↔ ∃ className, e = .service className ∧ className ∈ tokenErrors := by
  rw [failsAuthentication_iff]
  constructor
  · intro hfails
    rcases hfails with ⟨message, rfl⟩ | hservice
    · exact absurd rfl (h message)
    · exact hservice
  · exact Or.inr

/-- how the checks raise once the documents are read: one constructor for each call that can -/
inductive CheckRaises (lib : TokenLibraries) (keysByKid : List (PyAny × PyAny)) (issuer : PyAny) (token : String)
    (now : UnixTs) (e : RequestError) : Prop where
  | header (hheader : lib.header token = .error e)
  | key (header : PyDict) (hheader : lib.header token = .ok header) (hload : loadKey lib keysByKid header = .error e)
  | signature (header : PyDict) (key : PyAny) (hheader : lib.header token = .ok header)
      (hload : loadKey lib keysByKid header = .ok key) (hverify : lib.verify token key = .error e)
  | claims (header : PyDict) (key : PyAny) (claims : PyDict) (hheader : lib.header token = .ok header)
      (hload : loadKey lib keysByKid header = .ok key) (hverify : lib.verify token key = .ok claims)
      (hvalidate : lib.validate claims (claimsOptions issuer) now = .error e)

/-- **How the checks raise.** Either a document cannot be read, or a check raises. -/
theorem checkToken_raises {e : RequestError} (h : checkToken lib metadata jwks token now = .error e) :
    e.IsPlain ∨ ∃ keysByKid issuer, buildKeyLoader jwks = .ok keysByKid ∧ metadata.getItem "issuer" = .ok issuer ∧
      CheckRaises lib keysByKid issuer token now e := by
  rcases bind_error h with hbuild | ⟨keysByKid, hbuild, h⟩
  · exact Or.inl (buildKeyLoader_error hbuild)
  rcases bind_error h with hissuer | ⟨issuer, hissuer, h⟩
  · exact Or.inl (getItem_error hissuer)
  refine Or.inr ⟨keysByKid, issuer, hbuild, hissuer, ?_⟩
  rcases bind_error h with hdecode | ⟨claims, hdecode, h⟩
  · rcases bind_error hdecode with hheader | ⟨header, hheader, hdecode⟩
    · exact .header hheader
    rcases bind_error hdecode with hload | ⟨key, hload, hverify⟩
    · exact .key header hheader hload
    · exact .signature header key hheader hload hverify
  · obtain ⟨header, hheader, hdecode⟩ := bind_ok hdecode
    obtain ⟨key, hload, hverify⟩ := bind_ok hdecode
    rcases bind_error h with hvalidate | ⟨_, -, h⟩
    · exact .claims header key claims hheader hload hverify hvalidate
    · cases h

/-- and each of these raises -/
theorem checkToken_of_raises {keysByKid : List (PyAny × PyAny)} {issuer : PyAny} {e : RequestError}
    (hbuild : buildKeyLoader jwks = .ok keysByKid) (hissuer : metadata.getItem "issuer" = .ok issuer)
    (h : CheckRaises lib keysByKid issuer token now e) : checkToken lib metadata jwks token now = .error e := by
  unfold checkToken TokenLibraries.decode
  rw [hbuild, ok_bind, hissuer, ok_bind]
  cases h with
  | header hheader =>
    rw [hheader]
    rfl
  | key header hheader hload =>
    rw [hheader, ok_bind, hload]
    rfl
  | signature header key hheader hload hverify =>
    rw [hheader, ok_bind, hload, ok_bind, hverify]
    rfl
  | claims header key claims hheader hload hverify hvalidate =>
    rw [hheader, ok_bind, hload, ok_bind, hverify, ok_bind, hvalidate]
    rfl

/-- a check that raises and fails the authentication does so as the code names it -/
theorem CheckRaises.failed {keysByKid : List (PyAny × PyAny)} {issuer : PyAny} {e : RequestError}
    (h : CheckRaises lib keysByKid issuer token now e) (hlib : lib.Ordinary)
    (hbuild : buildKeyLoader jwks = .ok keysByKid) (hfails : e.FailsAuthentication) :
    FailedCheck lib jwks issuer token now := by
  cases h with
  | header hheader =>
    obtain ⟨className, rfl, hmem⟩ := (failsAuthentication_library (hlib.header token e hheader).1).1 hfails
    exact .header className hheader hmem
  | key header hheader hload =>
    refine .key header hheader ((loadKey_unknown_iff lib hbuild header).1 ?_)
    rcases loadKey_error hload with ⟨message, rfl⟩ | hplain
    · exact ⟨message, hload⟩
    · exact absurd hfails (not_failsAuthentication_of_plain hplain)
  | signature header key hheader hload hverify =>
    obtain ⟨className, rfl, hmem⟩ := (failsAuthentication_library (hlib.verify token key e hverify).1).1 hfails
    exact .signature header key className hheader ⟨keysByKid, hbuild, hload⟩ hverify hmem
  | claims header key claims hheader hload hverify hvalidate =>
    obtain ⟨className, rfl, hmem⟩ := (failsAuthentication_library (hlib.validate claims _ now e hvalidate).1).1 hfails
    exact .claims header key claims className hheader ⟨keysByKid, hbuild, hload⟩ hverify hvalidate hmem

/-- a check that fails as the code names it raises, and fails the authentication -/
theorem FailedCheck.raises {keysByKid : List (PyAny × PyAny)} {issuer : PyAny}
    (h : FailedCheck lib jwks issuer token now) (hbuild : buildKeyLoader jwks = .ok keysByKid) :
    ∃ e, CheckRaises lib keysByKid issuer token now e ∧ e.FailsAuthentication := by
  have hloads : ∀ {header key}, Loads lib jwks header key → loadKey lib keysByKid header = .ok key := by
    intro header key hloads
    obtain ⟨keysByKid', hbuild', hload⟩ := hloads
    obtain rfl := Except.ok.inj (hbuild.symm.trans hbuild')
    exact hload
  have hnamed : ∀ {className}, className ∈ tokenErrors → (RequestError.service className).FailsAuthentication :=
    fun hmem => failsAuthentication_iff.2 (Or.inr ⟨_, rfl, hmem⟩)
  cases h with
  | header className hheader hmem => exact ⟨_, .header hheader, hnamed hmem⟩
  | key header hheader hunknown =>
    obtain ⟨message, hload⟩ := (loadKey_unknown_iff lib hbuild header).2 hunknown
    exact ⟨_, .key header hheader hload, failsAuthentication_iff.2 (Or.inl ⟨message, rfl⟩)⟩
  | signature header key className hheader hload hverify hmem =>
    exact ⟨_, .signature header key hheader (hloads hload) hverify, hnamed hmem⟩
  | claims header key claims className hheader hload hverify hvalidate hmem =>
    exact ⟨_, .claims header key claims hheader (hloads hload) hverify hvalidate, hnamed hmem⟩

/-- **Refused tokens** are those for which a check fails as the code names it. -/
theorem refused_iff (hlib : lib.Ordinary) :
    (∃ e, checkToken lib metadata jwks token now = .error e ∧ e.FailsAuthentication) ↔
      Refused lib metadata jwks token now := by
  constructor
  · intro h
    obtain ⟨e, hcheck, hfails⟩ := h
    rcases checkToken_raises hcheck with hplain | ⟨keysByKid, issuer, hbuild, hissuer, hraises⟩
    · exact absurd hfails (not_failsAuthentication_of_plain hplain)
    · exact ⟨keysByKid, issuer, hbuild, hissuer, hraises.failed hlib hbuild hfails⟩
  · intro h
    obtain ⟨keysByKid, issuer, hbuild, hissuer, hfailed⟩ := h
    obtain ⟨e, hraises, hfails⟩ := hfailed.raises hbuild
    exact ⟨e, checkToken_of_raises hbuild hissuer hraises, hfails⟩

end Refusals

/-! ## Answers -/

/-- `create_openid_conf_provider`: the configuration of the static provider -/
def createOpenidConfProvider : Except RequestError OpenIdConfiguration :=
  .ok ⟨"throttling_test", "http://localhost:8082/realms/throttling-test"⟩

/-- the manager over a client whose two documents are cached -/
def warmManager (lib : TokenLibraries) (metadata jwks : PyAny) (now : UnixTs) : JwtAuthenticationManager where
  tokenValidationClient token _ _ := validateToken lib metadata jwks token now
  openidConfigurationProvider := createOpenidConfProvider

/-- the token passes every check, with these claims -/
def Passed (lib : TokenLibraries) (metadata jwks : PyAny) (token : String) (now : UnixTs) (claims : PyDict) : Prop :=
  ∃ issuer header key, metadata.getItem "issuer" = .ok issuer ∧ lib.header token = .ok header ∧
    Loads lib jwks header key ∧ lib.verify token key = .ok claims ∧
    lib.validate claims (claimsOptions issuer) now = .ok ()

/-- the token is accepted, and its claims can be read -/
def Accepted (lib : TokenLibraries) (metadata jwks : PyAny) (token : String) (now : UnixTs) (claims : PyDict) : Prop :=
  Passed lib metadata jwks token now claims ∧ Readable claims

section Answers

variable {lib : TokenLibraries} {metadata jwks : PyAny} {token : String} {now : UnixTs}

theorem passed_iff {claims : PyDict} :
    checkToken lib metadata jwks token now = .ok claims ↔ Passed lib metadata jwks token now claims := by
  constructor
  · intro h
    obtain ⟨keysByKid, hbuild, h⟩ := bind_ok h
    obtain ⟨issuer, hissuer, h⟩ := bind_ok h
    obtain ⟨claims', hdecode, h⟩ := bind_ok h
    obtain ⟨header, hheader, hdecode⟩ := bind_ok hdecode
    obtain ⟨key, hload, hverify⟩ := bind_ok hdecode
    obtain ⟨_, hvalidate, h⟩ := bind_ok h
    obtain rfl := Except.ok.inj h
    exact ⟨issuer, header, key, hissuer, hheader, ⟨keysByKid, hbuild, hload⟩, hverify, hvalidate⟩
  · intro h
    obtain ⟨issuer, header, key, hissuer, hheader, ⟨keysByKid, hbuild, hload⟩, hverify, hvalidate⟩ := h
    unfold checkToken TokenLibraries.decode
    rw [hbuild, ok_bind, hissuer, ok_bind, hheader, ok_bind, hload, ok_bind, hverify, ok_bind, hvalidate]
    rfl

theorem warmManager_run (htoken : token ≠ "") : (warmManager lib metadata jwks now).authenticateJwtToken (some token) =
    validateToken lib metadata jwks token now >>= parseKeycloakClaims := by
  simp only [JwtAuthenticationManager.authenticateJwtToken, if_neg htoken, warmManager, createOpenidConfProvider,
    ok_bind]

/-- what `authenticate` raises, the handler of the middleware refuses -/
theorem refuse_handled {e : RequestError} (hinterrupt : ∀ className, e ≠ .interrupt className) :
    (e.FailsAuthentication → refuse (handleTokenErrors e) = .ok (.response 401 "Authentication failed")) ∧
    (¬ e.FailsAuthentication →
      refuse (handleTokenErrors e) = .ok (.response 500 "Unexpected error during authentication")) := by
  constructor
  · intro h
    obtain ⟨message, h⟩ := h
    rw [h]
    rfl
  · intro h
    unfold RequestError.FailsAuthentication at h
    cases hhandled : handleTokenErrors e with
    | authenticationError message => exact absurd ⟨message, hhandled⟩ h
    | interrupt className =>
      cases e with
      | interrupt name => exact absurd rfl (hinterrupt name)
      | service name =>
        simp only [handleTokenErrors] at hhandled
        split_ifs at hhandled
      | _ => cases hhandled
    | _ => rfl

/-- the checks end with an exception of a library, or of the code's own -/
theorem checkToken_error (hlib : lib.Ordinary) {e : RequestError}
    (h : checkToken lib metadata jwks token now = .error e) (className : String) : e ≠ .interrupt className := by
  have hplain : ∀ {e : RequestError}, e.IsPlain → e ≠ .interrupt className := by
    intro e he hinterrupt
    rw [hinterrupt] at he
    exact he
  rcases checkToken_raises h with hbad | ⟨keysByKid, issuer, -, -, hraises⟩
  · exact hplain hbad
  cases hraises with
  | header hheader => exact (hlib.header token e hheader).2 className
  | key header hheader hload =>
    rcases loadKey_error hload with ⟨message, rfl⟩ | hload
    · intro hbad
      cases hbad
    · exact hplain hload
  | signature header key hheader hload hverify => exact (hlib.verify token key e hverify).2 className
  | claims header key claims hheader hload hverify hvalidate =>
    exact (hlib.validate claims _ now e hvalidate).2 className

theorem extendWith_error {roles : List PyAny} {value : PyAny} {e : RequestError}
    (h : extendWith roles value = .error e) : e.IsPlain := by
  unfold extendWith at h
  split_ifs at h
  · rcases bind_error h with hitems | ⟨items, -, h⟩
    · exact items_error hitems
    · cases h
  · cases h

theorem extendClients_error {clients roles : List PyAny} {e : RequestError}
    (h : clients.foldlM (fun roles access => do extendWith roles (← access.attrGet "roles")) roles = .error e) :
    e.IsPlain := by
  induction clients generalizing roles with
  | nil => cases h
  | cons access clients ih =>
    rw [List.foldlM_cons] at h
    rcases bind_error h with haccess | ⟨next, -, h⟩
    · rcases bind_error haccess with hget | ⟨value, -, hextend⟩
      · exact attrGet_error hget
      · exact extendWith_error hextend
    · exact ih h

theorem parseRoles_error {claims : PyDict} {e : RequestError} (h : parseRoles claims = .error e) : e.IsPlain := by
  rcases bind_error h with hget | ⟨realmRoles, -, h⟩
  · exact attrGet_error hget
  rcases bind_error h with hextend | ⟨roles, -, h⟩
  · exact extendWith_error hextend
  dsimp only at h
  split_ifs at h
  · rcases bind_error h with hvalues | ⟨clients, -, h⟩
    · generalize PyDict.get claims "resource_access" = value at hvalues
      cases value <;> cases hvalues <;> trivial
    · exact extendClients_error h
  · cases h

/-- claims that cannot be read raise an exception of the language -/
theorem parse_error {claims : PyDict} {e : RequestError} (h : parseKeycloakClaims claims = .error e) : e.IsPlain := by
  rw [parse_eq] at h
  rcases bind_error h with hsub | ⟨userId, -, h⟩
  · exact getItem_error (v := .dict claims) hsub
  rcases bind_error h with hroles | ⟨roles, -, h⟩
  · exact parseRoles_error hroles
  rcases bind_error h with hscopes | ⟨scopes, -, h⟩
  · unfold readScopes at hscopes
    split_ifs at hscopes
    · generalize PyDict.get claims "scope" (.str "") = value at hscopes
      cases value <;> cases hscopes <;> trivial
    · cases hscopes
  · cases h

/-- the exception that the checks of a warm client raise -/
theorem refused_of_raised (hlib : lib.Ordinary) {e : RequestError}
    (hcheck : checkToken lib metadata jwks token now = .error e) :
    Refused lib metadata jwks token now ↔ e.FailsAuthentication := by
  rw [← refused_iff hlib, hcheck]
  constructor
  · intro h
    obtain ⟨e', heq, h⟩ := h
    cases heq
    exact h
  · intro h
    exact ⟨e, rfl, h⟩

theorem warmManager_raised (htoken : token ≠ "") {e : RequestError}
    (hcheck : checkToken lib metadata jwks token now = .error e) :
    (warmManager lib metadata jwks now).authenticateJwtToken (some token) = .error (handleTokenErrors e) := by
  rw [warmManager_run htoken]
  unfold validateToken
  rw [hcheck]
  rfl

theorem warmManager_passed (htoken : token ≠ "") {claims : PyDict}
    (hcheck : checkToken lib metadata jwks token now = .ok claims) :
    (warmManager lib metadata jwks now).authenticateJwtToken (some token) = parseKeycloakClaims claims := by
  rw [warmManager_run htoken]
  unfold validateToken
  rw [hcheck]
  rfl

/-- what the manager of a warm client comes to, for a token -/
theorem warm_verdict (hlib : lib.Ordinary) (htoken : token ≠ "") (request : Request) (requestId : String) :
    let answer := verdict request requestId (some token)
      ((warmManager lib metadata jwks now).authenticateJwtToken (some token))
    (∀ claims, Accepted lib metadata jwks token now claims →
      answer = .ok (.app (authenticated request requestId (some token) (userOf claims)))) ∧
    (Refused lib metadata jwks token now → answer = .ok (.response 401 "Authentication failed")) ∧
    ((∀ claims, ¬ Accepted lib metadata jwks token now claims) → ¬ Refused lib metadata jwks token now →
      answer = .ok (.response 500 "Unexpected error during authentication")) := by
  dsimp only
  cases hcheck : checkToken lib metadata jwks token now with
  | error e =>
    have hnot : ∀ claims, ¬ Accepted lib metadata jwks token now claims := by
      intro claims h
      rw [Accepted, ← passed_iff, hcheck] at h
      cases h.1
    have hiff := refused_of_raised hlib hcheck
    obtain ⟨hfails, hother⟩ := refuse_handled (checkToken_error hlib hcheck)
    rw [warmManager_raised htoken hcheck]
    exact ⟨fun claims h => absurd h (hnot claims), fun h => hfails (hiff.1 h), fun _ h => hother (mt hiff.2 h)⟩
  | ok claims =>
    have hnot : ¬ Refused lib metadata jwks token now := by
      rw [← refused_iff hlib, hcheck]
      intro h
      obtain ⟨e, heq, -⟩ := h
      cases heq
    rw [warmManager_passed htoken hcheck]
    refine ⟨?_, fun h => absurd h hnot, ?_⟩
    · intro claims' h
      obtain ⟨hpassed, hreadable⟩ := h
      obtain rfl := Except.ok.inj (hcheck.symm.trans (passed_iff.2 hpassed))
      rw [parse_iff.2 ⟨hreadable, rfl⟩]
      rfl
    · intro haccepted _
      cases hparse : parseKeycloakClaims claims with
      | ok user => exact absurd ⟨passed_iff.1 hcheck, (parse_iff.1 hparse).1⟩ (haccepted claims)
      | error e =>
        have hplain := parse_error hparse
        cases e with
        | keyError key => rfl
        | attributeError message => rfl
        | typeError message => rfl
        | _ => exact hplain.elim

end Answers

/-- **What a request with a token is answered.** With the documents of the identity provider cached, a request whose
header carries a token is handed to the application exactly when the token passes every check and its claims can be
read, and then with the `sub` of these claims as its user; it is answered 401 exactly when a check fails as the code
names it; and 500 in every other case. -/
theorem token_answers {lib : TokenLibraries} (hlib : lib.Ordinary) (metadata jwks : PyAny) (now : UnixTs)
    {enricher : ProductionContextEnricher}
    (hsplits : SplitsAtFirstSpace enricher.httpTokenExtractor.getAuthorizationSchemeParam) (requestId : String)
    {request : Request} (htype : request.scope.type = "http") (hpath : request.scope.isExcluded = false)
    {token : String} (htoken : token ≠ "") (hcarries : Carries (enricher.httpTokenExtractor.header request.scope) token)
    (called : Request) :
    let call := serve enricher (warmManager lib metadata jwks now) requestId
    (Awaits call request (.app called) ↔ ∃ claims, Accepted lib metadata jwks token now claims ∧
      called = authenticated request requestId (some token) (userOf claims)) ∧
    (Awaits call request (.response 401 "Authentication failed") ↔ Refused lib metadata jwks token now) ∧
    (Awaits call request (.response 500 "Unexpected error during authentication") ↔
      (∀ claims, ¬ Accepted lib metadata jwks token now claims) ∧ ¬ Refused lib metadata jwks token now) := by
  intro call
  have hextract := enricher.httpTokenExtractor.extractSafe_eq hsplits request.scope
  rw [tokenOf_of_carries hcarries] at hextract
  have hawaits := fun awaited => @serve_awaits_iff enricher (warmManager lib metadata jwks now) requestId request htype
    hpath _ hextract awaited
  obtain ⟨happ, hrefused, hother⟩ := @warm_verdict lib metadata jwks token now hlib htoken request requestId
  have hall : (∃ claims, Accepted lib metadata jwks token now claims) ∨ Refused lib metadata jwks token now ∨
      ((∀ claims, ¬ Accepted lib metadata jwks token now claims) ∧ ¬ Refused lib metadata jwks token now) := by
    by_cases haccepted : ∃ claims, Accepted lib metadata jwks token now claims
    · exact Or.inl haccepted
    · by_cases h : Refused lib metadata jwks token now
      · exact Or.inr (Or.inl h)
      · exact Or.inr (Or.inr ⟨fun claims hclaims => haccepted ⟨claims, hclaims⟩, h⟩)
  rw [hawaits, hawaits, hawaits]
  refine ⟨⟨?_, ?_⟩, ⟨?_, hrefused⟩, ⟨?_, fun h => hother h.1 h.2⟩⟩
  · intro h
    rcases hall with ⟨claims, hclaims⟩ | hbad | ⟨hnone, hbad⟩
    · rw [happ claims hclaims] at h
      refine ⟨claims, hclaims, ?_⟩
      cases h
      rfl
    · rw [hrefused hbad] at h
      cases h
    · rw [hother hnone hbad] at h
      cases h
  · intro h
    obtain ⟨claims, hclaims, rfl⟩ := h
    exact happ claims hclaims
  · intro h
    rcases hall with ⟨claims, hclaims⟩ | hbad | ⟨hnone, hbad⟩
    · rw [happ claims hclaims] at h
      cases h
    · exact hbad
    · rw [hother hnone hbad] at h
      simp at h
  · intro h
    rcases hall with ⟨claims, hclaims⟩ | hbad | hnone
    · rw [happ claims hclaims] at h
      cases h
    · rw [hrefused hbad] at h
      simp at h
    · exact hnone

theorem demoLibraries_ordinary : demoLibraries.Ordinary where
  header token e h := by
    simp only [demoLibraries] at h
    split_ifs at h
    cases h
    exact ⟨(by intro message hbad; cases hbad), (by intro className hbad; cases hbad)⟩
  verify token key e h := by
    simp only [demoLibraries] at h
    split at h <;> cases h
    exact ⟨(by intro message hbad; cases hbad), (by intro className hbad; cases hbad)⟩
  validate claims options now e h := by
    simp only [demoLibraries] at h
    split at h
    · split_ifs at h
      cases h
      exact ⟨(by intro message hbad; cases hbad), (by intro className hbad; cases hbad)⟩
    · cases h

def demoClaims : PyDict := [("sub", .str "user-1"), ("iss", .str "idp")]

theorem demoClaims_readable : Readable demoClaims where
  sub := rfl
  realm := ⟨[], rfl, by intro h; cases h⟩
  resource h := by cases h
  scope h := by cases h

/-- `Authorization: Bearer abc` -/
theorem token_answers_abc :
    Awaits (serve demoEnricher (warmManager demoLibraries demoMetadata demoKeys 5) "c0ffee")
      (demoRequest [(asciiBytes "authorization", asciiBytes "Bearer abc")])
      (.app (authenticated (demoRequest [(asciiBytes "authorization", asciiBytes "Bearer abc")]) "c0ffee" (some "abc")
        (userOf demoClaims))) := by
  have hcarries : Carries (demoEnricher.httpTokenExtractor.header
      (demoRequest [(asciiBytes "authorization", asciiBytes "Bearer abc")]).scope) "abc" :=
    ⟨"Bearer", by decide +kernel, by decide +kernel, by decide +kernel⟩
  exact (token_answers demoLibraries_ordinary demoMetadata demoKeys 5 fastapiSchemeParam_splits "c0ffee" rfl
    (by decide +kernel) (by decide) hcarries _).1.2 ⟨demoClaims, ⟨passed_iff.1 rfl, demoClaims_readable⟩, rfl⟩

end LlmAgent
