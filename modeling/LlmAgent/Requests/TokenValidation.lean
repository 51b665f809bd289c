/-
Validation of a token against the identity provider (`infrastructure/authentication/jwt_validator.py`).

A call of `authenticate` awaits at most two answers of the identity provider, its metadata and its keys, and many calls
are under way at once over the same two caches; so the client is a machine whose inputs are the calls and the answers,
in any order. What authlib and httpx do is given (`TokenLibraries`): reading a token's header, verifying the token under
a key and validating its claims.

- `PyAny.contains`, `PyAny.getItem`, `PyAny.sameKey`: what the code asks of JSON documents it does not check;
- `buildKeyLoader`, `loadKey`, `validateToken`: the part that awaits nothing;
- `JwtValidationClient`, `tokenClient`: the caches, the calls under way, and the machine;
- `loadKey_ok`, `buildKeyLoader_mem`: a key that is loaded is one of the document's and has the `kid` of the header.

The audience is a parameter that the code does not read.
-/
import Mathlib.Algebra.Order.Field.Rat
import LlmAgent.Core.Dict
import LlmAgent.Core.Machine
import LlmAgent.Requests.Authentication

namespace LlmAgent

open Core

/-! ## Values of unknown type -/

/-- `v[key]` -/
def PyAny.getItem (v : PyAny) (key : String) : Except RequestError PyAny :=
  match v with
  | .dict kvs => PyDict.item kvs key
  | .list _ => .error (.typeError "list indices must be integers or slices, not str")
  | .str _ => .error (.typeError "string indices must be integers, not 'str'")
  | v => .error (.typeError ("'" ++ v.typeName ++ "' object is not subscriptable"))

/-- `key in v` -/
def PyAny.contains (v : PyAny) (key : String) : Except RequestError Bool :=
  match v with
  | .dict kvs => .ok (kvs.lookup key).isSome
  | .list xs => .ok (xs.any fun x => x.eqStr key)
  | .str s => .ok (s.toList.tails.any fun tail => key.toList.isPrefixOf tail)
  | v => .error (.typeError ("argument of type '" ++ v.typeName ++ "' is not iterable"))

def PyAny.isHashable : PyAny → Bool
  | .list _ => false
  | .dict _ => false
  | _ => true

/-- what hashing a value raises -/
def PyAny.unhashable (v : PyAny) : RequestError := .typeError ("unhashable type: '" ++ v.typeName ++ "'")

/-- the exponent of a double, all ones for infinities and NaNs -/
def floatExponent (bits : BitVec 64) : ℕ := bits.toNat / 2 ^ 52 % 2 ^ 11

/-- the value of a finite double -/
def floatValue (bits : BitVec 64) : ℚ :=
  let fraction : ℕ := bits.toNat % 2 ^ 52
  let magnitude : ℚ :=
    if floatExponent bits = 0 then fraction / 2 ^ 1074
    else (2 ^ 52 + fraction) * 2 ^ floatExponent bits / 2 ^ 1075
  if bits.toNat < 2 ^ 63 then magnitude else -magnitude

/-- the number that a value is, if it is one and finite -/
def PyAny.number? : PyAny → Option ℚ
  | .bool b => some (if b then 1 else 0)
  | .int i => some i
  | .float bits => if floatExponent bits = 2 ^ 11 - 1 then Option.none else some (floatValue bits)
  | _ => Option.none

/-- two hashable values are the same key of a dictionary: numbers by value, and no NaN is the same as another -/
def PyAny.sameKey : PyAny → PyAny → Bool
  | .none, .none => true
  | .str s, .str t => s = t
  | a, b =>
    match a.number?, b.number? with
    | some x, some y => x = y
    | _, _ =>
      match a, b with
      | .float x, .float y => x = y ∧ floatExponent x = 2 ^ 11 - 1 ∧ x.toNat % 2 ^ 52 = 0
      | _, _ => false

/-- `f"{v}"`, floats by the given text; a list or a dictionary only comes here when it is empty -/
def PyAny.format (formatFloat : BitVec 64 → String) : PyAny → String
  | .none => "None"
  | .bool b => if b then "True" else "False"
  | .int i => toString i
  | .float bits => formatFloat bits
  | .str s => s
  | .list _ => "[]"
  | .dict _ => "{}"

/-! ## The libraries -/

/-- authlib and httpx, as far as the client calls them -/
structure TokenLibraries where
  /-- `get_well_known_url(issuer, external=True)` -/
  wellKnownUrl : String → String
  /-- what `client.get(url)` raises when `url` is no text -/
  invalidUrl : PyAny → RequestError
  /-- the header that `jwt.decode` reads off a token before it asks for the key -/
  header : String → Except RequestError PyDict
  /-- the claims of a token that `jwt.decode` verified under a key -/
  verify : String → PyAny → Except RequestError PyDict
  /-- `claims.validate()` under these `claims_options`, by the clock -/
  validate : PyDict → PyDict → UnixTs → Except RequestError Unit
  formatFloat : BitVec 64 → String

/-- `jwt.decode(token, key=load_key)` -/
def TokenLibraries.decode (lib : TokenLibraries) (token : String) (loadKey : PyDict → Except RequestError PyAny) :
    Except RequestError PyDict := do
  let header ← lib.header token
  let key ← loadKey header
  lib.verify token key

/-! ## Keys -/

/-- `keys_by_kid[key["kid"]] = key` if `"kid" in key`; the newest entry is at the front -/
def addKey (keysByKid : List (PyAny × PyAny)) (key : PyAny) : Except RequestError (List (PyAny × PyAny)) := do
  if ← key.contains "kid" then
    let kid ← key.getItem "kid"
    if kid.isHashable then pure ((kid, key) :: keysByKid) else throw kid.unhashable
  else
    pure keysByKid

/-- the dictionary of `_build_key_loader` -/
def buildKeyLoader (jwks : PyAny) : Except RequestError (List (PyAny × PyAny)) := do
  let keys ← jwks.attrGet "keys" (.list [])
  let items ← keys.items
  items.foldlM addKey []

/-- the closure `load_key`; the payload is not read -/
def loadKey (lib : TokenLibraries) (keysByKid : List (PyAny × PyAny)) (header : PyDict) : Except RequestError PyAny :=
  let kid := PyDict.get header "kid"
  let unknown : RequestError := .authenticationError ("Unknown key id: " ++ kid.format lib.formatFloat)
  if kid.truthy then
    if kid.isHashable then
      match keysByKid.find? fun entry => entry.1.sameKey kid with
      | none => .error unknown
      | some entry => .ok entry.2
    else .error kid.unhashable
  else .error unknown

/-! ## Validation -/

/-- the classes that the handler of `authenticate` names -/
def tokenErrors : List String := ["DecodeError", "InvalidClaimError", "ExpiredTokenError", "InvalidTokenError"]

/-- the handler of `authenticate`; other exceptions pass -/
def handleTokenErrors : RequestError → RequestError
  | .service className =>
    if className ∈ tokenErrors then .authenticationError "Token validation failed" else .service className
  | e => e

/-- `claims_options` -/
def claimsOptions (issuer : PyAny) : PyDict :=
  [("iss", .dict [("essential", .bool true), ("value", issuer)]), ("exp", .dict [("essential", .bool true)])]

/-- the body of the `try` -/
def checkToken (lib : TokenLibraries) (metadata jwks : PyAny) (token : String) (now : UnixTs) :
    Except RequestError PyDict := do
  let keysByKid ← buildKeyLoader jwks
  let issuer ← metadata.getItem "issuer"
  let claims ← lib.decode token (loadKey lib keysByKid)
  lib.validate claims (claimsOptions issuer) now
  pure claims

/-- `authenticate` once it has the metadata and the keys -/
def validateToken (lib : TokenLibraries) (metadata jwks : PyAny) (token : String) (now : UnixTs) :
    Except RequestError PyDict := (checkToken lib metadata jwks token now).mapError handleTokenErrors

/-! ## The client -/

/-- where a call of `authenticate` stands -/
inductive Validation where
  /-- in `_get_oidc_metadata`, at `client.get` -/
  | metadata (token oidcDiscoveryUrl : String)
  /-- in `_get_jwks`, at `client.get` -/
  | jwks (token oidcDiscoveryUrl : String) (metadata : PyAny) (jwksUri : String)

structure JwtValidationClient where
  metadataCache : Dict String PyAny := .empty
  jwksCache : Dict String PyAny := .empty
  /-- the calls under way, by number -/
  calls : ℕ → Option Validation := fun _ => none

/-- a call that ended: what it was asked, when it ended, and what it returned or raised -/
structure Authenticated where
  token : String
  oidcDiscoveryUrl : String
  now : UnixTs
  result : Except RequestError PyDict

inductive ClientOp where
  /-- a new call; its number is free -/
  | authenticate (call : ℕ) (token oidcDiscoveryUrl : String) (now : UnixTs)
  /-- what the call awaits ends: a JSON document, or an exception of the request, of its status or of its JSON -/
  | respond (call : ℕ) (response : Except RequestError PyAny) (now : UnixTs)

namespace JwtValidationClient

def stand (c : JwtValidationClient) (call : ℕ) (validation : Option Validation) : JwtValidationClient :=
  { c with calls := Function.update c.calls call validation }

/-- the call ends -/
def finish (c : JwtValidationClient) (call : ℕ) (token oidcDiscoveryUrl : String) (now : UnixTs)
    (result : Except RequestError PyDict) : Option Authenticated × JwtValidationClient :=
  (some ⟨token, oidcDiscoveryUrl, now, result⟩, c.stand call none)

/-- from `metadata["jwks_uri"]` to the next `await`, or to the end -/
def getJwks (lib : TokenLibraries) (c : JwtValidationClient) (call : ℕ) (token oidcDiscoveryUrl : String)
    (metadata : PyAny) (now : UnixTs) : Option Authenticated × JwtValidationClient :=
  match metadata.getItem "jwks_uri" with
  | .error e => c.finish call token oidcDiscoveryUrl now (.error e)
  | .ok (.str jwksUri) =>
    match c.jwksCache.get? jwksUri with
    | some jwks => c.finish call token oidcDiscoveryUrl now (validateToken lib metadata jwks token now)
    | none => (none, c.stand call (some (.jwks token oidcDiscoveryUrl metadata jwksUri)))
  | .ok jwksUri =>
    -- the cache hashes what is no text before the client refuses it
    c.finish call token oidcDiscoveryUrl now
      (.error (if jwksUri.isHashable then lib.invalidUrl jwksUri else jwksUri.unhashable))

def exec (lib : TokenLibraries) (c : JwtValidationClient) : ClientOp → Option Authenticated × JwtValidationClient
  | .authenticate call token oidcDiscoveryUrl now =>
    if (c.calls call).isSome then (none, c)
    else
      match c.metadataCache.get? oidcDiscoveryUrl with
      | some metadata => c.getJwks lib call token oidcDiscoveryUrl metadata now
      | none => (none, c.stand call (some (.metadata token oidcDiscoveryUrl)))
  | .respond call response now =>
    match c.calls call with
    | none => (none, c)
    | some (.metadata token oidcDiscoveryUrl) =>
      match response with
      | .error e => c.finish call token oidcDiscoveryUrl now (.error e)
      | .ok metadata =>
        { c with metadataCache := c.metadataCache.set oidcDiscoveryUrl metadata }.getJwks lib call token
          oidcDiscoveryUrl metadata now
    | some (.jwks token oidcDiscoveryUrl metadata jwksUri) =>
      match response with
      | .error e => c.finish call token oidcDiscoveryUrl now (.error e)
      | .ok jwks =>
        { c with jwksCache := c.jwksCache.set jwksUri jwks }.finish call token oidcDiscoveryUrl now
          (validateToken lib metadata jwks token now)

/-- the URL whose answer a call awaits -/
def getting (lib : TokenLibraries) (c : JwtValidationClient) (call : ℕ) : Option String :=
  match c.calls call with
  | none => none
  | some (.metadata _ oidcDiscoveryUrl) => some (lib.wellKnownUrl oidcDiscoveryUrl)
  | some (.jwks _ _ _ jwksUri) => some jwksUri

end JwtValidationClient

/-- **The client under any calls and any answers.** -/
def tokenClient (lib : TokenLibraries) : Machine JwtValidationClient ClientOp (Option Authenticated) :=
  ⟨JwtValidationClient.exec lib⟩

/-! ## What a loaded key is -/

/-- `key` is an entry of the document's keys, and its `kid` is this one -/
def KeyOf (jwks kid key : PyAny) : Prop :=
  ∃ keys items entryKid, jwks.attrGet "keys" (.list []) = .ok keys ∧ keys.items = .ok items ∧ key ∈ items ∧
    key.getItem "kid" = .ok entryKid ∧ entryKid.sameKey kid = true

section Keys

theorem addKey_ok {keysByKid added : List (PyAny × PyAny)} {key : PyAny} (h : addKey keysByKid key = .ok added) :
    added = keysByKid ∨ ∃ kid, key.getItem "kid" = .ok kid ∧ added = (kid, key) :: keysByKid := by
  obtain ⟨b, -, h⟩ := bind_ok h
  cases b with
  | false => exact Or.inl (Except.ok.inj h).symm
  | true =>
    obtain ⟨kid, hkid, h⟩ := bind_ok h
    refine Or.inr ⟨kid, hkid, ?_⟩
    split_ifs at h
    exact (Except.ok.inj h).symm

theorem addKeys_mem {items : List PyAny} {keysByKid added : List (PyAny × PyAny)}
    (h : items.foldlM addKey keysByKid = .ok added) {entry : PyAny × PyAny} (hmem : entry ∈ added) :
    entry ∈ keysByKid ∨ entry.2 ∈ items ∧ entry.2.getItem "kid" = .ok entry.1 := by
  induction items generalizing keysByKid with
  | nil =>
    obtain rfl := Except.ok.inj h
    exact Or.inl hmem
  | cons key items ih =>
    rw [List.foldlM_cons] at h
    obtain ⟨next, hnext, h⟩ := bind_ok h
    rcases ih h with hbefore | ⟨hitem, hkid⟩
    · rcases addKey_ok hnext with rfl | ⟨kid, hkid, rfl⟩
      · exact Or.inl hbefore
      · rcases List.mem_cons.1 hbefore with rfl | hbefore
        · exact Or.inr ⟨List.mem_cons_self, hkid⟩
        · exact Or.inl hbefore
    · exact Or.inr ⟨List.mem_cons_of_mem key hitem, hkid⟩

/-- what the loader holds comes from the document -/
theorem buildKeyLoader_mem {jwks : PyAny} {keysByKid : List (PyAny × PyAny)} (h : buildKeyLoader jwks = .ok keysByKid)
    {entry : PyAny × PyAny} (hmem : entry ∈ keysByKid) : ∃ keys items, jwks.attrGet "keys" (.list []) = .ok keys ∧
      keys.items = .ok items ∧ entry.2 ∈ items ∧ entry.2.getItem "kid" = .ok entry.1 := by
  obtain ⟨keys, hkeys, h⟩ := bind_ok h
  obtain ⟨items, hitems, h⟩ := bind_ok h
  rcases addKeys_mem h hmem with hnone | ⟨hitem, hkid⟩
  · cases hnone
  · exact ⟨keys, items, hkeys, hitems, hitem, hkid⟩

/-- **A key that is loaded is one of the document's, under the `kid` of the header.** -/
theorem loadKey_ok {lib : TokenLibraries} {jwks : PyAny} {keysByKid : List (PyAny × PyAny)}
    (hbuild : buildKeyLoader jwks = .ok keysByKid) {header : PyDict} {key : PyAny}
    (h : loadKey lib keysByKid header = .ok key) :
    (PyDict.get header "kid").truthy = true ∧ KeyOf jwks (PyDict.get header "kid") key := by
  unfold loadKey at h
  dsimp only at h
  split_ifs at h with htruthy hhash
  refine ⟨htruthy, ?_⟩
  split at h
  · cases h
  · rename_i entry hfind
    obtain rfl := Except.ok.inj h
    obtain ⟨keys, items, hkeys, hitems, hitem, hkid⟩ := buildKeyLoader_mem hbuild (List.mem_of_find?_eq_some hfind)
    have hsame := @List.find?_some _ (fun entry : PyAny × PyAny => entry.1.sameKey (PyDict.get header "kid")) _ _ hfind
    exact ⟨keys, items, entry.1, hkeys, hitems, hitem, hkid, hsame⟩

/-- **What a validated token went through.** -/
theorem validateToken_ok {lib : TokenLibraries} {metadata jwks : PyAny} {token : String} {now : UnixTs}
    {claims : PyDict} (h : validateToken lib metadata jwks token now = .ok claims) :
    ∃ header key issuer, lib.header token = .ok header ∧ (PyDict.get header "kid").truthy = true ∧
      KeyOf jwks (PyDict.get header "kid") key ∧ lib.verify token key = .ok claims ∧
      metadata.getItem "issuer" = .ok issuer ∧ lib.validate claims (claimsOptions issuer) now = .ok () := by
  have hcheck : checkToken lib metadata jwks token now = .ok claims := by
    unfold validateToken at h
    cases hres : checkToken lib metadata jwks token now with
    | ok claims' =>
      rw [hres] at h
      exact h
    | error e =>
      rw [hres] at h
      cases h
  obtain ⟨keysByKid, hbuild, h⟩ := bind_ok hcheck
  obtain ⟨issuer, hissuer, h⟩ := bind_ok h
  obtain ⟨claims', hdecode, h⟩ := bind_ok h
  obtain ⟨header, hheader, hdecode⟩ := bind_ok hdecode
  obtain ⟨key, hload, hverify⟩ := bind_ok hdecode
  obtain ⟨_, hvalidate, h⟩ := bind_ok h
  obtain rfl := Except.ok.inj h
  obtain ⟨htruthy, hkey⟩ := loadKey_ok hbuild hload
  exact ⟨header, key, issuer, hheader, htruthy, hkey, hverify, hissuer, hvalidate⟩

end Keys

end LlmAgent
