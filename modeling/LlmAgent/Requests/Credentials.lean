/-
What a request without good credentials is answered.

`BadHeader` lists the malformed `Authorization` headers; every header is one of them or bears a token (`bad_or_bears`).
Each malformed header reaches the manager as a missing or an empty token, and the manager answers with
`PermissionError`, which the middleware does not tell from a failure of the service: the response is 500
(`serve_of_badHeader`). A token the validation client rejects is answered with 401.

- `enrichFromScope_run`, `authenticationMiddleware_run`, `serve_run`: what the stages of a request do;
- `verdict`: what the manager's answer comes to;
- `credentialsChecked_iff`: a request is answered as documented exactly when its header bears a token.
-/
import LlmAgent.Requests.Authentication

namespace LlmAgent

open Core

/-! ## Headers -/

/-- the value of an `Authorization` header, if there is one, is a scheme for bearer tokens and this token -/
def Carries (header : Option String) (token : String) : Prop :=
  ∃ scheme, ' ' ∉ scheme.toList ∧ lower scheme = "bearer" ∧ header = some (scheme ++ String.singleton ' ' ++ token)

def BearsToken (header : Option String) : Prop := ∃ token, token ≠ "" ∧ Carries header token

inductive BadHeader : Option String → Prop where
  | absent : BadHeader none
  | empty : BadHeader (some "")
  | noScheme (rest : String) : BadHeader (some (String.singleton ' ' ++ rest))
  | otherScheme (scheme rest : String) (hscheme : ' ' ∉ scheme.toList) (hlower : lower scheme ≠ "bearer") :
      BadHeader (some (scheme ++ String.singleton ' ' ++ rest))
  | otherSchemeAlone (scheme : String) (hscheme : ' ' ∉ scheme.toList) (hlower : lower scheme ≠ "bearer") :
      BadHeader (some scheme)
  | emptyToken (scheme : String) (hscheme : ' ' ∉ scheme.toList) (hlower : lower scheme = "bearer") :
      BadHeader (some (scheme ++ String.singleton ' '))
  | noToken (scheme : String) (hscheme : ' ' ∉ scheme.toList) (hlower : lower scheme = "bearer") :
      BadHeader (some scheme)

/-- the token of a header as the extractor reads it -/
def tokenOf : Option String → Option String
  | none => none
  | some header => if lower (partition ' ' header).1 = "bearer" then some (partition ' ' header).2 else none

theorem tokenOf_of_carries {header : Option String} {token : String} (h : Carries header token) :
    tokenOf header = some token := by
  obtain ⟨scheme, hscheme, hlower, rfl⟩ := h
  rw [tokenOf, partition_append hscheme, if_pos hlower]

/-- no token comes out of a malformed header, or an empty one -/
theorem tokenOf_of_badHeader {header : Option String} (h : BadHeader header) :
    tokenOf header = none ∨ tokenOf header = some "" := by
  cases h with
  | absent => exact .inl rfl
  | empty => exact .inl rfl
  | noScheme rest =>
    have hsplit : partition ' ' (String.singleton ' ' ++ rest) = ("", rest) := by
      have hempty := @partition_append ' ' "" (by simp) rest
      rwa [String.empty_append] at hempty
    left
    rw [tokenOf, hsplit]
    rfl
  | otherScheme scheme rest hscheme hlower =>
    left
    rw [tokenOf, partition_append hscheme, if_neg hlower]
  | otherSchemeAlone scheme hscheme hlower =>
    left
    rw [tokenOf, partition_of_not_mem hscheme, if_neg hlower]
  | emptyToken scheme hscheme hlower =>
    right
    have hsplit := partition_append hscheme ""
    rw [String.append_empty] at hsplit
    rw [tokenOf, hsplit, if_pos hlower]
  | noToken scheme hscheme hlower =>
    right
    rw [tokenOf, partition_of_not_mem hscheme, if_pos hlower]

theorem bad_or_bears (header : Option String) : BadHeader header ∨ BearsToken header := by
  cases header with
  | none => exact .inl .absent
  | some header =>
    rcases text_cases ' ' header with ⟨hmem, -⟩ | ⟨scheme, rest, hscheme, rfl, -⟩
    · by_cases hlower : lower header = "bearer"
      · exact .inl (.noToken header hmem hlower)
      · exact .inl (.otherSchemeAlone header hmem hlower)
    · by_cases hlower : lower scheme = "bearer"
      · by_cases hrest : rest = ""
        · subst hrest
          rw [String.append_empty]
          exact .inl (.emptyToken scheme hscheme hlower)
        · exact .inr ⟨rest, hrest, scheme, hscheme, hlower, rfl⟩
      · exact .inl (.otherScheme scheme rest hscheme hlower)

theorem not_bears_of_bad {header : Option String} (h : BadHeader header) : ¬ BearsToken header := by
  intro hbears
  obtain ⟨token, htoken, hcarries⟩ := hbears
  have hread := tokenOf_of_carries hcarries
  rcases tokenOf_of_badHeader h with hnone | hempty
  · rw [hnone] at hread
    cases hread
  · rw [hempty] at hread
    exact htoken (Option.some.inj hread).symm

/-! ## Stages of a request -/

section Stages

/-- the header the extractor reads -/
def HttpTokenExtractor.header (extractor : HttpTokenExtractor) (scope : Scope) : Option String :=
  extractor.headersGet scope.headers "Authorization"

theorem HttpTokenExtractor.extractSafe_eq {extractor : HttpTokenExtractor}
    (hsplits : SplitsAtFirstSpace extractor.getAuthorizationSchemeParam) (scope : Scope) :
    extractor.extractSafe scope = .ok (tokenOf (extractor.header scope)) := by
  rw [extractSafe, extract, header]
  cases extractor.headersGet scope.headers "Authorization" with
  | none => rfl
  | some authHeader =>
    by_cases hempty : authHeader = ""
    · subst hempty
      rfl
    · have hsplit := hsplits.text authHeader
      rw [tokenOf]
      generalize partition ' ' authHeader = parts at hsplit ⊢
      obtain ⟨scheme, token⟩ := parts
      simp only [if_neg hempty, hsplit, ok_bind]
      by_cases hscheme : scheme = ""
      · subst hscheme
        rfl
      · by_cases hlower : lower scheme = "bearer"
        · simp only [hlower, if_neg hscheme]
          rfl
        · simp only [ne_eq, if_pos hlower, if_neg hlower, if_neg hscheme]
          rfl

/-- a request with the token where the enricher puts it -/
def enriched (request : Request) (requestId : String) (token : Option String) : Request :=
  { request with jwtToken := token }.withState
    { request.scope.state.getD {} with requestId := some requestId, jwtToken := token }

theorem enrichFromScope_run {enricher : ProductionContextEnricher} {α : Type} (requestId : String) (body : RequestM α)
    {request : Request} (htype : request.scope.type = "http") {token : Option String}
    (htoken : enricher.httpTokenExtractor.extractSafe request.scope = .ok token) :
    (enricher.enrichFromScope requestId body).run request =
      match body.run (enriched request requestId token) with
      | .ok a request' => .ok a { request' with jwtToken := none }
      | .error e request' => .error e { request' with jwtToken := none } := by
  set prepared := request.withState (request.scope.state.getD {}) with hprepared
  have htype' : prepared.scope.type = "http" := htype
  have htoken' : enricher.httpTokenExtractor.extractSafe prepared.scope = .ok token := htoken
  have hwrite : (modifyScopeState fun state => { state with requestId := some requestId, jwtToken := token }).run
      { prepared with jwtToken := token } = .ok () (enriched request requestId token) := rfl
  rw [ProductionContextEnricher.enrichFromScope, EStateM.run_bind, EStateM.run_modify]
  simp only [← hprepared, EStateM.run_bind, EStateM.run_get, if_pos htype', run_ofExcept, htoken', run_tryFinally]
  rw [EStateM.run_modify]
  simp only [hwrite]
  cases body.run (enriched request requestId token) <;> rfl

theorem authenticationMiddleware_run (manager : JwtAuthenticationManager) {request : Request} (state : ScopeState)
    (htype : request.scope.type = "http") (hpath : request.scope.isExcluded = false) :
    (authenticationMiddleware manager).run (request.withState state) =
      match manager.authenticateJwtToken state.jwtToken with
      | .ok user =>
        let called := request.withState { state with userId := some user.userId }
        .ok (.app called) called
      | .error e => (MonadExcept.ofExcept (refuse e) : RequestM Awaited).run (request.withState state) := by
  have htype' : ¬ (request.withState state).scope.type ∉ ["http", "websocket"] := by
    change ¬ request.scope.type ∉ _
    rw [htype]
    decide
  have hpath' : ¬ (request.withState state).scope.isExcluded = true := by
    change ¬ request.scope.isExcluded = true
    rw [hpath]
    exact Bool.false_ne_true
  simp only [authenticationMiddleware, authenticateRequest, EStateM.run_bind, EStateM.run_get, if_neg htype',
    if_neg hpath', run_tryCatch, scopeState_run, run_ofExcept]
  cases manager.authenticateJwtToken state.jwtToken with
  | ok user => rfl
  | error e =>
    cases hrefuse : refuse e with
    | ok response =>
      simp only [hrefuse]
      rfl
    | error e' =>
      simp only [hrefuse]
      rfl

/-- `call` ends by awaiting `awaited` -/
def Awaits (call : RequestM Awaited) (request : Request) (awaited : Awaited) : Prop :=
  ∃ request', call.run request = .ok awaited request'

/-- the request as the application finds it -/
def authenticated (request : Request) (requestId : String) (token : Option String) (user : AuthenticatedUser) :
    Request :=
  { request with jwtToken := token }.withState
    { request.scope.state.getD {} with requestId := some requestId, jwtToken := token, userId := some user.userId }

/-- what the manager's answer comes to -/
def verdict (request : Request) (requestId : String) (token : Option String) :
    Except RequestError AuthenticatedUser → Except RequestError Awaited
  | .ok user => .ok (.app (authenticated request requestId token user))
  | .error e => refuse e

variable {enricher : ProductionContextEnricher} {manager : JwtAuthenticationManager} {requestId : String}
  {request : Request} (htype : request.scope.type = "http") (hpath : request.scope.isExcluded = false)
include htype hpath

variable (manager requestId) in
theorem serve_run {token : Option String} (htoken : enricher.httpTokenExtractor.extractSafe request.scope = .ok token) :
    ∃ request', (serve enricher manager requestId).run request =
      match verdict request requestId token (manager.authenticateJwtToken token) with
      | .ok awaited => .ok awaited request'
      | .error e => .error e request' := by
  have htype' : ¬ request.scope.type ∉ ["http", "websocket"] := by
    rw [htype]
    decide
  have hrun := @authenticationMiddleware_run manager { request with jwtToken := token }
    { request.scope.state.getD {} with requestId := some requestId, jwtToken := token } htype hpath
  rw [serve, executionContextMiddleware]
  simp only [EStateM.run_bind, EStateM.run_get, if_neg htype', enrichFromScope_run requestId _ htype htoken, enriched,
    hrun]
  cases manager.authenticateJwtToken token with
  | ok user => exact ⟨_, rfl⟩
  | error e =>
    cases hrefuse : refuse e with
    | ok response =>
      simp only [run_ofExcept, hrefuse, verdict]
      exact ⟨_, rfl⟩
    | error e' =>
      simp only [run_ofExcept, hrefuse, verdict]
      exact ⟨_, rfl⟩

/-- what a request comes to is what the manager's answer to its token comes to -/
theorem serve_awaits_iff {token : Option String}
    (htoken : enricher.httpTokenExtractor.extractSafe request.scope = .ok token) (awaited : Awaited) :
    Awaits (serve enricher manager requestId) request awaited ↔
      verdict request requestId token (manager.authenticateJwtToken token) = .ok awaited := by
  obtain ⟨request', hrun⟩ := serve_run manager requestId htype hpath htoken
  rw [Awaits, hrun]
  cases verdict request requestId token (manager.authenticateJwtToken token) with
  | ok answer =>
    constructor
    · intro ⟨request'', hanswer⟩
      cases hanswer
      rfl
    · intro hanswer
      cases hanswer
      exact ⟨request', rfl⟩
  | error e =>
    constructor
    · intro ⟨request'', hanswer⟩
      cases hanswer
    · intro hanswer
      cases hanswer

end Stages

/-! ## Answers -/

/-- the header is malformed, or the identity provider is asked and rejects the token -/
def Rejected (manager : JwtAuthenticationManager) (header : Option String) : Prop :=
  BadHeader header ∨ ∃ token oidcConfig message, Carries header token ∧
    manager.openidConfigurationProvider = .ok oidcConfig ∧
    manager.tokenValidationClient token ["fill-in"] oidcConfig.openidDiscoveryUrl =
      .error (.authenticationError message)

/-- only authenticated requests reach the application, and rejected credentials are answered with 401 -/
structure CredentialsChecked (enricher : ProductionContextEnricher) (manager : JwtAuthenticationManager)
    (requestId : String) (request : Request) : Prop where
  appExactly : (∃ called, Awaits (serve enricher manager requestId) request (.app called)) ↔
    ∃ token user, enricher.httpTokenExtractor.extractSafe request.scope = .ok token ∧
      manager.authenticateJwtToken token = .ok user
  unauthorized : Rejected manager (enricher.httpTokenExtractor.header request.scope) →
    ∃ detail, Awaits (serve enricher manager requestId) request (.response 401 detail)

theorem authenticateJwtToken_missing (manager : JwtAuthenticationManager) {token : Option String}
    (h : token = none ∨ token = some "") :
    manager.authenticateJwtToken token = .error (.permissionError "Missing token") := by
  rcases h with rfl | rfl <;> rfl

theorem authenticateJwtToken_rejected {manager : JwtAuthenticationManager} {token message : String}
    {oidcConfig : OpenIdConfiguration} (htoken : token ≠ "")
    (hconfig : manager.openidConfigurationProvider = .ok oidcConfig)
    (hclient : manager.tokenValidationClient token ["fill-in"] oidcConfig.openidDiscoveryUrl =
      .error (.authenticationError message)) :
    manager.authenticateJwtToken (some token) = .error (.authenticationError message) := by
  simp only [JwtAuthenticationManager.authenticateJwtToken, if_neg htoken, hconfig, hclient, ok_bind, error_bind]

theorem refuse_ne_app (e : RequestError) (called : Request) : refuse e ≠ .ok (.app called) := by
  cases e <;> simp [refuse]

theorem Awaits.unique {call : RequestM Awaited} {request : Request} {a b : Awaited} (ha : Awaits call request a)
    (hb : Awaits call request b) : a = b := by
  obtain ⟨request₁, ha⟩ := ha
  obtain ⟨request₂, hb⟩ := hb
  cases ha.symm.trans hb
  rfl

section Answers

variable {enricher : ProductionContextEnricher} {manager : JwtAuthenticationManager} {requestId : String}
  {request : Request} (hsplits : SplitsAtFirstSpace enricher.httpTokenExtractor.getAuthorizationSchemeParam)
  (htype : request.scope.type = "http") (hpath : request.scope.isExcluded = false)
include hsplits htype hpath

/-- a malformed header is taken for a failure of the service -/
theorem serve_of_badHeader (hbad : BadHeader (enricher.httpTokenExtractor.header request.scope)) :
    Awaits (serve enricher manager requestId) request (.response 500 "Unexpected error during authentication") := by
  have htoken := enricher.httpTokenExtractor.extractSafe_eq hsplits request.scope
  rw [serve_awaits_iff htype hpath htoken, authenticateJwtToken_missing manager (tokenOf_of_badHeader hbad)]
  rfl

/-- a rejected token is not -/
theorem serve_of_rejected_token {token message : String} {oidcConfig : OpenIdConfiguration} (hne : token ≠ "")
    (hcarries : Carries (enricher.httpTokenExtractor.header request.scope) token)
    (hconfig : manager.openidConfigurationProvider = .ok oidcConfig)
    (hclient : manager.tokenValidationClient token ["fill-in"] oidcConfig.openidDiscoveryUrl =
      .error (.authenticationError message)) :
    Awaits (serve enricher manager requestId) request (.response 401 "Authentication failed") := by
  have htoken := enricher.httpTokenExtractor.extractSafe_eq hsplits request.scope
  rw [tokenOf_of_carries hcarries] at htoken
  rw [serve_awaits_iff htype hpath htoken, authenticateJwtToken_rejected hne hconfig hclient]
  rfl

/-- the application is called exactly for the users the manager answers -/
theorem serve_app_iff :
    (∃ called, Awaits (serve enricher manager requestId) request (.app called)) ↔
      ∃ token user, enricher.httpTokenExtractor.extractSafe request.scope = .ok token ∧
        manager.authenticateJwtToken token = .ok user := by
  have htoken := enricher.httpTokenExtractor.extractSafe_eq hsplits request.scope
  constructor
  · intro ⟨called, hcalled⟩
    have hverdict := (serve_awaits_iff htype hpath htoken _).1 hcalled
    cases huser : manager.authenticateJwtToken (tokenOf (enricher.httpTokenExtractor.header request.scope)) with
    | ok user => exact ⟨_, user, htoken, huser⟩
    | error e =>
      rw [huser] at hverdict
      exact absurd hverdict (refuse_ne_app e called)
  · intro ⟨token, user, htoken', huser⟩
    refine ⟨authenticated request requestId token user, (serve_awaits_iff htype hpath htoken' _).2 ?_⟩
    rw [huser]
    rfl

/-- A request is answered as documented exactly when its `Authorization` header bears a token. -/
theorem credentialsChecked_iff :
    CredentialsChecked enricher manager requestId request ↔
      BearsToken (enricher.httpTokenExtractor.header request.scope) := by
  constructor
  · intro hchecked
    refine (bad_or_bears _).resolve_left fun hbad => ?_
    obtain ⟨detail, hunauthorized⟩ := hchecked.unauthorized (.inl hbad)
    have hanswer := (serve_of_badHeader hsplits htype hpath hbad).unique hunauthorized
    simp at hanswer
  · intro hbears
    refine ⟨serve_app_iff hsplits htype hpath, ?_⟩
    intro hrejected
    rcases hrejected with hbad | ⟨token, oidcConfig, message, hcarries, hconfig, hclient⟩
    · exact absurd hbears (not_bears_of_bad hbad)
    · refine ⟨_, serve_of_rejected_token hsplits htype hpath ?_ hcarries hconfig hclient⟩
      rintro rfl
      obtain ⟨token', hne, hcarries'⟩ := hbears
      have hsame := (tokenOf_of_carries hcarries).symm.trans (tokenOf_of_carries hcarries')
      exact hne (Option.some.inj hsame).symm

end Answers

/-! ## A request with a token and one without a header -/

def demoEnricher : ProductionContextEnricher where
  httpTokenExtractor := ⟨starletteHeadersGet, fastapiSchemeParam⟩
  websocketTokenExtractor := ⟨fun _ => .error .jsonDecodeError, fastapiSchemeParam⟩

/-- one token is accepted -/
def demoManager : JwtAuthenticationManager where
  tokenValidationClient token _ _ :=
    if token = "abc" then .ok [("sub", .str "user-1")] else .error (.authenticationError "Token validation failed")
  openidConfigurationProvider := .ok ⟨"agents", "realms/agents"⟩

def asciiBytes (text : String) : List UInt8 := text.toList.map fun c => UInt8.ofNat c.toNat

def demoRequest (headers : Headers) : Request where
  scope := { type := "http", path := some "/runs", headers := headers }

/-- `Authorization: Bearer abc` -/
theorem credentialsChecked_bearer :
    CredentialsChecked demoEnricher demoManager "c0ffee"
      (demoRequest [(asciiBytes "authorization", asciiBytes "Bearer abc")]) := by
  refine (credentialsChecked_iff fastapiSchemeParam_splits rfl (by decide +kernel)).2 ⟨"abc", by decide, "Bearer", ?_⟩
  decide +kernel

/-- no header: the response is 500 -/
theorem missing_header_unchecked :
    Awaits (serve demoEnricher demoManager "c0ffee") (demoRequest [])
        (.response 500 "Unexpected error during authentication") ∧
      ¬ CredentialsChecked demoEnricher demoManager "c0ffee" (demoRequest []) := by
  have hanswer : Awaits (serve demoEnricher demoManager "c0ffee") (demoRequest []) _ :=
    serve_of_badHeader fastapiSchemeParam_splits rfl (by decide +kernel) .absent
  refine ⟨hanswer, fun hchecked => ?_⟩
  obtain ⟨detail, hunauthorized⟩ := hchecked.unauthorized (.inl .absent)
  simpa using hanswer.unique hunauthorized

end LlmAgent
