/-
The application as its clients meet it (`app.py`): the middlewares of `register_middlewares` in front of the routers of
`create_app`, and the workers beside it.

A connection is one step, taken when its middlewares are done: until then it has touched no run. What FastAPI makes of a
connection that the middlewares let through is given; `MountsRouters` says what is relied on.

- `gateway`: connections of any clients and steps of any workers, in any order;
- `connect_eq`: what a connection comes to, by its type, its path and the manager's answer to its token;
- `admitted`: the request of a connection that bears an accepted token and is routed to an agent route;
- `only_authenticated`: the gateway is the service fed with the admitted requests alone, and what any other connection
  is answered depends on nothing the service holds;
- `no_route_exempt`: no router is reached without an accepted token, by a path the middleware excludes or otherwise.
-/
import LlmAgent.Api.AgentRoutes
import LlmAgent.Requests.Credentials

namespace LlmAgent

open Core

/-! ## Routers -/

/-- the routers of `create_app` -/
inductive Router where
  | health
  | throttle
  | agent
deriving DecidableEq, Repr

/-- the prefix the router is included under -/
def Router.mount : Router → String
  | .health => "/api/v1/health"
  | .throttle => "/api/v1/throttle"
  | .agent => "/api/v1/agent"

/-- what FastAPI makes of a connection -/
inductive Dispatch where
  /-- an agent route, its parameters parsed -/
  | agent (agentRequest : AgentRequest)
  /-- a route of another router, which neither reads nor writes a run, and its answer -/
  | route (router : Router) (response : Response)
  /-- a page of FastAPI's own, no route, or parameters that do not parse -/
  | unrouted (response : Response)

def Dispatch.router : Dispatch → Option Router
  | .agent _ => some .agent
  | .route router _ => some router
  | .unrouted _ => none

/-- what a connection brings beside its scope -/
structure ConnectionInput where
  method : String
  queryString : List UInt8
  body : List UInt8

abbrev FastApi := Scope → ConnectionInput → Dispatch

/-- the routes of an included router are HTTP routes below its prefix, and neither the routing nor the parameters of a
route read what the middlewares write to `scope["state"]` -/
structure MountsRouters (app : FastApi) : Prop where
  below : ∀ {scope input router}, (app scope input).router = some router →
    scope.type = "http" ∧ ∃ rest, scope.path = some (router.mount ++ rest)
  stateless : ∀ (scope : Scope) (state : Option ScopeState) input, app { scope with state } input = app scope input

/-! ## The gateway -/

structure Connection where
  scope : Scope
  input : ConnectionInput
  /-- the manager, with the answers it gets while the connection is served -/
  manager : JwtAuthenticationManager
  requestId : String
  /-- the id drawn if the connection creates a run -/
  uuid4 : UUID
  now : UnixTs

inductive GatewayOp where
  | connect (connection : Connection)
  | worker (op : WorkerOp)

/-- the answer to an exception that leaves the middlewares: HTTP requests are answered, unless the class is not derived
from `Exception` -/
def unhandled (scope : Scope) : RequestError → Option Response
  | .interrupt _ => none
  | _ => if scope.type = "http" then some ⟨500, .text "Internal Server Error"⟩ else none

/-- what the routers answer -/
def Dispatch.exec (dispatch : Dispatch) (connection : Connection) (s : Sys) : Option Response × Sys :=
  match dispatch with
  | .agent agentRequest => ServiceOp.exec s (.request agentRequest connection.uuid4 connection.now)
  | .route _ response => (some response, s)
  | .unrouted response => (some response, s)

def Connection.exec (app : FastApi) (enricher : ProductionContextEnricher) (connection : Connection) (s : Sys) :
    Option Response × Sys :=
  match (serve enricher connection.manager connection.requestId).run { scope := connection.scope } with
  | .ok (.app request) _ => (app request.scope connection.input).exec connection s
  | .ok (.response statusCode detail) _ => (some ⟨statusCode, .detail detail⟩, s)
  | .error e _ => (unhandled connection.scope e, s)

def GatewayOp.exec (app : FastApi) (enricher : ProductionContextEnricher) (s : Sys) :
    GatewayOp → Option Response × Sys
  | .connect connection => connection.exec app enricher s
  | .worker op => ServiceOp.exec s (.worker op)

/-- **The gateway**: connections and worker steps in any order. -/
def gateway (app : FastApi) (enricher : ProductionContextEnricher) : Machine Sys GatewayOp (Option Response) :=
  ⟨GatewayOp.exec app enricher⟩

/-! ## Who gets in -/

/-- the user the manager answers for the token of the `Authorization` header -/
def Connection.user? (enricher : ProductionContextEnricher) (connection : Connection) : Option AuthenticatedUser :=
  (connection.manager.authenticateJwtToken (tokenOf (enricher.httpTokenExtractor.header connection.scope))).toOption

/-- what is left of a gateway's step when everything but agent requests with an accepted token is dropped -/
def admitted (app : FastApi) (enricher : ProductionContextEnricher) : GatewayOp → Option ServiceOp
  | .worker op => some (.worker op)
  | .connect connection =>
    match connection.user? enricher, app connection.scope connection.input with
    | some _, .agent agentRequest => some (.request agentRequest connection.uuid4 connection.now)
    | _, _ => none

/-! ## What a connection comes to -/

section Connect

variable {app : FastApi} {enricher : ProductionContextEnricher} {connection : Connection} {s : Sys}

/-- the middleware's answer to a manager's exception -/
def refusal : RequestError → Option Response
  | .authenticationError _ => some ⟨401, .detail "Authentication failed"⟩
  | .interrupt _ => none
  | _ => some ⟨500, .detail "Unexpected error during authentication"⟩

/-- no mounted path is excluded -/
theorem not_excluded_of_below {scope : Scope} {router : Router} {rest : String}
    (hpath : scope.path = some (router.mount ++ rest)) : scope.isExcluded = false := by
  unfold Scope.isExcluded
  rw [hpath, Option.getD_some, String.toList_append]
  cases router <;> rfl

/-- the authentication middleware does not look at the token -/
def Scope.Passed (scope : Scope) : Prop := scope.type ∉ ["http", "websocket"] ∨ scope.isExcluded = true

theorem scope_cases (scope : Scope) : scope.Passed ∨ (scope.type = "http" ∧ scope.isExcluded = false) ∨
    (scope.type = "websocket" ∧ scope.isExcluded = false) := by
  by_cases htype : scope.type ∈ ["http", "websocket"]
  · cases hpath : scope.isExcluded with
    | true => exact Or.inl (Or.inr hpath)
    | false => exact Or.inr ((List.mem_pair.1 htype).imp (fun h => ⟨h, rfl⟩) fun h => ⟨h, rfl⟩)
  · exact Or.inl (Or.inl htype)

theorem not_passed_of_below {scope : Scope} {router : Router} {rest : String} (htype : scope.type = "http")
    (hpath : scope.path = some (router.mount ++ rest)) : ¬ scope.Passed := by
  intro h
  rcases h with hbad | hbad
  · rw [htype] at hbad
    exact hbad (by decide)
  · rw [not_excluded_of_below hpath] at hbad
    cases hbad

theorem authenticationMiddleware_passed (manager : JwtAuthenticationManager) {request : Request}
    (h : request.scope.Passed) :
    (authenticationMiddleware manager).run request = .ok (.app request) request := by
  unfold authenticationMiddleware
  rw [EStateM.run_bind, EStateM.run_get]
  by_cases htype : request.scope.type ∉ ["http", "websocket"]
  · simp only [if_pos htype]
    rfl
  · have hexcluded := h.resolve_left htype
    simp only [if_neg htype, if_pos hexcluded]
    rfl

/-- no token is drawn from the scope of a WebSocket -/
theorem enrichFromScope_websocket {α : Type} (requestId : String) (body : RequestM α) {request : Request}
    (htype : request.scope.type = "websocket") : (enricher.enrichFromScope requestId body).run request =
      match body.run (enriched request requestId none) with
      | .ok a request' => .ok a { request' with jwtToken := none }
      | .error e request' => .error e { request' with jwtToken := none } := by
  set prepared := request.withState (request.scope.state.getD {}) with hprepared
  have htype' : ¬ prepared.scope.type = "http" := by
    change ¬ request.scope.type = "http"
    rw [htype]
    decide
  have hwrite : (modifyScopeState fun state => { state with requestId := some requestId, jwtToken := none }).run
      { prepared with jwtToken := none } = .ok () (enriched request requestId none) := rfl
  rw [ProductionContextEnricher.enrichFromScope, EStateM.run_bind, EStateM.run_modify]
  simp only [← hprepared, EStateM.run_bind, EStateM.run_get, if_neg htype', EStateM.run_pure, run_tryFinally]
  rw [EStateM.run_modify]
  simp only [hwrite]
  cases body.run (enriched request requestId none) <;> rfl

/-- no token was read, so the manager raises -/
theorem authenticationMiddleware_websocket (manager : JwtAuthenticationManager) {request : Request} (state : ScopeState)
    (htoken : state.jwtToken = none) (htype : request.scope.type = "websocket")
    (hpath : request.scope.isExcluded = false) :
    (authenticationMiddleware manager).run (request.withState state) =
      .ok (.response 500 "Unexpected error during authentication") (request.withState state) := by
  have htype' : ¬ (request.withState state).scope.type ∉ ["http", "websocket"] := by
    change ¬ request.scope.type ∉ _
    rw [htype]
    decide
  have hpath' : ¬ (request.withState state).scope.isExcluded = true := by
    change ¬ request.scope.isExcluded = true
    rw [hpath]
    exact Bool.false_ne_true
  simp only [authenticationMiddleware, authenticateRequest, EStateM.run_bind, EStateM.run_get, if_neg htype',
    if_neg hpath', run_tryCatch, scopeState_run, run_ofExcept, htoken]
  rfl

variable (enricher) in
/-- **WebSockets are refused**: their token would come with a message, and none is read before the middleware asks. -/
theorem serve_websocket (manager : JwtAuthenticationManager) (requestId : String) {scope : Scope}
    (htype : scope.type = "websocket") (hpath : scope.isExcluded = false) :
    Awaits (serve enricher manager requestId) { scope := scope }
      (.response 500 "Unexpected error during authentication") := by
  have htype' : ¬ scope.type ∉ ["http", "websocket"] := by
    rw [htype]
    decide
  have hrefused := @authenticationMiddleware_websocket manager { scope := scope, jwtToken := none }
    { scope.state.getD {} with requestId := some requestId, jwtToken := none } rfl htype hpath
  unfold Awaits serve executionContextMiddleware
  rw [EStateM.run_bind, EStateM.run_get]
  simp only [if_neg htype']
  rw [enrichFromScope_websocket requestId _ htype]
  unfold enriched
  rw [hrefused]
  exact ⟨_, rfl⟩

variable (hsplits : SplitsAtFirstSpace enricher.httpTokenExtractor.getAuthorizationSchemeParam)
include hsplits

/-- what the middlewares let through, and with which scope -/
theorem serve_passed (manager : JwtAuthenticationManager) (requestId : String) {scope : Scope} (h : scope.Passed) :
    ∃ called request' state, (serve enricher manager requestId).run { scope := scope } = .ok (.app called) request' ∧
      called.scope = { scope with state := state } := by
  unfold serve executionContextMiddleware
  rw [EStateM.run_bind, EStateM.run_get]
  by_cases htype : scope.type ∉ ["http", "websocket"]
  · refine ⟨{ scope := scope }, { scope := scope }, scope.state, ?_, rfl⟩
    simp only [if_pos htype]
    exact authenticationMiddleware_passed manager (Or.inl htype)
  · have hexcluded := h.resolve_left htype
    simp only [if_neg htype]
    have hpassed := fun token => @authenticationMiddleware_passed manager
      (enriched { scope := scope } requestId token) (Or.inr hexcluded)
    rcases List.mem_pair.1 (not_not.1 htype) with hhttp | hwebsocket
    · rw [enrichFromScope_run requestId _ hhttp (enricher.httpTokenExtractor.extractSafe_eq hsplits scope), hpassed]
      exact ⟨_, _, _, rfl, rfl⟩
    · rw [enrichFromScope_websocket requestId _ hwebsocket, hpassed]
      exact ⟨_, _, _, rfl, rfl⟩

/-- **What an HTTP connection comes to** on a path that is not excluded -/
theorem connect_http (app : FastApi) (hmounts : MountsRouters app) (htype : connection.scope.type = "http")
    (hpath : connection.scope.isExcluded = false) (s : Sys) : connection.exec app enricher s =
      match connection.manager.authenticateJwtToken
          (tokenOf (enricher.httpTokenExtractor.header connection.scope)) with
      | .ok _ => (app connection.scope connection.input).exec connection s
      | .error e => (refusal e, s) := by
  have htoken := enricher.httpTokenExtractor.extractSafe_eq hsplits connection.scope
  obtain ⟨request', hrun⟩ := @serve_run enricher connection.manager connection.requestId { scope := connection.scope }
    htype hpath _ htoken
  unfold Connection.exec
  rw [hrun]
  cases connection.manager.authenticateJwtToken (tokenOf (enricher.httpTokenExtractor.header connection.scope)) with
  | ok user =>
    change (app (authenticated { scope := connection.scope } _ _ user).scope connection.input).exec connection s = _
    have hsame := hmounts.stateless connection.scope
      (authenticated { scope := connection.scope } connection.requestId
        (tokenOf (enricher.httpTokenExtractor.header connection.scope)) user).scope.state connection.input
    exact congrArg (fun dispatch => Dispatch.exec dispatch connection s) hsame
  | error e => cases e <;> rfl

/-- what the middlewares let through goes to FastAPI -/
theorem connect_passed (app : FastApi) (hmounts : MountsRouters app) (h : connection.scope.Passed) (s : Sys) :
    connection.exec app enricher s = (app connection.scope connection.input).exec connection s := by
  obtain ⟨called, request', state, hrun, hscope⟩ := serve_passed hsplits connection.manager connection.requestId h
  unfold Connection.exec
  rw [hrun]
  change (app called.scope connection.input).exec connection s = _
  rw [hscope, hmounts.stateless]

omit hsplits in
theorem connect_websocket (app : FastApi) (htype : connection.scope.type = "websocket")
    (hpath : connection.scope.isExcluded = false) (s : Sys) : connection.exec app enricher s =
      (some ⟨500, .detail "Unexpected error during authentication"⟩, s) := by
  obtain ⟨request', hrun⟩ := serve_websocket enricher connection.manager connection.requestId htype hpath
  unfold Connection.exec
  rw [hrun]

omit hsplits in
/-- who gets in, without the token's way through the extractor -/
theorem admitted_connect_iff {k : ServiceOp} : admitted app enricher (.connect connection) = some k ↔
    ∃ user agentRequest, connection.manager.authenticateJwtToken
        (tokenOf (enricher.httpTokenExtractor.header connection.scope)) = .ok user ∧
      app connection.scope connection.input = .agent agentRequest ∧
      k = .request agentRequest connection.uuid4 connection.now := by
  simp only [admitted, Connection.user?]
  generalize connection.manager.authenticateJwtToken (tokenOf (enricher.httpTokenExtractor.header connection.scope)) =
    identity
  generalize app connection.scope connection.input = dispatch
  constructor
  · intro h
    cases identity with
    | error e => cases h
    | ok user =>
      cases dispatch with
      | agent agentRequest =>
        cases h
        exact ⟨user, agentRequest, rfl, rfl, rfl⟩
      | _ => cases h
  · rintro ⟨user, agentRequest, rfl, rfl, rfl⟩
    rfl

/-- **An admitted request is served as such.** -/
theorem exec_admitted (hmounts : MountsRouters app) {op : GatewayOp} {k : ServiceOp}
    (h : admitted app enricher op = some k) (s : Sys) : op.exec app enricher s = ServiceOp.exec s k := by
  cases op with
  | worker op =>
    cases h
    rfl
  | connect connection =>
    obtain ⟨user, agentRequest, huser, hdispatch, rfl⟩ := admitted_connect_iff.1 h
    obtain ⟨htype, rest, hpath⟩ := hmounts.below (congrArg Dispatch.router hdispatch)
    change connection.exec app enricher s = _
    rw [connect_http hsplits app hmounts htype (not_excluded_of_below hpath), huser, hdispatch]
    rfl

/-- **Anything else** changes nothing, and its answer does not depend on the state. -/
theorem exec_dropped (hmounts : MountsRouters app) {op : GatewayOp} (h : admitted app enricher op = none) :
    ∃ response, ∀ s, op.exec app enricher s = (response, s) := by
  cases op with
  | worker op => cases h
  | connect connection =>
    change ∃ response, ∀ s, connection.exec app enricher s = (response, s)
    -- an agent route is not reached
    have hother : (∀ agentRequest, app connection.scope connection.input ≠ .agent agentRequest) →
        ∃ response, ∀ s, (app connection.scope connection.input).exec connection s = (response, s) := by
      intro hno
      cases hdispatch : app connection.scope connection.input with
      | agent agentRequest => exact absurd hdispatch (hno agentRequest)
      | route router response => exact ⟨some response, fun _ => rfl⟩
      | unrouted response => exact ⟨some response, fun _ => rfl⟩
    rcases scope_cases connection.scope with hpassed | ⟨hhttp, hpath⟩ | ⟨hwebsocket, hpath⟩
    · obtain ⟨response, hresponse⟩ := hother fun agentRequest hdispatch => by
        obtain ⟨htype, rest, hbelow⟩ := hmounts.below (congrArg Dispatch.router hdispatch)
        exact not_passed_of_below htype hbelow hpassed
      exact ⟨response, fun s => (connect_passed hsplits app hmounts hpassed s).trans (hresponse s)⟩
    · cases huser : connection.manager.authenticateJwtToken
          (tokenOf (enricher.httpTokenExtractor.header connection.scope)) with
      | error e =>
        refine ⟨refusal e, fun s => ?_⟩
        rw [connect_http hsplits app hmounts hhttp hpath, huser]
      | ok user =>
        obtain ⟨response, hresponse⟩ := hother fun agentRequest hdispatch => by
          have hadmitted := admitted_connect_iff.2 ⟨user, agentRequest, huser, hdispatch, rfl⟩
          rw [h] at hadmitted
          cases hadmitted
        refine ⟨response, fun s => ?_⟩
        rw [connect_http hsplits app hmounts hhttp hpath, huser]
        exact hresponse s
    · exact ⟨_, fun s => connect_websocket app hwebsocket hpath s⟩

omit hsplits in
/-- the manager answers a user for no token but that of a header that bears one -/
theorem accepted_bears {manager : JwtAuthenticationManager} {header : Option String} {user : AuthenticatedUser}
    (h : manager.authenticateJwtToken (tokenOf header) = .ok user) :
    ∃ token, token ≠ "" ∧ Carries header token ∧ manager.authenticateJwtToken (some token) = .ok user := by
  rcases bad_or_bears header with hbad | ⟨token, hne, hcarries⟩
  · rw [authenticateJwtToken_missing manager (tokenOf_of_badHeader hbad)] at h
    cases h
  · rw [tokenOf_of_carries hcarries] at h
    exact ⟨token, hne, hcarries, h⟩

/-- **Only authenticated clients reach the runs.** After any connections and worker steps the state is the one that the
service reaches on the admitted requests alone; an admitted request bears an accepted token and is answered as the
service answers it; and what any other connection is answered is the same in every state. -/
theorem only_authenticated (hmounts : MountsRouters app) (ops : List GatewayOp) (connection : Connection) :
    let s := (gateway app enricher).run Sys.init ops
    s = service.run Sys.init (ops.filterMap (admitted app enricher)) ∧
    (∀ k, admitted app enricher (.connect connection) = some k →
      (gateway app enricher).reply s (.connect connection) = service.reply s k ∧
      ∃ token user, token ≠ "" ∧ Carries (enricher.httpTokenExtractor.header connection.scope) token ∧
        connection.manager.authenticateJwtToken (some token) = .ok user) ∧
    (admitted app enricher (.connect connection) = none → ∀ ops', (gateway app enricher).reply s (.connect connection) =
      (gateway app enricher).reply ((gateway app enricher).run Sys.init ops') (.connect connection)) := by
  intro s
  refine ⟨?_, ?_, ?_⟩
  · apply Machine.run_filterMap
    · intro s op k h
      exact congrArg Prod.snd (exec_admitted hsplits hmounts h s)
    · intro s op h
      obtain ⟨response, hresponse⟩ := exec_dropped hsplits hmounts h
      exact congrArg Prod.snd (hresponse s)
  · intro k h
    refine ⟨congrArg Prod.fst (exec_admitted hsplits hmounts h s), ?_⟩
    obtain ⟨user, agentRequest, huser, -, -⟩ := admitted_connect_iff.1 h
    obtain ⟨token, hne, hcarries, htoken⟩ := accepted_bears huser
    exact ⟨token, user, hne, hcarries, htoken⟩
  · intro h ops'
    obtain ⟨response, hresponse⟩ := exec_dropped hsplits hmounts h
    calc (gateway app enricher).reply s (.connect connection) = response := congrArg Prod.fst (hresponse s)
      _ = (gateway app enricher).reply _ (.connect connection) := (congrArg Prod.fst (hresponse _)).symm

/-- **No route is exempt.** A connection that the middlewares hand to FastAPI and that FastAPI routes, to the health
router or another, bears a token that the manager accepts, and the application finds it with that token and the user
the manager answered; and of the WebSockets only those on an excluded path are handed over at all. -/
theorem no_route_exempt (hmounts : MountsRouters app) (connection : Connection) (called : Request)
    (hcalled : Awaits (serve enricher connection.manager connection.requestId) { scope := connection.scope }
      (.app called)) :
    (∀ router, (app called.scope connection.input).router = some router → ∃ token user, token ≠ "" ∧
      Carries (enricher.httpTokenExtractor.header connection.scope) token ∧
      connection.manager.authenticateJwtToken (some token) = .ok user ∧
      called = authenticated { scope := connection.scope } connection.requestId (some token) user) ∧
    (connection.scope.type = "websocket" → connection.scope.isExcluded = true) := by
  constructor
  · intro router hrouter
    rcases scope_cases connection.scope with hpassed | ⟨hhttp, hpath⟩ | ⟨hwebsocket, hpath⟩
    · obtain ⟨called', request', state, hrun, hscope⟩ :=
        serve_passed hsplits connection.manager connection.requestId hpassed
      have hsame : called = called' := by
        cases hcalled.unique ⟨request', hrun⟩
        rfl
      rw [hsame, hscope, hmounts.stateless] at hrouter
      obtain ⟨htype, rest, hbelow⟩ := hmounts.below hrouter
      exact absurd hpassed (not_passed_of_below htype hbelow)
    · have htoken := enricher.httpTokenExtractor.extractSafe_eq hsplits connection.scope
      have hverdict := (@serve_awaits_iff enricher connection.manager connection.requestId
        { scope := connection.scope } hhttp hpath _ htoken _).1 hcalled
      cases huser : connection.manager.authenticateJwtToken
          (tokenOf (enricher.httpTokenExtractor.header connection.scope)) with
      | error e =>
        rw [huser] at hverdict
        exact absurd hverdict (refuse_ne_app e called)
      | ok user =>
        obtain ⟨token, hne, hcarries, haccepted⟩ := accepted_bears huser
        rw [tokenOf_of_carries hcarries, haccepted] at hverdict
        cases hverdict
        exact ⟨token, user, hne, hcarries, haccepted, rfl⟩
    · cases hcalled.unique (serve_websocket enricher connection.manager connection.requestId hwebsocket hpath)
  · intro hwebsocket
    by_contra hpath
    rw [Bool.not_eq_true] at hpath
    cases hcalled.unique (serve_websocket enricher connection.manager connection.requestId hwebsocket hpath)

end Connect

/-! ## A client without a token and one with it -/

/-- two routes and the 404 of every other path -/
def demoApp : FastApi := fun scope input =>
  if scope.type = "http" ∧ input.method = "POST" ∧ scope.path = some "/api/v1/agent/runs" then
    .agent (.createAgentRun ⟨"go", []⟩)
  else if scope.type = "http" ∧ input.method = "GET" ∧ scope.path = some "/api/v1/health/dummy-health" then
    .route .health ⟨200, .text "\x7b\"status\":\"ok\"\x7d"⟩
  else
    .unrouted ⟨404, .detail "Not Found"⟩

theorem demoApp_mounts : MountsRouters demoApp where
  below := by
    intro scope input router h
    unfold demoApp at h
    split_ifs at h with hagent hhealth
    · cases h
      exact ⟨hagent.1, "/runs", hagent.2.2⟩
    · cases h
      exact ⟨hhealth.1, "/dummy-health", hhealth.2.2⟩
    · cases h
  stateless _ _ _ := rfl

def demoConnection (method path : String) (headers : Headers) : Connection where
  scope := { type := "http", path := some path, headers := headers }
  input := ⟨method, [], []⟩
  manager := demoManager
  requestId := "c0ffee"
  uuid4 := 1
  now := seconds 0

def bearerAbc : Headers := [(asciiBytes "authorization", asciiBytes "Bearer abc")]

theorem demoConnection_accepted (method path : String) :
    (demoConnection method path bearerAbc).manager.authenticateJwtToken
      (tokenOf (demoEnricher.httpTokenExtractor.header (demoConnection method path bearerAbc).scope)) =
        .ok ⟨.str "user-1", .str "user-1", .none, [], []⟩ := by
  have hcarries : Carries (starletteHeadersGet bearerAbc "Authorization") "abc" :=
    ⟨"Bearer", by decide +kernel, by decide +kernel, by decide +kernel⟩
  change demoManager.authenticateJwtToken (tokenOf (starletteHeadersGet bearerAbc "Authorization")) = _
  rw [tokenOf_of_carries hcarries]
  rfl

theorem demoEnricher_splits : SplitsAtFirstSpace demoEnricher.httpTokenExtractor.getAuthorizationSchemeParam :=
  fastapiSchemeParam_splits

/-- the first request carries no token, the second one does -/
theorem only_authenticated_demo :
    (gateway demoApp demoEnricher).run Sys.init
        [.connect (demoConnection "POST" "/api/v1/agent/runs" []),
          .connect (demoConnection "POST" "/api/v1/agent/runs" bearerAbc)] =
      service.run Sys.init [.request (.createAgentRun ⟨"go", []⟩) 1 (seconds 0)] := by
  have hdropped : admitted demoApp demoEnricher (.connect (demoConnection "POST" "/api/v1/agent/runs" [])) = none :=
    rfl
  have hadmitted : admitted demoApp demoEnricher (.connect (demoConnection "POST" "/api/v1/agent/runs" bearerAbc)) =
      some (.request (.createAgentRun ⟨"go", []⟩) 1 (seconds 0)) :=
    admitted_connect_iff.2 ⟨_, _, demoConnection_accepted _ _, rfl, rfl⟩
  have hrun := (only_authenticated demoEnricher_splits demoApp_mounts
    [.connect (demoConnection "POST" "/api/v1/agent/runs" []),
      .connect (demoConnection "POST" "/api/v1/agent/runs" bearerAbc)]
    (demoConnection "POST" "/api/v1/agent/runs" bearerAbc)).1
  rwa [List.filterMap_cons_none hdropped, List.filterMap_cons_some hadmitted, List.filterMap_nil] at hrun

/-- the health check of `health.py` with a token -/
theorem no_route_exempt_health : ∃ token user, token ≠ "" ∧
    Carries (demoEnricher.httpTokenExtractor.header
      (demoConnection "GET" "/api/v1/health/dummy-health" bearerAbc).scope) token ∧
    demoManager.authenticateJwtToken (some token) = .ok user := by
  have htoken := demoEnricher.httpTokenExtractor.extractSafe_eq demoEnricher_splits
    (demoConnection "GET" "/api/v1/health/dummy-health" bearerAbc).scope
  have hcalled := (@serve_awaits_iff demoEnricher demoManager "c0ffee"
    { scope := (demoConnection "GET" "/api/v1/health/dummy-health" bearerAbc).scope } rfl (by decide +kernel) _ htoken
    _).2 (congrArg (verdict _ _ _) (demoConnection_accepted "GET" "/api/v1/health/dummy-health"))
  obtain ⟨token, user, hne, hcarries, haccepted, -⟩ := (no_route_exempt demoEnricher_splits demoApp_mounts
    (demoConnection "GET" "/api/v1/health/dummy-health" bearerAbc) _ hcalled).1 .health rfl
  exact ⟨token, user, hne, hcarries, haccepted⟩

end LlmAgent
