/-
Authentication of a request: the Keycloak claims parser, the token manager and the middleware
(`infrastructure/authentication/keycloak_claims_parser.py`, `infrastructure/authentication/jwt_manager.py`,
`api/http/middlewares/authentication.py`), and the two middlewares in the order of `register_middlewares`.

The identity provider is outside: what `openid_configuration_provider()` and `token_validation_client.authenticate(...)`
come out as is given with the manager. The last thing the middleware awaits, the application or a response, is its
result.
-/
import LlmAgent.Requests.TokenExtractors

namespace LlmAgent

/-! ## Claims -/

/-- the annotations of the dataclass are not checked: the values are the ones of the claims -/
structure AuthenticatedUser where
  userId : PyAny
  username : PyAny
  email : PyAny
  roles : List PyAny
  scopes : List String
deriving Repr

/-- `a or b` -/
def PyAny.or (a b : PyAny) : PyAny := if a.truthy then a else b

/-- `claims[key]` -/
def PyDict.item (claims : PyDict) (key : String) : Except RequestError PyAny :=
  match claims.lookup key with
  | none => .error (.keyError key)
  | some value => .ok value

/-- `if items := value: roles.extend(items)` -/
def extendWith (roles : List PyAny) (value : PyAny) : Except RequestError (List PyAny) := do
  if value.truthy then
    let items ← value.items
    pure (roles ++ items)
  else
    pure roles

/-- the realm roles, then the roles of each client -/
def parseRoles (claims : PyDict) : Except RequestError (List PyAny) := do
  let realmRoles ← (PyDict.get claims "realm_access" (.dict [])).attrGet "roles"
  let roles ← extendWith [] realmRoles
  let resourceAccess := PyDict.get claims "resource_access"
  if resourceAccess.truthy then
    let clients ← resourceAccess.attrValues
    clients.foldlM (fun roles clientRoles => do extendWith roles (← clientRoles.attrGet "roles")) roles
  else
    pure roles

def parseKeycloakClaims (claims : PyDict) : Except RequestError AuthenticatedUser := do
  let userId ← PyDict.item claims "sub"
  let username := ((PyDict.get claims "preferred_username").or (PyDict.get claims "name")).or userId
  let email := PyDict.get claims "email"
  let roles ← parseRoles claims
  let scopeStr := PyDict.get claims "scope" (.str "")
  let scopes ← if scopeStr.truthy then scopeStr.attrSplit else pure []
  pure ⟨userId, username, email, roles, scopes⟩

/-! ## Manager -/

structure OpenIdConfiguration where
  realmName : String
  openidDiscoveryUrl : String
deriving DecidableEq, Repr

structure JwtAuthenticationManager where
  /-- of the token, the audience and the discovery URL -/
  tokenValidationClient : String → List String → String → Except RequestError PyDict
  openidConfigurationProvider : Except RequestError OpenIdConfiguration

def JwtAuthenticationManager.authenticateJwtToken (manager : JwtAuthenticationManager) (token : Option String) :
    Except RequestError AuthenticatedUser := do
  match token with
  | none => throw (.permissionError "Missing token")
  | some token =>
    if token = "" then throw (.permissionError "Missing token")
    let oidcConfig ← manager.openidConfigurationProvider
    let claims ← manager.tokenValidationClient token ["fill-in"] oidcConfig.openidDiscoveryUrl
    parseKeycloakClaims claims

/-! ## Middleware -/

/-- what the middleware awaits last -/
inductive Awaited where
  /-- the application, called while the request is this -/
  | app (request : Request)
  /-- a JSON response with a `detail` -/
  | response (statusCode : ℕ) (detail : String)
deriving Repr

/-- `self.excluded_paths` -/
def excludedPaths : List String := ["/health"]

/-- `str(scope.get("path")).startswith(excluded_paths)` -/
def Scope.isExcluded (scope : Scope) : Bool :=
  excludedPaths.any fun excluded => excluded.toList.isPrefixOf (scope.path.getD "None").toList

/-- the body of the middleware's `try` -/
def authenticateRequest (manager : JwtAuthenticationManager) : RequestM Unit := do
  let extractedToken := (← scopeState).jwtToken
  let userIdentity ← MonadExcept.ofExcept (manager.authenticateJwtToken extractedToken)
  modifyScopeState fun state => { state with userId := some userIdentity.userId }

/-- its handlers, `except AuthenticationError` before `except Exception`; other exceptions pass -/
def refuse : RequestError → Except RequestError Awaited
  | .authenticationError _ => .ok (.response 401 "Authentication failed")
  | .interrupt className => .error (.interrupt className)
  | _ => .ok (.response 500 "Unexpected error during authentication")

/-- `AuthenticationMiddleware.__call__` -/
def authenticationMiddleware (manager : JwtAuthenticationManager) : RequestM Awaited := do
  let scope := (← get).scope
  if scope.type ∉ ["http", "websocket"] then return .app (← get)
  if scope.isExcluded then return .app (← get)
  let refusal ← try
      authenticateRequest manager
      pure none
    catch e =>
      some <$> MonadExcept.ofExcept (refuse e)
  match refusal with
  | some response => pure response
  | none => pure (.app (← get))

/-- a request on its way to the application; the middleware added last is the outermost -/
def serve (enricher : ProductionContextEnricher) (manager : JwtAuthenticationManager) (requestId : String) :
    RequestM Awaited :=
  executionContextMiddleware enricher requestId (authenticationMiddleware manager)

end LlmAgent
