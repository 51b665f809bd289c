/-
The token extractors (`infrastructure/execution_context/token_extractors.py`) and the enricher that calls them
(`infrastructure/execution_context/production.py`, `api/http/middlewares/execution.py`).

What the extractors import is a field of theirs: Starlette's `Headers(scope=scope).get`, FastAPI's
`get_authorization_scheme_param`, and `json.loads`, which raises `JSONDecodeError` or answers a `PyAny`.
`SplitsAtFirstSpace` and `ParsesJson` say what is relied on.

`str.lower()` is ASCII here: its results are compared with "bearer" only, and no letter outside ASCII has one of the
letters of "bearer" as its lower case.
-/
import LlmAgent.Core.Partition
import LlmAgent.Core.Returns
import LlmAgent.Requests.Context

namespace LlmAgent

open Core

/-! ## What is imported -/

/-- FastAPI's `get_authorization_scheme_param`, given a value of any type -/
abbrev SchemeParam := PyAny → Except RequestError (String × String)

/-- a text is split at its first space, a missing value gives the empty pair, and only a text has `partition` -/
structure SplitsAtFirstSpace (getAuthorizationSchemeParam : SchemeParam) : Prop where
  text : ∀ header, getAuthorizationSchemeParam (.str header) = .ok (partition ' ' header)
  missing : ∀ value : PyAny, value.truthy = false → getAuthorizationSchemeParam value = .ok ("", "")
  notText : ∀ value : PyAny, value.truthy = true → value.isStr = false →
    getAuthorizationSchemeParam value = .error (value.noAttribute "partition")

/-- `json.loads` rejects a text in one way only, and the empty text is not JSON -/
structure ParsesJson (loads : String → Except RequestError PyAny) : Prop where
  rejects : ∀ text e, loads text = .error e → e = .jsonDecodeError
  empty : loads "" = .error .jsonDecodeError

/-- `s.lower()` -/
def lower (s : String) : String := String.ofList (s.toList.map Char.toLower)

/-- header names are compared in lower case, the first match counts, and bytes are Latin-1 -/
def starletteHeadersGet (headers : Headers) (key : String) : Option String :=
  (headers.lookup ((lower key).toList.map fun c => UInt8.ofNat c.toNat)).map fun value =>
    String.ofList (value.map fun byte => Char.ofNat byte.toNat)

def fastapiSchemeParam : SchemeParam := fun value =>
  if value.truthy then
    match value with
    | .str header => .ok (partition ' ' header)
    | value => .error (value.noAttribute "partition")
  else
    .ok ("", "")

theorem fastapiSchemeParam_splits : SplitsAtFirstSpace fastapiSchemeParam where
  text header := by
    by_cases hempty : header = ""
    · subst hempty
      rfl
    · unfold fastapiSchemeParam
      rw [if_pos (by simpa [PyAny.truthy] using hempty)]
  missing value hfalse := by
    unfold fastapiSchemeParam
    rw [if_neg (by simp [hfalse])]
  notText value htrue hstr := by
    unfold fastapiSchemeParam
    rw [if_pos htrue]
    cases value with
    | str header => cases hstr
    | _ => rfl

/-! ## Extractors -/

/-- `try: return extract() except suppressed: return None` -/
def suppressing (suppressed : RequestError → Bool) (extract : Except RequestError (Option String)) :
    Except RequestError (Option String) :=
  match extract with
  | .ok token => .ok token
  | .error e => if suppressed e then .ok none else .error e

structure HttpTokenExtractor where
  headersGet : Headers → String → Option String
  getAuthorizationSchemeParam : SchemeParam

def HttpTokenExtractor.extract (extractor : HttpTokenExtractor) (scope : Scope) : Except RequestError String := do
  match extractor.headersGet scope.headers "Authorization" with
  | none => throw (.invalidHeaderError "Authorization header not found")
  | some authHeader =>
    if authHeader = "" then throw (.invalidHeaderError "Authorization header not found")
    let (scheme, token) ← extractor.getAuthorizationSchemeParam (.str authHeader)
    if scheme = "" then throw (.invalidHeaderError "Malformed Authorization header")
    if lower scheme ≠ "bearer" then throw (.invalidHeaderError ("Unsupported scheme: " ++ scheme))
    pure token

def RequestError.isInvalidHeaderError : RequestError → Bool
  | .invalidHeaderError _ => true
  | _ => false

def HttpTokenExtractor.extractSafe (extractor : HttpTokenExtractor) (scope : Scope) :
    Except RequestError (Option String) :=
  suppressing RequestError.isInvalidHeaderError (some <$> extractor.extract scope)

structure WebSocketTokenExtractor where
  loads : String → Except RequestError PyAny
  getAuthorizationSchemeParam : SchemeParam

/-- the end of `extract_from_message`: the token of an authorization with the scheme of bearer tokens -/
def WebSocketTokenExtractor.bearerOf (extractor : WebSocketTokenExtractor) (authorizationData : PyAny) :
    Except RequestError (Option String) := do
  let (scheme, token) ← extractor.getAuthorizationSchemeParam authorizationData
  if lower scheme ≠ "bearer" then throw (.invalidWebsocketAuthException ("Unsupported scheme: " ++ scheme))
  pure (some token)

/-- what `extract_from_message` does once the text is parsed -/
def WebSocketTokenExtractor.extractFromParsed (extractor : WebSocketTokenExtractor) (parsedData : PyAny) :
    Except RequestError (Option String) := do
  let type ← parsedData.attrGet "type"
  if ¬ type.eqStr "connection_init" then return none
  let payload ← parsedData.attrGet "payload" (.dict [])
  let authorizationData ← payload.attrGet "authorization"
  extractor.bearerOf authorizationData

def WebSocketTokenExtractor.extractFromMessage (extractor : WebSocketTokenExtractor) (message : Message) :
    Except RequestError (Option String) :=
  if message.type ≠ some "websocket.receive" then .ok none
  else
    match message.text with
    | none => .ok none
    | some rawText =>
      if rawText = "" then .ok none
      else
        match extractor.loads rawText with
        | .error .jsonDecodeError => .ok none
        | .error e => .error e
        | .ok parsedData => extractor.extractFromParsed parsedData

def RequestError.isInvalidWebsocketAuthException : RequestError → Bool
  | .invalidWebsocketAuthException _ => true
  | _ => false

def WebSocketTokenExtractor.extractSafe (extractor : WebSocketTokenExtractor) (message : Message) :
    Except RequestError (Option String) :=
  suppressing RequestError.isInvalidWebsocketAuthException (extractor.extractFromMessage message)

/-! ## Enrichment -/

structure ProductionContextEnricher where
  httpTokenExtractor : HttpTokenExtractor
  websocketTokenExtractor : WebSocketTokenExtractor

namespace ProductionContextEnricher

variable (enricher : ProductionContextEnricher)

/-- `with enricher.enrich_from_scope(scope): body`, for the request id that is drawn -/
def enrichFromScope {α : Type} (requestId : String) (body : RequestM α) : RequestM α := do
  modify fun request => request.withState (request.scope.state.getD {})
  let scope := (← get).scope
  let jwtToken ← if scope.type = "http" then
      MonadExcept.ofExcept (enricher.httpTokenExtractor.extractSafe scope)
    else
      pure none
  try
    modify fun request => { request with jwtToken := jwtToken }
    modifyScopeState fun state => { state with requestId := some requestId, jwtToken := jwtToken }
    body
  finally
    modify fun request => { request with jwtToken := none }

/-- `instrumented_receive()`, when `receive()` comes out as given -/
def instrumentedReceive (receive : Except RequestError Message) : RequestM Message := do
  let message ← MonadExcept.ofExcept receive
  let jwtToken ← MonadExcept.ofExcept (enricher.websocketTokenExtractor.extractSafe message)
  match jwtToken with
  | none => pure message
  | some token =>
    if token = "" then return message
    modify fun request => { request with jwtToken := some token }
    modifyScopeState fun state => { state with jwtToken := some token }
    pure message

end ProductionContextEnricher

/-- `ExecutionContextMiddleware.__call__` around the application it wraps -/
def executionContextMiddleware {α : Type} (enricher : ProductionContextEnricher) (requestId : String)
    (app : RequestM α) : RequestM α := do
  let scope := (← get).scope
  if scope.type ∉ ["http", "websocket"] then app
  else enricher.enrichFromScope requestId app

end LlmAgent
