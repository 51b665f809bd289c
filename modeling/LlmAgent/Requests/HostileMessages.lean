/-
What the WebSocket extractor does with the text a client sends.

The text is parsed to a value of any type, and the extractor asks it for `type`, `payload` and `authorization` as if
each level were an object. Where it is one, or the question is never reached, the message is harmless (`Navigable`);
elsewhere an `AttributeError` passes the handler of `extract_safe`, which expects `InvalidWebsocketAuthException` only,
and `instrumented_receive` raises instead of delivering the message.

- `extractFromParsed_of_navigable`, `extractFromParsed_of_not_navigable`: the two outcomes for a parsed text;
- `instrumentedReceive_hostile`: the second as the server sees it;
- `safeExtraction_iff`: extraction is safe on a message exactly when its text, if it parses, is navigable;
- `connection_delivers`: a whole connection of harmless messages is delivered, and its last token is kept.
-/
import LlmAgent.Requests.TokenExtractors

namespace LlmAgent

open Core

/-! ## Parsed texts -/

/-- `message` is a `websocket.receive` whose text parses to this value -/
def Parses (loads : String → Except RequestError PyAny) (message : Message) (parsed : PyAny) : Prop :=
  message.type = some "websocket.receive" ∧ ∃ text, message.text = some text ∧ loads text = .ok parsed

/-- an object, and if of type `connection_init`, one whose payload is an object or absent, and whose authorization is a
text or counts as missing -/
def Navigable (parsed : PyAny) : Prop :=
  ∃ data, parsed = .dict data ∧ (PyDict.get data "type" = .str "connection_init" →
    ∃ payload, PyDict.get data "payload" (.dict []) = .dict payload ∧
      ((PyDict.get payload "authorization").truthy = true → (PyDict.get payload "authorization").isStr = true))

/-- an object of type `connection_init` whose payload has a bearer authorization with this token -/
def InitToken (parsed : PyAny) (token : String) : Prop :=
  ∃ data payload header, parsed = .dict data ∧ data.lookup "type" = some (.str "connection_init") ∧
    data.lookup "payload" = some (.dict payload) ∧ payload.lookup "authorization" = some (.str header) ∧
    lower (partition ' ' header).1 = "bearer" ∧ (partition ' ' header).2 = token

theorem PyDict.get_eq_some {kvs : PyDict} {key : String} {value default : PyAny} (h : value ≠ default) :
    PyDict.get kvs key default = value ↔ kvs.lookup key = some value := by
  rw [PyDict.get]
  cases kvs.lookup key with
  | none => simpa using Ne.symm h
  | some v => simp

section Extraction

variable {extractor : WebSocketTokenExtractor} (hsplits : SplitsAtFirstSpace extractor.getAuthorizationSchemeParam)

theorem extractFromParsed_init {data payload : PyDict} (htype : PyDict.get data "type" = .str "connection_init")
    (hpayload : PyDict.get data "payload" (.dict []) = .dict payload) :
    extractor.extractFromParsed (.dict data) = extractor.bearerOf (PyDict.get payload "authorization") := by
  have heq : (PyDict.get data "type").eqStr "connection_init" = true := PyAny.eqStr_iff.2 htype
  simp only [WebSocketTokenExtractor.extractFromParsed, PyAny.attrGet_dict, ok_bind, heq, hpayload]
  rfl

theorem extractFromParsed_other {data : PyDict} (htype : PyDict.get data "type" ≠ .str "connection_init") :
    extractor.extractFromParsed (.dict data) = .ok none := by
  have hne : ¬ (PyDict.get data "type").eqStr "connection_init" = true := fun h => htype (PyAny.eqStr_iff.1 h)
  simp only [WebSocketTokenExtractor.extractFromParsed, PyAny.attrGet_dict, ok_bind, if_pos hne]
  rfl

theorem bearerOf_eq {value : PyAny} {scheme token : String}
    (hsplit : extractor.getAuthorizationSchemeParam value = .ok (scheme, token)) :
    extractor.bearerOf value = if lower scheme = "bearer" then .ok (some token)
      else .error (.invalidWebsocketAuthException ("Unsupported scheme: " ++ scheme)) := by
  rw [WebSocketTokenExtractor.bearerOf, hsplit, ok_bind]
  by_cases hlower : lower scheme = "bearer"
  · simp only [ne_eq, hlower]
    rfl
  · simp only [ne_eq, if_pos hlower, if_neg hlower, throw_bind]

/-- only a text has `partition` -/
theorem bearerOf_not_text {value : PyAny} (hsplits : SplitsAtFirstSpace extractor.getAuthorizationSchemeParam)
    (htruthy : value.truthy = true) (hvalue : value.isStr = false) :
    extractor.bearerOf value = .error (value.noAttribute "partition") := by
  rw [WebSocketTokenExtractor.bearerOf, hsplits.notText value htruthy hvalue, error_bind]

/-- what is suppressed is the unsupported scheme -/
theorem suppressed_bearerOf {value : PyAny} {scheme token : String}
    (hsplit : extractor.getAuthorizationSchemeParam value = .ok (scheme, token)) :
    suppressing RequestError.isInvalidWebsocketAuthException (extractor.bearerOf value) =
      .ok (if lower scheme = "bearer" then some token else none) := by
  rw [bearerOf_eq hsplit]
  by_cases hlower : lower scheme = "bearer"
  · rw [if_pos hlower, if_pos hlower]
    rfl
  · rw [if_neg hlower, if_neg hlower]
    rfl

/-- in a `connection_init` object the token is the one of the authorization; an absent payload has none -/
theorem initToken_iff {data payload : PyDict} (htype : PyDict.get data "type" = .str "connection_init")
    (hpayload : PyDict.get data "payload" (.dict []) = .dict payload) (token : String) :
    InitToken (.dict data) token ↔ ∃ header, PyDict.get payload "authorization" = .str header ∧
      lower (partition ' ' header).1 = "bearer" ∧ (partition ' ' header).2 = token := by
  constructor
  · rintro ⟨data', payload', header, hdata, -, hpayload', hauthorization, hbearer⟩
    cases hdata
    have hsame : PyAny.dict payload = .dict payload' := by
      rw [← hpayload, PyDict.get, hpayload', Option.getD_some]
    cases hsame
    exact ⟨header, (PyDict.get_eq_some (by simp)).2 hauthorization, hbearer⟩
  · intro ⟨header, hauthorization, hbearer⟩
    have hauthorization' := (PyDict.get_eq_some (by simp)).1 hauthorization
    have hne : PyAny.dict payload ≠ .dict [] := by
      intro hempty
      cases hempty
      cases hauthorization'
    exact ⟨data, payload, header, rfl, (PyDict.get_eq_some (by simp)).1 htype, (PyDict.get_eq_some hne).1 hpayload,
      hauthorization', hbearer⟩

theorem PyAny.isStr_iff {v : PyAny} : v.isStr = true ↔ ∃ s, v = .str s := by
  cases v with
  | str s => simp [isStr]
  | _ => simp [isStr]

/-- an authorization that is a text, or counts as missing -/
theorem suppressed_authorization (hsplits : SplitsAtFirstSpace extractor.getAuthorizationSchemeParam) {value : PyAny}
    (hvalue : value.truthy = true → value.isStr = true) :
    ∃ token, suppressing RequestError.isInvalidWebsocketAuthException (extractor.bearerOf value) = .ok token ∧
      ∀ t, token = some t ↔
        ∃ header, value = .str header ∧ lower (partition ' ' header).1 = "bearer" ∧ (partition ' ' header).2 = t := by
  cases hstr : value.isStr with
  | true =>
    obtain ⟨header, rfl⟩ := PyAny.isStr_iff.1 hstr
    refine ⟨if lower (partition ' ' header).1 = "bearer" then some (partition ' ' header).2 else none,
      suppressed_bearerOf (hsplits.text header), fun t => ?_⟩
    constructor
    · intro htoken
      by_cases hlower : lower (partition ' ' header).1 = "bearer"
      · rw [if_pos hlower] at htoken
        exact ⟨header, rfl, hlower, Option.some.inj htoken⟩
      · rw [if_neg hlower] at htoken
        cases htoken
    · rintro ⟨header', hheader, hlower, rfl⟩
      cases hheader
      rw [if_pos hlower]
  | false =>
    have hmissing : value.truthy = false := by
      rw [← Bool.not_eq_true]
      intro htruthy
      exact Bool.false_ne_true (hstr.symm.trans (hvalue htruthy))
    have hempty : ¬ lower "" = "bearer" := by decide
    refine ⟨none, ?_, fun t => ?_⟩
    · rw [suppressed_bearerOf (hsplits.missing _ hmissing), if_neg hempty]
    · constructor
      · intro hnone
        cases hnone
      · rintro ⟨header, rfl, -⟩
        cases hstr

/-- the token of a parsed text, or none, when every level is there to be asked -/
theorem extractFromParsed_of_navigable (hsplits : SplitsAtFirstSpace extractor.getAuthorizationSchemeParam)
    {parsed : PyAny} (h : Navigable parsed) :
    ∃ token, suppressing RequestError.isInvalidWebsocketAuthException (extractor.extractFromParsed parsed) = .ok token ∧
      ∀ t, token = some t ↔ InitToken parsed t := by
  obtain ⟨data, rfl, hinit⟩ := h
  by_cases htype : PyDict.get data "type" = .str "connection_init"
  · obtain ⟨payload, hpayload, hauthorization⟩ := hinit htype
    rw [extractFromParsed_init htype hpayload]
    simp only [initToken_iff htype hpayload]
    exact suppressed_authorization hsplits hauthorization
  · rw [extractFromParsed_other htype]
    refine ⟨none, rfl, fun t => ⟨?_, ?_⟩⟩
    · intro hnone
      cases hnone
    · rintro ⟨data', payload, header, hdata, htype', -⟩
      cases hdata
      exact absurd ((PyDict.get_eq_some (by simp)).2 htype') htype

/-- elsewhere an exception passes the handler -/
theorem extractFromParsed_of_not_navigable (hsplits : SplitsAtFirstSpace extractor.getAuthorizationSchemeParam)
    {parsed : PyAny} (h : ¬ Navigable parsed) :
    ∃ message, suppressing RequestError.isInvalidWebsocketAuthException (extractor.extractFromParsed parsed) =
      .error (.attributeError message) := by
  by_cases hdata : ∃ data, parsed = .dict data
  · obtain ⟨data, rfl⟩ := hdata
    have htype : PyDict.get data "type" = .str "connection_init" := by
      by_contra htype
      exact h ⟨data, rfl, fun hinit => absurd hinit htype⟩
    by_cases hpayload : ∃ payload, PyDict.get data "payload" (.dict []) = .dict payload
    · obtain ⟨payload, hpayload⟩ := hpayload
      rw [extractFromParsed_init htype hpayload]
      generalize hvalue : PyDict.get payload "authorization" = authorizationData
      cases htruthy : authorizationData.truthy with
      | false =>
        refine absurd ⟨data, rfl, fun _ => ⟨payload, hpayload, fun hauthorization => ?_⟩⟩ h
        rw [hvalue, htruthy] at hauthorization
        cases hauthorization
      | true =>
        cases hstr : authorizationData.isStr with
        | false =>
          rw [bearerOf_not_text hsplits htruthy hstr]
          exact ⟨_, rfl⟩
        | true =>
          refine absurd ⟨data, rfl, fun _ => ⟨payload, hpayload, fun _ => ?_⟩⟩ h
          rw [hvalue, hstr]
    · have heq : (PyDict.get data "type").eqStr "connection_init" = true := PyAny.eqStr_iff.2 htype
      have hget := PyAny.attrGet_of_not_dict (fun payload he => hpayload ⟨payload, he⟩) "authorization" .none
      simp only [WebSocketTokenExtractor.extractFromParsed, PyAny.attrGet_dict, ok_bind, heq, hget]
      exact ⟨_, rfl⟩
  · have hget := PyAny.attrGet_of_not_dict (fun data he => hdata ⟨data, he⟩) "type" .none
    rw [WebSocketTokenExtractor.extractFromParsed, hget]
    exact ⟨_, rfl⟩

/-! ## Messages -/

theorem extractSafe_of_parses (hjson : ParsesJson extractor.loads) {message : Message} {parsed : PyAny}
    (h : Parses extractor.loads message parsed) :
    extractor.extractSafe message =
      suppressing RequestError.isInvalidWebsocketAuthException (extractor.extractFromParsed parsed) := by
  obtain ⟨htype, text, htext, hloads⟩ := h
  have hne : text ≠ "" := by
    rintro rfl
    cases hjson.empty.symm.trans hloads
  rw [WebSocketTokenExtractor.extractSafe, WebSocketTokenExtractor.extractFromMessage, if_neg (by simp [htype])]
  simp only [htext, if_neg hne, hloads]

theorem extractSafe_of_not_parses (hjson : ParsesJson extractor.loads) {message : Message}
    (h : ∀ parsed, ¬ Parses extractor.loads message parsed) : extractor.extractSafe message = .ok none := by
  suffices hnone : extractor.extractFromMessage message = .ok none by
    rw [WebSocketTokenExtractor.extractSafe, hnone]
    rfl
  rw [WebSocketTokenExtractor.extractFromMessage]
  by_cases htype : message.type = some "websocket.receive"
  · rw [if_neg (by simp [htype])]
    cases htext : message.text with
    | none => rfl
    | some text =>
      by_cases hempty : text = ""
      · exact if_pos hempty
      · simp only [if_neg hempty]
        cases hloads : extractor.loads text with
        | ok parsed => exact absurd ⟨htype, text, htext, hloads⟩ (h parsed)
        | error e =>
          obtain rfl := hjson.rejects text e hloads
          rfl
  · rw [if_pos htype]

theorem Parses.unique {loads : String → Except RequestError PyAny} {message : Message} {a b : PyAny}
    (ha : Parses loads message a) (hb : Parses loads message b) : a = b := by
  obtain ⟨-, text, htext, ha⟩ := ha
  obtain ⟨-, text', htext', hb⟩ := hb
  cases htext.symm.trans htext'
  exact Except.ok.inj (ha.symm.trans hb)

end Extraction

/-! ## Delivery -/

/-- the token that is kept once another may have arrived; an empty one is passed over -/
def newerToken (kept : Option String) : Option String → Option String
  | none => kept
  | some token => if token = "" then kept else some token

/-- the request, with `scope["state"]` as given, once a message with this token is received -/
def received (request : Request) (state : ScopeState) (token : Option String) : Request :=
  { request with jwtToken := newerToken request.jwtToken token }.withState
    { state with jwtToken := newerToken state.jwtToken token }

section Delivery

variable {enricher : ProductionContextEnricher}

theorem instrumentedReceive_ok {message : Message} {token : Option String}
    (h : enricher.websocketTokenExtractor.extractSafe message = .ok token) (request : Request) (state : ScopeState) :
    (enricher.instrumentedReceive (.ok message)).run (request.withState state) =
      .ok message (received request state token) := by
  simp only [ProductionContextEnricher.instrumentedReceive, EStateM.run_bind, run_ofExcept, h]
  cases token with
  | none => rfl
  | some token =>
    by_cases hempty : token = ""
    · subst hempty
      rfl
    · simp only [received, newerToken, if_neg hempty]
      rfl

theorem instrumentedReceive_error {message : Message} {e : RequestError}
    (h : enricher.websocketTokenExtractor.extractSafe message = .error e) (request : Request) :
    (enricher.instrumentedReceive (.ok message)).run request = .error e request := by
  simp only [ProductionContextEnricher.instrumentedReceive, EStateM.run_bind, run_ofExcept, h]

/-- the messages of a whole connection -/
theorem connection_delivers {messages : List Message} {tokens : List (Option String)}
    (h : List.Forall₂ (fun message token => enricher.websocketTokenExtractor.extractSafe message = .ok token) messages
      tokens) (request : Request) (state : ScopeState) :
    (messages.mapM fun message => enricher.instrumentedReceive (.ok message)).run (request.withState state) =
      .ok messages ({ request with jwtToken := tokens.foldl newerToken request.jwtToken }.withState
        { state with jwtToken := tokens.foldl newerToken state.jwtToken }) := by
  induction h generalizing request state with
  | nil => rfl
  | @cons message token messages tokens hmessage hmessages ih =>
    have hrest := ih { request with jwtToken := newerToken request.jwtToken token }
      { state with jwtToken := newerToken state.jwtToken token }
    rw [List.mapM_cons, EStateM.run_bind, instrumentedReceive_ok hmessage]
    simp only [EStateM.run_bind, received, hrest]
    rfl

end Delivery

/-! ## Safety -/

/-- the message is delivered, whatever its text, and a token is read off it exactly when it carries one -/
structure SafeExtraction (enricher : ProductionContextEnricher) (message : Message) : Prop where
  returns : ∃ token, enricher.websocketTokenExtractor.extractSafe message = .ok token
  delivers : ∀ request state, ∃ request',
    (enricher.instrumentedReceive (.ok message)).run (Request.withState request state) = .ok message request'
  token : ∀ token, enricher.websocketTokenExtractor.extractSafe message = .ok (some token) ↔
    ∃ parsed, Parses enricher.websocketTokenExtractor.loads message parsed ∧ InitToken parsed token

/-- a text that is not navigable takes the call of `receive` down, and with it the message -/
theorem instrumentedReceive_hostile {enricher : ProductionContextEnricher}
    (hsplits : SplitsAtFirstSpace enricher.websocketTokenExtractor.getAuthorizationSchemeParam)
    (hjson : ParsesJson enricher.websocketTokenExtractor.loads) {message : Message} {parsed : PyAny}
    (hparses : Parses enricher.websocketTokenExtractor.loads message parsed) (hparsed : ¬ Navigable parsed)
    (request : Request) :
    ∃ text, (enricher.instrumentedReceive (.ok message)).run request = .error (.attributeError text) request := by
  obtain ⟨text, herror⟩ := extractFromParsed_of_not_navigable hsplits hparsed
  rw [← extractSafe_of_parses hjson hparses] at herror
  exact ⟨text, instrumentedReceive_error herror request⟩

/-- Extraction is safe on a message exactly when its text, if it is JSON, is navigable. -/
theorem safeExtraction_iff {enricher : ProductionContextEnricher}
    (hsplits : SplitsAtFirstSpace enricher.websocketTokenExtractor.getAuthorizationSchemeParam)
    (hjson : ParsesJson enricher.websocketTokenExtractor.loads) (message : Message) :
    SafeExtraction enricher message ↔
      ∀ parsed, Parses enricher.websocketTokenExtractor.loads message parsed → Navigable parsed := by
  constructor
  · intro hsafe parsed hparses
    by_contra hparsed
    obtain ⟨token, htoken⟩ := hsafe.returns
    obtain ⟨text, herror⟩ := extractFromParsed_of_not_navigable hsplits hparsed
    rw [extractSafe_of_parses hjson hparses, herror] at htoken
    cases htoken
  · intro hnavigable
    by_cases hparses : ∃ parsed, Parses enricher.websocketTokenExtractor.loads message parsed
    · obtain ⟨parsed, hparses⟩ := hparses
      obtain ⟨token, hok, htoken⟩ := extractFromParsed_of_navigable hsplits (hnavigable parsed hparses)
      rw [← extractSafe_of_parses hjson hparses] at hok
      refine ⟨⟨token, hok⟩, fun request state => ⟨_, instrumentedReceive_ok hok request state⟩, fun t => ?_⟩
      rw [hok, Except.ok.injEq, htoken t]
      constructor
      · exact fun hinit => ⟨parsed, hparses, hinit⟩
      · rintro ⟨parsed', hparses', hinit⟩
        rwa [hparses.unique hparses']
    · have hok := extractSafe_of_not_parses hjson (fun parsed h => hparses ⟨parsed, h⟩)
      refine ⟨⟨none, hok⟩, fun request state => ⟨_, instrumentedReceive_ok hok request state⟩, fun t => ?_⟩
      rw [hok]
      constructor
      · intro hnone
        cases hnone
      · rintro ⟨parsed, hparsed, -⟩
        exact absurd ⟨parsed, hparsed⟩ hparses

/-! ## A message with a token and an array -/

/-- `{"type":"connection_init","payload":{"authorization":"Bearer abc"}}` -/
def initText : String :=
  "\x7b\"type\":\"connection_init\",\"payload\":\x7b\"authorization\":\"Bearer abc\"\x7d\x7d"

def initData : PyDict :=
  [("type", .str "connection_init"), ("payload", .dict [("authorization", .str "Bearer abc")])]

/-- `json.loads` on the two texts below -/
def demoLoads (text : String) : Except RequestError PyAny :=
  if text = initText then .ok (.dict initData)
  else if text = "[]" then .ok (.list [])
  else .error .jsonDecodeError

theorem demoLoads_parses : ParsesJson demoLoads where
  rejects text e h := by
    rw [demoLoads] at h
    split_ifs at h
    exact (Except.error.inj h).symm
  empty := rfl

def demoReceiver : ProductionContextEnricher where
  httpTokenExtractor := ⟨starletteHeadersGet, fastapiSchemeParam⟩
  websocketTokenExtractor := ⟨demoLoads, fastapiSchemeParam⟩

/-- a client that sends its token -/
theorem safeExtraction_init : SafeExtraction demoReceiver ⟨some "websocket.receive", some initText⟩ := by
  refine (safeExtraction_iff fastapiSchemeParam_splits demoLoads_parses _).2 ?_
  rintro parsed ⟨-, text, htext, hloads⟩
  obtain rfl := Option.some.inj htext
  obtain rfl : PyAny.dict initData = parsed := Except.ok.inj hloads
  exact ⟨initData, rfl, fun _ => ⟨[("authorization", .str "Bearer abc")], rfl, fun _ => rfl⟩⟩

/-- a client that sends an empty array: the server's call of `receive` raises -/
theorem array_unsafe :
    demoReceiver.websocketTokenExtractor.extractSafe ⟨some "websocket.receive", some "[]"⟩ =
        .error (.attributeError "'list' object has no attribute 'get'") ∧
      ¬ SafeExtraction demoReceiver ⟨some "websocket.receive", some "[]"⟩ := by
  have hraises : demoReceiver.websocketTokenExtractor.extractSafe ⟨some "websocket.receive", some "[]"⟩ =
      .error (.attributeError "'list' object has no attribute 'get'") := rfl
  refine ⟨hraises, fun hsafe => ?_⟩
  obtain ⟨token, htoken⟩ := hsafe.returns
  cases hraises.symm.trans htoken

end LlmAgent
