/-
What the middlewares and the token extractors work on: exceptions, values of unknown type, ASGI scopes and messages.

- `RequestError`: the exceptions of this part, told apart as far as some handler tells them apart;
- `PyAny.truthy`, `PyAny.attrGet`, ...: what the code asks of a value whose type nobody has checked; a value without the
  method raises `AttributeError`;
- `Scope`, `Message`: the ASGI dictionaries, with the entries that the code reads or writes;
- `Request`, `RequestM`: the scope and the context variable of one request; the code reads and writes both and may
  raise.

Log lines and the log's context variables are left out.
-/
import LlmAgent.Runs.Domain

namespace LlmAgent

/-! ## Exceptions -/

inductive RequestError where
  | invalidHeaderError (message : String)
  | invalidWebsocketAuthException (message : String)
  | authenticationError (message : String)
  | permissionError (message : String)
  | jsonDecodeError
  | keyError (key : String)
  | attributeError (message : String)
  | typeError (message : String)
  /-- any other class derived from `Exception`, as a service may raise it -/
  | service (className : String)
  /-- a class that is not derived from `Exception`, such as `asyncio.CancelledError` -/
  | interrupt (className : String)
deriving DecidableEq, Repr

/-! ## Values of unknown type -/

/-- `type(v).__name__` -/
def PyAny.typeName : PyAny → String
  | .none => "NoneType"
  | .bool _ => "bool"
  | .int _ => "int"
  | .float _ => "float"
  | .str _ => "str"
  | .list _ => "list"
  | .dict _ => "dict"

/-- `bool(v)`; both zeros of a float are false, a NaN is true -/
def PyAny.truthy : PyAny → Bool
  | .none => false
  | .bool b => b
  | .int i => i ≠ 0
  | .float bits => bits.toNat % 2 ^ 63 ≠ 0
  | .str s => s ≠ ""
  | .list xs => !xs.isEmpty
  | .dict kvs => !kvs.isEmpty

def PyAny.isStr : PyAny → Bool
  | .str _ => true
  | _ => false

/-- `v == s` for a text `s` -/
def PyAny.eqStr : PyAny → String → Bool
  | .str t, s => t = s
  | _, _ => false

/-- `v.name` where values of the type have no `name` -/
def PyAny.noAttribute (v : PyAny) (name : String) : RequestError :=
  .attributeError ("'" ++ v.typeName ++ "' object has no attribute '" ++ name ++ "'")

/-- `kvs.get(key, default)` -/
def PyDict.get (kvs : PyDict) (key : String) (default : PyAny := .none) : PyAny := (kvs.lookup key).getD default

/-- `v.get(key, default)` -/
def PyAny.attrGet (v : PyAny) (key : String) (default : PyAny := .none) : Except RequestError PyAny :=
  match v with
  | .dict kvs => .ok (PyDict.get kvs key default)
  | v => .error (v.noAttribute "get")

/-- `v.values()` -/
def PyAny.attrValues : PyAny → Except RequestError (List PyAny)
  | .dict kvs => .ok (kvs.map Prod.snd)
  | v => .error (v.noAttribute "values")

/-- what `for x in v` goes through: the items of a list, the characters of a text, the keys of a dictionary -/
def PyAny.items : PyAny → Except RequestError (List PyAny)
  | .list xs => .ok xs
  | .str s => .ok (s.toList.map fun c => .str (String.singleton c))
  | .dict kvs => .ok (kvs.map fun entry => .str entry.1)
  | v => .error (.typeError ("'" ++ v.typeName ++ "' object is not iterable"))

/-- what `str.split()` splits at -/
def isPySpace (c : Char) : Bool :=
  c.toNat ∈ [0x20, 0x85, 0xa0, 0x1680, 0x2028, 0x2029, 0x202f, 0x205f, 0x3000] ∨ (0x09 ≤ c.toNat ∧ c.toNat ≤ 0x0d) ∨
    (0x1c ≤ c.toNat ∧ c.toNat ≤ 0x1f) ∨ (0x2000 ≤ c.toNat ∧ c.toNat ≤ 0x200a)

/-- `v.split()` -/
def PyAny.attrSplit : PyAny → Except RequestError (List String)
  | .str s => .ok (((s.toList.splitOnP isPySpace).filter (· ≠ [])).map String.ofList)
  | v => .error (v.noAttribute "split")

@[simp]
theorem PyAny.attrGet_dict (kvs : PyDict) (key : String) (default : PyAny) :
    (PyAny.dict kvs).attrGet key default = .ok (PyDict.get kvs key default) := rfl

theorem PyAny.eqStr_iff {v : PyAny} {s : String} : v.eqStr s = true ↔ v = .str s := by
  cases v with
  | str t => simp [eqStr]
  | _ => simp [eqStr]

/-- only a dictionary has `get` -/
theorem PyAny.attrGet_of_not_dict {v : PyAny} (h : ∀ kvs, v ≠ .dict kvs) (key : String) (default : PyAny) :
    v.attrGet key default = .error (v.noAttribute "get") := by
  cases v with
  | dict kvs => exact absurd rfl (h kvs)
  | _ => rfl

/-! ## Scopes and messages -/

/-- the pairs of bytes in `scope["headers"]` -/
abbrev Headers := List (List UInt8 × List UInt8)

/-- the entries of `scope["state"]`; an absent entry reads as `None` -/
structure ScopeState where
  requestId : Option String := none
  jwtToken : Option String := none
  userId : Option PyAny := none
deriving Repr

/-- an ASGI scope; the server may leave `state` and `path` out -/
structure Scope where
  type : String
  path : Option String := none
  headers : Headers := []
  state : Option ScopeState := none
deriving Repr

/-- an ASGI message -/
structure Message where
  type : Option String
  text : Option String := none
deriving DecidableEq, Repr

/-! ## Requests -/

/-- the scope of a request and `RequestContextVars.JWT_TOKEN` -/
structure Request where
  scope : Scope
  jwtToken : Option String := none
deriving Repr

abbrev RequestM := EStateM RequestError Request

/-- the request once `scope["state"]` is `state` -/
def Request.withState (request : Request) (state : ScopeState) : Request :=
  { request with scope := { request.scope with state := some state } }

/-- `scope["state"]` -/
def scopeState : RequestM ScopeState := do
  match (← get).scope.state with
  | none => throw (.keyError "state")
  | some state => pure state

/-- a write to `scope["state"]` -/
def modifyScopeState (write : ScopeState → ScopeState) : RequestM Unit := do
  let state ← scopeState
  modify fun request => request.withState (write state)

@[simp]
theorem scopeState_run (request : Request) (state : ScopeState) :
    scopeState.run (request.withState state) = .ok state (request.withState state) := rfl

@[simp]
theorem modifyScopeState_run (write : ScopeState → ScopeState) (request : Request) (state : ScopeState) :
    (modifyScopeState write).run (request.withState state) = .ok () (request.withState (write state)) := rfl

end LlmAgent
