import Mathlib.Data.List.DropRight
import Tag2now.Shared.Json

/-! # How a request ends

Services raise domain errors and know no status codes. A domain error is answered by the handler
of the class it derives from; an exception no handler is registered for is answered 500.
-/
namespace Tag2now.Web

/-- The classes that handlers are registered for. -/
inductive DomainError
  | notFound
  | unauthorized
  | forbidden
  | validation
  | conflict
  | unprocessable
  | rateLimited
  | serviceUnavailable
  deriving DecidableEq

def DomainError.status : DomainError → ℕ
  | .notFound => 404
  | .forbidden => 403
  | .validation => 400
  | .conflict => 409
  | .unprocessable => 422
  | .rateLimited => 429
  | .serviceUnavailable => 502
  | .unauthorized => 401

inductive Raised
  | domain (error : DomainError) (detail : String)
  | unhandled
  deriving DecidableEq

def Raised.status : Raised → ℕ
  | .domain error _ => error.status
  | .unhandled => 500

section
variable {α β : Type}

def httpStatus : Except Raised α → ℕ
  | .ok _ => 200
  | .error raised => raised.status

/-! ## Calls to another server -/

structure Response where
  statusCode : ℕ
  body : Body

/-- `response.json()`, where a caller catches that the body is not JSON, and nothing else. -/
def Response.json (response : Response) (notJson : Raised) : Except Raised Json :=
  match response.body with
  | .json value => .ok value
  | .malformed => .error notJson
  | .tooDeep => .error .unhandled

structure Message where
  path : String
  body : List (String × Json)

/-- A request that is answered at once, or by what another server answers to one message. -/
inductive Call (α : Type)
  | done (result : Except Raised α)
  | send (message : Message) (answer : Option Response → Except Raised α)

namespace Call

/-- No response came back where the server answers nothing. -/
def answer (server : Message → Option Response) : Call α → Except Raised α
  | .done result => result
  | .send message answer => answer (server message)

def sent : Call α → Option Message
  | .done _ => none
  | .send message _ => some message

def andThen : Call α → (α → Except Raised β) → Call β
  | .done result,f => .done (result >>= f)
  | .send message answer,f => .send message fun response => answer response >>= f

def ofExcept (checked : Except Raised α) (rest : α → Call β) : Call β :=
  match checked with
  | .ok a => rest a
  | .error raised => .done (.error raised)

variable {server : Message → Option Response}

@[simp] theorem answer_andThen (call : Call α) (f : α → Except Raised β) :
    (call.andThen f).answer server = call.answer server >>= f := by
  cases call <;> rfl

@[simp] theorem sent_andThen (call : Call α) (f : α → Except Raised β) : (call.andThen f).sent = call.sent := by
  cases call <;> rfl

end Call

/-- A client of another server: its address and its key. -/
structure ApiClient where
  baseUrl : String
  apiKey : String
  initialized : Bool

namespace ApiClient

/-- The address without the slashes it ends in, and the key. -/
def configured (client : ApiClient) : Bool :=
  !(client.baseUrl.toList.rdropWhile (· = '/')).isEmpty && client.apiKey ≠ ""

/-- The answer, whatever its status, or what the caller says when there is none. -/
def post (client : ApiClient) (path : String) (body : List (String × Json)) (notConfigured unreachable : Raised) :
    Call Response :=
  if !client.initialized then .done (.error .unhandled)
  else if !client.configured then .done (.error notConfigured)
  else .send ⟨path,body⟩ fun response => response.elim (.error unreachable) .ok

variable {client : ApiClient} {path : String} {body : List (String × Json)} {notConfigured unreachable : Raised}

theorem sent_post {message : Message} (h : (client.post path body notConfigured unreachable).sent = some message) :
    client.initialized = true ∧ client.configured = true ∧ message = ⟨path,body⟩ := by
  unfold post at h
  split at h
  · cases h
  · split at h
    · cases h
    · rename_i hinitialized hconfigured
      exact ⟨by simpa using hinitialized,by simpa using hconfigured,(Option.some.inj h).symm⟩

end ApiClient

structure RpcnApi where
  client : ApiClient
  /-- What RPCS3 would send for a typed password. -/
  deriveRpcnPassword : String → String

/-- The other server's answer to the message of the call. -/
def Answered (call : Call α) (server : Message → Option Response) (response : Response) : Prop :=
  ∃ message, call.sent = some message ∧ server message = some response

/-! ## Reading an answer -/

section
variable (missing : Raised)

/-- `body[name]`; what is not an object, or has no such field, is an error its reader catches. -/
def field (body : Json) (name : String) : Except Raised Json :=
  match body with
  | .obj fields => ((fields.find? fun e => e.1 = name).map (·.2)).elim (.error missing) .ok
  | _ => .error missing

/-- `body.get(name, default)`, of a body whose fields were read before. -/
def fieldOr (body : Json) (name : String) (default : Json) : Json :=
  match body with
  | .obj fields => ((fields.find? fun e => e.1 = name).map (·.2)).getD default
  | _ => default

/-- A field of a model that has to be a text. -/
def textOut : Json → Except Raised String
  | .str s => .ok s
  | _ => .error .unhandled

/-- The errors of reading an answer. -/
def ReadError (result : Except Raised α) : Prop := ∀ e, result = .error e → e = missing ∨ e = .unhandled

variable {missing}

theorem readError_ok (a : α) : ReadError missing (.ok a : Except Raised α) := nofun

theorem readError_missing : ReadError missing (.error missing : Except Raised α) :=
  fun _ h => .inl (Except.error.inj h).symm

theorem readError_unhandled : ReadError missing (.error .unhandled : Except Raised α) :=
  fun _ h => .inr (Except.error.inj h).symm

theorem ReadError.bind {x : Except Raised α} (hx : ReadError missing x) {f : α → Except Raised β}
    (hf : ∀ a, ReadError missing (f a)) : ReadError missing (x >>= f) := by
  cases x with
  | error e => exact fun e' h => hx e' (congrArg Except.error (Except.error.inj h))
  | ok a => exact hf a

theorem field_error {body : Json} {name : String} {e : Raised} (h : field missing body name = .error e) :
    e = missing := by
  cases body with
  | obj fields =>
    have hfield : field missing (.obj fields) name =
      ((fields.find? fun e => e.1 = name).map (·.2)).elim (.error missing) .ok := rfl
    rw [hfield] at h
    cases hfound : (fields.find? fun e => e.1 = name).map (·.2) with
    | none =>
      rw [hfound] at h
      exact (Except.error.inj h).symm
    | some value =>
      rw [hfound] at h
      cases h
  | _ => exact (Except.error.inj h).symm

theorem readError_field (body : Json) (name : String) : ReadError missing (field missing body name) :=
  fun _ h => .inl (field_error h)

theorem readError_textOut (value : Json) : ReadError missing (textOut value) := by
  cases value with
  | str s => exact readError_ok s
  | _ => exact readError_unhandled

end

end

end Tag2now.Web
