import Tag2now.Auth.Login

/-! # Account moderation

An admin looks up and bans RPCN accounts. The token only says who asks; RPCN checks the admin's
password and role on every action and decides. What it answers is read as JSON of any shape.
-/
namespace Tag2now.Admin
open Web Auth

section
variable {α : Type}

def notAdmin : Raised := .domain .forbidden "관리자 권한이 없습니다."
def selfBan : Raised := .domain .validation "자기 계정은 밴할 수 없습니다."
def wrongPassword : Raised := .domain .validation "비밀번호가 올바르지 않습니다."
def accountNotFound : Raised := .domain .notFound "해당 아이디의 계정이 없습니다. 대소문자까지 정확히 입력해 주세요."
def adminNotConfigured : Raised := .domain .serviceUnavailable "관리 기능이 설정되지 않았습니다."
def unavailable : Raised := .domain .serviceUnavailable "RPCN 관리 서버에 연결할 수 없습니다. 잠시 후 다시 시도해 주세요."

/-! ## What RPCN answers -/

/-- Nothing where the body is not JSON or no object. -/
def errorCode (response : Response) : Except Raised Json :=
  match response.body with
  | .json (.obj fields) => .ok (Json.get fields "error")
  | .tooDeep => .error .unhandled
  | _ => .ok .null

def raiseForStatus (response : Response) : Except Raised Unit :=
  if response.statusCode = 200 then .ok ()
  else if response.statusCode = 401 then .error wrongPassword
  else if response.statusCode = 403 then .error notAdmin
  else if response.statusCode = 404 then do
    let code ← errorCode response
    if code.isStr "user_not_found" then .error accountNotFound else .error unavailable
  else .error unavailable

/-- Why `datetime.fromtimestamp` refuses: an error that the reader catches, or one that it does not. -/
inductive EpochFault
  | caught
  | uncaught

/-- `datetime.fromtimestamp` in UTC. What it takes beyond the years of the calendar depends on the platform. -/
abbrev FromTimestamp := Json → Except EpochFault ℤ

structure AccountStatus where
  username : Json
  onlineName : Json
  avatarUrl : Json
  admin : Bool
  banned : Bool
  online : Bool
  createdAt : Option ℤ
  lastLoginAt : Option ℤ

structure BanResult where
  username : Json
  kicked : Bool

def fromEpoch (fromTimestamp : FromTimestamp) : Json → Except Raised (Option ℤ)
  | .null => .ok none
  | seconds => match fromTimestamp seconds with
    | .ok t => .ok (some t)
    | .error .caught => .error unavailable
    | .error .uncaught => .error .unhandled

def toStatus (fromTimestamp : FromTimestamp) (body : Json) : Except Raised AccountStatus := do
  let username ← field unavailable body "username"
  let onlineName ← field unavailable body "online_name"
  let avatarUrl := fieldOr body "avatar_url" (.str "")
  let admin ← field unavailable body "admin"
  let banned ← field unavailable body "banned"
  let online ← field unavailable body "online"
  let createdAt ← fromEpoch fromTimestamp (fieldOr body "creation" .null)
  let lastLoginAt ← fromEpoch fromTimestamp (fieldOr body "last_login" .null)
  return ⟨username,onlineName,avatarUrl,admin.truthy,banned.truthy,online.truthy,createdAt,lastLoginAt⟩

def toBanResult (body : Json) : Except Raised BanResult := do
  let username ← field unavailable body "username"
  let kicked ← field unavailable body "kicked"
  return ⟨username,kicked.truthy⟩

/-! ## Calls -/

def infoPath : String := "/admin/users/info"
def banPath : String := "/admin/users/ban"

/-- In the name of the admin whose password it is. -/
def payload (api : RpcnApi) (adminUsername adminPassword username : String) : List (String × Json) :=
  [("admin_username",.str adminUsername),("admin_password",.str (api.deriveRpcnPassword adminPassword)),
    ("username",.str username)]

def readAnswer (response : Response) : Except Raised Json := do
  raiseForStatus response
  response.json unavailable

def postAs (api : RpcnApi) (path adminUsername adminPassword username : String) : Call Json :=
  (api.client.post path (payload api adminUsername adminPassword username) adminNotConfigured unavailable).andThen
    readAnswer

/-! ## Endpoints -/

structure AdminActionRequest where
  username : String
  password : String

structure AccountStatusOut where
  username : String
  onlineName : String
  avatarUrl : String
  admin : Bool
  banned : Bool
  online : Bool
  createdAt : Option ℤ
  lastLoginAt : Option ℤ

structure BanOut where
  username : String
  banned : Bool
  kicked : Bool

/-- What does not fit the answer's model is no answer. -/
def statusOut (status : AccountStatus) : Except Raised AccountStatusOut := do
  let username ← textOut status.username
  let onlineName ← textOut status.onlineName
  let avatarUrl ← textOut status.avatarUrl
  return ⟨username,onlineName,avatarUrl,status.admin,status.banned,status.online,status.createdAt,status.lastLoginAt⟩

def banOut (result : BanResult) : Except Raised BanOut := do
  let username ← textOut result.username
  return ⟨username,true,result.kicked⟩

def adminUser (user : AuthUser) : Except Raised AuthUser := if user.admin then .ok user else .error notAdmin

/-- RPCN's names are unique regardless of case. -/
def ensureNotSelf (casefold : String → String) (admin : AuthUser) (username : String) : Except Raised Unit :=
  if casefold admin.username = casefold username then .error selfBan else .ok ()

variable {τ : Type} (jwt : Jwt τ) (settings : TokenSettings) (now : ℤ) (credentials : Option τ)

def signedIn : Except Raised AuthUser := do
  let user ← (currentUser jwt settings now credentials).mapError AuthError.raised
  adminUser user

variable (api : RpcnApi) (request : AdminActionRequest)

def lookup (fromTimestamp : FromTimestamp) : Call AccountStatusOut :=
  .ofExcept (signedIn jwt settings now credentials) fun admin =>
    (postAs api infoPath admin.username request.password request.username).andThen fun body => do
      let status ← toStatus fromTimestamp body
      statusOut status

def ban (casefold : String → String) : Call BanOut :=
  .ofExcept (signedIn jwt settings now credentials) fun admin =>
    .ofExcept (ensureNotSelf casefold admin request.username) fun _ =>
      (postAs api banPath admin.username request.password request.username).andThen fun body => do
        let result ← toBanResult body
        banOut result

end

end Tag2now.Admin
