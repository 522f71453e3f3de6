import Mathlib.Data.List.DropRight
import Tag2now.Admin.Service
import Tag2now.Saves.Service

/-! # An admin's calls of the save server

The save server checks the admin's password with RPCN on every call and refuses with a code. The
codes that an admin can act on are answered in words of this side, anything else is a fault between
the two. Audit records name files of the host, of which only the label is shown.
-/
namespace Tag2now.SaveAdmin
open Web Auth

abbrev Fields := List (String × Json)

/-! ## Requests -/

structure SaveWriteRequest where
  username : String
  dryRun : Bool
  expectSha256 : Option String

/-- A character slot, or every character and the account rank. -/
inductive CharChoice
  | slot (id : ℕ)
  | all

inductive SaveRequest
  | show_ (username : String) (allChars : Bool)
  | backups (username : String)
  | log (username : Option String) (n : ℕ)
  | setRank (write : SaveWriteRequest) (char : CharChoice) (rank : ℕ) (points : Option ℕ)
  | setAccountRank (write : SaveWriteRequest) (rank : ℕ)
  | floor (write : SaveWriteRequest) (rank : Option ℕ) (fixPoints refloor : Bool)
  | restore (write : SaveWriteRequest) (label : String)

def CharChoice.json : CharChoice → Json
  | .slot id => .int id
  | .all => .str "all"

/-- A field that is left out when it is not given. -/
def given (name : String) (value : Option Json) : Fields := (value.map fun v => (name,v)).toList

def number (n : ℕ) : Json := .int n

def SaveWriteRequest.modelDump (write : SaveWriteRequest) : Fields :=
  [("username",.str write.username),("dry_run",.bool write.dryRun)] ++
    given "expect_sha256" (write.expectSha256.map .str)

namespace SaveRequest

def action : SaveRequest → String
  | .show_ .. => "show"
  | .backups _ => "backups"
  | .log .. => "log"
  | .setRank .. => "set-rank"
  | .setAccountRank .. => "set-account-rank"
  | .floor .. => "floor"
  | .restore .. => "restore"

/-- The fields of the request but for the password. -/
def modelDump : SaveRequest → Fields
  | .show_ username allChars => [("username",.str username),("all_chars",.bool allChars)]
  | .backups username => [("username",.str username)]
  | .log username n => given "username" (username.map .str) ++ [("n",number n)]
  | .setRank write char rank points =>
    write.modelDump ++ [("char",char.json),("rank",number rank)] ++ given "points" (points.map number)
  | .setAccountRank write rank => write.modelDump ++ [("rank",number rank)]
  | .floor write rank fixPoints refloor =>
    write.modelDump ++ given "rank" (rank.map number) ++ [("fix_points",.bool fixPoints),("refloor",.bool refloor)]
  | .restore write label => write.modelDump ++ [("label",.str label)]

end SaveRequest

/-- The request in the name of the admin whose password it is. -/
def payload (api : RpcnApi) (adminUsername adminPassword : String) (request : SaveRequest) : Fields :=
  request.modelDump ++ [("admin_username",.str adminUsername),
    ("admin_password",.str (api.deriveRpcnPassword adminPassword))]

/-! ## Refusals -/

def savesNotConfigured : Raised := .domain .serviceUnavailable "세이브 관리 기능이 설정되지 않았습니다."
def savesUnavailable : Raised :=
  .domain .serviceUnavailable "세이브 관리 서버에 연결할 수 없습니다. 잠시 후 다시 시도해 주세요."

/-- The refusals an admin can act on. -/
def refusals : List (String × Raised) :=
  [("invalid_credentials",.domain .validation "비밀번호가 올바르지 않습니다."),
    ("forbidden",.domain .forbidden "관리자 권한이 없습니다."),
    ("user_not_found",.domain .notFound "해당 아이디의 계정이 없습니다."),
    ("ambiguous_user",.domain .validation "대소문자만 다른 계정이 여럿입니다. 대소문자까지 정확히 입력해 주세요."),
    ("save_not_found",.domain .notFound "이 계정에는 TTT2 세이브가 없습니다."),
    ("backup_not_found",.domain .notFound "해당 백업이 없습니다."),
    ("online",.domain .conflict "게임에 접속 중인 계정은 수정할 수 없습니다. 접속을 끊은 뒤 다시 시도해 주세요."),
    ("save_changed",.domain .conflict "미리보기 뒤에 세이브가 바뀌었습니다. 다시 미리보기 해 주세요."),
    ("likely_demoted",.domain .conflict
      "이전 floor 뒤에 강등된 캐릭터로 보입니다. 그래도 올리려면 강등 캐릭터 재적용을 선택해 주세요."),
    ("online_unknown",.domain .serviceUnavailable
      "접속 여부를 확인할 수 없어 수정하지 않았습니다. 잠시 후 다시 시도해 주세요."),
    ("rpcn_unavailable",.domain .serviceUnavailable
      "RPCN 관리 서버에 연결할 수 없습니다. 잠시 후 다시 시도해 주세요.")]

section
variable (str : Json → String)

/-- A code that is a text; what `str` makes of the message is shown for a rule that only the save knows. -/
def refusalOf (code : String) (message : Json) : Raised :=
  match (refusals.find? fun e => e.1 = code).map (·.2) with
  | some raised => raised
  | none =>
    if code = "invalid_request" then .domain .validation ("요청을 처리할 수 없습니다: " ++ str message)
    else savesUnavailable

/-- A list or an object cannot be looked up in a dictionary. -/
def refusal (answer : Fields) : Raised :=
  match Json.get answer "error" with
  | .str code => refusalOf str code (fieldOr (.obj answer) "message" (.str ""))
  | .arr _ => .unhandled
  | .obj _ => .unhandled
  | _ => savesUnavailable

/-- The body, if it is an object. -/
def answerOf (response : Response) : Except Raised (Option Fields) :=
  match response.body with
  | .json (.obj fields) => .ok (some fields)
  | .tooDeep => .error .unhandled
  | _ => .ok none

def readAnswer (response : Response) : Except Raised Fields := do
  match ← answerOf response with
  | some answer => if response.statusCode = 200 then .ok answer else .error (refusal str answer)
  | none => .error (refusal str [])

end

/-! ## Answers -/

structure AuditRecord where
  ts : Json
  user : Json
  action : Json
  username : Json
  details : Fields

inductive Answer
  | show_ (save : Fields) (username : Json) (savedAt : ℤ)
  | backups (answer : Fields)
  | log (records : List AuditRecord)
  /-- With the profile that the cache is to drop. -/
  | edited (answer : Fields) (dropped : Option Saves.Key)

def pathFields : List String := ["backup","source"]

/-- What is after the last slash. -/
def basename (path : List Char) : List Char := path.rtakeWhile (· ≠ '/')

/-- A name without its extension; the dots it begins with begin none. -/
def splitextRoot (name : List Char) : List Char :=
  let root := (name.rdropWhile (· ≠ '.')).dropLast
  if root.all (· = '.') then name else root

def label (path : Json) : Except Raised Json := do
  let s ← textOut path
  return .str (.ofList (splitextRoot (basename s.toList)))

def detail (entry : String × Json) : Except Raised (String × Json) :=
  if entry.1 ∈ pathFields then (label entry.2).map fun shown => (entry.1,shown) else .ok entry

def auditRecord : Json → Except Raised AuditRecord
  | .obj record => do
    let details ← (record.filter fun e => e.1 ∉ ["ts","user","action","npid"]).mapM detail
    let ts ← field .unhandled (.obj record) "ts"
    let user ← field .unhandled (.obj record) "user"
    let action ← field .unhandled (.obj record) "action"
    let npid ← field .unhandled (.obj record) "npid"
    return ⟨ts,user,action,npid,details⟩
  | _ => .error .unhandled

/-- What a loop over the value goes through. -/
def iterated : Json → Except Raised (List Json)
  | .arr items => .ok items
  | .obj fields => .ok (fields.map fun e => .str e.1)
  | .str s => .ok (s.toList.map fun c => .str c.toString)
  | _ => .error .unhandled

section
variable (casefold : String → String) (savedAt : Fields → Option ℤ)

/-- A written edit drops the profile that the cache keeps. -/
def edited (answer : Fields) : Except Raised Answer := do
  let applied ← field .unhandled (.obj answer) "applied"
  if applied.truthy then
    let username ← field .unhandled (.obj answer) "username"
    let npid ← textOut username
    return .edited answer (some (Saves.playerKey casefold npid))
  else return .edited answer none

def served (request : SaveRequest) (answer : Fields) : Except Raised Answer :=
  match request with
  | .show_ .. => do
    let npid ← field .unhandled (.obj answer) "npid"
    let instant ← (savedAt answer).elim (.error .unhandled) .ok
    return .show_ answer npid instant
  | .backups _ => return .backups answer
  | .log .. => do
    let records ← field .unhandled (.obj answer) "records"
    let items ← iterated records
    let shown ← items.mapM auditRecord
    return .log shown
  | .setRank .. => edited casefold answer
  | .setAccountRank .. => edited casefold answer
  | .floor .. => edited casefold answer
  | .restore .. => edited casefold answer

variable {τ : Type} (jwt : Jwt τ) (settings : TokenSettings) (now : ℤ) (credentials : Option τ) (str : Json → String)
  (api : RpcnApi) (password : String) (request : SaveRequest)

def adminCall : Call Answer :=
  .ofExcept (Admin.signedIn jwt settings now credentials) fun admin =>
    (api.client.post ("/saves/" ++ request.action) (payload api admin.username password request) savesNotConfigured
      savesUnavailable).andThen fun response => do
        let answer ← readAnswer str response
        served casefold savedAt request answer

end

end Tag2now.SaveAdmin
