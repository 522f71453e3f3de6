import Tag2now.Auth.Sessions
import Tag2now.Collections.Fallible
import Tag2now.Shared.Failures

/-! # Login

RPCN's API server checks the password and answers the account as JSON of any shape; what it
answered is signed. The adapter's account takes any values, the signed user only texts.
-/
namespace Tag2now.Auth
open Web Collections

/-- The handlers of the errors of login and of tokens. -/
def AuthError.raised : AuthError → Raised
  | .invalidCredentials message => .domain .unauthorized message
  | .invalidToken message => .domain .unauthorized message
  | .accountBanned message => .domain .forbidden message
  | .unavailable message => .domain .serviceUnavailable message

def invalidCredentials : Raised := .domain .unauthorized "아이디 또는 비밀번호가 올바르지 않습니다."
def accountBanned : Raised := .domain .forbidden "이용이 제한된 계정입니다."
def loginNotConfigured : Raised := .domain .serviceUnavailable "로그인이 설정되지 않았습니다."
def loginUnavailable : Raised :=
  .domain .serviceUnavailable "로그인 서버에 연결할 수 없습니다. 잠시 후 다시 시도해 주세요."

structure AnsweredAccount where
  username : Json
  onlineName : Json
  avatarUrl : Json
  admin : Bool
  banned : Bool

def toAccount (body : Json) : Except Raised AnsweredAccount := do
  let username ← field loginUnavailable body "username"
  let onlineName ← field loginUnavailable body "online_name"
  return ⟨username,onlineName,fieldOr body "avatar_url" (.str ""),(fieldOr body "admin" (.bool false)).truthy,
    (fieldOr body "banned" (.bool false)).truthy⟩

def readVerified (response : Response) : Except Raised AnsweredAccount :=
  if response.statusCode = 401 then .error invalidCredentials
  else if response.statusCode ≠ 200 then .error loginUnavailable
  else do
    let body ← response.json loginUnavailable
    toAccount body

def verifyPath : String := "/external/users/verify"

def verify (api : RpcnApi) (username password : String) : Call AnsweredAccount :=
  (api.client.post verifyPath [("username",.str username),("password",.str (api.deriveRpcnPassword password))]
    loginNotConfigured loginUnavailable).andThen readVerified

def userOf (account : AnsweredAccount) : Except Raised AuthUser := do
  let username ← textOut account.username
  let onlineName ← textOut (account.onlineName.orElse account.username)
  let avatarUrl ← textOut account.avatarUrl
  return ⟨username,onlineName,avatarUrl,account.admin⟩

section
variable {τ : Type} (jwt : Jwt τ) (settings : TokenSettings) (now : ℤ)

def signIn (account : AnsweredAccount) : Except Raised (τ × ℤ × AuthUser) :=
  if account.banned then .error accountBanned
  else do
    let user ← userOf account
    let (token,expiresIn) ← (issueToken jwt settings user now).mapError AuthError.raised
    return (token,expiresIn,user)

def loginWith (api : RpcnApi) (username password : String) : Call (τ × ℤ × AuthUser) :=
  (verify api username password).andThen (signIn jwt settings now)

end

/-! ## Whom RPCN vouches for -/

/-- The account an answer tells of; a name RPCN does not give is empty. -/
structure Spells (account : AnsweredAccount) (verified : VerifiedAccount) : Prop where
  username : account.username = .str verified.username
  onlineName : account.onlineName = .str verified.onlineName ∨
    account.onlineName.truthy = false ∧ verified.onlineName = ""
  avatarUrl : account.avatarUrl = .str verified.avatarUrl
  admin : account.admin = verified.admin
  banned : account.banned = verified.banned

theorem textOut_ok {value : Json} {s : String} : textOut value = .ok s ↔ value = .str s := by
  cases value <;> simp [textOut]

theorem orElse_of_spells {account : AnsweredAccount} {verified : VerifiedAccount} (h : Spells account verified) :
    account.onlineName.orElse account.username = .str (AuthUser.of verified).onlineName := by
  unfold Json.orElse AuthUser.of
  rcases h.onlineName with hname | ⟨hempty,hname⟩
  · rw [hname,h.username]
    by_cases hblank : verified.onlineName = "" <;> simp [Json.truthy,hblank]
  · simp [hempty,hname,h.username]

theorem exists_spells {account : AnsweredAccount} {username onlineName avatarUrl : String}
    (husername : account.username = .str username)
    (hname : account.onlineName.orElse account.username = .str onlineName)
    (havatar : account.avatarUrl = .str avatarUrl) :
    ∃ verified, Spells account verified ∧ AuthUser.of verified = ⟨username,onlineName,avatarUrl,account.admin⟩ := by
  cases htruthy : account.onlineName.truthy with
  | false =>
    have htyped : username = onlineName := by simpa [Json.orElse,htruthy,husername] using hname
    refine ⟨⟨username,"",avatarUrl,account.admin,account.banned⟩,⟨husername,.inr ⟨htruthy,rfl⟩,havatar,rfl,rfl⟩,?_⟩
    simp [AuthUser.of,htyped]
  | true =>
    have hgiven : account.onlineName = .str onlineName := by simpa [Json.orElse,htruthy] using hname
    have hne : onlineName ≠ "" := by simpa [hgiven,Json.truthy] using htruthy
    refine ⟨⟨username,onlineName,avatarUrl,account.admin,account.banned⟩,⟨husername,.inl hgiven,havatar,rfl,rfl⟩,?_⟩
    simp [AuthUser.of,hne]

theorem userOf_ok {account : AnsweredAccount} {user : AuthUser} :
    userOf account = .ok user ↔ ∃ verified, Spells account verified ∧ AuthUser.of verified = user := by
  constructor
  · intro h
    obtain ⟨username,husername,h⟩ := ok_of_bind h
    obtain ⟨onlineName,hname,h⟩ := ok_of_bind h
    obtain ⟨avatarUrl,havatar,h⟩ := ok_of_bind h
    obtain rfl := Except.ok.inj h
    exact exists_spells (textOut_ok.mp husername) (textOut_ok.mp hname) (textOut_ok.mp havatar)
  · rintro ⟨verified,hspells,rfl⟩
    unfold userOf
    rw [orElse_of_spells hspells,hspells.username,hspells.avatarUrl,hspells.admin]
    rfl

/-- The account that an answer of 200 tells of. -/
def Vouches (body : Json) (verified : VerifiedAccount) : Prop :=
  ∃ account, toAccount body = .ok account ∧ Spells account verified

section
variable {τ : Type} {jwt : Jwt τ} {settings : TokenSettings} {now : ℤ}

/-- What is signed is the account as RPCN vouches for it. -/
theorem signIn_ok {account : AnsweredAccount} {result : τ × ℤ × AuthUser} :
    signIn jwt settings now account = .ok result ↔
      ∃ verified, Spells account verified ∧ AuthService.login jwt settings now (.ok verified) = .ok result := by
  cases hbanned : account.banned with
  | true =>
    have hrefused : signIn jwt settings now account = .error accountBanned := if_pos hbanned
    rw [hrefused]
    constructor
    · nofun
    · rintro ⟨verified,hspells,hlogin⟩
      obtain ⟨_,hverified,hallowed,-⟩ := login_ok hlogin
      obtain rfl := Except.ok.inj hverified
      rw [← hspells.banned,hbanned] at hallowed
      cases hallowed
  | false =>
    unfold signIn AuthService.login
    constructor
    · intro h
      cases huser : userOf account with
      | error e => simp [hbanned,huser,bind,Except.bind] at h
      | ok user =>
        obtain ⟨verified,hspells,rfl⟩ := userOf_ok.mp huser
        have hallowed : verified.banned = false := hspells.banned.symm.trans hbanned
        refine ⟨verified,hspells,?_⟩
        cases hissued : issueToken jwt settings (AuthUser.of verified) now with
        | error e => simp [hbanned,huser,hissued,bind,Except.bind,Except.mapError] at h
        | ok issued => simpa [hbanned,hallowed,huser,hissued,bind,Except.bind,pure,Except.pure,Except.mapError] using h
    · rintro ⟨verified,hspells,h⟩
      have hallowed : verified.banned = false := hspells.banned.symm.trans hbanned
      have huser : userOf account = .ok (AuthUser.of verified) := userOf_ok.mpr ⟨verified,hspells,rfl⟩
      cases hissued : issueToken jwt settings (AuthUser.of verified) now with
      | error e => simp [hallowed,hissued,bind,Except.bind] at h
      | ok issued => simpa [hbanned,hallowed,huser,hissued,bind,Except.bind,pure,Except.pure,Except.mapError] using h

theorem userOf_error {account : AnsweredAccount} {e : Raised} (h : userOf account = .error e) : e = .unhandled := by
  have htexts : ReadError Raised.unhandled (userOf account) := (readError_textOut _).bind fun _ =>
    (readError_textOut _).bind fun _ => (readError_textOut _).bind fun _ => readError_ok _
  exact (htexts e h).elim id id

theorem issueToken_error {user : AuthUser} {e : AuthError} (h : issueToken jwt settings user now = .error e) :
    e = notConfigured := by
  unfold issueToken secret at h
  split at h
  · exact (Except.error.inj h).symm
  · cases h

inductive TurnedAway (account : AnsweredAccount) : Raised → Prop
  | banned : account.banned = true → TurnedAway account accountBanned
  | unnamed : account.banned = false → (¬∃ verified, Spells account verified) → TurnedAway account .unhandled
  | unsigned (verified : VerifiedAccount) : account.banned = false → Spells account verified →
      TurnedAway account notConfigured.raised

theorem signIn_error {account : AnsweredAccount} {e : Raised} (h : signIn jwt settings now account = .error e) :
    TurnedAway account e := by
  unfold signIn at h
  cases hbanned : account.banned with
  | true =>
    rw [if_pos hbanned] at h
    obtain rfl := Except.error.inj h
    exact .banned hbanned
  | false =>
    cases huser : userOf account with
    | error e' =>
      obtain rfl := userOf_error huser
      obtain rfl : Raised.unhandled = e := by simpa [hbanned,huser,bind,Except.bind] using h
      refine .unnamed hbanned ?_
      rintro ⟨verified,hspells⟩
      rw [userOf_ok.mpr ⟨verified,hspells,rfl⟩] at huser
      cases huser
    | ok user =>
      obtain ⟨verified,hspells,rfl⟩ := userOf_ok.mp huser
      cases hissued : issueToken jwt settings (AuthUser.of verified) now with
      | ok issued => simp [hbanned,huser,hissued,bind,Except.bind,pure,Except.pure,Except.mapError] at h
      | error fault =>
        obtain rfl := issueToken_error hissued
        obtain rfl : notConfigured.raised = e := by
          simpa [hbanned,huser,hissued,bind,Except.bind,Except.mapError] using h
        exact .unsigned verified hbanned hspells

theorem toAccount_error {body : Json} {e : Raised} (h : toAccount body = .error e) : e = loginUnavailable := by
  unfold toAccount at h
  cases husername : field loginUnavailable body "username" with
  | error e' =>
    obtain rfl : e' = e := by simpa [husername,bind,Except.bind] using h
    exact field_error husername
  | ok username =>
    cases hname : field loginUnavailable body "online_name" with
    | error e' =>
      obtain rfl : e' = e := by simpa [husername,hname,bind,Except.bind] using h
      exact field_error hname
    | ok onlineName => simp [husername,hname,bind,Except.bind,pure,Except.pure] at h

theorem readVerified_ok {response : Response} {account : AnsweredAccount} :
    readVerified response = .ok account ↔
      response.statusCode = 200 ∧ ∃ body, response.body = .json body ∧ toAccount body = .ok account := by
  unfold readVerified Response.json
  split_ifs with h401 h200
  · simp [h401]
  · simp [h200]
  · cases response.body <;> simp [not_not.mp h200,bind,Except.bind]

inductive Unread (response : Response) : Raised → Prop
  | refused : response.statusCode = 401 → Unread response invalidCredentials
  | unavailable : response.statusCode ≠ 401 → ¬ (response.statusCode = 200 ∧ response.body = .tooDeep) →
      Unread response loginUnavailable
  | tooDeep : response.statusCode = 200 → response.body = .tooDeep → Unread response .unhandled

theorem readVerified_error {response : Response} {e : Raised} (h : readVerified response = .error e) :
    Unread response e := by
  unfold readVerified Response.json at h
  split_ifs at h with h401 h200
  · obtain rfl := Except.error.inj h
    exact .refused h401
  · obtain rfl := Except.error.inj h
    exact .unavailable h401 fun hdeep => h200 hdeep.1
  · cases hbody : response.body with
    | malformed =>
      rw [hbody] at h
      obtain rfl := Except.error.inj h
      exact .unavailable h401 (by simp [hbody])
    | tooDeep =>
      rw [hbody] at h
      obtain rfl := Except.error.inj h
      exact .tooDeep (not_not.mp h200) hbody
    | json body =>
      rw [hbody] at h
      obtain rfl := toAccount_error h
      exact .unavailable h401 (by simp [hbody])

variable {api : RpcnApi} {username password : String}

theorem sent_loginWith {message : Message}
    (h : (loginWith jwt settings now api username password).sent = some message) :
    message = ⟨verifyPath,[("username",.str username),("password",.str (api.deriveRpcnPassword password))]⟩ := by
  unfold loginWith verify at h
  rw [Call.sent_andThen,Call.sent_andThen] at h
  exact (ApiClient.sent_post h).2.2

/-- With a client that the lifespan opened, a login is answered by what RPCN answers, or not at all. -/
theorem answer_loginWith (hinitialized : api.client.initialized = true) (server : Message → Option Response) :
    (∃ message, (loginWith jwt settings now api username password).answer server =
        .error (.domain .serviceUnavailable message) ∧
      ∀ response, ¬Answered (loginWith jwt settings now api username password) server response) ∨
    ∃ response, (∀ r, Answered (loginWith jwt settings now api username password) server r ↔ r = response) ∧
      (loginWith jwt settings now api username password).answer server =
        readVerified response >>= signIn jwt settings now := by
  unfold Answered loginWith verify ApiClient.post
  simp only [hinitialized,Bool.not_true,Bool.false_eq_true,if_false,Call.sent_andThen,Call.answer_andThen]
  cases api.client.configured with
  | false => exact .inl ⟨_,rfl,by simp [Call.sent]⟩
  | true =>
    cases hanswer : server ⟨verifyPath,[("username",.str username),
      ("password",.str (api.deriveRpcnPassword password))]⟩ with
    | none => exact .inl ⟨_,by simp [Call.answer,hanswer,bind,Except.bind]; rfl,by simp [Call.sent,hanswer]⟩
    | some response =>
      refine .inr ⟨response,?_,?_⟩
      · simp [Call.sent,hanswer,eq_comm]
      · simp [Call.answer,hanswer,bind,Except.bind]

theorem issued_iff {response : Response} {result : τ × ℤ × AuthUser} :
    (readVerified response >>= signIn jwt settings now) = .ok result ↔ response.statusCode = 200 ∧
      ∃ body verified, response.body = .json body ∧ Vouches body verified ∧
        AuthService.login jwt settings now (.ok verified) = .ok result := by
  constructor
  · intro h
    obtain ⟨account,hread,h⟩ := ok_of_bind h
    obtain ⟨hok,body,hjson,haccount⟩ := readVerified_ok.mp hread
    obtain ⟨verified,hspells,hlogin⟩ := signIn_ok.mp h
    exact ⟨hok,body,verified,hjson,⟨account,haccount,hspells⟩,hlogin⟩
  · rintro ⟨hok,body,verified,hjson,⟨account,haccount,hspells⟩,hlogin⟩
    rw [readVerified_ok.mpr ⟨hok,body,hjson,haccount⟩]
    exact signIn_ok.mpr ⟨verified,hspells,hlogin⟩

/-- What each status of such an answer means. -/
structure Told (response : Response) (result : Except Raised (τ × ℤ × AuthUser)) : Prop where
  refused : httpStatus result = 401 ↔ response.statusCode = 401
  banned : httpStatus result = 403 ↔ response.statusCode = 200 ∧ ∃ body account, response.body = .json body ∧
    toAccount body = .ok account ∧ account.banned = true
  broken : httpStatus result = 500 ↔ response.statusCode = 200 ∧ (response.body = .tooDeep ∨
    ∃ body account, response.body = .json body ∧ toAccount body = .ok account ∧ account.banned = false ∧
      ¬∃ verified, Spells account verified)

theorem told (response : Response) : Told response (readVerified response >>= signIn jwt settings now) := by
  cases hread : readVerified response with
  | error e =>
    have hnone : ¬∃ account, readVerified response = .ok account := by simp [hread]
    simp only [readVerified_ok] at hnone
    cases readVerified_error hread with
    | refused hstatus =>
      change Told response (.error invalidCredentials)
      constructor <;> simp [httpStatus,invalidCredentials,Raised.status,DomainError.status,hstatus]
    | tooDeep hok hdeep =>
      change Told response (.error .unhandled)
      constructor <;> simp [httpStatus,Raised.status,hok,hdeep]
    | unavailable hstatus hdeep =>
      have hstopped : httpStatus (.error loginUnavailable : Except Raised (τ × ℤ × AuthUser)) = 502 := rfl
      change Told response (.error loginUnavailable)
      constructor
      · simp [hstopped,hstatus]
      · rw [hstopped]
        refine iff_of_false (by decide) ?_
        rintro ⟨hok,body,account,hbody,haccount,-⟩
        exact hnone ⟨account,hok,body,hbody,haccount⟩
      · rw [hstopped]
        refine iff_of_false (by decide) ?_
        rintro ⟨hok,hbody | ⟨body,account,hbody,haccount,-⟩⟩
        · exact hdeep ⟨hok,hbody⟩
        · exact hnone ⟨account,hok,body,hbody,haccount⟩
  | ok account =>
    obtain ⟨hok,body,hjson,haccount⟩ := readVerified_ok.mp hread
    change Told response (signIn jwt settings now account)
    cases hsigned : signIn jwt settings now account with
    | ok result =>
      obtain ⟨verified,hspells,hlogin⟩ := signIn_ok.mp hsigned
      obtain ⟨_,hverified,hallowed,-⟩ := login_ok hlogin
      obtain rfl := Except.ok.inj hverified
      rw [← hspells.banned] at hallowed
      constructor <;> simp [httpStatus,hok,hjson,haccount,hallowed]
      exact ⟨_,hspells⟩
    | error e =>
      cases signIn_error hsigned with
      | banned hbanned =>
        constructor <;> simp [httpStatus,accountBanned,Raised.status,DomainError.status,hok,hjson,haccount,hbanned]
      | unnamed hbanned hunnamed =>
        constructor <;> simp [httpStatus,Raised.status,hok,hjson,haccount,hbanned]
        simpa using hunnamed
      | unsigned verified hbanned hspells =>
        have hstopped : httpStatus (.error notConfigured.raised : Except Raised (τ × ℤ × AuthUser)) = 502 := rfl
        constructor <;> simp [hstopped,hok,hjson,haccount,hbanned]
        exact ⟨verified,hspells⟩

end

/-- What a login asks of RPCN and what becomes of what RPCN answers. -/
structure LoggedIn {τ : Type} (jwt : Jwt τ) (settings : TokenSettings) (now : ℤ) (api : RpcnApi)
    (username password : String) (call : Call (τ × ℤ × AuthUser)) : Prop where
  sent : ∀ message, call.sent = some message →
    message = ⟨verifyPath,[("username",.str username),("password",.str (api.deriveRpcnPassword password))]⟩
  issued : ∀ server result, call.answer server = .ok result ↔ ∃ response body verified, Answered call server response ∧
    response.statusCode = 200 ∧ response.body = .json body ∧ Vouches body verified ∧
      AuthService.login jwt settings now (.ok verified) = .ok result
  refused : ∀ server, httpStatus (call.answer server) = 401 ↔
    ∃ response, Answered call server response ∧ response.statusCode = 401
  banned : ∀ server, httpStatus (call.answer server) = 403 ↔ ∃ response body account, Answered call server response ∧
    response.statusCode = 200 ∧ response.body = .json body ∧ toAccount body = .ok account ∧ account.banned = true
  /-- The answer is nested too deep, or the account has a field that is no text. -/
  broken : ∀ server, httpStatus (call.answer server) = 500 ↔ ∃ response, Answered call server response ∧
    response.statusCode = 200 ∧ (response.body = .tooDeep ∨ ∃ body account, response.body = .json body ∧
      toAccount body = .ok account ∧ account.banned = false ∧ ¬∃ verified, Spells account verified)

/-- A token is issued just for the account that RPCN vouches for, in RPCN's spelling. -/
theorem login_vouched {τ : Type} (jwt : Jwt τ) (settings : TokenSettings) (now : ℤ) (api : RpcnApi)
    (hinitialized : api.client.initialized = true) (username password : String) :
    LoggedIn jwt settings now api username password (loginWith jwt settings now api username password) := by
  refine ⟨fun _ h => sent_loginWith h,?_,?_,?_,?_⟩
  all_goals
    intro server
    rcases @answer_loginWith τ jwt settings now api username password hinitialized server with
      ⟨message,hanswer,hnone⟩ | ⟨response,hanswered,hanswer⟩
  · intro result
    simp [hanswer,hnone]
  · intro result
    rw [hanswer,issued_iff]
    simp [hanswered]
  · simp [hanswer,hnone,httpStatus,Raised.status,DomainError.status]
  · rw [hanswer,(told response).refused]
    simp [hanswered]
  · simp [hanswer,hnone,httpStatus,Raised.status,DomainError.status]
  · rw [hanswer,(told response).banned]
    simp [hanswered]
  · simp [hanswer,hnone,httpStatus,Raised.status,DomainError.status]
  · rw [hanswer,(told response).broken]
    simp [hanswered]

/-! RPCN spells Alice's name its own way and gives her no other. -/

def aliceBody : Json := .obj [("username",.str "Alice"),("online_name",.str ""),("admin",.bool true)]

def aliceApi : RpcnApi := ⟨⟨"http://rpcn:31315","key",true⟩,id⟩

theorem login_vouched_alice : httpStatus ((loginWith pairs aWeek 0 aliceApi "alice" "pw").answer fun _ =>
    some ⟨403,.malformed⟩) ≠ 403 ∧ ∃ token, (loginWith pairs aWeek 0 aliceApi "alice" "pw").answer (fun _ =>
      some ⟨200,.json aliceBody⟩) = .ok (token,7 * 24 * 3600,⟨"Alice","Alice","",true⟩) := by
  have h := login_vouched pairs aWeek 0 aliceApi rfl "alice" "pw"
  constructor
  · intro hstatus
    obtain ⟨response,body,account,⟨message,-,hserver⟩,hok,-⟩ := (h.banned _).mp hstatus
    obtain rfl := Option.some.inj hserver
    cases hok
  · have haccount : toAccount aliceBody = .ok ⟨.str "Alice",.str "",.str "",true,false⟩ := rfl
    have hvouches : Vouches aliceBody ⟨"Alice","","",true,false⟩ :=
      ⟨_,haccount,⟨rfl,.inl rfl,rfl,rfl,rfl⟩⟩
    exact ⟨_,(h.issued _ _).mpr ⟨⟨200,.json aliceBody⟩,aliceBody,_,⟨_,rfl,rfl⟩,rfl,rfl,hvouches,rfl⟩⟩

end Tag2now.Auth
