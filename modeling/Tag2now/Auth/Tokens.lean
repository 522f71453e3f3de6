import Tag2now.Shared.Basics

/-! # Access tokens

Nothing is stored. A token is valid until it expires, and rotating the secret revokes all of
them. What signs and checks them is the JWT library, a parameter; a token is a value of it.
-/
namespace Tag2now.Auth

/-- What RPCN vouches for once the password matched. -/
structure VerifiedAccount where
  username : String
  onlineName : String
  avatarUrl : String
  admin : Bool
  banned : Bool
  deriving DecidableEq

/-- The signed-in user, as recovered from a verified access token. -/
structure AuthUser where
  username : String
  onlineName : String
  avatarUrl : String
  admin : Bool
  deriving DecidableEq

inductive AuthError
  | invalidCredentials (message : String)
  | invalidToken (message : String)
  | accountBanned (message : String)
  | unavailable (message : String)
  deriving DecidableEq

/-- Instants in claims are whole seconds. -/
structure Claims where
  iss : String
  sub : String
  name : String
  avatar : String
  admin : Bool
  iat : ℤ
  exp : ℤ

/-- The claims of a token are there only under a key that its signature fits. -/
structure Jwt (τ : Type) where
  encode : Claims → (key : String) → τ
  verified : τ → (key : String) → Option Claims

/-- The library reads what it wrote. -/
def Jwt.ReadsBack {τ : Type} (jwt : Jwt τ) : Prop :=
  ∀ claims key, jwt.verified (jwt.encode claims key) key = some claims

inductive JwtFault
  | expiredSignature
  | invalidToken

structure TokenSettings where
  jwtSecret : String
  jwtTtlSeconds : ℤ

def issuer : String := "tag2now"

def minSecretBytes : ℕ := 32

def notConfigured : AuthError := .unavailable "로그인이 설정되지 않았습니다."
def expired : AuthError := .invalidToken "로그인이 만료되었습니다. 다시 로그인해 주세요."
def invalid : AuthError := .invalidToken "로그인 정보가 올바르지 않습니다. 다시 로그인해 주세요."
def required : AuthError := .invalidToken "로그인이 필요합니다."

def secret (settings : TokenSettings) : Except AuthError String :=
  if settings.jwtSecret.utf8ByteSize < minSecretBytes then .error notConfigured else .ok settings.jwtSecret

/-- An instant in a claim loses its fraction of a second. -/
def numericDate (t : ℤ) : ℤ := t / second

def claimsOf (user : AuthUser) (issuedAt ttl : ℤ) : Claims where
  iss := issuer
  sub := user.username
  name := user.onlineName
  avatar := user.avatarUrl
  admin := user.admin
  iat := numericDate issuedAt
  exp := numericDate (issuedAt + ttl * second)

section
variable {τ : Type} (jwt : Jwt τ)

def issueToken (settings : TokenSettings) (user : AuthUser) (now : ℤ) : Except AuthError (τ × ℤ) := do
  let ttl := settings.jwtTtlSeconds
  let key ← secret settings
  return (jwt.encode (claimsOf user now ttl) key,ttl)

/-- The library's checks, in its order: the signature, the time of issue, the expiry, the issuer. -/
def decode (now : ℤ) (token : τ) (key : String) : Except JwtFault Claims :=
  match jwt.verified token key with
  | none => .error .invalidToken
  | some claims =>
    if now < claims.iat * second then .error .invalidToken
    else if claims.exp * second ≤ now then .error .expiredSignature
    else if claims.iss ≠ issuer then .error .invalidToken
    else .ok claims

def readToken (settings : TokenSettings) (now : ℤ) (token : τ) : Except AuthError AuthUser := do
  let key ← secret settings
  match decode jwt now token key with
  | .ok claims =>
    return ⟨claims.sub,if claims.name = "" then claims.sub else claims.name,claims.avatar,claims.admin⟩
  | .error .expiredSignature => .error expired
  | .error .invalidToken => .error invalid

/-- The signed-in user, or 401. -/
def currentUser (settings : TokenSettings) (now : ℤ) : (credentials : Option τ) → Except AuthError AuthUser
  | none => .error required
  | some token => readToken jwt settings now token

def AuthUser.of (account : VerifiedAccount) : AuthUser where
  username := account.username
  onlineName := if account.onlineName = "" then account.username else account.onlineName
  avatarUrl := account.avatarUrl
  admin := account.admin

namespace AuthService

/-- What RPCN answered is signed, unless the account is banned. -/
def login (settings : TokenSettings) (now : ℤ) (verified : Except AuthError VerifiedAccount) :
    Except AuthError (τ × ℤ × AuthUser) := do
  let account ← verified
  if account.banned then .error (.accountBanned "이용이 제한된 계정입니다.")
  let user := AuthUser.of account
  let (token,expiresIn) ← issueToken jwt settings user now
  return (token,expiresIn,user)

end AuthService

end

/-! ## Reading what was issued -/
section
variable {τ : Type} {jwt : Jwt τ} {settings : TokenSettings} {now : ℤ}

theorem secret_ok {key : String} (h : secret settings = .ok key) :
    key = settings.jwtSecret ∧ minSecretBytes ≤ settings.jwtSecret.utf8ByteSize := by
  unfold secret at h
  split at h
  · cases h
  · rename_i hlong
    exact ⟨(Except.ok.inj h).symm,Nat.le_of_not_lt hlong⟩

theorem login_ok {verified : Except AuthError VerifiedAccount} {token : τ} {expiresIn : ℤ} {user : AuthUser}
    (h : AuthService.login jwt settings now verified = .ok (token,expiresIn,user)) :
    ∃ account, verified = .ok account ∧ account.banned = false ∧ user = AuthUser.of account ∧
      expiresIn = settings.jwtTtlSeconds ∧ minSecretBytes ≤ settings.jwtSecret.utf8ByteSize ∧
      token = jwt.encode (claimsOf user now settings.jwtTtlSeconds) settings.jwtSecret := by
  unfold AuthService.login at h
  cases verified with
  | error e => cases h
  | ok account =>
    cases hbanned : account.banned with
    | true => simp [bind,Except.bind,hbanned] at h
    | false =>
      unfold issueToken at h
      cases hkey : secret settings with
      | error e => simp [bind,Except.bind,hbanned,hkey] at h
      | ok key =>
        obtain ⟨rfl,hlong⟩ := secret_ok hkey
        simp only [bind,Except.bind,pure,Except.pure,hbanned,hkey,Bool.false_eq_true,if_false,Except.ok.injEq,
          Prod.mk.injEq] at h
        obtain ⟨rfl,rfl,rfl⟩ := h
        exact ⟨account,rfl,hbanned,rfl,rfl,hlong,rfl⟩

theorem readToken_verified {token : τ} {claims : Claims} (hlong : minSecretBytes ≤ settings.jwtSecret.utf8ByteSize)
    (hverified : jwt.verified token settings.jwtSecret = some claims) (hiat : claims.iat * second ≤ now)
    (hiss : claims.iss = issuer) : readToken jwt settings now token =
      if now < claims.exp * second then
        .ok ⟨claims.sub,if claims.name = "" then claims.sub else claims.name,claims.avatar,claims.admin⟩
      else .error expired := by
  have hkey : secret settings = .ok settings.jwtSecret := if_neg (Nat.not_lt.mpr hlong)
  unfold readToken decode
  simp only [bind,Except.bind,hkey,hverified,if_neg (Int.not_lt.mpr hiat),hiss]
  by_cases hexp : now < claims.exp * second
  · rw [if_neg (Int.not_le.mpr hexp),if_pos hexp]
    rfl
  · rw [if_pos (Int.not_lt.mp hexp),if_neg hexp]

theorem readToken_ok {token : τ} {user : AuthUser} (h : readToken jwt settings now token = .ok user) :
    ∃ claims, jwt.verified token settings.jwtSecret = some claims ∧ claims.iat * second ≤ now ∧
      now < claims.exp * second := by
  unfold readToken at h
  cases hkey : secret settings with
  | error e =>
    rw [hkey] at h
    cases h
  | ok key =>
    obtain ⟨rfl,-⟩ := secret_ok hkey
    rw [hkey] at h
    cases hdecode : decode jwt now token settings.jwtSecret with
    | error e => cases e <;> simp [bind,Except.bind,hdecode] at h
    | ok claims =>
      unfold decode at hdecode
      cases hverified : jwt.verified token settings.jwtSecret with
      | none => simp [hverified] at hdecode
      | some found =>
        rw [hverified] at hdecode
        dsimp only at hdecode
        split at hdecode
        · cases hdecode
        · split at hdecode
          · cases hdecode
          · rename_i hiat hexp
            exact ⟨found,rfl,Int.not_lt.mp hiat,Int.not_le.mp hexp⟩

theorem user_claimsOf (account : VerifiedAccount) (issuedAt ttl : ℤ) :
    (⟨(claimsOf (AuthUser.of account) issuedAt ttl).sub,
      if (claimsOf (AuthUser.of account) issuedAt ttl).name = "" then (claimsOf (AuthUser.of account) issuedAt ttl).sub
      else (claimsOf (AuthUser.of account) issuedAt ttl).name,
      (claimsOf (AuthUser.of account) issuedAt ttl).avatar,(claimsOf (AuthUser.of account) issuedAt ttl).admin⟩ :
        AuthUser) = AuthUser.of account := by
  unfold claimsOf AuthUser.of
  by_cases hname : account.onlineName = "" <;> simp [hname]

theorem numericDate_le (t : ℤ) : numericDate t * second ≤ t := by
  unfold numericDate second
  omega

end

end Tag2now.Auth
