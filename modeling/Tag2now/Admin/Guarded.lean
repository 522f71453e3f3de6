import Tag2now.Admin.Service
import Tag2now.Auth.Sessions

/-! # What moderation asks of RPCN and answers to the admin

Nothing is sent but for a signed-in admin, in that admin's own name. A 401 would end the admin's
session, so only a refused token is answered so, whatever RPCN makes of the admin's password.
-/
namespace Tag2now.Admin
open Web Auth

section
variable {α τ : Type} (jwt : Jwt τ) (settings : TokenSettings) (now : ℤ) (credentials : Option τ) (api : RpcnApi)
  (request : AdminActionRequest) (path : String) (allowed : AuthUser → Prop)

/-- RPCN's answer is nested too deep, where it is read. -/
def TooDeep (response : Response) : Prop :=
  (response.statusCode = 200 ∨ response.statusCode = 404) ∧ response.body = .tooDeep

/-- What each status of an endpoint means. -/
structure Guarded (call : Call α) : Prop where
  sent : ∀ message, call.sent = some message → ∃ admin, currentUser jwt settings now credentials = .ok admin ∧
    admin.admin = true ∧ allowed admin ∧
      message = ⟨path,payload api admin.username request.password request.username⟩
  signedOut : ∀ server, httpStatus (call.answer server) = 401 ↔
    ∃ message, currentUser jwt settings now credentials = .error (.invalidToken message)
  refused : ∀ server, httpStatus (call.answer server) = 403 ↔
    (∃ user, currentUser jwt settings now credentials = .ok user ∧ user.admin = false) ∨
      ∃ response, Answered call server response ∧ response.statusCode = 403
  mistaken : ∀ server, httpStatus (call.answer server) = 400 ↔
    (∃ admin, currentUser jwt settings now credentials = .ok admin ∧ admin.admin = true ∧ ¬allowed admin) ∨
      ∃ response, Answered call server response ∧ response.statusCode = 401
  unknown : ∀ server, httpStatus (call.answer server) = 404 ↔
    ∃ response fields, Answered call server response ∧ response.statusCode = 404 ∧
      response.body = .json (.obj fields) ∧ (Json.get fields "error").isStr "user_not_found" = true
  done : ∀ server, httpStatus (call.answer server) = 200 →
    ∃ response fields, Answered call server response ∧ response.statusCode = 200 ∧
      response.body = .json (.obj fields)
  broken : ∀ server, httpStatus (call.answer server) = 500 → ∃ response, Answered call server response ∧
    (TooDeep response ∨ response.statusCode = 200 ∧ ∃ fields, response.body = .json (.obj fields))
  tooDeep : ∀ server response, Answered call server response → TooDeep response →
    httpStatus (call.answer server) = 500

end

/-! ## Parts -/

section
variable {α τ : Type} {jwt : Jwt τ} {settings : TokenSettings} {now : ℤ} {credentials : Option τ}

theorem currentUser_error {e : AuthError} (h : currentUser jwt settings now credentials = .error e) :
    (∃ message, e = .invalidToken message) ∨ ∃ message, e = .unavailable message := by
  cases credentials with
  | none => exact .inl ⟨_,(Except.error.inj h).symm⟩
  | some token =>
    change readToken jwt settings now token = .error e at h
    unfold readToken at h
    cases hsecret : secret settings with
    | error e' =>
      rw [hsecret] at h
      unfold secret at hsecret
      split at hsecret
      · exact .inr ⟨_,(Except.error.inj h).symm.trans (Except.error.inj hsecret).symm⟩
      · cases hsecret
    | ok key =>
      rw [hsecret] at h
      cases hdecode : decode jwt now token key with
      | ok claims => simp [bind,Except.bind,pure,Except.pure,hdecode] at h
      | error fault =>
        refine .inl ?_
        cases fault with
        | expiredSignature =>
          obtain rfl : expired = e := by simpa [bind,Except.bind,hdecode] using h
          exact ⟨_,rfl⟩
        | invalidToken =>
          obtain rfl : invalid = e := by simpa [bind,Except.bind,hdecode] using h
          exact ⟨_,rfl⟩

/-- Who may go on, and why the others may not. -/
inductive SignedIn (jwt : Jwt τ) (settings : TokenSettings) (now : ℤ) (credentials : Option τ) :
    Except Raised AuthUser → Prop
  | refused (message : String) : currentUser jwt settings now credentials = .error (.invalidToken message) →
      SignedIn jwt settings now credentials (.error (.domain .unauthorized message))
  | unavailable (message : String) : currentUser jwt settings now credentials = .error (.unavailable message) →
      SignedIn jwt settings now credentials (.error (.domain .serviceUnavailable message))
  | user (user : AuthUser) : currentUser jwt settings now credentials = .ok user → user.admin = false →
      SignedIn jwt settings now credentials (.error notAdmin)
  | admin (admin : AuthUser) : currentUser jwt settings now credentials = .ok admin → admin.admin = true →
      SignedIn jwt settings now credentials (.ok admin)

theorem signedIn_spec : SignedIn jwt settings now credentials (signedIn jwt settings now credentials) := by
  unfold signedIn
  cases hcurrent : currentUser jwt settings now credentials with
  | error e =>
    rcases currentUser_error hcurrent with ⟨message,rfl⟩ | ⟨message,rfl⟩
    · exact .refused message hcurrent
    · exact .unavailable message hcurrent
  | ok user =>
    cases hadmin : user.admin with
    | false =>
      have hrefused : adminUser user = .error notAdmin := if_neg (by simp [hadmin])
      change SignedIn jwt settings now credentials (adminUser user)
      rw [hrefused]
      exact .user user hcurrent hadmin
    | true =>
      have hadmitted : adminUser user = .ok user := if_pos hadmin
      change SignedIn jwt settings now credentials (adminUser user)
      rw [hadmitted]
      exact .admin user hcurrent hadmin

/-- Why a request is answered without asking anyone, and with which status. -/
inductive Stopped (jwt : Jwt τ) (settings : TokenSettings) (now : ℤ) (credentials : Option τ)
    (allowed : AuthUser → Prop) : ℕ → Prop
  | refused (message : String) : currentUser jwt settings now credentials = .error (.invalidToken message) →
      Stopped jwt settings now credentials allowed 401
  | unavailable (e : AuthError) : currentUser jwt settings now credentials = .error e →
      (∀ message, e ≠ .invalidToken message) → Stopped jwt settings now credentials allowed 502
  | user (user : AuthUser) : currentUser jwt settings now credentials = .ok user → user.admin = false →
      Stopped jwt settings now credentials allowed 403
  | mistaken (admin : AuthUser) : currentUser jwt settings now credentials = .ok admin → admin.admin = true →
      ¬allowed admin → Stopped jwt settings now credentials allowed 400
  | unsent (admin : AuthUser) : currentUser jwt settings now credentials = .ok admin → admin.admin = true →
      allowed admin → Stopped jwt settings now credentials allowed 502

/-- A call of a signed-in admin: it is stopped, or goes on in that admin's name. -/
theorem ofExcept_signedIn {P : Call α → Prop} {allowed : AuthUser → Prop} {rest : AuthUser → Call α}
    (hstopped : ∀ raised : Raised, Stopped jwt settings now credentials allowed raised.status →
      P (.done (.error raised)))
    (hadmin : ∀ admin, currentUser jwt settings now credentials = .ok admin → admin.admin = true → P (rest admin)) :
    P (.ofExcept (signedIn jwt settings now credentials) rest) := by
  have hsigned := @signedIn_spec τ jwt settings now credentials
  generalize signedIn jwt settings now credentials = result at hsigned
  cases hsigned with
  | refused message hcurrent => exact hstopped _ (.refused message hcurrent)
  | unavailable message hcurrent => exact hstopped _ (.unavailable _ hcurrent nofun)
  | user user hcurrent hadmin => exact hstopped notAdmin (.user user hcurrent hadmin)
  | admin admin hcurrent hactive => exact hadmin admin hcurrent hactive

inductive Outcome (body : Json) : Except Raised α → Prop
  | read (a : α) (fields : List (String × Json)) : body = .obj fields → Outcome body (.ok a)
  | unreadable : Outcome body (.error unavailable)
  | unfit (fields : List (String × Json)) : body = .obj fields → Outcome body (.error .unhandled)

/-- An answer is refused by its status, and one of 404 by its code. -/
theorem readAnswer_refused {response : Response} (h200 : response.statusCode ≠ 200)
    (h404 : response.statusCode ≠ 404) : readAnswer response =
      .error (if response.statusCode = 401 then wrongPassword
        else if response.statusCode = 403 then notAdmin else unavailable) := by
  unfold readAnswer raiseForStatus
  rw [if_neg h200]
  split_ifs <;> first | contradiction | rfl

theorem readAnswer_notFound {response : Response} (h : response.statusCode = 404) : readAnswer response =
    (errorCode response >>= fun code =>
      .error (if code.isStr "user_not_found" then accountNotFound else unavailable)) := by
  unfold readAnswer raiseForStatus
  rw [if_neg (by simp [h]),if_neg (by simp [h]),if_neg (by simp [h]),if_pos h]
  cases errorCode response with
  | error e => rfl
  | ok code =>
    simp only [bind,Except.bind]
    by_cases hfound : Json.isStr "user_not_found" code = true
    · simp only [if_pos hfound]
    · simp only [if_neg hfound]

theorem readAnswer_ok {response : Response} (h : response.statusCode = 200) :
    readAnswer response = response.json unavailable := by
  unfold readAnswer raiseForStatus
  rw [if_pos h]
  rfl

theorem readAnswer_tooDeep {response : Response} (h : TooDeep response) : readAnswer response = .error .unhandled := by
  obtain ⟨h200 | h404,hbody⟩ := h
  · rw [readAnswer_ok h200]
    unfold Response.json
    rw [hbody]
  · rw [readAnswer_notFound h404]
    unfold errorCode
    rw [hbody]
    rfl

/-- As from an RPCN whose API is switched off. -/
theorem errorCode_bare {response : Response} (hdeep : response.body ≠ .tooDeep)
    (hbody : ∀ fields, response.body ≠ .json (.obj fields)) : errorCode response = .ok .null := by
  unfold errorCode
  cases hcase : response.body with
  | malformed => rfl
  | tooDeep => exact absurd hcase hdeep
  | json value =>
    cases value with
    | obj fields => exact absurd hcase (hbody fields)
    | _ => rfl

variable {read : Json → Except Raised α}

/-- What RPCN's answer of each status is answered with. -/
structure Passed (response : Response) (status : ℕ) : Prop where
  signedOut : status ≠ 401
  refused : status = 403 ↔ response.statusCode = 403
  mistaken : status = 400 ↔ response.statusCode = 401
  unknown : status = 404 ↔ response.statusCode = 404 ∧ ∃ fields, response.body = .json (.obj fields) ∧
    (Json.get fields "error").isStr "user_not_found" = true
  done : status = 200 → response.statusCode = 200 ∧ ∃ fields, response.body = .json (.obj fields)
  broken : status = 500 →
    TooDeep response ∨ response.statusCode = 200 ∧ ∃ fields, response.body = .json (.obj fields)
  tooDeep : TooDeep response → status = 500

theorem passed_ok (hread : ∀ body, Outcome body (read body)) {response : Response}
    (hstatus : response.statusCode = 200) :
    Passed response (httpStatus (readAnswer response >>= read)) := by
  rw [readAnswer_ok hstatus]
  unfold Response.json
  cases hbody : response.body with
  | malformed =>
    change Passed response 502
    constructor <;> simp [hstatus,hbody,TooDeep]
  | tooDeep =>
    change Passed response 500
    constructor <;> simp [hstatus,hbody,TooDeep]
  | json body =>
    change Passed response (httpStatus (read body))
    have houtcome := hread body
    generalize read body = result at houtcome
    cases houtcome with
    | read a fields hfields =>
      subst hfields
      change Passed response 200
      constructor <;> simp [hstatus,hbody,TooDeep]
    | unreadable =>
      change Passed response 502
      constructor <;> simp [hstatus,hbody,TooDeep]
    | unfit fields hfields =>
      subst hfields
      change Passed response 500
      constructor <;> simp [hstatus,hbody,TooDeep]

theorem passed_notFound {response : Response} (hstatus : response.statusCode = 404) :
    Passed response (httpStatus (readAnswer response >>= read)) := by
  by_cases hdeep : response.body = .tooDeep
  · rw [readAnswer_tooDeep ⟨.inr hstatus,hdeep⟩]
    change Passed response 500
    constructor <;> simp [hstatus,hdeep,TooDeep]
  by_cases hfields : ∃ fields, response.body = .json (.obj fields)
  · obtain ⟨fields,hbody⟩ := hfields
    have hcode : errorCode response = .ok (Json.get fields "error") := by
      unfold errorCode
      rw [hbody]
    rw [readAnswer_notFound hstatus,hcode]
    change Passed response (Raised.status (if (Json.get fields "error").isStr "user_not_found" then _ else _))
    split_ifs with hfound
    · change Passed response 404
      constructor <;> simp [hstatus,hbody,hfound,TooDeep]
    · change Passed response 502
      constructor <;> simp [hstatus,hbody,hfound,TooDeep]
  · have hnone : ∀ fields, response.body ≠ .json (.obj fields) := fun fields hbody => hfields ⟨fields,hbody⟩
    rw [readAnswer_notFound hstatus,errorCode_bare hdeep hnone]
    change Passed response 502
    constructor <;> simp [hstatus,hnone,hdeep,TooDeep]

theorem passed (hread : ∀ body, Outcome body (read body)) (response : Response) :
    Passed response (httpStatus (readAnswer response >>= read)) := by
  by_cases hok : response.statusCode = 200
  · exact passed_ok hread hok
  by_cases hnotFound : response.statusCode = 404
  · exact passed_notFound hnotFound
  rw [readAnswer_refused hok hnotFound]
  change Passed response (Raised.status _)
  split_ifs with h401 h403
  · change Passed response 400
    constructor <;> simp [h401,TooDeep]
  · change Passed response 403
    constructor <;> simp [h403,TooDeep]
  · change Passed response 502
    constructor <;> simp [h401,h403,hok,hnotFound,TooDeep]

end

/-! ## The endpoints -/

section
variable {α τ : Type} {jwt : Jwt τ} {settings : TokenSettings} {now : ℤ} {credentials : Option τ} {api : RpcnApi}
  {request : AdminActionRequest} {path : String} {allowed : AuthUser → Prop}

theorem guarded_done {raised : Raised} (h : Stopped jwt settings now credentials allowed raised.status) :
    Guarded jwt settings now credentials api request path allowed (Call.done (.error raised) : Call α) := by
  have hsent : (Call.done (.error raised) : Call α).sent = none := rfl
  have hanswer : ∀ server, httpStatus ((Call.done (.error raised) : Call α).answer server) = raised.status :=
    fun _ => rfl
  generalize raised.status = status at h hanswer
  cases h with
  | refused message hcurrent => constructor <;> simp [Answered,hsent,hanswer,hcurrent]
  | unavailable e hcurrent hne => constructor <;> simp [Answered,hsent,hanswer,hcurrent,hne]
  | user user hcurrent hadmin => constructor <;> simp [Answered,hsent,hanswer,hcurrent,hadmin]
  | mistaken admin hcurrent hadmin hallowed =>
    constructor <;> simp [Answered,hsent,hanswer,hcurrent,hadmin,hallowed]
  | unsent admin hcurrent hadmin hallowed =>
    constructor <;> simp [Answered,hsent,hanswer,hcurrent,hadmin,hallowed]

/-- A request that is answered as RPCN answers one message. -/
def asking (message : Message) (read : Json → Except Raised α) : Call α :=
  .send message fun response => (response.elim (.error unavailable) .ok >>= readAnswer) >>= read

theorem answered_asking {message : Message} {read : Json → Except Raised α} {server : Message → Option Response}
    {response : Response} : Answered (asking message read) server response ↔ server message = some response := by
  simp [Answered,asking,Call.sent]

theorem asking_passed {message : Message} {read : Json → Except Raised α} (hread : ∀ body, Outcome body (read body))
    (server : Message → Option Response) :
    (server message = none ∧ httpStatus ((asking message read).answer server) = 502) ∨
      ∃ response, server message = some response ∧
        Passed response (httpStatus ((asking message read).answer server)) := by
  have hanswer : (asking message read).answer server =
      ((server message).elim (.error unavailable) .ok >>= readAnswer) >>= read := rfl
  rw [hanswer]
  cases server message with
  | none => exact .inl ⟨rfl,rfl⟩
  | some response => exact .inr ⟨response,rfl,passed hread response⟩

theorem guarded_asking {admin : AuthUser} (huser : currentUser jwt settings now credentials = .ok admin)
    (hadmin : admin.admin = true) (hallowed : allowed admin) {read : Json → Except Raised α}
    (hread : ∀ body, Outcome body (read body)) :
    Guarded jwt settings now credentials api request path allowed
      (asking ⟨path,payload api admin.username request.password request.username⟩ read) := by
  have hpassed := @asking_passed α ⟨path,payload api admin.username request.password request.username⟩ _ hread
  constructor
  · intro message hsent
    exact ⟨admin,huser,hadmin,hallowed,(Option.some.inj hsent).symm⟩
  all_goals
    intro server
    simp only [answered_asking,huser]
    rcases hpassed server with ⟨hnone,hstatus⟩ | ⟨response,hsome,hstatus⟩
  · simp [hstatus]
  · simp [hstatus.signedOut]
  · simp [hnone,hstatus,hadmin]
  · simp [hsome,hstatus.refused,hadmin]
  · simp [hnone,hstatus,hadmin,hallowed]
  · simp [hsome,hstatus.mistaken,hadmin,hallowed]
  · simp [hnone,hstatus]
  · simp [hsome,hstatus.unknown]
  · simp [hstatus]
  · intro h
    obtain ⟨hok,fields,hbody⟩ := hstatus.done h
    exact ⟨response,fields,hsome,hok,hbody⟩
  · simp [hstatus]
  · exact fun h => ⟨response,hsome,hstatus.broken h⟩
  · simp [hnone]
  · intro response' hsome' hdeep
    obtain rfl := Option.some.inj (hsome.symm.trans hsome')
    exact hstatus.tooDeep hdeep

/-- The endpoints but for what is refused first and how the answer is read. -/
theorem guarded_endpoint (hinitialized : api.client.initialized = true) {check : AuthUser → Except Raised Unit}
    (hcheck : ∀ admin, check admin = .ok () ∧ allowed admin ∨ check admin = .error selfBan ∧ ¬allowed admin)
    {read : Json → Except Raised α} (hread : ∀ body, Outcome body (read body)) :
    Guarded jwt settings now credentials api request path allowed
      (.ofExcept (signedIn jwt settings now credentials) fun admin => .ofExcept (check admin) fun _ =>
        (postAs api path admin.username request.password request.username).andThen read) := by
  apply ofExcept_signedIn (P := Guarded jwt settings now credentials api request path allowed)
  · exact fun raised hstopped => guarded_done hstopped
  intro admin hcurrent hadmin
  rcases hcheck admin with ⟨hok,hallowed⟩ | ⟨herror,hallowed⟩
  · rw [hok]
    change Guarded jwt settings now credentials api request path allowed (Call.andThen (Call.andThen _ _) read)
    unfold ApiClient.post
    cases hconfigured : api.client.configured with
    | false =>
      simp only [hinitialized,Bool.not_true,Bool.false_eq_true,if_false,Bool.not_false,if_true]
      exact guarded_done (.unsent admin hcurrent hadmin hallowed)
    | true =>
      simp only [hinitialized,Bool.not_true,Bool.false_eq_true,if_false]
      exact guarded_asking hcurrent hadmin hallowed hread
  · rw [herror]
    exact guarded_done (.mistaken admin hcurrent hadmin hallowed)

end

/-! ## Reading -/

section
variable {α : Type}

theorem readError_fromEpoch (fromTimestamp : FromTimestamp) (seconds : Json) :
    ReadError unavailable (fromEpoch fromTimestamp seconds) := by
  unfold fromEpoch
  split
  · exact readError_ok _
  · split
    · exact readError_ok _
    · exact readError_missing
    · exact readError_unhandled

theorem outcome_of_obj {fields : List (String × Json)} {result : Except Raised α} (h : ReadError unavailable result) :
    Outcome (.obj fields) result := by
  cases result with
  | ok a => exact .read a fields rfl
  | error e =>
    rcases h e rfl with rfl | rfl
    · exact .unreadable
    · exact .unfit fields rfl

end

theorem ban_outcome (body : Json) : Outcome body (toBanResult body >>= banOut) := by
  cases body with
  | obj fields =>
    apply outcome_of_obj
    apply ReadError.bind
    · exact (readError_field _ _).bind fun _ => (readError_field _ _).bind fun _ => readError_ok _
    · exact fun result => (readError_textOut _).bind fun _ => readError_ok _
  | _ => exact .unreadable

theorem lookup_outcome (fromTimestamp : FromTimestamp) (body : Json) :
    Outcome body (toStatus fromTimestamp body >>= statusOut) := by
  cases body with
  | obj fields =>
    apply outcome_of_obj
    apply ReadError.bind
    · exact (readError_field _ _).bind fun _ => (readError_field _ _).bind fun _ => (readError_field _ _).bind fun _ =>
        (readError_field _ _).bind fun _ => (readError_field _ _).bind fun _ =>
          (readError_fromEpoch _ _).bind fun _ => (readError_fromEpoch _ _).bind fun _ => readError_ok _
    · exact fun status => (readError_textOut _).bind fun _ => (readError_textOut _).bind fun _ =>
        (readError_textOut _).bind fun _ => readError_ok _
  | _ => exact .unreadable

end Tag2now.Admin
