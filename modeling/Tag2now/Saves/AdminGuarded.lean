import Tag2now.Admin.Guarded
import Tag2now.Collections.Fallible
import Tag2now.Saves.AdminCalls

/-! # What an admin's call of the save server may end in

Nothing is sent but for a signed-in admin. Each status that an admin can act on has its codes, and
no refusal is a 401. What is shown of the audit log tells no path.
-/
namespace Tag2now.SaveAdmin
open Web Auth Collections

def mistaken : List String := ["invalid_credentials","ambiguous_user","invalid_request"]
def unknown : List String := ["user_not_found","save_not_found","backup_not_found"]
def conflicting : List String := ["online","save_changed","likely_demoted"]

def RefusedWith (response : Response) (code : String) : Prop :=
  response.statusCode ≠ 200 ∧ ∃ answer, response.body = .json (.obj answer) ∧ Json.get answer "error" = .str code

/-! ## Refusals -/

theorem answerOf_some {response : Response} {answer : Fields} :
    answerOf response = .ok (some answer) ↔ response.body = .json (.obj answer) := by
  unfold answerOf
  cases response.body with
  | json value => cases value <;> simp
  | _ => simp

theorem answerOf_none {response : Response} (h : answerOf response = .ok none) :
    ∀ answer, response.body ≠ .json (.obj answer) := by
  intro answer hbody
  rw [answerOf_some.mpr hbody] at h
  cases h

theorem answerOf_error {response : Response} {e : Raised} (h : answerOf response = .error e) :
    response.body = .tooDeep ∧ e = .unhandled := by
  unfold answerOf at h
  cases hbody : response.body with
  | tooDeep =>
    rw [hbody] at h
    exact ⟨rfl,(Except.error.inj h).symm⟩
  | malformed =>
    rw [hbody] at h
    cases h
  | json value =>
    rw [hbody] at h
    cases value <;> cases h

theorem readAnswer_tooDeep {response : Response} (str : Json → String) (h : response.body = .tooDeep) :
    readAnswer str response = .error .unhandled := by
  unfold readAnswer answerOf
  rw [h]
  rfl

structure Coded (code : String) (status : ℕ) : Prop where
  signedOut : status ≠ 401
  forbidden : status = 403 ↔ code = "forbidden"
  mistaken : status = 400 ↔ code ∈ mistaken
  unknown : status = 404 ↔ code ∈ unknown
  conflicting : status = 409 ↔ code ∈ conflicting

theorem coded_refusalOf (str : Json → String) (code : String) (message : Json) :
    Coded code (refusalOf str code message).status := by
  by_cases hknown : code ∈ refusals.map (·.1)
  · simp only [refusals,List.map_cons,List.map_nil,List.mem_cons,List.not_mem_nil,or_false] at hknown
    rcases hknown with rfl | rfl | rfl | rfl | rfl | rfl | rfl | rfl | rfl | rfl | rfl <;>
      constructor <;> simp [refusalOf,refusals,Raised.status,DomainError.status,mistaken,unknown,conflicting]
  · have hnone : (refusals.find? fun e => e.1 = code) = none := by
      rw [List.find?_eq_none]
      intro e he hcode
      exact hknown (List.mem_map.mpr ⟨e,he,of_decide_eq_true hcode⟩)
    have hstatus : (refusalOf str code message).status = if code = "invalid_request" then 400 else 502 := by
      unfold refusalOf
      rw [hnone]
      by_cases hrule : code = "invalid_request" <;> simp [hrule,savesUnavailable,Raised.status,DomainError.status]
    simp only [refusals,List.map_cons,List.map_nil,List.mem_cons,List.not_mem_nil,or_false,not_or] at hknown
    rw [hstatus]
    by_cases hrule : code = "invalid_request"
    · subst hrule
      constructor <;> simp [mistaken,unknown,conflicting]
    · constructor <;> simp [mistaken,unknown,conflicting,hknown,hrule]

/-- What an answer is ended with, whether it is refused or not. -/
structure Told (response : Response) (status : ℕ) : Prop where
  signedOut : status ≠ 401
  forbidden : status = 403 ↔ RefusedWith response "forbidden"
  mistaken : status = 400 ↔ ∃ code ∈ mistaken, RefusedWith response code
  unknown : status = 404 ↔ ∃ code ∈ unknown, RefusedWith response code
  conflicting : status = 409 ↔ ∃ code ∈ conflicting, RefusedWith response code

theorem told_coded {response : Response} {code : String} {status : ℕ} (hrefused : RefusedWith response code)
    (h : Coded code status) : Told response status := by
  obtain ⟨hne,answer,hanswer,hcode⟩ := hrefused
  have honly : ∀ c, RefusedWith response c ↔ code = c := by
    intro c
    simp [RefusedWith,hne,hanswer,hcode]
  constructor
  · exact h.signedOut
  · rw [h.forbidden,honly]
  all_goals simp only [honly,h.mistaken,h.unknown,h.conflicting,exists_eq_right']

theorem told_uncoded {response : Response} {status : ℕ} (hnone : ∀ code, ¬RefusedWith response code)
    (h : status = 200 ∨ status = 500 ∨ status = 502) : Told response status := by
  rcases h with rfl | rfl | rfl <;> constructor <;> simp [hnone]

section
variable {casefold : String → String} {savedAt : Fields → Option ℤ} {str : Json → String} {request : SaveRequest}
  {missing : Raised}

theorem readError_mapM {α β : Type} {f : α → Except Raised β} (h : ∀ a, ReadError missing (f a)) (xs : List α) :
    ReadError missing (xs.mapM f) := by
  induction xs with
  | nil => exact readError_ok []
  | cons x xs ih =>
    rw [List.mapM_cons]
    exact (h x).bind fun _ => ih.bind fun _ => readError_ok _

theorem readError_map {α β : Type} {result : Except Raised α} (h : ReadError missing result) (f : α → β) :
    ReadError missing (result.map f) := by
  cases result with
  | error e => exact fun e' he => h e' (congrArg Except.error (Except.error.inj he))
  | ok a => exact readError_ok _

theorem readError_detail (entry : String × Json) : ReadError .unhandled (detail entry) := by
  unfold detail label
  split
  · exact readError_map ((readError_textOut _).bind fun _ => readError_ok _) _
  · exact readError_ok _

theorem readError_auditRecord (record : Json) : ReadError .unhandled (auditRecord record) := by
  cases record with
  | obj fields =>
    exact (readError_mapM readError_detail _).bind fun _ => (readError_field _ _).bind fun _ =>
      (readError_field _ _).bind fun _ => (readError_field _ _).bind fun _ => (readError_field _ _).bind fun _ =>
        readError_ok _
  | _ => exact readError_unhandled

theorem readError_iterated (value : Json) : ReadError .unhandled (iterated value) := by
  cases value with
  | arr _ => exact readError_ok _
  | obj _ => exact readError_ok _
  | str _ => exact readError_ok _
  | _ => exact readError_unhandled

theorem readError_edited (answer : Fields) : ReadError .unhandled (edited casefold answer) := by
  unfold edited
  refine (readError_field _ _).bind fun applied => ?_
  split
  · exact (readError_field _ _).bind fun _ => (readError_textOut _).bind fun _ => readError_ok _
  · exact readError_ok _

theorem readError_served (answer : Fields) : ReadError .unhandled (served casefold savedAt request answer) := by
  cases request with
  | show_ =>
    refine (readError_field _ _).bind fun _ => ReadError.bind ?_ fun _ => readError_ok _
    cases savedAt answer with
    | none => exact readError_unhandled
    | some t => exact readError_ok t
  | backups => exact readError_ok _
  | log =>
    exact (readError_field _ _).bind fun _ => (readError_iterated _).bind fun _ =>
      (readError_mapM readError_auditRecord _).bind fun _ => readError_ok _
  | setRank => exact readError_edited answer
  | setAccountRank => exact readError_edited answer
  | floor => exact readError_edited answer
  | restore => exact readError_edited answer

theorem told (response : Response) :
    Told response (httpStatus (readAnswer str response >>= served casefold savedAt request)) := by
  cases hread : answerOf response with
  | error e =>
    obtain ⟨hdeep,rfl⟩ := answerOf_error hread
    rw [readAnswer_tooDeep str hdeep]
    exact told_uncoded (by simp [RefusedWith,hdeep]) (.inr (.inl rfl))
  | ok found =>
    cases found with
    | none =>
      have hnone := answerOf_none hread
      have hanswer : readAnswer str response = .error savesUnavailable := by
        simp [readAnswer,hread,refusal,Json.get,bind,Except.bind]
      rw [hanswer]
      exact told_uncoded (by simp [RefusedWith,hnone]) (.inr (.inr rfl))
    | some answer =>
      have hbody := answerOf_some.mp hread
      by_cases hstatus : response.statusCode = 200
      · have hanswer : readAnswer str response = .ok answer := by simp [readAnswer,hread,hstatus,bind,Except.bind]
        have hbind : (.ok answer >>= served casefold savedAt request) = served casefold savedAt request answer := rfl
        rw [hanswer,hbind]
        refine told_uncoded (by simp [RefusedWith,hstatus]) ?_
        cases hserved : served casefold savedAt request answer with
        | ok a => exact .inl rfl
        | error e =>
          obtain rfl : e = .unhandled := (readError_served answer e hserved).elim id id
          exact .inr (.inl rfl)
      · have hanswer : readAnswer str response = .error (refusal str answer) := by
          simp [readAnswer,hread,hstatus,bind,Except.bind]
        rw [hanswer]
        change Told response (refusal str answer).status
        cases hcode : Json.get answer "error" with
        | str code =>
          have hrefusal : refusal str answer = refusalOf str code (fieldOr (.obj answer) "message" (.str "")) := by
            simp [refusal,hcode]
          rw [hrefusal]
          exact told_coded ⟨hstatus,answer,hbody,hcode⟩ (coded_refusalOf str code _)
        | arr _ | obj _ =>
          refine told_uncoded (by simp [RefusedWith,hbody,hcode]) ?_
          simp [refusal,hcode,Raised.status]
        | _ =>
          refine told_uncoded (by simp [RefusedWith,hbody,hcode]) ?_
          simp [refusal,hcode,savesUnavailable,Raised.status,DomainError.status]

end

/-! ## What is sent and what is shown -/

theorem payload_names (api : RpcnApi) (adminUsername adminPassword : String) (request : SaveRequest) :
    ((payload api adminUsername adminPassword request).map (·.1)).Nodup ∧
      "password" ∉ (payload api adminUsername adminPassword request).map (·.1) := by
  cases request with
  | show_ username allChars => simp [payload,SaveRequest.modelDump]
  | backups username => simp [payload,SaveRequest.modelDump]
  | log username n => cases username <;> simp [payload,SaveRequest.modelDump,given]
  | setRank write char rank points =>
    obtain ⟨username,dryRun,expectSha256⟩ := write
    cases expectSha256 <;> cases points <;>
      simp [payload,SaveRequest.modelDump,SaveWriteRequest.modelDump,given]
  | setAccountRank write rank =>
    obtain ⟨username,dryRun,expectSha256⟩ := write
    cases expectSha256 <;> simp [payload,SaveRequest.modelDump,SaveWriteRequest.modelDump,given]
  | floor write rank fixPoints refloor =>
    obtain ⟨username,dryRun,expectSha256⟩ := write
    cases expectSha256 <;> cases rank <;>
      simp [payload,SaveRequest.modelDump,SaveWriteRequest.modelDump,given]
  | restore write label =>
    obtain ⟨username,dryRun,expectSha256⟩ := write
    cases expectSha256 <;> simp [payload,SaveRequest.modelDump,SaveWriteRequest.modelDump,given]

theorem slash_notMem_basename (path : List Char) : '/' ∉ basename path := by
  intro h
  simpa using List.mem_rtakeWhile_imp h

theorem splitextRoot_subset (name : List Char) : splitextRoot name ⊆ name := by
  have hroot : (name.rdropWhile (· ≠ '.')).dropLast ⊆ name :=
    ((List.dropLast_prefix _).trans (List.rdropWhile_prefix _ _)).subset
  unfold splitextRoot
  dsimp only
  split
  · exact List.Subset.refl name
  · exact hroot

theorem label_ok {path shown : Json} (h : label path = .ok shown) : ∃ s, shown = .str s ∧ '/' ∉ s.toList := by
  obtain ⟨text,-,h⟩ := ok_of_bind h
  obtain rfl := Except.ok.inj h
  refine ⟨_,rfl,fun hslash => slash_notMem_basename text.toList (splitextRoot_subset _ ?_)⟩
  simpa using hslash

theorem detail_ok {entry shown : String × Json} (h : detail entry = .ok shown) (hpath : shown.1 ∈ pathFields) :
    ∃ s, shown.2 = .str s ∧ '/' ∉ s.toList := by
  unfold detail at h
  split at h
  · cases hlabel : label entry.2 with
    | error e =>
      rw [hlabel] at h
      cases h
    | ok value =>
      rw [hlabel] at h
      obtain rfl := Except.ok.inj h
      exact label_ok hlabel
  · rename_i hother
    obtain rfl := Except.ok.inj h
    exact absurd hpath hother

/-- No path of the host. -/
def AuditRecord.Pathless (record : AuditRecord) : Prop :=
  ∀ e ∈ record.details, e.1 ∈ pathFields → ∃ s, e.2 = .str s ∧ '/' ∉ s.toList

theorem auditRecord_pathless {value : Json} {record : AuditRecord} (h : auditRecord value = .ok record) :
    record.Pathless := by
  cases value with
  | obj fields =>
    obtain ⟨details,hdetails,h⟩ := ok_of_bind h
    obtain ⟨ts,-,h⟩ := ok_of_bind h
    obtain ⟨user,-,h⟩ := ok_of_bind h
    obtain ⟨action,-,h⟩ := ok_of_bind h
    obtain ⟨npid,-,h⟩ := ok_of_bind h
    obtain rfl := Except.ok.inj h
    intro e he
    obtain ⟨entry,-,hentry⟩ := exists_of_mapM hdetails he
    exact detail_ok hentry
  | _ => cases h

section
variable {casefold : String → String} {savedAt : Fields → Option ℤ} {request : SaveRequest}

theorem edited_log {answer : Fields} {records : List AuditRecord} : edited casefold answer ≠ .ok (.log records) := by
  intro h
  obtain ⟨applied,-,h⟩ := ok_of_bind h
  split at h
  · obtain ⟨username,-,h⟩ := ok_of_bind h
    obtain ⟨npid,-,h⟩ := ok_of_bind h
    cases h
  · cases h

theorem served_log {answer : Fields} {records : List AuditRecord}
    (h : served casefold savedAt request answer = .ok (.log records)) : ∀ record ∈ records, record.Pathless := by
  cases request with
  | show_ =>
    obtain ⟨npid,-,h⟩ := ok_of_bind h
    obtain ⟨instant,-,h⟩ := ok_of_bind h
    cases h
  | backups => cases h
  | log =>
    obtain ⟨value,-,h⟩ := ok_of_bind h
    obtain ⟨items,-,h⟩ := ok_of_bind h
    obtain ⟨shown,hshown,h⟩ := ok_of_bind h
    obtain rfl := Answer.log.inj (Except.ok.inj h)
    intro record hrecord
    obtain ⟨value,-,hvalue⟩ := exists_of_mapM hshown hrecord
    exact auditRecord_pathless hvalue
  | setRank => exact absurd h edited_log
  | setAccountRank => exact absurd h edited_log
  | floor => exact absurd h edited_log
  | restore => exact absurd h edited_log

/-- The cache drops the profile of the account that the save server names, and only for what it wrote. -/
def Drops (casefold : String → String) (answer : Fields) (dropped : Option Saves.Key) : Prop :=
  ∃ applied, field .unhandled (.obj answer) "applied" = .ok applied ∧
    (applied.truthy = false ∧ dropped = none ∨ applied.truthy = true ∧
      ∃ npid, field .unhandled (.obj answer) "username" = .ok (.str npid) ∧
        dropped = some (Saves.playerKey casefold npid))

theorem edited_ok {answer answer' : Fields} {dropped : Option Saves.Key}
    (h : edited casefold answer = .ok (.edited answer' dropped)) :
    answer' = answer ∧ Drops casefold answer dropped := by
  obtain ⟨applied,happlied,h⟩ := ok_of_bind h
  split at h
  · rename_i hwritten
    obtain ⟨username,husername,h⟩ := ok_of_bind h
    obtain ⟨npid,hnpid,h⟩ := ok_of_bind h
    obtain rfl := textOut_ok.mp hnpid
    obtain ⟨rfl,rfl⟩ := Answer.edited.inj (Except.ok.inj h)
    exact ⟨rfl,applied,happlied,.inr ⟨hwritten,npid,husername,rfl⟩⟩
  · rename_i hpreview
    obtain ⟨rfl,rfl⟩ := Answer.edited.inj (Except.ok.inj h)
    exact ⟨rfl,applied,happlied,.inl ⟨by simpa using hpreview,rfl⟩⟩

theorem served_edited {answer answer' : Fields} {dropped : Option Saves.Key}
    (h : served casefold savedAt request answer = .ok (.edited answer' dropped)) :
    answer' = answer ∧ Drops casefold answer dropped := by
  cases request with
  | show_ =>
    obtain ⟨npid,-,h⟩ := ok_of_bind h
    obtain ⟨instant,-,h⟩ := ok_of_bind h
    cases h
  | backups => cases h
  | log =>
    obtain ⟨value,-,h⟩ := ok_of_bind h
    obtain ⟨items,-,h⟩ := ok_of_bind h
    obtain ⟨shown,-,h⟩ := ok_of_bind h
    cases h
  | setRank => exact edited_ok h
  | setAccountRank => exact edited_ok h
  | floor => exact edited_ok h
  | restore => exact edited_ok h

end

/-! ## The calls -/

section
variable {τ : Type} (jwt : Jwt τ) (settings : TokenSettings) (now : ℤ) (credentials : Option τ) (api : RpcnApi)
  (password : String) (request : SaveRequest) (casefold : String → String)

def Refuses (call : Call Answer) (server : Message → Option Response) (code : String) : Prop :=
  ∃ response, Answered call server response ∧ RefusedWith response code

structure Guarded (call : Call Answer) : Prop where
  sent : ∀ message, call.sent = some message → (∃ admin, currentUser jwt settings now credentials = .ok admin ∧
    admin.admin = true ∧ message = ⟨"/saves/" ++ request.action,payload api admin.username password request⟩) ∧
      (message.body.map (·.1)).Nodup ∧ "password" ∉ message.body.map (·.1)
  signedOut : ∀ server, httpStatus (call.answer server) = 401 ↔
    ∃ message, currentUser jwt settings now credentials = .error (.invalidToken message)
  forbidden : ∀ server, httpStatus (call.answer server) = 403 ↔
    (∃ user, currentUser jwt settings now credentials = .ok user ∧ user.admin = false) ∨ Refuses call server "forbidden"
  mistaken : ∀ server, httpStatus (call.answer server) = 400 ↔ ∃ code ∈ mistaken, Refuses call server code
  unknown : ∀ server, httpStatus (call.answer server) = 404 ↔ ∃ code ∈ unknown, Refuses call server code
  conflicting : ∀ server, httpStatus (call.answer server) = 409 ↔ ∃ code ∈ conflicting, Refuses call server code
  pathless : ∀ server records, call.answer server = .ok (.log records) → ∀ record ∈ records, record.Pathless
  edited : ∀ server answer dropped, call.answer server = .ok (.edited answer dropped) → Drops casefold answer dropped ∧
    ∃ response, Answered call server response ∧ response.statusCode = 200 ∧ response.body = .json (.obj answer)
  /-- Whatever its status. -/
  tooDeep : ∀ server response, Answered call server response → response.body = .tooDeep →
    httpStatus (call.answer server) = 500

end

section
variable {τ : Type} {jwt : Jwt τ} {settings : TokenSettings} {now : ℤ} {credentials : Option τ} {api : RpcnApi}
  {password : String} {request : SaveRequest} {casefold : String → String} {savedAt : Fields → Option ℤ}
  {str : Json → String}

theorem guarded_done {raised : Raised}
    (h : Admin.Stopped jwt settings now credentials (fun _ => True) raised.status) :
    Guarded jwt settings now credentials api password request casefold (.done (.error raised)) := by
  have hsent : (Call.done (.error raised) : Call Answer).sent = none := rfl
  have hanswer : ∀ server, (Call.done (.error raised) : Call Answer).answer server = .error raised := fun _ => rfl
  generalize hstatus : raised.status = status at h
  cases h with
  | refused message hcurrent => constructor <;> simp [Refuses,Answered,hsent,hanswer,httpStatus,hstatus,hcurrent]
  | unavailable e hcurrent hne =>
    constructor <;> simp [Refuses,Answered,hsent,hanswer,httpStatus,hstatus,hcurrent,hne]
  | user user hcurrent hadmin =>
    constructor <;> simp [Refuses,Answered,hsent,hanswer,httpStatus,hstatus,hcurrent,hadmin]
  | mistaken admin hcurrent hadmin hnot => exact absurd trivial hnot
  | unsent admin hcurrent hadmin _ =>
    constructor <;> simp [Refuses,Answered,hsent,hanswer,httpStatus,hstatus,hcurrent,hadmin]

/-- A call that is answered as the save server answers one message. -/
def asking (str : Json → String) (casefold : String → String) (savedAt : Fields → Option ℤ) (request : SaveRequest)
    (message : Message) : Call Answer :=
  .send message fun response => response.elim (.error savesUnavailable) .ok >>= fun response =>
    readAnswer str response >>= served casefold savedAt request

theorem answered_asking {message : Message} {server : Message → Option Response} {response : Response} :
    Answered (asking str casefold savedAt request message) server response ↔ server message = some response := by
  simp [Answered,asking,Call.sent]

theorem refuses_asking {message : Message} {server : Message → Option Response} {code : String} :
    Refuses (asking str casefold savedAt request message) server code ↔
      ∃ response, server message = some response ∧ RefusedWith response code := by
  simp only [Refuses,answered_asking]

theorem asking_told (message : Message) (server : Message → Option Response) :
    (server message = none ∧ httpStatus ((asking str casefold savedAt request message).answer server) = 502) ∨
      ∃ response, server message = some response ∧
        Told response (httpStatus ((asking str casefold savedAt request message).answer server)) := by
  have hanswer : (asking str casefold savedAt request message).answer server =
      (server message).elim (.error savesUnavailable) .ok >>= fun response =>
        readAnswer str response >>= served casefold savedAt request := rfl
  rw [hanswer]
  cases server message with
  | none => exact .inl ⟨rfl,rfl⟩
  | some response => exact .inr ⟨response,rfl,told response⟩

theorem asking_ok {message : Message} {server : Message → Option Response} {a : Answer}
    (h : (asking str casefold savedAt request message).answer server = .ok a) :
    ∃ response answer, server message = some response ∧ response.statusCode = 200 ∧
      response.body = .json (.obj answer) ∧ served casefold savedAt request answer = .ok a := by
  obtain ⟨response,hresponse,h⟩ := ok_of_bind h
  obtain ⟨answer,hread,h⟩ := ok_of_bind h
  cases hserver : server message with
  | none =>
    rw [hserver] at hresponse
    cases hresponse
  | some found =>
    rw [hserver] at hresponse
    obtain rfl := Except.ok.inj hresponse
    obtain ⟨body,hbody,hread⟩ := ok_of_bind hread
    cases body with
    | none => cases hread
    | some fields =>
      by_cases hstatus : found.statusCode = 200
      · obtain rfl : fields = answer := by simpa [hstatus] using hread
        exact ⟨found,fields,rfl,hstatus,answerOf_some.mp hbody,h⟩
      · simp [hstatus] at hread

theorem asking_tooDeep {message : Message} {server : Message → Option Response} {response : Response}
    (hresponse : server message = some response) (hdeep : response.body = .tooDeep) :
    (asking str casefold savedAt request message).answer server = .error .unhandled := by
  have hanswer : (asking str casefold savedAt request message).answer server =
      (server message).elim (.error savesUnavailable) .ok >>= fun response =>
        readAnswer str response >>= served casefold savedAt request := rfl
  rw [hanswer,hresponse,Option.elim_some]
  change (readAnswer str response >>= served casefold savedAt request) = .error .unhandled
  rw [readAnswer_tooDeep str hdeep]
  rfl

theorem guarded_asking {admin : AuthUser} (hcurrent : currentUser jwt settings now credentials = .ok admin)
    (hadmin : admin.admin = true) :
    Guarded jwt settings now credentials api password request casefold (asking str casefold savedAt request
      ⟨"/saves/" ++ request.action,payload api admin.username password request⟩) := by
  have htold := @asking_told request casefold savedAt str
    ⟨"/saves/" ++ request.action,payload api admin.username password request⟩
  constructor
  · intro message hsent
    obtain rfl := Option.some.inj hsent
    exact ⟨⟨admin,hcurrent,hadmin,rfl⟩,payload_names api admin.username password request⟩
  · intro server
    rcases htold server with ⟨-,hstatus⟩ | ⟨response,-,hstatus⟩
    · simp [hstatus,hcurrent]
    · simp [hstatus.signedOut,hcurrent]
  · intro server
    rcases htold server with ⟨hnone,hstatus⟩ | ⟨response,hsome,hstatus⟩
    · simp [refuses_asking,hnone,hstatus,hcurrent,hadmin]
    · simp [refuses_asking,hsome,hstatus.forbidden,hcurrent,hadmin]
  · intro server
    rcases htold server with ⟨hnone,hstatus⟩ | ⟨response,hsome,hstatus⟩
    · simp [refuses_asking,hnone,hstatus]
    · simp [refuses_asking,hsome,hstatus.mistaken]
  · intro server
    rcases htold server with ⟨hnone,hstatus⟩ | ⟨response,hsome,hstatus⟩
    · simp [refuses_asking,hnone,hstatus]
    · simp [refuses_asking,hsome,hstatus.unknown]
  · intro server
    rcases htold server with ⟨hnone,hstatus⟩ | ⟨response,hsome,hstatus⟩
    · simp [refuses_asking,hnone,hstatus]
    · simp [refuses_asking,hsome,hstatus.conflicting]
  · intro server records h
    obtain ⟨_,_,-,-,-,hserved⟩ := asking_ok h
    exact served_log hserved
  · intro server answer dropped h
    obtain ⟨response,answer',hsome,hok,hanswer,hserved⟩ := asking_ok h
    obtain ⟨rfl,hdrops⟩ := served_edited hserved
    exact ⟨hdrops,response,answered_asking.mpr hsome,hok,hanswer⟩
  · intro server response hanswered hdeep
    rw [asking_tooDeep (answered_asking.mp hanswered) hdeep]
    rfl

end

def saveApi : RpcnApi := ⟨⟨"http://saves:8080","key",true⟩,id⟩

def restoring : SaveRequest := .restore ⟨"Bob",false,none⟩ "before"

def aliceAsks (request : SaveRequest) : Call Answer :=
  adminCall String.toLower (fun _ => none) pairs aWeek day (some aliceToken) (fun _ => "") saveApi "pw" request

end Tag2now.SaveAdmin
