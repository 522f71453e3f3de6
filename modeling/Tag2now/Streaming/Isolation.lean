import Tag2now.Streaming.Chzzk
import Tag2now.Collections.Fallible

/-! # What one channel's answer does to the others

Only a platform that is unavailable is kept to its own channel. Whatever else is raised while
an answer is read takes the whole call with it.
-/
namespace Tag2now.Streaming
open Collections CacheMisses

/-- What registering a channel stores; the platform is always this one. -/
structure Registration where
  username : String
  channelId : String
  channelName : String
  registeredAt : ℤ

def Registration.channel (r : Registration) : StreamChannel :=
  ⟨r.username,chzzk,r.channelId,r.channelName,r.registeredAt⟩

def chzzkStreams (registrations : List Registration) (replies : String → Reply) : Streams ReadFault where
  listAll := .ok (registrations.map (·.channel))
  live channelId := live (replies channelId)

/-! ## One answer -/

/-- The content of an answer that says the channel is on air. -/
def openContent : Reply → Option (List (String × Json))
  | .answered status (.json (.obj body)) =>
    match Json.get body "content" with
    | .obj content =>
      if status = 200 ∧ content ≠ [] ∧ Json.isStr "OPEN" (Json.get content "status") then some content else none
    | _ => none
  | _ => none

def count (content : List (String × Json)) : Except IntFault ℤ :=
  Json.toInt (Json.orElse (Json.get content "concurrentUserCount") (.int 0))

/-- What a readable answer of a channel on air tells. -/
def shown (reply : Reply) : Option OnAir :=
  (openContent reply).bind fun content => (count content).toOption.map fun viewerCount =>
    ⟨Json.orElse (Json.get content "liveTitle") (.str ""),viewerCount⟩

/-- An answer too deep to read, or on air with a viewer count that `int` refuses. -/
def escapes : Reply → Bool
  | .answered status .tooDeep => status ≠ 404
  | reply =>
    match openContent reply with
    | some content => (count content).toOption.isNone
    | none => false

section
variable {registrations : List Registration} {replies : String → Reply} {channelId : String}

theorem live_unopened {reply : Reply} (h : openContent reply = none) (hdeep : escapes reply = false) :
    live reply = .ok none ∨ live reply = .error .unavailable := by
  cases reply with
  | unreachable => exact .inr rfl
  | answered status body =>
    unfold live content
    by_cases hfound : status = 404
    · simp only [if_pos hfound]
      exact .inl rfl
    simp only [if_neg hfound]
    cases body with
    | malformed => exact .inr rfl
    | tooDeep => simp [escapes,hfound] at hdeep
    | json value =>
      cases value with
      | obj body =>
        by_cases hok : status = 200
        · simp only [ne_eq,hok,not_true_eq_false,if_false]
          unfold openContent at h
          cases hcontent : Json.get body "content" with
          | obj content =>
            simp only [hcontent] at h
            have hclosed : (content.isEmpty || !Json.isStr "OPEN" (Json.get content "status")) = true := by
              by_contra hnot
              simp_all
            simp only [bind,Except.bind,if_pos hclosed]
            exact .inl rfl
          | _ => exact .inl rfl
        · simp only [ne_eq,hok,not_false_eq_true,if_true]
          exact .inr rfl
      | _ => exact .inr rfl

theorem live_opened {reply : Reply} {c : List (String × Json)} (h : openContent reply = some c) :
    live reply = ((count c).mapError fun fault => .other (.int fault)).map fun viewerCount =>
      some ⟨Json.orElse (Json.get c "liveTitle") (.str ""),viewerCount,
        Json.orElse (Json.get c "liveCategoryValue") (.str "")⟩ := by
  unfold openContent at h
  split at h
  · rename_i status body
    split at h
    · rename_i content hcontent
      split at h
      · rename_i hopen
        cases h
        obtain ⟨rfl,hsome,hstatus⟩ := hopen
        have hfalse : ¬ (c.isEmpty || !Json.isStr "OPEN" (Json.get c "status")) = true := by
          simp [hsome,hstatus]
        unfold live Streaming.content count
        simp only [hcontent,ne_eq,not_true_eq_false,if_false,Nat.reduceEqDiff,bind,Except.bind,if_neg hfalse]
        cases Json.toInt (Json.orElse (Json.get c "concurrentUserCount") (.int 0)) <;> rfl
      · cases h
    · cases h
  · cases h

theorem escapes_opened {reply : Reply} {c : List (String × Json)} (h : openContent reply = some c) :
    escapes reply = (count c).toOption.isNone := by
  unfold escapes
  split
  · cases h
  · rw [h]

theorem escapes_unopened {reply : Reply} (h : openContent reply = none) (hescapes : escapes reply = true) :
    live reply = .error (.other .recursionError) := by
  unfold escapes at hescapes
  split at hescapes
  · rename_i status
    have hfound : ¬ status = 404 := by simpa using hescapes
    unfold live content
    simp only [if_neg hfound]
    rfl
  · rw [h] at hescapes
    cases hescapes

theorem shown_unopened {reply : Reply} (h : openContent reply = none) : shown reply = none := by
  unfold shown
  rw [h]
  rfl

theorem shown_opened {reply : Reply} {c : List (String × Json)} (h : openContent reply = some c) :
    shown reply = (count c).toOption.map fun viewerCount =>
      ⟨Json.orElse (Json.get c "liveTitle") (.str ""),viewerCount⟩ := by
  unfold shown
  rw [h]
  rfl

/-- A channel's own answer decides what is found of it. -/
theorem liveNow_kept (h : escapes (replies channelId) = false) :
    liveNow (chzzkStreams registrations replies) channelId = .ok (shown (replies channelId)) := by
  have hlive : (chzzkStreams registrations replies).live channelId = live (replies channelId) := rfl
  unfold liveNow
  rw [hlive]
  cases hopen : openContent (replies channelId) with
  | none =>
    rw [shown_unopened hopen]
    rcases live_unopened hopen h with hread | hread
    · rw [hread]
      rfl
    · rw [hread]
  | some c =>
    rw [escapes_opened hopen] at h
    rw [shown_opened hopen,live_opened hopen]
    cases hcount : count c with
    | error fault =>
      rw [hcount] at h
      cases h
    | ok viewerCount => rfl

theorem liveNow_escapes (h : escapes (replies channelId) = true) :
    ∃ e, liveNow (chzzkStreams registrations replies) channelId = .error e := by
  have hlive : (chzzkStreams registrations replies).live channelId = live (replies channelId) := rfl
  unfold liveNow
  rw [hlive]
  cases hopen : openContent (replies channelId) with
  | none =>
    rw [escapes_unopened hopen h]
    exact ⟨_,rfl⟩
  | some c =>
    rw [escapes_opened hopen] at h
    rw [live_opened hopen]
    cases hcount : count c with
    | error fault => exact ⟨_,rfl⟩
    | ok viewerCount =>
      rw [hcount] at h
      cases h

end

/-! ## All the channels -/
section
variable (lower : String → String) (registrations : List Registration) (replies : String → Reply)
  (npids : List String)

def channelsOf : Ordered String Channel :=
  .ofList (registrations.map fun r => (lower r.username,⟨chzzk,r.channelId,r.channelName⟩))

/-- The registered players asked for, each with their channel. -/
def asked : List (String × Channel) := wanted lower (channelsOf lower registrations) npids

/-- Every player asked for whose own channel's answer is readable and on air. -/
def onAirPlayers : List (String × Stream) :=
  (asked lower registrations npids).filterMap fun e => (shown (replies e.2.channelId)).map fun o =>
    (e.1,⟨e.2.platform,e.2.channelName,chzzkLiveUrl e.2.channelId,o.title,o.viewerCount⟩)

end

section
variable {lower : String → String} {registrations : List Registration} {replies : String → Reply}
  {npids : List String}

theorem registeredChannels_channelsOf : registeredChannels lower (chzzkStreams registrations replies) =
    .ok (channelsOf lower registrations) := by
  unfold registeredChannels channelsOf chzzkStreams
  simp only [Except.mapError,Except.map,List.map_map]
  rfl

theorem asked_platform {e : String × Channel} (h : e ∈ asked lower registrations npids) :
    e.2.platform = chzzk := by
  have hentry : e ∈ (channelsOf lower registrations).entries := (List.mem_filter.mp h).1
  obtain ⟨r,_,rfl⟩ := List.mem_map.mp (Ordered.mem_ofList hentry)
  rfl

theorem streamsOf_shown {es : List (String × Channel)} (h : ∀ e ∈ es, e.2.platform = chzzk) :
    (streamsOf (es.map fun e => (e,shown (replies e.2.channelId))) : Except (StreamingError ReadFault) _) =
      .ok (es.filterMap fun e => (shown (replies e.2.channelId)).map fun o =>
        (e.1,⟨e.2.platform,e.2.channelName,chzzkLiveUrl e.2.channelId,o.title,o.viewerCount⟩)) := by
  have hstreams : ∀ r ∈ es.filterMap fun e => (shown (replies e.2.channelId)).map fun o => (e,o),
      (do let stream ← streamOf r.1.2 r.2; pure (r.1.1,stream) : Except (StreamingError ReadFault) _) =
        .ok (r.1.1,⟨r.1.2.platform,r.1.2.channelName,chzzkLiveUrl r.1.2.channelId,r.2.title,r.2.viewerCount⟩) := by
    intro r hr
    obtain ⟨e,he,hr⟩ := List.mem_filterMap.mp hr
    obtain ⟨o,_,rfl⟩ := Option.map_eq_some_iff.mp hr
    unfold streamOf liveUrl
    rw [if_pos (h e he)]
    rfl
  unfold streamsOf
  rw [List.filterMap_map]
  have hmap := mapM_map hstreams
  rw [List.map_filterMap] at hmap
  simpa only [Function.comp_def,Option.map_map] using hmap

/-- Each registered channel that is asked for is looked up, and nobody asks for none. -/
theorem uncachedLiveFor_eq : uncachedLiveFor lower (chzzkStreams registrations replies) npids =
    ((asked lower registrations npids).mapM fun e => do
      let found ← liveNow (chzzkStreams registrations replies) e.2.channelId
      pure (e,found)) >>= streamsOf := by
  unfold uncachedLiveFor
  split
  · rename_i hnobody
    have hnone : asked lower registrations npids = [] := by
      unfold asked wanted
      rw [hnobody]
      simp
    rw [hnone]
    rfl
  · rw [registeredChannels_channelsOf]
    rfl

theorem uncachedLiveFor_kept (h : ∀ e ∈ asked lower registrations npids, escapes (replies e.2.channelId) = false) :
    uncachedLiveFor lower (chzzkStreams registrations replies) npids =
      .ok (onAirPlayers lower registrations replies npids) := by
  have hresults : (asked lower registrations npids).mapM (fun e => do
      let found ← liveNow (chzzkStreams registrations replies) e.2.channelId
      pure (e,found)) = .ok ((asked lower registrations npids).map fun e => (e,shown (replies e.2.channelId))) := by
    apply mapM_map
    intro e he
    rw [liveNow_kept (h e he)]
    rfl
  rw [uncachedLiveFor_eq,hresults]
  exact streamsOf_shown fun e he => asked_platform he

theorem uncachedLiveFor_escapes (h : ∃ e ∈ asked lower registrations npids, escapes (replies e.2.channelId) = true) :
    ∃ err, uncachedLiveFor lower (chzzkStreams registrations replies) npids = .error err := by
  obtain ⟨e,he,hescapes⟩ := h
  obtain ⟨err,herr⟩ := @liveNow_escapes registrations replies _ hescapes
  have hstep : (do
      let found ← liveNow (chzzkStreams registrations replies) e.2.channelId
      pure (e,found) : Except (StreamingError ReadFault) _) = .error err := by
    rw [herr]
    rfl
  obtain ⟨err',hresults⟩ := mapM_fails (f := fun e => do
    let found ← liveNow (chzzkStreams registrations replies) e.2.channelId
    pure (e,found)) he hstep
  rw [uncachedLiveFor_eq,hresults]
  exact ⟨err',rfl⟩

theorem liveOrEmpty_answer {w : World Value} (hw : w.Right (FromStreams lower (chzzkStreams registrations replies))) :
    answer (liveOrEmpty lower (chzzkStreams registrations replies) npids) w =
      .ok ((uncachedLiveFor lower (chzzkStreams registrations replies) npids).toOption.getD []) := by
  obtain ⟨w',_,hrun⟩ := liveFor_gives npids w hw
  unfold answer liveOrEmpty
  simp only [tryCatch,tryCatchThe,MonadExceptOf.tryCatch,EStateM.tryCatch,hrun]
  cases uncachedLiveFor lower (chzzkStreams registrations replies) npids <;> rfl

/-- Whatever the cache holds of the same channels and answers, everyone who is on air is answered just
where no answer asked for escapes, or where nobody is. -/
theorem liveOrEmpty_iff {lower : String → String} {registrations : List Registration} {replies : String → Reply}
    {npids : List String} {w : World Value}
    (hw : w.Right (FromStreams lower (chzzkStreams registrations replies))) :
    answer (liveOrEmpty lower (chzzkStreams registrations replies) npids) w =
        .ok (onAirPlayers lower registrations replies npids) ↔
      (∀ e ∈ asked lower registrations npids, escapes (replies e.2.channelId) = false) ∨
        ∀ e ∈ asked lower registrations npids, shown (replies e.2.channelId) = none := by
  rw [liveOrEmpty_answer hw]
  have hnobody : onAirPlayers lower registrations replies npids = [] ↔
      ∀ e ∈ asked lower registrations npids, shown (replies e.2.channelId) = none := by
    unfold onAirPlayers
    rw [List.filterMap_eq_nil_iff]
    simp only [Option.map_eq_none_iff]
  by_cases h : ∃ e ∈ asked lower registrations npids, escapes (replies e.2.channelId) = true
  · obtain ⟨err,herr⟩ := uncachedLiveFor_escapes h
    have hnot : ¬ ∀ e ∈ asked lower registrations npids, escapes (replies e.2.channelId) = false := by
      intro hall
      obtain ⟨e,he,hescapes⟩ := h
      rw [hall e he] at hescapes
      cases hescapes
    rw [herr,← hnobody,or_iff_right hnot]
    constructor
    · intro hok
      exact (Except.ok.inj hok).symm
    · intro hnil
      rw [hnil]
      rfl
  · have hkept : ∀ e ∈ asked lower registrations npids, escapes (replies e.2.channelId) = false := by
      intro e he
      exact Bool.eq_false_iff.mpr fun hescapes => h ⟨e,he,hescapes⟩
    rw [uncachedLiveFor_kept hkept]
    exact ⟨fun _ => .inl hkept,fun _ => rfl⟩

end

/-! ## Two channels on air -/

def onAirReply (viewers : Json) : Reply :=
  .answered 200 (.json (.obj [("content",.obj [("status",.str "OPEN"),("liveTitle",.str "TTT2"),
    ("concurrentUserCount",viewers)])]))

def alice : Registration := ⟨"alice","a0","Alice",0⟩

def bob : Registration := ⟨"bob","b0","Bob",0⟩

/-- Alice's count is no number. -/
def oddCount (channelId : String) : Reply := if channelId = "a0" then onAirReply (.str "many") else onAirReply (.int 7)

/-- Bob's answer is readable and on air, and nobody is answered. -/
theorem odd_count_hides :
    answer (liveOrEmpty id (chzzkStreams [alice,bob] oddCount) ["alice","bob"])
      ⟨fun _ => none,fun _ => false⟩ = .ok [] ∧
      onAirPlayers id [alice,bob] oddCount ["alice","bob"] =
        [("bob",⟨"chzzk","Bob","https://chzzk.naver.com/live/b0",.str "TTT2",7⟩)] := by
  have hcold : World.Right (FromStreams id (chzzkStreams [alice,bob] oddCount)) ⟨fun _ => none,fun _ => false⟩ :=
    fun _ _ h => by cases h
  have halice : ("alice",⟨"chzzk","a0","Alice"⟩) ∈ asked id [alice,bob] ["alice","bob"] := by decide
  have hescapes : escapes (oddCount "a0") = true := by decide
  obtain ⟨err,herr⟩ := uncachedLiveFor_escapes ⟨_,halice,hescapes⟩
  constructor
  · rw [liveOrEmpty_answer hcold,herr]
    rfl
  · rfl

/-- One unreachable channel is kept to itself. -/
theorem unreachable_kept : answer (liveOrEmpty id (chzzkStreams [alice,bob]
      fun channelId => if channelId = "a0" then .unreachable else onAirReply (.int 7)) ["alice","bob"])
      ⟨fun _ => none,fun _ => false⟩ =
    .ok [("bob",⟨"chzzk","Bob","https://chzzk.naver.com/live/b0",.str "TTT2",7⟩)] := by
  have hcold : World.Right (FromStreams id (chzzkStreams [alice,bob]
      fun channelId => if channelId = "a0" then .unreachable else onAirReply (.int 7)))
      ⟨fun _ => none,fun _ => false⟩ := fun _ _ h => by cases h
  exact (liveOrEmpty_iff hcold).mpr (.inl (by decide))

end Tag2now.Streaming
