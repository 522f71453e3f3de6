import Tag2now.Matching.RoomFetches
import Tag2now.Streaming.Channels
import Tag2now.Streaming.Isolation

/-! # The room list with its streams

The room list is answered with every user's broadcast put beside them. Nothing else of it
changes, and of the same channels and answers it does not matter what the caches hold.
-/
namespace Tag2now.Streaming
open Collections CacheMisses Matching

/-- A user as `/rooms/all` answers them. -/
structure RoomUserOut extends RoomUser where
  stream : Option Stream

structure RoomOut where
  room : RoomInfoDTO
  users : List RoomUserOut

structure RoomsOut where
  playerMatch : List RoomOut
  rankMatch : List RoomOut

def playersIn (groups : Groups) : List String :=
  (((groups.playerMatch ++ groups.rankMatch).flatMap (·.users)).map (·.npid)).filter (· ≠ "")

section
variable (lower : String → String) (live : List (String × Stream))

def userWithStream (user : RoomUser) : RoomUserOut :=
  ⟨user,(live.find? fun e => e.1 = lower user.npid).map (·.2)⟩

def roomWithStreams (room : RoomInfoDTO) : RoomOut := ⟨room,room.users.map (userWithStream lower live)⟩

def withStreams (groups : Groups) : RoomsOut :=
  ⟨groups.playerMatch.map (roomWithStreams lower live),groups.rankMatch.map (roomWithStreams lower live)⟩

end

/-- The route, with the room list that was fetched or cached. -/
def roomsAll {ε : Type} (lower : String → String) (streams : Streams ε) (groups : Groups) :
    Call Value (StreamingError ε) RoomsOut := do
  let live ← liveOrEmpty lower streams (playersIn groups)
  pure (withStreams lower live groups)

def RoomsOut.groups (out : RoomsOut) : Groups where
  playerMatch := out.playerMatch.map fun r => { r.room with users := r.users.map (·.toRoomUser) }
  rankMatch := out.rankMatch.map fun r => { r.room with users := r.users.map (·.toRoomUser) }

def RoomsOut.users (out : RoomsOut) : List RoomUserOut := (out.playerMatch ++ out.rankMatch).flatMap (·.users)

/-- The response: a title that JSON cannot hold leaves none. -/
def response (out : RoomsOut) : Option RoomsOut :=
  if (out.users.filterMap (·.stream)).all fun stream => stream.title.writable then some out else none

/-- What the answer for a channel shows, if it can be read and the channel is on air. -/
def broadcastOf (replies : String → Reply) (channel : Channel) : Option Stream :=
  (shown (replies channel.channelId)).map fun o =>
    ⟨channel.platform,channel.channelName,chzzkLiveUrl channel.channelId,o.title,o.viewerCount⟩

section
variable {lower : String → String} {live : List (String × Stream)} {groups : Groups}

theorem withStreams_groups : (withStreams lower live groups).groups = groups := by
  have hroom (room : RoomInfoDTO) :
      { (roomWithStreams lower live room).room with
        users := (roomWithStreams lower live room).users.map (·.toRoomUser) } = room := by
    unfold roomWithStreams
    simp only [List.map_map]
    have husers : room.users.map ((·.toRoomUser) ∘ userWithStream lower live) = room.users := by
      simp [Function.comp_def,userWithStream]
    rw [husers]
  unfold RoomsOut.groups withStreams
  simp only [List.map_map,Function.comp_def,hroom,List.map_id']

theorem response_iff (out : RoomsOut) : response out = some out ↔
    ∀ u ∈ out.users, ∀ stream, u.stream = some stream → stream.title.writable = true := by
  have hall : (out.users.filterMap (·.stream)).all (fun stream => stream.title.writable) = true ↔
      ∀ u ∈ out.users, ∀ stream, u.stream = some stream → stream.title.writable = true := by
    simp only [List.all_eq_true,List.mem_filterMap,forall_exists_index,and_imp]
    exact ⟨fun h u hu stream hstream => h stream u hu hstream,fun h stream u hu hstream => h u hu stream hstream⟩
  rw [← hall]
  unfold response
  split
  · rename_i h
    exact iff_of_true rfl h
  · rename_i h
    exact iff_of_false nofun h

theorem mem_withStreams_users {u : RoomUserOut} (h : u ∈ (withStreams lower live groups).users) :
    ∃ room ∈ groups.playerMatch ++ groups.rankMatch, ∃ user ∈ room.users, u = userWithStream lower live user := by
  unfold RoomsOut.users withStreams at h
  rw [← List.map_append] at h
  obtain ⟨out,hout,hu⟩ := List.mem_flatMap.mp h
  obtain ⟨room,hroom,rfl⟩ := List.mem_map.mp hout
  obtain ⟨user,huser,rfl⟩ := List.mem_map.mp hu
  exact ⟨room,hroom,user,huser,rfl⟩

theorem mem_playersIn {room : RoomInfoDTO} {user : RoomUser} (hroom : room ∈ groups.playerMatch ++ groups.rankMatch)
    (huser : user ∈ room.users) (hnamed : user.npid ≠ "") : user.npid ∈ playersIn groups := by
  unfold playersIn
  rw [List.mem_filter]
  exact ⟨List.mem_map.mpr ⟨user,List.mem_flatMap.mpr ⟨room,hroom,huser⟩,rfl⟩,decide_eq_true hnamed⟩

/-- Looking a key up among entries picked by their keys and read one by one. -/
theorem find_picked {κ ν β : Type} [DecidableEq κ] (q : κ → Bool) (f : ν → Option β) {es : List (κ × ν)}
    (hkeys : (es.map Prod.fst).Nodup) (k : κ) :
    (((es.filter fun e => q e.1).filterMap fun e => (f e.2).map fun b => (e.1,b)).find? fun e => e.1 = k).map (·.2) =
      if q k then ((es.find? fun e => e.1 = k).map Prod.snd).bind f else none := by
  induction es with
  | nil => simp
  | cons e es ih =>
    obtain ⟨hnew,hrest⟩ := List.nodup_cons.mp hkeys
    by_cases hk : e.1 = k
    · have hnone : es.find? (fun e => e.1 = k) = none := by
        rw [List.find?_eq_none]
        intro e' he' hkey
        exact hnew (hk ▸ of_decide_eq_true hkey ▸ List.mem_map_of_mem he')
      have hbehind := ih hrest
      rw [hnone] at hbehind
      have hbehind : (((es.filter fun e => q e.1).filterMap fun e => (f e.2).map fun b => (e.1,b)).find?
          fun e => e.1 = k).map (·.2) = none := by simpa using hbehind
      cases hq : q k with
      | false => simpa [hk,hq] using hbehind
      | true =>
        cases hf : f e.2 with
        | none => simpa [hk,hq,hf] using hbehind
        | some b => simp [hk,hq,hf]
    · cases hq : q e.1 with
      | false => simpa [hk,hq] using ih hrest
      | true =>
        cases hf : f e.2 with
        | none => simpa [hk,hq,hf] using ih hrest
        | some b => simpa [hk,hq,hf] using ih hrest

variable {registrations : List Registration} {replies : String → Reply} {npids : List String}

theorem onAirPlayers_lookup (npid : String) :
    ((onAirPlayers lower registrations replies npids).find? fun e => e.1 = lower npid).map (·.2) =
      if lower npid ∈ npids.map lower then
        ((channelsOf lower registrations).get? (lower npid)).bind (broadcastOf replies)
      else none := by
  have hpicked := find_picked (fun k => decide (k ∈ npids.map lower)) (broadcastOf replies)
    (channelsOf lower registrations).nodup (lower npid)
  simp only [decide_eq_true_eq] at hpicked
  have hplayers : onAirPlayers lower registrations replies npids =
      ((channelsOf lower registrations).entries.filter fun e => decide (e.1 ∈ npids.map lower)).filterMap
        fun e => (broadcastOf replies e.2).map fun b => (e.1,b) := by
    unfold onAirPlayers asked wanted broadcastOf
    simp only [Option.map_map,Function.comp_def]
  rw [hplayers,hpicked]
  rfl

theorem liveOrEmpty_ok {ε : Type} (streams : Streams ε) (npids : List String) (w : World Value) :
    ∃ live, answer (liveOrEmpty lower streams npids) w = .ok live := by
  unfold answer liveOrEmpty
  simp only [tryCatch,tryCatchThe,MonadExceptOf.tryCatch,EStateM.tryCatch]
  cases liveFor lower streams npids w with
  | ok live w' => exact ⟨live,rfl⟩
  | error e w' => exact ⟨[],rfl⟩

theorem roomsAll_ok {ε : Type} {streams : Streams ε} {w : World Value} {live : List (String × Stream)}
    (h : answer (liveOrEmpty lower streams (playersIn groups)) w = .ok live) :
    answer (roomsAll lower streams groups) w = .ok (withStreams lower live groups) := by
  unfold answer at h ⊢
  unfold roomsAll
  simp only [bind,EStateM.bind]
  cases hrun : liveOrEmpty lower streams (playersIn groups) w with
  | error e w' =>
    rw [hrun] at h
    cases h
  | ok live' w' =>
    rw [hrun] at h
    rw [← Except.ok.inj h]
    rfl

/-- What a user asked for is marked with, of the channels and the answers as they are. -/
theorem userWithStream_uncached {room : RoomInfoDTO} {user : RoomUser}
    (hroom : room ∈ groups.playerMatch ++ groups.rankMatch) (huser : user ∈ room.users) (hnamed : user.npid ≠ "") :
    (userWithStream lower ((uncachedLiveFor lower (chzzkStreams registrations replies)
        (playersIn groups)).toOption.getD []) user).stream =
      if ∀ e ∈ asked lower registrations (playersIn groups), escapes (replies e.2.channelId) = false then
        ((channelsOf lower registrations).get? (lower user.npid)).bind (broadcastOf replies)
      else none := by
  have hasked : lower user.npid ∈ (playersIn groups).map lower :=
    List.mem_map_of_mem (mem_playersIn hroom huser hnamed)
  unfold userWithStream
  by_cases hkept : ∀ e ∈ asked lower registrations (playersIn groups), escapes (replies e.2.channelId) = false
  · rw [if_pos hkept,uncachedLiveFor_kept hkept]
    have hlookup := @onAirPlayers_lookup lower registrations replies (playersIn groups) user.npid
    rw [if_pos hasked] at hlookup
    exact hlookup
  · have hescapes : ∃ e ∈ asked lower registrations (playersIn groups), escapes (replies e.2.channelId) = true := by
      by_contra hnone
      refine hkept fun e he => Bool.eq_false_iff.mpr fun h => hnone ⟨e,he,h⟩
    obtain ⟨err,herr⟩ := uncachedLiveFor_escapes hescapes
    rw [if_neg hkept,herr]
    rfl

end

/-- The answer is the room list with the users marked, and nothing else of it changes. Where the caches hold what
these channels and answers give, and every answer asked for can be read, a user is marked with the broadcast of the
channel registered under their name, whatever the case of it; where one cannot, nobody is marked. It is sent just
where JSON can hold the titles shown. -/
theorem roomsAll_marks (lower : String → String) (registrations : List Registration) (replies : String → Reply)
    (w : World Value) (groups : Groups) :
    ∃ out, answer (roomsAll lower (chzzkStreams registrations replies) groups) w = .ok out ∧ out.groups = groups ∧
      (response out = some out ↔ ∀ u ∈ out.users, ∀ stream, u.stream = some stream → stream.title.writable = true) ∧
      (w.Right (FromStreams lower (chzzkStreams registrations replies)) → ∀ u ∈ out.users, u.npid ≠ "" → u.stream =
        if ∀ e ∈ asked lower registrations (playersIn groups), escapes (replies e.2.channelId) = false then
          ((channelsOf lower registrations).get? (lower u.npid)).bind (broadcastOf replies)
        else none) := by
  obtain ⟨live,hlive⟩ := @liveOrEmpty_ok lower _ (chzzkStreams registrations replies) (playersIn groups) w
  refine ⟨_,roomsAll_ok hlive,withStreams_groups,response_iff _,fun hw u hu hnamed => ?_⟩
  obtain ⟨room,hroom,user,huser,rfl⟩ := mem_withStreams_users hu
  have hnow := (@liveOrEmpty_answer lower registrations replies (playersIn groups) w hw).symm.trans hlive
  rw [← Except.ok.inj hnow]
  exact userWithStream_uncached hroom huser hnamed

def aliceRooms : Groups := ⟨[⟨1,"ALICE","Al",1,2,none,[⟨"Al","","ALICE"⟩]⟩],[]⟩

/-- Alice's room, asked for with a cold cache. -/
theorem roomsAll_marks_alice :
    ∃ out, answer (roomsAll asciiLower (chzzkStreams [alice] fun _ => onAirReply (.int 7)) aliceRooms)
        ⟨fun _ => none,fun _ => false⟩ = .ok out ∧ out.groups = aliceRooms ∧
      ∀ u ∈ out.users, u.npid = "ALICE" → u.stream =
        some ⟨"chzzk","Alice","https://chzzk.naver.com/live/a0",.str "TTT2",7⟩ := by
  have hcold : World.Right (FromStreams asciiLower (chzzkStreams [alice] fun _ => onAirReply (.int 7)))
      ⟨fun _ => none,fun _ => false⟩ := fun _ _ h => by cases h
  obtain ⟨out,hanswer,hgroups,_,hmarks⟩ := roomsAll_marks asciiLower [alice] (fun _ => onAirReply (.int 7))
    ⟨fun _ => none,fun _ => false⟩ aliceRooms
  refine ⟨out,hanswer,hgroups,fun u hu hname => ?_⟩
  rw [hmarks hcold u hu (by rw [hname]; decide),if_pos (by decide),hname]
  rfl

end Tag2now.Streaming
