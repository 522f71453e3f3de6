import Tag2now.Matching.Outage
import Tag2now.Collections.Fallible

/-! # Whether a listing has all the rooms

The server gives as many of a world's rooms as a request asks for, and tells how many there
are. The adapter asks once for each world.
-/
namespace Tag2now.Matching
open Rpcn Pieces Collections

/-- The answer to a search: the rooms from a place on, as many as are asked for, and how many
there are. -/
def serverAnswer (rooms : ℕ → List PbRoom) (req : SearchRoomRequest) : SearchRoomAllResponse where
  total := (rooms req.worldId).length
  rooms := ((rooms req.worldId).drop (req.rangeFilterStartIndex - 1)).take req.rangeFilterMax

section
variable (P : Protobuf) (comId : String) (rooms : ℕ → List PbRoom) (value4 : List RoomAttr → ℕ)

/-- A reply without an error, with the answer to the search of a world. -/
def Serves (worldId : ℤ) (payload : List UInt8) : Prop :=
  ∃ req data raw, buildSearchRoomRequest worldId 0 1 20 = .ok req ∧ payload = errNoError :: data ∧
    unpackDataPacket data = .ok raw ∧ P.parse raw = some (serverAnswer rooms req)

/-- Each search of the listing can be sent and is served, by a client that has sent `k` packets. -/
def Answered : ℕ → Line → List ℤ → Prop
  | _,_,[] => True
  | k,l,worldId :: worlds => (∃ bytes, request P comId worldId (k + 1) = .ok bytes) ∧
      (∃ payload, l.exchange = .replied payload ∧ Serves P rooms worldId payload) ∧ Answered (k + 1) l.next worlds

/-- A room as it should be listed. What its attribute 4 holds is `value4`, and 0 where it has none. -/
def asListed (info : RoomInfo) : RoomInfoDTO where
  roomId := info.roomId
  ownerNpid := info.ownerNpid
  ownerOnlineName := info.ownerOnlineName
  currentMembers := info.currentMembers
  maxSlots := info.maxSlots
  rankInfo := if value4 info.intAttrs = 0 then none else some (value4 info.intAttrs)
  users := info.users.map fun u => ⟨u.onlineName,u.avatarUrl,u.npid⟩

def worldRooms (worldId : ℤ) : List RoomInfoDTO :=
  (rooms worldId.toNat).map fun r => asListed value4 (.fromResponseRoom r)

def firstPage (worldId : ℤ) : Except Fault (List RoomInfoDTO) :=
  (((rooms worldId.toNat).take 20).map RoomInfo.fromResponseRoom).mapM room

/-- One search gives all the rooms of the world, and attribute 4 stands in the fifth place. -/
def OnePage (worldId : ℤ) : Prop :=
  (rooms worldId.toNat).length ≤ 20 ∧
    ∀ r ∈ rooms worldId.toNat, ((RoomInfo.fromResponseRoom r).intAttrs[rankAttr]?).map (·.value) =
      some (value4 (RoomInfo.fromResponseRoom r).intAttrs)

end

section
variable {P : Protobuf} {comId : String} {rooms : ℕ → List PbRoom} {value4 : List RoomAttr → ℕ} {worldId : ℤ}

theorem uint32_ok {n : ℤ} {m : ℕ} (h : uint32 n = .ok m) : m = n.toNat := by
  unfold uint32 at h
  split at h
  · cases h
    rfl
  · cases h

theorem serves_found {payload : List UInt8} (h : Serves P rooms worldId payload) :
    found P (.replied payload) = firstPage rooms worldId := by
  obtain ⟨req,data,raw,hreq,rfl,hunpack,hparse⟩ := h
  obtain ⟨world,hworld,hreq⟩ := ok_of_bind hreq
  obtain ⟨flag,_,hreq⟩ := ok_of_bind hreq
  obtain ⟨start,hstart,hreq⟩ := ok_of_bind hreq
  obtain ⟨count,hcount,hreq⟩ := ok_of_bind hreq
  obtain rfl : world = worldId.toNat := uint32_ok hworld
  cases hstart
  cases hcount
  cases hreq
  have hpage : serverAnswer rooms ⟨worldId.toNat,31,flag,0,[0x4C,0x4D,0x4E,0x4F,0x50,0x51,0x52,0x53],1,20⟩ =
      ⟨(rooms worldId.toNat).length,(rooms worldId.toNat).take 20⟩ := rfl
  have hresult : searchRoomsResult P data =
      .ok ⟨(rooms worldId.toNat).length,((rooms worldId.toNat).take 20).map RoomInfo.fromResponseRoom⟩ := by
    unfold searchRoomsResult
    simp only [hunpack,bind,Except.bind]
    rw [hparse]
    rfl
  have hfound : found P (.replied (errNoError :: data)) = searchRoomsResult P data >>= listed := rfl
  rw [hfound,hresult]
  unfold firstPage
  simp only [bind,Except.bind,listed]
  split
  · rfl
  · rename_i hzero
    have hnone : rooms worldId.toNat = [] := List.eq_nil_of_length_eq_zero (by omega)
    rw [hnone]
    rfl

/-! ## One page -/

theorem room_ok {info : RoomInfo} {dto : RoomInfoDTO} :
    room info = .ok dto ↔ ∃ a, info.intAttrs[rankAttr]? = some a ∧ dto = asListed (fun _ => a.value) info := by
  unfold room
  cases info.intAttrs[rankAttr]? with
  | none =>
    constructor
    · nofun
    · rintro ⟨_,h,_⟩
      cases h
  | some a =>
    constructor
    · intro h
      cases h
      exact ⟨a,rfl,rfl⟩
    · rintro ⟨_,h,rfl⟩
      cases h
      rfl

/-- The rank is told by the value alone. -/
theorem asListed_inj {info : RoomInfo} {v w : List RoomAttr → ℕ} (h : asListed v info = asListed w info) :
    v info.intAttrs = w info.intAttrs := by
  have hrank : (asListed v info).rankInfo = (asListed w info).rankInfo := by rw [h]
  simp only [asListed] at hrank
  split at hrank
  · split at hrank
    · omega
    · cases hrank
  · split at hrank
    · cases hrank
    · exact Option.some.inj hrank

theorem room_asListed {info : RoomInfo} :
    room info = .ok (asListed value4 info) ↔
      (info.intAttrs[rankAttr]?).map (·.value) = some (value4 info.intAttrs) := by
  rw [room_ok,Option.map_eq_some_iff]
  constructor
  · rintro ⟨a,ha,hlisted⟩
    exact ⟨a,ha,(asListed_inj hlisted).symm⟩
  · rintro ⟨a,ha,hvalue⟩
    refine ⟨a,ha,?_⟩
    unfold asListed
    rw [hvalue]

theorem firstPage_length {dtos : List RoomInfoDTO} (h : firstPage rooms worldId = .ok dtos) :
    dtos.length ≤ (rooms worldId.toNat).length := by
  have hlength := (mapM_ok_iff.mp h).length_eq
  rw [List.length_map,List.length_take] at hlength
  omega

/-- A page has all the rooms just where the world fits on it and each of its rooms is read as it should be. -/
theorem firstPage_worldRooms :
    firstPage rooms worldId = .ok (worldRooms rooms value4 worldId) ↔ OnePage rooms value4 worldId := by
  unfold firstPage worldRooms OnePage
  rw [mapM_ok_iff]
  constructor
  · intro h
    have hlength := h.length_eq
    rw [List.length_map,List.length_map,List.length_take] at hlength
    have hfits : (rooms worldId.toNat).length ≤ 20 := by omega
    refine ⟨hfits,fun r hr => ?_⟩
    rw [List.take_of_length_le hfits,List.forall₂_map_left_iff,List.forall₂_map_right_iff,List.forall₂_same] at h
    exact room_asListed.mp (h r hr)
  · rintro ⟨hfits,hread⟩
    rw [List.take_of_length_le hfits,List.forall₂_map_left_iff,List.forall₂_map_right_iff,List.forall₂_same]
    exact fun r hr => room_asListed.mpr (hread r hr)

/-! ## The worlds one after another -/

theorem searchWorlds_answered {sock : Socket} {k : ℕ} {worlds : List ℤ}
    (h : Answered P comId rooms k sock.line worlds) (allRooms : List RoomInfoDTO) :
    ∃ c', searchWorlds P comId worlds allRooms ⟨some sock,k⟩ =
      withState c' ((allRooms ++ ·.flatten) <$> worlds.mapM (firstPage rooms)) := by
  induction worlds generalizing sock k allRooms with
  | nil =>
    refine ⟨⟨some sock,k⟩,?_⟩
    have hall : allRooms ++ ([] : List (List RoomInfoDTO)).flatten = allRooms := List.append_nil allRooms
    simp only [searchWorlds,List.mapM_nil]
    exact congrArg (EStateM.Result.ok · _) hall.symm
  | cons worldId worlds ih =>
    obtain ⟨⟨bytes,hrequest⟩,⟨payload,hreplied,hserves⟩,hrest⟩ := h
    obtain ⟨sock',hworld,hline⟩ := searchWorld_exchange hrequest
    have hnext : sock'.line = sock.line.next := hline (by rw [hreplied]; exact fun _ h => by cases h)
    rw [hreplied,serves_found hserves] at hworld
    rw [← hnext] at hrest
    rw [List.mapM_cons]
    cases hpage : firstPage rooms worldId with
    | error e =>
      obtain rfl := mapM_room_error hpage
      rw [hpage] at hworld
      exact ⟨_,searchWorlds_stops hworld (fun _ h => by cases h) allRooms⟩
    | ok dtos =>
      rw [hpage] at hworld
      obtain ⟨c',hrun⟩ := ih hrest (allRooms ++ dtos)
      refine ⟨c',?_⟩
      have hfirst : searchWorlds P comId (worldId :: worlds) allRooms ⟨some sock,k⟩ =
          searchWorlds P comId worlds (allRooms ++ dtos) ⟨some sock',k + 1⟩ := by
        rw [searchWorlds]
        simp only [bind,EStateM.bind,tryCatch,tryCatchThe,MonadExceptOf.tryCatch,EStateM.tryCatch,hworld]
        rfl
      rw [hfirst,hrun]
      cases worlds.mapM (firstPage rooms) with
      | error e => rfl
      | ok pages =>
        have hall : allRooms ++ dtos ++ pages.flatten = allRooms ++ (dtos :: pages).flatten := by
          rw [List.flatten_cons,List.append_assoc]
        exact congrArg (EStateM.Result.ok · c') hall

/-- Pages that together have as much as the worlds are the worlds' rooms, each its own. -/
theorem pages_worldRooms {worlds : List ℤ} {pages : List (List RoomInfoDTO)}
    (h : List.Forall₂ (fun w dtos => firstPage rooms w = .ok dtos) worlds pages)
    (hall : pages.flatten = worlds.flatMap (worldRooms rooms value4)) :
    ∀ w ∈ worlds, firstPage rooms w = .ok (worldRooms rooms value4 w) := by
  have hle {ws : List ℤ} {ps : List (List RoomInfoDTO)}
      (h : List.Forall₂ (fun w dtos => firstPage rooms w = .ok dtos) ws ps) :
      ps.flatten.length ≤ (ws.flatMap (worldRooms rooms value4)).length := by
    induction h with
    | nil => exact le_rfl
    | cons hpage _ ih =>
      have hlength := firstPage_length hpage
      rw [List.flatten_cons,List.flatMap_cons,List.length_append,List.length_append,worldRooms,List.length_map]
      omega
  induction h with
  | nil => nofun
  | @cons w dtos ws ps hpage hpages ih =>
    rw [List.flatten_cons,List.flatMap_cons] at hall
    have hlength := firstPage_length hpage
    have hrest := hle hpages
    have htotal := congrArg List.length hall
    rw [List.length_append,List.length_append] at htotal
    have hworld : (worldRooms rooms value4 w).length = (rooms w.toNat).length := List.length_map ..
    obtain ⟨hdtos,hps⟩ := List.append_inj hall (by omega)
    intro w' hw'
    rcases List.mem_cons.mp hw' with rfl | hw'
    · rw [hpage,hdtos]
    · exact ih hps w' hw'

theorem searchWorlds_complete {sock : Socket} {k : ℕ} {worlds : List ℤ}
    (h : Answered P comId rooms k sock.line worlds) :
    (∃ c', searchWorlds P comId worlds [] ⟨some sock,k⟩ = .ok (worlds.flatMap (worldRooms rooms value4)) c') ↔
      ∀ w ∈ worlds, OnePage rooms value4 w := by
  obtain ⟨c',hrun⟩ := searchWorlds_answered h []
  rw [hrun]
  constructor
  · rintro ⟨c'',hok⟩
    cases hpages : worlds.mapM (firstPage rooms) with
    | error e =>
      rw [hpages] at hok
      cases hok
    | ok pages =>
      rw [hpages] at hok
      have hall : pages.flatten = worlds.flatMap (worldRooms rooms value4) := (EStateM.Result.ok.inj hok).1
      exact fun w hw => firstPage_worldRooms.mp (pages_worldRooms (mapM_ok_iff.mp hpages) hall w hw)
  · intro hall
    have hpages : worlds.mapM (firstPage rooms) = .ok (worlds.map (worldRooms rooms value4)) := by
      rw [mapM_ok_iff,List.forall₂_map_right_iff,List.forall₂_same]
      exact fun w hw => firstPage_worldRooms.mpr (hall w hw)
    rw [hpages]
    exact ⟨c',rfl⟩

theorem searchRoomsAll_ok {cooldown : ℤ} {worlds : List ℤ} {moment : Moment RpcnClient}
    {s s' : SharedRpcnClient RpcnClient} {c : RpcnClient} {dtos : List RoomInfoDTO}
    (h : connected cooldown moment s = .ok c s') :
    (∃ s'', searchRoomsAll P comId cooldown worlds moment s = .ok dtos s'') ↔
      ∃ c', searchWorlds P comId worlds [] c = .ok dtos c' := by
  unfold searchRoomsAll apiClient onClient
  simp only [tryCatch,tryCatchThe,MonadExceptOf.tryCatch,EStateM.tryCatch,bind,EStateM.bind,h]
  cases searchWorlds P comId worlds [] c with
  | ok dtos' c' =>
    constructor
    · rintro ⟨s'',hok⟩
      cases hok
      exact ⟨c',rfl⟩
    · rintro ⟨c'',hok⟩
      cases hok
      exact ⟨_,rfl⟩
  | error e c' =>
    constructor
    · rintro ⟨s'',hok⟩
      cases e <;> cases hok
    · rintro ⟨c'',hok⟩
      cases hok

end

/-- Whatever is meant by a room's attribute 4, the listing has every room of the worlds just where
one page holds each world and attribute 4 stands in each room's fifth place. -/
theorem searchRoomsAll_complete_iff {P : Protobuf} {comId : String} {cooldown : ℤ} {worlds : List ℤ}
    {moment : Moment RpcnClient} {s s' : SharedRpcnClient RpcnClient} {sock : Socket} {k : ℕ}
    (rooms : ℕ → List PbRoom) (value4 : List RoomAttr → ℕ)
    (hclient : connected cooldown moment s = .ok ⟨some sock,k⟩ s')
    (hanswered : Answered P comId rooms k sock.line worlds) :
    (∃ s'', searchRoomsAll P comId cooldown worlds moment s = .ok (worlds.flatMap (worldRooms rooms value4)) s'') ↔
      ∀ w ∈ worlds, OnePage rooms value4 w :=
  (searchRoomsAll_ok hclient).trans (searchWorlds_complete hanswered)

/-! ## A full page and one room more -/

/-- The bytes of a room with five empty attributes. -/
def emptyRoom (id : ℕ) : List UInt8 := [0x1A,12,0x30,UInt8.ofNat id,0x7A,0,0x7A,0,0x7A,0,0x7A,0,0x7A,0]

def crowd : List PbRoom := (List.range 21).map fun i => ⟨i + 1,0,0,⟨"","",""⟩,List.replicate 5 ⟨0,0⟩,[]⟩

def crowdPage : List UInt8 := [0x10,21] ++ (List.range 20).flatMap fun i => emptyRoom (i + 1)

/-- The codec on small world ids and on the page of world 1. -/
def crowdCodec : Protobuf where
  serialize := sampleCodec.serialize
  parse raw := if raw = crowdPage then some ⟨21,crowd.take 20⟩ else none

def crowdReply : List UInt8 := [0,26,1,0,0] ++ crowdPage

def crowdClient : SharedRpcnClient RpcnClient :=
  ⟨some ⟨some ⟨[.piece 1 ([5,1,46,1,0,0,2,0,0,0,0,0,0,0] ++ crowdReply)],[],[]⟩,1⟩,none,1,[]⟩

/-- One search of world 1 is served as it should be, and the last of its rooms is not listed. -/
theorem crowd_cut :
    (∃ sock, connected 5000000 quietMoment crowdClient = .ok ⟨some sock,1⟩ crowdClient ∧
      Answered crowdCodec "NPWR02973_00" (fun w => if w = 1 then crowd else []) 1 sock.line [1]) ∧
    ∀ value4, ¬ ∃ s', searchRoomsAll crowdCodec "NPWR02973_00" 5000000 [1] quietMoment crowdClient =
      .ok ([1].flatMap (worldRooms (fun w => if w = 1 then crowd else []) value4)) s' := by
  have hlisted : (match searchRoomsAll crowdCodec "NPWR02973_00" 5000000 [1] quietMoment crowdClient with
      | .ok dtos _ => decide (dtos.length = 20)
      | .error .. => false) = true := by decide +kernel
  have hexchange : Line.exchange (Socket.line ⟨[.piece 1 ([5,1,46,1,0,0,2,0,0,0,0,0,0,0] ++ crowdReply)],[],[]⟩) =
      .replied crowdReply := by decide +kernel
  have hrequest : (match request crowdCodec "NPWR02973_00" 1 2 with
      | .ok _ => true
      | .error _ => false) = true := by decide +kernel
  have hlength : crowd.length = 21 := by decide
  refine ⟨⟨_,rfl,?_,⟨crowdReply,hexchange,?_⟩,trivial⟩,?_⟩
  · split at hrequest
    · rename_i bytes hok
      exact ⟨bytes,hok⟩
    · cases hrequest
  · have hanswer : serverAnswer (fun w => if w = 1 then crowd else [])
        ⟨1,31,0,0,[0x4C,0x4D,0x4E,0x4F,0x50,0x51,0x52,0x53],1,20⟩ = ⟨21,crowd.take 20⟩ := by
      unfold serverAnswer
      simp only [if_true,hlength,Nat.sub_self,List.drop_zero]
    have hparse : crowdCodec.parse crowdPage = some ⟨21,crowd.take 20⟩ := by
      simp only [crowdCodec,if_true]
    rw [← hanswer] at hparse
    exact ⟨⟨1,31,0,0,[0x4C,0x4D,0x4E,0x4F,0x50,0x51,0x52,0x53],1,20⟩,[26,1,0,0] ++ crowdPage,crowdPage,rfl,rfl,
      by decide +kernel,hparse⟩
  · rintro value4 ⟨s',hrun⟩
    rw [hrun] at hlisted
    simp only [List.flatMap_cons,List.flatMap_nil,List.append_nil,worldRooms,List.length_map,Int.toNat_one,if_true,
      hlength] at hlisted
    cases hlisted

/-! ## Two worlds with ranked rooms -/

def rankedRoom (id rank : ℕ) (npId : String) : PbRoom :=
  ⟨id,0,0,⟨npId,"",""⟩,[⟨76,0⟩,⟨77,0⟩,⟨78,0⟩,⟨79,0⟩,⟨80,rank⟩],[]⟩

def rankedRooms : ℕ → List PbRoom
  | 1 => [rankedRoom 7 21 "Al"]
  | 2 => [rankedRoom 8 25 "Bo",rankedRoom 9 3 "Cy"]
  | _ => []

/-- The bytes of such a room, of its owner and of its attributes. -/
def rankedBytes (id rank : UInt8) (npId : List UInt8) : List UInt8 :=
  [0x1A,40,0x30,id,0x62,4,0x0A,2] ++ npId ++ ([76,77,78,79].flatMap fun a => [0x7A,4,0x0A,2,8,a]) ++
    [0x7A,6,0x0A,2,8,80,0x10,rank]

def firstWorld : List UInt8 := [0x10,1] ++ rankedBytes 7 21 [65,108]
def secondWorld : List UInt8 := [0x10,2] ++ rankedBytes 8 25 [66,111] ++ rankedBytes 9 3 [67,121]

def rankedCodec : Protobuf where
  serialize := sampleCodec.serialize
  parse raw := if raw = firstWorld then some ⟨1,rankedRooms 1⟩
    else if raw = secondWorld then some ⟨2,rankedRooms 2⟩ else none

def firstReply : List UInt8 := [0,44,0,0,0] ++ firstWorld
def secondReply : List UInt8 := [0,86,0,0,0] ++ secondWorld

def rankedSocket : Socket :=
  ⟨[.piece 1 ([5,1,64,0,0,0,2,0,0,0,0,0,0,0] ++ firstReply),
    .piece 1 ([5,1,106,0,0,0,3,0,0,0,0,0,0,0] ++ secondReply)],[],[]⟩

def rankedClient : SharedRpcnClient RpcnClient := ⟨some ⟨some rankedSocket,1⟩,none,1,[]⟩

def fifthValue (attrs : List RoomAttr) : ℕ := (attrs[4]?.map (·.value)).getD 0

theorem answered_ranked : Answered rankedCodec "NPWR02973_00" rankedRooms 1 rankedSocket.line [1,2] := by
  have hsent : ∀ world k, (world,k) ∈ [(1,2),(2,3)] →
      ∃ bytes, request rankedCodec "NPWR02973_00" world k = .ok bytes := by
    simp only [List.mem_cons,List.not_mem_nil,or_false,Prod.mk.injEq]
    rintro world k (⟨rfl,rfl⟩ | ⟨rfl,rfl⟩) <;> exact ⟨_,rfl⟩
  have hfirst : rankedSocket.line.exchange = .replied firstReply := by decide +kernel
  have hsecond : rankedSocket.line.next.exchange = .replied secondReply := by decide +kernel
  have hserved : Serves rankedCodec rankedRooms 1 firstReply :=
    ⟨⟨1,31,0,0,[0x4C,0x4D,0x4E,0x4F,0x50,0x51,0x52,0x53],1,20⟩,[44,0,0,0] ++ firstWorld,firstWorld,rfl,rfl,rfl,rfl⟩
  have hserved' : Serves rankedCodec rankedRooms 2 secondReply :=
    ⟨⟨2,31,0,0,[0x4C,0x4D,0x4E,0x4F,0x50,0x51,0x52,0x53],1,20⟩,[86,0,0,0] ++ secondWorld,secondWorld,rfl,rfl,rfl,rfl⟩
  exact ⟨hsent 1 2 (by simp),⟨_,hfirst,hserved⟩,hsent 2 3 (by simp),⟨_,hsecond,hserved'⟩,trivial⟩

theorem ranked_listed : ∃ s', searchRoomsAll rankedCodec "NPWR02973_00" 5000000 [1,2] quietMoment rankedClient =
    .ok [⟨7,"Al","",0,0,some 21,[]⟩,⟨8,"Bo","",0,0,some 25,[]⟩,⟨9,"Cy","",0,0,some 3,[]⟩] s' := by
  have hclient : connected 5000000 quietMoment rankedClient = .ok ⟨some rankedSocket,1⟩ rankedClient := rfl
  have hpages : ∀ w ∈ [(1 : ℤ),2], OnePage rankedRooms fifthValue w := by
    intro w hw
    simp only [List.mem_cons,List.not_mem_nil,or_false] at hw
    rcases hw with rfl | rfl <;> simp [OnePage,rankedRooms,rankedRoom,RoomInfo.fromResponseRoom,rankAttr,fifthValue]
  exact (searchRoomsAll_complete_iff rankedRooms fifthValue hclient answered_ranked).mpr hpages

end Tag2now.Matching
