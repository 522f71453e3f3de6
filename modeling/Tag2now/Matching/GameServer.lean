import Tag2now.Matching.Rooms
import Tag2now.Matching.RpcnLifecycle
import Tag2now.Rpcn.Client

/-! # Listing the rooms over RPCN

The adapter asks for the rooms of one world after another over the shared client. A world
whose search raises an `RpcnError` adds no rooms.
-/
namespace Tag2now.Matching
open Rpcn

/-- Attribute 4 holds the rank code; 0 means a player match. -/
def rankAttr : ℕ := 4

def room (info : RoomInfo) : Except Fault RoomInfoDTO :=
  match info.intAttrs[rankAttr]? with
  | none => .error .indexError
  | some attr => .ok {
    roomId := info.roomId
    ownerNpid := info.ownerNpid
    ownerOnlineName := info.ownerOnlineName
    currentMembers := info.currentMembers
    maxSlots := info.maxSlots
    rankInfo := if attr.value = 0 then none else some attr.value
    users := info.users.map fun u => ⟨u.onlineName,u.avatarUrl,u.npid⟩ }

def listed (resp : SearchRoomsResult) : Except Fault (List RoomInfoDTO) :=
  if 0 < resp.total then resp.rooms.mapM room else .ok []

section
variable (P : Protobuf) (comId : String)

def searchWorld (worldId : ℤ) : EStateM Fault RpcnClient (List RoomInfoDTO) := do
  let resp ← Rpcn.searchRoomsAll P comId worldId 1 20 0
  ofExcept (listed resp)

def searchWorlds : List ℤ → List RoomInfoDTO → EStateM Fault RpcnClient (List RoomInfoDTO)
  | [],allRooms => pure allRooms
  | worldId :: worlds,allRooms => do
    let rooms ← tryCatch (searchWorld P comId worldId) fun
      | .rpcnError _ => pure []
      | e => throw e
    searchWorlds worlds (allRooms ++ rooms)

def searchRoomsAll (cooldown : ℤ) (worlds : List ℤ) (moment : Moment RpcnClient) :
    EStateM Fault (SharedRpcnClient RpcnClient) (List RoomInfoDTO) :=
  apiClient disconnect cooldown moment (searchWorlds P comId worlds [])

end

end Tag2now.Matching
