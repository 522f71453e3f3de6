import Tag2now.Rpcn.Wire

/-! # The RPCN client

A client sends requests over one socket and reads packets until a reply comes. What the
other end sends, how it arrives and which sends fail is the socket's; the protobuf codec
is a parameter.
-/
namespace Tag2now.Rpcn
open Pieces

structure Socket where
  /-- Failures carry the `OSError`'s text. -/
  incoming : Source UInt8 String
  /-- What the next sends meet: nothing, or an `OSError`. -/
  sending : List (Option String)
  sent : List (List UInt8)

structure RpcnClient where
  sock : Option Socket
  packetId : ℕ

/-! ## Messages -/

structure SearchRoomRequest where
  worldId : ℕ
  option : ℕ
  flagAttr : ℕ
  flagFilter : ℕ
  attrId : List ℕ
  rangeFilterStartIndex : ℕ
  rangeFilterMax : ℕ
  deriving DecidableEq

structure PbUserInfo where
  npId : String
  onlineName : String
  avatarUrl : String

structure PbIntAttr where
  id : ℕ
  num : ℕ

/-- `RoomDataExternalAll`, as far as a room listing reads it. -/
structure PbRoom where
  roomId : ℕ
  maxSlot : ℕ
  curMemberNum : ℕ
  owner : PbUserInfo
  roomSearchableIntAttrExternal : List PbIntAttr
  users : List PbUserInfo

structure SearchRoomAllResponse where
  total : ℕ
  rooms : List PbRoom

/-- The codec made from the proto file. Bytes it cannot read raise `DecodeError`. -/
structure Protobuf where
  serialize : SearchRoomRequest → List UInt8
  parse : List UInt8 → Option SearchRoomAllResponse

structure UserInfo where
  onlineName : String
  avatarUrl : String
  npid : String

structure RoomAttr where
  id : ℕ
  value : ℕ

structure RoomInfo where
  roomId : ℕ
  ownerNpid : String
  ownerOnlineName : String
  currentMembers : ℕ
  maxSlots : ℕ
  intAttrs : List RoomAttr
  users : List UserInfo

def RoomInfo.fromResponseRoom (room : PbRoom) : RoomInfo where
  roomId := room.roomId
  ownerNpid := room.owner.npId
  ownerOnlineName := room.owner.onlineName
  currentMembers := room.curMemberNum
  maxSlots := room.maxSlot
  intAttrs := room.roomSearchableIntAttrExternal.map fun a => ⟨a.id,a.num⟩
  users := room.users.map fun u => ⟨u.onlineName,u.avatarUrl,u.npId⟩

structure SearchRoomsResult where
  total : ℕ
  rooms : List RoomInfo

/-! ## The socket -/
section
variable {α : Type}

def connectionClosed : Fault := .rpcnError "Connection closed unexpectedly by server"

/-- A reader stopped by the close is told so; one stopped by a failure raises it. -/
def stopped : Stop String → Fault
  | .closed => connectionClosed
  | .failed message => .osError message

def onIncoming (read : Source UInt8 String → Except (Stop String) α × Source UInt8 String) :
    EStateM Fault Socket α := fun sock =>
  match read sock.incoming with
  | (.ok a,rest) => .ok a { sock with incoming := rest }
  | (.error e,rest) => .error (stopped e) { sock with incoming := rest }

def sendall (bytes : List UInt8) : EStateM Fault Socket Unit := fun sock =>
  match sock.sending with
  | [] => .ok () { sock with sent := sock.sent ++ [bytes] }
  | none :: rest => .ok () { sock with sending := rest, sent := sock.sent ++ [bytes] }
  | some message :: rest => .error (.osError message) { sock with sending := rest }

def recvExact (n : ℕ) : EStateM Fault Socket (List UInt8) := onIncoming (readExact n [])

/-- Packets are read until a reply is found, and notifications discarded. -/
def recvReply : EStateM Fault Socket (UInt8 × List UInt8) := do
  let (header,payload) ← onIncoming (readPast packet isNotif)
  if header.pktType ≠ pktReply then
    throw (.rpcnError ("Unexpected packet type " ++ toString header.pktType ++ " (expected Reply=1)"))
  return (payload.headD 0,payload.tail)

def onSocket (m : EStateM Fault Socket α) : EStateM Fault RpcnClient α := fun client =>
  match client.sock with
  | none => .error .attributeError client
  | some sock =>
    match m sock with
    | .ok a sock' => .ok a { client with sock := some sock' }
    | .error e sock' => .error e { client with sock := some sock' }

end

/-! ## Requests -/

def send (cmd : Cmd) (payload : List UInt8) : EStateM Fault RpcnClient Unit := do
  modify fun client => { client with packetId := client.packetId + 1 }
  let client ← get
  let header ← ofExcept (Header.pack ⟨pktRequest,cmd.value,headerSize + payload.length,client.packetId⟩)
  onSocket (sendall (header ++ payload))

def requestWithData (comId : String) (cmd : Cmd) (reqData : List UInt8) : EStateM Fault RpcnClient (List UInt8) := do
  if comId.length ≠ communicationIdSize then
    throw (.valueError ("comm ID must be exactly 12 chars, got " ++ toString comId.length))
  let payload ← ofExcept (encodeAscii comId)
  send cmd (payload ++ reqData)
  let (error,data) ← onSocket recvReply
  if error ≠ errNoError then
    throw (.rpcnError (cmd.label ++ " error " ++ toString error.toNat))
  return data

def disconnect : EStateM Fault RpcnClient Unit := do
  tryCatch (send .terminate []) fun _ => pure ()
  modify fun client => { client with sock := none }

/-- Assignment to an unsigned 32-bit field of a message. -/
def uint32 (n : ℤ) : Except Fault ℕ :=
  if 0 ≤ n ∧ n < 2 ^ 32 then .ok n.toNat else .error (.valueError ("Value out of range: " ++ toString n))

def buildSearchRoomRequest (worldId flagAttr startIndex maxResults : ℤ) : Except Fault SearchRoomRequest := do
  let worldId ← uint32 worldId
  let flagAttr ← uint32 flagAttr
  let rangeFilterStartIndex ← uint32 (max 1 startIndex)
  let rangeFilterMax ← uint32 (min maxResults 20)
  return {
    worldId, option := 31, flagAttr, flagFilter := 0
    attrId := [0x4C,0x4D,0x4E,0x4F,0x50,0x51,0x52,0x53]
    rangeFilterStartIndex, rangeFilterMax }

/-- A data packet is its length and the protobuf bytes. -/
def unpackDataPacket (data : List UInt8) : Except Fault (List UInt8) :=
  if data.length < 4 then .error (.rpcnError ("Data packet too short: " ++ toString data.length ++ " bytes"))
  else .ok ((data.drop 4).take (unpack (data.take 4)))

section
variable (P : Protobuf) (comId : String)

def requestProto (cmd : Cmd) (req : SearchRoomRequest) : EStateM Fault RpcnClient (List UInt8) := do
  let raw := P.serialize req
  let size ← ofExcept (pack 4 raw.length)
  requestWithData comId cmd (size ++ raw)

def searchRoomsResult (data : List UInt8) : Except Fault SearchRoomsResult := do
  let raw ← unpackDataPacket data
  match P.parse raw with
  | none => .error .decodeError
  | some resp => return ⟨resp.total,resp.rooms.map RoomInfo.fromResponseRoom⟩

def searchRoomsAll (worldId startIndex maxResults flagAttr : ℤ) : EStateM Fault RpcnClient SearchRoomsResult := do
  let req ← ofExcept (buildSearchRoomRequest worldId flagAttr startIndex maxResults)
  let data ← requestProto P comId .searchRoomAll req
  ofExcept (searchRoomsResult P data)

end

end Tag2now.Rpcn
