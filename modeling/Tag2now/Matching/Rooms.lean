import Mathlib.Algebra.GroupWithZero.Nat

/-! # Rooms as the game server lists them -/
namespace Tag2now.Matching

inductive RoomType
  | playerMatch
  | rankMatch
  deriving DecidableEq

structure RoomUser where
  onlineName : String
  avatarUrl : String
  npid : String
  deriving DecidableEq

/-- A listed room. Its type and its rank both come from one rank code, so a room has a
rank just when it is a rank match. -/
structure RoomInfoDTO where
  roomId : ℕ
  ownerNpid : String
  ownerOnlineName : String
  currentMembers : ℕ
  maxSlots : ℕ
  rankInfo : Option ℕ
  users : List RoomUser
  deriving DecidableEq

def RoomInfoDTO.roomType (room : RoomInfoDTO) : RoomType :=
  if room.rankInfo.isSome then .rankMatch else .playerMatch

structure ActivityObservation where
  rankPlayerNpids : List String
  totalPlayers : ℕ
  totalRooms : ℕ
  rankPlayers : ℕ
  rankRooms : ℕ
  /-- Two-member rank rooms: matches in progress at the moment of observation. -/
  rankMatches : List RoomInfoDTO

def rankRooms (rooms : List RoomInfoDTO) : List RoomInfoDTO :=
  rooms.filter fun room => room.roomType = .rankMatch ∧ 1 ≤ room.currentMembers

/-- Current player counts and rank participants. -/
def activityObservation (rooms : List RoomInfoDTO) : ActivityObservation where
  rankPlayerNpids := (((rankRooms rooms).flatMap (·.users)).map (·.npid)).filter (· ≠ "")
  totalPlayers := (rooms.map (·.users.length)).sum
  totalRooms := rooms.length
  rankPlayers := ((rankRooms rooms).map (·.users.length)).sum
  rankRooms := (rankRooms rooms).length
  rankMatches := (rankRooms rooms).filter (·.currentMembers = 2)

end Tag2now.Matching
