import Mathlib.Data.Nat.Digits.Defs
import Tag2now.Streams.Packets

/-! # What goes over the wire

A packet has a header of fifteen bytes, little-endian: its type, its command, its whole
size and its id.
-/
namespace Tag2now.Rpcn
open Pieces

inductive Unavailable
  | failed (message : String)
  | cooldown (remaining : ℤ)
  deriving DecidableEq

/-- What the code here raises. -/
inductive Fault
  | rpcnError (message : String)
  | osError (message : String)
  | unavailable (reason : Unavailable)
  | valueError (message : String)
  | unicodeEncodeError
  | structError
  | attributeError
  | decodeError
  | indexError
  deriving DecidableEq

/-- Whether the shared client takes it for the connection's. -/
def Fault.ofConnection : Fault → Bool
  | .rpcnError _ | .osError _ => true
  | _ => false

def headerSize : ℕ := 15

def pktRequest : ℕ := 0
def pktReply : ℕ := 1
def pktNotif : ℕ := 2

inductive Cmd
  | login
  | terminate
  | getServerList
  | getWorldList
  | searchRoom
  | getRoomExternalList
  | getScoreRange
  | getScoreFriends
  | getScoreNpid
  | searchRoomAll
  deriving DecidableEq

def Cmd.value : Cmd → ℕ
  | .login => 0
  | .terminate => 1
  | .getServerList => 12
  | .getWorldList => 13
  | .searchRoom => 17
  | .getRoomExternalList => 18
  | .getScoreRange => 34
  | .getScoreFriends => 35
  | .getScoreNpid => 36
  | .searchRoomAll => 0x0105

def Cmd.label : Cmd → String
  | .login => "Login"
  | .terminate => "Terminate"
  | .getServerList => "GetServerList"
  | .getWorldList => "GetWorldList"
  | .searchRoom => "SearchRoom"
  | .getRoomExternalList => "GetRoomExternalList"
  | .getScoreRange => "GetScoreRange"
  | .getScoreFriends => "GetScoreFriends"
  | .getScoreNpid => "GetScoreNpid"
  | .searchRoomAll => "SearchRoomAll"

def errNoError : UInt8 := 0

def communicationIdSize : ℕ := 12

/-- `struct.pack` of one unsigned field. -/
def pack (size n : ℕ) : Except Fault (List UInt8) :=
  if n < 256 ^ size then .ok ((List.range size).map fun i => UInt8.ofNat (n / 256 ^ i)) else .error .structError

def unpack (bytes : List UInt8) : ℕ := Nat.ofDigits 256 (bytes.map UInt8.toNat)

structure Header where
  pktType : ℕ
  cmd : ℕ
  pktSize : ℕ
  pktId : ℕ
  deriving DecidableEq

def Header.pack (h : Header) : Except Fault (List UInt8) := do
  let pktType ← Rpcn.pack 1 h.pktType
  let cmd ← Rpcn.pack 2 h.cmd
  let pktSize ← Rpcn.pack 4 h.pktSize
  let pktId ← Rpcn.pack 8 h.pktId
  return pktType ++ cmd ++ pktSize ++ pktId

def Header.unpack (bytes : List UInt8) : Header where
  pktType := Rpcn.unpack (bytes.take 1)
  cmd := Rpcn.unpack ((bytes.drop 1).take 2)
  pktSize := Rpcn.unpack ((bytes.drop 3).take 4)
  pktId := Rpcn.unpack ((bytes.drop 7).take 8)

/-- The size in a header counts the header. -/
def packet : Format UInt8 Header where
  headerSize := headerSize
  header := Header.unpack
  bodySize h := h.pktSize - headerSize
  headerSize_pos := by decide

def isNotif (h : Header) : Bool := h.pktType = pktNotif

/-- `str.encode("ascii")`. -/
def encodeAscii (s : String) : Except Fault (List UInt8) :=
  if s.toList.all fun c => c.toNat < 128 then .ok (s.toList.map fun c => UInt8.ofNat c.toNat)
  else .error .unicodeEncodeError

end Tag2now.Rpcn
