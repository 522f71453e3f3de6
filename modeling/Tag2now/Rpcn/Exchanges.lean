import Tag2now.Collections.Fallible
import Tag2now.Rpcn.Client

/-! # Exchanges on a line

A search sends one request and waits for one reply. How that ends is told by the packets
that are still to come, by why there are no more, and by the send itself, whatever the
pieces the bytes arrive in.
-/
namespace Tag2now.Rpcn
open Collections Pieces

/-- How an exchange ends. -/
inductive Exchange
  | replied (payload : List UInt8)
  /-- A packet that is neither a reply nor a notification stood where the reply should be. -/
  | outOfStep (pktType : ℕ)
  /-- The stream ended inside the packet, or where it should have begun. -/
  | lost
  | failed (message : String)
  deriving DecidableEq

/-- What a socket has yet to give. -/
structure Line where
  packets : List (Header × List UInt8)
  stop : Stop String
  sending : List (Option String)

def Socket.line (sock : Socket) : Line := ⟨packets packet (content sock.incoming),stop sock.incoming,sock.sending⟩

namespace Line

/-- The packets from the first that is no notification. -/
def pending (l : Line) : List (Header × List UInt8) := l.packets.dropWhile fun p => isNotif p.1

def wait (l : Line) : Exchange :=
  match l.pending with
  | [] =>
    match l.stop with
    | .closed => .lost
    | .failed message => .failed message
  | (header,payload) :: _ => if header.pktType = pktReply then .replied payload else .outOfStep header.pktType

theorem wait_closed {l : Line} (hp : l.pending = []) (hs : l.stop = .closed) : l.wait = .lost := by
  unfold wait
  rw [hp,hs]

theorem wait_failed {l : Line} {message : String} (hp : l.pending = []) (hs : l.stop = .failed message) :
    l.wait = .failed message := by
  unfold wait
  rw [hp,hs]

theorem wait_cons {l : Line} {header : Header} {payload : List UInt8} {ps : List (Header × List UInt8)}
    (hp : l.pending = (header,payload) :: ps) :
    l.wait = if header.pktType = pktReply then .replied payload else .outOfStep header.pktType := by
  unfold wait
  rw [hp]

def received (l : Line) : Line := { l with packets := l.pending.tail }

def exchange (l : Line) : Exchange :=
  match l.sending with
  | some message :: _ => .failed message
  | _ => l.wait

def next (l : Line) : Line := { l.received with sending := l.sending.tail }

end Line

def Exchange.reply : Exchange → Except Fault (UInt8 × List UInt8)
  | .replied payload => .ok (payload.headD 0,payload.tail)
  | .outOfStep pktType =>
    .error (.rpcnError ("Unexpected packet type " ++ toString pktType ++ " (expected Reply=1)"))
  | .lost => .error connectionClosed
  | .failed message => .error (.osError message)

/-- An outcome with the state behind it. -/
def withState {σ α : Type} (s : σ) : Except Fault α → EStateM.Result Fault σ α
  | .ok a => .ok a s
  | .error e => .error e s

theorem recvReply_wait (sock : Socket) : ∃ sock', recvReply sock = withState sock' sock.line.wait.reply ∧
    ((∀ message, sock.line.wait ≠ .failed message) → sock'.line = sock.line.received) := by
  cases hp : sock.line.pending with
  | nil =>
    have hskipped : (packets packet (content sock.incoming)).dropWhile (fun p => isNotif p.1) = [] := hp
    obtain ⟨s',hread,hclosed⟩ := readPast_nil hskipped
    have hrecv : recvReply sock = .error (stopped (stop sock.incoming)) { sock with incoming := s' } := by
      simp only [recvReply,bind,EStateM.bind,onIncoming,hread]
    refine ⟨{ sock with incoming := s' },?_⟩
    cases hstop : stop sock.incoming with
    | closed =>
      have hwait : sock.line.wait = .lost := Line.wait_closed hp hstop
      refine ⟨by rw [hrecv,hwait,hstop]; rfl,fun _ => ?_⟩
      have hreceived : sock.line.received = ⟨[],.closed,sock.sending⟩ := by
        unfold Line.received
        rw [hp]
        exact congrArg (Line.mk [] · sock.sending) hstop
      rw [hreceived,hclosed hstop]
      exact congrArg (Line.mk · .closed sock.sending) packets_nil
    | failed message =>
      have hwait : sock.line.wait = .failed message := Line.wait_failed hp hstop
      exact ⟨by rw [hrecv,hwait,hstop]; rfl,fun hnot => absurd hwait (hnot message)⟩
  | cons p ps =>
    obtain ⟨header,payload⟩ := p
    have hfirst : (packets packet (content sock.incoming)).dropWhile (fun p => isNotif p.1) = (header,payload) :: ps :=
      hp
    obtain ⟨s',hread,hpackets,hstop⟩ := readPast_cons hfirst
    refine ⟨{ sock with incoming := s' },?_,fun _ => ?_⟩
    · rw [Line.wait_cons hp]
      simp only [recvReply,bind,EStateM.bind,onIncoming,hread]
      by_cases hreply : header.pktType = pktReply
      · rw [if_pos hreply,if_neg (not_not.mpr hreply)]
        rfl
      · rw [if_neg hreply,if_pos hreply]
        rfl
    · unfold Line.received
      rw [hp]
      exact congrArg₂ (Line.mk · · sock.sending) hpackets hstop

theorem sendall_failed {sock : Socket} {message : String} {rest : List (Option String)}
    (h : sock.sending = some message :: rest) (bytes : List UInt8) :
    ∃ sock', sendall bytes sock = .error (.osError message) sock' :=
  ⟨{ sock with sending := rest },by unfold sendall; rw [h]⟩

theorem sendall_sent {sock : Socket} (h : ∀ message rest, sock.sending ≠ some message :: rest)
    (bytes : List UInt8) :
    ∃ sock', sendall bytes sock = .ok () sock' ∧ sock'.line = { sock.line with sending := sock.sending.tail } := by
  cases hs : sock.sending with
  | nil =>
    refine ⟨{ sock with sent := sock.sent ++ [bytes] },?_,?_⟩
    · unfold sendall
      rw [hs]
    · unfold Socket.line
      rw [hs]
      rfl
  | cons first rest =>
    cases first with
    | none => exact ⟨{ sock with sending := rest, sent := sock.sent ++ [bytes] },by unfold sendall; rw [hs],rfl⟩
    | some message => exact absurd hs (h message rest)

/-- Bytes sent and a reply awaited are one exchange, whatever is made of the reply. -/
theorem asked_exchange {α : Type} (s : Socket) (k : ℕ) (bytes : List UInt8) (f : UInt8 × List UInt8 → Except Fault α) :
    ∃ sock',
      (do onSocket (sendall bytes); ofExcept (f (← onSocket recvReply)) : EStateM Fault RpcnClient α) ⟨some s,k⟩ =
        withState ⟨some sock',k⟩ (s.line.exchange.reply >>= f) ∧
      ((∀ message, s.line.exchange ≠ .failed message) → sock'.line = s.line.next) := by
  by_cases hs : ∃ message rest, s.sending = some message :: rest
  · obtain ⟨message,rest,hs⟩ := hs
    obtain ⟨sock',hsend⟩ := sendall_failed hs bytes
    have hexchange : s.line.exchange = .failed message := by
      unfold Line.exchange
      rw [show s.line.sending = _ from hs]
    refine ⟨sock',?_,fun hnot => absurd hexchange (hnot message)⟩
    rw [hexchange]
    simp only [bind,EStateM.bind,onSocket,hsend]
    rfl
  · obtain ⟨sock₁,hsend,hline₁⟩ := sendall_sent (fun message rest h => hs ⟨message,rest,h⟩) bytes
    have hexchange : s.line.exchange = sock₁.line.wait := by
      rw [hline₁]
      unfold Line.exchange
      split
      · rename_i message rest hsending
        exact absurd ⟨message,rest,hsending⟩ hs
      · rfl
    obtain ⟨sock',hrecv,hline⟩ := recvReply_wait sock₁
    refine ⟨sock',?_,fun hnot => ?_⟩
    · rw [hexchange]
      simp only [bind,EStateM.bind,onSocket,hsend,hrecv]
      cases sock₁.line.wait.reply with
      | error e => rfl
      | ok reply =>
        simp only [withState,Except.bind]
        cases f reply <;> rfl
    · rw [hline (fun message hw => hnot message (hexchange.trans hw)),hline₁]
      rfl

section
variable (P : Protobuf) (comId : String) {worldId : ℤ}

/-- The packet that asks for the rooms of a world, unless one of the code's checks refuses it. -/
def request (worldId : ℤ) (packetId : ℕ) : Except Fault (List UInt8) := do
  let req ← buildSearchRoomRequest worldId 0 1 20
  let raw := P.serialize req
  let size ← pack 4 raw.length
  if comId.length ≠ communicationIdSize then
    throw (.valueError ("comm ID must be exactly 12 chars, got " ++ toString comId.length))
  let payload ← encodeAscii comId
  let header ← Header.pack ⟨pktRequest,Cmd.searchRoomAll.value,headerSize + (payload ++ (size ++ raw)).length,packetId⟩
  return header ++ (payload ++ (size ++ raw))

/-- What a reply is to the search that waited for it. -/
def answer (reply : UInt8 × List UInt8) : Except Fault SearchRoomsResult :=
  if reply.1 ≠ errNoError then .error (.rpcnError (Cmd.searchRoomAll.label ++ " error " ++ toString reply.1.toNat))
  else searchRoomsResult P reply.2

variable {P comId}

theorem searchRoomsAll_requested {c : RpcnClient} {bytes : List UInt8}
    (h : request P comId worldId (c.packetId + 1) = .ok bytes) :
    searchRoomsAll P comId worldId 1 20 0 c =
      (do onSocket (sendall bytes); ofExcept (answer P (← onSocket recvReply)) : EStateM Fault RpcnClient _)
        { c with packetId := c.packetId + 1 } := by
  obtain ⟨req,hreq,h⟩ := ok_of_bind h
  obtain ⟨size,hsize,h⟩ := ok_of_bind h
  split at h
  · cases h
  rename_i hcom
  obtain ⟨payload,hpayload,h⟩ := ok_of_bind h
  obtain ⟨header,hheader,h⟩ := ok_of_bind h
  cases h
  unfold searchRoomsAll requestProto requestWithData send
  rw [hreq]
  simp only [bind,EStateM.bind,ofExcept,pure,EStateM.pure,hsize,if_neg hcom,hpayload,modify,modifyGet,
    MonadStateOf.modifyGet,modifyGet_ok,get,getThe,MonadStateOf.get,get_ok,hheader]
  cases onSocket (sendall (header ++ (payload ++ (size ++ P.serialize req)))) _ with
  | error e client₁ => rfl
  | ok _ client₁ =>
    simp only
    cases onSocket recvReply client₁ with
    | error e client₂ => rfl
    | ok reply client₂ =>
      by_cases herror : reply.1 = errNoError
      · simp only [answer,if_neg (not_not.mpr herror)]
        rfl
      · simp only [answer,if_pos herror]
        rfl

theorem searchRoomsAll_refused {c : RpcnClient} {e : Fault}
    (h : request P comId worldId (c.packetId + 1) = .error e) :
    ∃ client', searchRoomsAll P comId worldId 1 20 0 c = .error e client' := by
  unfold request at h
  unfold searchRoomsAll requestProto requestWithData send
  rcases error_of_bind h with hreq | ⟨req,hreq,h⟩
  · exact ⟨c,by simp only [bind,EStateM.bind,ofExcept,hreq]; rfl⟩
  rcases error_of_bind h with hsize | ⟨size,hsize,h⟩
  · exact ⟨c,by simp only [bind,EStateM.bind,ofExcept,pure,EStateM.pure,hreq,hsize]; rfl⟩
  split at h
  · rename_i hcom
    cases h
    exact ⟨c,by simp only [bind,EStateM.bind,ofExcept,pure,EStateM.pure,hreq,hsize,if_pos hcom]; rfl⟩
  rename_i hcom
  rcases error_of_bind h with hpayload | ⟨payload,hpayload,h⟩
  · exact ⟨c,by
      simp only [bind,EStateM.bind,ofExcept,pure,EStateM.pure,hreq,hsize,if_neg hcom,hpayload]; rfl⟩
  rcases error_of_bind h with hheader | ⟨header,hheader,h⟩
  · refine ⟨{ c with packetId := c.packetId + 1 },?_⟩
    simp only [bind,EStateM.bind,ofExcept,pure,EStateM.pure,hreq,hsize,if_neg hcom,hpayload,modify,modifyGet,
      MonadStateOf.modifyGet,modifyGet_ok,get,getThe,MonadStateOf.get,get_ok,hheader]
    rfl
  · cases h

section Checks
variable {e : Fault}

theorem pack_error {size n : ℕ} (h : pack size n = .error e) : e.ofConnection = false := by
  unfold pack at h
  split at h
  · cases h
  · cases h; rfl

theorem header_error {header : Header} (h : header.pack = .error e) : e.ofConnection = false := by
  rcases error_of_bind h with h | ⟨_,_,h⟩
  · exact pack_error h
  rcases error_of_bind h with h | ⟨_,_,h⟩
  · exact pack_error h
  rcases error_of_bind h with h | ⟨_,_,h⟩
  · exact pack_error h
  rcases error_of_bind h with h | ⟨_,_,h⟩
  · exact pack_error h
  · cases h

theorem uint32_error {n : ℤ} (h : uint32 n = .error e) : e.ofConnection = false := by
  unfold uint32 at h
  split at h
  · cases h
  · cases h; rfl

theorem buildSearchRoomRequest_error {flagAttr startIndex maxResults : ℤ}
    (h : buildSearchRoomRequest worldId flagAttr startIndex maxResults = .error e) : e.ofConnection = false := by
  rcases error_of_bind h with h | ⟨_,_,h⟩
  · exact uint32_error h
  rcases error_of_bind h with h | ⟨_,_,h⟩
  · exact uint32_error h
  rcases error_of_bind h with h | ⟨_,_,h⟩
  · exact uint32_error h
  rcases error_of_bind h with h | ⟨_,_,h⟩
  · exact uint32_error h
  · cases h

theorem encodeAscii_error {s : String} (h : encodeAscii s = .error e) : e.ofConnection = false := by
  unfold encodeAscii at h
  split at h
  · cases h
  · cases h; rfl

/-- A request that is refused is refused by the code's own checks. -/
theorem request_error {packetId : ℕ} (h : request P comId worldId packetId = .error e) :
    e.ofConnection = false := by
  unfold request at h
  rcases error_of_bind h with h | ⟨_,_,h⟩
  · exact buildSearchRoomRequest_error h
  rcases error_of_bind h with h | ⟨_,_,h⟩
  · exact pack_error h
  split at h
  · cases h; rfl
  rcases error_of_bind h with h | ⟨_,_,h⟩
  · exact encodeAscii_error h
  rcases error_of_bind h with h | ⟨_,_,h⟩
  · exact header_error h
  · cases h

end Checks

theorem searchRoomsAll_exchange {s : Socket} {k : ℕ} {bytes : List UInt8}
    (h : request P comId worldId (k + 1) = .ok bytes) :
    ∃ sock', searchRoomsAll P comId worldId 1 20 0 ⟨some s,k⟩ =
        withState ⟨some sock',k + 1⟩ (s.line.exchange.reply >>= answer P) ∧
      ((∀ message, s.line.exchange ≠ .failed message) → sock'.line = s.line.next) := by
  rw [searchRoomsAll_requested (c := ⟨some s,k⟩) h]
  exact asked_exchange s (k + 1) bytes (answer P)

end

end Tag2now.Rpcn
