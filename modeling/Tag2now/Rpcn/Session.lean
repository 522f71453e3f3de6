import Tag2now.Rpcn.Framing

/-! # Beginning a session

The server introduces itself with a packet that tells its protocol's version, and the client
logs in. What the login answers is told by the packets on the line.
-/
namespace Tag2now.Rpcn
open Collections Pieces

def pktServerInfo : ℕ := 3

def protocolVersion : ℕ := 30

/-- The texts are decoded with replacement characters, which fails on no bytes. -/
structure LoginInfo where
  onlineName : List UInt8
  avatarUrl : List UInt8
  npid : ℤ
  deriving DecidableEq

/-- A text up to its zero byte, and the place behind it. -/
def readNullTerminatedStr (data : List UInt8) (pos : ℕ) : Except Fault (List UInt8 × ℕ) :=
  if 0 ∈ data.drop pos then
    let text := (data.drop pos).takeWhile (· ≠ 0)
    .ok (text,pos + text.length + 1)
  else .error (.valueError "subsection not found")

/-- `struct.unpack_from("<q", data, pos)`. -/
def unpackSigned (data : List UInt8) (pos : ℕ) : Except Fault ℤ :=
  if data.length < pos + 8 then .error .structError
  else
    let n := unpack ((data.drop pos).take 8)
    .ok (if n < 2 ^ 63 then n else n - 2 ^ 64)

def loginError (error : UInt8) : String :=
  if error = 5 then "LoginError"
  else if error = 6 then "LoginAlreadyLoggedIn"
  else if error = 7 then "LoginInvalidUsername"
  else if error = 8 then "LoginInvalidPassword"
  else if error = 9 then "LoginInvalidToken"
  else "error " ++ toString error.toNat

/-- What a reply is to the login that waited for it. -/
def loginInfo (reply : UInt8 × List UInt8) : Except Fault LoginInfo := do
  if reply.1 ≠ errNoError then throw (.rpcnError ("Login failed: " ++ loginError reply.1))
  let (onlineName,pos) ← readNullTerminatedStr reply.2 0
  let (avatarUrl,pos) ← readNullTerminatedStr reply.2 pos
  let npid ← unpackSigned reply.2 pos
  return ⟨onlineName,avatarUrl,npid⟩

structure Credentials where
  username : String
  password : String
  token : String

def utf8 (s : String) : List UInt8 := s.toUTF8.data.toList

def Credentials.payload (c : Credentials) : List UInt8 :=
  utf8 c.username ++ [0] ++ utf8 c.password ++ [0] ++ utf8 c.token ++ [0]

def login (credentials : Credentials) : EStateM Fault RpcnClient LoginInfo := do
  send .login credentials.payload
  let reply ← onSocket recvReply
  ofExcept (loginInfo reply)

def ensureServerInfo (header : Header) : Except Fault Unit :=
  if header.pktType ≠ pktServerInfo then
    .error (.rpcnError ("Expected ServerInfo packet (type 3), got " ++ toString header.pktType))
  else if header.pktSize < headerSize + 4 then .error (.rpcnError "ServerInfo payload too short")
  else .ok ()

def ensureVersion (version : ℕ) : Except Fault ℕ :=
  if version ≠ protocolVersion then
    .error (.rpcnError ("Protocol version mismatch: server=" ++ toString version ++ ", client=" ++
      toString protocolVersion))
  else .ok version

/-- The handshake packet of a new connection, and the version it tells. -/
def serverInfo : EStateM Fault Socket ℕ := do
  let header := Header.unpack (← recvExact headerSize)
  ofExcept (ensureServerInfo header)
  let payload ← recvExact (header.pktSize - headerSize)
  ofExcept (ensureVersion (unpack (payload.take 4)))

/-! ## What the line has to give -/

def Introduces (p : Header × List UInt8) : Prop :=
  p.1.pktType = pktServerInfo ∧ headerSize + 4 ≤ p.1.pktSize ∧ unpack (p.2.take 4) = protocolVersion

/-- The login's packet has room in a header, it is sent, and the reply to it tells of its success. -/
def Admits (credentials : Credentials) (l : Line) : Prop :=
  headerSize + credentials.payload.length < 2 ^ 32 ∧
    ∃ payload info, l.exchange = .replied payload ∧ loginInfo (payload.headD 0,payload.tail) = .ok info

def LetsIn (credentials : Credentials) (l : Line) : Prop :=
  ∃ p ps, l.packets = p :: ps ∧ Introduces p ∧ Admits credentials { l with packets := ps }

theorem packets_cons {xs : List UInt8} {p : Header × List UInt8} {ps : List (Header × List UInt8)}
    (h : packets packet xs = p :: ps) : ∃ rest, packet? packet xs = some (p,rest) ∧ packets packet rest = ps := by
  cases hp : packet? packet xs with
  | none =>
    rw [packets_none hp] at h
    cases h
  | some found =>
    obtain ⟨q,rest⟩ := found
    rw [packets_some hp] at h
    obtain ⟨rfl,hps⟩ := List.cons.inj h
    exact ⟨rest,rfl,hps⟩

theorem ensureServerInfo_ok {header : Header} : ensureServerInfo header = .ok () ↔
    header.pktType = pktServerInfo ∧ headerSize + 4 ≤ header.pktSize := by
  unfold ensureServerInfo
  split
  · rename_i h
    simp [h]
  · split
    · rename_i h
      simp [Nat.not_le.mpr h]
    · rename_i htype hsize
      exact iff_of_true rfl ⟨not_not.mp htype,Nat.not_lt.mp hsize⟩

theorem ensureVersion_ok {version v : ℕ} : ensureVersion version = .ok v ↔ version = protocolVersion ∧ v = version := by
  unfold ensureVersion
  split
  · rename_i h
    simp [h]
  · rename_i h
    simp [not_not.mp h,eq_comm]

/-- The first packet of a socket, read in two pieces. -/
theorem recvExact_packet {sock : Socket} {p : Header × List UInt8} {rest : List UInt8}
    (h : packet? packet (content sock.incoming) = some (p,rest)) :
    ∃ front sock₁ sock₂, recvExact headerSize sock = .ok front sock₁ ∧ Header.unpack front = p.1 ∧
      recvExact (p.1.pktSize - headerSize) sock₁ = .ok p.2 sock₂ ∧ content sock₂.incoming = rest ∧
      stop sock₂.incoming = stop sock.incoming ∧ sock₂.sending = sock.sending := by
  unfold packet? at h
  simp only at h
  split at h
  case isFalse => cases h
  rename_i hsize
  obtain ⟨rfl,rfl⟩ := Prod.mk.inj (Option.some.inj h)
  obtain ⟨s₁,hfront,hcontent₁,hstop₁⟩ := readExact_next hsize.1
  have hbody : packet.bodySize (packet.header ((content sock.incoming).take packet.headerSize)) ≤
      (content s₁).length := by
    rw [hcontent₁]
    exact hsize.2
  obtain ⟨s₂,hread,hcontent₂,hstop₂⟩ := readExact_next hbody
  rw [hcontent₁] at hread hcontent₂
  refine ⟨_,{ sock with incoming := s₁ },{ sock with incoming := s₂ },?_,rfl,?_,hcontent₂,hstop₂.trans hstop₁,rfl⟩
  · unfold recvExact onIncoming
    rw [show headerSize = packet.headerSize from rfl,hfront]
  · unfold recvExact onIncoming
    rw [show (packet.header ((content sock.incoming).take packet.headerSize)).pktSize - headerSize =
      packet.bodySize (packet.header ((content sock.incoming).take packet.headerSize)) from rfl,hread]

/-- A content that ends inside its first packet stops one of the two reads. -/
theorem recvExact_cut {sock : Socket} (h : packet? packet (content sock.incoming) = none) :
    (∃ e sock', recvExact headerSize sock = .error e sock') ∨
      ∃ front sock₁ e sock', recvExact headerSize sock = .ok front sock₁ ∧
        recvExact ((Header.unpack front).pktSize - headerSize) sock₁ = .error e sock' := by
  rcases Nat.lt_or_ge (content sock.incoming).length headerSize with hshort | hlong
  · obtain ⟨sock',hstops⟩ := recvExact_stops hshort
    exact .inl ⟨_,sock',hstops⟩
  · obtain ⟨s₁,hfront,hcontent⟩ := recvExact_next hlong
    have hbody : (content s₁).length <
        (Header.unpack ((content sock.incoming).take headerSize)).pktSize - headerSize := by
      unfold packet? at h
      simp only at h
      split at h
      · cases h
      · rename_i hsize
        rw [hcontent]
        exact Nat.lt_of_not_le fun hle => hsize ⟨hlong,hle⟩
    obtain ⟨sock',hstops⟩ : ∃ sock', recvExact _ { sock with incoming := s₁ } = _ := recvExact_stops hbody
    exact .inr ⟨_,_,_,sock',hfront,hstops⟩

theorem serverInfo_introduced {sock : Socket} {p : Header × List UInt8} {ps : List (Header × List UInt8)}
    (hp : sock.line.packets = p :: ps) (h : Introduces p) :
    ∃ sock', serverInfo sock = .ok protocolVersion sock' ∧ sock'.line = { sock.line with packets := ps } := by
  obtain ⟨rest,hpacket,hrest⟩ := packets_cons hp
  obtain ⟨front,sock₁,sock₂,hfront,hheader,hread,hcontent,hstop,hsending⟩ := recvExact_packet hpacket
  obtain ⟨htype,hsize,hversion⟩ := h
  have hinfo := ensureServerInfo_ok.mpr ⟨htype,hsize⟩
  have hok := ensureVersion_ok.mpr ⟨hversion,hversion.symm⟩
  refine ⟨sock₂,?_,?_⟩
  · unfold serverInfo
    simp only [bind,EStateM.bind,hfront,hheader,ofExcept,hinfo,pure,EStateM.pure,hread,hok]
  · unfold Socket.line
    rw [hcontent,hstop,hsending,hrest]

theorem serverInfo_refused {sock : Socket} (h : ∀ p ps, sock.line.packets = p :: ps → ¬ Introduces p) :
    ∃ e sock', serverInfo sock = .error e sock' := by
  cases hpacket : packet? packet (content sock.incoming) with
  | some found =>
    obtain ⟨p,rest⟩ := found
    obtain ⟨front,sock₁,sock₂,hfront,hheader,hread,_⟩ := recvExact_packet hpacket
    have hnot := h p _ (packets_some hpacket)
    unfold serverInfo
    simp only [bind,EStateM.bind,hfront,hheader,ofExcept]
    cases hinfo : ensureServerInfo p.1 with
    | error e => exact ⟨e,_,rfl⟩
    | ok _ =>
      simp only [pure,EStateM.pure,hread]
      cases hversion : ensureVersion (unpack (p.2.take 4)) with
      | error e => exact ⟨e,_,rfl⟩
      | ok v =>
        obtain ⟨htype,hsize⟩ := ensureServerInfo_ok.mp hinfo
        exact absurd ⟨htype,hsize,(ensureVersion_ok.mp hversion).1⟩ hnot
  | none =>
    unfold serverInfo
    simp only [bind,EStateM.bind,ofExcept]
    rcases recvExact_cut hpacket with ⟨e,sock',hfront⟩ | ⟨front,sock₁,e,sock',hfront,hbody⟩
    · exact ⟨e,sock',by rw [hfront]⟩
    · simp only [hfront]
      cases ensureServerInfo (Header.unpack front) with
      | error e' => exact ⟨e',sock₁,rfl⟩
      | ok _ => exact ⟨e,sock',by simp only [pure,EStateM.pure,hbody]⟩

theorem login_packed {credentials : Credentials} {sock : Socket} {k : ℕ} {front : List UInt8}
    (h : (requestPacket (k + 1) .login credentials.payload).1.pack = .ok front) :
    ∃ sock', login credentials ⟨some sock,k⟩ =
      withState ⟨some sock',k + 1⟩ (sock.line.exchange.reply >>= loginInfo) := by
  obtain ⟨sock',hexchange,_⟩ := asked_exchange sock (k + 1) (front ++ credentials.payload) loginInfo
  refine ⟨sock',?_⟩
  rw [← hexchange]
  unfold login
  simp only [bind,EStateM.bind,send_packed h]

theorem exchange_reply_ok {x : Exchange} {reply : UInt8 × List UInt8} (h : x.reply = .ok reply) :
    ∃ payload, x = .replied payload ∧ reply = (payload.headD 0,payload.tail) := by
  cases x with
  | replied payload =>
    cases h
    exact ⟨payload,rfl,rfl⟩
  | _ => cases h

/-- A first login succeeds just where the line admits it, and keeps its socket however it ends. -/
theorem login_first (credentials : Credentials) (sock : Socket) : ∃ sock',
    (Admits credentials sock.line → ∃ info, login credentials ⟨some sock,0⟩ = .ok info ⟨some sock',1⟩) ∧
      (¬ Admits credentials sock.line → ∃ e, login credentials ⟨some sock,0⟩ = .error e ⟨some sock',1⟩) := by
  by_cases hfits : headerSize + credentials.payload.length < 2 ^ 32
  · obtain ⟨front,hpack⟩ := Header.pack_fits (requestPacket_fits.mpr ⟨hfits,by decide⟩ :
      (requestPacket (0 + 1) .login credentials.payload).1.Fits)
    obtain ⟨sock',hlogin⟩ : ∃ sock', login credentials ⟨some sock,0⟩ = _ := login_packed hpack
    refine ⟨sock',?_,fun hnot => ?_⟩
    · rintro ⟨_,payload,info,hexchange,hinfo⟩
      refine ⟨info,?_⟩
      rw [hlogin,hexchange]
      change withState _ (loginInfo (payload.headD 0,payload.tail)) = _
      rw [hinfo]
      rfl
    · cases hresult : (sock.line.exchange.reply >>= loginInfo) with
      | error e => exact ⟨e,by rw [hlogin,hresult]; rfl⟩
      | ok info =>
        obtain ⟨reply,hreply,hinfo⟩ := ok_of_bind hresult
        obtain ⟨payload,hexchange,rfl⟩ := exchange_reply_ok hreply
        exact absurd ⟨hfits,payload,info,hexchange,hinfo⟩ hnot
  · refine ⟨sock,fun hadmits => absurd hadmits.1 hfits,fun _ => ⟨.structError,?_⟩⟩
    have hsend : send .login credentials.payload ⟨some sock,0⟩ = .error .structError ⟨some sock,1⟩ :=
      send_structError fun h => hfits (requestPacket_fits.mp h).1
    unfold login
    simp only [bind,EStateM.bind,hsend]

end Tag2now.Rpcn
