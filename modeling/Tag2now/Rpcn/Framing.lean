import Tag2now.Rpcn.Exchanges

/-! # Framing

What the client writes can be read by the header's own format, and what it reads stays in
step with the packets of the other end, however they arrive.
-/
namespace Tag2now.Rpcn
open Collections Pieces

/-! ## Fields and headers -/

theorem unpack_cons (b : UInt8) (bytes : List UInt8) : unpack (b :: bytes) = b.toNat + 256 * unpack bytes :=
  Nat.ofDigits_cons ..

theorem unpack_digits (size : ℕ) {n : ℕ} (h : n < 256 ^ size) :
    unpack ((List.range size).map fun i => UInt8.ofNat (n / 256 ^ i)) = n := by
  induction size generalizing n with
  | zero =>
    have hzero : n = 0 := by simpa using h
    rw [hzero]
    rfl
  | succ size ih =>
    have hrest : n / 256 < 256 ^ size := by
      rw [pow_succ] at h
      exact Nat.div_lt_of_lt_mul (by omega)
    have hshift : (fun i => UInt8.ofNat (n / 256 ^ i)) ∘ Nat.succ = fun i => UInt8.ofNat (n / 256 / 256 ^ i) := by
      funext i
      rw [Function.comp_apply,Nat.div_div_eq_div_mul,Nat.pow_succ']
    rw [List.range_succ_eq_map,List.map_cons,List.map_map,hshift,unpack_cons,ih hrest]
    simp only [pow_zero,Nat.div_one,UInt8.toNat_ofNat']
    omega

theorem pack_ok {size n : ℕ} {bytes : List UInt8} (h : pack size n = .ok bytes) :
    n < 256 ^ size ∧ bytes.length = size ∧ unpack bytes = n := by
  unfold pack at h
  split at h
  · rename_i hsize
    cases h
    exact ⟨hsize,by simp,unpack_digits size hsize⟩
  · cases h

theorem pack_fits {size n : ℕ} (h : n < 256 ^ size) : ∃ bytes, pack size n = .ok bytes :=
  ⟨_,if_pos h⟩

theorem pack_structError {size n : ℕ} {e : Fault} (h : pack size n = .error e) : e = .structError := by
  unfold pack at h
  split at h
  · cases h
  · cases h
    rfl

theorem field {α : Type} {i k : ℕ} {before bytes : List α} (after : List α) (hi : before.length = i)
    (hk : bytes.length = k) :
    ((before ++ (bytes ++ after)).drop i).take k = bytes := by
  rw [List.drop_left' hi,List.take_left' hk]

namespace Header

/-- What a header has room for. -/
def Fits (h : Header) : Prop := h.pktType < 256 ^ 1 ∧ h.cmd < 256 ^ 2 ∧ h.pktSize < 256 ^ 4 ∧ h.pktId < 256 ^ 8

theorem pack_ok {h : Header} {front : List UInt8} (hpack : h.pack = .ok front) :
    h.Fits ∧ front.length = headerSize ∧ Header.unpack front = h := by
  obtain ⟨pktType,htype,hpack⟩ := ok_of_bind hpack
  obtain ⟨cmd,hcmd,hpack⟩ := ok_of_bind hpack
  obtain ⟨pktSize,hsize,hpack⟩ := ok_of_bind hpack
  obtain ⟨pktId,hid,hpack⟩ := ok_of_bind hpack
  cases hpack
  obtain ⟨ftype,ltype,utype⟩ := Rpcn.pack_ok htype
  obtain ⟨fcmd,lcmd,ucmd⟩ := Rpcn.pack_ok hcmd
  obtain ⟨fsize,lsize,usize⟩ := Rpcn.pack_ok hsize
  obtain ⟨fid,lid,uid⟩ := Rpcn.pack_ok hid
  have hlength : (pktType ++ cmd ++ pktSize ++ pktId).length = headerSize := by
    simp only [List.length_append,ltype,lcmd,lsize,lid]
    rfl
  have htype : (pktType ++ cmd ++ pktSize ++ pktId).take 1 = pktType := by
    simp only [List.append_assoc]
    exact List.take_left' ltype
  have hcmd : ((pktType ++ cmd ++ pktSize ++ pktId).drop 1).take 2 = cmd := by
    simp only [List.append_assoc]
    exact field _ ltype lcmd
  have hsize : ((pktType ++ cmd ++ pktSize ++ pktId).drop 3).take 4 = pktSize := by
    rw [List.append_assoc]
    exact field _ (by simp only [List.length_append,ltype,lcmd]) lsize
  have hid : ((pktType ++ cmd ++ pktSize ++ pktId).drop 7).take 8 = pktId := by
    have hbefore : (pktType ++ cmd ++ pktSize).length = 7 := by simp only [List.length_append,ltype,lcmd,lsize]
    have hlast := field [] hbefore lid
    rwa [List.append_nil] at hlast
  have hunpack : Header.unpack (pktType ++ cmd ++ pktSize ++ pktId) = ⟨h.pktType,h.cmd,h.pktSize,h.pktId⟩ := by
    unfold Header.unpack
    rw [htype,hcmd,hsize,hid,utype,ucmd,usize,uid]
  exact ⟨⟨ftype,fcmd,fsize,fid⟩,hlength,hunpack⟩

theorem pack_fits {h : Header} (hfits : h.Fits) : ∃ front, h.pack = .ok front := by
  obtain ⟨htype,hcmd,hsize,hid⟩ := hfits
  obtain ⟨pktType,htype⟩ := Rpcn.pack_fits htype
  obtain ⟨cmd,hcmd⟩ := Rpcn.pack_fits hcmd
  obtain ⟨pktSize,hsize⟩ := Rpcn.pack_fits hsize
  obtain ⟨pktId,hid⟩ := Rpcn.pack_fits hid
  have hpack : h.pack = .ok (pktType ++ cmd ++ pktSize ++ pktId) := by
    unfold Header.pack
    rw [htype,hcmd,hsize,hid]
    rfl
  exact ⟨_,hpack⟩

theorem pack_structError {h : Header} {e : Fault} (hpack : h.pack = .error e) : e = .structError := by
  rcases error_of_bind hpack with hpack | ⟨_,_,hpack⟩
  · exact Rpcn.pack_structError hpack
  rcases error_of_bind hpack with hpack | ⟨_,_,hpack⟩
  · exact Rpcn.pack_structError hpack
  rcases error_of_bind hpack with hpack | ⟨_,_,hpack⟩
  · exact Rpcn.pack_structError hpack
  rcases error_of_bind hpack with hpack | ⟨_,_,hpack⟩
  · exact Rpcn.pack_structError hpack
  · cases hpack

end Header

/-- A packed header is the front of the packet that it tells the size of. -/
theorem frames_pack {h : Header} {front payload : List UInt8} (hpack : h.pack = .ok front)
    (hsize : h.pktSize = headerSize + payload.length) : Frames packet (h,payload) (front ++ payload) := by
  obtain ⟨_,hlength,hunpack⟩ := Header.pack_ok hpack
  have hbody : h.pktSize - headerSize = payload.length := by omega
  exact ⟨front,hlength,hunpack,hbody,rfl⟩

/-! ## Sends -/

def requestPacket (k : ℕ) (cmd : Cmd) (payload : List UInt8) : Header × List UInt8 :=
  (⟨pktRequest,cmd.value,headerSize + payload.length,k⟩,payload)

theorem Cmd.value_fits (cmd : Cmd) : cmd.value < 256 ^ 2 := by
  cases cmd <;> decide

theorem requestPacket_fits {k : ℕ} {cmd : Cmd} {payload : List UInt8} :
    (requestPacket k cmd payload).1.Fits ↔ headerSize + payload.length < 2 ^ 32 ∧ k < 2 ^ 64 := by
  have hcmd := cmd.value_fits
  unfold requestPacket Header.Fits pktRequest
  norm_num at hcmd ⊢
  omega

theorem send_structError {cmd : Cmd} {payload : List UInt8} {sock : Option Socket} {k : ℕ}
    (h : ¬ (requestPacket (k + 1) cmd payload).1.Fits) :
    send cmd payload ⟨sock,k⟩ = .error .structError ⟨sock,k + 1⟩ := by
  cases hpack : (requestPacket (k + 1) cmd payload).1.pack with
  | ok front => exact absurd (Header.pack_ok hpack).1 h
  | error e =>
    cases Header.pack_structError hpack
    unfold requestPacket at hpack
    unfold send
    simp only [bind,EStateM.bind,modify,modifyGet,MonadStateOf.modifyGet,modifyGet_ok,get,getThe,
      MonadStateOf.get,get_ok,hpack]
    rfl

theorem send_packed {cmd : Cmd} {payload front : List UInt8} {sock : Option Socket} {k : ℕ}
    (h : (requestPacket (k + 1) cmd payload).1.pack = .ok front) :
    send cmd payload ⟨sock,k⟩ = onSocket (sendall (front ++ payload)) ⟨sock,k + 1⟩ := by
  unfold requestPacket at h
  unfold send
  simp only [bind,EStateM.bind,modify,modifyGet,MonadStateOf.modifyGet,modifyGet_ok,get,getThe,
    MonadStateOf.get,get_ok,h]
  rfl

/-- A send writes the packet of its request, unless the request has no room in a header. -/
theorem send_writes (cmd : Cmd) (payload : List UInt8) (sock : Option Socket) (k : ℕ) :
    if headerSize + payload.length < 2 ^ 32 ∧ k + 1 < 2 ^ 64 then
      ∃ bytes, Frames packet (requestPacket (k + 1) cmd payload) bytes ∧
        send cmd payload ⟨sock,k⟩ = onSocket (sendall bytes) ⟨sock,k + 1⟩
    else send cmd payload ⟨sock,k⟩ = .error .structError ⟨sock,k + 1⟩ := by
  split
  · rename_i h
    have hfits : (requestPacket (k + 1) cmd payload).1.Fits := requestPacket_fits.mpr h
    obtain ⟨front,hpack⟩ := Header.pack_fits hfits
    exact ⟨front ++ payload,frames_pack hpack rfl,send_packed hpack⟩
  · rename_i h
    exact send_structError (fun hfits => h (requestPacket_fits.mp hfits))

theorem sendall_open {sock : Socket} (h : ∀ m ∈ sock.sending, m = none) (bytes : List UInt8) :
    sendall bytes sock = .ok () { sock with sending := sock.sending.tail, sent := sock.sent ++ [bytes] } := by
  obtain ⟨incoming,sending,sent⟩ := sock
  cases sending with
  | nil => rfl
  | cons m rest =>
    cases h m List.mem_cons_self
    rfl

/-! ## Replies -/

def replies (ps : List (Header × List UInt8)) : List (Header × List UInt8) :=
  ps.filter fun p => p.1.pktType = pktReply

/-- Nothing but replies and notifications. -/
def Served (ps : List (Header × List UInt8)) : Prop := ∀ p ∈ ps, isNotif p.1 ∨ p.1.pktType = pktReply

theorem replies_cons {ps : List (Header × List UInt8)} (hserved : Served ps) (h : 0 < (replies ps).length) :
    ∃ p rest, ps.dropWhile (fun q => isNotif q.1) = p :: rest ∧ p.1.pktType = pktReply ∧
      replies ps = p :: replies rest ∧ Served rest := by
  induction ps with
  | nil => exact absurd h (Nat.lt_irrefl 0)
  | cons p ps ih =>
    have hrest : Served ps := fun q hq => hserved q (List.mem_cons_of_mem p hq)
    rcases hserved p List.mem_cons_self with hnotif | hreply
    · have hnot : p.1.pktType ≠ pktReply := by
        have htype : p.1.pktType = pktNotif := by simpa [isNotif] using hnotif
        rw [htype]
        decide
      have hreplies : replies (p :: ps) = replies ps := by
        unfold replies
        rw [List.filter_cons_of_neg (by simpa using hnot)]
      rw [hreplies] at h ⊢
      rw [List.dropWhile_cons,if_pos hnotif]
      exact ih hrest h
    · have hnot : ¬ isNotif p.1 := by
        unfold isNotif
        rw [hreply]
        decide
      have hreplies : replies (p :: ps) = p :: replies ps := by
        unfold replies
        rw [List.filter_cons_of_pos (by simpa using hreply)]
      exact ⟨p,ps,by rw [List.dropWhile_cons,if_neg hnot],hreply,hreplies,hrest⟩

/-- The payload's first byte and the rest of it. -/
def replied (p : Header × List UInt8) : UInt8 × List UInt8 := (p.2.headD 0,p.2.tail)

theorem recvReply_replied (sock : Socket) {p : Header × List UInt8} {rest : List (Header × List UInt8)}
    (h : (packets packet (content sock.incoming)).dropWhile (fun q => isNotif q.1) = p :: rest)
    (hreply : p.1.pktType = pktReply) :
    ∃ incoming, recvReply sock = .ok (replied p) { sock with incoming } ∧
      packets packet (content incoming) = rest := by
  obtain ⟨incoming,hread,hpackets,_⟩ := readPast_cons h
  have hrecv : recvReply sock = .ok (replied p) { sock with incoming } := by
    simp only [recvReply,bind,EStateM.bind,onIncoming,hread,hreply,ne_eq,not_true_eq_false,if_false]
    rfl
  exact ⟨incoming,hrecv,hpackets⟩

/-! ## One request after another -/

def sendAndRecv (cmd : Cmd) (payload : List UInt8) : EStateM Fault RpcnClient (UInt8 × List UInt8) := do
  send cmd payload
  onSocket recvReply

/-- The packets of requests that are numbered from `k` on. -/
def requestPackets (k : ℕ) (requests : List (Cmd × List UInt8)) : List (Header × List UInt8) :=
  (requests.zipIdx k).map fun r => requestPacket r.2 r.1.1 r.1.2

theorem requestPackets_cons (k : ℕ) (r : Cmd × List UInt8) (rs : List (Cmd × List UInt8)) :
    requestPackets k (r :: rs) = requestPacket k r.1 r.2 :: requestPackets (k + 1) rs := by
  unfold requestPackets
  rw [List.zipIdx_cons,List.map_cons]

theorem sendAndRecv_replied (cmd : Cmd) {payload : List UInt8} {sock : Socket} {k : ℕ}
    {p : Header × List UInt8} {rest : List (Header × List UInt8)}
    (hfits : headerSize + payload.length < 2 ^ 32 ∧ k + 1 < 2 ^ 64) (hsending : ∀ m ∈ sock.sending, m = none)
    (h : (packets packet (content sock.incoming)).dropWhile (fun q => isNotif q.1) = p :: rest)
    (hreply : p.1.pktType = pktReply) :
    ∃ incoming bytes, packets packet (content incoming) = rest ∧
      Frames packet (requestPacket (k + 1) cmd payload) bytes ∧
      sendAndRecv cmd payload ⟨some sock,k⟩ =
        .ok (replied p) ⟨some ⟨incoming,sock.sending.tail,sock.sent ++ [bytes]⟩,k + 1⟩ := by
  have hwrites := send_writes cmd payload (some sock) k
  rw [if_pos hfits] at hwrites
  obtain ⟨bytes,hframes,hsend⟩ := hwrites
  obtain ⟨incoming,hrecv,hpackets⟩ :=
    recvReply_replied { sock with sending := sock.sending.tail, sent := sock.sent ++ [bytes] } h hreply
  have hrun : sendAndRecv cmd payload ⟨some sock,k⟩ =
      .ok (replied p) ⟨some ⟨incoming,sock.sending.tail,sock.sent ++ [bytes]⟩,k + 1⟩ := by
    simp only [sendAndRecv,bind,EStateM.bind,hsend,onSocket,sendall_open hsending,hrecv]
  exact ⟨incoming,bytes,hpackets,hframes,hrun⟩

/-- Each request gets the reply in its place, and its own packet is written. -/
theorem requests_replied {requests : List (Cmd × List UInt8)} {sock : Socket} {k : ℕ}
    (hfits : ∀ r ∈ requests, headerSize + r.2.length < 2 ^ 32) (hid : k + requests.length < 2 ^ 64)
    (hsending : ∀ m ∈ sock.sending, m = none) (hserved : Served (packets packet (content sock.incoming)))
    (hreplies : requests.length ≤ (replies (packets packet (content sock.incoming))).length) :
    ∃ sock' written, List.Forall₂ (Frames packet) (requestPackets (k + 1) requests) written ∧
      sock'.sent = sock.sent ++ written ∧
      requests.mapM (fun r => sendAndRecv r.1 r.2) ⟨some sock,k⟩ =
        .ok (((replies (packets packet (content sock.incoming))).take requests.length).map replied)
          ⟨some sock',k + requests.length⟩ := by
  induction requests generalizing sock k with
  | nil => exact ⟨sock,[],.nil,(List.append_nil _).symm,rfl⟩
  | cons r rs ih =>
    simp only [List.length_cons] at hid hreplies
    obtain ⟨p,rest,hfirst,hreply,hcons,hserved'⟩ := replies_cons hserved (by omega)
    have hfits₁ : headerSize + r.2.length < 2 ^ 32 ∧ k + 1 < 2 ^ 64 := ⟨hfits r List.mem_cons_self,by omega⟩
    obtain ⟨incoming,bytes,hpackets,hframes,hrun⟩ :=
      sendAndRecv_replied r.1 hfits₁ hsending hfirst hreply
    rw [hcons,List.length_cons] at hreplies
    obtain ⟨sock',written,hwritten,hsent,hrest⟩ :=
      @ih ⟨incoming,sock.sending.tail,sock.sent ++ [bytes]⟩ (k + 1)
        (fun r' hr' => hfits r' (List.mem_cons_of_mem r hr')) (by omega)
        (fun m hm => hsending m (List.mem_of_mem_tail hm)) (by rw [hpackets]; exact hserved')
        (by rw [hpackets]; omega)
    have hsent' : sock'.sent = sock.sent ++ bytes :: written := by
      rw [hsent,List.append_assoc]
      rfl
    have hcount : k + 1 + rs.length = k + (rs.length + 1) := by omega
    refine ⟨sock',bytes :: written,?_,hsent',?_⟩
    · rw [requestPackets_cons]
      exact .cons hframes hwritten
    · rw [hpackets,hcount] at hrest
      rw [List.mapM_cons,hcons,List.length_cons,List.take_succ_cons,List.map_cons]
      simp only [bind,EStateM.bind,hrun,hrest]
      rfl

/-! ## Exact reads and data packets -/

theorem recvExact_next {n : ℕ} {sock : Socket} (h : n ≤ (content sock.incoming).length) :
    ∃ incoming, recvExact n sock = .ok ((content sock.incoming).take n) { sock with incoming } ∧
      content incoming = (content sock.incoming).drop n := by
  obtain ⟨incoming,hread,hcontent,_⟩ := readExact_next h
  exact ⟨incoming,by simp only [recvExact,onIncoming,hread],hcontent⟩

theorem recvExact_stops {n : ℕ} {sock : Socket} (h : (content sock.incoming).length < n) :
    ∃ sock', recvExact n sock = .error (stopped (stop sock.incoming)) sock' := by
  obtain ⟨incoming,hread,_⟩ := readExact_stops h
  exact ⟨{ sock with incoming },by simp only [recvExact,onIncoming,hread]⟩

theorem unpackDataPacket_pack {size raw : List UInt8} (h : pack 4 raw.length = .ok size) :
    unpackDataPacket (size ++ raw) = .ok raw := by
  obtain ⟨_,hlength,hunpack⟩ := pack_ok h
  have hlong : ¬ (size ++ raw).length < 4 := by simp only [List.length_append,hlength]; omega
  unfold unpackDataPacket
  rw [if_neg hlong,List.take_left' hlength,List.drop_left' hlength,hunpack,List.take_length]

theorem requestProto_data (P : Protobuf) (comId : String) (cmd : Cmd) {req : SearchRoomRequest}
    (h : (P.serialize req).length < 2 ^ 32) :
    ∃ data, requestProto P comId cmd req = requestWithData comId cmd data ∧
      unpackDataPacket data = .ok (P.serialize req) := by
  have hsmall : (P.serialize req).length < 256 ^ 4 := by simpa using h
  obtain ⟨size,hsize⟩ := pack_fits hsmall
  have hrequest : requestProto P comId cmd req = requestWithData comId cmd (size ++ P.serialize req) := by
    funext client
    simp only [requestProto,hsize]
    rfl
  exact ⟨_,hrequest,unpackDataPacket_pack hsize⟩

theorem recvExact_rpcnError {n : ℕ} {sock : Socket} :
    (∃ message sock', recvExact n sock = .error (.rpcnError message) sock') ↔
      (content sock.incoming).length < n ∧ stop sock.incoming = .closed := by
  constructor
  · rintro ⟨message,sock',h⟩
    rcases Nat.lt_or_ge (content sock.incoming).length n with hshort | henough
    · obtain ⟨sock₁,hstops⟩ := recvExact_stops hshort
      cases hstop : stop sock.incoming with
      | closed => exact ⟨hshort,rfl⟩
      | failed reason =>
        rw [hstops,hstop] at h
        cases h
    · obtain ⟨_,hnext,_⟩ := recvExact_next henough
      rw [hnext] at h
      cases h
  · rintro ⟨hshort,hstop⟩
    obtain ⟨sock',hstops⟩ := recvExact_stops hshort
    rw [hstop] at hstops
    exact ⟨_,sock',hstops⟩

theorem rpcn_framing :
    (∀ (requests : List (Cmd × List UInt8)) (ps : List (Header × List UInt8)) (frames : List (List UInt8))
        (sock : Socket),
      List.Forall₂ (Frames packet) ps frames → Served ps → content sock.incoming = frames.flatten →
      requests.length ≤ (replies ps).length →
      (∀ r ∈ requests, headerSize + r.2.length < 2 ^ 32) → requests.length < 2 ^ 64 →
      (∀ m ∈ sock.sending, m = none) →
      ∃ sock' written, List.Forall₂ (Frames packet) (requestPackets 1 requests) written ∧
        sock'.sent = sock.sent ++ written ∧
        requests.mapM (fun r => sendAndRecv r.1 r.2) ⟨some sock,0⟩ =
          .ok (((replies ps).take requests.length).map replied) ⟨some sock',requests.length⟩) ∧
    (∀ (n : ℕ) (sock : Socket), (n ≤ (content sock.incoming).length →
        ∃ incoming, recvExact n sock = .ok ((content sock.incoming).take n) { sock with incoming } ∧
          content incoming = (content sock.incoming).drop n) ∧
      ((∃ message sock', recvExact n sock = .error (.rpcnError message) sock') ↔
        (content sock.incoming).length < n ∧ stop sock.incoming = .closed)) ∧
    (∀ (cmd : Cmd) (payload : List UInt8) (sock : Option Socket) (k : ℕ),
      if headerSize + payload.length < 2 ^ 32 ∧ k + 1 < 2 ^ 64 then
        ∃ bytes, Frames packet (requestPacket (k + 1) cmd payload) bytes ∧
          send cmd payload ⟨sock,k⟩ = onSocket (sendall bytes) ⟨sock,k + 1⟩
      else send cmd payload ⟨sock,k⟩ = .error .structError ⟨sock,k + 1⟩) ∧
    (∀ (P : Protobuf) (comId : String) (cmd : Cmd) (req : SearchRoomRequest),
      (P.serialize req).length < 2 ^ 32 →
      ∃ data, requestProto P comId cmd req = requestWithData comId cmd data ∧
        unpackDataPacket data = .ok (P.serialize req)) := by
  refine ⟨?_,fun n sock => ⟨recvExact_next,recvExact_rpcnError⟩,send_writes,
    fun P comId cmd req => requestProto_data P comId cmd⟩
  intro requests ps frames sock hframes hserved hcontent hreplies hfits hid hsending
  have hpackets : packets packet (content sock.incoming) = ps := by
    have h := packets_frames hframes []
    rwa [List.append_nil,packets_nil,List.append_nil,← hcontent] at h
  subst hpackets
  have h := requests_replied (k := 0) hfits (by omega) hsending hserved hreplies
  simpa only [Nat.zero_add] using h

/-! Two replies with a notification between them, cut where no header ends. -/

def loginReply : List UInt8 := [1,0,0,17,0,0,0,0,0,0,0,0,0,0,0,0,9]
def joinedNotification : List UInt8 := [2,0,0,16,0,0,0,0,0,0,0,0,0,0,0,7]
def serverListReply : List UInt8 := [1,12,0,18,0,0,0,1,0,0,0,0,0,0,0,0,3,4]

def loginSocket : Socket :=
  ⟨[.piece 1 [0,0,17,0],.piece 0 [0,0,0,0,0,0,0,0,0,0,9,2,0],.piece 0 [16,0,0,0,0,0,0,0,0,0,0,0,7,1,12],
    .piece 0 [18,0,0,0,1,0,0,0,0,0,0,0,0,3,4]],[],[]⟩

theorem rpcn_framing_login : ∃ sock' written,
    List.Forall₂ (Frames packet) (requestPackets 1 [(.login,[1]),(.getServerList,[])]) written ∧ sock'.sent = written ∧
      ([(Cmd.login,[1]),(.getServerList,[])]).mapM (fun r => sendAndRecv r.1 r.2) ⟨some loginSocket,0⟩ =
        .ok [(0,[9]),(0,[3,4])] ⟨some sock',2⟩ := by
  obtain ⟨sock',written,hwritten,hsent,h⟩ := rpcn_framing.1 [(.login,[1]),(.getServerList,[])]
    [(⟨1,0,17,0⟩,[0,9]),(⟨2,0,16,0⟩,[7]),(⟨1,12,18,1⟩,[0,3,4])]
    [loginReply,joinedNotification,serverListReply] loginSocket
    (.cons ⟨[1,0,0,17,0,0,0,0,0,0,0,0,0,0,0],rfl,by decide,rfl,rfl⟩
      (.cons ⟨[2,0,0,16,0,0,0,0,0,0,0,0,0,0,0],rfl,by decide,rfl,rfl⟩
        (.cons ⟨[1,12,0,18,0,0,0,1,0,0,0,0,0,0,0],rfl,by decide,rfl,rfl⟩ .nil)))
    (by unfold Served; decide) (by decide) (by decide) (by decide) (by decide) (by simp [loginSocket])
  exact ⟨sock',written,hwritten,hsent,h⟩

end Tag2now.Rpcn
