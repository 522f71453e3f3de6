import Tag2now.Collections.Dict
import Tag2now.Rpcn.Exchanges
import Tag2now.Rpcn.Framing

/-! # Servers and their worlds

A list of numbers is its length and then the numbers, all little-endian and of one size. The
tree of worlds is read with one request for the servers and one for each of them.
-/
namespace Tag2now.Rpcn
open Collections Pieces

/-! ## Lists of numbers -/

def unpackEach (size : ℕ) : ℕ → List UInt8 → List ℕ
  | 0,_ => []
  | n + 1,bytes => unpack (bytes.take size) :: unpackEach size n (bytes.drop size)

/-- `struct.unpack_from` of so many unsigned numbers of one size. -/
def unpackFrom (size n : ℕ) (data : List UInt8) (pos : ℕ) : Except Fault (List ℕ) :=
  if data.length < pos + n * size then .error .structError else .ok (unpackEach size n (data.drop pos))

/-- As many numbers as the first one tells. -/
def numbers (size : ℕ) (data : List UInt8) : Except Fault (List ℕ) := do
  let num ← unpackFrom size 1 data 0
  unpackFrom size (num.headD 0) data size

def getServerList (comId : String) : EStateM Fault RpcnClient (List ℕ) := do
  let data ← requestWithData comId .getServerList []
  ofExcept (numbers 2 data)

def getWorldList (comId : String) (serverId : ℕ) : EStateM Fault RpcnClient (List ℕ) := do
  let reqData ← ofExcept (pack 2 serverId)
  let data ← requestWithData comId .getWorldList reqData
  ofExcept (numbers 4 data)

def worldsOf (comId : String) : List ℕ → Dict ℕ (List ℕ) → EStateM Fault RpcnClient (Dict ℕ (List ℕ))
  | [],tree => return tree
  | serverId :: servers,tree => do
    let worlds ← getWorldList comId serverId
    worldsOf comId servers (tree.insert serverId worlds)

def getServerWorldTree (comId : String) : EStateM Fault RpcnClient (Dict ℕ (List ℕ)) := do
  let servers ← getServerList comId
  worldsOf comId servers ∅

/-! ## The codec -/

/-- The bytes of a number, the least significant first. -/
def digits (size n : ℕ) : List UInt8 := (List.range size).map fun i => UInt8.ofNat (n / 256 ^ i)

def encodeList (size : ℕ) (xs : List ℕ) : List UInt8 := digits size xs.length ++ xs.flatMap (digits size)

/-- The list can be told in numbers of this size. -/
def Encodable (size : ℕ) (xs : List ℕ) : Prop := xs.length < 256 ^ size ∧ ∀ x ∈ xs, x < 256 ^ size

theorem length_digits (size n : ℕ) : (digits size n).length = size := by simp [digits]

theorem length_flatMap_digits (size : ℕ) (xs : List ℕ) : (xs.flatMap (digits size)).length = xs.length * size := by
  induction xs with
  | nil => simp
  | cons x xs ih =>
    rw [List.flatMap_cons,List.length_append,length_digits,ih,List.length_cons,Nat.succ_mul,Nat.add_comm]

theorem unpack_lt (bytes : List UInt8) : unpack bytes < 256 ^ bytes.length := by
  induction bytes with
  | nil => decide
  | cons b bytes ih =>
    have hb : b.toNat < 256 := b.toNat_lt
    rw [unpack_cons,List.length_cons,Nat.pow_succ]
    omega

theorem digits_unpack (bytes : List UInt8) : digits bytes.length (unpack bytes) = bytes := by
  induction bytes with
  | nil => rfl
  | cons b bytes ih =>
    have hb : b.toNat < 256 := b.toNat_lt
    have hrest : (b.toNat + 256 * unpack bytes) / 256 = unpack bytes := by omega
    have hfirst : UInt8.ofNat (b.toNat + 256 * unpack bytes) = b := by
      apply UInt8.toNat_inj.mp
      rw [UInt8.toNat_ofNat']
      omega
    have hshift : (fun i => UInt8.ofNat ((b.toNat + 256 * unpack bytes) / 256 ^ i)) ∘ Nat.succ =
        fun i => UInt8.ofNat (unpack bytes / 256 ^ i) := by
      funext i
      rw [Function.comp_apply,Nat.pow_succ',← Nat.div_div_eq_div_mul,hrest]
    unfold digits at ih ⊢
    rw [unpack_cons,List.length_cons,List.range_succ_eq_map,List.map_cons,List.map_map,hshift,ih]
    simp [hfirst]

theorem unpackEach_digits {size : ℕ} {xs : List ℕ} (h : ∀ x ∈ xs, x < 256 ^ size) (rest : List UInt8) :
    unpackEach size xs.length (xs.flatMap (digits size) ++ rest) = xs := by
  induction xs with
  | nil => rfl
  | cons x xs ih =>
    have hx : unpack (digits size x) = x := unpack_digits size (h x List.mem_cons_self)
    rw [List.flatMap_cons,List.append_assoc,List.length_cons,unpackEach,List.take_left' (length_digits size x),
      List.drop_left' (length_digits size x),hx,ih fun y hy => h y (List.mem_cons_of_mem x hy)]

/-- The numbers read are the bytes that were there. -/
theorem flatMap_unpackEach {size n : ℕ} {data : List UInt8} (h : n * size ≤ data.length) :
    (unpackEach size n data).flatMap (digits size) = data.take (n * size) ∧
      (unpackEach size n data).length = n ∧ ∀ x ∈ unpackEach size n data, x < 256 ^ size := by
  induction n generalizing data with
  | zero => simp [unpackEach]
  | succ n ih =>
    rw [Nat.succ_mul] at h
    have hsize : (data.take size).length = size := by
      rw [List.length_take]
      omega
    have hrest : n * size ≤ (data.drop size).length := by
      rw [List.length_drop]
      omega
    obtain ⟨hbytes,hlength,hall⟩ := ih hrest
    have hfirst : digits size (unpack (data.take size)) = data.take size := by
      have hdigits := digits_unpack (data.take size)
      rwa [hsize] at hdigits
    have hlt : unpack (data.take size) < 256 ^ size := by
      have hlt := unpack_lt (data.take size)
      rwa [hsize] at hlt
    refine ⟨?_,?_,?_⟩
    · rw [unpackEach,List.flatMap_cons,hfirst,hbytes,Nat.succ_mul,Nat.add_comm,List.take_add]
    · rw [unpackEach,List.length_cons,hlength]
    · intro x hx
      rcases List.mem_cons.mp hx with rfl | hx
      · exact hlt
      · exact hall x hx

theorem numbers_eq (size : ℕ) (data : List UInt8) : numbers size data =
    if data.length < size then .error .structError
    else unpackFrom size (unpack (data.take size)) data size := by
  unfold numbers unpackFrom
  by_cases h : data.length < size
  · rw [if_pos (by omega),if_pos h]
    rfl
  · rw [if_neg (by omega),if_neg h]
    rfl

/-- What is read as a list is the list's encoding with anything behind it. -/
theorem numbers_iff {size : ℕ} {data : List UInt8} {xs : List ℕ} :
    numbers size data = .ok xs ↔ Encodable size xs ∧ encodeList size xs <+: data := by
  rw [numbers_eq]
  constructor
  · intro h
    split at h
    · cases h
    · rename_i hsize
      unfold unpackFrom at h
      split at h
      · cases h
      · rename_i hlength
        have hall : unpack (data.take size) * size ≤ (data.drop size).length := by
          rw [List.length_drop]
          omega
        obtain ⟨hbytes,hcount,hlt⟩ := flatMap_unpackEach hall
        rw [← Except.ok.inj h]
        have hhead : (data.take size).length = size := by
          rw [List.length_take]
          omega
        have hdigits := digits_unpack (data.take size)
        have hbound := unpack_lt (data.take size)
        rw [hhead] at hdigits hbound
        have hencodable : Encodable size (unpackEach size (unpack (data.take size)) (data.drop size)) := by
          refine ⟨?_,hlt⟩
          rw [hcount]
          exact hbound
        refine ⟨hencodable,?_⟩
        rw [encodeList,hcount,hdigits,hbytes]
        refine ⟨(data.drop size).drop (unpack (data.take size) * size),?_⟩
        rw [List.append_assoc,List.take_append_drop,List.take_append_drop]
  · rintro ⟨⟨hcount,hlt⟩,rest,rfl⟩
    have hlength : (encodeList size xs ++ rest).length = size + xs.length * size + rest.length := by
      rw [List.length_append,encodeList,List.length_append,length_digits,length_flatMap_digits]
    have htake : (encodeList size xs ++ rest).take size = digits size xs.length := by
      rw [encodeList,List.append_assoc,List.take_left' (length_digits _ _)]
    have hdrop : (encodeList size xs ++ rest).drop size = xs.flatMap (digits size) ++ rest := by
      rw [encodeList,List.append_assoc,List.drop_left' (length_digits _ _)]
    have hnum : unpack (digits size xs.length) = xs.length := unpack_digits size hcount
    rw [if_neg (by omega),htake,hnum,unpackFrom,if_neg (by omega),hdrop,unpackEach_digits hlt]

theorem numbers_error {size : ℕ} {data : List UInt8} {e : Fault} (h : numbers size data = .error e) :
    e = .structError := by
  rw [numbers_eq] at h
  unfold unpackFrom at h
  split at h
  · cases h
    rfl
  · split at h
    · cases h
      rfl
    · cases h

/-! ## Asking -/

/-- All sends go out, and these replies are to come, with nothing but notifications between them. -/
structure Ready (sock : Socket) (ps : List (Header × List UInt8)) : Prop where
  sending : ∀ m ∈ sock.sending, m = none
  served : Served (packets packet (content sock.incoming))
  replies : replies (packets packet (content sock.incoming)) = ps

/-- A reply without an error whose data begins with this list. -/
def Tells (size : ℕ) (xs : List ℕ) (p : Header × List UInt8) : Prop :=
  ∃ rest, p.2 = errNoError :: (encodeList size xs ++ rest)

section
variable {comId : String} {front : List UInt8}

/-- A reply's data, or the error its first byte tells. -/
def replyData (cmd : Cmd) (reply : UInt8 × List UInt8) : Except Fault (List UInt8) :=
  if reply.1 = errNoError then .ok reply.2
  else .error (.rpcnError (cmd.label ++ " error " ++ toString reply.1.toNat))

theorem requestWithData_replied (hcom : comId.length = communicationIdSize) (hfront : encodeAscii comId = .ok front)
    (cmd : Cmd) (reqData : List UInt8) {client client' : RpcnClient} {reply : UInt8 × List UInt8}
    (h : sendAndRecv cmd (front ++ reqData) client = .ok reply client') :
    requestWithData comId cmd reqData client = withState client' (replyData cmd reply) := by
  unfold sendAndRecv at h
  simp only [bind,EStateM.bind] at h
  cases hsend : send cmd (front ++ reqData) client with
  | error e c =>
    rw [hsend] at h
    cases h
  | ok u c =>
    rw [hsend] at h
    dsimp only at h
    unfold requestWithData replyData
    rw [if_neg (not_not_intro hcom),hfront]
    simp only [bind,EStateM.bind,pure,EStateM.pure,ofExcept,hsend,h]
    by_cases herror : reply.1 = errNoError
    · rw [if_neg (not_not_intro herror),if_pos herror]
      rfl
    · rw [if_pos herror,if_neg herror]
      rfl

/-- One request goes out, and the next reply is its answer. -/
theorem Ready.exchanged {sock : Socket} {p : Header × List UInt8} {ps : List (Header × List UInt8)}
    (h : Ready sock (p :: ps)) (hcom : comId.length = communicationIdSize) (hfront : encodeAscii comId = .ok front)
    (cmd : Cmd) {reqData : List UInt8} {k : ℕ}
    (hfits : headerSize + (front ++ reqData).length < 2 ^ 32 ∧ k + 1 < 2 ^ 64) :
    ∃ sock' bytes, Ready sock' ps ∧ sock'.sent = sock.sent ++ [bytes] ∧
      Frames packet (requestPacket (k + 1) cmd (front ++ reqData)) bytes ∧
      requestWithData comId cmd reqData ⟨some sock,k⟩ = withState ⟨some sock',k + 1⟩ (replyData cmd (replied p)) := by
  have hsome : 0 < (Rpcn.replies (packets packet (content sock.incoming))).length := by
    rw [h.replies]
    exact Nat.succ_pos _
  obtain ⟨q,rest,hfirst,hreply,hcons,hserved⟩ := replies_cons h.served hsome
  rw [h.replies] at hcons
  obtain ⟨rfl,rfl⟩ := List.cons.inj hcons
  obtain ⟨incoming,bytes,hpackets,hframes,hrun⟩ := sendAndRecv_replied cmd hfits h.sending hfirst hreply
  refine ⟨_,bytes,⟨?_,?_,?_⟩,rfl,hframes,requestWithData_replied hcom hfront cmd reqData hrun⟩
  · exact fun m hm => h.sending m (List.mem_of_mem_tail hm)
  · exact hpackets ▸ hserved
  · exact congrArg Rpcn.replies hpackets

theorem Ready.requested {sock : Socket} {p : Header × List UInt8} {ps : List (Header × List UInt8)}
    (h : Ready sock (p :: ps)) (hcom : comId.length = communicationIdSize) (hfront : encodeAscii comId = .ok front)
    (cmd : Cmd) {reqData data : List UInt8} {k : ℕ}
    (hfits : headerSize + (front ++ reqData).length < 2 ^ 32 ∧ k + 1 < 2 ^ 64) (hdata : p.2 = errNoError :: data) :
    ∃ sock' bytes, Ready sock' ps ∧ sock'.sent = sock.sent ++ [bytes] ∧
      Frames packet (requestPacket (k + 1) cmd (front ++ reqData)) bytes ∧
      requestWithData comId cmd reqData ⟨some sock,k⟩ = .ok data ⟨some sock',k + 1⟩ := by
  obtain ⟨sock',bytes,hready,hsent,hframes,hrun⟩ := h.exchanged hcom hfront cmd hfits
  refine ⟨sock',bytes,hready,hsent,hframes,?_⟩
  rw [hrun,replied,hdata]
  rfl

theorem Ready.worldList {sock : Socket} {p : Header × List UInt8} {ps : List (Header × List UInt8)}
    (h : Ready sock (p :: ps)) (hcom : comId.length = communicationIdSize) (hfront : encodeAscii comId = .ok front)
    {serverId : ℕ} (hid : serverId < 256 ^ 2) {worlds : List ℕ} (hworlds : Encodable 4 worlds)
    (htells : Tells 4 worlds p)
    {k : ℕ} (hfits : headerSize + (front ++ digits 2 serverId).length < 2 ^ 32 ∧ k + 1 < 2 ^ 64) :
    ∃ sock' bytes, Ready sock' ps ∧ sock'.sent = sock.sent ++ [bytes] ∧
      Frames packet (requestPacket (k + 1) .getWorldList (front ++ digits 2 serverId)) bytes ∧
      getWorldList comId serverId ⟨some sock,k⟩ = .ok worlds ⟨some sock',k + 1⟩ := by
  obtain ⟨rest,hdata⟩ := htells
  obtain ⟨sock',bytes,hready,hsent,hframes,hrun⟩ := h.requested hcom hfront .getWorldList hfits hdata
  refine ⟨sock',bytes,hready,hsent,hframes,?_⟩
  have hpack : pack 2 serverId = .ok (digits 2 serverId) := if_pos hid
  have hnumbers : numbers 4 (encodeList 4 worlds ++ rest) = .ok worlds :=
    numbers_iff.mpr ⟨hworlds,List.prefix_append _ _⟩
  unfold getWorldList
  rw [hpack]
  simp only [bind,EStateM.bind,ofExcept,pure,EStateM.pure,hrun,hnumbers]

def worldRequests (front : List UInt8) (servers : List ℕ) : List (Cmd × List UInt8) :=
  servers.map fun serverId => (.getWorldList,front ++ digits 2 serverId)

theorem Ready.worldsOf {tree : List (ℕ × List ℕ)} (htree : ∀ s ∈ tree, s.1 < 256 ^ 2 ∧ Encodable 4 s.2)
    (hcom : comId.length = communicationIdSize) (hfront : encodeAscii comId = .ok front)
    (hlength : front.length = communicationIdSize) {sock : Socket} {ps : List (Header × List UInt8)}
    (h : Ready sock ps) (htells : List.Forall₂ (fun s p => Tells 4 s.2 p) tree ps) {k : ℕ}
    (hk : k + tree.length < 2 ^ 64) (d : Dict ℕ (List ℕ)) :
    ∃ sock' written, sock'.sent = sock.sent ++ written ∧
      List.Forall₂ (Frames packet) (requestPackets (k + 1) (worldRequests front (tree.map Prod.fst))) written ∧
      Rpcn.worldsOf comId (tree.map Prod.fst) d ⟨some sock,k⟩ =
        .ok (setAll Prod.fst Prod.snd tree d) ⟨some sock',k + tree.length⟩ := by
  induction htells generalizing sock k d with
  | nil => exact ⟨sock,[],by simp,.nil,rfl⟩
  | @cons s p tree ps htell htells ih =>
    obtain ⟨hid,hworlds⟩ := htree s List.mem_cons_self
    rw [List.length_cons] at hk
    have hfits : headerSize + (front ++ digits 2 s.1).length < 2 ^ 32 ∧ k + 1 < 2 ^ 64 := by
      rw [List.length_append,length_digits,hlength]
      simp only [headerSize,communicationIdSize]
      omega
    obtain ⟨sock₁,bytes,hready,hsent,hframes,hrun⟩ := h.worldList hcom hfront hid hworlds htell hfits
    obtain ⟨sock',written,hsent',hwritten,hrest⟩ :=
      @ih (fun s' hs' => htree s' (List.mem_cons_of_mem s hs')) sock₁ hready (k + 1) (by omega) (d.insert s.1 s.2)
    refine ⟨sock',bytes :: written,?_,?_,?_⟩
    · rw [hsent',hsent,List.append_assoc]
      rfl
    · rw [List.map_cons]
      unfold worldRequests
      rw [List.map_cons,requestPackets_cons]
      exact .cons hframes hwritten
    · have hcount : k + 1 + tree.length = k + (tree.length + 1) := by omega
      rw [hcount] at hrest
      rw [List.map_cons,Rpcn.worldsOf]
      simp only [bind,EStateM.bind,hrun]
      exact hrest

end

/-- A list is read from the bytes that encode it and from no other ones, and the tree of worlds from the replies that
tell it, however they are cut and whatever notifications come between them. -/
theorem world_tree_read :
    (∀ (size : ℕ) (data : List UInt8) (xs : List ℕ),
      (numbers size data = .ok xs ↔ Encodable size xs ∧ encodeList size xs <+: data) ∧
      ∀ e, numbers size data = .error e → e = .structError) ∧
    ∀ (comId : String) (front : List UInt8) (tree : List (ℕ × List ℕ)) (sock : Socket) (p : Header × List UInt8)
        (ps : List (Header × List UInt8)) (k : ℕ),
      comId.length = communicationIdSize → encodeAscii comId = .ok front →
      (tree.map Prod.fst).Nodup → Encodable 2 (tree.map Prod.fst) → (∀ s ∈ tree, Encodable 4 s.2) →
      Ready sock (p :: ps) → Tells 2 (tree.map Prod.fst) p → List.Forall₂ (fun s p => Tells 4 s.2 p) tree ps →
      k + 1 + tree.length < 2 ^ 64 →
      ∃ sock' written d, sock'.sent = sock.sent ++ written ∧
        List.Forall₂ (Frames packet)
          (requestPackets (k + 1) ((.getServerList,front) :: worldRequests front (tree.map Prod.fst))) written ∧
        getServerWorldTree comId ⟨some sock,k⟩ = .ok d ⟨some sock',k + 1 + tree.length⟩ ∧
        ∀ serverId worlds, d.lookup serverId = some worlds ↔ (serverId,worlds) ∈ tree := by
  refine ⟨fun size data xs => ⟨numbers_iff,fun e => numbers_error⟩,?_⟩
  intro comId front tree sock p ps k hcom hfront hnodup hids hworlds hready hservers htells hk
  have hlength : front.length = communicationIdSize := by
    unfold encodeAscii at hfront
    split at hfront
    · rw [← Except.ok.inj hfront,List.length_map,String.length_toList]
      exact hcom
    · cases hfront
  have htree : ∀ s ∈ tree, s.1 < 256 ^ 2 ∧ Encodable 4 s.2 :=
    fun s hs => ⟨hids.2 s.1 (List.mem_map_of_mem hs),hworlds s hs⟩
  have hfits : headerSize + (front ++ []).length < 2 ^ 32 ∧ k + 1 < 2 ^ 64 := by
    rw [List.append_nil,hlength]
    simp only [headerSize,communicationIdSize]
    omega
  obtain ⟨rest,hdata⟩ := hservers
  obtain ⟨sock₁,bytes,hready₁,hsent₁,hframes₁,hrun₁⟩ := hready.requested hcom hfront .getServerList hfits hdata
  rw [List.append_nil] at hframes₁
  have hnumbers : numbers 2 (encodeList 2 (tree.map Prod.fst) ++ rest) = .ok (tree.map Prod.fst) :=
    numbers_iff.mpr ⟨hids,List.prefix_append _ _⟩
  have hlist : getServerList comId ⟨some sock,k⟩ = .ok (tree.map Prod.fst) ⟨some sock₁,k + 1⟩ := by
    unfold getServerList
    simp only [bind,EStateM.bind,hrun₁,ofExcept,hnumbers,pure,EStateM.pure]
  obtain ⟨sock',written,hsent',hwritten,hrest⟩ := hready₁.worldsOf htree hcom hfront hlength htells hk ∅
  refine ⟨sock',bytes :: written,setAll Prod.fst Prod.snd tree ∅,?_,?_,?_,?_⟩
  · rw [hsent',hsent₁,List.append_assoc]
    rfl
  · rw [requestPackets_cons]
    exact .cons hframes₁ hwritten
  · unfold getServerWorldTree
    simp only [bind,EStateM.bind,hlist]
    exact hrest
  · intro serverId worlds
    rw [lookup_setAll hnodup]
    constructor
    · rintro (⟨s,hs,rfl,rfl⟩ | ⟨-,hempty⟩)
      · exact hs
      · simp at hempty
    · intro hs
      exact .inl ⟨_,hs,rfl,rfl⟩

/-! Two servers, of which the second has no worlds; a notification comes before the second reply. -/

def twoServers : List (ℕ × List ℕ) := [(1,[7]),(2,[])]

def serverReply : Header × List UInt8 := (⟨1,12,22,1⟩,[0,2,0,1,0,2,0])

def worldReplies : List (Header × List UInt8) := [(⟨1,13,24,2⟩,[0,1,0,0,0,7,0,0,0]),(⟨1,13,20,3⟩,[0,0,0,0,0])]

def cutAnywhere : Socket :=
  ⟨[.piece 1 [12,0,22,0,0,0,1,0,0,0,0,0,0,0,0,2,0,1,0,2,0,2,0,0],
    .piece 16 [0,0,0,0,0,0,0,0,0,0,0,9,1,13,0,24,0,0,0,2,0,0,0,0,0,0,0,0],
    .piece 1 [0,0,0,7,0,0,0,1,13,0,20,0,0,0,3,0,0,0,0,0,0,0,0,0,0,0,0]],[],[]⟩

theorem ready_cutAnywhere : Ready cutAnywhere (serverReply :: worldReplies) := by
  have hframes : List.Forall₂ (Frames packet)
      [serverReply,(⟨2,0,16,0⟩,[9]),(⟨1,13,24,2⟩,[0,1,0,0,0,7,0,0,0]),(⟨1,13,20,3⟩,[0,0,0,0,0])]
      [[1,12,0,22,0,0,0,1,0,0,0,0,0,0,0,0,2,0,1,0,2,0],[2,0,0,16,0,0,0,0,0,0,0,0,0,0,0,9],
        [1,13,0,24,0,0,0,2,0,0,0,0,0,0,0,0,1,0,0,0,7,0,0,0],[1,13,0,20,0,0,0,3,0,0,0,0,0,0,0,0,0,0,0,0]] := by
    refine .cons ⟨[1,12,0,22,0,0,0,1,0,0,0,0,0,0,0],rfl,?_,rfl,rfl⟩ (.cons
      ⟨[2,0,0,16,0,0,0,0,0,0,0,0,0,0,0],rfl,?_,rfl,rfl⟩ (.cons
        ⟨[1,13,0,24,0,0,0,2,0,0,0,0,0,0,0],rfl,?_,rfl,rfl⟩ (.cons
          ⟨[1,13,0,20,0,0,0,3,0,0,0,0,0,0,0],rfl,?_,rfl,rfl⟩ .nil))) <;> decide
  have hpackets := packets_frames hframes []
  rw [packets_nil,List.append_nil] at hpackets
  have hcontent : packets packet (content cutAnywhere.incoming) =
      [serverReply,(⟨2,0,16,0⟩,[9]),(⟨1,13,24,2⟩,[0,1,0,0,0,7,0,0,0]),(⟨1,13,20,3⟩,[0,0,0,0,0])] := by
    rw [List.append_nil] at hpackets
    exact hpackets
  refine ⟨by simp [cutAnywhere],?_,?_⟩
  · rw [hcontent]
    unfold Served
    decide
  · rw [hcontent]
    rfl

theorem world_tree_read_two : ∃ sock' d,
    getServerWorldTree "NPWR04850_00" ⟨some cutAnywhere,0⟩ = .ok d ⟨some sock',3⟩ ∧ d.lookup 1 = some [7] := by
  obtain ⟨sock',_,d,_,_,hrun,hlookup⟩ := world_tree_read.2 "NPWR04850_00"
    [78,80,87,82,48,52,56,53,48,95,48,48] twoServers cutAnywhere serverReply worldReplies 0 rfl (by decide) (by decide)
    (by unfold Encodable; decide) (by unfold Encodable; decide) ready_cutAnywhere ⟨[],rfl⟩
    (.cons ⟨[],rfl⟩ (.cons ⟨[],rfl⟩ .nil)) (by decide)
  exact ⟨sock',d,hrun,(hlookup 1 [7]).mpr (by decide)⟩

end Tag2now.Rpcn
