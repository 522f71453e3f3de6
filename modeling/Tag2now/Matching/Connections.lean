import Tag2now.Matching.GameServer
import Tag2now.Rpcn.Session

/-! # Connections opened and closed

The factory opens a socket, reads the server's introduction and logs in, and the shared client
disconnects what it lets go. With each client it is counted how many sockets were opened for it
and how many of them were closed by a call.
-/
namespace Tag2now.Matching
open Rpcn

structure Connection where
  client : RpcnClient
  opened : ℕ
  closed : ℕ

/-- What `create_connection` and the TLS handshake come to. -/
inductive Dial
  /-- An `OSError`, and no socket. -/
  | refused (message : String)
  /-- The handshake raises an `OSError`, before which the `ssl` module closes the socket. -/
  | handshakeFailed (message : String)
  | opened (sock : Socket)

def onRpcn {α : Type} (m : EStateM Fault RpcnClient α) : EStateM Fault Connection α := fun c =>
  match m c.client with
  | .ok a client' => .ok a { c with client := client' }
  | .error e client' => .error e { c with client := client' }

def connect (dial : Dial) : EStateM Fault Connection ℕ :=
  match dial with
  | .refused message => throw (.osError message)
  | .handshakeFailed message => do
    modify fun c => { c with opened := c.opened + 1, closed := c.closed + 1 }
    throw (.osError message)
  | .opened sock => do
    modify fun c => { c with client := { c.client with sock := some sock }, opened := c.opened + 1 }
    onRpcn (onSocket serverInfo)

/-- The socket is closed if there is one. -/
def disconnectAll : EStateM Fault Connection Unit := do
  let sock := (← get).client.sock
  onRpcn disconnect
  if sock.isSome then modify fun c => { c with closed := c.closed + 1 }

/-- A connected client, already logged in. -/
def createClient (credentials : Credentials) (dial : Dial) : EStateM.Result Fault Connection Unit :=
  (do
    let _ ← connect dial
    let _ ← onRpcn (login credentials)
    pure () : EStateM Fault Connection Unit) ⟨⟨none,0⟩,0,0⟩

/-- What the methods that a use may call are made of. -/
inductive Asks : {α : Type} → EStateM Fault RpcnClient α → Prop
  | pure {α : Type} (a : α) : Asks (pure a)
  | throw {α : Type} (e : Fault) : Asks (throw e : EStateM Fault RpcnClient α)
  | send (cmd : Cmd) (payload : List UInt8) : Asks (send cmd payload)
  | recvReply : Asks (onSocket recvReply)
  | bind {α β : Type} {m : EStateM Fault RpcnClient α} {k : α → EStateM Fault RpcnClient β} :
    Asks m → (∀ a, Asks (k a)) → Asks (m >>= k)
  | tryCatch {α : Type} {m : EStateM Fault RpcnClient α} {h : Fault → EStateM Fault RpcnClient α} :
    Asks m → (∀ e, Asks (h e)) → Asks (tryCatch m h)

/-- There is no client, and the cooldown is over. -/
def callsFactory {C : Type} (cooldown now : ℤ) (s : SharedRpcnClient C) : Bool :=
  s.client.isNone && s.failedAt.all fun failedAt => failedAt + cooldown ≤ now

/-- Uses and shutdowns one after another, with what each call of the factory met, newest first. -/
inductive Uses (credentials : Credentials) (cooldown : ℤ) : List Dial → SharedRpcnClient Connection → Prop
  | start : Uses credentials cooldown [] (.fresh Connection)
  | use {dials : List Dial} {s : SharedRpcnClient Connection} (h : Uses credentials cooldown dials s)
    (enteredAt notedAt : ℤ) (dial : Dial) {β : Type} {use : EStateM Fault RpcnClient β} (hasks : Asks use) :
    Uses credentials cooldown (if callsFactory cooldown enteredAt s then dial :: dials else dials)
      (left (apiClient disconnectAll cooldown ⟨enteredAt,notedAt,createClient credentials dial⟩ (onRpcn use) s))
  | shutdown {dials : List Dial} {s : SharedRpcnClient Connection} (h : Uses credentials cooldown dials s) :
    Uses credentials cooldown dials (shutdown disconnectAll s)

/-- Every socket of a client that is no longer held has been closed. -/
def NoneLeftOpen (s : SharedRpcnClient Connection) : Prop := ∀ c ∈ s.letGo, c.closed = c.opened

/-- No socket was opened but for a server that lets the client in. -/
def Clean (credentials : Credentials) : Dial → Prop
  | .opened sock => LetsIn credentials sock.line
  | _ => True

/-! ## Requests keep the socket -/

/-- The socket, if there is one, is open after as before. -/
def KeepsSocket {α : Type} (m : EStateM Fault RpcnClient α) : Prop :=
  ∀ c, (left (m c)).sock.isSome = c.sock.isSome

theorem keepsSocket_onSocket {α : Type} (m : EStateM Fault Socket α) : KeepsSocket (onSocket m) := by
  intro c
  unfold onSocket
  cases hsock : c.sock with
  | none => simp only [left,hsock]
  | some sock =>
    simp only
    cases m sock <;> rfl

theorem keepsSocket_bind {α β : Type} {m : EStateM Fault RpcnClient α} {k : α → EStateM Fault RpcnClient β}
    (hm : KeepsSocket m) (hk : ∀ a, KeepsSocket (k a)) : KeepsSocket (m >>= k) := by
  intro c
  have hfirst := hm c
  simp only [bind,EStateM.bind]
  cases hrun : m c with
  | ok a c' =>
    rw [hrun] at hfirst
    exact (hk a c').trans hfirst
  | error e c' =>
    rw [hrun] at hfirst
    exact hfirst

theorem keepsSocket_tryCatch {α : Type} {m : EStateM Fault RpcnClient α} {h : Fault → EStateM Fault RpcnClient α}
    (hm : KeepsSocket m) (hh : ∀ e, KeepsSocket (h e)) : KeepsSocket (tryCatch m h) := by
  intro c
  have hfirst := hm c
  simp only [tryCatch,tryCatchThe,MonadExceptOf.tryCatch,EStateM.tryCatch]
  cases hrun : m c with
  | ok a c' =>
    rw [hrun] at hfirst
    exact hfirst
  | error e c' =>
    rw [hrun] at hfirst
    exact (hh e c').trans hfirst

theorem keepsSocket_send (cmd : Cmd) (payload : List UInt8) : KeepsSocket (send cmd payload) := by
  intro c
  have hwrites := send_writes cmd payload c.sock c.packetId
  split at hwrites
  · obtain ⟨bytes,_,hsend⟩ := hwrites
    rw [hsend]
    exact keepsSocket_onSocket (sendall bytes) ⟨c.sock,c.packetId + 1⟩
  · rw [hwrites]
    rfl

theorem Asks.keepsSocket {α : Type} {m : EStateM Fault RpcnClient α} (h : Asks m) : KeepsSocket m := by
  induction h with
  | pure a => exact fun _ => rfl
  | throw e => exact fun _ => rfl
  | send cmd payload => exact keepsSocket_send cmd payload
  | recvReply => exact keepsSocket_onSocket Rpcn.recvReply
  | bind _ _ ihm ihk => exact keepsSocket_bind ihm ihk
  | tryCatch _ _ ihm ihh => exact keepsSocket_tryCatch ihm ihh

theorem asks_ofExcept {α : Type} (x : Except Fault α) : Asks (ofExcept x : EStateM Fault RpcnClient α) := by
  cases x with
  | ok a => exact .pure a
  | error e => exact .throw e

theorem asks_requestWithData (comId : String) (cmd : Cmd) (reqData : List UInt8) :
    Asks (requestWithData comId cmd reqData) := by
  unfold requestWithData
  split
  on_goal 1 => refine .bind (.throw _) fun _ => ?_
  all_goals
    refine .bind (asks_ofExcept _) fun payload => .bind (.send cmd _) fun _ => .bind .recvReply fun reply => ?_
    obtain ⟨error,data⟩ := reply
    simp only
    split
    · exact .bind (.throw _) fun _ => .pure _
    · exact .pure _

theorem asks_searchWorlds (P : Protobuf) (comId : String) (worlds : List ℤ) (allRooms : List RoomInfoDTO) :
    Asks (searchWorlds P comId worlds allRooms) := by
  have hsearch (worldId : ℤ) : Asks (searchWorld P comId worldId) := by
    refine .bind (.bind (asks_ofExcept _) fun req => .bind ?_ fun data => asks_ofExcept _) fun resp => asks_ofExcept _
    exact .bind (asks_ofExcept _) fun size => asks_requestWithData comId .searchRoomAll _
  induction worlds generalizing allRooms with
  | nil => exact .pure allRooms
  | cons worldId worlds ih =>
    refine .bind (.tryCatch (hsearch worldId) fun e => ?_) fun rooms => ih _
    cases e with
    | rpcnError message => exact .pure []
    | _ => exact .throw _

/-! ## What the factory leaves -/

/-- The client's socket is open, and it is the only one. -/
structure Connection.Open (c : Connection) : Prop where
  sock : c.client.sock.isSome = true
  opened : c.opened = c.closed + 1

theorem createClient_clean {credentials : Credentials} {dial : Dial} (h : Clean credentials dial) :
    (∃ c, createClient credentials dial = .ok () c ∧ c.Open) ∨
      ∃ e c, createClient credentials dial = .error e c ∧ c.closed = c.opened := by
  cases dial with
  | refused message => exact .inr ⟨_,_,rfl,rfl⟩
  | handshakeFailed message => exact .inr ⟨_,_,rfl,rfl⟩
  | opened sock =>
    obtain ⟨p,ps,hp,hintroduces,hadmits⟩ := h
    obtain ⟨sock₁,hinfo,hline⟩ := serverInfo_introduced hp hintroduces
    obtain ⟨sock₂,hlogin,_⟩ := login_first credentials sock₁
    rw [← hline] at hadmits
    obtain ⟨info,hok⟩ := hlogin hadmits
    refine .inl ⟨⟨⟨some sock₂,1⟩,1,0⟩,?_,rfl,rfl⟩
    unfold createClient connect
    simp only [bind,EStateM.bind,modify,modifyGet,MonadStateOf.modifyGet,Collections.modifyGet_ok,onRpcn,onSocket,
      hinfo,hok]
    rfl

/-- The exception goes on, and the socket stays as it is. -/
theorem createClient_unclean {credentials : Credentials} {dial : Dial} (h : ¬ Clean credentials dial) :
    ∃ e c, createClient credentials dial = .error e c ∧ c.Open := by
  cases dial with
  | refused message => exact absurd trivial h
  | handshakeFailed message => exact absurd trivial h
  | opened sock =>
    unfold createClient connect
    simp only [bind,EStateM.bind,modify,modifyGet,MonadStateOf.modifyGet,Collections.modifyGet_ok,onRpcn,onSocket]
    by_cases hp : ∃ p ps, sock.line.packets = p :: ps ∧ Introduces p
    · obtain ⟨p,ps,hp,hintroduces⟩ := hp
      obtain ⟨sock₁,hinfo,hline⟩ := serverInfo_introduced hp hintroduces
      obtain ⟨sock₂,_,hlogin⟩ := login_first credentials sock₁
      have hnot : ¬ Admits credentials sock₁.line := by
        rw [hline]
        exact fun hadmits => h ⟨p,ps,hp,hintroduces,hadmits⟩
      obtain ⟨e,herror⟩ := hlogin hnot
      exact ⟨e,⟨⟨some sock₂,1⟩,1,0⟩,by simp only [hinfo,herror],rfl,rfl⟩
    · obtain ⟨e,sock₁,hinfo⟩ := serverInfo_refused fun p ps hps hintroduces => hp ⟨p,ps,hps,hintroduces⟩
      exact ⟨e,⟨⟨some sock₁,0⟩,1,0⟩,by simp only [hinfo],rfl,rfl⟩

theorem disconnect_ok (client : RpcnClient) : ∃ client', disconnect client = .ok () client' := by
  unfold disconnect
  simp only [bind,EStateM.bind,tryCatch,tryCatchThe,MonadExceptOf.tryCatch,EStateM.tryCatch]
  cases send .terminate [] client with
  | ok _ client' => exact ⟨_,rfl⟩
  | error e client' => exact ⟨_,rfl⟩

theorem disconnectAll_closed {c : Connection} (h : c.Open) :
    (disconnected disconnectAll c).closed = (disconnected disconnectAll c).opened := by
  obtain ⟨hsock,hopened⟩ := h
  obtain ⟨client',hdisconnect⟩ := disconnect_ok c.client
  unfold disconnected disconnectAll
  simp only [bind,EStateM.bind,get,getThe,MonadStateOf.get,Collections.get_ok,onRpcn,if_pos hsock,hdisconnect]
  exact hopened.symm

theorem Connection.Open.use {c c' : Connection} (h : c.Open) {α : Type} {use : EStateM Fault RpcnClient α}
    (hasks : Asks use) (hleft : left (onRpcn use c) = c') : c'.Open := by
  have hkeeps := hasks.keepsSocket c.client
  subst hleft
  unfold onRpcn
  cases hrun : use c.client with
  | ok a client' =>
    rw [hrun] at hkeeps
    exact ⟨hkeeps.trans h.sock,h.opened⟩
  | error e client' =>
    rw [hrun] at hkeeps
    exact ⟨hkeeps.trans h.sock,h.opened⟩

/-! ## What a use lets go -/
section
variable {C : Type} {cooldown : ℤ} {moment : Moment C} {s : SharedRpcnClient C}

theorem connected_called (h : callsFactory cooldown moment.enteredAt s = true) :
    connected cooldown moment s = made moment.factory s := by
  obtain ⟨hclient,hcooled⟩ := Bool.and_eq_true_iff.mp h
  rw [connected_none (Option.isNone_iff_eq_none.mp hclient)]
  unfold ensureCooledDown
  simp only [bind,EStateM.bind,get,getThe,MonadStateOf.get,Collections.get_ok]
  cases hfailed : s.failedAt with
  | none => rfl
  | some failedAt =>
    rw [hfailed] at hcooled
    have hover : failedAt + cooldown ≤ moment.enteredAt := of_decide_eq_true hcooled
    simp only
    rw [if_neg (by omega)]
    rfl

/-- Without the factory the client held is handed out, or the use is refused. -/
theorem connected_uncalled (h : ¬ callsFactory cooldown moment.enteredAt s = true) :
    (∃ c, s.client = some c ∧ connected cooldown moment s = .ok c s) ∨
      s.client = none ∧ ∃ reason, connected cooldown moment s = .error (.unavailable reason) s := by
  cases hclient : s.client with
  | some c => exact .inl ⟨c,rfl,connected_held hclient⟩
  | none =>
    refine .inr ⟨rfl,?_⟩
    rw [connected_none hclient]
    unfold callsFactory at h
    rw [hclient,Option.isNone_none,Bool.true_and] at h
    unfold ensureCooledDown
    simp only [bind,EStateM.bind,get,getThe,MonadStateOf.get,Collections.get_ok]
    cases hfailed : s.failedAt with
    | none =>
      rw [hfailed] at h
      exact absurd rfl h
    | some failedAt =>
      rw [hfailed] at h
      have hleft : ¬ failedAt + cooldown ≤ moment.enteredAt := fun hle => h (decide_eq_true hle)
      simp only
      rw [if_pos (by omega)]
      exact ⟨_,rfl⟩

variable {α : Type} {disconnect : EStateM Fault C Unit} {use : EStateM Fault C α} {s' : SharedRpcnClient C} {c : C}
  {e : Fault}

theorem connected_new (h : callsFactory cooldown moment.enteredAt s = true) (hf : moment.factory = .ok () c) :
    connected cooldown moment s = .ok c { s with client := some c, made := s.made + 1 } := by
  rw [connected_called h]
  unfold made
  rw [hf]

theorem connected_lost (h : callsFactory cooldown moment.enteredAt s = true) (hf : moment.factory = .error e c) :
    connected cooldown moment s = .error e { s with letGo := c :: s.letGo } := by
  rw [connected_called h]
  unfold made
  rw [hf]

/-- The client handed out is kept as the use leaves it, or disconnected. -/
theorem apiClient_handed (h : connected cooldown moment s = .ok c s') :
    left (apiClient disconnect cooldown moment use s) = { s' with client := some (left (use c)) } ∨
      left (apiClient disconnect cooldown moment use s) =
        ⟨none,some moment.notedAt,s'.made,disconnected disconnect (left (use c)) :: s'.letGo⟩ := by
  cases huse : use c with
  | ok a c' =>
    left
    unfold apiClient onClient
    simp only [tryCatch,tryCatchThe,MonadExceptOf.tryCatch,EStateM.tryCatch,bind,EStateM.bind,h,huse]
    rfl
  | error e c' =>
    cases he : e.ofConnection with
    | true =>
      right
      obtain ⟨message,hlost⟩ : ∃ message, apiClient disconnect cooldown moment use s = _ := apiClient_lost h huse he
      rw [hlost]
      rfl
    | false =>
      left
      unfold apiClient onClient
      simp only [tryCatch,tryCatchThe,MonadExceptOf.tryCatch,EStateM.tryCatch,bind,EStateM.bind,h,huse]
      cases e with
      | rpcnError message | osError message => cases he
      | _ => rfl

/-- Where no client is handed out, none is held after it, and nothing more is let go. -/
theorem apiClient_unhanded (h : connected cooldown moment s = .error e s') :
    (left (apiClient disconnect cooldown moment use s)).client = none ∧
      (left (apiClient disconnect cooldown moment use s)).letGo = s'.letGo := by
  obtain ⟨_,hclient,_⟩ := connected_error h
  unfold apiClient
  simp only [tryCatch,tryCatchThe,MonadExceptOf.tryCatch,EStateM.tryCatch,bind,EStateM.bind,h]
  have hdiscard : (left (discard disconnect moment.notedAt s')).letGo = s'.letGo := by
    change (s'.client.map _).toList ++ s'.letGo = _
    rw [hclient]
    rfl
  cases e with
  | rpcnError message | osError message => exact ⟨rfl,hdiscard⟩
  | _ => exact ⟨hclient,rfl⟩

end

/-! ## Runs -/

/-- The client held has its socket open, and those let go have theirs closed just where `clean` says. -/
structure Accounted (clean : Prop) (s : SharedRpcnClient Connection) : Prop where
  held : ∀ c, s.client = some c → c.Open
  letGo : NoneLeftOpen s ↔ clean

section
variable {clean : Prop} {cooldown : ℤ} {moment : Moment Connection} {s s' : SharedRpcnClient Connection}
  {c : Connection} {α : Type} {use : EStateM Fault RpcnClient α}

theorem noneLeftOpen_closed (hc : c.closed = c.opened) (h : s'.letGo = c :: s.letGo) :
    NoneLeftOpen s' ↔ NoneLeftOpen s := by
  unfold NoneLeftOpen
  rw [h,List.forall_mem_cons]
  exact and_iff_right hc

theorem noneLeftOpen_same (h : s'.letGo = s.letGo) : NoneLeftOpen s' ↔ NoneLeftOpen s := by
  unfold NoneLeftOpen
  rw [h]

/-- A use that is handed a client leaves it held, or closes its socket. -/
theorem Accounted.handed (hletGo : NoneLeftOpen s' ↔ clean) (hopen : c.Open) (hasks : Asks use)
    (h : connected cooldown moment s = .ok c s') :
    Accounted clean (left (apiClient disconnectAll cooldown moment (onRpcn use) s)) := by
  have hused : (left (onRpcn use c)).Open := hopen.use hasks rfl
  have hcases : left (apiClient disconnectAll cooldown moment (onRpcn use) s) = _ ∨ _ := apiClient_handed h
  rcases hcases with hkept | hlost
  · rw [hkept]
    refine ⟨fun c' hc' => ?_,hletGo⟩
    cases hc'
    exact hused
  · rw [hlost]
    refine ⟨fun c' hc' => (by cases hc'),?_⟩
    exact (noneLeftOpen_closed (disconnectAll_closed hused) rfl).trans hletGo

theorem Accounted.unhanded (hletGo : NoneLeftOpen s' ↔ clean) {e : Fault}
    (h : connected cooldown moment s = .error e s') :
    Accounted clean (left (apiClient disconnectAll cooldown moment (onRpcn use) s)) := by
  obtain ⟨hnone,hsame⟩ : (left (apiClient disconnectAll cooldown moment (onRpcn use) s)).client = none ∧ _ :=
    apiClient_unhanded h
  refine ⟨fun c hc => ?_,(noneLeftOpen_same hsame).trans hletGo⟩
  rw [hnone] at hc
  cases hc

theorem Accounted.shutdown (h : Accounted clean s) : Accounted clean (Matching.shutdown disconnectAll s) := by
  refine ⟨fun c hc => (by cases hc),Iff.trans ?_ h.letGo⟩
  cases hclient : s.client with
  | none =>
    apply noneLeftOpen_same
    unfold Matching.shutdown
    rw [hclient]
    rfl
  | some c =>
    apply noneLeftOpen_closed (disconnectAll_closed (h.held c hclient))
    unfold Matching.shutdown
    rw [hclient]
    rfl

end

theorem Uses.accounted {credentials : Credentials} {cooldown : ℤ} {dials : List Dial}
    {s : SharedRpcnClient Connection} (h : Uses credentials cooldown dials s) :
    Accounted (∀ dial ∈ dials, Clean credentials dial) s := by
  induction h with
  | start =>
    refine ⟨fun c hc => (by cases hc),?_⟩
    exact iff_of_true (fun _ hc => by cases hc) (fun _ hdial => by cases hdial)
  | shutdown _ ih => exact ih.shutdown
  | @use dials s _ enteredAt notedAt dial β use hasks ih =>
    by_cases hcalls : callsFactory cooldown enteredAt s = true
    · rw [if_pos hcalls]
      by_cases hclean : Clean credentials dial
      · have hdials : (∀ d ∈ dials, Clean credentials d) ↔ ∀ d ∈ dial :: dials, Clean credentials d := by
          rw [List.forall_mem_cons]
          exact (and_iff_right hclean).symm
        rcases createClient_clean hclean with ⟨c,hmade,hopen⟩ | ⟨e,c,hfailed,hclosed⟩
        · have hletGo : NoneLeftOpen { s with client := some c, made := s.made + 1 } ↔
              ∀ d ∈ dial :: dials, Clean credentials d := ih.letGo.trans hdials
          exact .handed hletGo hopen hasks (connected_new hcalls hmade)
        · exact .unhanded (((noneLeftOpen_closed hclosed rfl).trans ih.letGo).trans hdials)
            (connected_lost hcalls hfailed)
      · obtain ⟨e,c,hfailed,hopen⟩ := createClient_unclean hclean
        refine .unhanded (iff_of_false ?_ ?_) (connected_lost hcalls hfailed)
        · intro hnone
          have hclosed : c.closed = c.opened := hnone c List.mem_cons_self
          have hopened := hopen.opened
          omega
        · exact fun hall => hclean (hall dial List.mem_cons_self)
    · rw [if_neg hcalls]
      let moment : Moment Connection := ⟨enteredAt,notedAt,createClient credentials dial⟩
      have hcases : (∃ c, s.client = some c ∧ connected cooldown moment s = .ok c s) ∨ _ := connected_uncalled hcalls
      rcases hcases with ⟨c,hclient,hconnected⟩ | ⟨_,reason,hrefused⟩
      · exact .handed ih.letGo (ih.held c hclient) hasks hconnected
      · exact .unhanded ih.letGo hrefused

/-- At every point between uses all sockets but that of the client held are closed, just where no
call of the factory has opened a socket and failed. -/
theorem connections_closed_iff {credentials : Credentials} {cooldown : ℤ} {dials : List Dial}
    {s : SharedRpcnClient Connection} (h : Uses credentials cooldown dials s) :
    NoneLeftOpen s ↔ ∀ dial ∈ dials, Clean credentials dial := h.accounted.letGo

/-! A server that lets the client in, and one that hangs up on it. -/

def nobody : Credentials := ⟨"","",""⟩

def introduction : Header × List UInt8 := (⟨3,0,19,0⟩,[30,0,0,0])
def success : Header × List UInt8 := (⟨1,0,26,1⟩,[0,0,0,7,0,0,0,0,0,0,0])

def welcoming : Socket :=
  ⟨[.piece 3 [0,0,19,0,0,0,0,0,0,0,0,0,0,0,30,0,0,0,1,0,0,26,0,0,0,1,0,0,0,0,0,0,0,0,0,0,7,0,0,0,0,0,0,0]],[],[]⟩

theorem welcoming_letsIn : LetsIn nobody welcoming.line := by
  have hframes : List.Forall₂ (Pieces.Frames packet) [introduction,success]
      [[3,0,0,19,0,0,0,0,0,0,0,0,0,0,0,30,0,0,0],[1,0,0,26,0,0,0,1,0,0,0,0,0,0,0,0,0,0,7,0,0,0,0,0,0,0]] :=
    .cons ⟨[3,0,0,19,0,0,0,0,0,0,0,0,0,0,0],by decide,by decide,by decide,by decide⟩
      (.cons ⟨[1,0,0,26,0,0,0,1,0,0,0,0,0,0,0],by decide,by decide,by decide,by decide⟩ .nil)
  have hpackets : welcoming.line.packets = [introduction,success] := by
    have h := Pieces.packets_frames hframes []
    rw [List.append_nil,Pieces.packets_nil,List.append_nil] at h
    exact h
  refine ⟨introduction,[success],hpackets,⟨rfl,by decide,by decide⟩,by decide,success.2,⟨[],[],7⟩,rfl,?_⟩
  decide

/-- A codec of requests; the server that hangs up after the login answers none. -/
def unanswered : Protobuf := ⟨fun req => [8,31,16,UInt8.ofNat req.worldId,32,1,40,20],fun _ => none⟩

/-- The client is handed to a search of two worlds and then shut down. -/
theorem connections_closed_welcoming : ∃ s, Uses nobody 5 [.opened welcoming] s ∧ s.client = none ∧ NoneLeftOpen s := by
  have hsearched : Uses nobody 5 [.opened welcoming] _ :=
    Uses.start.use 0 0 (.opened welcoming) (asks_searchWorlds unanswered "NPWR02973_00" [1,2] [])
  refine ⟨_,hsearched.shutdown,rfl,(connections_closed_iff hsearched.shutdown).mpr ?_⟩
  rintro dial hdial
  rw [List.mem_singleton.mp hdial]
  exact welcoming_letsIn

/-- The connection is opened, and the server closes it before it has introduced itself. -/
theorem hung_up_left_open : ¬ ∀ credentials cooldown dials s, Uses credentials cooldown dials s → NoneLeftOpen s := by
  intro h
  have hrun : Uses nobody 5 [.opened ⟨[],[],[]⟩] _ := Uses.start.use 0 0 (.opened ⟨[],[],[]⟩) (Asks.pure ())
  obtain ⟨p,ps,hp,_⟩ := hrun.accounted.letGo.mp (h _ _ _ _ hrun) _ List.mem_cons_self
  have hnone : (⟨[],[],[]⟩ : Socket).line.packets = [] := Pieces.packets_nil
  rw [hnone] at hp
  cases hp

end Tag2now.Matching
