import Tag2now.Matching.GameServer
import Tag2now.Rpcn.Exchanges

/-! # A broken connection during a listing

The loop over the worlds lets every `RpcnError` go by, also the two by which the client tells
that the stream has ended or is out of step. Only an `OSError` reaches the shared client, so a
break is reported just where one follows it in the same use.
-/
namespace Tag2now.Matching
open Rpcn Pieces Collections

/-! ## The exchanges of a listing -/
section
variable (P : Protobuf) (comId : String)

def found (x : Exchange) : Except Fault (List RoomInfoDTO) := x.reply >>= answer P >>= listed

/-- Whether the listing goes on to the next world. -/
def goesOn {α : Type} : Except Fault α → Bool
  | .ok _ | .error (.rpcnError _) => true
  | .error _ => false

/-- The exchanges on a line for worlds asked one after another, by a client that has sent `k`
packets. -/
def exchanges : ℕ → Line → List ℤ → List Exchange
  | _,_,[] => []
  | k,l,worldId :: worlds =>
    match request P comId worldId (k + 1) with
    | .error _ => []
    | .ok _ => l.exchange :: if goesOn (found P l.exchange) then exchanges (k + 1) l.next worlds else []

variable {P comId}

theorem searchWorld_exchange {s : Socket} {k : ℕ} {worldId : ℤ} {bytes : List UInt8}
    (h : request P comId worldId (k + 1) = .ok bytes) :
    ∃ sock', searchWorld P comId worldId ⟨some s,k⟩ = withState ⟨some sock',k + 1⟩ (found P s.line.exchange) ∧
      ((∀ message, s.line.exchange ≠ .failed message) → sock'.line = s.line.next) := by
  obtain ⟨sock',hsearch,hline⟩ := searchRoomsAll_exchange (s := s) h
  refine ⟨sock',?_,hline⟩
  unfold searchWorld found
  simp only [bind,EStateM.bind,hsearch]
  cases Except.bind s.line.exchange.reply (answer P) with
  | error e => rfl
  | ok resp =>
    simp only [withState,Except.bind]
    cases listed resp <;> rfl

theorem mapM_room_error {infos : List RoomInfo} {e : Fault} (h : infos.mapM room = .error e) : e = .indexError := by
  induction infos with
  | nil => cases h
  | cons info infos ih =>
    rw [List.mapM_cons] at h
    rcases error_of_bind h with h | ⟨_,_,h⟩
    · unfold room at h
      split at h
      · cases h; rfl
      · cases h
    rcases error_of_bind h with h | ⟨_,_,h⟩
    · exact ih h
    · cases h

/-- What a reply holds is never an `OSError`. -/
theorem found_osError {x : Exchange} {message : String} (h : found P x = .error (.osError message)) :
    x = .failed message := by
  rcases error_of_bind h with h | ⟨resp,_,h⟩
  · rcases error_of_bind h with h | ⟨reply,_,h⟩
    · cases x with
      | replied | outOfStep | lost => cases h
      | failed => cases h; rfl
    · unfold answer at h
      split at h
      · cases h
      · unfold searchRoomsResult at h
        rcases error_of_bind h with h | ⟨raw,_,h⟩
        · unfold unpackDataPacket at h
          split at h <;> cases h
        · split at h <;> cases h
  · unfold listed at h
    split at h
    · cases mapM_room_error h
    · cases h

theorem searchWorlds_goesOn {worldId : ℤ} {worlds : List ℤ} {c c' : RpcnClient}
    {v : Except Fault (List RoomInfoDTO)} (h : searchWorld P comId worldId c = withState c' v)
    (hv : goesOn v = true) (allRooms : List RoomInfoDTO) :
    ∃ allRooms', searchWorlds P comId (worldId :: worlds) allRooms c = searchWorlds P comId worlds allRooms' c' := by
  rw [searchWorlds]
  simp only [bind,EStateM.bind,tryCatch,tryCatchThe,MonadExceptOf.tryCatch,EStateM.tryCatch,h]
  cases v with
  | ok rooms => exact ⟨allRooms ++ rooms,rfl⟩
  | error e =>
    cases e with
    | rpcnError => exact ⟨allRooms ++ [],rfl⟩
    | _ => cases hv

theorem searchWorlds_stops {worldId : ℤ} {worlds : List ℤ} {c c' : RpcnClient} {e : Fault}
    (h : searchWorld P comId worldId c = .error e c') (he : ∀ message, e ≠ .rpcnError message)
    (allRooms : List RoomInfoDTO) : searchWorlds P comId (worldId :: worlds) allRooms c = .error e c' := by
  rw [searchWorlds]
  simp only [bind,EStateM.bind,tryCatch,tryCatchThe,MonadExceptOf.tryCatch,EStateM.tryCatch,h]
  cases e with
  | rpcnError message => exact absurd rfl (he message)
  | _ => rfl

/-- The loop ends in an error of the connection's just where an exchange fails. -/
theorem searchWorlds_ofConnection {sock : Socket} {k : ℕ} {worlds : List ℤ} {allRooms : List RoomInfoDTO} :
    (∃ e c', searchWorlds P comId worlds allRooms ⟨some sock,k⟩ = .error e c' ∧ e.ofConnection = true) ↔
      ∃ message, .failed message ∈ exchanges P comId k sock.line worlds := by
  induction worlds generalizing sock k allRooms with
  | nil =>
    refine ⟨fun ⟨e,c',h,_⟩ => ?_,fun ⟨message,h⟩ => ?_⟩
    · cases h
    · cases h
  | cons worldId worlds ih =>
    rw [exchanges]
    cases hreq : request P comId worldId (k + 1) with
    | error e =>
      have he := request_error hreq
      obtain ⟨c',hsearch⟩ := searchRoomsAll_refused (c := ⟨some sock,k⟩) hreq
      have hworld : searchWorld P comId worldId ⟨some sock,k⟩ = .error e c' := by
        unfold searchWorld
        simp only [bind,EStateM.bind,hsearch]
      rw [searchWorlds_stops hworld (by rintro message rfl; cases he)]
      refine ⟨fun ⟨e',c'',h,he'⟩ => ?_,fun ⟨message,h⟩ => ?_⟩
      · cases h
        rw [he] at he'
        cases he'
      · cases h
    | ok bytes =>
      obtain ⟨sock',hworld,hline⟩ := searchWorld_exchange (s := sock) hreq
      simp only [List.mem_cons]
      cases hgoes : goesOn (found P sock.line.exchange) with
      | true =>
        have hnot : ∀ message, sock.line.exchange ≠ .failed message := by
          intro message hx
          rw [hx] at hgoes
          cases hgoes
        obtain ⟨allRooms',hrun⟩ := searchWorlds_goesOn hworld hgoes allRooms
        rw [hrun,ih,hline hnot,if_pos rfl]
        exact exists_congr fun message => ⟨.inr,fun h => h.resolve_left fun hx => hnot message hx.symm⟩
      | false =>
        cases hv : found P sock.line.exchange with
        | ok rooms => rw [hv] at hgoes; cases hgoes
        | error e =>
          rw [hv] at hgoes hworld
          rw [searchWorlds_stops hworld (by rintro message rfl; cases hgoes)]
          simp only [Bool.false_eq_true,if_false,List.not_mem_nil,or_false]
          refine ⟨fun ⟨e',c',h,he'⟩ => ?_,fun ⟨message,h⟩ => ?_⟩
          · cases h
            cases e with
            | osError message => exact ⟨message,(found_osError hv).symm⟩
            | rpcnError message => cases hgoes
            | _ => cases he'
          · rw [← h] at hv
            cases hv
            exact ⟨_,_,rfl,rfl⟩

end

/-! ## The use -/
section
variable (P : Protobuf) (comId : String) (cooldown : ℤ) (worlds : List ℤ) (moment : Moment RpcnClient)
  (s : SharedRpcnClient RpcnClient)

/-- The exchanges of one use; none where it is handed no client. -/
def useExchanges : List Exchange :=
  match connected cooldown moment s with
  | .error .. => []
  | .ok client _ =>
    match client.sock with
    | none => []
    | some sock => exchanges P comId client.packetId sock.line worlds

/-- The outage rule: the use ends in `RpcnUnavailableError`, so it lists nothing, and its client is
disconnected, let go and never handed out again. -/
structure Reported : Prop where
  unavailable : ∃ reason s', searchRoomsAll P comId cooldown worlds moment s = .error (.unavailable reason) s'
  discarded : (left (searchRoomsAll P comId cooldown worlds moment s)).client = none
  disconnected : ∃ c rest, (left (searchRoomsAll P comId cooldown worlds moment s)).letGo = c :: rest ∧ c.sock = none
  never_again : ∀ n s', handedOut cooldown moment s = some n →
    Relation.ReflTransGen (Step disconnect cooldown) (left (searchRoomsAll P comId cooldown worlds moment s)) s' →
      ∀ moment', handedOut cooldown moment' s' ≠ some n

end

/-- A reply came, whatever it says. -/
def InStep (x : Exchange) : Prop := ∃ payload, x = .replied payload

theorem disconnected_sock (c : RpcnClient) : (disconnected disconnect c).sock = none := by
  unfold disconnected disconnect
  simp only [bind,EStateM.bind,tryCatch,tryCatchThe,MonadExceptOf.tryCatch,EStateM.tryCatch]
  cases send .terminate [] c <;> rfl

section
variable {P : Protobuf} {comId : String} {cooldown : ℤ} {worlds : List ℤ} {moment : Moment RpcnClient}
  {s s' : SharedRpcnClient RpcnClient} {c : RpcnClient} {sock : Socket}

theorem useExchanges_connected (h : connected cooldown moment s = .ok c s') (hsock : c.sock = some sock) :
    useExchanges P comId cooldown worlds moment s = exchanges P comId c.packetId sock.line worlds := by
  unfold useExchanges
  rw [h]
  simp only [hsock]

/-- A failed send or read is reported. -/
theorem reported_of_failed (h : connected cooldown moment s = .ok c s') {e : Fault} {c' : RpcnClient}
    (huse : searchWorlds P comId worlds [] c = .error e c') (he : e.ofConnection = true) :
    Reported P comId cooldown worlds moment s := by
  obtain ⟨message,hrun⟩ : ∃ message, searchRoomsAll P comId cooldown worlds moment s = _ := apiClient_lost h huse he
  refine ⟨⟨_,_,hrun⟩,?_,?_,?_⟩
  · rw [hrun]
    rfl
  · rw [hrun]
    exact ⟨_,_,rfl,disconnected_sock c'⟩
  · intro n s'' hn hlater moment'
    rw [hrun] at hlater
    have hmade : handedOut cooldown moment s = some s'.made := by
      unfold handedOut
      rw [h]
    obtain rfl : s'.made = n := Option.some.inj (hmade.symm.trans hn)
    have hretired : Retired s'.made (left (.error (.unavailable (.failed message))
        ⟨none,some moment.notedAt,s'.made,disconnected disconnect c' :: s'.letGo⟩ :
          EStateM.Result Fault _ (List RoomInfoDTO))) := ⟨le_rfl,fun hheld => absurd rfl hheld⟩
    exact (hretired.later hlater).handedOut moment'

theorem not_reported (h : connected cooldown moment s = .ok c s')
    (huse : ∀ e c', searchWorlds P comId worlds [] c = .error e c' → e.ofConnection = false) :
    ¬ Reported P comId cooldown worlds moment s := by
  intro hreported
  obtain ⟨c',hrun⟩ : ∃ c', left (searchRoomsAll P comId cooldown worlds moment s) = _ := apiClient_kept h huse
  have hdiscarded := hreported.discarded
  rw [hrun] at hdiscarded
  cases hdiscarded

/-- A use that comes to an exchange is reported just where one fails. -/
theorem reported_iff_failed {x : Exchange} (hx : x ∈ useExchanges P comId cooldown worlds moment s) :
    Reported P comId cooldown worlds moment s ↔
      ∃ message, .failed message ∈ useExchanges P comId cooldown worlds moment s := by
  cases hc : connected cooldown moment s with
  | error e s' =>
    unfold useExchanges at hx
    rw [hc] at hx
    cases hx
  | ok c s' =>
    cases hsock : c.sock with
    | none =>
      unfold useExchanges at hx
      rw [hc] at hx
      simp only [hsock] at hx
      cases hx
    | some sock =>
      obtain ⟨k,rfl⟩ : ∃ k, c = ⟨some sock,k⟩ := ⟨c.packetId,by rw [← hsock]⟩
      rw [useExchanges_connected hc hsock,← @searchWorlds_ofConnection P comId sock k worlds []]
      constructor
      · refine fun hreported => by_contra fun hnot => not_reported hc ?_ hreported
        exact fun e c' huse => Bool.eq_false_iff.mpr fun he => hnot ⟨e,c',huse,he⟩
      · rintro ⟨e,c',huse,he⟩
        exact reported_of_failed hc huse he

/-- A break is reported just where there is none, or one of the exchanges fails with an `OSError`. -/
theorem break_reported_iff (P : Protobuf) (comId : String) (cooldown : ℤ) (worlds : List ℤ)
    (moment : Moment RpcnClient) (s : SharedRpcnClient RpcnClient) :
    ((∃ x ∈ useExchanges P comId cooldown worlds moment s, ¬ InStep x) → Reported P comId cooldown worlds moment s) ↔
      (∀ x ∈ useExchanges P comId cooldown worlds moment s, InStep x) ∨
        ∃ message, .failed message ∈ useExchanges P comId cooldown worlds moment s := by
  constructor
  · intro h
    by_cases hin : ∀ x ∈ useExchanges P comId cooldown worlds moment s, InStep x
    · exact .inl hin
    · obtain ⟨x,hx,hout⟩ : ∃ x ∈ useExchanges P comId cooldown worlds moment s, ¬ InStep x := by
        simpa only [not_forall,exists_prop] using hin
      exact .inr ((reported_iff_failed hx).mp (h ⟨x,hx,hout⟩))
  · rintro (hin | hfailed) ⟨x,hx,hout⟩
    · exact absurd (hin x hx) hout
    · exact (reported_iff_failed hx).mpr hfailed

end

/-! ## A reply taken for another's -/

/-- A room, number 7, as the codec writes it: the total, then the room's id and five empty
attributes. -/
def roomSeven : List UInt8 := [0x10,1,0x1A,12,0x30,7,0x7A,0,0x7A,0,0x7A,0,0x7A,0,0x7A,0]

/-- The codec on small world ids and on this one room. -/
def sampleCodec : Protobuf where
  serialize req := [8,31,16,UInt8.ofNat req.worldId,32,1,40,20] ++ req.attrId.flatMap fun a => [82,2,8,UInt8.ofNat a]
  parse raw := if raw = roomSeven then some ⟨1,[⟨7,0,0,⟨"","",""⟩,List.replicate 5 ⟨0,0⟩,[]⟩]⟩ else none

/-- A packet of type 3, then the reply to the second packet of this client. -/
def strayStream : Source UInt8 String :=
  [.piece 3 [0,0,15,0,0,0,0,0,0,0,0,0,0,0],
    .piece 1 ([5,1,36,0,0,0,2,0,0,0,0,0,0,0,0] ++ [16,0,0,0] ++ roomSeven)]

/-- A client that has logged in and is held for the next use. -/
def strayClient : SharedRpcnClient RpcnClient := ⟨some ⟨some ⟨strayStream,[],[]⟩,1⟩,none,1,[]⟩

def quietMoment : Moment RpcnClient := ⟨0,0,.error (.osError "refused") ⟨none,0⟩⟩

/-- World 1's search meets a stray packet; world 2's then takes world 1's reply, and the client stays. -/
theorem stray_packet_listed :
    (∃ s', searchRoomsAll sampleCodec "NPWR02973_00" 5000000 [1,2] quietMoment strayClient =
        .ok [⟨7,"","",0,0,none,[]⟩] s' ∧ s'.client ≠ none) ∧
      ¬ ((∃ x ∈ useExchanges sampleCodec "NPWR02973_00" 5000000 [1,2] quietMoment strayClient, ¬ InStep x) →
        Reported sampleCodec "NPWR02973_00" 5000000 [1,2] quietMoment strayClient) := by
  have hexchanges : useExchanges sampleCodec "NPWR02973_00" 5000000 [1,2] quietMoment strayClient =
      [.outOfStep 3,.replied ([0] ++ [16,0,0,0] ++ roomSeven)] := by decide +kernel
  have hlisted : (match searchRoomsAll sampleCodec "NPWR02973_00" 5000000 [1,2] quietMoment strayClient with
      | .ok rooms s' => decide (rooms = [⟨7,"","",0,0,none,[]⟩]) && s'.client.isSome
      | .error .. => false) = true := by decide +kernel
  constructor
  · split at hlisted
    · rename_i rooms s' hrun
      rw [Bool.and_eq_true,decide_eq_true_iff] at hlisted
      obtain ⟨rfl,hsome⟩ := hlisted
      exact ⟨s',hrun,fun hnone => by rw [hnone] at hsome; cases hsome⟩
    · cases hlisted
  · have hstray : .outOfStep 3 ∈ useExchanges sampleCodec "NPWR02973_00" 5000000 [1,2] quietMoment strayClient := by
      rw [hexchanges]
      exact List.mem_cons_self ..
    intro hreported
    obtain ⟨message,hfailed⟩ := (reported_iff_failed hstray).mp (hreported ⟨_,hstray,nofun⟩)
    rw [hexchanges] at hfailed
    simp at hfailed

end Tag2now.Matching
