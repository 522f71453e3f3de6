import Tag2now.Matching.Leaderboard
import Tag2now.Rpcn.Scores
import Tag2now.Shared.Basics

/-! # The leaderboard as RPCN tells it

An entry's game info begins with both characters' ids, ranks, wins and losses, big-endian.
-/
namespace Tag2now.Matching
open Rpcn Pieces

def gameInfoFmt : List ℕ := [1,1,1,1,4,4,4,4]

def gameInfoSize : ℕ := 20

/-- A Tekken rank resolved from a numeric id. -/
def RankInfo.of (id : ℕ) : RankInfo :=
  match tekkenRanks[id]? with
  | some rank => ⟨id,rank.name,rank.tier⟩
  | none => ⟨id,"Unknown(" ++ toString id ++ ")","Unknown"⟩

/-- At least two hexadecimal digits. -/
def hex (n : ℕ) : String := String.ofList ((Nat.toDigits 16 n).leftpad 2 '0')

def CharInfo.of (charId rankId wins losses : ℕ) : CharInfo where
  charId
  rankInfo := .of rankId
  wins
  losses
  name := ttt2Characters[charId]?.getD ("Unknown(0x" ++ hex charId ++ ")")

/-- Nothing if the data are too short. -/
def parseGameInfo (data : List UInt8) : Option GameInfo :=
  if data.length < gameInfoSize then none
  else match fields gameInfoFmt data with
    | [id₁,id₂,rank₁,rank₂,wins₁,wins₂,losses₁,losses₂] =>
      some ⟨.of id₁ rank₁ wins₁ losses₁,.of id₂ rank₂ wins₂ losses₂⟩
    | _ => none

def LeaderboardEntry.of (e : ScoreEntry) : LeaderboardEntry where
  rank := e.rank
  npId := e.npId
  onlineName := e.onlineName
  score := e.score
  pcId := e.pcId
  recordDate := e.recordDate
  hasGameData := e.hasGameData
  comment := e.comment
  playerInfo := if e.gameInfo = [] then none else parseGameInfo e.gameInfo

def LeaderboardResult.of (result : ScoreResult) : LeaderboardResult where
  totalRecords := result.totalRecords
  lastSortDate := result.lastSortDate
  entries := result.entries.map .of

def getLeaderboardFrom (S : ScoreCodec) (comId : String) (boardId : ℤ) (numRanks : ℕ) :
    EStateM Fault RpcnClient LeaderboardResult := do
  let result ← getScoreRange S comId boardId 1 numRanks true true
  return .of result

/-! ## The game info -/

def GameInfo.numbers (g : GameInfo) : List ℕ :=
  [g.mainCharInfo.charId,g.subCharInfo.charId,g.mainCharInfo.rankInfo.id,g.subCharInfo.rankInfo.id,
    g.mainCharInfo.wins,g.subCharInfo.wins,g.mainCharInfo.losses,g.subCharInfo.losses]

/-- The names are those of the ids. -/
def CharInfo.Named (c : CharInfo) : Prop := c = .of c.charId c.rankInfo.id c.wins c.losses

theorem RankInfo.of_id (id : ℕ) : (RankInfo.of id).id = id := by
  unfold RankInfo.of
  split <;> rfl

theorem CharInfo.of_named (charId rankId wins losses : ℕ) : (CharInfo.of charId rankId wins losses).Named := by
  unfold CharInfo.Named
  simp [CharInfo.of,RankInfo.of_id]

/-- A game info is read from the data that begin with its fields, and from no other ones. -/
theorem parseGameInfo_iff {data : List UInt8} {g : GameInfo} :
    parseGameInfo data = some g ↔ g.mainCharInfo.Named ∧ g.subCharInfo.Named ∧
      FitFields gameInfoFmt g.numbers ∧ encodeFields gameInfoFmt g.numbers <+: data := by
  rw [← fields_iff]
  have hsum : gameInfoFmt.sum = gameInfoSize := rfl
  rw [hsum]
  unfold parseGameInfo
  constructor
  · intro h
    split at h
    · cases h
    · rename_i hlength
      split at h
      · rename_i hfields
        rw [← Option.some.inj h,hfields]
        refine ⟨CharInfo.of_named _ _ _ _,CharInfo.of_named _ _ _ _,by omega,?_⟩
        simp [GameInfo.numbers,CharInfo.of,RankInfo.of_id]
      · cases h
  · rintro ⟨hmain,hsub,hlength,hfields⟩
    rw [if_neg (by omega),hfields]
    unfold CharInfo.Named at hmain hsub
    simp only [GameInfo.numbers]
    rw [← hmain,← hsub]

theorem parseGameInfo_none {data : List UInt8} : parseGameInfo data = none ↔ data.length < gameInfoSize := by
  unfold parseGameInfo
  by_cases hlength : data.length < gameInfoSize
  · simp [hlength]
  · simp [hlength,fields,gameInfoFmt]

theorem LeaderboardEntry.of_playerInfo (e : ScoreEntry) :
    (LeaderboardEntry.of e).playerInfo = parseGameInfo e.gameInfo := by
  unfold LeaderboardEntry.of
  by_cases h : e.gameInfo = []
  · rw [h,if_pos rfl,parseGameInfo_none.mpr (by decide)]
  · exact if_neg h

/-! ## The board -/

/-- The board of a response: each entry with the comment and the game info at its own index. -/
structure Shows (resp : GetScoreResponse) (lb : LeaderboardResult) : Prop where
  totalRecords : lb.totalRecords = resp.totalRecord
  lastSortDate : lb.lastSortDate = resp.lastSortDate
  length : lb.entries.length = resp.rankArray.length
  entry : ∀ i e, resp.rankArray[i]? = some e → lb.entries[i]? = some ({
    rank := e.rank, npId := e.npId, onlineName := e.onlineName, score := e.score, pcId := e.pcId
    recordDate := e.recordDate, hasGameData := e.hasGameData, comment := resp.commentArray.getD i ""
    playerInfo := resp.infoArray[i]?.bind parseGameInfo } : LeaderboardEntry)

theorem shows_fromResponse (resp : GetScoreResponse) : Shows resp (.of (.fromResponse resp)) where
  totalRecords := rfl
  lastSortDate := rfl
  length := by simp [LeaderboardResult.of,ScoreResult.fromResponse]
  entry i e he := by
    have hentry := entries_fromResponse resp i
    rw [he,Option.map_some] at hentry
    have hinfo : parseGameInfo (resp.infoArray.getD i []) = resp.infoArray[i]?.bind parseGameInfo := by
      rw [List.getD_eq_getElem?_getD]
      cases resp.infoArray[i]? with
      | none => exact parseGameInfo_none.mpr (by decide)
      | some data => rfl
    rw [← hinfo]
    simp only [LeaderboardResult.of,List.getElem?_map,hentry,Option.map_some]
    have hplayer : (LeaderboardEntry.of (.of e (resp.commentArray.getD i "") (resp.infoArray.getD i []))).playerInfo =
        parseGameInfo (resp.infoArray.getD i []) := LeaderboardEntry.of_playerInfo _
    rw [← hplayer]
    rfl

/-- The message of a data packet, cut where the data end. -/
def message (data : List UInt8) : List UInt8 := (data.drop 4).take (unpack (data.take 4))

structure Told (S : ScoreCodec) (reply : UInt8 × List UInt8) (result : Except Fault LeaderboardResult) : Prop where
  refused : reply.1 ≠ errNoError →
    result = .error (.rpcnError ("GetScoreRange error " ++ toString reply.1.toNat))
  short : reply.1 = errNoError → reply.2.length < 4 →
    result = .error (.rpcnError ("Data packet too short: " ++ toString reply.2.length ++ " bytes"))
  undecodable : reply.1 = errNoError → 4 ≤ reply.2.length → S.parse (message reply.2) = none →
    result = .error .decodeError
  board : reply.1 = errNoError → 4 ≤ reply.2.length → ∀ resp, S.parse (message reply.2) = some resp →
    ∃ lb, result = .ok lb ∧ Shows resp lb

theorem told_scoreAnswer (S : ScoreCodec) (reply : UInt8 × List UInt8) :
    Told S reply ((scoreAnswer S reply).map .of) := by
  have hshort (hok : reply.1 = errNoError) (hlength : reply.2.length < 4) : scoreAnswer S reply =
      .error (.rpcnError ("Data packet too short: " ++ toString reply.2.length ++ " bytes")) := by
    unfold scoreAnswer replyData scoreResult unpackDataPacket
    simp only [if_pos hok,if_pos hlength,bind,Except.bind]
  have hlong (hok : reply.1 = errNoError) (hlength : 4 ≤ reply.2.length) : scoreAnswer S reply =
      (S.parse (message reply.2)).elim (.error .decodeError) fun resp => .ok (.fromResponse resp) := by
    unfold scoreAnswer replyData scoreResult unpackDataPacket message
    simp only [if_pos hok,if_neg (Nat.not_lt.mpr hlength),bind,Except.bind]
    cases S.parse (List.take (unpack (List.take 4 reply.2)) (List.drop 4 reply.2)) <;> rfl
  constructor
  · intro herror
    unfold scoreAnswer replyData
    rw [if_neg herror]
    rfl
  · intro hok hlength
    rw [hshort hok hlength]
    rfl
  · intro hok hlength hnone
    rw [hlong hok hlength,hnone]
    rfl
  · intro hok hlength resp hresp
    rw [hlong hok hlength,hresp]
    exact ⟨_,rfl,shows_fromResponse resp⟩

/-- A reply without an error whose data packet is this message. -/
def Carries (raw : List UInt8) (p : Header × List UInt8) : Prop :=
  ∃ rest, p.2 = errNoError :: (digits 4 raw.length ++ raw ++ rest)

theorem replied_carries {raw : List UInt8} {p : Header × List UInt8} (h : Carries raw p)
    (hraw : raw.length < 256 ^ 4) :
    (replied p).1 = errNoError ∧ 4 ≤ (replied p).2.length ∧ message (replied p).2 = raw := by
  obtain ⟨rest,hrest⟩ := h
  have hnum : unpack (digits 4 raw.length) = raw.length := unpack_digits 4 hraw
  unfold replied message
  rw [hrest,List.headD_cons,List.tail_cons]
  refine ⟨rfl,by simp [length_digits],?_⟩
  rw [List.append_assoc,List.take_left' (length_digits _ _),List.drop_left' (length_digits _ _),hnum,
    List.take_left' rfl]

def boardRequest (boardId numRanks : ℕ) : GetScoreRangeRequest := ⟨boardId,1,numRanks,true,true⟩

theorem buildGetScoreRangeRequest_board {boardId numRanks : ℕ}
    (hboard : boardId < 2 ^ 32) (hranks : numRanks < 2 ^ 32) :
    buildGetScoreRangeRequest boardId 1 numRanks true true = .ok (boardRequest boardId numRanks) := by
  have huint (n : ℕ) (hn : n < 2 ^ 32) : uint32 n = .ok n := by
    unfold uint32
    rw [if_pos (by omega)]
    rfl
  unfold buildGetScoreRangeRequest
  rw [huint boardId hboard,huint numRanks hranks]
  rfl

theorem getLeaderboardFrom_eq {S : ScoreCodec} {comId : String} {boardId : ℤ} {numRanks : ℕ} {c c' : RpcnClient}
    {result : Except Fault ScoreResult}
    (h : getScoreRange S comId boardId 1 numRanks true true c = withState c' result) :
    getLeaderboardFrom S comId boardId numRanks c = withState c' (result.map .of) := by
  unfold getLeaderboardFrom
  simp only [bind,EStateM.bind,h]
  cases result <;> rfl

/-- A game info is read from the bytes that begin with its fields and from no other ones; and a board is read with one
request from whatever the next reply tells, entry by entry or as the error of its kind. -/
theorem leaderboard_read :
    (∀ data, (∀ g : GameInfo, parseGameInfo data = some g ↔ g.mainCharInfo.Named ∧ g.subCharInfo.Named ∧
        FitFields gameInfoFmt g.numbers ∧ encodeFields gameInfoFmt g.numbers <+: data) ∧
      (parseGameInfo data = none ↔ data.length < gameInfoSize)) ∧
    ∀ (S : ScoreCodec) (comId : String) (front : List UInt8) (boardId numRanks : ℕ) (sock : Socket)
        (p : Header × List UInt8) (ps : List (Header × List UInt8)) (k : ℕ),
      comId.length = communicationIdSize → encodeAscii comId = .ok front → boardId < 2 ^ 32 → numRanks < 2 ^ 32 →
      Ready sock (p :: ps) → (S.serialize (boardRequest boardId numRanks)).length < 2 ^ 31 → k + 1 < 2 ^ 64 →
      ∃ sock' bytes reqData result, sock'.sent = sock.sent ++ [bytes] ∧
        Frames packet (requestPacket (k + 1) .getScoreRange (front ++ reqData)) bytes ∧
        unpackDataPacket reqData = .ok (S.serialize (boardRequest boardId numRanks)) ∧
        getLeaderboardFrom S comId boardId numRanks ⟨some sock,k⟩ = withState ⟨some sock',k + 1⟩ result ∧
        result = (scoreAnswer S (replied p)).map .of ∧ Told S (replied p) result ∧
        ∀ raw, Carries raw p → raw.length < 256 ^ 4 →
          (replied p).1 = errNoError ∧ 4 ≤ (replied p).2.length ∧ message (replied p).2 = raw := by
  refine ⟨fun data => ⟨fun g => parseGameInfo_iff,parseGameInfo_none⟩,?_⟩
  intro S comId front boardId numRanks sock p ps k hcom hfront hboard hranks hready hsmall hk
  have hreq := buildGetScoreRangeRequest_board hboard hranks
  have hraw : (S.serialize (boardRequest boardId numRanks)).length < 256 ^ 4 := by omega
  obtain ⟨size,hsize⟩ := pack_fits hraw
  have hlength : front.length = communicationIdSize := by
    unfold encodeAscii at hfront
    split at hfront
    · rw [← Except.ok.inj hfront,List.length_map,String.length_toList]
      exact hcom
    · cases hfront
  have hpacked : packedRequest S (boardRequest boardId numRanks) =
      .ok (size ++ S.serialize (boardRequest boardId numRanks)) := by
    simp only [packedRequest,hsize]
    rfl
  have hfits : headerSize + (front ++ (size ++ S.serialize (boardRequest boardId numRanks))).length < 2 ^ 32 ∧
      k + 1 < 2 ^ 64 := by
    rw [List.length_append,List.length_append,hlength,(pack_ok hsize).2.1]
    simp only [headerSize,communicationIdSize]
    omega
  obtain ⟨sock',bytes,-,hsent,hframes,hrun⟩ := hready.scores hcom hfront hreq hpacked hfits
  exact ⟨sock',bytes,_,(scoreAnswer S (replied p)).map .of,hsent,hframes,unpackDataPacket_pack hsize,
    getLeaderboardFrom_eq hrun,rfl,told_scoreAnswer S (replied p),fun _ => replied_carries⟩

/-! One entry without a comment, whose second character is in no table. -/

def lawAndNobody : List UInt8 := [1,60,42,0,0,0,0,7,0,0,0,0,0,0,1,2,0,0,0,0]

def oneScore : GetScoreResponse := ⟨[⟨"a","A",0,1,5,true,0⟩],[],[lawAndNobody],0,1⟩

def oneScoreBytes : List UInt8 :=
  [10,12,10,1,97,18,1,65,32,1,40,5,48,1,26,22,10,20] ++ lawAndNobody ++ [40,1]

/-- The codec on the request for the whole rank board and on this response. -/
def oneScoreCodec : ScoreCodec where
  serialize req := [8,UInt8.ofNat req.boardId,16,UInt8.ofNat req.startRank,24,UInt8.ofNat (req.numRanks % 128 + 128),
    UInt8.ofNat (req.numRanks / 128),32,req.withComment.toUInt8,40,req.withGameInfo.toUInt8]
  parse raw := if raw = oneScoreBytes then some oneScore else none

def scoreReply : Header × List UInt8 := (⟨1,34,60,1⟩,[0,40,0,0,0] ++ oneScoreBytes)

def scoreSocket : Socket := ⟨[.piece 1 ([34,0,60,0,0,0,1,0,0,0,0,0,0,0] ++ scoreReply.2)],[],[]⟩

theorem ready_scoreSocket : Ready scoreSocket [scoreReply] := by
  have hframes : List.Forall₂ (Frames packet) [scoreReply] [[1,34,0,60,0,0,0,1,0,0,0,0,0,0,0] ++ scoreReply.2] :=
    .cons ⟨[1,34,0,60,0,0,0,1,0,0,0,0,0,0,0],rfl,by decide,rfl,rfl⟩ .nil
  have hpackets := packets_frames hframes []
  rw [packets_nil,List.append_nil] at hpackets
  have hcontent : packets packet (content scoreSocket.incoming) = [scoreReply] := by
    rw [List.append_nil] at hpackets
    exact hpackets
  refine ⟨by simp [scoreSocket],?_,?_⟩
  · rw [hcontent]
    unfold Served
    decide
  · rw [hcontent]
    rfl

theorem leaderboard_read_one : ∃ sock' lb,
    getLeaderboardFrom oneScoreCodec "NPWR02973_00" 4 500 ⟨some scoreSocket,0⟩ = .ok lb ⟨some sock',1⟩ ∧
      lb.entries[0]?.map LeaderboardEntry.playerInfo = some (parseGameInfo lawAndNobody) := by
  obtain ⟨sock',_,_,result,_,_,_,hrun,_,htold,hcarried⟩ := leaderboard_read.2 oneScoreCodec "NPWR02973_00"
    [78,80,87,82,48,50,57,55,51,95,48,48] 4 500 scoreSocket scoreReply [] 0 rfl (by decide) (by decide) (by decide)
    ready_scoreSocket (by decide) (by decide)
  obtain ⟨hok,hlength,hmessage⟩ := hcarried oneScoreBytes ⟨[],by decide⟩ (by decide)
  obtain ⟨lb,hlb,hshows⟩ := htold.board hok hlength oneScore (by simp [hmessage,oneScoreCodec])
  rw [hlb] at hrun
  refine ⟨sock',lb,hrun,?_⟩
  rw [hshows.entry 0 _ rfl]
  rfl

end Tag2now.Matching
