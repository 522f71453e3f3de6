import Tag2now.Rpcn.Worlds

/-! # Scores

A range of a score board is asked for with one request. Its reply holds three arrays, of the
entries and of what belongs to each of them, where the latter two may be shorter.
-/
namespace Tag2now.Rpcn
open Pieces

structure GetScoreRangeRequest where
  boardId : ℕ
  startRank : ℕ
  numRanks : ℕ
  withComment : Bool
  withGameInfo : Bool

structure ScoreRankData where
  npId : String
  onlineName : String
  pcId : ℤ
  rank : ℕ
  score : ℤ
  hasGameData : Bool
  recordDate : ℕ

structure GetScoreResponse where
  rankArray : List ScoreRankData
  commentArray : List String
  /-- The data of each `ScoreInfo`. -/
  infoArray : List (List UInt8)
  lastSortDate : ℕ
  totalRecord : ℕ

/-- The codec made from the proto file. -/
structure ScoreCodec where
  serialize : GetScoreRangeRequest → List UInt8
  parse : List UInt8 → Option GetScoreResponse

structure ScoreEntry where
  rank : ℕ
  npId : String
  onlineName : String
  score : ℤ
  pcId : ℤ
  recordDate : ℕ
  hasGameData : Bool
  comment : String
  gameInfo : List UInt8

structure ScoreResult where
  totalRecords : ℕ
  lastSortDate : ℕ
  entries : List ScoreEntry

def ScoreEntry.of (entry : ScoreRankData) (comment : String) (gameInfo : List UInt8) : ScoreEntry where
  rank := entry.rank
  npId := entry.npId
  onlineName := entry.onlineName
  score := entry.score
  pcId := entry.pcId
  recordDate := entry.recordDate
  hasGameData := entry.hasGameData
  comment
  gameInfo

/-- An entry's comment and game info are those at its index, and empty where the array ends before it. -/
def ScoreResult.fromResponse (resp : GetScoreResponse) : ScoreResult where
  totalRecords := resp.totalRecord
  lastSortDate := resp.lastSortDate
  entries := resp.rankArray.mapIdx fun i entry =>
    .of entry (resp.commentArray.getD i "") (resp.infoArray.getD i [])

section
variable (S : ScoreCodec) (comId : String)

def buildGetScoreRangeRequest (boardId startRank numRanks : ℤ) (withComment withGameInfo : Bool) :
    Except Fault GetScoreRangeRequest := do
  let boardId ← uint32 boardId
  let startRank ← uint32 startRank
  let numRanks ← uint32 numRanks
  return ⟨boardId,startRank,numRanks,withComment,withGameInfo⟩

/-- A request's message with its length before it. -/
def packedRequest (req : GetScoreRangeRequest) : Except Fault (List UInt8) := do
  let raw := S.serialize req
  let size ← pack 4 raw.length
  return size ++ raw

def scoreResult (data : List UInt8) : Except Fault ScoreResult := do
  let raw ← unpackDataPacket data
  match S.parse raw with
  | none => .error .decodeError
  | some resp => return ScoreResult.fromResponse resp

def getScoreRange (boardId startRank numRanks : ℤ) (withComment withGameInfo : Bool) :
    EStateM Fault RpcnClient ScoreResult := do
  let req ← ofExcept (buildGetScoreRangeRequest boardId startRank numRanks withComment withGameInfo)
  let reqData ← ofExcept (packedRequest S req)
  let data ← requestWithData comId .getScoreRange reqData
  ofExcept (scoreResult S data)

end

/-! ## Fields of a format -/

/-- An unsigned field, the most significant byte first. -/
def unpackBig (bytes : List UInt8) : ℕ := unpack bytes.reverse

def bigDigits (size n : ℕ) : List UInt8 := (digits size n).reverse

/-- `struct.unpack` of big-endian fields of these sizes. -/
def fields : (sizes : List ℕ) → List UInt8 → List ℕ
  | [],_ => []
  | size :: sizes,bytes => unpackBig (bytes.take size) :: fields sizes (bytes.drop size)

def encodeFields (sizes xs : List ℕ) : List UInt8 := (List.zipWith bigDigits sizes xs).flatten

def FitFields (sizes xs : List ℕ) : Prop := List.Forall₂ (fun size x => x < 256 ^ size) sizes xs

theorem length_bigDigits (size n : ℕ) : (bigDigits size n).length = size := by simp [bigDigits,length_digits]

theorem unpackBig_bigDigits {size n : ℕ} (h : n < 256 ^ size) : unpackBig (bigDigits size n) = n := by
  unfold unpackBig bigDigits
  rw [List.reverse_reverse]
  exact unpack_digits size h

theorem bigDigits_unpackBig (bytes : List UInt8) : bigDigits bytes.length (unpackBig bytes) = bytes := by
  have h := digits_unpack bytes.reverse
  rw [List.length_reverse] at h
  unfold bigDigits unpackBig
  rw [h,List.reverse_reverse]

theorem unpackBig_lt (bytes : List UInt8) : unpackBig bytes < 256 ^ bytes.length := by
  have h := unpack_lt bytes.reverse
  rwa [List.length_reverse] at h

theorem fields_encode {sizes xs : List ℕ} (h : FitFields sizes xs) (rest : List UInt8) :
    fields sizes (encodeFields sizes xs ++ rest) = xs := by
  unfold encodeFields
  induction h with
  | nil => rfl
  | @cons size x sizes xs hx _ ih =>
    rw [List.zipWith_cons_cons,List.flatten_cons,List.append_assoc,fields,List.take_left' (length_bigDigits size x),
      List.drop_left' (length_bigDigits size x),unpackBig_bigDigits hx,ih]

theorem encode_fields {sizes : List ℕ} {data : List UInt8} (h : sizes.sum ≤ data.length) :
    FitFields sizes (fields sizes data) ∧ encodeFields sizes (fields sizes data) = data.take sizes.sum := by
  induction sizes generalizing data with
  | nil => exact ⟨.nil,by simp [encodeFields,fields]⟩
  | cons size sizes ih =>
    rw [List.sum_cons] at h
    have hsize : (data.take size).length = size := by simp; omega
    have hrest : sizes.sum ≤ (data.drop size).length := by simp; omega
    obtain ⟨hfit,hencode⟩ := ih hrest
    have hlt := unpackBig_lt (data.take size)
    have hfirst := bigDigits_unpackBig (data.take size)
    rw [hsize] at hlt hfirst
    refine ⟨.cons hlt hfit,?_⟩
    unfold encodeFields at hencode ⊢
    rw [fields,List.zipWith_cons_cons,List.flatten_cons,hfirst,hencode,List.sum_cons,List.take_add]

theorem length_encodeFields {sizes xs : List ℕ} (h : FitFields sizes xs) :
    (encodeFields sizes xs).length = sizes.sum := by
  unfold encodeFields
  induction h with
  | nil => rfl
  | @cons size x sizes xs _ _ ih =>
    rw [List.zipWith_cons_cons,List.flatten_cons,List.length_append,length_bigDigits,ih,List.sum_cons]

theorem fields_iff {sizes xs : List ℕ} {data : List UInt8} :
    sizes.sum ≤ data.length ∧ fields sizes data = xs ↔ FitFields sizes xs ∧ encodeFields sizes xs <+: data := by
  constructor
  · rintro ⟨hlength,rfl⟩
    obtain ⟨hfit,hencode⟩ := encode_fields hlength
    refine ⟨hfit,?_⟩
    rw [hencode]
    exact List.take_prefix _ _
  · rintro ⟨hfit,rest,rfl⟩
    refine ⟨?_,fields_encode hfit rest⟩
    rw [List.length_append,length_encodeFields hfit]
    omega

/-! ## One request -/

def scoreAnswer (S : ScoreCodec) (reply : UInt8 × List UInt8) : Except Fault ScoreResult := do
  let data ← replyData .getScoreRange reply
  scoreResult S data

/-- One request is written, and the next reply is answered, whatever it tells. -/
theorem Ready.scores {S : ScoreCodec} {comId : String} {front reqData : List UInt8} {sock : Socket}
    {p : Header × List UInt8} {ps : List (Header × List UInt8)} (h : Ready sock (p :: ps))
    (hcom : comId.length = communicationIdSize) (hfront : encodeAscii comId = .ok front)
    {boardId startRank numRanks : ℤ} {withComment withGameInfo : Bool} {req : GetScoreRangeRequest}
    (hreq : buildGetScoreRangeRequest boardId startRank numRanks withComment withGameInfo = .ok req)
    (hpacked : packedRequest S req = .ok reqData) {k : ℕ}
    (hfits : headerSize + (front ++ reqData).length < 2 ^ 32 ∧ k + 1 < 2 ^ 64) :
    ∃ sock' bytes, Ready sock' ps ∧ sock'.sent = sock.sent ++ [bytes] ∧
      Frames packet (requestPacket (k + 1) .getScoreRange (front ++ reqData)) bytes ∧
      getScoreRange S comId boardId startRank numRanks withComment withGameInfo ⟨some sock,k⟩ =
        withState ⟨some sock',k + 1⟩ (scoreAnswer S (replied p)) := by
  obtain ⟨sock',bytes,hready,hsent,hframes,hrun⟩ := h.exchanged hcom hfront .getScoreRange hfits
  refine ⟨sock',bytes,hready,hsent,hframes,?_⟩
  unfold getScoreRange scoreAnswer
  rw [hreq]
  simp only [bind,EStateM.bind,ofExcept,hpacked,pure,EStateM.pure,hrun]
  cases replyData .getScoreRange (replied p) with
  | error e => rfl
  | ok data =>
    simp only [withState,Except.bind]
    cases scoreResult S data <;> rfl

theorem entries_fromResponse (resp : GetScoreResponse) (i : ℕ) :
    (ScoreResult.fromResponse resp).entries[i]? =
      resp.rankArray[i]?.map fun entry => .of entry (resp.commentArray.getD i "") (resp.infoArray.getD i []) := by
  simp [ScoreResult.fromResponse,List.getElem?_mapIdx]

end Tag2now.Rpcn
