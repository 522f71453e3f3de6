import Tag2now.Matching.Rooms
import Tag2now.Shared.Basics
import Tag2now.Transactions.Table

/-! # Snapshots of rank-match rooms

One row says who met in which room on which statistics day, from when and until when
they were seen. A room is written under a key of room, members and day, and an existing
row is left as it is; being seen again moves the last sighting of its rows of the day
before on.
-/
namespace Tag2now.History
open ReadCommitted Matching

def statDayStartHour : ℤ := 6

/-- The 06:00-KST statistics day a moment belongs to, counted from the epoch's. -/
def statDay (moment : ℤ) : ℤ := (moment + seoulOffset - statDayStartHour * hour) / day

/-- RPCN reuses room ids after a restart; an older row of the same two players is another room. -/
def liveRoomWindow : ℤ := day

/-- The result save can land after the room's last sighting, which is up to a cycle old. -/
def roomEndSlack : ℤ := 90 * second

/-- The rank-match room a player was in, its members in RPCN's slot order. -/
structure RankRoom where
  roomSnapshotId : ℕ
  user1Npid : String
  user2Npid : String
  deriving DecidableEq

/-- A room and its two members. -/
abbrev Meeting := ℕ × String × String

structure RankMatchSnapshotRecord where
  roomId : ℕ
  rankId : ℕ
  user1Npid : String
  user1OnlineName : String
  user2Npid : String
  user2OnlineName : String
  createdDt : ℤ
  deriving DecidableEq

structure RankMatchSnapshotRow where
  id : ℕ
  roomId : ℕ
  createdDt : ℤ
  lastSeenAt : ℤ
  matchDate : ℤ
  rankId : ℕ
  user1Npid : String
  user1OnlineName : String
  user2Npid : String
  user2OnlineName : String
  deriving DecidableEq

def RankMatchSnapshotRecord.meeting (room : RankMatchSnapshotRecord) : Meeting :=
  (room.roomId,room.user1Npid,room.user2Npid)

namespace RankMatchSnapshotRow

def meeting (row : RankMatchSnapshotRow) : Meeting := (row.roomId,row.user1Npid,row.user2Npid)

def key (row : RankMatchSnapshotRow) : Meeting × ℤ := (row.meeting,row.matchDate)

end RankMatchSnapshotRow

/-- A room without a second user leaves that member empty; a rank match has its rank. -/
def toSnapshotRecord (observedAt : ℤ) (room : RoomInfoDTO) : RankMatchSnapshotRecord where
  roomId := room.roomId
  rankId := room.rankInfo.getD 0
  user1Npid := (room.users[0]?.map (·.npid)).getD ""
  user1OnlineName := (room.users[0]?.map (·.onlineName)).getD ""
  user2Npid := (room.users[1]?.map (·.npid)).getD ""
  user2OnlineName := (room.users[1]?.map (·.onlineName)).getD ""
  createdDt := observedAt

def snapshotRow (id : ℕ) (room : RankMatchSnapshotRecord) : RankMatchSnapshotRow where
  id := id
  roomId := room.roomId
  createdDt := room.createdDt
  lastSeenAt := room.createdDt
  matchDate := statDay room.createdDt
  rankId := room.rankId
  user1Npid := room.user1Npid
  user1OnlineName := room.user1OnlineName
  user2Npid := room.user2Npid
  user2OnlineName := room.user2OnlineName

structure DailyMatchedPlayerRow where
  date : ℤ
  npid : String
  firstSeenAt : ℤ

def DailyMatchedPlayerRow.key (row : DailyMatchedPlayerRow) : ℤ × String := (row.date,row.npid)

structure ActivitySnapshotRow where
  sampledAt : ℤ
  totalPlayers : ℕ
  totalRooms : ℕ
  rankPlayers : ℕ
  rankRooms : ℕ

structure Tables where
  rankMatches : Table RankMatchSnapshotRow.key
  nextId : ℕ
  matchedPlayers : Table DailyMatchedPlayerRow.key
  activity : List ActivitySnapshotRow

def Tables.empty : Tables := ⟨Table.empty,1,Table.empty,[]⟩

/-! ## Writes -/

/-- A row of the same key is left as it is; an id is drawn either way. -/
def insertRoom (db : Tables) (room : RankMatchSnapshotRecord) : Tables :=
  { db with rankMatches := db.rankMatches.insert (snapshotRow db.nextId room), nextId := db.nextId + 1 }

def recordSnapshot (rooms : List RankMatchSnapshotRecord) (db : Tables) : Tables := rooms.foldl insertRoom db

/-- The row is one of these rooms, and no older than a day. -/
def Touched (rooms : List RankMatchSnapshotRecord) (observedAt : ℤ) (row : RankMatchSnapshotRow) : Prop :=
  row.meeting ∈ rooms.map (·.meeting) ∧ observedAt - liveRoomWindow ≤ row.createdDt

instance (rooms : List RankMatchSnapshotRecord) (observedAt : ℤ) (row : RankMatchSnapshotRow) :
    Decidable (Touched rooms observedAt row) := inferInstanceAs (Decidable (_ ∧ _))

def touch (rooms : List RankMatchSnapshotRecord) (observedAt : ℤ) (row : RankMatchSnapshotRow) :
    RankMatchSnapshotRow :=
  if Touched rooms observedAt row then { row with lastSeenAt := observedAt } else row

theorem touch_key (rooms : List RankMatchSnapshotRecord) (observedAt : ℤ) (row : RankMatchSnapshotRow) :
    (touch rooms observedAt row).key = row.key := by
  unfold touch
  split <;> rfl

def touchRankMatches (rooms : List RankMatchSnapshotRecord) (observedAt : ℤ) (db : Tables) : Tables :=
  { db with rankMatches := db.rankMatches.update (touch rooms observedAt) (touch_key rooms observedAt) }

def recordDailyMatchedPlayers (npids : List String) (observedAt : ℤ) (db : Tables) : Tables :=
  let insertPlayer (t : Table DailyMatchedPlayerRow.key) (npid : String) : Table DailyMatchedPlayerRow.key :=
    t.insert ⟨statDay observedAt,npid,observedAt⟩
  { db with matchedPlayers := (npids.filter fun npid => npid ≠ "").foldl insertPlayer db.matchedPlayers }

def activityRetention : ℤ := 90 * day

/-- `now` is the database's own clock. -/
def recordActivitySnapshot (snapshot : ActivitySnapshotRow) (now : ℤ) (db : Tables) : Tables :=
  { db with activity := (db.activity ++ [snapshot]).filter fun row => now - activityRetention ≤ row.sampledAt }

/-! ## What the writes leave -/

section Writes
variable {db : Tables} {rooms : List RankMatchSnapshotRecord} {room : RankMatchSnapshotRecord}
  {row : RankMatchSnapshotRow} {observedAt : ℤ}

theorem snapshotRow_key (id : ℕ) (room : RankMatchSnapshotRecord) :
    (snapshotRow id room).key = (room.meeting,statDay room.createdDt) := rfl

theorem insertRoom_of_taken (h : db.rankMatches.get? (room.meeting,statDay room.createdDt) ≠ none) :
    (insertRoom db room).rankMatches = db.rankMatches := by
  obtain ⟨row,hrow⟩ := Option.ne_none_iff_exists'.mp h
  have hmem : (snapshotRow db.nextId room).key ∈ db.rankMatches.rows.map RankMatchSnapshotRow.key := by
    rw [snapshotRow_key,← Table.key_of_get? hrow]
    exact List.mem_map_of_mem (Table.mem_of_get? hrow)
  simp only [insertRoom,Table.insert,dif_pos hmem]

theorem mem_insertRoom : row ∈ (insertRoom db room).rankMatches.rows ↔ row ∈ db.rankMatches.rows ∨
    (db.rankMatches.get? (room.meeting,statDay room.createdDt) = none ∧ row = snapshotRow db.nextId room) := by
  by_cases h : db.rankMatches.get? (room.meeting,statDay room.createdDt) = none
  · have hmem : row ∈ (db.rankMatches.insert (snapshotRow db.nextId room)).rows ↔ _ := Table.mem_insert h
    refine hmem.trans ?_
    simp [h]
  · rw [insertRoom_of_taken h]
    simp [h]

theorem rows_subset_insertRoom (h : row ∈ db.rankMatches.rows) : row ∈ (insertRoom db room).rankMatches.rows :=
  mem_insertRoom.mpr (.inl h)

theorem rows_subset_recordSnapshot (h : row ∈ db.rankMatches.rows) :
    row ∈ (recordSnapshot rooms db).rankMatches.rows := by
  unfold recordSnapshot
  induction rooms generalizing db with
  | nil => exact h
  | cons room rooms ih => exact ih (rows_subset_insertRoom h)

/-- A row written by a recording is of one of its rooms, under a key that was free. -/
theorem mem_recordSnapshot (h : row ∈ (recordSnapshot rooms db).rankMatches.rows) :
    row ∈ db.rankMatches.rows ∨ ∃ room ∈ rooms, ∃ id, row = snapshotRow id room ∧
      db.rankMatches.get? (room.meeting,statDay room.createdDt) = none := by
  unfold recordSnapshot at h
  induction rooms generalizing db with
  | nil => exact .inl h
  | cons room rooms ih =>
    rcases ih h with hold | ⟨new,hnew,id,rfl,hfree⟩
    · rcases mem_insertRoom.mp hold with hold | ⟨hfree,rfl⟩
      · exact .inl hold
      · exact .inr ⟨room,List.mem_cons_self ..,db.nextId,rfl,hfree⟩
    · refine .inr ⟨new,List.mem_cons_of_mem _ hnew,id,rfl,Table.get?_eq_none_iff.mpr fun row hrow => ?_⟩
      exact Table.get?_eq_none_iff.mp hfree row (rows_subset_insertRoom hrow)

theorem exists_recordSnapshot (h : room ∈ rooms) : ∃ row ∈ (recordSnapshot rooms db).rankMatches.rows,
    row.key = (room.meeting,statDay room.createdDt) := by
  unfold recordSnapshot
  induction rooms generalizing db with
  | nil => cases h
  | cons new rooms ih =>
    rcases List.mem_cons.mp h with rfl | h
    · have hone : ∃ row ∈ (insertRoom db room).rankMatches.rows,
          row.key = (room.meeting,statDay room.createdDt) := by
        by_cases hfree : db.rankMatches.get? (room.meeting,statDay room.createdDt) = none
        · exact ⟨_,mem_insertRoom.mpr (.inr ⟨hfree,rfl⟩),rfl⟩
        · obtain ⟨row,hrow⟩ := Option.ne_none_iff_exists'.mp hfree
          exact ⟨row,rows_subset_insertRoom (Table.mem_of_get? hrow),Table.key_of_get? hrow⟩
      obtain ⟨row,hrow,hkey⟩ := hone
      exact ⟨row,@rows_subset_recordSnapshot (insertRoom db room) rooms row hrow,hkey⟩
    · exact ih h

theorem mem_touchRankMatches : row ∈ (touchRankMatches rooms observedAt db).rankMatches.rows ↔
    ∃ old ∈ db.rankMatches.rows, touch rooms observedAt old = row := by
  simp [touchRankMatches]

theorem touch_meeting (rooms : List RankMatchSnapshotRecord) (observedAt : ℤ) (row : RankMatchSnapshotRow) :
    (touch rooms observedAt row).meeting = row.meeting := congrArg Prod.fst (touch_key rooms observedAt row)

theorem touch_createdDt (rooms : List RankMatchSnapshotRecord) (observedAt : ℤ) (row : RankMatchSnapshotRow) :
    (touch rooms observedAt row).createdDt = row.createdDt := by
  unfold touch
  split <;> rfl

theorem touch_id (rooms : List RankMatchSnapshotRecord) (observedAt : ℤ) (row : RankMatchSnapshotRow) :
    (touch rooms observedAt row).id = row.id := by
  unfold touch
  split <;> rfl

theorem touch_of_touched (h : Touched rooms observedAt row) :
    touch rooms observedAt row = { row with lastSeenAt := observedAt } := if_pos h

theorem touch_of_not (h : ¬ Touched rooms observedAt row) : touch rooms observedAt row = row := if_neg h

end Writes

/-! ## What holds of every stored row -/

/-- A row is of the day it was created on, and was last seen no more than a day later. -/
structure RowOk (row : RankMatchSnapshotRow) : Prop where
  matchDate : row.matchDate = statDay row.createdDt
  lastSeenAt : row.lastSeenAt - liveRoomWindow ≤ row.createdDt

structure TablesOk (db : Tables) : Prop where
  row : ∀ row ∈ db.rankMatches.rows, RowOk row
  id_lt : ∀ row ∈ db.rankMatches.rows, row.id < db.nextId
  id_inj : ∀ row ∈ db.rankMatches.rows, ∀ row' ∈ db.rankMatches.rows, row.id = row'.id → row = row'

section Invariant
variable {db : Tables}

theorem TablesOk.empty : TablesOk Tables.empty := ⟨nofun,nofun,nofun⟩

theorem TablesOk.insertRoom (h : TablesOk db) (room : RankMatchSnapshotRecord) : TablesOk (insertRoom db room) := by
  have hid {row : RankMatchSnapshotRow} (hrow : row ∈ db.rankMatches.rows) : row.id ≠ db.nextId :=
    Nat.ne_of_lt (h.id_lt row hrow)
  refine ⟨fun row hrow => ?_,fun row hrow => ?_,fun row hrow row' hrow' heq => ?_⟩
  · rcases mem_insertRoom.mp hrow with hold | ⟨_,rfl⟩
    · exact h.row row hold
    · exact ⟨rfl,Int.sub_le_self _ (by decide)⟩
  · rcases mem_insertRoom.mp hrow with hold | ⟨_,rfl⟩
    · exact Nat.lt_succ_of_lt (h.id_lt row hold)
    · exact Nat.lt_succ_self _
  · rcases mem_insertRoom.mp hrow with hold | ⟨_,rfl⟩ <;> rcases mem_insertRoom.mp hrow' with hold' | ⟨_,rfl⟩
    · exact h.id_inj row hold row' hold' heq
    · exact absurd heq (hid hold)
    · exact absurd heq.symm (hid hold')
    · rfl

theorem TablesOk.recordSnapshot (h : TablesOk db) (rooms : List RankMatchSnapshotRecord) :
    TablesOk (recordSnapshot rooms db) := by
  unfold History.recordSnapshot
  induction rooms generalizing db with
  | nil => exact h
  | cons room rooms ih => exact ih (h.insertRoom room)

theorem TablesOk.touchRankMatches (h : TablesOk db) (rooms : List RankMatchSnapshotRecord) (observedAt : ℤ) :
    TablesOk (touchRankMatches rooms observedAt db) := by
  refine ⟨fun row hrow => ?_,fun row hrow => ?_,fun row hrow row' hrow' heq => ?_⟩
  · obtain ⟨old,hold,rfl⟩ := mem_touchRankMatches.mp hrow
    by_cases ht : Touched rooms observedAt old
    · rw [touch_of_touched ht]
      exact ⟨(h.row old hold).matchDate,ht.2⟩
    · rw [touch_of_not ht]
      exact h.row old hold
  · obtain ⟨old,hold,rfl⟩ := mem_touchRankMatches.mp hrow
    rw [touch_id]
    exact h.id_lt old hold
  · obtain ⟨old,hold,rfl⟩ := mem_touchRankMatches.mp hrow
    obtain ⟨old',hold',rfl⟩ := mem_touchRankMatches.mp hrow'
    rw [touch_id,touch_id] at heq
    rw [h.id_inj old hold old' hold' heq]

end Invariant

end Tag2now.History
