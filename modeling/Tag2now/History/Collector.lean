import Tag2now.History.Snapshots

/-! # The collector

One cycle observes the rooms and makes four writes in a row, each a transaction that may
fail, also after it has committed. The collector remembers the room ids of the last cycle
it recorded, and writes a room only when its id is not among them.
-/
namespace Tag2now.History
open ReadCommitted Matching

structure Collector where
  tables : Tables
  prevRankMatchIds : List ℕ

/-- One write of a cycle, and whether the collector goes on after it. -/
inductive Attempt (needed : Prop) (write : Tables → Tables) (db : Tables) : Tables → Bool → Prop
  | skipped : ¬ needed → Attempt needed write db db true
  | done : needed → Attempt needed write db (write db) true
  | failed : needed → Attempt needed write db db false
  /-- Committed, but the answer was lost. -/
  | lost : needed → Attempt needed write db (write db) false

def newRooms (prev : List ℕ) (rooms : List RoomInfoDTO) : List RoomInfoDTO :=
  rooms.filter fun room => room.roomId ∉ prev

section Cycle
variable (s : Collector) (rooms : List RoomInfoDTO) (observedAt : ℤ)

def recordPlayers : Tables → Bool → Prop :=
  Attempt (∃ npid ∈ (activityObservation rooms).rankPlayerNpids, npid ≠ "")
    (recordDailyMatchedPlayers (activityObservation rooms).rankPlayerNpids observedAt) s.tables

def recordActivity (db : Tables) (db' : Tables) (ok : Bool) : Prop :=
  let o := activityObservation rooms
  ∃ now, Attempt True
    (recordActivitySnapshot ⟨observedAt,o.totalPlayers,o.totalRooms,o.rankPlayers,o.rankRooms⟩ now) db db' ok

/-- The observed rank matches as records. -/
def sightings : List RankMatchSnapshotRecord :=
  (activityObservation rooms).rankMatches.map (toSnapshotRecord observedAt)

def newSightings : List RankMatchSnapshotRecord :=
  (newRooms s.prevRankMatchIds (activityObservation rooms).rankMatches).map (toSnapshotRecord observedAt)

def recordNewRankMatches : Tables → Tables → Bool → Prop :=
  Attempt (newSightings s rooms observedAt ≠ []) (recordSnapshot (newSightings s rooms observedAt))

def touchSightings : Tables → Tables → Bool → Prop :=
  Attempt (sightings rooms observedAt ≠ []) (touchRankMatches (sightings rooms observedAt) observedAt)

/-- One cycle, and whether it succeeded. The remembered ids move on with the recording of new
rooms, before the rooms are touched. -/
inductive CollectOnce : Collector → Bool → Prop
  | unobserved : CollectOnce s false
  | players {db : Tables} : recordPlayers s rooms observedAt db false →
      CollectOnce { s with tables := db } false
  | activity {db₁ db₂ : Tables} : recordPlayers s rooms observedAt db₁ true →
      recordActivity rooms observedAt db₁ db₂ false → CollectOnce { s with tables := db₂ } false
  | matches_ {db₁ db₂ db₃ : Tables} : recordPlayers s rooms observedAt db₁ true →
      recordActivity rooms observedAt db₁ db₂ true → recordNewRankMatches s rooms observedAt db₂ db₃ false →
      CollectOnce { s with tables := db₃ } false
  | touched {db₁ db₂ db₃ db₄ : Tables} {ok : Bool} : recordPlayers s rooms observedAt db₁ true →
      recordActivity rooms observedAt db₁ db₂ true → recordNewRankMatches s rooms observedAt db₂ db₃ true →
      touchSightings rooms observedAt db₃ db₄ ok →
      CollectOnce ⟨db₄,(activityObservation rooms).rankMatches.map (·.roomId)⟩ ok

end Cycle

structure Cycle where
  before : Collector
  rooms : List RoomInfoDTO
  observedAt : ℤ
  after : Collector

def Cycle.rankMatches (c : Cycle) : List RoomInfoDTO := (activityObservation c.rooms).rankMatches

/-- The cycles of a collector, restarted at will, and among them those that succeeded. -/
inductive Run : Collector → List Cycle → Prop
  | start : Run ⟨Tables.empty,[]⟩ []
  | restart {s : Collector} {history : List Cycle} : Run s history →
      Run { s with prevRankMatchIds := [] } history
  | failed {s s' : Collector} {history : List Cycle} {rooms : List RoomInfoDTO} {observedAt : ℤ} :
      Run s history → CollectOnce s rooms observedAt s' false → Run s' history
  | succeeded {s s' : Collector} {history : List Cycle} {rooms : List RoomInfoDTO} {observedAt : ℤ} :
      Run s history → CollectOnce s rooms observedAt s' true → Run s' (⟨s,rooms,observedAt,s'⟩ :: history)

/-! ## One cycle -/

theorem touchRankMatches_nil (observedAt : ℤ) (db : Tables) : touchRankMatches [] observedAt db = db := by
  have htouch : touch [] observedAt = id := funext fun row => touch_of_not (fun ht => by cases ht.1)
  have hrows : db.rankMatches.update (touch [] observedAt) (touch_key [] observedAt) = db.rankMatches :=
    Table.ext (by simp [htouch])
  unfold touchRankMatches
  rw [hrows]

section Steps
variable {s s' : Collector} {rooms : List RoomInfoDTO} {observedAt : ℤ} {db db' : Tables} {ok : Bool}

theorem Attempt.tablesOk {needed : Prop} {write : Tables → Tables} (h : Attempt needed write db db' ok)
    (hdb : TablesOk db) (hwrite : TablesOk db → TablesOk (write db)) : TablesOk db' := by
  cases h with
  | skipped => exact hdb
  | done => exact hwrite hdb
  | failed => exact hdb
  | lost => exact hwrite hdb

theorem tablesOk_of_eq (hdb : TablesOk db) (hrows : db'.rankMatches = db.rankMatches)
    (hid : db'.nextId = db.nextId) : TablesOk db' := by
  refine ⟨?_,?_,?_⟩
  · rw [hrows]
    exact hdb.row
  · rw [hrows,hid]
    exact hdb.id_lt
  · rw [hrows]
    exact hdb.id_inj

theorem recordPlayers_same (h : recordPlayers s rooms observedAt db ok) :
    db.rankMatches = s.tables.rankMatches ∧ db.nextId = s.tables.nextId := by
  cases h <;> exact ⟨rfl,rfl⟩

theorem recordActivity_same (h : recordActivity rooms observedAt db db' ok) :
    db'.rankMatches = db.rankMatches ∧ db'.nextId = db.nextId := by
  obtain ⟨now,h⟩ := h
  cases h <;> exact ⟨rfl,rfl⟩

theorem CollectOnce.tablesOk (h : CollectOnce s rooms observedAt s' ok) (hs : TablesOk s.tables) :
    TablesOk s'.tables := by
  have hplayers {db₁ ok} (h : recordPlayers s rooms observedAt db₁ ok) : TablesOk db₁ :=
    tablesOk_of_eq hs (recordPlayers_same h).1 (recordPlayers_same h).2
  have hactivity {db₁ db₂ ok} (hdb : TablesOk db₁) (h : recordActivity rooms observedAt db₁ db₂ ok) :
      TablesOk db₂ := tablesOk_of_eq hdb (recordActivity_same h).1 (recordActivity_same h).2
  have hrecord {db₂ db₃ ok} (hdb : TablesOk db₂) (h : recordNewRankMatches s rooms observedAt db₂ db₃ ok) :
      TablesOk db₃ := h.tablesOk hdb fun hdb => hdb.recordSnapshot _
  cases h with
  | unobserved => exact hs
  | players h => exact hplayers h
  | activity h₁ h₂ => exact hactivity (hplayers h₁) h₂
  | matches_ h₁ h₂ h₃ => exact hrecord (hactivity (hplayers h₁) h₂) h₃
  | touched h₁ h₂ h₃ h₄ =>
    exact h₄.tablesOk (hrecord (hactivity (hplayers h₁) h₂) h₃) fun hdb => hdb.touchRankMatches _ _

/-- The rank matches after a cycle that succeeded: the new rooms recorded, then all of them touched. -/
theorem CollectOnce.rankMatches (h : CollectOnce s rooms observedAt s' true) :
    ∃ db, db.rankMatches = s.tables.rankMatches ∧ db.nextId = s.tables.nextId ∧
      s'.tables.rankMatches = (touchRankMatches (sightings rooms observedAt) observedAt
        (recordSnapshot (newSightings s rooms observedAt) db)).rankMatches := by
  cases h with
  | @touched db₁ db₂ db₃ db₄ _ h₁ h₂ h₃ h₄ =>
    obtain ⟨hrows₁,hid₁⟩ := recordPlayers_same h₁
    obtain ⟨hrows₂,hid₂⟩ := recordActivity_same h₂
    refine ⟨db₂,hrows₂.trans hrows₁,hid₂.trans hid₁,?_⟩
    have hrecorded : db₃ = recordSnapshot (newSightings s rooms observedAt) db₂ := by
      cases h₃ with
      | skipped hnone => rw [not_not.mp hnone]; rfl
      | done => rfl
    subst hrecorded
    cases h₄ with
    | skipped hnone => rw [not_not.mp hnone,touchRankMatches_nil]
    | done => rfl

end Steps

/-! ## Cycles that succeed -/

/-- The collector after a cycle in which every write went through. -/
def collected (s : Collector) (rooms : List RoomInfoDTO) (observedAt now : ℤ) : Collector :=
  let o := activityObservation rooms
  ⟨touchRankMatches (sightings rooms observedAt) observedAt (recordSnapshot (newSightings s rooms observedAt)
    (recordActivitySnapshot ⟨observedAt,o.totalPlayers,o.totalRooms,o.rankPlayers,o.rankRooms⟩ now
      (recordDailyMatchedPlayers o.rankPlayerNpids observedAt s.tables))),o.rankMatches.map (·.roomId)⟩

/-- A write that would change nothing may as well be left out. -/
theorem Attempt.goes {needed : Prop} {write : Tables → Tables} {db : Tables}
    (h : ¬ needed → write db = db) : Attempt needed write db (write db) true := by
  by_cases hn : needed
  · exact .done hn
  · rw [h hn]
    exact .skipped hn

theorem collectOnce_collected (s : Collector) (rooms : List RoomInfoDTO) (observedAt now : ℤ) :
    CollectOnce s rooms observedAt (collected s rooms observedAt now) true := by
  refine .touched (.goes fun hnone => ?_) ⟨now,.done trivial⟩ (.goes fun hnone => ?_) (.goes fun hnone => ?_)
  · have hnil : ((activityObservation rooms).rankPlayerNpids.filter fun npid => npid ≠ "") = [] := by
      push Not at hnone
      simpa using hnone
    unfold recordDailyMatchedPlayers
    rw [hnil]
    rfl
  · rw [not_not.mp hnone]
    rfl
  · rw [not_not.mp hnone]
    exact touchRankMatches_nil _ _

/-! ## The tables over a run -/

theorem Run.tablesOk {s : Collector} {history : List Cycle} (h : Run s history) : TablesOk s.tables := by
  induction h with
  | start => exact .empty
  | restart _ ih => exact ih
  | failed _ hc ih => exact hc.tablesOk ih
  | succeeded _ hc ih => exact hc.tablesOk ih

/-- Every cycle of the history ran from sound tables. -/
theorem Run.cycle {s : Collector} {history : List Cycle} (h : Run s history) {c : Cycle} (hc : c ∈ history) :
    TablesOk c.before.tables ∧ CollectOnce c.before c.rooms c.observedAt c.after true := by
  induction h with
  | start => cases hc
  | restart _ ih => exact ih hc
  | failed _ _ ih => exact ih hc
  | succeeded hrun hstep ih =>
    rcases List.mem_cons.mp hc with rfl | hc
    · exact ⟨hrun.tablesOk,hstep⟩
    · exact ih hc

/-! ## Sightings -/

/-- The room's row was last seen in this very cycle. -/
def Sighted (c : Cycle) (room : RoomInfoDTO) : Prop :=
  ∃ row ∈ c.after.tables.rankMatches.rows,
    row.meeting = (toSnapshotRecord c.observedAt room).meeting ∧ row.lastSeenAt = c.observedAt

/-- The room is not taken for one of the last cycle, or these two have met in it within a day. -/
def Recognised (c : Cycle) (room : RoomInfoDTO) : Prop :=
  room.roomId ∉ c.before.prevRankMatchIds ∨ ∃ row ∈ c.before.tables.rankMatches.rows,
    row.meeting = (toSnapshotRecord c.observedAt room).meeting ∧ c.observedAt - liveRoomWindow ≤ row.createdDt

theorem sub_day_le_of_statDay {t u : ℤ} (h : statDay t = statDay u) : u - liveRoomWindow ≤ t := by
  simp only [statDay,liveRoomWindow,statDayStartHour,seoulOffset,day,hour,minute,second] at *
  omega

section Sightings
variable {c : Cycle} {room : RoomInfoDTO}

theorem mem_sightings (h : room ∈ c.rankMatches) :
    toSnapshotRecord c.observedAt room ∈ sightings c.rooms c.observedAt := List.mem_map_of_mem h

theorem mem_newSightings (h : room ∈ c.rankMatches) (hnew : room.roomId ∉ c.before.prevRankMatchIds) :
    toSnapshotRecord c.observedAt room ∈ newSightings c.before c.rooms c.observedAt :=
  List.mem_map_of_mem (List.mem_filter.mpr ⟨h,decide_eq_true hnew⟩)

theorem of_mem_newSightings {record : RankMatchSnapshotRecord}
    (h : record ∈ newSightings c.before c.rooms c.observedAt) :
    ∃ room ∈ c.rankMatches, room.roomId ∉ c.before.prevRankMatchIds ∧
      record = toSnapshotRecord c.observedAt room := by
  obtain ⟨room,hroom,rfl⟩ := List.mem_map.mp h
  obtain ⟨hroom,hnew⟩ := List.mem_filter.mp hroom
  exact ⟨room,hroom,of_decide_eq_true hnew,rfl⟩

/-- A row the recording leaves is an old one or one of a room not seen in the last cycle. -/
theorem mem_recorded {db : Tables} {row : RankMatchSnapshotRow}
    (h : row ∈ (recordSnapshot (newSightings c.before c.rooms c.observedAt) db).rankMatches.rows) :
    row ∈ db.rankMatches.rows ∨ ∃ room ∈ c.rankMatches, room.roomId ∉ c.before.prevRankMatchIds ∧
      db.rankMatches.get? ((toSnapshotRecord c.observedAt room).meeting,statDay c.observedAt) = none ∧
      ∃ id, row = snapshotRow id (toSnapshotRecord c.observedAt room) := by
  rcases mem_recordSnapshot h with hold | ⟨record,hrecord,id,hrow,hfree⟩
  · exact .inl hold
  · obtain ⟨room,hroom,hnew,rfl⟩ := of_mem_newSightings hrecord
    exact .inr ⟨room,hroom,hnew,hfree,id,hrow⟩

theorem sighted_iff_of_cycle (hok : TablesOk c.before.tables)
    (hstep : CollectOnce c.before c.rooms c.observedAt c.after true) (hroom : room ∈ c.rankMatches) :
    Sighted c room ↔ Recognised c room := by
  obtain ⟨db,hrows,hid,hafter⟩ := hstep.rankMatches
  have hdb := (tablesOk_of_eq hok hrows hid).recordSnapshot (newSightings c.before c.rooms c.observedAt)
  have hmeeting := List.mem_map_of_mem (f := RankMatchSnapshotRecord.meeting) (mem_sightings hroom)
  unfold Sighted Recognised
  rw [hafter]
  constructor
  · rintro ⟨row,hrow,hmeet,hseen⟩
    obtain ⟨old,hold,rfl⟩ := mem_touchRankMatches.mp hrow
    rw [touch_meeting] at hmeet
    have hcreated : c.observedAt - liveRoomWindow ≤ old.createdDt := by
      by_cases ht : Touched (sightings c.rooms c.observedAt) c.observedAt old
      · exact ht.2
      · rw [touch_of_not ht] at hseen
        rw [← hseen]
        exact (hdb.row old hold).lastSeenAt
    rcases mem_recorded hold with hold | ⟨room',_,hnew,_,id,rfl⟩
    · exact .inr ⟨old,hrows ▸ hold,hmeet,hcreated⟩
    · have hsame : room'.roomId = room.roomId := congrArg Prod.fst hmeet
      exact .inl (hsame ▸ hnew)
  · intro h
    have hrow : ∃ row ∈ (recordSnapshot (newSightings c.before c.rooms c.observedAt) db).rankMatches.rows,
        row.meeting = (toSnapshotRecord c.observedAt room).meeting ∧
          c.observedAt - liveRoomWindow ≤ row.createdDt := by
      rcases h with hnew | ⟨row,hrow,hmeet,hcreated⟩
      · obtain ⟨row,hrow,hkey⟩ := @exists_recordSnapshot db _ _ (mem_newSightings hroom hnew)
        have hday := (hdb.row row hrow).matchDate.symm.trans (congrArg Prod.snd hkey)
        exact ⟨row,hrow,congrArg Prod.fst hkey,sub_day_le_of_statDay hday⟩
      · exact ⟨row,rows_subset_recordSnapshot (hrows ▸ hrow),hmeet,hcreated⟩
    obtain ⟨row,hrow,hmeet,hcreated⟩ := hrow
    refine ⟨_,mem_touchRankMatches.mpr ⟨row,hrow,rfl⟩,(touch_meeting _ _ row).trans hmeet,?_⟩
    rw [touch_of_touched ⟨hmeet ▸ hmeeting,hcreated⟩]

end Sightings

/-- After every cycle that succeeded, each observed rank match is sighted just where the collector
does not take it for another room. -/
theorem sightings_complete_iff {s : Collector} {history : List Cycle} (h : Run s history) :
    ∀ c ∈ history, ∀ room ∈ c.rankMatches, Sighted c room ↔ Recognised c room := by
  intro c hc room hroom
  obtain ⟨hok,hstep⟩ := h.cycle hc
  exact sighted_iff_of_cycle hok hstep hroom

/-! A room whose second member changed between two cycles. -/

def roomOf (roomId : ℕ) (npid₁ npid₂ : String) : RoomInfoDTO where
  roomId := roomId
  ownerNpid := npid₁
  ownerOnlineName := npid₁
  currentMembers := 2
  maxSlots := 2
  rankInfo := some 10
  users := [⟨npid₁,"",npid₁⟩,⟨npid₂,"",npid₂⟩]

def sawBob : Collector := collected ⟨Tables.empty,[]⟩ [roomOf 5 "alice" "bob"] 0 0

def sawCarol : Collector := collected sawBob [roomOf 5 "alice" "carol"] (30 * second) (30 * second)

def bobThenCarol : List Cycle :=
  [⟨sawBob,[roomOf 5 "alice" "carol"],30 * second,sawCarol⟩,
    ⟨⟨Tables.empty,[]⟩,[roomOf 5 "alice" "bob"],0,sawBob⟩]

theorem run_bobThenCarol : Run sawCarol bobThenCarol :=
  .succeeded (.succeeded .start (collectOnce_collected _ _ _ _)) (collectOnce_collected _ _ _ _)

theorem sightings_complete_iff_bobThenCarol :
    Sighted ⟨sawBob,[roomOf 5 "alice" "carol"],30 * second,sawCarol⟩ (roomOf 5 "alice" "carol") ↔
      Recognised ⟨sawBob,[roomOf 5 "alice" "carol"],30 * second,sawCarol⟩ (roomOf 5 "alice" "carol") :=
  sightings_complete_iff run_bobThenCarol _ (List.mem_cons_self ..) (roomOf 5 "alice" "carol") (by decide)

/-- The second meeting is never written. -/
theorem carol_missed : ¬ ∀ s history, Run s history → ∀ c ∈ history, ∀ room ∈ c.rankMatches, Sighted c room := by
  intro h
  have hsighted := h _ _ run_bobThenCarol _ (List.mem_cons_self ..) (roomOf 5 "alice" "carol") (by decide)
  revert hsighted
  unfold Sighted
  decide

end Tag2now.History
