import Mathlib.Data.Finset.Max
import Tag2now.History.Collector

/-! # The room a player is found in

The lookup takes, among the player's rows seen lately, the one created last. A player who
comes back to an earlier room is found in it just when its row was created after the rows
of every other room of theirs still within the slack.
-/
namespace Tag2now.History
open ReadCommitted Matching

def Meeting.Has (m : Meeting) (npid : String) : Prop := m.2.1 = npid ∨ m.2.2 = npid

instance (m : Meeting) (npid : String) : Decidable (Meeting.Has m npid) := inferInstanceAs (Decidable (_ ∨ _))

/-- A row the lookup considers at `time`. -/
def Candidate (npid : String) (time : ℤ) (row : RankMatchSnapshotRow) : Prop :=
  Meeting.Has row.meeting npid ∧ row.createdDt ≤ time ∧ time - roomEndSlack ≤ row.lastSeenAt

instance (npid : String) (time : ℤ) (row : RankMatchSnapshotRow) : Decidable (Candidate npid time row) :=
  inferInstanceAs (Decidable (_ ∧ _ ∧ _))

/-- One of the candidates created last. -/
def Newest (db : Tables) (npid : String) (time : ℤ) (row : RankMatchSnapshotRow) : Prop :=
  row ∈ db.rankMatches.rows ∧ Candidate npid time row ∧
    ∀ other ∈ db.rankMatches.rows, Candidate npid time other → other.createdDt ≤ row.createdDt

def rankRoom (row : RankMatchSnapshotRow) : RankRoom := ⟨row.id,row.user1Npid,row.user2Npid⟩

/-- What the lookup may answer; rows created at the same instant may come in any order. -/
def findRankRoom (db : Tables) (npid : String) (time : ℤ) (answer : Option RankRoom) : Prop :=
  (answer = none ∧ ∀ row ∈ db.rankMatches.rows, ¬ Candidate npid time row) ∨
    ∃ row, Newest db npid time row ∧ answer = some (rankRoom row)

/-- Whatever the lookup answers is a row of this room and its members. -/
def FindsMeeting (db : Tables) (npid : String) (time : ℤ) (m : Meeting) : Prop :=
  ∀ answer, findRankRoom db npid time answer →
    ∃ row ∈ db.rankMatches.rows, row.meeting = m ∧ answer = some (rankRoom row)

section Lookup
variable {db : Tables} {npid : String} {time : ℤ}

theorem exists_newest {row : RankMatchSnapshotRow} (hrow : row ∈ db.rankMatches.rows)
    (hc : Candidate npid time row) : ∃ row, Newest db npid time row := by
  have hmem : row ∈ (db.rankMatches.rows.filter fun r => Candidate npid time r).toFinset :=
    List.mem_toFinset.mpr (List.mem_filter.mpr ⟨hrow,decide_eq_true hc⟩)
  obtain ⟨best,hbest,hmax⟩ := Finset.exists_max_image _ RankMatchSnapshotRow.createdDt ⟨row,hmem⟩
  obtain ⟨hbest,hcand⟩ := List.mem_filter.mp (List.mem_toFinset.mp hbest)
  refine ⟨best,hbest,of_decide_eq_true hcand,fun other hother hoc => hmax other ?_⟩
  exact List.mem_toFinset.mpr (List.mem_filter.mpr ⟨hother,decide_eq_true hoc⟩)

theorem findRankRoom_exists (db : Tables) (npid : String) (time : ℤ) :
    ∃ answer, findRankRoom db npid time answer := by
  by_cases h : ∃ row ∈ db.rankMatches.rows, Candidate npid time row
  · obtain ⟨row,hrow,hc⟩ := h
    obtain ⟨best,hbest⟩ := exists_newest hrow hc
    exact ⟨_,.inr ⟨best,hbest,rfl⟩⟩
  · push Not at h
    exact ⟨none,.inl ⟨rfl,h⟩⟩

/-- The lookup finds the room where one of its rows was created after every candidate of another. -/
theorem findsMeeting_iff (hdb : TablesOk db) {m : Meeting} : FindsMeeting db npid time m ↔
    ∃ row ∈ db.rankMatches.rows, row.meeting = m ∧ Candidate npid time row ∧
      ∀ other ∈ db.rankMatches.rows, other.meeting ≠ m → Candidate npid time other →
        other.createdDt < row.createdDt := by
  constructor
  · intro h
    have hnewest {row : RankMatchSnapshotRow} (hrow : Newest db npid time row) : row.meeting = m := by
      obtain ⟨row',hrow',hmeet,heq⟩ := h _ (.inr ⟨row,hrow,rfl⟩)
      have hid : row.id = row'.id := congrArg RankRoom.roomSnapshotId (Option.some.inj heq)
      rw [hdb.id_inj row hrow.1 row' hrow' hid]
      exact hmeet
    obtain ⟨answer,hanswer⟩ := findRankRoom_exists db npid time
    rcases hanswer with ⟨rfl,hnone⟩ | ⟨row,hrow,rfl⟩
    · obtain ⟨_,_,_,heq⟩ := h none (.inl ⟨rfl,hnone⟩)
      cases heq
    · refine ⟨row,hrow.1,hnewest hrow,hrow.2.1,fun other hother hne hc => ?_⟩
      refine lt_of_le_of_ne (hrow.2.2 other hother hc) fun heq => hne (hnewest ⟨hother,hc,?_⟩)
      rw [heq]
      exact hrow.2.2
  · rintro ⟨row,hrow,hmeet,hc,hlast⟩ answer (⟨_,hnone⟩ | ⟨best,hbest,rfl⟩)
    · exact absurd hc (hnone row hrow)
    · refine ⟨best,hbest.1,?_,rfl⟩
      by_contra hne
      exact absurd (hbest.2.2 row hrow hc) (not_le.mpr (hlast best hbest.1 hne hbest.2.1))

end Lookup

/-! ## After a cycle -/

section Cycle
variable (c : Cycle) (room : RoomInfoDTO) (npid : String)

def Cycle.meeting : Meeting := (toSnapshotRecord c.observedAt room).meeting

/-- When a row of the room that the lookup will consider was created: in this cycle, which writes
one, or before it, within the day or with a sighting within the slack. -/
def RoomSince (since : ℤ) : Prop :=
  (since = c.observedAt ∧ room.roomId ∉ c.before.prevRankMatchIds ∧
    c.before.tables.rankMatches.get? (c.meeting room,statDay c.observedAt) = none) ∨
  ∃ row ∈ c.before.tables.rankMatches.rows, row.meeting = c.meeting room ∧ row.createdDt = since ∧
    since ≤ c.observedAt ∧
    (c.observedAt - liveRoomWindow ≤ since ∨ c.observedAt - roomEndSlack ≤ row.lastSeenAt)

/-- Such a row was created after every row of the player's other rooms within the slack. -/
def LatestRoom : Prop :=
  ∃ since, RoomSince c room since ∧ ∀ row ∈ c.before.tables.rankMatches.rows, row.meeting ≠ c.meeting room →
    Candidate npid c.observedAt row → row.createdDt < since

end Cycle

section AfterCycle
variable {c : Cycle} {room : RoomInfoDTO} {npid : String}

/-- A row of the player in another room than the one observed is not touched. -/
theorem not_touched (hone : ∀ other ∈ c.rankMatches, Meeting.Has (c.meeting other) npid →
      c.meeting other = c.meeting room) {row : RankMatchSnapshotRow} (hmember : Meeting.Has row.meeting npid)
    (hne : row.meeting ≠ c.meeting room) : ¬ Touched (sightings c.rooms c.observedAt) c.observedAt row := by
  rintro ⟨hmeet,_⟩
  obtain ⟨record,hrecord,heq⟩ := List.mem_map.mp hmeet
  obtain ⟨other,hother,rfl⟩ := List.mem_map.mp hrecord
  have hsame : c.meeting other = row.meeting := heq
  exact hne (hsame ▸ hone other hother (hsame ▸ hmember))

/-- The row whose creation is told of is among those recorded. -/
theorem RoomSince.row {since : ℤ} {db : Tables} (h : RoomSince c room since)
    (hrows : db.rankMatches = c.before.tables.rankMatches) (hroom : room ∈ c.rankMatches) :
    ∃ row ∈ (recordSnapshot (newSightings c.before c.rooms c.observedAt) db).rankMatches.rows,
      row.meeting = c.meeting room ∧ row.createdDt = since ∧ since ≤ c.observedAt ∧
        (c.observedAt - liveRoomWindow ≤ since ∨ c.observedAt - roomEndSlack ≤ row.lastSeenAt) := by
  rcases h with ⟨rfl,hnew,hfree⟩ | ⟨row,hrow,hmeet,hcreated,hle,hseen⟩
  · obtain ⟨row,hrow,hkey⟩ := @exists_recordSnapshot db _ _ (mem_newSightings hroom hnew)
    refine ⟨row,hrow,congrArg Prod.fst hkey,?_,le_rfl,.inl (Int.sub_le_self _ (by decide))⟩
    rcases mem_recorded hrow with hold | ⟨room',_,_,_,id,rfl⟩
    · rw [hrows] at hold
      exact absurd hkey (Table.get?_eq_none_iff.mp hfree row hold)
    · rfl
  · exact ⟨row,rows_subset_recordSnapshot (hrows ▸ hrow),hmeet,hcreated,hle,hseen⟩

theorem findsMeeting_iff_of_cycle (hok : TablesOk c.before.tables)
    (hstep : CollectOnce c.before c.rooms c.observedAt c.after true) (hroom : room ∈ c.rankMatches)
    (hmember : Meeting.Has (c.meeting room) npid) (hone : ∀ other ∈ c.rankMatches,
      Meeting.Has (c.meeting other) npid → c.meeting other = c.meeting room) :
    FindsMeeting c.after.tables npid c.observedAt (c.meeting room) ↔ LatestRoom c room npid := by
  obtain ⟨db,hrows,hid,hafter⟩ := hstep.rankMatches
  have hmeeting : c.meeting room ∈ (sightings c.rooms c.observedAt).map (·.meeting) :=
    List.mem_map_of_mem (f := RankMatchSnapshotRecord.meeting) (mem_sightings hroom)
  have hslack : 0 ≤ roomEndSlack := by decide
  rw [findsMeeting_iff (hstep.tablesOk hok),hafter]
  constructor
  · rintro ⟨row,hrow,hmeet,⟨hmem,hcreated,hseen⟩,hlast⟩
    obtain ⟨old,hold,rfl⟩ := mem_touchRankMatches.mp hrow
    rw [touch_meeting] at hmeet
    rw [touch_createdDt] at hcreated hlast
    refine ⟨old.createdDt,?_,fun other hother hne hc => ?_⟩
    · rcases mem_recorded hold with hold | ⟨room',_,hnew,hfree,id,rfl⟩
      · refine .inr ⟨old,hrows ▸ hold,hmeet,rfl,hcreated,?_⟩
        by_cases ht : Touched (sightings c.rooms c.observedAt) c.observedAt old
        · exact .inl ht.2
        · rw [touch_of_not ht] at hseen
          exact .inr hseen
      · have hsame : c.meeting room' = c.meeting room := hmeet
        have hids : room'.roomId = room.roomId := congrArg Prod.fst hsame
        refine .inl ⟨rfl,hids ▸ hnew,?_⟩
        rw [← hsame,← hrows]
        exact hfree
    · have hkept := touch_of_not (not_touched hone hc.1 hne)
      refine hlast other (mem_touchRankMatches.mpr ⟨other,?_,hkept⟩) hne hc
      exact rows_subset_recordSnapshot (hrows ▸ hother)
  · rintro ⟨since,hsince,hlast⟩
    obtain ⟨row,hrow,hmeet,hcreated,hle,hseen⟩ := hsince.row hrows hroom
    refine ⟨_,mem_touchRankMatches.mpr ⟨row,hrow,rfl⟩,(touch_meeting _ _ row).trans hmeet,⟨?_,?_,?_⟩,?_⟩
    · rw [touch_meeting,hmeet]
      exact hmember
    · rw [touch_createdDt,hcreated]
      exact hle
    · by_cases ht : Touched (sightings c.rooms c.observedAt) c.observedAt row
      · rw [touch_of_touched ht]
        exact Int.sub_le_self _ hslack
      · rw [touch_of_not ht]
        refine hseen.resolve_left fun hday => ht ⟨hmeet ▸ hmeeting,hcreated ▸ hday⟩
    · intro other hother hne hc
      rw [touch_createdDt,hcreated]
      obtain ⟨old,hold,rfl⟩ := mem_touchRankMatches.mp hother
      rw [touch_meeting] at hne
      have hmem : Meeting.Has old.meeting npid := by
        have hmem := hc.1
        rwa [touch_meeting] at hmem
      have hkept := touch_of_not (not_touched hone hmem hne)
      rw [hkept] at hc ⊢
      rcases mem_recorded hold with hold | ⟨room',hroom',_,_,id,rfl⟩
      · exact hlast old (hrows ▸ hold) hne hc
      · exact absurd (hone room' hroom' hmem) hne

end AfterCycle

/-- Right after a cycle that succeeded, a player observed in one rank match is found in it just where
the room has the latest row. -/
theorem findRankRoom_iff {s : Collector} {history : List Cycle} (h : Run s history) {c : Cycle}
    (hc : c ∈ history) {room : RoomInfoDTO} (hroom : room ∈ c.rankMatches) {npid : String}
    (hmember : Meeting.Has (c.meeting room) npid) (hone : ∀ other ∈ c.rankMatches,
      Meeting.Has (c.meeting other) npid → c.meeting other = c.meeting room) :
    FindsMeeting c.after.tables npid c.observedAt (c.meeting room) ↔ LatestRoom c room npid := by
  obtain ⟨hok,hstep⟩ := h.cycle hc
  exact findsMeeting_iff_of_cycle hok hstep hroom hmember hone

/-! Alice leaves Bob's room for Carol's and comes back within a minute. -/

def metBob : Collector := collected ⟨Tables.empty,[]⟩ [roomOf 1 "alice" "bob"] 0 0

def metCarol : Collector := collected metBob [roomOf 2 "alice" "carol"] (30 * second) (30 * second)

def backToBob : Collector := collected metCarol [roomOf 1 "alice" "bob"] (60 * second) (60 * second)

def comingBack : List Cycle :=
  [⟨metCarol,[roomOf 1 "alice" "bob"],60 * second,backToBob⟩,⟨metBob,[roomOf 2 "alice" "carol"],30 * second,metCarol⟩,
    ⟨⟨Tables.empty,[]⟩,[roomOf 1 "alice" "bob"],0,metBob⟩]

theorem run_comingBack : Run backToBob comingBack :=
  .succeeded (.succeeded (.succeeded .start (collectOnce_collected _ _ _ _)) (collectOnce_collected _ _ _ _))
    (collectOnce_collected _ _ _ _)

def withCarol : Cycle := ⟨metBob,[roomOf 2 "alice" "carol"],30 * second,metCarol⟩

theorem findRankRoom_iff_withCarol :
    FindsMeeting metCarol.tables "alice" (30 * second) (2,"alice","carol") ↔
      LatestRoom withCarol (roomOf 2 "alice" "carol") "alice" :=
  @findRankRoom_iff _ _ run_comingBack withCarol (List.mem_cons_of_mem _ (List.mem_cons_self ..))
    (roomOf 2 "alice" "carol") (by decide) "alice" (by decide) (by decide)

def carolRow : RankMatchSnapshotRow := snapshotRow 2 (toSnapshotRecord (30 * second) (roomOf 2 "alice" "carol"))

/-- Back in Bob's room, Alice is found in Carol's. -/
theorem found_with_carol : ¬ ∀ s history, Run s history → ∀ c ∈ history, ∀ room ∈ c.rankMatches, ∀ npid,
    Meeting.Has (c.meeting room) npid → (∀ other ∈ c.rankMatches, Meeting.Has (c.meeting other) npid →
      c.meeting other = c.meeting room) → FindsMeeting c.after.tables npid c.observedAt (c.meeting room) := by
  intro h
  have hfinds := h _ _ run_comingBack _ (List.mem_cons_self ..) (roomOf 1 "alice" "bob") (by decide) "alice"
    (by decide) (by decide)
  have hnewest : Newest backToBob.tables "alice" (60 * second) carolRow := ⟨by decide,by decide,by decide⟩
  obtain ⟨row,_,hmeet,hroom⟩ := hfinds _ (.inr ⟨carolRow,hnewest,rfl⟩)
  have hbob : row.user2Npid = "bob" := congrArg (fun m => m.2.2) hmeet
  have hcarol : "carol" = row.user2Npid := congrArg RankRoom.user2Npid (Option.some.inj hroom)
  rw [hbob] at hcarol
  exact absurd hcarol (by decide)

end Tag2now.History
