import Tag2now.Collections.Series
import Tag2now.History.Days
import Tag2now.History.RankRoom

/-! # The hours a player is active in

A room covers every hour up to its last sighting. It is expanded from the beginning of its
first hour in steps of one, and an hour of the clock in Seoul counts when it came up on two
statistics days.
-/
namespace Tag2now.History
open Collections

/-- `extract(hour from ..)` of a timestamp, as an integer. -/
def extractHour (timestamp : ℤ) : ℕ := ((timestamp % day) / hour).toNat

/-- The active hours look this far back. -/
def hoursWindow : ℤ := 7 * day

/-- The beginning of each hour of each room; the session's time zone is UTC. -/
def roomHours (npid : String) (now : ℤ) (db : Tables) : List ℤ :=
  (db.rankMatches.rows.filter fun row => row.meeting.Has npid ∧ now - hoursWindow ≤ row.createdDt).flatMap fun row =>
    generateSeries (truncTo hour row.createdDt) row.lastSeenAt hour

structure HourRow where
  hour : ℕ
  dayCount : ℕ

def hourRow (group : ℕ × List ℤ) : HourRow := ⟨group.1,countDistinct (group.2.map sqlStatDay)⟩

def hourRows (npid : String) (now : ℤ) (db : Tables) : List HourRow :=
  (groupBy (fun hourStart => extractHour (seoulTimestamp hourStart)) (roomHours npid now db)).map hourRow

def activeHours (rows : List HourRow) : List ℕ :=
  ((rows.filter fun row => 2 ≤ row.dayCount).map HourRow.hour).mergeSort (· ≤ ·)

namespace PostgresHistoryAdapter

/-- Two statements of one transaction; what is committed between them only the second sees. -/
def getPlayerStats (npid : String) (now : ℤ) (days : ℕ) (db db' : Tables) : PlayerStats :=
  let cutoff := now - days * day
  let playerSnapshots :=
    (db.rankMatches.rows.filter fun row => row.meeting.Has npid ∧ cutoff ≤ row.createdDt).map (·.createdDt)
  { npid
    daysActive := countDistinct (playerSnapshots.map sqlStatDay)
    timesSeen := playerSnapshots.length
    firstSeen := playerSnapshots.min?
    lastSeen := playerSnapshots.max?
    roomTypeCounts := []
    activeHours := activeHours (hourRows npid now db') }

end PostgresHistoryAdapter

/-! ## Hours of the clock -/

/-- A moment of the clock hour `h` in Seoul on a statistics day. -/
def InClockHour (date : ℤ) (h : ℕ) (t : ℤ) : Prop := statDay t = date ∧ seoulTime t / hour = h

/-- Where the clock hour begins: those before 06:00 are of the morning the day ends on. -/
def clockHourStart (date : ℤ) (h : ℕ) : ℤ := (if h < 6 then date + 1 else date) * day + h * hour - seoulOffset

theorem inClockHour_iff {date t : ℤ} {h : ℕ} (hh : h < 24) :
    InClockHour date h t ↔ clockHourStart date h ≤ t ∧ t < clockHourStart date h + hour := by
  unfold InClockHour clockHourStart
  split <;> simp only [statDay,seoulTime,seoulOffset,statDayStartHour,day,hour,minute,second] at * <;> omega

theorem statDay_truncTo (t : ℤ) : statDay (truncTo hour t) = statDay t := by
  simp only [statDay,truncTo,seoulOffset,statDayStartHour,day,hour,minute,second]
  omega

theorem extractHour_truncTo (t : ℤ) : extractHour (seoulTimestamp (truncTo hour t)) = (seoulTime t / hour).toNat := by
  have hhour : seoulTimestamp (truncTo hour t) % day / hour = seoulTime t / hour := by
    simp only [seoulTimestamp,seoulTime,truncTo,seoulOffset,day,hour,minute,second]
    omega
  unfold extractHour
  rw [hhour]

theorem inClockHour_iff_truncTo {date t : ℤ} {h : ℕ} : InClockHour date h t ↔
    sqlStatDay (truncTo hour t) = date ∧ extractHour (seoulTimestamp (truncTo hour t)) = h := by
  have hnonneg : 0 ≤ seoulTime t / hour :=
    Int.ediv_nonneg (Int.emod_nonneg _ (by decide)) (by decide)
  rw [sqlStatDay_eq,statDay_truncTo,extractHour_truncTo]
  unfold InClockHour
  omega

/-! ## Which hours are listed -/

/-- A recent room of the player was open in the clock hour of that statistics day. -/
def OpenDuring (npid : String) (now : ℤ) (db : Tables) (date : ℤ) (h : ℕ) : Prop :=
  ∃ row ∈ db.rankMatches.rows, row.meeting.Has npid ∧ now - 7 * day ≤ row.createdDt ∧
    ∃ t, row.createdDt ≤ t ∧ t ≤ row.lastSeenAt ∧ InClockHour date h t

section
variable {npid : String} {now : ℤ} {db : Tables}

theorem openDuring_iff (hrooms : ∀ row ∈ db.rankMatches.rows, row.createdDt ≤ row.lastSeenAt) {date : ℤ} {h : ℕ} :
    OpenDuring npid now db date h ↔
      ∃ s ∈ roomHours npid now db, sqlStatDay s = date ∧ extractHour (seoulTimestamp s) = h := by
  have hhour : 0 < hour := by decide
  unfold OpenDuring roomHours
  simp only [inClockHour_iff_truncTo,List.mem_flatMap,List.mem_filter,decide_eq_true_eq]
  constructor
  · rintro ⟨row,hrow,hhas,hrecent,t,hcreated,hseen,hclock⟩
    refine ⟨truncTo hour t,⟨row,⟨hrow,hhas,hrecent⟩,?_⟩,hclock⟩
    exact (mem_generateSeries_truncTo hhour (hrooms row hrow)).mpr ⟨t,hcreated,hseen,rfl⟩
  · rintro ⟨s,⟨row,⟨hrow,hhas,hrecent⟩,hs⟩,hclock⟩
    obtain ⟨t,hcreated,hseen,rfl⟩ := (mem_generateSeries_truncTo hhour (hrooms row hrow)).mp hs
    exact ⟨row,hrow,hhas,hrecent,t,hcreated,hseen,hclock⟩

theorem hourRows_hours : (hourRows npid now db).map HourRow.hour =
    ((roomHours npid now db).map fun s => extractHour (seoulTimestamp s)).dedup := by
  unfold hourRows
  rw [List.map_map,← groupBy_keys]
  rfl

theorem nodup_activeHours : (activeHours (hourRows npid now db)).Nodup := by
  unfold activeHours
  rw [(List.mergeSort_perm _ _).nodup_iff]
  refine List.Nodup.sublist (List.filter_sublist.map _) ?_
  rw [hourRows_hours]
  exact List.nodup_dedup _

theorem activeHours_ascending : (activeHours (hourRows npid now db)).Pairwise (· < ·) := by
  have hsorted : (activeHours (hourRows npid now db)).Pairwise (· ≤ ·) := List.pairwise_mergeSort' _ _
  exact ascending_of_nodup hsorted nodup_activeHours

theorem mem_activeHours {h : ℕ} : h ∈ activeHours (hourRows npid now db) ↔
    ∃ s ∈ roomHours npid now db, ∃ s' ∈ roomHours npid now db, extractHour (seoulTimestamp s) = h ∧
      extractHour (seoulTimestamp s') = h ∧ sqlStatDay s ≠ sqlStatDay s' := by
  unfold activeHours hourRows
  rw [List.mem_mergeSort]
  simp only [List.mem_map,List.mem_filter,decide_eq_true_eq]
  constructor
  · rintro ⟨row,⟨⟨g,hg,rfl⟩,hcount⟩,rfl⟩
    have hrows := (mem_groupBy.mp hg).2
    obtain ⟨a,ha,b,hb,hne⟩ := two_le_countDistinct.mp hcount
    obtain ⟨s,hs,rfl⟩ := List.mem_map.mp ha
    obtain ⟨s',hs',rfl⟩ := List.mem_map.mp hb
    rw [hrows] at hs hs'
    obtain ⟨hs,hhour⟩ := List.mem_filter.mp hs
    obtain ⟨hs',hhour'⟩ := List.mem_filter.mp hs'
    exact ⟨s,hs,s',hs',of_decide_eq_true hhour,of_decide_eq_true hhour',hne⟩
  · rintro ⟨s,hs,s',hs',rfl,hhour',hne⟩
    have hgroup : (extractHour (seoulTimestamp s),rowsOf (fun hourStart => extractHour (seoulTimestamp hourStart))
        (roomHours npid now db) (extractHour (seoulTimestamp s))) ∈
          groupBy (fun hourStart => extractHour (seoulTimestamp hourStart)) (roomHours npid now db) :=
      mem_groupBy.mpr ⟨⟨s,hs,rfl⟩,rfl⟩
    refine ⟨_,⟨⟨_,hgroup,rfl⟩,?_⟩,rfl⟩
    apply two_le_countDistinct.mpr
    refine ⟨_,List.mem_map_of_mem (List.mem_filter.mpr ⟨hs,decide_eq_true rfl⟩),_,
      List.mem_map_of_mem (List.mem_filter.mpr ⟨hs',decide_eq_true hhour'⟩),hne⟩

end

/-- The hours listed, in order, are those in which rooms of the player were open on two statistics days. -/
theorem activeHours_iff (npid : String) (now : ℤ) (days : ℕ) (db db' : Tables)
    (hrooms : ∀ row ∈ db'.rankMatches.rows, row.createdDt ≤ row.lastSeenAt) :
    (PostgresHistoryAdapter.getPlayerStats npid now days db db').activeHours.Pairwise (· < ·) ∧
    ∀ h, h ∈ (PostgresHistoryAdapter.getPlayerStats npid now days db db').activeHours ↔
      ∃ date date', date ≠ date' ∧ OpenDuring npid now db' date h ∧ OpenDuring npid now db' date' h := by
  refine ⟨activeHours_ascending,fun h => ?_⟩
  have hmem : h ∈ (PostgresHistoryAdapter.getPlayerStats npid now days db db').activeHours ↔ _ := mem_activeHours
  rw [hmem]
  simp only [openDuring_iff hrooms]
  constructor
  · rintro ⟨s,hs,s',hs',hhour,hhour',hne⟩
    exact ⟨_,_,hne,⟨s,hs,rfl,hhour⟩,s',hs',rfl,hhour'⟩
  · rintro ⟨_,_,hne,⟨s,hs,rfl,hhour⟩,s',hs',rfl,hhour'⟩
    exact ⟨s,hs,s',hs',hhour,hhour',hne⟩

def evening (roomId : ℕ) (createdDt : ℤ) : RankMatchSnapshotRecord := ⟨roomId,20,"lars","Lars","paul","Paul",createdDt⟩

/-- On two evenings a room is open from 21:10 to 23:20 in Seoul. -/
def twoEvenings : Tables :=
  let first := evening 1 (12 * hour + 10 * minute)
  let second := evening 2 (36 * hour + 10 * minute)
  touchRankMatches [second] (38 * hour + 20 * minute) (recordSnapshot [second]
    (touchRankMatches [first] (14 * hour + 20 * minute) (recordSnapshot [first] .empty)))

theorem activeHours_iff_twoEvenings :
    (PostgresHistoryAdapter.getPlayerStats "lars" (40 * hour) 30 .empty twoEvenings).activeHours.Pairwise (· < ·) ∧
    23 ∈ (PostgresHistoryAdapter.getPlayerStats "lars" (40 * hour) 30 .empty twoEvenings).activeHours := by
  obtain ⟨hascending,hmem⟩ := activeHours_iff "lars" (40 * hour) 30 .empty twoEvenings (by decide)
  refine ⟨hascending,(hmem 23).mpr ⟨0,1,by decide,?_,?_⟩⟩
  · exact ⟨⟨1,1,12 * hour + 10 * minute,14 * hour + 20 * minute,0,20,"lars","Lars","paul","Paul"⟩,by decide,.inl rfl,
      by decide,14 * hour,by decide,by decide,rfl,rfl⟩
  · exact ⟨⟨2,2,36 * hour + 10 * minute,38 * hour + 20 * minute,1,20,"lars","Lars","paul","Paul"⟩,by decide,.inl rfl,
      by decide,38 * hour,by decide,by decide,rfl,rfl⟩

end Tag2now.History
