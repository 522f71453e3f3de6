import Mathlib.Data.Rat.Floor
import Tag2now.Chat.Domain
import Tag2now.Collections.Places
import Tag2now.Collections.Queries
import Tag2now.History.Snapshots
import Tag2now.History.Stats
import Tag2now.Reservation.Domain

/-! # Days that begin at 06:00 in Seoul

A statistics day, a play day of the chat and the reservations of a day all begin at the
same instant, whichever clock is shifted to find it. So a summary that is bounded by one
way of counting days and grouped by another joins what belongs together.
-/
namespace Tag2now.History
open Collections ReadCommitted

/-- Shifting the clock back by those hours turns the 06:00 boundary into a plain midnight one. -/
def statDayTz : ℤ := 9 * hour - statDayStartHour * hour

/-- `timezone('Asia/Seoul', ..)`: the clock on the wall in Seoul with its date. -/
def seoulTimestamp (column : ℤ) : ℤ := column + seoulOffset

/-- A timestamp cast to a date loses its time of day. -/
def castDate (timestamp : ℤ) : ℤ := timestamp / day

/-- The same boundary in SQL, for grouping stored timestamps by day. -/
def sqlStatDay (column : ℤ) : ℤ := castDate (seoulTimestamp column - statDayStartHour * hour)

def statDayStart (date : ℤ) : ℤ := date * day - statDayTz

/-! ## The daily summary -/

/-- `round(.., 1)` of what is not negative. -/
def roundTenth (q : ℚ) : ℚ := ⌊q * 10 + 1 / 2⌋ / 10

/-- The rounded average of a column, null of no rows. -/
def avg (column : List ℕ) : Option ℚ := if column = [] then none else some (roundTenth (column.sum / column.length))

structure SnapshotDay where
  date : ℤ
  peakPlayers : Option ℕ
  avgPlayers : Option ℚ
  peakRooms : Option ℕ

def snapshotDay (group : ℤ × List ActivitySnapshotRow) : SnapshotDay where
  date := group.1
  peakPlayers := (group.2.map (·.totalPlayers)).max?
  avgPlayers := avg (group.2.map (·.totalPlayers))
  peakRooms := (group.2.map (·.totalRooms)).max?

structure PlayersDay where
  date : ℤ
  uniquePlayers : ℕ

def playersDay (group : ℤ × List DailyMatchedPlayerRow) : PlayersDay := ⟨group.1,group.2.length⟩

/-- A row of the answer, before its date is written out. -/
structure SummaryRow where
  date : ℤ
  peakPlayers : Option ℕ
  avgPlayers : Option ℚ
  peakRooms : Option ℕ
  uniquePlayers : ℕ

/-- The columns selected of a joined row. -/
def summaryRow (row : Option SnapshotDay × Option PlayersDay) : SummaryRow where
  date := (joinedKey SnapshotDay.date PlayersDay.date row).getD 0
  peakPlayers := row.1.bind SnapshotDay.peakPlayers
  avgPlayers := row.1.bind SnapshotDay.avgPlayers
  peakRooms := row.1.bind SnapshotDay.peakRooms
  uniquePlayers := (row.2.map PlayersDay.uniquePlayers).getD 0

def summaryRows (now : ℤ) (days : ℕ) (db : Tables) : List SummaryRow :=
  let startDate := statDay now - (days - 1)
  let startAt := statDayStart startDate
  let players := (groupBy DailyMatchedPlayerRow.date
    (db.matchedPlayers.rows.filter fun p => startDate ≤ p.date)).map playersDay
  let snapshots := (groupBy (fun s : ActivitySnapshotRow => sqlStatDay s.sampledAt)
    (db.activity.filter fun s => startAt ≤ s.sampledAt)).map snapshotDay
  sortedBy SummaryRow.date ((fullJoin SnapshotDay.date PlayersDay.date snapshots players).map summaryRow)

namespace PostgresHistoryAdapter

def getDailySummary (isoformat : ℤ → String) (now : ℤ) (days : ℕ) (db : Tables) : List DailySummary :=
  (summaryRows now days db).map fun row =>
    ⟨isoformat row.date,row.peakPlayers,row.avgPlayers,row.peakRooms,row.uniquePlayers⟩

end PostgresHistoryAdapter

/-! ## One boundary -/

theorem statDay_eq (moment : ℤ) : statDay moment = (moment + statDayTz) / day := by
  unfold statDay statDayTz seoulOffset
  congr 1
  omega

theorem sqlStatDay_eq (moment : ℤ) : sqlStatDay moment = statDay moment := rfl

/-- A moment belongs to the days that have begun by then, and to the last of them. -/
theorem statDayStart_le_iff {date moment : ℤ} : statDayStart date ≤ moment ↔ date ≤ statDay moment := by
  have hday : 0 < day := by decide
  rw [statDay_eq,Int.le_ediv_iff_mul_le hday]
  unfold statDayStart
  omega

theorem dayStart_eq (now : ℤ) : Chat.dayStart now = statDayStart (statDay now) := by
  rw [statDay_eq]
  unfold Chat.dayStart statDayStart
  dsimp only
  split <;> simp only [statDayTz,statDayStartHour,Chat.dayStartHour,seoulMidnight,seoulOffset,day,hour,minute,
    second] at * <;>
    omega

theorem windowEnd_eq (now : ℤ) : Reservations.windowEnd now = Chat.dayStart now + day := by
  unfold Reservations.windowEnd Chat.dayStart
  dsimp only
  split <;> split <;> simp only [Reservations.dayEndHour,Chat.dayStartHour] at * <;> omega

theorem lt_windowEnd (now : ℤ) : now < Reservations.windowEnd now := by
  have hnext : ¬ statDayStart (statDay now + 1) ≤ now := by
    rw [statDayStart_le_iff]
    omega
  rw [windowEnd_eq,dayStart_eq]
  unfold statDayStart at *
  rw [Int.add_mul] at hnext
  omega

/-! ## What a day's row is made of -/

def summaryOf (date : ℤ) (samples : List ActivitySnapshotRow) (players : List DailyMatchedPlayerRow) : SummaryRow where
  date := date
  peakPlayers := (samples.map (·.totalPlayers)).max?
  avgPlayers := avg (samples.map (·.totalPlayers))
  peakRooms := (samples.map (·.totalRooms)).max?
  uniquePlayers := players.length

/-- All samples and players were recorded by now, a player on the day they were seen. -/
structure RecordedBy (now : ℤ) (db : Tables) : Prop where
  sample : ∀ s ∈ db.activity, s.sampledAt ≤ now
  player : ∀ p ∈ db.matchedPlayers.rows, p.date = statDay p.firstSeenAt ∧ p.firstSeenAt ≤ now

theorem RecordedBy.players {now observedAt : ℤ} {db : Tables} (h : RecordedBy now db) (hnow : observedAt ≤ now)
    (npids : List String) : RecordedBy now (recordDailyMatchedPlayers npids observedAt db) := by
  refine ⟨h.sample,?_⟩
  unfold recordDailyMatchedPlayers
  have hrows := h.player
  generalize db.matchedPlayers = t at hrows
  induction npids.filter fun npid => npid ≠ "" generalizing t with
  | nil => exact hrows
  | cons npid npids ih =>
    apply ih
    intro p hp
    rcases Table.mem_of_insert hp with hold | rfl
    · exact hrows p hold
    · exact ⟨rfl,hnow⟩

theorem RecordedBy.activity {now clock : ℤ} {db : Tables} {snapshot : ActivitySnapshotRow} (h : RecordedBy now db)
    (hnow : snapshot.sampledAt ≤ now) : RecordedBy now (recordActivitySnapshot snapshot clock db) := by
  refine ⟨?_,h.player⟩
  intro s hs
  rcases List.mem_append.mp (List.mem_filter.mp hs).1 with hold | hnew
  · exact h.sample s hold
  · rw [List.mem_singleton.mp hnew]
    exact hnow

theorem RecordedBy.later {now now' : ℤ} {db : Tables} (h : RecordedBy now db) (hle : now ≤ now') :
    RecordedBy now' db where
  sample := fun s hs => (h.sample s hs).trans hle
  player := fun p hp => ⟨(h.player p hp).1,(h.player p hp).2.trans hle⟩

theorem statDay_mono {t u : ℤ} (h : t ≤ u) : statDay t ≤ statDay u :=
  statDayStart_le_iff.mp ((statDayStart_le_iff.mpr (le_refl (statDay t))).trans h)

theorem joinedKey_summaryRow {row : Option SnapshotDay × Option PlayersDay} {k : ℤ}
    (h : joinedKey SnapshotDay.date PlayersDay.date row = some k) : (summaryRow row).date = k := by
  unfold summaryRow
  rw [h]
  rfl

theorem toList_eq_ite {α : Type} {o : Option α} {a : α} {p : Prop} [Decidable p]
    (h : o.toList = if p then [] else [a]) :
    o = if p then none else some a := by
  split at h <;> cases o <;> simp_all

theorem summaryRow_eq {row : Option SnapshotDay × Option PlayersDay} {k : ℤ} {samples : List ActivitySnapshotRow}
    {players : List DailyMatchedPlayerRow} (hkey : joinedKey SnapshotDay.date PlayersDay.date row = some k)
    (hsamples : row.1.toList = if samples = [] then [] else [snapshotDay (k,samples)])
    (hplayers : row.2.toList = if players = [] then [] else [playersDay (k,players)]) :
    summaryRow row = summaryOf k samples players := by
  unfold summaryRow summaryOf
  rw [hkey,toList_eq_ite hsamples,toList_eq_ite hplayers]
  by_cases hs : samples = [] <;> by_cases hp : players = [] <;> simp [hs,hp,snapshotDay,playersDay,avg]

section
variable {now : ℤ} {days : ℕ} {db : Tables}

theorem rowsOf_samples {date : ℤ} (h : statDay now - (days - 1) ≤ date) :
    rowsOf (fun s : ActivitySnapshotRow => sqlStatDay s.sampledAt)
      (db.activity.filter fun s => statDayStart (statDay now - (days - 1)) ≤ s.sampledAt) date =
        db.activity.filter fun s => statDay s.sampledAt = date := by
  unfold rowsOf
  rw [List.filter_filter]
  apply List.filter_congr
  intro s _
  rw [Bool.eq_iff_iff,Bool.and_eq_true,decide_eq_true_iff,decide_eq_true_iff,decide_eq_true_iff,statDayStart_le_iff]
  have hday := sqlStatDay_eq s.sampledAt
  dsimp only
  omega

theorem rowsOf_players {date : ℤ} (h : statDay now - (days - 1) ≤ date) :
    rowsOf DailyMatchedPlayerRow.date (db.matchedPlayers.rows.filter fun p => statDay now - (days - 1) ≤ p.date) date =
      db.matchedPlayers.rows.filter fun p => p.date = date := by
  unfold rowsOf
  rw [List.filter_filter]
  apply List.filter_congr
  intro p _
  rw [← Bool.decide_and,decide_eq_decide]
  omega

/-- The table of a side has a row for each of its days. -/
def snapshotDays (now : ℤ) (days : ℕ) (db : Tables) : List SnapshotDay :=
  (groupBy (fun s : ActivitySnapshotRow => sqlStatDay s.sampledAt)
    (db.activity.filter fun s => statDayStart (statDay now - (days - 1)) ≤ s.sampledAt)).map snapshotDay

def playersDays (now : ℤ) (days : ℕ) (db : Tables) : List PlayersDay :=
  (groupBy DailyMatchedPlayerRow.date
    (db.matchedPlayers.rows.filter fun p => statDay now - (days - 1) ≤ p.date)).map playersDay

theorem snapshotDays_dates (now : ℤ) (days : ℕ) (db : Tables) : (snapshotDays now days db).map SnapshotDay.date =
    ((db.activity.filter fun s => statDayStart (statDay now - (days - 1)) ≤ s.sampledAt).map
      fun s => sqlStatDay s.sampledAt).dedup := by
  unfold snapshotDays
  rw [List.map_map,← groupBy_keys]
  rfl

theorem playersDays_dates (now : ℤ) (days : ℕ) (db : Tables) : (playersDays now days db).map PlayersDay.date =
    ((db.matchedPlayers.rows.filter fun p =>
      statDay now - (days - 1) ≤ p.date).map DailyMatchedPlayerRow.date).dedup := by
  unfold playersDays
  rw [List.map_map,← groupBy_keys]
  rfl

theorem mem_snapshotDays_dates {date : ℤ} : date ∈ (snapshotDays now days db).map SnapshotDay.date ↔
    statDay now - (days - 1) ≤ date ∧ ∃ s ∈ db.activity, statDay s.sampledAt = date := by
  rw [snapshotDays_dates,List.mem_dedup,List.mem_map]
  simp only [List.mem_filter,decide_eq_true_eq,statDayStart_le_iff,sqlStatDay_eq]
  constructor
  · rintro ⟨s,⟨hs,hle⟩,rfl⟩
    exact ⟨hle,s,hs,rfl⟩
  · rintro ⟨hle,s,hs,rfl⟩
    exact ⟨s,⟨hs,hle⟩,rfl⟩

theorem mem_playersDays_dates {date : ℤ} : date ∈ (playersDays now days db).map PlayersDay.date ↔
    statDay now - (days - 1) ≤ date ∧ ∃ p ∈ db.matchedPlayers.rows, p.date = date := by
  rw [playersDays_dates,List.mem_dedup,List.mem_map]
  simp only [List.mem_filter,decide_eq_true_eq]
  constructor
  · rintro ⟨p,⟨hp,hle⟩,rfl⟩
    exact ⟨hle,p,hp,rfl⟩
  · rintro ⟨hle,p,hp,rfl⟩
    exact ⟨p,⟨hp,hle⟩,rfl⟩

theorem summaryRows_eq : summaryRows now days db = sortedBy SummaryRow.date
    ((fullJoin SnapshotDay.date PlayersDay.date
      (snapshotDays now days db) (playersDays now days db)).map summaryRow) := rfl

theorem summaryRows_dates : ((summaryRows now days db).map SummaryRow.date).Perm
    ((snapshotDays now days db).map SnapshotDay.date ++
      ((playersDays now days db).map PlayersDay.date).filter fun k =>
        k ∉ (snapshotDays now days db).map SnapshotDay.date) := by
  have hkeys := fullJoin_keys SnapshotDay.date (snapshotDays now days db)
    (playersDays_dates now days db ▸ List.nodup_dedup _)
  have hdates := congrArg (List.map fun k : Option ℤ => k.getD 0) hkeys
  rw [List.map_map,List.map_map] at hdates
  rw [summaryRows_eq]
  refine ((sortedBy_perm _ _).map _).trans ?_
  rw [List.map_map]
  exact (hdates.trans (List.map_id _)).symm ▸ List.Perm.refl _

theorem nodup_summaryRows : ((summaryRows now days db).map SummaryRow.date).Nodup := by
  apply summaryRows_dates.nodup_iff.mpr
  apply List.Nodup.append
  · rw [snapshotDays_dates]
    exact List.nodup_dedup _
  · apply List.Nodup.filter
    rw [playersDays_dates]
    exact List.nodup_dedup _
  · intro k hk hk'
    exact of_decide_eq_true (List.mem_filter.mp hk').2 hk

theorem mem_summaryRows_dates {date : ℤ} : date ∈ (summaryRows now days db).map SummaryRow.date ↔
    statDay now - (days - 1) ≤ date ∧
      ((∃ s ∈ db.activity, statDay s.sampledAt = date) ∨ ∃ p ∈ db.matchedPlayers.rows, p.date = date) := by
  rw [summaryRows_dates.mem_iff,List.mem_append,List.mem_filter]
  simp only [decide_eq_true_eq,mem_snapshotDays_dates,mem_playersDays_dates]
  constructor
  · rintro (⟨hle,hs⟩ | ⟨⟨hle,hp⟩,_⟩)
    · exact ⟨hle,.inl hs⟩
    · exact ⟨hle,.inr hp⟩
  · rintro ⟨hle,hany⟩
    by_cases hs : ∃ s ∈ db.activity, statDay s.sampledAt = date
    · exact .inl ⟨hle,hs⟩
    · exact .inr ⟨⟨hle,hany.resolve_left hs⟩,fun h => hs h.2⟩

theorem summaryRows_ascending : ((summaryRows now days db).map SummaryRow.date).Pairwise (· < ·) := by
  have hsorted : ((summaryRows now days db).map SummaryRow.date).Pairwise (· ≤ ·) := by
    apply List.pairwise_map.mpr
    exact pairwise_sortedBy SummaryRow.date _
  exact ascending_of_nodup hsorted nodup_summaryRows

theorem mem_summaryRows {row : SummaryRow} (h : row ∈ summaryRows now days db) : row = summaryOf row.date
    (db.activity.filter fun s => statDay s.sampledAt = row.date)
    (db.matchedPlayers.rows.filter fun p => p.date = row.date) := by
  have hdate := (mem_summaryRows_dates.mp (List.mem_map_of_mem h)).1
  rw [summaryRows_eq,(sortedBy_perm _ _).mem_iff] at h
  obtain ⟨joined,hjoined,rfl⟩ := List.mem_map.mp h
  obtain ⟨k,hkey,_,hsamples,hplayers⟩ := mem_fullJoin
    (snapshotDays_dates now days db ▸ List.nodup_dedup _)
    (playersDays_dates now days db ▸ List.nodup_dedup _) hjoined
  rw [joinedKey_summaryRow hkey] at hdate ⊢
  unfold snapshotDays at hsamples
  unfold playersDays at hplayers
  rw [rowsOf_groupBy (f := snapshotDay) fun _ => rfl,rowsOf_samples hdate] at hsamples
  rw [rowsOf_groupBy (f := playersDay) fun _ => rfl,rowsOf_players hdate] at hplayers
  exact summaryRow_eq hkey hsamples hplayers

end

/-- Every module's day begins at one instant, and the summary has a row for each day that has anything to tell. -/
theorem one_day_boundary (now : ℤ) :
    Chat.dayStart now = statDayStart (statDay now) ∧
    Reservations.windowEnd now = Chat.dayStart now + day ∧
    Chat.dayStart now ≤ now ∧ now < Reservations.windowEnd now ∧
    (∀ column, sqlStatDay column = statDay column) ∧
    ∀ (isoformat : ℤ → String) (db : Tables) (days : ℕ), RecordedBy now db →
      ∃ rows : List SummaryRow,
        PostgresHistoryAdapter.getDailySummary isoformat now days db = rows.map (fun row =>
          ⟨isoformat row.date,row.peakPlayers,row.avgPlayers,row.peakRooms,row.uniquePlayers⟩) ∧
        (rows.map SummaryRow.date).Pairwise (· < ·) ∧
        (∀ date, date ∈ rows.map SummaryRow.date ↔ statDay now - days + 1 ≤ date ∧ date ≤ statDay now ∧
          ((∃ s ∈ db.activity, statDay s.sampledAt = date) ∨ ∃ p ∈ db.matchedPlayers.rows, p.date = date)) ∧
        ∀ row ∈ rows, row = summaryOf row.date (db.activity.filter fun s => statDay s.sampledAt = row.date)
          (db.matchedPlayers.rows.filter fun p => p.date = row.date) := by
  refine ⟨dayStart_eq now,windowEnd_eq now,Chat.dayStart_le now,lt_windowEnd now,sqlStatDay_eq,?_⟩
  intro isoformat db days hrecorded
  refine ⟨summaryRows now days db,rfl,summaryRows_ascending,?_,fun row => mem_summaryRows⟩
  intro date
  rw [mem_summaryRows_dates]
  constructor
  · rintro ⟨hle,hany⟩
    refine ⟨by omega,?_,hany⟩
    rcases hany with ⟨s,hs,rfl⟩ | ⟨p,hp,rfl⟩
    · exact statDay_mono (hrecorded.sample s hs)
    · rw [(hrecorded.player p hp).1]
      exact statDay_mono (hrecorded.player p hp).2
  · rintro ⟨hle,_,hany⟩
    exact ⟨by omega,hany⟩

/-- A sample just before 06:00 in Seoul, and a player just after it. -/
def aroundDawn : Tables := recordDailyMatchedPlayers ["lars"] (21 * hour)
  (recordActivitySnapshot ⟨21 * hour - 1,4,2,2,1⟩ (21 * hour) .empty)

theorem recordedBy_aroundDawn : RecordedBy (21 * hour) aroundDawn := by
  have hempty : RecordedBy (21 * hour) .empty := ⟨(fun _ h => by cases h),(fun _ h => by cases h)⟩
  exact (hempty.activity (by decide)).players (le_refl _) ["lars"]

/-- The first days of 1970 as they are written out. -/
def earlyDate (date : ℤ) : String := "1970-01-0" ++ toString (date + 1)

theorem one_day_boundary_aroundDawn : ∃ rows : List SummaryRow,
    PostgresHistoryAdapter.getDailySummary earlyDate (21 * hour) 2 aroundDawn = rows.map (fun row =>
      ⟨earlyDate row.date,row.peakPlayers,row.avgPlayers,row.peakRooms,row.uniquePlayers⟩) ∧
    (rows.map SummaryRow.date).Pairwise (· < ·) := by
  obtain ⟨_,_,_,_,_,hsummary⟩ := one_day_boundary (21 * hour)
  obtain ⟨rows,hrows,hascending,_⟩ := hsummary earlyDate aroundDawn 2 recordedBy_aroundDawn
  exact ⟨rows,hrows,hascending⟩

end Tag2now.History
