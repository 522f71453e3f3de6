import Mathlib.Algebra.Order.BigOperators.Group.List
import Tag2now.History.Hours

/-! # Hourly activity and the samples behind it

The hours and the days are measured on the same samples. Every recording deletes the samples
of more than 90 days ago, which none of the reads looks back to.
-/
namespace Tag2now.History
open Collections

/-- The hour of the clock in Seoul a sample was taken in. -/
def sampledHour (s : ActivitySnapshotRow) : ℕ := extractHour (seoulTimestamp s.sampledAt)

def hourlyActivity (group : ℕ × List ActivitySnapshotRow) : HourlyActivity where
  hour := group.1
  avgPlayers := (avg (group.2.map (·.totalPlayers))).getD 0
  peakPlayers := (group.2.map (·.totalPlayers)).max?.getD 0

/-- The hours of the clock from the statistics day's own start hour. -/
def listedHours : List ℕ := (List.range 24).map fun offset => ((statDayStartHour + offset) % 24).toNat

def sampledSince (since : ℤ) (db : Tables) : List ActivitySnapshotRow :=
  db.activity.filter fun s => since ≤ s.sampledAt

namespace PostgresHistoryAdapter

def getHourlyActivity (now : ℤ) (days : ℕ) (db : Tables) : List HourlyActivity :=
  let result := (groupBy sampledHour (sampledSince (now - days * day) db)).map hourlyActivity
  listedHours.map fun h => (result.find? fun row => row.hour = h).getD ⟨h,0,0⟩

end PostgresHistoryAdapter

/-! ## One row -/

theorem hourlyActivity_nil (h : ℕ) : hourlyActivity (h,[]) = ⟨h,0,0⟩ := by
  simp [hourlyActivity,avg]

theorem find_hourlyActivity (samples : List ActivitySnapshotRow) (h : ℕ) :
    (((groupBy sampledHour samples).map hourlyActivity).find? fun row => row.hour = h).getD ⟨h,0,0⟩ =
      hourlyActivity (h,rowsOf sampledHour samples h) := by
  cases hfound : ((groupBy sampledHour samples).map hourlyActivity).find? fun row => row.hour = h with
  | some row =>
    obtain ⟨group,hgroup,rfl⟩ := List.mem_map.mp (List.mem_of_find?_eq_some hfound)
    have hheld := List.find?_some hfound
    have hhour : group.1 = h := of_decide_eq_true hheld
    obtain ⟨-,hrows⟩ := mem_groupBy.mp hgroup
    rw [← hhour,← hrows]
    rfl
  | none =>
    have hnone : rowsOf sampledHour samples h = [] := by
      apply List.filter_eq_nil_iff.mpr
      intro s hs hhour
      have hgroup : (h,rowsOf sampledHour samples h) ∈ groupBy sampledHour samples :=
        mem_groupBy.mpr ⟨⟨s,hs,of_decide_eq_true hhour⟩,rfl⟩
      exact List.find?_eq_none.mp hfound _ (List.mem_map_of_mem hgroup) (by simp [hourlyActivity])
    rw [hnone,hourlyActivity_nil,Option.getD_none]

theorem getHourlyActivity_eq (now : ℤ) (days : ℕ) (db : Tables) :
    PostgresHistoryAdapter.getHourlyActivity now days db =
      listedHours.map fun h => hourlyActivity (h,rowsOf sampledHour (sampledSince (now - days * day) db) h) := by
  unfold PostgresHistoryAdapter.getHourlyActivity
  apply List.map_congr_left
  intro h _
  exact find_hourlyActivity _ h

theorem roundTenth_le {q : ℚ} {n : ℕ} (h : q ≤ n) : roundTenth q ≤ n := by
  have hfloor : ⌊q * 10 + 1 / 2⌋ ≤ (n : ℤ) * 10 := by
    apply Int.lt_add_one_iff.mp
    apply Int.floor_lt.mpr
    push_cast
    linarith
  have hcast : (⌊q * 10 + 1 / 2⌋ : ℚ) ≤ n * 10 := by exact_mod_cast hfloor
  unfold roundTenth
  linarith

theorem avg_le_max (column : List ℕ) : (avg column).getD 0 ≤ (column.max?.getD 0 : ℕ) := by
  unfold avg
  split
  · simp
  · rename_i hne
    obtain ⟨m,hm⟩ : ∃ m, column.max? = some m := Option.ne_none_iff_exists'.mp (by simpa using hne)
    have hall : ∀ n ∈ column, n ≤ m := (List.max?_eq_some_iff.mp hm).2
    have hsum : column.sum ≤ column.length * m := by simpa using List.sum_le_card_nsmul column m hall
    have hpos : (0 : ℚ) < column.length := by
      exact_mod_cast List.length_pos_iff.mpr hne
    rw [hm,Option.getD_some,Option.getD_some]
    apply roundTenth_le
    rw [div_le_iff₀ hpos,mul_comm]
    exact_mod_cast hsum

theorem mem_listedHours {h : ℕ} (hh : h < 24) : h ∈ listedHours := by
  have hall : ∀ h < 24, h ∈ listedHours := by decide
  exact hall h hh

theorem sampledHour_lt (s : ActivitySnapshotRow) : sampledHour s < 24 := by
  simp only [sampledHour,extractHour,day,hour,minute,second]
  omega

/-- The last days of the clock begin before the statistics day they reach into, and after it has begun. -/
theorem statDayStart_window (now : ℤ) (days : ℕ) :
    now - days * day ≤ statDayStart (statDay now - (days - 1)) ∧
      statDayStart (statDay now - ((days + 1 : ℕ) - 1)) ≤ now - days * day := by
  have hstart : statDayStart (statDay now) ≤ now := statDayStart_le_iff.mpr (le_refl _)
  have hnext : ¬ statDayStart (statDay now + 1) ≤ now := by
    rw [statDayStart_le_iff]
    omega
  simp only [statDayStart,day,hour,minute,second] at *
  push_cast
  omega

section
variable {now : ℤ} {days : ℕ} {db : Tables}

/-- The peak of an hour is that of a sample taken in it, unless there is none. -/
theorem peak_sampled {samples : List ActivitySnapshotRow} {h : ℕ} :
    (hourlyActivity (h,rowsOf sampledHour samples h)).peakPlayers = 0 ∨
      ∃ s ∈ samples, (hourlyActivity (h,rowsOf sampledHour samples h)).peakPlayers = s.totalPlayers := by
  unfold hourlyActivity
  dsimp only
  cases hpeak : ((rowsOf sampledHour samples h).map (·.totalPlayers)).max? with
  | none => exact .inl rfl
  | some p =>
    obtain ⟨s,hs,hp⟩ := List.mem_map.mp (List.max?_eq_some_iff.mp hpeak).1
    exact .inr ⟨s,(List.mem_filter.mp hs).1,hp.symm⟩

theorem le_peak {s : ActivitySnapshotRow} (hs : s ∈ db.activity) (hsince : now - days * day ≤ s.sampledAt) :
    ∃ row ∈ PostgresHistoryAdapter.getHourlyActivity now days db, s.totalPlayers ≤ row.peakPlayers := by
  rw [getHourlyActivity_eq]
  refine ⟨_,List.mem_map_of_mem (mem_listedHours (sampledHour_lt s)),?_⟩
  have hmem : s.totalPlayers ∈
      (rowsOf sampledHour (sampledSince (now - days * day) db) (sampledHour s)).map (·.totalPlayers) := by
    apply List.mem_map_of_mem
    simpa [rowsOf,sampledSince,hs] using hsince
  unfold hourlyActivity
  dsimp only
  obtain ⟨m,hm⟩ := Option.isSome_iff_exists.mp (List.isSome_max?_of_mem hmem)
  rw [hm,Option.getD_some]
  exact (List.max?_eq_some_iff.mp hm).2 _ hmem

theorem le_dayPeak {s : ActivitySnapshotRow} (hs : s ∈ db.activity)
    (hsince : statDayStart (statDay now - (days - 1)) ≤ s.sampledAt) :
    ∃ row ∈ summaryRows now days db, ∃ p ∈ row.peakPlayers, s.totalPlayers ≤ p := by
  have hdate : statDay s.sampledAt ∈ (summaryRows now days db).map SummaryRow.date :=
    mem_summaryRows_dates.mpr ⟨statDayStart_le_iff.mp hsince,.inl ⟨s,hs,rfl⟩⟩
  obtain ⟨row,hrow,hsame⟩ := List.mem_map.mp hdate
  have hpeak : row.peakPlayers =
      ((db.activity.filter fun s => statDay s.sampledAt = row.date).map (·.totalPlayers)).max? :=
    congrArg SummaryRow.peakPlayers (mem_summaryRows hrow)
  have hmem : s.totalPlayers ∈
      (db.activity.filter fun s => statDay s.sampledAt = row.date).map (·.totalPlayers) := by
    apply List.mem_map_of_mem
    simp [hs,hsame]
  obtain ⟨m,hm⟩ := Option.isSome_iff_exists.mp (List.isSome_max?_of_mem hmem)
  exact ⟨row,hrow,m,hpeak.trans hm,(List.max?_eq_some_iff.mp hm).2 _ hmem⟩

end

/-- Every hour of the clock is listed once, measured on its samples, and the hours' peaks are those of the days. -/
theorem hourly_activity (now : ℤ) (days : ℕ) (db : Tables) :
    (PostgresHistoryAdapter.getHourlyActivity now days db).map (·.hour) =
      [6,7,8,9,10,11,12,13,14,15,16,17,18,19,20,21,22,23,0,1,2,3,4,5] ∧
    (∀ row ∈ PostgresHistoryAdapter.getHourlyActivity now days db,
      row = hourlyActivity (row.hour,
        db.activity.filter fun s => sampledHour s = row.hour ∧ now - days * day ≤ s.sampledAt) ∧
      row.avgPlayers ≤ row.peakPlayers) ∧
    (∀ row ∈ summaryRows now days db, ∀ p ∈ row.peakPlayers,
      ∃ hourRow ∈ PostgresHistoryAdapter.getHourlyActivity now days db, p ≤ hourRow.peakPlayers) ∧
    ∀ hourRow ∈ PostgresHistoryAdapter.getHourlyActivity now days db, hourRow.peakPlayers = 0 ∨
      ∃ row ∈ summaryRows now (days + 1) db, ∃ p ∈ row.peakPlayers, hourRow.peakPlayers ≤ p := by
  obtain ⟨hbefore,hbehind⟩ := statDayStart_window now days
  refine ⟨?_,?_,?_,?_⟩
  · rw [getHourlyActivity_eq,List.map_map]
    rfl
  · intro row hrow
    rw [getHourlyActivity_eq] at hrow
    obtain ⟨h,-,rfl⟩ := List.mem_map.mp hrow
    refine ⟨?_,avg_le_max _⟩
    simp only [rowsOf,sampledSince,List.filter_filter,Bool.decide_and,hourlyActivity]
  · intro row hrow p hp
    rw [mem_summaryRows hrow] at hp
    obtain ⟨s,hs,rfl⟩ := List.mem_map.mp (List.max?_eq_some_iff.mp hp).1
    obtain ⟨hs,hdate⟩ := List.mem_filter.mp hs
    have hfrom := (mem_summaryRows_dates.mp (List.mem_map_of_mem hrow)).1
    rw [← of_decide_eq_true hdate] at hfrom
    exact le_peak hs (hbefore.trans (statDayStart_le_iff.mpr hfrom))
  · intro hourRow hrow
    rw [getHourlyActivity_eq] at hrow
    obtain ⟨h,-,rfl⟩ := List.mem_map.mp hrow
    apply peak_sampled.imp_right
    rintro ⟨s,hs,hpeak⟩
    obtain ⟨hs,hsince⟩ := List.mem_filter.mp hs
    rw [hpeak]
    exact le_dayPeak hs (hbehind.trans (of_decide_eq_true hsince))

/-! ## Retention -/

/-- The database behind writes made by now, and the samples of all of them. -/
inductive Recorded (now : ℤ) : Tables → List ActivitySnapshotRow → Prop
  | start : Recorded now .empty []
  | players {db : Tables} {samples : List ActivitySnapshotRow} (npids : List String) (observedAt : ℤ) :
      Recorded now db samples → Recorded now (recordDailyMatchedPlayers npids observedAt db) samples
  | activity {db : Tables} {samples : List ActivitySnapshotRow} (snapshot : ActivitySnapshotRow) {clock : ℤ} :
      clock ≤ now → Recorded now db samples →
        Recorded now (recordActivitySnapshot snapshot clock db) (samples ++ [snapshot])
  | snapshot {db : Tables} {samples : List ActivitySnapshotRow} (rooms : List RankMatchSnapshotRecord) :
      Recorded now db samples → Recorded now (recordSnapshot rooms db) samples
  | touch {db : Tables} {samples : List ActivitySnapshotRow} (rooms : List RankMatchSnapshotRecord)
      (observedAt : ℤ) : Recorded now db samples → Recorded now (touchRankMatches rooms observedAt db) samples

theorem recordSnapshot_activity (rooms : List RankMatchSnapshotRecord) (db : Tables) :
    (recordSnapshot rooms db).activity = db.activity := by
  induction rooms generalizing db with
  | nil => rfl
  | cons room rooms ih => exact ih (insertRoom db room)

/-- Nothing of the last 90 days is missing. -/
theorem Recorded.kept {now since : ℤ} {db : Tables} {samples : List ActivitySnapshotRow}
    (h : Recorded now db samples) (hsince : now - activityRetention ≤ since) :
    sampledSince since db = samples.filter fun s => since ≤ s.sampledAt := by
  induction h with
  | start => rfl
  | players npids observedAt _ ih => exact ih
  | snapshot rooms _ ih =>
    unfold sampledSince at ih ⊢
    rw [recordSnapshot_activity,ih]
  | touch rooms observedAt _ ih => exact ih
  | @activity db samples snapshot clock hclock _ ih =>
    have hkept : sampledSince since (recordActivitySnapshot snapshot clock db) =
        (db.activity ++ [snapshot]).filter fun s => since ≤ s.sampledAt := by
      unfold sampledSince recordActivitySnapshot
      rw [List.filter_filter]
      apply List.filter_congr
      intro s _
      rw [← Bool.decide_and,decide_eq_decide]
      omega
    unfold sampledSince at ih
    rw [hkept,List.filter_append,List.filter_append,ih]

/-- No read that looks back 90 days or less tells whether samples were ever deleted. -/
theorem retention_unseen {now : ℤ} {db : Tables} {samples : List ActivitySnapshotRow} (h : Recorded now db samples)
    {days : ℕ} (hdays : days ≤ 90) (isoformat : ℤ → String) :
    PostgresHistoryAdapter.getHourlyActivity now days db =
      PostgresHistoryAdapter.getHourlyActivity now days { db with activity := samples } ∧
    PostgresHistoryAdapter.getDailySummary isoformat now days db =
      PostgresHistoryAdapter.getDailySummary isoformat now days { db with activity := samples } := by
  have hretention : now - activityRetention ≤ now - days * day := by
    simp only [activityRetention,day,hour,minute,second]
    omega
  constructor
  · rw [getHourlyActivity_eq,getHourlyActivity_eq,h.kept hretention]
    rfl
  · have hkept := h.kept (hretention.trans (statDayStart_window now days).1)
    unfold sampledSince at hkept
    unfold PostgresHistoryAdapter.getDailySummary summaryRows
    dsimp only
    rw [hkept]

/-- The first sample was deleted when the second one was recorded. -/
theorem retention_unseen_quarter : ∃ db samples, db.activity.length = 1 ∧ samples.length = 2 ∧
    PostgresHistoryAdapter.getHourlyActivity (92 * day) 90 db =
      PostgresHistoryAdapter.getHourlyActivity (92 * day) 90 { db with activity := samples } := by
  have hfirst : Recorded (92 * day) (recordActivitySnapshot ⟨0,4,2,2,1⟩ 0 .empty) [⟨0,4,2,2,1⟩] :=
    .activity _ (by decide) .start
  have hrun : Recorded (92 * day) (recordActivitySnapshot ⟨91 * day,3,1,2,1⟩ (91 * day)
      (recordActivitySnapshot ⟨0,4,2,2,1⟩ 0 .empty)) ([⟨0,4,2,2,1⟩] ++ [⟨91 * day,3,1,2,1⟩]) :=
    .activity _ (by decide) hfirst
  exact ⟨_,_,by decide,rfl,(retention_unseen hrun (le_refl 90) earlyDate).1⟩

end Tag2now.History
