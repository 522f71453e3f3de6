import Mathlib.Data.Finset.Card
import Tag2now.History.Activity
import Tag2now.History.Collector

/-! # What the statistics count

From the rooms of the collector's cycles, any of which may fail at any write, to the days that
are answered. A player is counted once a day, however many cycles saw them.
-/
namespace Tag2now.History
open Collections ReadCommitted Matching

namespace Cycle
variable (c : Cycle)

def players : List String := (activityObservation c.rooms).rankPlayerNpids

def sample : ActivitySnapshotRow :=
  let o := activityObservation c.rooms
  ⟨c.observedAt,o.totalPlayers,o.totalRooms,o.rankPlayers,o.rankRooms⟩

/-- All of its players are in the table after it. -/
def WrotePlayers : Prop := ∀ npid ∈ c.players, c.after.tables.matchedPlayers.get? (statDay c.observedAt,npid) ≠ none

/-- It counted this player on this day. -/
def Counts (date : ℤ) (npid : String) : Prop := c.WrotePlayers ∧ statDay c.observedAt = date ∧ npid ∈ c.players

end Cycle

/-- All cycles of a collector, restarted at will, whether they succeeded or not. -/
inductive Cycles : Collector → List Cycle → Prop
  | start : Cycles ⟨Tables.empty,[]⟩ []
  | restart {s : Collector} {history : List Cycle} : Cycles s history →
      Cycles { s with prevRankMatchIds := [] } history
  | cycle {s s' : Collector} {history : List Cycle} {rooms : List RoomInfoDTO} {observedAt : ℤ} {ok : Bool} :
      Cycles s history → CollectOnce s rooms observedAt s' ok → Cycles s' (⟨s,rooms,observedAt,s'⟩ :: history)

/-! ## One cycle -/
section
variable {db db' : Tables} {rooms : List RoomInfoDTO} {observedAt : ℤ} {s s' : Collector} {ok : Bool}

theorem get?_insert_ne_none {α κ : Type} [DecidableEq κ] {key : α → κ} {t : Table key} {a : α} {k : κ} :
    (t.insert a).get? k ≠ none ↔ t.get? k ≠ none ∨ key a = k := by
  cases hfree : t.get? (key a) with
  | none =>
    rw [Table.get?_insert hfree]
    by_cases hk : k = key a
    · simp [hk]
    · simp [hk,Ne.symm hk]
  | some row =>
    have hmem : key a ∈ t.rows.map key := by
      rw [← Table.key_of_get? hfree]
      exact List.mem_map_of_mem (Table.mem_of_get? hfree)
    have hsame : t.insert a = t := dif_pos hmem
    rw [hsame]
    constructor
    · exact .inl
    · rintro (hthere | rfl)
      · exact hthere
      · simp [hfree]

/-- A player's row of a day is there, or is written now. -/
theorem get?_recordDailyMatchedPlayers (npids : List String) (date : ℤ) (npid : String) :
    (recordDailyMatchedPlayers npids observedAt db).matchedPlayers.get? (date,npid) ≠ none ↔
      db.matchedPlayers.get? (date,npid) ≠ none ∨ statDay observedAt = date ∧ npid ∈ npids ∧ npid ≠ "" := by
  unfold recordDailyMatchedPlayers
  dsimp only
  have hmem : npid ∈ npids ∧ npid ≠ "" ↔ npid ∈ npids.filter fun npid => npid ≠ "" := by simp
  rw [hmem]
  generalize npids.filter (fun npid => npid ≠ "") = written
  generalize db.matchedPlayers = t
  induction written generalizing t with
  | nil => simp
  | cons first written ih =>
    have hrest := ih (t.insert ⟨statDay observedAt,first,observedAt⟩)
    have hkey : DailyMatchedPlayerRow.key ⟨statDay observedAt,first,observedAt⟩ = (date,npid) ↔
        statDay observedAt = date ∧ npid = first := by
      simp [DailyMatchedPlayerRow.key,eq_comm]
    refine hrest.trans ?_
    rw [get?_insert_ne_none,hkey,List.mem_cons]
    tauto

theorem mem_players_ne {c : Cycle} {npid : String} (h : npid ∈ c.players) : npid ≠ "" := by
  unfold Cycle.players activityObservation at h
  simpa using (List.mem_filter.mp h).2

theorem recordSnapshot_matchedPlayers (rooms : List RankMatchSnapshotRecord) (db : Tables) :
    (recordSnapshot rooms db).matchedPlayers = db.matchedPlayers := by
  induction rooms generalizing db with
  | nil => rfl
  | cons room rooms ih => exact ih (insertRoom db room)

/-- The players are recorded, or the table is left alone; and if the cycle goes on, they are there. -/
theorem recordPlayers_writes (h : recordPlayers s rooms observedAt db ok) :
    db.activity = s.tables.activity ∧
      (db.matchedPlayers = s.tables.matchedPlayers ∨ db.matchedPlayers =
        (recordDailyMatchedPlayers (activityObservation rooms).rankPlayerNpids observedAt s.tables).matchedPlayers) ∧
      (ok = true → ∀ npid ∈ (activityObservation rooms).rankPlayerNpids, npid ≠ "" →
        db.matchedPlayers.get? (statDay observedAt,npid) ≠ none) := by
  cases h with
  | skipped hnone => exact ⟨rfl,.inl rfl,fun _ npid hnpid hne => absurd ⟨npid,hnpid,hne⟩ hnone⟩
  | done =>
    exact ⟨rfl,.inr rfl,fun _ npid hnpid hne => (get?_recordDailyMatchedPlayers _ _ _).mpr (.inr ⟨rfl,hnpid,hne⟩)⟩
  | failed => exact ⟨rfl,.inl rfl,fun h => by cases h⟩
  | lost => exact ⟨rfl,.inr rfl,fun h => by cases h⟩

/-- What a cycle does to the two tables that the days are counted from. -/
structure Wrote (c : Cycle) (ok : Bool) : Prop where
  players : c.after.tables.matchedPlayers = c.before.tables.matchedPlayers ∨ c.after.tables.matchedPlayers =
    (recordDailyMatchedPlayers c.players c.observedAt c.before.tables).matchedPlayers
  all : ok = true → c.WrotePlayers
  samples : ∀ x ∈ c.after.tables.activity, x ∈ c.before.tables.activity ∨ x = c.sample

theorem recordActivity_writes (h : recordActivity rooms observedAt db db' ok) :
    db'.matchedPlayers = db.matchedPlayers ∧
      ∀ x ∈ db'.activity, x ∈ db.activity ∨ x = (⟨s,rooms,observedAt,s⟩ : Cycle).sample := by
  obtain ⟨now,h⟩ := h
  have hwritten {snapshot x : ActivitySnapshotRow} (hx : x ∈ (recordActivitySnapshot snapshot now db).activity) :
      x ∈ db.activity ∨ x = snapshot := by
    simpa using (List.mem_filter.mp hx).1
  cases h with
  | skipped => exact ⟨rfl,fun x hx => .inl hx⟩
  | done => exact ⟨rfl,fun x hx => hwritten hx⟩
  | failed => exact ⟨rfl,fun x hx => .inl hx⟩
  | lost => exact ⟨rfl,fun x hx => hwritten hx⟩

theorem recordNewRankMatches_same (h : recordNewRankMatches s rooms observedAt db db' ok) :
    db'.matchedPlayers = db.matchedPlayers ∧ db'.activity = db.activity := by
  cases h with
  | skipped => exact ⟨rfl,rfl⟩
  | done => exact ⟨recordSnapshot_matchedPlayers _ _,recordSnapshot_activity _ _⟩
  | failed => exact ⟨rfl,rfl⟩
  | lost => exact ⟨recordSnapshot_matchedPlayers _ _,recordSnapshot_activity _ _⟩

theorem touchSightings_same (h : touchSightings rooms observedAt db db' ok) :
    db'.matchedPlayers = db.matchedPlayers ∧ db'.activity = db.activity := by
  cases h <;> exact ⟨rfl,rfl⟩

theorem CollectOnce.wrote (h : CollectOnce s rooms observedAt s' ok) : Wrote ⟨s,rooms,observedAt,s'⟩ ok := by
  cases h with
  | unobserved => exact ⟨.inl rfl,(fun h => by cases h),fun x hx => .inl hx⟩
  | players hplayers =>
    obtain ⟨hactivity,hwritten,-⟩ := recordPlayers_writes hplayers
    exact ⟨hwritten,(fun h => by cases h),fun x hx => .inl (hactivity ▸ hx)⟩
  | activity hplayers hactivity =>
    obtain ⟨hsame,hwritten,-⟩ := recordPlayers_writes hplayers
    obtain ⟨hkept,hsamples⟩ := recordActivity_writes (s := s) hactivity
    exact ⟨hkept ▸ hwritten,(fun h => by cases h),fun x hx => (hsamples x hx).imp_left fun hx => hsame ▸ hx⟩
  | matches_ hplayers hactivity hmatches =>
    obtain ⟨hsame,hwritten,-⟩ := recordPlayers_writes hplayers
    obtain ⟨hkept,hsamples⟩ := recordActivity_writes (s := s) hactivity
    obtain ⟨hkept',hsame'⟩ := recordNewRankMatches_same hmatches
    exact ⟨(hkept'.trans hkept) ▸ hwritten,(fun h => by cases h),
      fun x hx => (hsamples x (hsame' ▸ hx)).imp_left fun hx => hsame ▸ hx⟩
  | touched hplayers hactivity hmatches htouch =>
    obtain ⟨hsame,hwritten,hall⟩ := recordPlayers_writes hplayers
    obtain ⟨hkept,hsamples⟩ := recordActivity_writes (s := s) hactivity
    obtain ⟨hkept₁,hsame₁⟩ := recordNewRankMatches_same hmatches
    obtain ⟨hkept₂,hsame₂⟩ := touchSightings_same htouch
    have htable := (hkept₂.trans hkept₁).trans hkept
    refine ⟨htable ▸ hwritten,?_,?_⟩
    · intro _ npid hnpid
      have hthere := hall rfl npid hnpid (mem_players_ne hnpid)
      rw [← htable] at hthere
      exact hthere
    · exact fun x hx => (hsamples x (hsame₁ ▸ hsame₂ ▸ hx)).imp_left fun hx => hsame ▸ hx

end

/-! ## Every run -/

structure Seen (s : Collector) (history : List Cycle) : Prop where
  players : ∀ date npid, s.tables.matchedPlayers.get? (date,npid) ≠ none ↔ ∃ c ∈ history, c.Counts date npid
  samples : ∀ x ∈ s.tables.activity, ∃ c ∈ history, x = c.sample

theorem Seen.cycle {s s' : Collector} {history : List Cycle} {rooms : List RoomInfoDTO} {observedAt : ℤ} {ok : Bool}
    (h : Seen s history) (hcycle : CollectOnce s rooms observedAt s' ok) :
    Seen s' (⟨s,rooms,observedAt,s'⟩ :: history) := by
  have hwrote := hcycle.wrote
  refine ⟨fun date npid => ?_,fun x hx => ?_⟩
  · have hnow : s'.tables.matchedPlayers.get? (date,npid) ≠ none ↔
        s.tables.matchedPlayers.get? (date,npid) ≠ none ∨ (⟨s,rooms,observedAt,s'⟩ : Cycle).Counts date npid := by
      rcases hwrote.players with hsame | hrecorded
      · dsimp only at hsame
        rw [hsame]
        refine ⟨.inl,?_⟩
        rintro (hthere | ⟨hall,rfl,hnpid⟩)
        · exact hthere
        · exact hsame ▸ hall npid hnpid
      · dsimp only at hrecorded
        have hall (date : ℤ) (npid : String) : (recordDailyMatchedPlayers (⟨s,rooms,observedAt,s'⟩ : Cycle).players
            observedAt s.tables).matchedPlayers.get? (date,npid) ≠ none ↔ _ :=
          get?_recordDailyMatchedPlayers _ date npid
        rw [← hrecorded] at hall
        have hwrites : (⟨s,rooms,observedAt,s'⟩ : Cycle).WrotePlayers :=
          fun n hn => (hall _ n).mpr (.inr ⟨rfl,hn,mem_players_ne hn⟩)
        rw [hall]
        constructor
        · rintro (hthere | ⟨hdate,hnpid,-⟩)
          · exact .inl hthere
          · exact .inr ⟨hwrites,hdate,hnpid⟩
        · rintro (hthere | ⟨-,hdate,hnpid⟩)
          · exact .inl hthere
          · exact .inr ⟨hdate,hnpid,mem_players_ne hnpid⟩
    rw [hnow,h.players]
    simp [or_comm]
  · rcases hwrote.samples x hx with hold | rfl
    · obtain ⟨c,hc,rfl⟩ := h.samples x hold
      exact ⟨c,List.mem_cons_of_mem _ hc,rfl⟩
    · exact ⟨_,List.mem_cons_self,rfl⟩

theorem Cycles.seen {s : Collector} {history : List Cycle} (h : Cycles s history) : Seen s history := by
  induction h with
  | start => exact ⟨(fun date npid => by simp [Tables.empty]),fun x hx => by cases hx⟩
  | restart _ ih => exact ⟨ih.players,ih.samples⟩
  | cycle _ hcycle ih => exact ih.cycle hcycle

/-- The rows of a day are as many as the players that were counted on it. -/
theorem Seen.unique {s : Collector} {history : List Cycle} (h : Seen s history) {date : ℤ} {names : Finset String}
    (hnames : ∀ npid, npid ∈ names ↔ ∃ c ∈ history, c.Counts date npid) :
    (s.tables.matchedPlayers.rows.filter fun p => p.date = date).length = names.card := by
  have hkeys : ((s.tables.matchedPlayers.rows.filter fun p => p.date = date).map DailyMatchedPlayerRow.key).Nodup :=
    s.tables.matchedPlayers.nodup.sublist (List.filter_sublist.map DailyMatchedPlayerRow.key)
  have hpairs : (s.tables.matchedPlayers.rows.filter fun p => p.date = date).map DailyMatchedPlayerRow.key =
      ((s.tables.matchedPlayers.rows.filter fun p => p.date = date).map DailyMatchedPlayerRow.npid).map
        fun npid => (date,npid) := by
    rw [List.map_map]
    apply List.map_congr_left
    intro p hp
    have hdate : p.date = date := of_decide_eq_true (List.mem_filter.mp hp).2
    simp [DailyMatchedPlayerRow.key,hdate]
  rw [hpairs] at hkeys
  have hmem : names = ((s.tables.matchedPlayers.rows.filter fun p => p.date = date).map
      DailyMatchedPlayerRow.npid).toFinset := by
    ext npid
    rw [hnames,← h.players,ne_eq,Table.get?_eq_none_iff]
    simp [DailyMatchedPlayerRow.key,and_assoc]
  rw [hmem,List.toFinset_card_of_nodup hkeys.of_map,List.length_map]

/-- What the days say: who was counted, and the largest counts that were sampled. -/
structure Told (history : List Cycle) (row : SummaryRow) : Prop where
  unique : ∀ names : Finset String, (∀ npid, npid ∈ names ↔ ∃ c ∈ history, c.Counts row.date npid) →
    row.uniquePlayers = names.card
  peak : ∀ n, row.peakPlayers = some n → ∃ c ∈ history, statDay c.observedAt = row.date ∧ n = c.sample.totalPlayers
  peakRooms : ∀ n, row.peakRooms = some n → ∃ c ∈ history, statDay c.observedAt = row.date ∧ n = c.rooms.length

theorem Seen.told {s : Collector} {history : List Cycle} (h : Seen s history) {now : ℤ} {days : ℕ} {row : SummaryRow}
    (hrow : row ∈ summaryRows now days s.tables) : Told history row := by
  have hsummary := mem_summaryRows hrow
  have hsampled {column : ActivitySnapshotRow → ℕ} {n : ℕ}
      (hn : ((s.tables.activity.filter fun x => statDay x.sampledAt = row.date).map column).max? = some n) :
      ∃ c ∈ history, statDay c.observedAt = row.date ∧ n = column c.sample := by
    obtain ⟨x,hx,rfl⟩ := List.mem_map.mp (List.max?_eq_some_iff.mp hn).1
    obtain ⟨hmem,hdate⟩ := List.mem_filter.mp hx
    obtain ⟨c,hc,rfl⟩ := h.samples x hmem
    exact ⟨c,hc,of_decide_eq_true hdate,rfl⟩
  refine ⟨?_,?_,?_⟩
  · intro names hnames
    rw [hsummary]
    exact h.unique hnames
  · intro n hn
    rw [hsummary] at hn
    exact hsampled hn
  · intro n hn
    rw [hsummary] at hn
    exact hsampled hn

/-- A day with a player counted on it is among the days answered, if these reach back to it. -/
theorem Seen.answered {s : Collector} {history : List Cycle} (h : Seen s history) {now : ℤ} {days : ℕ} {date : ℤ}
    {npid : String} (hdate : statDay now - (days - 1) ≤ date) (hcounts : ∃ c ∈ history, c.Counts date npid) :
    ∃ row ∈ summaryRows now days s.tables, row.date = date := by
  obtain ⟨p,hp⟩ := Option.ne_none_iff_exists'.mp ((h.players date npid).mpr hcounts)
  have hkey := Table.key_of_get? hp
  have hday : p.date = date := (Prod.mk.inj hkey).1
  exact List.mem_map.mp (mem_summaryRows_dates.mpr ⟨hdate,.inr ⟨p,Table.mem_of_get? hp,hday⟩⟩)

/-- The days answered count exactly the different players of the cycles that wrote them, whichever cycles failed and
where, and each cycle that succeeds writes its players; the peaks are counts that a cycle of that day has seen. -/
theorem statistics_seen {s : Collector} {history : List Cycle} (h : Cycles s history) (now : ℤ) (days : ℕ) :
    (∀ row ∈ summaryRows now days s.tables, Told history row) ∧
    (∀ date npid, statDay now - (days - 1) ≤ date → (∃ c ∈ history, c.Counts date npid) →
      ∃ row ∈ summaryRows now days s.tables, row.date = date) ∧
    (∀ rooms observedAt s', CollectOnce s rooms observedAt s' true → (⟨s,rooms,observedAt,s'⟩ : Cycle).WrotePlayers) :=
  ⟨fun _ hrow => h.seen.told hrow,fun _ _ hdate hcounts => h.seen.answered hdate hcounts,
    fun _ _ _ hcycle => hcycle.wrote.all rfl⟩

/-! Alice and Bob in one room, seen once. -/

def onlyBob : Cycle := ⟨⟨Tables.empty,[]⟩,[roomOf 5 "alice" "bob"],0,sawBob⟩

theorem statistics_seen_bob : ∃ row ∈ summaryRows 0 1 sawBob.tables, row.uniquePlayers = 2 := by
  have hcycles : Cycles sawBob [onlyBob] := .cycle .start (collectOnce_collected _ _ _ _)
  have hwrote : onlyBob.WrotePlayers := (statistics_seen .start 0 1).2.2 _ _ _ (collectOnce_collected _ _ _ _)
  obtain ⟨htold,hanswered,-⟩ := statistics_seen hcycles 0 1
  have hplayers (npid : String) : npid ∈ onlyBob.players ↔ npid ∈ ({"alice","bob"} : Finset String) := by
    simp [onlyBob,Cycle.players,activityObservation,rankRooms,roomOf,RoomInfoDTO.roomType]
  have hday : statDay onlyBob.observedAt = 0 := by decide
  obtain ⟨row,hrow,hdate⟩ := hanswered 0 "alice" (by decide)
    ⟨onlyBob,List.mem_singleton_self _,hwrote,hday,(hplayers "alice").mpr (by simp)⟩
  refine ⟨row,hrow,?_⟩
  rw [(htold row hrow).unique {"alice","bob"} ?_]
  · rfl
  · intro npid
    rw [hdate,← hplayers]
    constructor
    · exact fun hnpid => ⟨onlyBob,List.mem_singleton_self _,hwrote,hday,hnpid⟩
    · rintro ⟨c,hc,-,-,hnpid⟩
      exact List.mem_singleton.mp hc ▸ hnpid

end Tag2now.History
