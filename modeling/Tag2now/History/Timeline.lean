import Mathlib.Logic.Relation
import Tag2now.History.RankRoom

/-! # A room keeps its members

The databases of the history one after another, write by write. A row stays under its id
and keeps its meeting, so an id names the same two players in whichever of these databases
the lookup finds it.
-/
namespace Tag2now.History
open Relation

/-- One write, committed. -/
inductive Write (db : Tables) : Tables → Prop
  | players (npids : List String) (observedAt : ℤ) : Write db (recordDailyMatchedPlayers npids observedAt db)
  | activity (snapshot : ActivitySnapshotRow) (now : ℤ) : Write db (recordActivitySnapshot snapshot now db)
  | snapshot (rooms : List RankMatchSnapshotRecord) : Write db (recordSnapshot rooms db)
  | touch (rooms : List RankMatchSnapshotRecord) (observedAt : ℤ) : Write db (touchRankMatches rooms observedAt db)

/-- The databases a reader may meet, in the order in which they were committed. -/
structure Timeline (tables : ℕ → Tables) : Prop where
  start : tables 0 = .empty
  next : ∀ n, ReflTransGen Write (tables n) (tables (n + 1))

def Kept (db db' : Tables) : Prop :=
  ∀ row ∈ db.rankMatches.rows, ∃ row' ∈ db'.rankMatches.rows, row'.id = row.id ∧ row'.meeting = row.meeting

section Writes
variable {db db' db'' : Tables}

theorem Kept.refl (db : Tables) : Kept db db := fun row hrow => ⟨row,hrow,rfl,rfl⟩

theorem Kept.trans (h : Kept db db') (h' : Kept db' db'') : Kept db db'' := by
  intro row hrow
  obtain ⟨row',hrow',hid,hmeet⟩ := h row hrow
  obtain ⟨row'',hrow'',hid',hmeet'⟩ := h' row' hrow'
  exact ⟨row'',hrow'',hid'.trans hid,hmeet'.trans hmeet⟩

theorem Write.kept (h : Write db db') : Kept db db' := by
  cases h with
  | players npids observedAt => exact .refl db
  | activity snapshot now => exact .refl db
  | snapshot rooms => exact fun row hrow => ⟨row,rows_subset_recordSnapshot hrow,rfl,rfl⟩
  | touch rooms observedAt =>
    intro row hrow
    have hmem : History.touch rooms observedAt row ∈ (touchRankMatches rooms observedAt db).rankMatches.rows :=
      mem_touchRankMatches.mpr ⟨row,hrow,rfl⟩
    exact ⟨_,hmem,touch_id rooms observedAt row,touch_meeting rooms observedAt row⟩

theorem Write.tablesOk (h : Write db db') (hdb : TablesOk db) : TablesOk db' := by
  cases h with
  | players npids observedAt => exact tablesOk_of_eq hdb rfl rfl
  | activity snapshot now => exact tablesOk_of_eq hdb rfl rfl
  | snapshot rooms => exact hdb.recordSnapshot rooms
  | touch rooms observedAt => exact hdb.touchRankMatches rooms observedAt

theorem kept_of_writes (h : ReflTransGen Write db db') : Kept db db' := by
  induction h with
  | refl => exact .refl db
  | tail _ hw ih => exact ih.trans hw.kept

theorem tablesOk_of_writes (h : ReflTransGen Write db db') (hdb : TablesOk db) : TablesOk db' := by
  induction h with
  | refl => exact hdb
  | tail _ hw ih => exact hw.tablesOk ih

end Writes

/-! ## The collector writes such a timeline -/

theorem Attempt.writes {needed : Prop} {write : Tables → Tables} {db db' : Tables} {ok : Bool}
    (h : Attempt needed write db db' ok) (hw : Write db (write db)) : ReflTransGen Write db db' := by
  cases h with
  | skipped => exact .refl
  | done => exact .single hw
  | failed => exact .refl
  | lost => exact .single hw

theorem CollectOnce.writes {s s' : Collector} {rooms : List Matching.RoomInfoDTO} {observedAt : ℤ} {ok : Bool}
    (h : CollectOnce s rooms observedAt s' ok) : ReflTransGen Write s.tables s'.tables := by
  have hplayers {db ok} (h : recordPlayers s rooms observedAt db ok) : ReflTransGen Write s.tables db :=
    Attempt.writes h (.players _ _)
  have hactivity {db db' ok} (h : recordActivity rooms observedAt db db' ok) : ReflTransGen Write db db' := by
    obtain ⟨now,h⟩ := h
    exact h.writes (.activity _ now)
  have hrecord {db db' ok} (h : recordNewRankMatches s rooms observedAt db db' ok) :
      ReflTransGen Write db db' := Attempt.writes h (.snapshot _)
  cases h with
  | unobserved => exact .refl
  | players h => exact hplayers h
  | activity h₁ h₂ => exact (hplayers h₁).trans (hactivity h₂)
  | matches_ h₁ h₂ h₃ => exact ((hplayers h₁).trans (hactivity h₂)).trans (hrecord h₃)
  | touched h₁ h₂ h₃ h₄ =>
    have hthree := ((hplayers h₁).trans (hactivity h₂)).trans (hrecord h₃)
    exact hthree.trans (Attempt.writes h₄ (.touch _ _))

theorem Run.writes {s : Collector} {history : List Cycle} (h : Run s history) :
    ReflTransGen Write Tables.empty s.tables := by
  induction h with
  | start => exact .refl
  | restart _ ih => exact ih
  | failed _ hc ih => exact ih.trans hc.writes
  | succeeded _ hc ih => exact ih.trans hc.writes

/-! ## An id names one room -/

section Timeline
variable {tables : ℕ → Tables}

theorem Timeline.tablesOk (h : Timeline tables) (n : ℕ) : TablesOk (tables n) := by
  induction n with
  | zero =>
    rw [h.start]
    exact .empty
  | succ n ih => exact tablesOk_of_writes (h.next n) ih

theorem Timeline.kept (h : Timeline tables) {m n : ℕ} (hmn : m ≤ n) : Kept (tables m) (tables n) := by
  induction n,hmn using Nat.le_induction with
  | base => exact .refl _
  | succ n _ ih => exact ih.trans (kept_of_writes (h.next n))

theorem Timeline.meeting_eq (h : Timeline tables) {m n : ℕ} {row row' : RankMatchSnapshotRow}
    (hrow : row ∈ (tables m).rankMatches.rows) (hrow' : row' ∈ (tables n).rankMatches.rows)
    (hid : row.id = row'.id) : row.meeting = row'.meeting := by
  obtain ⟨late,hlate,hlid,hlmeet⟩ := h.kept (Nat.le_max_left m n) row hrow
  obtain ⟨late',hlate',hlid',hlmeet'⟩ := h.kept (Nat.le_max_right m n) row' hrow'
  have hsame := (h.tablesOk _).id_inj late hlate late' hlate' ((hlid.trans hid).trans hlid'.symm)
  rw [← hlmeet,← hlmeet',hsame]

def upTo (tables : ℕ → Tables) (last n : ℕ) : Tables := tables (min n last)

theorem Timeline.upTo (h : Timeline tables) (last : ℕ) : Timeline (History.upTo tables last) where
  start := by
    unfold History.upTo
    rw [Nat.zero_min]
    exact h.start
  next n := by
    unfold History.upTo
    by_cases hn : n < last
    · rw [Nat.min_eq_left hn.le,Nat.min_eq_left hn]
      exact h.next n
    · have hlast : last ≤ n := not_lt.mp hn
      rw [Nat.min_eq_right hlast,Nat.min_eq_right (hlast.trans n.le_succ)]

/-- What the lookup may answer over these databases. -/
def FoundIn (tables : ℕ → Tables) (npid : String) (time : ℤ) (answer : Option RankRoom) : Prop :=
  ∃ n, findRankRoom (tables n) npid time answer

theorem FoundIn.row {npid : String} {time : ℤ} {room : RankRoom} (h : FoundIn tables npid time (some room)) :
    ∃ n, ∃ row ∈ (tables n).rankMatches.rows, room = rankRoom row ∧ Meeting.Has row.meeting npid := by
  obtain ⟨n,⟨hnone,_⟩ | ⟨row,hrow,hroom⟩⟩ := h
  · cases hnone
  · exact ⟨n,row,hrow.1,Option.some.inj hroom,hrow.2.1.1⟩

theorem FoundIn.member {npid : String} {time : ℤ} {room : RankRoom}
    (h : FoundIn tables npid time (some room)) : room.user1Npid = npid ∨ room.user2Npid = npid := by
  obtain ⟨_,row,_,rfl,hhas⟩ := h.row
  exact hhas

theorem FoundIn.room_eq (ht : Timeline tables) {npid npid' : String} {time time' : ℤ} {room room' : RankRoom}
    (h : FoundIn tables npid time (some room)) (h' : FoundIn tables npid' time' (some room'))
    (hid : room.roomSnapshotId = room'.roomSnapshotId) : room = room' := by
  obtain ⟨_,row,hrow,rfl,_⟩ := h.row
  obtain ⟨_,row',hrow',rfl,_⟩ := h'.row
  have hmeet := ht.meeting_eq hrow hrow' hid
  have hnpids : (row.user1Npid,row.user2Npid) = (row'.user1Npid,row'.user2Npid) := congrArg Prod.snd hmeet
  obtain ⟨h₁,h₂⟩ := Prod.mk.inj hnpids
  unfold rankRoom
  rw [show row.id = row'.id from hid,h₁,h₂]

end Timeline

end Tag2now.History
