import Mathlib.Algebra.Order.Group.Abs
import Mathlib.Algebra.Order.Ring.Int
import Mathlib.Tactic.Linarith
import Tag2now.Records.Queue

/-! # Both players of a match share its row

What was really played in one room, and what the queue makes of the events it left:
one row for each match, whatever the order in which its events are handled. The
invariant reads a row as the match whose event opened it; the window tells apart the
matches one side won, and the winner tells apart the others.
-/
namespace Tag2now.Records
open History ReadCommitted

structure Report where
  id : ℕ
  savedAt : ℤ

/-- A match as it was played: who won, and the event of each side whose save was seen. -/
structure RealMatch where
  winner : Side
  event : Side → Option Report

def player (room : RankRoom) : Side → String
  | .p1 => room.user1Npid
  | .p2 => room.user2Npid

variable {ι : Type} (resolves : MatchEvent → Option RankRoom → Prop) (room : RankRoom)
  (games : ι → RealMatch)

/-- All matches played in one room, and how their events lie in time. -/
structure PlayedIn : Prop where
  players : room.user1Npid ≠ room.user2Npid
  seen : ∀ i, ∃ side report, (games i).event side = some report
  /-- An event of these matches resolves to the room. -/
  resolved : ∀ {event found i side report}, resolves event found →
    (games i).event side = some report → report.id = event.id → found = some room
  /-- The room's events are the events of these matches. -/
  known : ∀ {event r}, resolves event (some r) → r.roomSnapshotId = room.roomSnapshotId →
    ∃ i side report, (games i).event side = some report ∧ report.id = event.id
  near : ∀ {i x y report report'}, (games i).event x = some report →
    (games i).event y = some report' → |report.savedAt - report'.savedAt| ≤ 60 * second
  apart : ∀ {i j x y report report'}, i ≠ j → (games i).winner = (games j).winner →
    (games i).event x = some report → (games j).event y = some report' →
    60 * second < |report.savedAt - report'.savedAt|

/-- The queued row of a report shows the side's player, result and time. -/
structure Reports (m : RealMatch) (side : Side) (report : Report) (row : MatchEventRow) : Prop where
  npid : row.npid = player room side
  result : row.result = outcomeOf side m.winner
  savedAt : row.savedAt = report.savedAt

/-- The rows under the reports' ids are theirs. -/
def Truthful (db : Store) : Prop := ∀ ⦃i side report row⦄, (games i).event side = some report →
  db.events.get? report.id = some row → Reports room (games i) side report row

/-- The row records the match so far: some of its events, and the time of one of them. -/
structure Opens (m : RealMatch) (row : MatchRow) : Prop where
  winner : row.winner = m.winner
  events : ∀ {side id}, row.eventId side = some id → ∃ report, m.event side = some report ∧ report.id = id
  opener : ∃ side report, m.event side = some report ∧ row.eventId side = some report.id ∧
    row.playedAt = report.savedAt

/-- The row records the match: its winner, and each side's event or null. -/
structure RecordsMatch (m : RealMatch) (row : MatchRow) : Prop where
  winner : row.winner = m.winner
  events : ∀ side, row.eventId side = (m.event side).map (·.id)

def RoomRow (db : Store) (row : MatchRow) : Prop :=
  row ∈ db.matchRows.rows ∧ row.roomSnapshotId = some room.roomSnapshotId

structure Paired (db : Store) : Prop where
  opens : ∀ {row}, RoomRow room db row → ∃ i, Opens (games i) row
  unique : ∀ {row row' i}, RoomRow room db row → RoomRow room db row' →
    Opens (games i) row → Opens (games i) row' → row = row'
  done : ∀ {i side report event}, (games i).event side = some report →
    db.events.get? report.id = some event → event.status = .done →
    ∃ row, RoomRow room db row ∧ Opens (games i) row ∧ row.eventId side = some report.id

variable {resolves room games}

theorem sideOf_player (h : room.user1Npid ≠ room.user2Npid) (side : Side) :
    sideOf (some room) (player room side) = side := by
  cases side with
  | p1 => exact if_pos rfl
  | p2 => exact if_neg h

section Event
variable {m : RealMatch} {x : Side} {report : Report} {row : MatchEventRow}

theorem Reports.reportedSide_eq (h : Reports room m x report row)
    (hp : room.user1Npid ≠ room.user2Npid) : reportedSide (toEvent row) (some room) = x := by
  unfold reportedSide
  rw [show (toEvent row).npid = player room x from h.npid]
  exact sideOf_player hp x

theorem Reports.reportedWinner_eq (h : Reports room m x report row)
    (hp : room.user1Npid ≠ room.user2Npid) :
    reportedWinner (toEvent row) (some room) = m.winner := by
  unfold reportedWinner
  rw [h.reportedSide_eq hp,show (toEvent row).outcome = outcomeOf x m.winner from h.result]
  exact winner_outcomeOf x m.winner

end Event

theorem PlayedIn.same_match (hplayed : PlayedIn resolves room games) {i j : ι} {side : Side}
    {report : Report} {event : MatchEvent} {row : MatchRow}
    (hreport : (games i).event side = some report) (hsaved : event.savedAt = report.savedAt)
    (hrow : Fillable event room side (games i).winner row) (hopens : Opens (games j) row) : j = i := by
  by_contra hne
  obtain ⟨_,hwinner,_,hlow,hhigh⟩ := hrow
  obtain ⟨side',report',hreport',_,hplayedAt⟩ := hopens.opener
  have hapart := hplayed.apart hne (hopens.winner.symm.trans hwinner) hreport' hreport
  rw [hsaved,hplayedAt] at hlow hhigh
  simp only [sameMatchWindow] at hlow hhigh
  have hclose : |report'.savedAt - report.savedAt| ≤ 60 * second := abs_le.mpr ⟨by linarith,by linarith⟩
  exact absurd hapart (not_lt.mpr hclose)

/-- The row of the event's own match, if the other side opened it, can be filled. -/
theorem PlayedIn.fillable (hplayed : PlayedIn resolves room games) {i : ι} {side : Side}
    {report : Report} {event : MatchEvent} {row : MatchRow}
    (hreport : (games i).event side = some report) (hsaved : event.savedAt = report.savedAt)
    (hroom : row.roomSnapshotId = some room.roomSnapshotId) (hopens : Opens (games i) row)
    (hopen : row.eventId side = none) : Fillable event room side (games i).winner row := by
  obtain ⟨side',report',hreport',_,hplayedAt⟩ := hopens.opener
  have hnear := abs_le.mp (hplayed.near hreport' hreport)
  refine ⟨hroom,hopens.winner,hopen,?_,?_⟩
  · rw [hsaved,hplayedAt,sameMatchWindow]
    linarith [hnear.1]
  · rw [hsaved,hplayedAt,sameMatchWindow]
    linarith [hnear.2]

theorem PlayedIn.same_time (hplayed : PlayedIn resolves room games) {i j : ι} {x y : Side}
    {report report' : Report} (hwinner : (games i).winner = (games j).winner)
    (hx : (games i).event x = some report) (hy : (games j).event y = some report')
    (hsaved : report.savedAt = report'.savedAt) : i = j := by
  by_contra hne
  have hapart := hplayed.apart hne hwinner hx hy
  rw [hsaved,sub_self,abs_zero] at hapart
  exact absurd hapart (by decide)

theorem PlayedIn.opens_unique (hplayed : PlayedIn resolves room games) {i j : ι} {row : MatchRow}
    (hi : Opens (games i) row) (hj : Opens (games j) row) : i = j := by
  obtain ⟨x,report,hx,_,hplayedAt⟩ := hi.opener
  obtain ⟨y,report',hy,_,hplayedAt'⟩ := hj.opener
  exact hplayed.same_time (hi.winner.symm.trans hj.winner) hx hy (hplayedAt.symm.trans hplayedAt')

theorem PlayedIn.reports_unique (hplayed : PlayedIn resolves room games) {i j : ι} {x y : Side}
    {report report' : Report} {row : MatchEventRow} (hx : (games i).event x = some report)
    (hy : (games j).event y = some report') (hi : Reports room (games i) x report row)
    (hj : Reports room (games j) y report' row) : i = j ∧ x = y := by
  have hside : x = y := (hi.reportedSide_eq hplayed.players).symm.trans (hj.reportedSide_eq hplayed.players)
  have hwinner := (hi.reportedWinner_eq hplayed.players).symm.trans (hj.reportedWinner_eq hplayed.players)
  exact ⟨hplayed.same_time hwinner hx hy (hi.savedAt.symm.trans hj.savedAt),hside⟩

/-! ## Steps -/

theorem Opens.none_of_pending {db : Store} (hcons : Consistent db) {event : MatchEventRow}
    (hevent : db.events.get? event.id = some event) (hpending : event.status = .pending)
    {row : MatchRow} (hrow : row ∈ db.matchRows.rows) (side : Side) :
    row.eventId side ≠ some event.id := by
  intro hid
  obtain ⟨event',hevent',hdone⟩ := hcons.done_of_seen ⟨hrow,hid⟩
  rw [hevent] at hevent'
  cases hevent'
  rw [hpending] at hdone
  cases hdone

theorem Opens.setEventId {m : RealMatch} {row : MatchRow} (h : Opens m row) {side : Side}
    {report : Report} (hreport : m.event side = some report) (hopen : row.eventId side = none) :
    Opens m (row.setEventId side report.id) := by
  refine ⟨(setEventId_winner _ _ _).trans h.winner,fun {side' id} hid => ?_,?_⟩
  · rw [eventId_setEventId] at hid
    split at hid
    · rename_i hside
      cases hid
      exact ⟨report,hside ▸ hreport,rfl⟩
    · exact h.events hid
  · obtain ⟨side',report',hreport',hid,hplayedAt⟩ := h.opener
    refine ⟨side',report',hreport',?_,(setEventId_playedAt _ _ _).trans hplayedAt⟩
    rw [eventId_setEventId,if_neg ?_]
    · exact hid
    · rintro rfl
      rw [hopen] at hid
      cases hid

/-- Matches elsewhere leave the room's books alone. -/
theorem Paired.frame {s t : Store} (hs : Paired room games s)
    (hrows : ∀ row, row.roomSnapshotId = some room.roomSnapshotId →
      (row ∈ t.matchRows.rows ↔ row ∈ s.matchRows.rows))
    (hdone : ∀ {i side report event}, (games i).event side = some report →
      t.events.get? report.id = some event → event.status = .done →
      ∃ old, s.events.get? report.id = some old ∧ old.status = .done) : Paired room games t := by
  have hroom {row : MatchRow} (h : RoomRow room t row) : RoomRow room s row := ⟨(hrows row h.2).mp h.1,h.2⟩
  refine ⟨fun h => hs.opens (hroom h),fun h h' => hs.unique (hroom h) (hroom h'),?_⟩
  intro i side report event hreport hevent hst
  obtain ⟨old,hold,hst⟩ := hdone hreport hevent hst
  obtain ⟨row,hrow,hopens,hid⟩ := hs.done hreport hold hst
  exact ⟨row,⟨(hrows row hrow.2).mpr hrow.1,hrow.2⟩,hopens,hid⟩

/-- What is done after an event is finished is the event, or was done before. -/
theorem done_of_finish {s t : Store} (ht : t.events = s.events) {event : MatchEventRow} {id : ℕ}
    {row : MatchEventRow} (hrow : (setEvent event.id finished finished_id t).events.get? id = some row)
    (hdone : row.status = .done) :
    id = event.id ∨ ∃ old, s.events.get? id = some old ∧ old.status = .done := by
  rw [setEvent_get?,ht] at hrow
  split at hrow
  · exact .inl (by assumption)
  · exact .inr ⟨row,hrow,hdone⟩

/-- The event in hand, as one side of one match of the room. -/
structure InHand (resolves) (room : RankRoom) (games : ι → RealMatch) (s : Store)
    (event : MatchEventRow) (i : ι) (side : Side) (report : Report) : Prop where
  played : PlayedIn resolves room games
  truthful : Truthful room games s
  consistent : Consistent s
  row : s.events.get? event.id = some event
  pending : event.status = .pending
  reported : (games i).event side = some report
  id : report.id = event.id

namespace InHand
variable {s : Store} {event : MatchEventRow} {i : ι} {side : Side} {report : Report}

theorem reports (h : InHand resolves room games s event i side report) :
    Reports room (games i) side report event := h.truthful h.reported (h.id ▸ h.row)

theorem unique (h : InHand resolves room games s event i side report) {j : ι} {y : Side}
    {report' : Report} (hy : (games j).event y = some report') (hid : report'.id = event.id) :
    i = j ∧ side = y :=
  h.played.reports_unique h.reported hy h.reports (h.truthful hy (hid ▸ h.row))

theorem eventId_eq_none (h : InHand resolves room games s event i side report) {row : MatchRow}
    (hrow : row ∈ s.matchRows.rows) (hopens : Opens (games i) row) : row.eventId side = none := by
  cases hid : row.eventId side with
  | none => rfl
  | some id =>
    obtain ⟨report',hreport',rfl⟩ := hopens.events hid
    rw [h.reported] at hreport'
    cases hreport'
    rw [h.id] at hid
    exact absurd hid (Opens.none_of_pending h.consistent h.row h.pending hrow side)

/-- The event that opens a row of its own is the first of its match. -/
theorem add (h : InHand resolves room games s event i side report) (hs : Paired room games s)
    {new : ℕ} (hnew : s.matchRows.get? new = none)
    (hopen : Unfillable s (toEvent event) room side (games i).winner) :
    Paired room games (setEvent event.id finished finished_id
      (insertMatch (newMatch new (toEvent event) (some room) side (games i).winner) s)) := by
  have hmem {row : MatchRow} :=
    @mem_insertMatch s (newMatch new (toEvent event) (some room) side (games i).winner) row hnew
  have hopens : Opens (games i) (newMatch new (toEvent event) (some room) side (games i).winner) := by
    refine ⟨rfl,fun {side' id} hid => ?_,side,report,h.reported,?_,h.reports.savedAt⟩
    · rw [eventId_newMatch] at hid
      split at hid
      · rename_i hside
        cases hid
        exact ⟨report,hside ▸ h.reported,h.id⟩
      · cases hid
    · rw [eventId_newMatch,if_pos rfl,h.id]
      rfl
  have hfirst {row : MatchRow} (hrow : RoomRow room s row) : ¬ Opens (games i) row := fun ho =>
    hopen row hrow.1 (h.played.fillable h.reported h.reports.savedAt hrow.2 ho (h.eventId_eq_none hrow.1 ho))
  refine ⟨fun {row} hrow => ?_,fun {row row' j} hrow hrow' ho ho' => ?_,fun hreport hevent hdone => ?_⟩
  · rcases hmem.mp hrow.1 with hold | rfl
    · exact hs.opens ⟨hold,hrow.2⟩
    · exact ⟨i,hopens⟩
  · rcases hmem.mp hrow.1 with hold | rfl <;> rcases hmem.mp hrow'.1 with hold' | rfl
    · exact hs.unique ⟨hold,hrow.2⟩ ⟨hold',hrow'.2⟩ ho ho'
    · cases h.played.opens_unique hopens ho'
      exact absurd ho (hfirst ⟨hold,hrow.2⟩)
    · cases h.played.opens_unique hopens ho
      exact absurd ho' (hfirst ⟨hold',hrow'.2⟩)
    · rfl
  · rcases done_of_finish (insertMatch_events _ s) hevent hdone with hid | ⟨old,hold,hdone⟩
    · obtain ⟨rfl,rfl⟩ := h.unique hreport hid
      refine ⟨_,⟨hmem.mpr (.inr rfl),rfl⟩,hopens,?_⟩
      rw [eventId_newMatch,if_pos rfl,hid]
      rfl
    · obtain ⟨row,hrow,ho,hid⟩ := hs.done hreport hold hdone
      exact ⟨row,⟨hmem.mpr (.inl hrow.1),hrow.2⟩,ho,hid⟩

theorem roomRow_fill {e target event : ℕ} {row : MatchRow} :
    RoomRow room (setEvent e finished finished_id (setMatch target side event s)) row ↔
      ∃ old, RoomRow room s old ∧ (if old.id = target then old.setEventId side event else old) = row := by
  have hroom (old : MatchRow) :
      (if old.id = target then old.setEventId side event else old).roomSnapshotId = old.roomSnapshotId := by
    split
    · exact setEventId_room old side event
    · rfl
  constructor
  · rintro ⟨hmem,hrow⟩
    obtain ⟨old,hold,rfl⟩ := mem_setMatch.mp hmem
    exact ⟨old,⟨hold,(hroom old).symm.trans hrow⟩,rfl⟩
  · rintro ⟨old,⟨hold,hrow⟩,rfl⟩
    exact ⟨mem_setMatch.mpr ⟨old,hold,rfl⟩,(hroom old).trans hrow⟩

/-- The event that fills a side fills it in the row of its own match. -/
theorem fill (h : InHand resolves room games s event i side report) (hs : Paired room games s)
    {target : MatchRow} (htarget : target ∈ s.matchRows.rows)
    (hfill : Fillable (toEvent event) room side (games i).winner target) :
    Paired room games (setEvent event.id finished finished_id (setMatch target.id side event.id s)) := by
  have hkeep {row : MatchRow} {j : ι} (hrow : RoomRow room s row) (ho : Opens (games j) row) :
      Opens (games j) (if row.id = target.id then row.setEventId side event.id else row) := by
    split
    · rename_i hid
      rw [Table.eq_of_key hrow.1 htarget hid] at ho ⊢
      cases h.played.same_match h.reported h.reports.savedAt hfill ho
      rw [← h.id]
      exact ho.setEventId h.reported hfill.2.2.1
    · exact ho
  have hopens {old : MatchRow} {j : ι} (hold : RoomRow room s old)
      (ho : Opens (games j) (if old.id = target.id then old.setEventId side event.id else old)) :
      Opens (games j) old := by
    obtain ⟨k,hk⟩ := hs.opens hold
    cases h.played.opens_unique ho (hkeep hold hk)
    exact hk
  refine ⟨fun {row} hrow => ?_,fun {row row' j} hrow hrow' ho ho' => ?_,fun hreport hevent hdone => ?_⟩
  · obtain ⟨old,hold,rfl⟩ := roomRow_fill.mp hrow
    obtain ⟨j,hj⟩ := hs.opens hold
    exact ⟨j,hkeep hold hj⟩
  · obtain ⟨old,hold,rfl⟩ := roomRow_fill.mp hrow
    obtain ⟨old',hold',rfl⟩ := roomRow_fill.mp hrow'
    rw [hs.unique hold hold' (hopens hold ho) (hopens hold' ho')]
  · rcases done_of_finish (setMatch_events _ _ _ s) hevent hdone with hid | ⟨old,hold,hdone⟩
    · obtain ⟨rfl,rfl⟩ := h.unique hreport hid
      obtain ⟨j,hj⟩ := hs.opens ⟨htarget,hfill.1⟩
      cases h.played.same_match h.reported h.reports.savedAt hfill hj
      refine ⟨_,roomRow_fill.mpr ⟨_,⟨htarget,hfill.1⟩,rfl⟩,hkeep ⟨htarget,hfill.1⟩ hj,?_⟩
      rw [if_pos rfl,eventId_setEventId,if_pos rfl,hid]
    · obtain ⟨row,hrow,ho,hid⟩ := hs.done hreport hold hdone
      refine ⟨_,roomRow_fill.mpr ⟨_,hrow,rfl⟩,hkeep hrow ho,?_⟩
      split
      · rw [eventId_setEventId]
        split
        · rename_i hrid hside
          have hopen := hfill.2.2.1
          rw [← Table.eq_of_key hrow.1 htarget hrid,← hside,hid] at hopen
          cases hopen
        · exact hid
      · exact hid

end InHand

/-! ## Runs -/

theorem Truthful.of_persists {s t : Store} (h : Persists s t) (ht : Truthful room games t) :
    Truthful room games s := by
  intro i side report row hreport hrow
  obtain ⟨new,hnew,hnpid,hresult,hsaved⟩ := h hrow
  obtain ⟨hn,hr,hs⟩ := ht hreport hnew
  exact ⟨hnpid.symm.trans hn,hresult.symm.trans hr,hsaved.symm.trans hs⟩

theorem failed_not_done (event : MatchEvent) (error : String) (now : ℤ) (row : MatchEventRow) :
    (failed event error now row).status ≠ .done := by
  simp only [failed]
  split <;> decide

theorem Commit.paired (hplayed : PlayedIn resolves room games) {L : Set Lock} {s t : Store}
    {p : Processed} (h : Commit resolves L s p t) (hcons : Consistent s)
    (htrue : Truthful room games s) (hs : Paired room games s) : Paired room games t := by
  cases h with
  | idle => exact hs
  | @failed row error now _ _ _ =>
    refine hs.frame (fun _ _ => .rfl) fun {i side report event} _ hevent hdone => ?_
    rw [setEvent_get?] at hevent
    split at hevent
    · obtain ⟨old,_,rfl⟩ := Option.map_eq_some_iff.mp hevent
      exact absurd hdone (failed_not_done _ _ _ _)
    · exact ⟨event,hevent,hdone⟩
  | @finished row found t hrow hpending _ hfound ha =>
    by_cases hroom : ∃ r, found = some r ∧ r.roomSnapshotId = room.roomSnapshotId
    · obtain ⟨r,rfl,hid⟩ := hroom
      obtain ⟨i,side,report,hreport,hrid⟩ := hplayed.known hfound hid
      cases hplayed.resolved hfound hreport hrid
      have hand : InHand resolves room games s row i side report :=
        ⟨hplayed,htrue,hcons,hrow,hpending,hreport,hrid⟩
      have hside := hand.reports.reportedSide_eq hplayed.players
      have hwinner := hand.reports.reportedWinner_eq hplayed.players
      cases ha with
      | added new hnew _ hopen ht =>
        subst ht
        have hopen := (hopen room rfl).2
        rw [hside,hwinner] at hopen ⊢
        exact hand.add hs hnew hopen
      | filled r target hr _ _ hnear ht =>
        cases hr
        subst ht
        rw [hside,hwinner] at hnear
        rw [hside]
        exact hand.fill hs hnear.1.1 hnear.1.2
    · refine hs.frame (fun m hm => ha.other_room (fun r hr hid => hroom ⟨r,hr,hid⟩) hm) ?_
      intro i side report event hreport hevent hdone
      rcases done_of_finish ha.events hevent hdone with hid | hold
      · exact absurd ⟨room,hplayed.resolved hfound hreport hid,rfl⟩ hroom
      · exact hold

theorem paired (hplayed : PlayedIn resolves room games) {db : Store} {log : Log}
    (h : Atomic (queue resolves) (fun _ _ _ => True) (discipline resolves) (· = Store.empty) db log)
    (htrue : Truthful room games db) : Paired room games db := by
  induction h with
  | init h =>
    subst h
    exact ⟨fun h => absurd h.1 (by simp [Store.empty,Table.empty]),
      fun h => absurd h.1 (by simp [Store.empty,Table.empty]),fun _ h => by simp [Store.empty] at h⟩
  | @env s t log _ _ henv ih =>
    obtain ⟨row,hrow,rfl⟩ := henv
    refine (ih (htrue.of_persists hrow.persists)).frame (fun _ _ => .rfl) ?_
    intro i side report event _ hevent hdone
    rw [addEvent_get? hrow.1] at hevent
    split at hevent
    · cases hevent
      rw [hrow.2.1] at hdone
      cases hdone
    · exact ⟨event,hevent,hdone⟩
  | commit _ hcons _ hc ih =>
    have htrue' := htrue.of_persists hc.persists
    exact hc.paired hplayed hcons htrue' (ih htrue')
  | raise _ _ hf _ => exact hf.elim

/-- Every event of these matches is done, and its row is the one it was reported by. -/
def AllDone (room : RankRoom) (games : ι → RealMatch) (db : Store) : Prop :=
  ∀ ⦃i side report⦄, (games i).event side = some report →
    ∃ row, db.events.get? report.id = some row ∧ row.status = .done ∧ Reports room (games i) side report row

theorem AllDone.truthful {db : Store} (h : AllDone room games db) : Truthful room games db := by
  intro i side report row hreport hrow
  obtain ⟨row',hrow',_,hreports⟩ := h hreport
  rw [hrow] at hrow'
  cases hrow'
  exact hreports

section Final
variable {db : Store} (hplayed : PlayedIn resolves room games) (hall : AllDone room games db)
  (hpaired : Paired room games db)

include hall hpaired in
theorem Paired.records {i : ι} {row : MatchRow} (hrow : RoomRow room db row)
    (hopens : Opens (games i) row) : RecordsMatch (games i) row := by
  refine ⟨hopens.winner,fun side => ?_⟩
  cases hreport : (games i).event side with
  | some report =>
    obtain ⟨event,hevent,hdone,_⟩ := hall hreport
    obtain ⟨row',hrow',hopens',hid⟩ := hpaired.done hreport hevent hdone
    rw [hpaired.unique hrow hrow' hopens hopens',hid]
    rfl
  | none =>
    cases hid : row.eventId side with
    | none => rfl
    | some id =>
      obtain ⟨report,hreport',_⟩ := hopens.events hid
      rw [hreport] at hreport'
      cases hreport'

include hplayed hall hpaired in
/-- A row that records a match is the one that opened for it. -/
theorem Paired.opens_of_records {i : ι} {row : MatchRow} (hrow : RoomRow room db row)
    (hrecords : RecordsMatch (games i) row) : Opens (games i) row := by
  obtain ⟨j,hj⟩ := hpaired.opens hrow
  obtain ⟨side,report,hreport,hid,_⟩ := hj.opener
  have hsame := hrecords.events side
  rw [hid] at hsame
  obtain ⟨report',hreport',heq⟩ := Option.map_eq_some_iff.mp hsame.symm
  obtain ⟨event,hevent,_,hreports⟩ := hall hreport
  have hreports' := hall.truthful hreport' (heq ▸ hevent)
  obtain ⟨rfl,_⟩ := hplayed.reports_unique hreport hreport' hreports hreports'
  exact hj

end Final

/-- Whatever the order in which the events of a room's matches were handled, its rows
are these matches, one each. -/
theorem pairing_correct (hplayed : PlayedIn resolves room games)
    {s : State Store Lock Unit String Processed}
    (h : Reachable (queue resolves) (fun _ _ _ => True) (· = Store.empty) s)
    (hall : AllDone room games s.db) :
    (∀ i, ∃! row, RoomRow room s.db row ∧ RecordsMatch (games i) row) ∧
      ∀ row, RoomRow room s.db row → ∃! i, RecordsMatch (games i) row := by
  have hpaired := paired hplayed (h.refines (discipline_sound resolves)).1 hall.truthful
  constructor
  · intro i
    obtain ⟨side,report,hreport⟩ := hplayed.seen i
    obtain ⟨event,hevent,hdone,_⟩ := hall hreport
    obtain ⟨row,hrow,hopens,_⟩ := hpaired.done hreport hevent hdone
    refine ⟨row,⟨hrow,hpaired.records hall hrow hopens⟩,fun row' hrow' => ?_⟩
    exact hpaired.unique hrow'.1 hrow (hpaired.opens_of_records hplayed hall hrow'.1 hrow'.2) hopens
  · intro row hrow
    obtain ⟨i,hopens⟩ := hpaired.opens hrow
    refine ⟨i,hpaired.records hall hrow hopens,fun j hj => ?_⟩
    exact hplayed.opens_unique (hpaired.opens_of_records hplayed hall hrow hj) hopens

/-- The match Alice won in room 9, with both saves seen. -/
def aliceBeatBob : Unit → RealMatch :=
  fun _ => ⟨.p1,fun side => match side with | .p1 => some ⟨1,0⟩ | .p2 => some ⟨2,4 * second⟩⟩

theorem playedIn_room9 : PlayedIn inRoom9 room9 aliceBeatBob where
  players := by decide
  seen _ := ⟨.p1,_,rfl⟩
  resolved := by
    rintro event found i side report rfl hreport hid
    cases side <;> cases hreport <;> rw [← hid] <;> rfl
  known := by
    intro event r hr _
    unfold inRoom9 at hr
    split at hr
    · rename_i hid
      rcases hid with hid | hid
      · exact ⟨(),.p1,_,rfl,hid.symm⟩
      · exact ⟨(),.p2,_,rfl,hid.symm⟩
    · cases hr
  near := by
    intro i x y report report' hx hy
    cases x <;> cases y <;> cases hx <;> cases hy <;> decide
  apart hne := absurd rfl hne

theorem allDone_afterBoth : AllDone room9 aliceBeatBob afterBoth.db := by
  intro i side report hreport
  cases side <;> cases hreport
  · exact ⟨finished aliceWon,rfl,rfl,rfl,rfl,rfl⟩
  · exact ⟨finished bobLost,rfl,rfl,rfl,rfl,rfl⟩

theorem pairing_correct_afterBoth :
    (∀ i, ∃! row, RoomRow room9 afterBoth.db row ∧ RecordsMatch (aliceBeatBob i) row) ∧
      ∀ row, RoomRow room9 afterBoth.db row → ∃! i, RecordsMatch (aliceBeatBob i) row :=
  pairing_correct playedIn_room9 (reachable_afterBoth rfl rfl) allDone_afterBoth

end Tag2now.Records
