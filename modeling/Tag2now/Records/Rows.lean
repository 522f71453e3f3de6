import Tag2now.History.Timeline
import Tag2now.Records.Queue

/-! # What a match row says

A row is opened by one event and completed by another. Whatever the order of the two, each
side's event belongs to that side's player and its result is what the winner says of the
side. The room is looked up in the history's own databases, whose rows keep their members.
-/
namespace Tag2now.Records
open History ReadCommitted

/-! ## Reading a row -/

structure MatchPlayer where
  npid : String
  onlineName : Option String
  outcome : MatchOutcome
  chars : Option (List ℤ)
  ranks : Option (List (Option ℤ))

structure RecordedMatch where
  id : ℕ
  playedAt : ℤ
  p1 : MatchPlayer
  p2 : Option MatchPlayer

/-- The name this room showed for a member; of one player on both sides it is the second. -/
def onlineNameOf (room : RankMatchSnapshotRow) (npid : String) : Option String :=
  if room.user2Npid = npid then some room.user2OnlineName
  else if room.user1Npid = npid then some room.user1OnlineName
  else none

def matchPlayer (npid : String) (side : Side) (m : MatchRow) (event : Option MatchEventRow)
    (room : Option RankMatchSnapshotRow) : MatchPlayer where
  npid := npid
  onlineName := room.bind (onlineNameOf · npid)
  outcome := outcomeOf side m.winner
  chars := event.map (·.chars)
  ranks := event.bind (·.ranks)

def recordedMatch (m : MatchRow) (room : Option RankMatchSnapshotRow) (p1Event p2Event : Option MatchEventRow) :
    RecordedMatch where
  id := m.id
  playedAt := m.playedAt
  p1 := matchPlayer m.p1Npid .p1 m p1Event room
  p2 := m.p2Npid.map fun npid => matchPlayer npid .p2 m p2Event room

/-- The row as it is listed, with its events and its room joined. -/
def listed (db : Store) (rooms : Tables) (m : MatchRow) : RecordedMatch :=
  let room := m.roomSnapshotId.bind fun id => rooms.rankMatches.rows.find? fun row => row.id = id
  recordedMatch m room (m.p1EventId.bind db.events.get?) (m.p2EventId.bind db.events.get?)

def MatchRow.npidOf (m : MatchRow) : Side → Option String
  | .p1 => some m.p1Npid
  | .p2 => m.p2Npid

structure RowConsistent (db : Store) (m : MatchRow) : Prop where
  attached : ∀ {side id}, m.eventId side = some id → ∃ event, db.events.get? id = some event ∧
    m.npidOf side = some event.npid ∧ outcomeOf side m.winner = event.result
  room : m.roomSnapshotId = none ↔ m.p2Npid = none
  opposite : ∀ rooms p2, (listed db rooms m).p2 = some p2 → p2.outcome ≠ (listed db rooms m).p1.outcome
  once : ∀ n ∈ db.matchRows.rows, ∀ id, m.p1EventId = some id → n.p2EventId ≠ some id

theorem outcomeOf_other (side winner : Side) : outcomeOf side.other winner ≠ outcomeOf side winner := by
  cases side <;> cases winner <;> decide

theorem listed_opposite {db : Store} {rooms : Tables} {m : MatchRow} {p2 : MatchPlayer}
    (h : (listed db rooms m).p2 = some p2) : p2.outcome ≠ (listed db rooms m).p1.outcome := by
  obtain ⟨npid,_,rfl⟩ := Option.map_eq_some_iff.mp h
  exact outcomeOf_other .p1 m.winner

/-! ## What every step keeps -/

section Sound
variable (resolves : MatchEvent → Option RankRoom → Prop)

/-- The row has no room, or the members of a room some event resolved to. -/
inductive Members (m : MatchRow) : Prop
  | none : m.roomSnapshotId = .none → m.p2Npid = .none → Members m
  | room (event : MatchEvent) (r : RankRoom) : resolves event (some r) →
      m.roomSnapshotId = some r.roomSnapshotId → m.p1Npid = r.user1Npid → m.p2Npid = some r.user2Npid → Members m

/-- The event shows the player and the result of this side. -/
def Shows (m : MatchRow) (side : Side) (event : MatchEventRow) : Prop :=
  m.npidOf side = some event.npid ∧ outcomeOf side m.winner = event.result

structure Sound (db : Store) (m : MatchRow) : Prop where
  members : Members resolves m
  attached : ∀ {side id}, m.eventId side = some id → ∃ event, db.events.get? id = some event ∧ Shows m side event

/-- Rooms contain the player they are found for, and an id names one room. -/
structure KnownRooms : Prop where
  member : ∀ {event r}, resolves event (some r) → r.user1Npid = event.npid ∨ r.user2Npid = event.npid
  named : ∀ {event event' r r'}, resolves event (some r) → resolves event' (some r') →
    r.roomSnapshotId = r'.roomSnapshotId → r = r'

variable {resolves} {s t : Store} {m : MatchRow}

@[simp] theorem setEventId_npidOf (m : MatchRow) (side : Side) (event : ℕ) (side' : Side) :
    (m.setEventId side event).npidOf side' = m.npidOf side' := by cases side <;> cases side' <;> rfl

theorem Sound.persists (h : Sound resolves s m) (hp : Persists s t) : Sound resolves t m := by
  refine ⟨h.members,fun hid => ?_⟩
  obtain ⟨event,hevent,hnpid,hresult⟩ := h.attached hid
  obtain ⟨new,hnew,hnpid',hresult',_⟩ := hp hevent
  exact ⟨new,hnew,hnpid.trans (congrArg some hnpid'.symm),hresult.trans hresult'.symm⟩

theorem Members.setEventId (h : Members resolves m) (side : Side) (event : ℕ) :
    Members resolves (m.setEventId side event) := by
  cases side <;> cases h with
  | none hroom hp2 => exact .none hroom hp2
  | room e r hr hroom hp1 hp2 => exact .room e r hr hroom hp1 hp2

theorem newMatch_members {event : MatchEvent} {room : Option RankRoom} (h : resolves event room)
    (id : ℕ) (side winner : Side) : Members resolves (newMatch id event room side winner) := by
  cases room with
  | none => exact .none rfl rfl
  | some r => exact .room event r h rfl rfl rfl

theorem npid_of_side {event : MatchEvent} {r : RankRoom}
    (h : r.user1Npid = event.npid ∨ r.user2Npid = event.npid) (hp1 : m.p1Npid = r.user1Npid)
    (hp2 : m.p2Npid = some r.user2Npid) : m.npidOf (reportedSide event (some r)) = some event.npid := by
  by_cases hfirst : r.user1Npid = event.npid
  · have hside : reportedSide event (some r) = .p1 := if_pos hfirst
    rw [hside]
    exact congrArg some (hp1.trans hfirst)
  · have hside : reportedSide event (some r) = .p2 := if_neg hfirst
    rw [hside]
    exact hp2.trans (congrArg some (h.resolve_left hfirst))

theorem outcomeOf_reported (event : MatchEvent) (room : Option RankRoom) :
    outcomeOf (reportedSide event room) (reportedWinner event room) = event.outcome :=
  outcomeOf_winner _ _

section Attached
variable (hk : KnownRooms resolves) {event : MatchEventRow} {room : Option RankRoom}
  (hroom : resolves (toEvent event) room)

include hk hroom

theorem newMatch_shows (id : ℕ) : Shows (newMatch id (toEvent event) room (reportedSide (toEvent event) room)
    (reportedWinner (toEvent event) room)) (reportedSide (toEvent event) room) event := by
  have houtcome := outcomeOf_reported (toEvent event) room
  refine ⟨?_,houtcome⟩
  cases room with
  | none => rfl
  | some r => exact npid_of_side (hk.member hroom) rfl rfl

/-- The row an event may fill has this room, so the same members, and the winner it names. -/
theorem fillable_shows {r : RankRoom} (hr : room = some r) (hm : Members resolves m)
    (hfill : Fillable (toEvent event) r (reportedSide (toEvent event) room)
      (reportedWinner (toEvent event) room) m) : Shows m (reportedSide (toEvent event) room) event := by
  subst hr
  obtain ⟨hid,hwinner,_⟩ := hfill
  have houtcome := outcomeOf_reported (toEvent event) (some r)
  refine ⟨?_,hwinner ▸ houtcome⟩
  cases hm with
  | none hnone _ =>
    rw [hnone] at hid
    cases hid
  | room e r' hr' hid' hp1 hp2 =>
    rw [hid] at hid'
    cases hk.named hroom hr' (Option.some.inj hid')
    exact npid_of_side (hk.member hroom) hp1 hp2

theorem Attached.sound {L : Set Lock} (h : Attached (toEvent event) room L s t)
    (hevent : s.events.get? event.id = some event) (hs : ∀ m ∈ s.matchRows.rows, Sound resolves s m) :
    ∀ m ∈ t.matchRows.rows, Sound resolves t m := by
  have hevents := h.events
  have hkeep {m : MatchRow} (hm : Sound resolves s m) : Sound resolves t m := by
    refine ⟨hm.members,?_⟩
    rw [hevents]
    exact hm.attached
  intro m hm
  cases h with
  | added id hnew _ _ ht =>
    subst ht
    rcases (mem_insertMatch hnew).mp hm with hold | rfl
    · exact hkeep (hs m hold)
    · refine ⟨newMatch_members hroom _ _ _,fun {side i} hid => ?_⟩
      rw [eventId_newMatch] at hid
      split at hid
      · rename_i hside
        cases hid
        rw [hside]
        exact ⟨event,hevent,newMatch_shows hk hroom id⟩
      · cases hid
  | filled r row hr _ _ hnear ht =>
    subst ht
    obtain ⟨old,hold,rfl⟩ := mem_setMatch.mp hm
    by_cases hid : old.id = row.id
    · have hrow := Table.eq_of_key hold hnear.1.1 hid
      subst hrow
      rw [if_pos rfl]
      have hsound := hs old hold
      refine ⟨hsound.members.setEventId _ _,fun {side i} hi => ?_⟩
      unfold Shows
      rw [setEventId_npidOf,setEventId_winner]
      rw [eventId_setEventId] at hi
      split at hi
      · rename_i hside
        cases hi
        rw [hside]
        exact ⟨event,hevent,fillable_shows hk hroom hr hsound.members hnear.1.2⟩
      · exact hsound.attached hi
    · rw [if_neg hid]
      exact hkeep (hs old hold)

end Attached

theorem Commit.sound (hk : KnownRooms resolves) {L : Set Lock} {p : Processed} (h : Commit resolves L s p t)
    (hs : ∀ m ∈ s.matchRows.rows, Sound resolves s m) : ∀ m ∈ t.matchRows.rows, Sound resolves t m := by
  cases h with
  | idle => exact hs
  | finished hrow _ _ hroom ha =>
    intro m hm
    have hattached := ha.sound hk hroom hrow hs m hm
    exact hattached.persists (persists_setEvent rfl fun _ => ⟨rfl,rfl,rfl⟩)
  | failed error now _ _ _ =>
    intro m hm
    exact (hs m hm).persists (persists_setEvent rfl fun _ => ⟨rfl,rfl,rfl⟩)

theorem sound (hk : KnownRooms resolves) {db : Store} {log : Log}
    (h : Atomic (queue resolves) (fun _ _ _ => True) (discipline resolves) (· = Store.empty) db log) :
    ∀ m ∈ db.matchRows.rows, Sound resolves db m := by
  induction h with
  | init h =>
    subst h
    exact fun _ hm => by cases hm
  | env _ _ henv ih =>
    obtain ⟨row,hrow,rfl⟩ := henv
    exact fun m hm => (ih m hm).persists hrow.persists
  | commit _ _ _ hc ih => exact hc.sound hk ih
  | raise _ _ _ ih => exact ih

end Sound

/-! ## Rooms of the history -/

variable {tables : ℕ → Tables}

/-- The room the history answers for an event, in whichever of its databases it is looked up. -/
def historyRoom (tables : ℕ → Tables) (event : MatchEvent) : Option RankRoom → Prop :=
  FoundIn tables event.npid event.savedAt

theorem knownRooms_historyRoom (ht : Timeline tables) : KnownRooms (historyRoom tables) where
  member h := FoundIn.member h
  named h h' := FoundIn.room_eq ht h h'

theorem rows_consistent (ht : Timeline tables) {s : State Store Lock Unit String Processed}
    (h : Reachable (queue (historyRoom tables)) (fun _ _ _ => True) (· = Store.empty) s) :
    ∀ m ∈ s.db.matchRows.rows, RowConsistent s.db m := by
  obtain ⟨hatom,hcons,_⟩ := h.refines (discipline_sound (historyRoom tables))
  intro m hm
  have hsound := sound (knownRooms_historyRoom ht) hatom m hm
  refine ⟨fun hid => hsound.attached hid,?_,fun _ _ => listed_opposite,fun n hn id hp1 hp2 => ?_⟩
  · cases hsound.members with
    | none hroom hp2 => exact iff_of_true hroom hp2
    | room event r _ hroom _ hp2 => simp only [hroom,hp2,reduceCtorEq]
  · have hboth : m = n ∧ Side.p1 = Side.p2 := hcons.once ⟨hm,hp1⟩ ⟨hn,hp2⟩
    cases hboth.2

/-! ## The run of two events, over the history that has their room -/

def seenTogether (npid₁ npid₂ : String) : RankMatchSnapshotRecord := ⟨5,10,npid₁,npid₁,npid₂,npid₂,0⟩

/-- The ninth room drawn is the one where Alice met Bob. -/
def nineRooms : List RankMatchSnapshotRecord :=
  List.replicate 8 (seenTogether "carol" "dave") ++ [seenTogether "alice" "bob"]

def nineTables (n : ℕ) : Tables := if n = 0 then .empty else recordSnapshot nineRooms .empty

theorem timeline_nineTables : Timeline nineTables where
  start := rfl
  next n := by
    cases n with
    | zero => exact .single (.snapshot nineRooms)
    | succ n => exact .refl

theorem historyRoom_nineTables {event : MatchEvent} (hnpid : event.npid = "alice" ∨ event.npid = "bob")
    (hearly : 0 ≤ event.savedAt) (hlate : event.savedAt ≤ roomEndSlack) :
    historyRoom nineTables event (some room9) := by
  have hrows : (nineTables 1).rankMatches.rows =
    [snapshotRow 1 (seenTogether "carol" "dave"),snapshotRow 9 (seenTogether "alice" "bob")] := by decide
  refine ⟨1,.inr ⟨snapshotRow 9 (seenTogether "alice" "bob"),⟨?_,⟨?_,hearly,?_⟩,fun other hother _ => ?_⟩,rfl⟩⟩
  · rw [hrows]
    exact .tail _ (.head _)
  · exact hnpid.imp Eq.symm Eq.symm
  · exact Int.sub_nonpos_of_le hlate
  · rw [hrows] at hother
    rcases List.mem_pair.mp hother with rfl | rfl <;> exact le_rfl

theorem rows_consistent_afterBoth :
    RowConsistent afterBoth.db ⟨5,0,some 9,"alice",some "bob",.p1,some 1,some 2⟩ := by
  have hreach := reachable_afterBoth (historyRoom_nineTables (.inl rfl) (by decide) (by decide))
    (historyRoom_nineTables (.inr rfl) (by decide) (by decide))
  exact rows_consistent timeline_nineTables hreach _ (List.mem_singleton.mpr rfl)

end Tag2now.Records
