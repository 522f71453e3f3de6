import Mathlib.Data.Prod.Lex
import Mathlib.Data.String.Basic
import Tag2now.Collections.Places
import Tag2now.Collections.Queries
import Tag2now.Records.Rows
import Tag2now.Records.Tallies

/-! # What the two tallies count

Both tallies are taken of the matches listed once per player. A row of that list whose own
save was seen stands for one finished event, and one with an opponent for one room, so the
tallies count finished events, each of them once.
-/
namespace Tag2now.Records
open Collections History ReadCommitted

/-! ## The two queries -/

/-- A match as one player had it; the npid of a missing opponent is null. -/
structure Player where
  playedAt : ℤ
  roomSnapshotId : Option ℕ
  npid : Option String
  opponentNpid : Option String
  won : Bool
  seen : Bool

def one (side : Side) (npid opponentNpid : MatchRow → Option String) (m : MatchRow) : Player where
  playedAt := m.playedAt
  roomSnapshotId := m.roomSnapshotId
  npid := npid m
  opponentNpid := opponentNpid m
  won := m.winner = side
  seen := (m.eventId side).isSome

/-- Every match once per player: against whom, whether they won, and whether their own save was seen. -/
def players (db : Store) : List Player :=
  db.matchRows.rows.map (one .p1 (some ·.p1Npid) (·.p2Npid)) ++
    db.matchRows.rows.map (one .p2 (·.p2Npid) (some ·.p1Npid))

/-- What both player tallies count: matches the player's own save showed, against an opponent a room named. -/
def counted (p : Player) : Bool := p.seen && p.opponentNpid.isSome

/-- `NOT IN` holds of null only where the list is empty. -/
def notIn (value : Option String) (excluded : List String) : Bool :=
  excluded.isEmpty || value.any fun value => value ∉ excluded

/-- A row of a tally before it is grouped: the player's match and its room. -/
abbrev Played := Player × RankMatchSnapshotRow

def joined (db : Store) (rooms : Tables) : List Played :=
  innerJoin Player.roomSnapshotId RankMatchSnapshotRow.id (players db) rooms.rankMatches.rows

/-- The name the room showed for the member, which is one of its two. -/
def shownName (npid : Option String) (room : RankMatchSnapshotRow) : String :=
  if some room.user1Npid = npid then room.user1OnlineName else room.user2OnlineName

/-- The weekly list's rows; the excluded names are lowered by Python, the column by PostgreSQL. -/
def weeklyFound (sqlLower pyLower : String → String) (since : ℤ) (excludedNpids : List String) (db : Store)
    (rooms : Tables) : List Played :=
  (joined db rooms).filter fun x =>
    counted x.1 && since ≤ x.1.playedAt && notIn (x.1.npid.map sqlLower) (excludedNpids.map pyLower)

def opponentsFound (npid : String) (since : ℤ) (db : Store) (rooms : Tables) : List Played :=
  (joined db rooms).filter fun x => counted x.1 && x.1.npid = some npid && since ≤ x.1.playedAt

section Queries
variable {κ : Type} [LinearOrder κ] (collation : String → κ)

/-- The row of one group: the last of its names, and what there is to count. -/
def tallyRow {ρ : Type} (member : Player → Option String) (row : String → String → ℕ → ℕ → ℕ → ρ)
    (group : Option String × List Played) : ρ :=
  row (group.1.getD "") (((group.2.map fun p => shownName (member p.1) p.2).argmax collation).getD "")
    group.2.length (group.2.countP fun p => p.1.won) (group.2.countP fun p => !p.1.won)

/-- One row for each npid that `member` gives. -/
def tally {ρ : Type} (member : Player → Option String) (row : String → String → ℕ → ℕ → ℕ → ρ) (found : List Played) :
    List ρ := (groupBy (fun p => member p.1) found).map (tallyRow collation member row)

/-- The rows of the weekly list, before its limit. -/
def weeklyRows (sqlLower pyLower : String → String) (since : ℤ) (excludedNpids : List String) (db : Store)
    (rooms : Tables) : List WeeklyPlayer :=
  sortedBy (fun w => toLex (-(w.matchCount : ℤ),collation w.npid))
    (tally collation Player.npid WeeklyPlayer.mk (weeklyFound sqlLower pyLower since excludedNpids db rooms))

/-- The rows of a player's opponents, before their limit. -/
def opponentRows (npid : String) (since : ℤ) (db : Store) (rooms : Tables) : List OpponentRecord :=
  sortedBy (fun o => toLex (-(o.matchCount : ℤ),collation o.npid))
    (tally collation Player.opponentNpid OpponentRecord.mk (opponentsFound npid since db rooms))

namespace PostgresRecordsAdapter

def weeklyTopPlayers (sqlLower pyLower : String → String) (since : ℤ) (limit : ℕ) (excludedNpids : List String)
    (db : Store) (rooms : Tables) : List WeeklyPlayer :=
  (weeklyRows collation sqlLower pyLower since excludedNpids db rooms).take limit

def frequentOpponents (npid : String) (since : ℤ) (limit : ℕ) (db : Store) (rooms : Tables) : List OpponentRecord :=
  (opponentRows collation npid since db rooms).take limit

end PostgresRecordsAdapter

end Queries

/-! ## What is counted -/

/-- The event shows a match that has an opponent and was played then or later. -/
def AttachedSince (db : Store) (since : ℤ) (event : MatchEventRow) : Prop :=
  ∃ m ∈ db.matchRows.rows, (m.p1EventId = some event.id ∨ m.p2EventId = some event.id) ∧ m.p2Npid ≠ none ∧
    since ≤ m.playedAt

instance (db : Store) (since : ℤ) (event : MatchEventRow) : Decidable (AttachedSince db since event) :=
  inferInstanceAs (Decidable (∃ m ∈ db.matchRows.rows, _))

/-- The player's finished events of those matches. -/
def doneEvents (db : Store) (npid : String) (since : ℤ) : List MatchEventRow :=
  db.events.rows.filter fun e => e.status = .done ∧ e.npid = npid ∧ AttachedSince db since e

/-- The player's row of the one tally, the rows of the other, and their events count the same. -/
structure TalliesAgree (weekly : List WeeklyPlayer) (opponents : List OpponentRecord) (npid : String)
    (events : List MatchEventRow) : Prop where
  once : (weekly.map WeeklyPlayer.npid).Nodup
  matchCount : ∀ w ∈ weekly, w.npid = npid →
    w.matchCount = (opponents.map OpponentRecord.matchCount).sum ∧ w.matchCount = events.length
  wins : ∀ w ∈ weekly, w.npid = npid →
    w.wins = (opponents.map OpponentRecord.wins).sum ∧ w.wins = events.countP fun e => e.result = .win
  losses : ∀ w ∈ weekly, w.npid = npid →
    w.losses = (opponents.map OpponentRecord.losses).sum ∧ w.losses = events.countP fun e => e.result = .loss
  total : ∀ w ∈ weekly, w.wins + w.losses = w.matchCount
  missing : npid ∉ weekly.map WeeklyPlayer.npid ↔ opponents = []
  idle : opponents = [] ↔ events = []

/-! ## The sides of a match and their events -/

/-- Each match with each of its sides. -/
def sides (db : Store) : List (MatchRow × Side) :=
  db.matchRows.rows.map (fun m => (m,Side.p1)) ++ db.matchRows.rows.map fun m => (m,Side.p2)

def MatchRow.player (m : MatchRow) (side : Side) : Player where
  playedAt := m.playedAt
  roomSnapshotId := m.roomSnapshotId
  npid := m.npidOf side
  opponentNpid := m.npidOf side.other
  won := m.winner = side
  seen := (m.eventId side).isSome

section Sides
variable {db : Store}

theorem players_eq (db : Store) : players db = (sides db).map fun x => x.1.player x.2 := by
  unfold players sides
  rw [List.map_append,List.map_map,List.map_map]
  rfl

theorem mem_sides {x : MatchRow × Side} : x ∈ sides db ↔ x.1 ∈ db.matchRows.rows := by
  obtain ⟨m,side⟩ := x
  unfold sides
  cases side <;> simp

theorem nodup_sides (db : Store) : (sides db).Nodup := by
  have hrows : db.matchRows.rows.Nodup := db.matchRows.nodup.of_map
  apply List.Nodup.append
  · exact hrows.map fun m n h => congrArg Prod.fst h
  · exact hrows.map fun m n h => congrArg Prod.fst h
  · intro x hx hx'
    obtain ⟨m,_,rfl⟩ := List.mem_map.mp hx
    obtain ⟨n,_,hn⟩ := List.mem_map.mp hx'
    cases hn

/-- Sides that were seen and finished events are the same in number, whatever is asked of both. -/
theorem length_seen (hdb : Consistent db) {p : MatchRow × Side → Bool} {q : MatchEventRow → Bool}
    (hpq : ∀ m side event, event ∈ db.events.rows → Seen db m side event.id → p (m,side) = q event) :
    ((sides db).filter fun x => (x.1.eventId x.2).isSome && p x).length =
      (db.events.rows.filter fun e => e.status = .done && q e).length := by
  have hperm : (((sides db).filter fun x => (x.1.eventId x.2).isSome && p x).map fun x => x.1.eventId x.2).Perm
      ((db.events.rows.filter fun e => e.status = .done && q e).map fun e => some e.id) := by
    apply (List.perm_ext_iff_of_nodup ?_ ?_).mpr
    · intro id
      rw [List.mem_map,List.mem_map]
      constructor
      · rintro ⟨⟨m,side⟩,hx,rfl⟩
        obtain ⟨hm,hx⟩ := List.mem_filter.mp hx
        obtain ⟨hsome,hp⟩ := Bool.and_eq_true_iff.mp hx
        obtain ⟨id,hid⟩ := Option.isSome_iff_exists.mp hsome
        have hseen : Seen db m side id := ⟨mem_sides.mp hm,hid⟩
        obtain ⟨event,hget,hdone⟩ := hdb.done_of_seen hseen
        have hevent := Table.mem_of_get? hget
        obtain rfl := Table.key_of_get? hget
        have hq := (hpq m side event hevent hseen).symm.trans hp
        exact ⟨event,List.mem_filter.mpr ⟨hevent,by simp [hdone,hq]⟩,hid.symm⟩
      · rintro ⟨event,he,rfl⟩
        obtain ⟨hevent,he⟩ := List.mem_filter.mp he
        obtain ⟨hdone,hq⟩ := Bool.and_eq_true_iff.mp he
        obtain ⟨m,side,hseen⟩ := hdb.seen_of_done hevent (of_decide_eq_true hdone)
        have hp := (hpq m side event hevent hseen).trans hq
        exact ⟨(m,side),List.mem_filter.mpr ⟨mem_sides.mpr hseen.1,by simp [hseen.2,hp]⟩,hseen.2⟩
    · apply List.Nodup.map_on ?_ ((nodup_sides db).sublist List.filter_sublist)
      rintro ⟨m,side⟩ hx ⟨n,side'⟩ hy heq
      obtain ⟨hm,hx⟩ := List.mem_filter.mp hx
      obtain ⟨id,hid⟩ := Option.isSome_iff_exists.mp (Bool.and_eq_true_iff.mp hx).1
      have hn := (List.mem_filter.mp hy).1
      have hsame : m = n ∧ side = side' := hdb.once ⟨mem_sides.mp hm,hid⟩ ⟨mem_sides.mp hn,heq.symm.trans hid⟩
      rw [hsame.1,hsame.2]
    · have hids : (db.events.rows.map MatchEventRow.id).Nodup := db.events.nodup
      have hsome : ((db.events.rows.map MatchEventRow.id).map some).Nodup := hids.map (Option.some_injective ℕ)
      rw [List.map_map] at hsome
      exact hsome.sublist (List.filter_sublist.map _)
  have hlength := hperm.length_eq
  rwa [List.length_map,List.length_map] at hlength

theorem attachedSince_iff (hdb : Consistent db) {m : MatchRow} {side : Side} {event : MatchEventRow} {since : ℤ}
    (hseen : Seen db m side event.id) : AttachedSince db since event ↔ m.p2Npid ≠ none ∧ since ≤ m.playedAt := by
  constructor
  · rintro ⟨n,hn,hside,hrest⟩
    have hother : ∃ side', Seen db n side' event.id := hside.elim (fun h => ⟨.p1,hn,h⟩) fun h => ⟨.p2,hn,h⟩
    obtain ⟨side',hother⟩ := hother
    have hsame : n = m ∧ side' = side := hdb.once hother hseen
    exact hsame.1 ▸ hrest
  · intro hrest
    have hside := hseen.2
    refine ⟨m,hseen.1,?_,hrest⟩
    cases side with
    | p1 => exact .inl hside
    | p2 => exact .inr hside

/-- Whoever is seen on one side has an opponent just where there is a second player. -/
theorem isSome_other {m : MatchRow} {side : Side} {npid : String} (h : m.npidOf side = some npid) :
    (m.npidOf side.other).isSome ↔ m.p2Npid ≠ none := by
  cases side with
  | p1 => exact Option.isSome_iff_ne_none
  | p2 =>
    have hp2 : m.p2Npid = some npid := h
    rw [hp2]
    exact iff_of_true rfl (Option.some_ne_none npid)

/-- The rows that both tallies count of one player. -/
def playerRows (db : Store) (npid : String) (since : ℤ) : List Player :=
  (players db).filter fun p => counted p && since ≤ p.playedAt && p.npid = some npid

/-- Whatever the result decides is counted of a player's rows as of their events. -/
theorem countP_playerRows (hdb : Consistent db)
    (hrows : ∀ m ∈ db.matchRows.rows, RowConsistent db m) {p : Player → Bool}
    {q : MatchOutcome → Bool} (hpq : ∀ m side, p (MatchRow.player m side) = q (outcomeOf side m.winner)) (npid : String)
    (since : ℤ) : (playerRows db npid since).countP p = (doneEvents db npid since).countP fun e => q e.result := by
  have hseen : ∀ m side event, event ∈ db.events.rows → Seen db m side event.id →
      (((m.npidOf side.other).isSome && since ≤ m.playedAt && m.npidOf side = some npid) && p (m.player side)) =
        ((decide (event.npid = npid) && AttachedSince db since event) && q event.result) := by
    intro m side event hevent hseen
    obtain ⟨event',hget,hnpid,hresult⟩ := (hrows m hseen.1).attached hseen.2
    obtain rfl : event' = event := Option.some.inj (hget.symm.trans (Table.get?_of_mem hevent))
    rw [hpq,hresult]
    congr 1
    rw [Bool.eq_iff_iff]
    simp only [Bool.and_eq_true,decide_eq_true_iff,attachedSince_iff hdb hseen,isSome_other hnpid,hnpid,
      Option.some.injEq]
    exact and_comm
  have hlength := length_seen hdb (p := fun x =>
    ((x.1.npidOf x.2.other).isSome && since ≤ x.1.playedAt && x.1.npidOf x.2 = some npid) && p (x.1.player x.2)) hseen
  unfold playerRows doneEvents
  rw [List.countP_eq_length_filter,List.countP_eq_length_filter,List.filter_filter,List.filter_filter,players_eq,
    List.filter_map,List.length_map]
  convert hlength using 2
  · apply List.filter_congr
    intro x _
    simp [counted,MatchRow.player,Bool.and_comm,Bool.and_left_comm,Bool.and_assoc]
  · apply List.filter_congr
    intro e _
    simp [Bool.and_comm,Bool.and_left_comm]

end Sides

/-! ## The rows of a tally -/

section Tally
variable {κ ρ : Type} [LinearOrder κ] {collation : String → κ} {member : Player → Option String}
  {row : String → String → ℕ → ℕ → ℕ → ρ} {found : List Played}

theorem mem_tally {r : ρ} : r ∈ tally collation member row found ↔ ∃ k, (∃ x ∈ found, member x.1 = k) ∧
    tallyRow collation member row (k,rowsOf (fun x => member x.1) found k) = r := by
  unfold tally
  rw [List.mem_map]
  constructor
  · rintro ⟨⟨k,group⟩,hg,rfl⟩
    obtain ⟨hkey,hgroup⟩ := mem_groupBy.mp hg
    exact ⟨k,hkey,congrArg (tallyRow collation member row) (Prod.ext rfl hgroup.symm)⟩
  · rintro ⟨k,hkey,rfl⟩
    exact ⟨_,mem_groupBy.mpr ⟨hkey,rfl⟩,rfl⟩

theorem tally_eq_nil_iff : tally collation member row found = [] ↔ found = [] := by
  constructor
  · intro h
    apply List.eq_nil_iff_forall_not_mem.mpr
    intro x hx
    have hmem : tallyRow collation member row (member x.1,rowsOf (fun x => member x.1) found (member x.1)) ∈
        tally collation member row found := mem_tally.mpr ⟨_,⟨x,hx,rfl⟩,rfl⟩
    rw [h] at hmem
    exact List.not_mem_nil hmem
  · rintro rfl
    rfl

theorem sum_tally {count : ρ → ℕ} {p : Player → Bool}
    (hcount : ∀ group, count (tallyRow collation member row group) = group.2.countP fun x => p x.1) :
    ((tally collation member row found).map count).sum = (found.map Prod.fst).countP p := by
  have hsum : ((groupBy (fun x => member x.1) found).map fun g => g.2.countP fun x => p x.1).sum =
      found.countP fun x => p x.1 := sum_countP_groupBy _
  unfold tally
  rw [List.map_map,List.countP_map]
  exact (congrArg List.sum (List.map_congr_left fun g _ => hcount g)).trans hsum

end Tally

/-! ## Both tallies over the rooms of the history -/

/-- Seen sides have their player, and those with an opponent have one room. -/
structure Attended (db : Store) (rooms : Tables) : Prop where
  named : ∀ p ∈ players db, counted p → ∃ npid, p.npid = some npid
  room : ∀ p ∈ players db, counted p → ∃ room ∈ rooms.rankMatches.rows, p.roomSnapshotId = some room.id
  ids : (rooms.rankMatches.rows.map RankMatchSnapshotRow.id).Nodup

section Attended
variable {db : Store} {rooms : Tables} {tables : ℕ → Tables}

theorem attended (ht : Timeline tables) {last : ℕ} (hrows : ∀ m ∈ db.matchRows.rows, RowConsistent db m)
    (hsound : ∀ m ∈ db.matchRows.rows, Sound (historyRoom (upTo tables last)) db m) : Attended db (tables last) := by
  have hplayer : ∀ p ∈ players db, counted p → ∃ m side npid, m ∈ db.matchRows.rows ∧ p = MatchRow.player m side ∧
      m.npidOf side = some npid ∧ m.p2Npid ≠ none := by
    intro p hp hcounted
    rw [players_eq] at hp
    obtain ⟨⟨m,side⟩,hx,rfl⟩ := List.mem_map.mp hp
    have hm := mem_sides.mp hx
    obtain ⟨hseen,hother⟩ := Bool.and_eq_true_iff.mp hcounted
    obtain ⟨id,hid⟩ := Option.isSome_iff_exists.mp hseen
    obtain ⟨event,_,hnpid,_⟩ := (hrows m hm).attached hid
    exact ⟨m,side,event.npid,hm,rfl,hnpid,(isSome_other hnpid).mp hother⟩
  constructor
  · intro p hp hcounted
    obtain ⟨m,side,npid,_,rfl,hnpid,_⟩ := hplayer p hp hcounted
    exact ⟨npid,hnpid⟩
  · intro p hp hcounted
    obtain ⟨m,side,_,hm,rfl,_,hp2⟩ := hplayer p hp hcounted
    cases (hsound m hm).members with
    | none _ hnone => exact absurd hnone hp2
    | room event r hroom hid _ _ =>
      obtain ⟨n,found,hfound,rfl,_⟩ := hroom.row
      obtain ⟨kept,hkept,hkeptid,_⟩ := ht.kept (Nat.min_le_right n last) found hfound
      exact ⟨kept,hkept,hid.trans (congrArg some hkeptid.symm)⟩
  · have hnodup : (tables last).rankMatches.rows.Nodup := (tables last).rankMatches.nodup.of_map
    apply List.Nodup.map_on ?_ hnodup
    exact fun room hroom room' hroom' => (ht.tablesOk last).id_inj room hroom room' hroom'

/-- What is found of the counted rows is each of them once. -/
theorem Attended.found (h : Attended db rooms) {c : Player → Bool} (hc : ∀ p, c p → counted p) :
    ((joined db rooms).filter fun x => c x.1).map Prod.fst = (players db).filter c := by
  unfold joined
  rw [filter_innerJoin]
  apply map_fst_innerJoin h.ids
  intro p hp
  obtain ⟨hp,hcp⟩ := List.mem_filter.mp hp
  exact h.room p hp (hc p hcp)

/-! ## The player in both -/

section Agree
variable {κ : Type} [LinearOrder κ] {collation : String → κ} {sqlLower pyLower : String → String} {since : ℤ}
  {excludedNpids : List String} {npid : String}

theorem weeklyRows_perm : (weeklyRows collation sqlLower pyLower since excludedNpids db rooms).Perm
    (tally collation Player.npid WeeklyPlayer.mk (weeklyFound sqlLower pyLower since excludedNpids db rooms)) :=
  sortedBy_perm _ _

theorem opponentRows_perm : (opponentRows collation npid since db rooms).Perm
    (tally collation Player.opponentNpid OpponentRecord.mk (opponentsFound npid since db rooms)) := sortedBy_perm _ _

theorem Attended.weekly (h : Attended db rooms) :
    (weeklyFound sqlLower pyLower since excludedNpids db rooms).map Prod.fst =
    (players db).filter fun p =>
      counted p && since ≤ p.playedAt && notIn (p.npid.map sqlLower) (excludedNpids.map pyLower) := by
  have hc : ∀ p : Player, (counted p && since ≤ p.playedAt &&
      notIn (p.npid.map sqlLower) (excludedNpids.map pyLower)) → counted p := by
    intro p hp
    simp only [Bool.and_eq_true] at hp
    exact hp.1.1
  exact h.found hc

theorem Attended.opponents (h : Attended db rooms) :
    (opponentsFound npid since db rooms).map Prod.fst = playerRows db npid since := by
  have hc : ∀ p : Player, (counted p && p.npid = some npid && since ≤ p.playedAt) → counted p := by
    intro p hp
    simp only [Bool.and_eq_true] at hp
    exact hp.1.1
  refine (h.found hc).trans ?_
  unfold playerRows
  apply List.filter_congr
  intro p _
  simp [Bool.and_comm,Bool.and_left_comm]

/-- A player who is not excluded has all their rows in one group. -/
theorem Attended.group (h : Attended db rooms) (hincluded : sqlLower npid ∉ excludedNpids.map pyLower) :
    (rowsOf (fun x : Played => x.1.npid) (weeklyFound sqlLower pyLower since excludedNpids db rooms)
      (some npid)).map Prod.fst = playerRows db npid since := by
  have hmap : (rowsOf (fun x : Played => x.1.npid) (weeklyFound sqlLower pyLower since excludedNpids db rooms)
      (some npid)).map Prod.fst = ((weeklyFound sqlLower pyLower since excludedNpids db rooms).map Prod.fst).filter
        fun p => p.npid = some npid := by
    rw [List.filter_map]
    rfl
  rw [hmap,h.weekly,List.filter_filter]
  unfold playerRows
  apply List.filter_congr
  intro p _
  by_cases hp : p.npid = some npid
  · have hin : notIn (p.npid.map sqlLower) (excludedNpids.map pyLower) = true := by
      rw [hp]
      unfold notIn
      exact Bool.or_eq_true_iff.mpr (.inr (decide_eq_true hincluded))
    rw [hin]
    simp [hp]
  · simp [hp]

theorem Attended.keys (h : Attended db rooms) {x : Played}
    (hx : x ∈ weeklyFound sqlLower pyLower since excludedNpids db rooms) : ∃ name, x.1.npid = some name := by
  have hmem := List.mem_map_of_mem (f := Prod.fst) hx
  rw [h.weekly] at hmem
  obtain ⟨hp,hc⟩ := List.mem_filter.mp hmem
  simp only [Bool.and_eq_true] at hc
  exact h.named x.1 hp hc.1.1

/-- A player's row of the weekly list is that of their group. -/
theorem Attended.mem_weeklyRows (h : Attended db rooms) {w : WeeklyPlayer}
    (hw : w ∈ weeklyRows collation sqlLower pyLower since excludedNpids db rooms) :
    (∃ x ∈ weeklyFound sqlLower pyLower since excludedNpids db rooms, x.1.npid = some w.npid) ∧
      w = tallyRow collation Player.npid WeeklyPlayer.mk (some w.npid,rowsOf (fun x : Played => x.1.npid)
        (weeklyFound sqlLower pyLower since excludedNpids db rooms) (some w.npid)) := by
  obtain ⟨k,⟨x,hx,hkey⟩,rfl⟩ := mem_tally.mp (weeklyRows_perm.mem_iff.mp hw)
  obtain ⟨name,hname⟩ := h.keys hx
  obtain rfl : some name = k := hname.symm.trans hkey
  exact ⟨⟨x,hx,hname⟩,rfl⟩

theorem Attended.mem_weekly_iff (h : Attended db rooms) (hincluded : sqlLower npid ∉ excludedNpids.map pyLower) :
    npid ∈ (weeklyRows collation sqlLower pyLower since excludedNpids db rooms).map WeeklyPlayer.npid ↔
      playerRows db npid since ≠ [] := by
  rw [← h.group hincluded,ne_eq,List.map_eq_nil_iff,rowsOf_eq_nil_iff,not_not,List.mem_map,List.mem_map]
  constructor
  · rintro ⟨w,hw,rfl⟩
    exact (h.mem_weeklyRows hw).1
  · rintro ⟨x,hx,hname⟩
    exact ⟨_,weeklyRows_perm.mem_iff.mpr (mem_tally.mpr ⟨some npid,⟨x,hx,hname⟩,rfl⟩),rfl⟩

theorem Attended.nodup_weekly (h : Attended db rooms) :
    ((weeklyRows collation sqlLower pyLower since excludedNpids db rooms).map WeeklyPlayer.npid).Nodup := by
  apply (weeklyRows_perm.map _).nodup_iff.mpr
  have hkeys : (tally collation Player.npid WeeklyPlayer.mk
      (weeklyFound sqlLower pyLower since excludedNpids db rooms)).map WeeklyPlayer.npid =
        ((weeklyFound sqlLower pyLower since excludedNpids db rooms).map fun x => x.1.npid).dedup.map (·.getD "") := by
    unfold tally
    rw [← groupBy_keys,List.map_map,List.map_map]
    rfl
  rw [hkeys]
  apply List.Nodup.map_on ?_ (List.nodup_dedup _)
  intro k hk k' hk' heq
  obtain ⟨x,hx,rfl⟩ := List.mem_map.mp (List.mem_dedup.mp hk)
  obtain ⟨y,hy,rfl⟩ := List.mem_map.mp (List.mem_dedup.mp hk')
  obtain ⟨name,hname⟩ := h.keys hx
  obtain ⟨name',hname'⟩ := h.keys hy
  rw [hname,hname'] at heq ⊢
  exact congrArg some heq

theorem Attended.opponents_eq_nil_iff (h : Attended db rooms) :
    opponentRows collation npid since db rooms = [] ↔ playerRows db npid since = [] := by
  have hfound : opponentRows collation npid since db rooms = [] ↔ opponentsFound npid since db rooms = [] := by
    rw [← List.length_eq_zero_iff,opponentRows_perm.length_eq,List.length_eq_zero_iff,tally_eq_nil_iff]
  rw [hfound,← h.opponents,List.map_eq_nil_iff]

/-- Whatever is counted of matches, the two tallies and the events give the same number. -/
theorem Attended.count (h : Attended db rooms) (hdb : Consistent db)
    (hrows : ∀ m ∈ db.matchRows.rows, RowConsistent db m) (hincluded : sqlLower npid ∉ excludedNpids.map pyLower)
    {p : Player → Bool} {q : MatchOutcome → Bool}
    (hpq : ∀ m side, p (MatchRow.player m side) = q (outcomeOf side m.winner))
    (weekly : WeeklyPlayer → ℕ) (opponent : OpponentRecord → ℕ)
    (hweekly : ∀ group, weekly (tallyRow collation Player.npid WeeklyPlayer.mk group) = group.2.countP fun x => p x.1)
    (hopponent : ∀ group, opponent (tallyRow collation Player.opponentNpid OpponentRecord.mk group) =
      group.2.countP fun x => p x.1)
    {w : WeeklyPlayer} (hw : w ∈ weeklyRows collation sqlLower pyLower since excludedNpids db rooms)
    (hname : w.npid = npid) : weekly w = ((opponentRows collation npid since db rooms).map opponent).sum ∧
      weekly w = (doneEvents db npid since).countP fun e => q e.result := by
  have hrow : weekly w = (playerRows db npid since).countP p := by
    rw [(h.mem_weeklyRows hw).2,hname,hweekly,← h.group hincluded,List.countP_map]
    rfl
  have hsum : ((opponentRows collation npid since db rooms).map opponent).sum =
      (playerRows db npid since).countP p := by
    rw [(opponentRows_perm.map opponent).sum_eq,sum_tally hopponent,h.opponents]
  exact ⟨hrow.trans hsum.symm,hrow.trans (countP_playerRows hdb hrows hpq npid since)⟩

theorem won_eq (m : MatchRow) (side : Side) : (m.player side).won = decide (outcomeOf side m.winner = .win) := by
  cases side <;> cases hwinner : m.winner <;> simp [MatchRow.player,hwinner] <;> decide

theorem lost_eq (m : MatchRow) (side : Side) : (!(m.player side).won) = decide (outcomeOf side m.winner = .loss) := by
  cases side <;> cases hwinner : m.winner <;> simp [MatchRow.player,hwinner] <;> decide

theorem Attended.talliesAgree (h : Attended db rooms) (hdb : Consistent db)
    (hrows : ∀ m ∈ db.matchRows.rows, RowConsistent db m) (hincluded : sqlLower npid ∉ excludedNpids.map pyLower) :
    TalliesAgree (weeklyRows collation sqlLower pyLower since excludedNpids db rooms)
      (opponentRows collation npid since db rooms) npid (doneEvents db npid since) where
  once := h.nodup_weekly
  matchCount w hw hname := by
    have hlength (group : List Played) : group.length = group.countP fun _ => true :=
      congrFun List.countP_true.symm group
    have hcount := h.count (p := fun _ => true) (q := fun _ => true) hdb hrows hincluded (fun _ _ => rfl)
      WeeklyPlayer.matchCount OpponentRecord.matchCount (fun group => hlength group.2) (fun group => hlength group.2)
      hw hname
    rw [List.countP_true] at hcount
    exact hcount
  wins w hw hname := h.count (q := fun o => o = .win) hdb hrows hincluded won_eq WeeklyPlayer.wins OpponentRecord.wins
    (fun _ => rfl) (fun _ => rfl) hw hname
  losses w hw hname := h.count (p := fun p => !p.won) (q := fun o => o = .loss) hdb hrows hincluded lost_eq
    WeeklyPlayer.losses OpponentRecord.losses (fun _ => rfl) (fun _ => rfl) hw hname
  total w hw := by
    have hsplit (group : List Played) :
        (group.countP fun x => x.1.won) + (group.countP fun x => !x.1.won) = group.length := by
      rw [List.length_eq_countP_add_countP fun x : Played => x.1.won]
      simp
    rw [(h.mem_weeklyRows hw).2]
    exact hsplit _
  missing := by
    rw [h.mem_weekly_iff hincluded,not_not,h.opponents_eq_nil_iff]
  idle := by
    have hlength := countP_playerRows hdb hrows (p := fun _ => true) (q := fun _ => true) (fun _ _ => rfl) npid since
    rw [List.countP_true,List.countP_true] at hlength
    rw [h.opponents_eq_nil_iff,← List.length_eq_zero_iff,hlength,List.length_eq_zero_iff]

end Agree

end Attended

/-- Without their limits, both tallies count the player's finished events since then. -/
theorem tallies_agree {tables : ℕ → Tables} (ht : Timeline tables) {last : ℕ}
    {s : State Store Lock Unit String Processed}
    (hs : Reachable (queue (historyRoom (upTo tables last))) (fun _ _ _ => True) (· = Store.empty) s)
    {κ : Type} [LinearOrder κ] (collation : String → κ) (sqlLower pyLower : String → String) (since : ℤ)
    {excludedNpids : List String} {npid : String} (hincluded : sqlLower npid ∉ excludedNpids.map pyLower) :
    ∃ weekly opponents,
      (∀ limit, PostgresRecordsAdapter.weeklyTopPlayers collation sqlLower pyLower since limit excludedNpids s.db
        (tables last) = weekly.take limit) ∧
      (∀ limit, PostgresRecordsAdapter.frequentOpponents collation npid since limit s.db (tables last) =
        opponents.take limit) ∧
      TalliesAgree weekly opponents npid (doneEvents s.db npid since) := by
  have hrows := rows_consistent (ht.upTo last) hs
  obtain ⟨hatom,hdb,_⟩ := hs.refines (discipline_sound (historyRoom (upTo tables last)))
  have hsound := sound (knownRooms_historyRoom (ht.upTo last)) hatom
  exact ⟨_,_,fun _ => rfl,fun _ => rfl,(attended ht hrows hsound).talliesAgree hdb hrows hincluded⟩

/-- Both lower names of ASCII letters alike. -/
def lowerAscii (name : String) : String := String.ofList (name.toList.map Char.toLower)

theorem upTo_nineTables : upTo nineTables 1 = nineTables := by
  funext n
  cases n with
  | zero => rfl
  | succ n =>
    unfold upTo
    rw [Nat.min_eq_right (Nat.le_add_left 1 n)]
    rfl

theorem tallies_agree_afterBoth : ∃ weekly opponents,
    (∀ limit, PostgresRecordsAdapter.weeklyTopPlayers id lowerAscii lowerAscii 0 limit ["Carol"] afterBoth.db
      (nineTables 1) = weekly.take limit) ∧
    (∀ limit, PostgresRecordsAdapter.frequentOpponents id "alice" 0 limit afterBoth.db (nineTables 1) =
      opponents.take limit) ∧
    TalliesAgree weekly opponents "alice" (doneEvents afterBoth.db "alice" 0) := by
  have hreach := reachable_afterBoth (historyRoom_nineTables (.inl rfl) (by decide) (by decide))
    (historyRoom_nineTables (.inr rfl) (by decide) (by decide))
  rw [← upTo_nineTables] at hreach
  exact tallies_agree timeline_nineTables hreach id lowerAscii lowerAscii 0 (by decide)

end Tag2now.Records
