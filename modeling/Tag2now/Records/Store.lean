import Mathlib.Data.List.MinMax
import Tag2now.Records.Domain
import Tag2now.Transactions.Program
import Tag2now.Transactions.Table

/-! # The match tables and the statements run on them

The rows of `match_events` and `matches` with the columns the queue and the reads
use, and one program for each method of the repository. What PostgreSQL is free to
choose is left open: the id of a new row, the nearest match among equally near
ones, and which due events a claim passes over because another transaction holds
them or its snapshot does not have them.
-/
namespace Tag2now.Records
open History ReadCommitted

structure MatchEventRow where
  id : ℕ
  npid : String
  dataId : ℤ
  result : MatchOutcome
  chars : List ℤ
  ranks : Option (List (Option ℤ))
  savedAt : ℤ
  status : EventStatus
  attempts : ℕ
  availableAt : ℤ
  lastError : Option String
  deriving DecidableEq

structure MatchRow where
  id : ℕ
  playedAt : ℤ
  roomSnapshotId : Option ℕ
  p1Npid : String
  p2Npid : Option String
  winner : Side
  p1EventId : Option ℕ
  p2EventId : Option ℕ
  deriving DecidableEq

structure Store where
  events : Table MatchEventRow.id
  matchRows : Table MatchRow.id

def Store.empty : Store := ⟨.empty,.empty⟩

/-- Row locks on events and matches, and the advisory lock of a room. -/
inductive Lock
  | event (id : ℕ)
  | room (roomSnapshotId : ℕ)
  | matchRow (id : ℕ)
  deriving DecidableEq

def maxAttempts : ℕ := 5
def retryDelay : ℤ := 30 * second
/-- Both players save as the match ends, and the room's next match is further off than this. -/
def sameMatchWindow : ℤ := 60 * second

def toEvent (row : MatchEventRow) : MatchEvent where
  id := row.id
  npid := row.npid
  outcome := row.result
  chars := row.chars
  savedAt := row.savedAt
  ranks := row.ranks
  attempts := row.attempts

def MatchRow.eventId (m : MatchRow) : Side → Option ℕ
  | .p1 => m.p1EventId
  | .p2 => m.p2EventId

def MatchRow.setEventId (m : MatchRow) (side : Side) (event : ℕ) : MatchRow :=
  match side with
  | .p1 => { m with p1EventId := some event }
  | .p2 => { m with p2EventId := some event }

abbrev Program := Prog Store Lock String

/-! ## Queue -/

def Due (now : ℤ) (row : MatchEventRow) : Prop := row.status = .pending ∧ row.availableAt ≤ now

instance (now : ℤ) (row : MatchEventRow) : Decidable (Due now row) :=
  inferInstanceAs (Decidable (_ ∧ _))

/-- The oldest due event but for the skipped ones. -/
def oldestDue (db : Store) (now : ℤ) (skipped : ℕ → Bool) : Option MatchEventRow :=
  (db.events.rows.filter (fun row => Due now row ∧ skipped row.id = false)).argmin MatchEventRow.id

def claimEvent (now : ℤ) : Program (Option MatchEvent) :=
  .perform fun db o => ∃ skipped, o = match oldestDue db now skipped with
    | none => ⟨none,∅,id⟩
    | some row => ⟨some (toEvent row),{.event row.id},id⟩

def setEvent (id : ℕ) (f : MatchEventRow → MatchEventRow) (hf : ∀ row, (f row).id = row.id)
    (db : Store) : Store := { db with events := db.events.modify id f hf }

def finished (row : MatchEventRow) : MatchEventRow := { row with status := .done, lastError := none }

theorem finished_id (row : MatchEventRow) : (finished row).id = row.id := rfl

def finishEvent (eventId : ℕ) : Program Unit :=
  .execute (fun _ => ()) (fun _ => {.event eventId}) fun _ => setEvent eventId finished finished_id

def failed (event : MatchEvent) (error : String) (now : ℤ) (row : MatchEventRow) :
    MatchEventRow :=
  let attempts := event.attempts + 1
  { row with
    attempts := attempts
    lastError := some error
    availableAt := now + retryDelay * attempts
    status := if maxAttempts ≤ attempts then .dead else .pending }

theorem failed_id (event : MatchEvent) (error : String) (now : ℤ) (row : MatchEventRow) :
    (failed event error now row).id = row.id := rfl

def failEvent (event : MatchEvent) (error : String) (now : ℤ) : Program Unit :=
  .execute (fun _ => ()) (fun _ => {.event event.id})
    fun _ => setEvent event.id (failed event error now) (failed_id event error now)

/-! ## Matches -/

def lockRoom (roomSnapshotId : ℕ) : Program Unit :=
  .execute (fun _ => ()) (fun _ => {.room roomSnapshotId}) fun _ => id

/-- A match of this room near the event's save, with the same winner and `side` still unseen. -/
def Fillable (event : MatchEvent) (room : RankRoom) (side winner : Side) (row : MatchRow) : Prop :=
  row.roomSnapshotId = some room.roomSnapshotId ∧ row.winner = winner ∧ row.eventId side = none ∧
    event.savedAt - sameMatchWindow ≤ row.playedAt ∧ row.playedAt ≤ event.savedAt + sameMatchWindow

instance (event : MatchEvent) (room : RankRoom) (side winner : Side) (row : MatchRow) :
    Decidable (Fillable event room side winner row) := inferInstanceAs (Decidable (_ ∧ _))

def distance (event : MatchEvent) (row : MatchRow) : ℕ := (row.playedAt - event.savedAt).natAbs

/-- The row is one PostgreSQL may answer first when it orders the fillable ones by distance. -/
def Nearest (db : Store) (event : MatchEvent) (room : RankRoom) (side winner : Side)
    (row : MatchRow) : Prop :=
  (row ∈ db.matchRows.rows ∧ Fillable event room side winner row) ∧
    ∀ other ∈ db.matchRows.rows, Fillable event room side winner other →
      distance event row ≤ distance event other

def Unfillable (db : Store) (event : MatchEvent) (room : RankRoom) (side winner : Side) : Prop :=
  ∀ row ∈ db.matchRows.rows, ¬ Fillable event room side winner row

def selectFillable (event : MatchEvent) (room : RankRoom) (side winner : Side) :
    Program (Option ℕ) :=
  .choose fun db answer => match answer with
    | none => Unfillable db event room side winner
    | some id => ∃ row, Nearest db event room side winner row ∧ row.id = id

theorem setEventId_id (side : Side) (event : ℕ) (m : MatchRow) : (m.setEventId side event).id = m.id := by
  cases side <;> rfl

def setMatch (id : ℕ) (side : Side) (event : ℕ) (db : Store) : Store :=
  { db with matchRows := db.matchRows.modify id (·.setEventId side event) (setEventId_id side event) }

def fillSide (event : MatchEvent) (room : RankRoom) (side winner : Side) : Program Bool := do
  match ← selectFillable event room side winner with
  | none => pure false
  | some matchId =>
    .execute (fun _ => ()) (fun _ => {.matchRow matchId}) fun _ => setMatch matchId side event.id
    pure true

def newMatch (id : ℕ) (event : MatchEvent) (room : Option RankRoom) (side winner : Side) :
    MatchRow where
  id := id
  playedAt := event.savedAt
  roomSnapshotId := room.map (·.roomSnapshotId)
  p1Npid := room.elim event.npid (·.user1Npid)
  p2Npid := room.map (·.user2Npid)
  winner := winner
  p1EventId := if side = .p1 then some event.id else none
  p2EventId := if side = .p2 then some event.id else none

def insertMatch (row : MatchRow) (db : Store) : Store := { db with matchRows := db.matchRows.insert row }

def addMatch (event : MatchEvent) (room : Option RankRoom) (side winner : Side) : Program Unit :=
  .perform fun db o => ∃ id, db.matchRows.get? id = none ∧
    o = ⟨(),{.matchRow id},insertMatch (newMatch id event room side winner)⟩

end Tag2now.Records
