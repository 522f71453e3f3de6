import Mathlib.Data.List.Sort
import Tag2now.Reservation.Domain
import Tag2now.Transactions.Program

/-! # The reservation tables and the statements run on them

The rows of reservations and of their participants, the keys of their creation, and
one program for each method of the repository. The store carries the time, which the
clock readings take and which only moves on. A row lock is exclusive; an `UPDATE` takes
the locks of the rows its condition picks, and writes these.
-/
namespace Tag2now.Reservations
open ReadCommitted Idempotency

structure ReservationRow where
  id : ℕ
  startAt : ℤ
  hostDisplayName : String
  hostSubject : Option String
  hostRanks : List String
  matchType : MatchType
  capacity : ℕ
  memo : String
  status : ReservationStatus
  createdAt : ℤ
  updatedAt : ℤ
  cancelledAt : Option ℤ
  endedAt : Option ℤ
  deriving DecidableEq

structure ParticipantRow where
  id : ℕ
  reservationId : ℕ
  displayName : String
  subject : Option String
  ranks : List String
  joinedAt : ℤ
  cancelledAt : Option ℤ
  deriving DecidableEq

structure Store where
  now : ℤ
  reservations : Table ReservationRow.id
  participants : Table ParticipantRow.id
  keys : KeyTable Reservation

inductive Lock
  | reservation (id : ℕ)
  | participant (id : ℕ)
  | key (owner : String × String)
  deriving DecidableEq

abbrev Program := Prog Store Lock ReservationError

def keyStore : KeyStore Store Lock ReservationError Reservation where
  get db := db.keys
  put t db := { db with keys := t }
  lock := .key
  raised := .key
  get_put _ _ := rfl

/-- A clock reading. Where transactions are punctual, this one is over within an hour of it. -/
def clock (punctual : Prop) : Program ℤ := do
  let now ← .query Store.now
  .deadline (fun db => punctual → db.now ≤ now + listingGrace) (pure now)

/-! ## Reading -/

def seats (db : Store) (reservationId : ℕ) : List ParticipantRow :=
  db.participants.rows.filter fun p => p.reservationId = reservationId ∧ p.cancelledAt = none

def summary (p : ParticipantRow) : ParticipantSummary where
  id := p.id
  displayName := p.displayName
  username := p.subject

def joinedBefore (p q : ParticipantRow) : Bool :=
  p.joinedAt < q.joinedAt ∨ (p.joinedAt = q.joinedAt ∧ p.id ≤ q.id)

def reservation (row : ReservationRow) (participantCount : ℕ) (participants : List ParticipantSummary) :
    Reservation where
  id := row.id
  startAt := row.startAt
  hostDisplayName := row.hostDisplayName
  hostRanks := row.hostRanks
  matchType := row.matchType
  capacity := row.capacity
  memo := row.memo
  status := row.status
  participantCount := participantCount
  createdAt := row.createdAt
  participants := participants
  hostUsername := row.hostSubject

/-- A row with its participants counted and listed, in the order they joined. -/
def withParticipantCount (db : Store) (row : ReservationRow) : Reservation :=
  reservation row (seats db row.id).length (((seats db row.id).mergeSort joinedBefore).map summary)

/-- Rows whose grace hour past the start has already run out. -/
def Finished (now : ℤ) (row : ReservationRow) : Prop := Live row.status ∧ row.startAt ≤ now - listingGrace

instance (now : ℤ) (row : ReservationRow) : Decidable (Finished now row) :=
  inferInstanceAs (Decidable (_ ∧ _))

def activeParticipantCount (reservationId : ℕ) : Program ℕ := .query fun db => (seats db reservationId).length

def activeParticipation (reservationId : ℕ) (subject : String) : Program (Option ParticipantRow) :=
  .query fun db => (seats db reservationId).find? fun p => p.subject = some subject

/-- The one row of the reservation, counted; `missing` is raised when there is none. -/
def readOne (reservationId : ℕ) (missing : ReservationError) : Program Reservation := do
  match ← .query fun db => (db.reservations.get? reservationId).map (withParticipantCount db) with
  | none => .raise missing
  | some found => pure found

def notFound : ReservationError := .notFound "Reservation not found"

def get (reservationId : ℕ) : Program Reservation := readOne reservationId notFound

/-- `SELECT .. FOR UPDATE` of one reservation. The session keeps no row of an earlier
read alive, so the locked row is as stored. -/
def lockReservation (reservationId : ℕ) : Program ReservationRow := do
  match ← .execute (fun db => db.reservations.get? reservationId)
    (fun db => if (db.reservations.get? reservationId).isSome then {.reservation reservationId} else ∅)
    (fun _ => id) with
  | none => .raise notFound
  | some row => pure row

/-! ## Writing -/

def modifyRow (id : ℕ) (f : ReservationRow → ReservationRow) (hf : ∀ row, (f row).id = row.id)
    (db : Store) : Store := { db with reservations := db.reservations.modify id f hf }

def setRow (id : ℕ) (f : ReservationRow → ReservationRow) (hf : ∀ row, (f row).id = row.id) :
    Program Unit := .execute (fun _ => ()) (fun _ => {.reservation id}) fun _ => modifyRow id f hf

def insertRow (row : ReservationRow) (db : Store) : Store :=
  { db with reservations := db.reservations.insert row }

def insertSeat (p : ParticipantRow) (db : Store) : Store :=
  { db with participants := db.participants.insert p }

def released (now : ℤ) (p : ParticipantRow) : ParticipantRow := { p with cancelledAt := some now }

def releaseIf (now : ℤ) (ids : ℕ → Bool) (p : ParticipantRow) : ParticipantRow :=
  if ids p.id then released now p else p

theorem releaseIf_id (now : ℤ) (ids : ℕ → Bool) (p : ParticipantRow) : (releaseIf now ids p).id = p.id := by
  unfold releaseIf
  split <;> rfl

def cancelSeats (now : ℤ) (ids : ℕ → Bool) (db : Store) : Store :=
  { db with participants := db.participants.update (releaseIf now ids) (releaseIf_id now ids) }

def endedRow (now : ℤ) (row : ReservationRow) : ReservationRow :=
  { row with status := .ended, endedAt := some now, updatedAt := now }

def endIf (now : ℤ) (ids : ℕ → Bool) (row : ReservationRow) : ReservationRow :=
  if ids row.id then endedRow now row else row

theorem endIf_id (now : ℤ) (ids : ℕ → Bool) (row : ReservationRow) : (endIf now ids row).id = row.id := by
  unfold endIf
  split <;> rfl

def endRows (now : ℤ) (ids : ℕ → Bool) (db : Store) : Store :=
  { db with reservations := db.reservations.update (endIf now ids) (endIf_id now ids) }

/-- The seat is active, in a reservation that the view picks. -/
def picksSeat (picked : Store → ℕ → Bool) (db : Store) (id : ℕ) : Bool :=
  (db.participants.get? id).any fun p => p.cancelledAt = none ∧ picked db p.reservationId

def releaseSeats (now : ℤ) (picked : Store → ℕ → Bool) : Program Unit :=
  .execute (fun _ => ()) (fun db => {l | ∃ id, picksSeat picked db id = true ∧ l = .participant id})
    fun view => cancelSeats now (picksSeat picked view)

def isFinished (now : ℤ) (db : Store) (id : ℕ) : Bool := (db.reservations.get? id).any (Finished now)

/-- A reservation that stops being live carries no active participants. -/
def releaseParticipants (reservationId : ℕ) (now : ℤ) : Program Unit :=
  releaseSeats now fun _ id => id = reservationId

def endFinished (now : ℤ) : Program Unit :=
  .execute (fun _ => ()) (fun db => {l | ∃ id, isFinished now db id = true ∧ l = .reservation id}) fun view =>
    endRows now (isFinished now view)

/-- Retire reservations whose time has passed, in two statements. -/
def expireFinished (now : ℤ) : Program Unit := do
  releaseSeats now (isFinished now)
  endFinished now

/-- The rows the listing shows, in an order it may show them in. -/
def Listing (now : ℤ) (db : Store) (rows : List ReservationRow) : Prop :=
  (rows.Perm (db.reservations.rows.filter fun row =>
    now - listingGrace < row.startAt ∧ row.startAt < windowEnd now ∧ Live row.status)) ∧
  rows.Pairwise fun r q => r.startAt < q.startAt ∨
    (r.startAt = q.startAt ∧ (q.status = .open_ → r.status = .open_))

/-- Everything from an hour ago up to the next 06:00 in Seoul. -/
def listUpcoming (punctual : Prop) : Program (List Reservation) := do
  let now ← clock punctual
  expireFinished now
  .choose fun db answer => ∃ rows, Listing now db rows ∧ answer = rows.map (withParticipantCount db)

structure Values where
  startAt : ℤ
  hostSubject : String
  hostDisplayName : String
  hostRanks : List String
  matchType : MatchType
  capacity : ℕ
  memo : String

def newRow (values : Values) (id : ℕ) (createdAt : ℤ) : ReservationRow where
  id := id
  startAt := values.startAt
  hostDisplayName := values.hostDisplayName
  hostSubject := some values.hostSubject
  hostRanks := values.hostRanks
  matchType := values.matchType
  capacity := values.capacity
  memo := values.memo
  status := .open_
  createdAt := createdAt
  updatedAt := createdAt
  cancelledAt := none
  endedAt := none

def create (values : Values) : Program Reservation :=
  .perform fun db o => ∃ id createdAt, db.reservations.get? id = none ∧
    o = ⟨reservation (newRow values id createdAt) 0 [],{.reservation id},insertRow (newRow values id createdAt)⟩

/-- A partial edit; a field left out stays as it is. -/
structure Changes where
  startAt : Option ℤ
  ranks : Option (List String)
  matchType : Option MatchType
  capacity : Option ℕ
  memo : Option String

def Changes.apply (changes : Changes) (now : ℤ) (row : ReservationRow) : ReservationRow :=
  { row with
    startAt := changes.startAt.getD row.startAt
    hostRanks := changes.ranks.getD row.hostRanks
    matchType := changes.matchType.getD row.matchType
    capacity := changes.capacity.getD row.capacity
    memo := changes.memo.getD row.memo
    updatedAt := now }

theorem Changes.apply_id (changes : Changes) (now : ℤ) (row : ReservationRow) :
    (changes.apply now row).id = row.id := rfl

def update (reservationId : ℕ) (hostSubject : String) (now : ℤ) (changes : Changes) :
    Program Reservation := do
  let row ← lockReservation reservationId
  .ofExcept (ensureEditedByHost row.hostSubject hostSubject)
  let count ← activeParticipantCount reservationId
  .ofExcept (ensureEditable row.status row.startAt count now)
  setRow reservationId (changes.apply now) (changes.apply_id now)
  pure (reservation (changes.apply now row) count [])

def setStatus (now : ℤ) (status : ReservationStatus) (row : ReservationRow) : ReservationRow :=
  { row with status := status, updatedAt := now }

theorem setStatus_id (now : ℤ) (status : ReservationStatus) (row : ReservationRow) :
    (setStatus now status row).id = row.id := rfl

def newSeat (id reservationId : ℕ) (subject displayName : String) (ranks : List String) (joinedAt : ℤ) :
    ParticipantRow where
  id := id
  reservationId := reservationId
  displayName := displayName
  subject := some subject
  ranks := ranks
  joinedAt := joinedAt
  cancelledAt := none

def participant (p : ParticipantRow) : Participant where
  id := p.id
  reservationId := p.reservationId
  displayName := p.displayName
  ranks := p.ranks
  joinedAt := p.joinedAt

/-- Insert a seat; the unique index on active subjects is the backstop of the check before it. -/
def addSeat (reservationId : ℕ) (subject displayName : String) (ranks : List String) :
    Program ParticipantRow := do
  let taken ← activeParticipation reservationId subject
  .ensure (taken = none) (.state "이미 참가한 예약입니다.")
  .perform fun db o => ∃ id joinedAt, db.participants.get? id = none ∧
    o = ⟨newSeat id reservationId subject displayName ranks joinedAt,{.participant id},
      insertSeat (newSeat id reservationId subject displayName ranks joinedAt)⟩

def join (reservationId : ℕ) (subject displayName : String) (ranks : List String) (now : ℤ) :
    Program (Reservation × Participant) := do
  let row ← lockReservation reservationId
  let count ← activeParticipantCount reservationId
  let alreadyJoined ← activeParticipation reservationId subject
  .ofExcept (ensureJoinableBy row.hostSubject subject alreadyJoined.isSome)
  .ofExcept (ensureJoinable row.status row.startAt count row.capacity now)
  setRow reservationId (setStatus now (statusFor (count + 1) row.capacity)) (setStatus_id now _)
  let seat ← addSeat reservationId subject displayName ranks
  let found ← readOne reservationId .noResult
  pure (found,participant seat)

def cancelSeat (id : ℕ) (now : ℤ) : Program Unit :=
  .execute (fun _ => ()) (fun _ => {.participant id}) fun _ => cancelSeats now (· = id)

def cancelParticipation (reservationId : ℕ) (subject : String) (now : ℤ) : Program Reservation := do
  let row ← lockReservation reservationId
  let participant ← activeParticipation reservationId subject
  .ofExcept (ensureParticipationCancellable row.status row.startAt now participant.isSome)
  match participant with
  | none => .raise .noResult
  | some p =>
    cancelSeat p.id now
    let count ← activeParticipantCount reservationId
    setRow reservationId (setStatus now (statusFor count row.capacity)) (setStatus_id now _)
    readOne reservationId .noResult

def cancelledRow (now : ℤ) (row : ReservationRow) : ReservationRow :=
  { row with status := .cancelled, cancelledAt := some now, updatedAt := now }

theorem cancelledRow_id (now : ℤ) (row : ReservationRow) : (cancelledRow now row).id = row.id := rfl

def cancel (reservationId : ℕ) (hostSubject : String) (now : ℤ) : Program Unit := do
  let row ← lockReservation reservationId
  .ofExcept (ensureCancellable row.hostSubject hostSubject row.status row.startAt now)
  setRow reservationId (cancelledRow now) (cancelledRow_id now)
  releaseParticipants reservationId now

end Tag2now.Reservations
