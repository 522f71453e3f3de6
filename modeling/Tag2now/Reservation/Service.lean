import Tag2now.Reservation.Store
import Tag2now.Shared.Basics
import Tag2now.Transactions.RelyGuarantee

/-! # Reservation use cases

Every operation as one transaction, with the checks the service makes around the
repository. A request is what the router admits. An answer keeps, beside what the
caller is told, the reservation an edit was validated against and whether a creation
was a replay. Whether transactions are punctual is left open.
-/
namespace Tag2now.Reservations
open ReadCommitted Idempotency

structure CreateRequest where
  startTime : TimeOfDay
  ranks : List String
  matchType : MatchType
  capacity : ℕ
  memo : String
  ranks_length : ranks.length ≤ 20
  ranks_nodup : ranks.Nodup
  capacity_pos : 1 ≤ capacity
  capacity_le : capacity ≤ 3
  memo_length : memo.length ≤ 140

/-- Every field optional: the host sends only what changed. -/
structure UpdateRequest where
  startTime : Option TimeOfDay
  ranks : Option (List String)
  matchType : Option MatchType
  capacity : Option ℕ
  memo : Option String
  ranks_length : ∀ r ∈ ranks, r.length ≤ 20
  ranks_nodup : ∀ r ∈ ranks, r.Nodup
  capacity_pos : ∀ c ∈ capacity, 1 ≤ c
  capacity_le : ∀ c ∈ capacity, c ≤ 3
  memo_length : ∀ m ∈ memo, m.length ≤ 140

inductive Request
  | create (subject displayName key : String) (request : CreateRequest)
  | update (reservationId : ℕ) (subject : String) (patch : UpdateRequest)
  | join (reservationId : ℕ) (subject displayName : String) (ranks : List String)
  | cancelParticipation (reservationId : ℕ) (subject : String)
  | cancel (reservationId : ℕ) (subject : String)
  | listReservations

inductive Answer
  | created (once : Once Reservation)
  | updated (current result : Reservation)
  | joined (result : Reservation)
  | left (result : Reservation)
  | cancelled
  | listed (result : List Reservation)

def Answer.reservations : Answer → List Reservation
  | .created once => [once.answer]
  | .updated _ result => [result]
  | .joined result => [result]
  | .left result => [result]
  | .cancelled => []
  | .listed result => result

def createScope : String := "reservation.create"

variable (punctual : Prop) (fingerprint : String → CreateRequest → String)

def CreateRequest.values (request : CreateRequest) (subject displayName : String) (startAt : ℤ) : Values where
  startAt := startAt
  hostSubject := subject
  hostDisplayName := displayName
  hostRanks := request.ranks
  matchType := request.matchType
  capacity := request.capacity
  memo := strip request.memo

def createReservation (subject displayName key : String) (request : CreateRequest) : Program Answer := do
  .ofExcept (ensureConditionsValid request.matchType request.ranks request.capacity)
  let now ← clock punctual
  let startAt ← .ofExcept (startAtFrom request.startTime now)
  let once ← runOnce keyStore fingerprint subject key createScope request
    (create (request.values subject displayName startAt))
  pure (.created once)

/-- The conditions as the edit would leave them. -/
def UpdateRequest.ensureValid (patch : UpdateRequest) (current : Reservation) : Check Unit :=
  ensureConditionsValid (patch.matchType.getD current.matchType) (patch.ranks.getD current.hostRanks)
    (patch.capacity.getD current.capacity)

def UpdateRequest.changes (patch : UpdateRequest) (startAt : Option ℤ) : Changes where
  startAt := startAt
  ranks := patch.ranks
  matchType := patch.matchType
  capacity := patch.capacity
  memo := patch.memo.map strip

def newStart (startTime : Option TimeOfDay) : Program (Option ℤ) :=
  match startTime with
  | none => pure none
  | some t => do
    let now ← clock punctual
    let startAt ← .ofExcept (startAtFrom t now)
    pure (some startAt)

/-- Apply a partial edit, validating the reservation as it will end up. -/
def updateReservation (reservationId : ℕ) (subject : String) (patch : UpdateRequest) : Program Answer := do
  let current ← get reservationId
  .ofExcept (patch.ensureValid current)
  let startAt ← newStart punctual patch.startTime
  let now ← clock punctual
  let result ← update reservationId subject now (patch.changes startAt)
  pure (.updated current result)

def joinReservation (reservationId : ℕ) (subject displayName : String) (ranks : List String) :
    Program Answer := do
  let now ← clock punctual
  let (result,_) ← join reservationId subject displayName ranks now
  pure (.joined result)

def leaveReservation (reservationId : ℕ) (subject : String) : Program Answer := do
  let now ← clock punctual
  let result ← cancelParticipation reservationId subject now
  pure (.left result)

def cancelReservation (reservationId : ℕ) (subject : String) : Program Answer := do
  let now ← clock punctual
  cancel reservationId subject now
  pure .cancelled

def listReservations : Program Answer := do
  let result ← listUpcoming punctual
  pure (.listed result)

def body : Request → Program Answer
  | .create subject displayName key request =>
    createReservation punctual fingerprint subject displayName key request
  | .update reservationId subject patch => updateReservation punctual reservationId subject patch
  | .join reservationId subject displayName ranks =>
    joinReservation punctual reservationId subject displayName ranks
  | .cancelParticipation reservationId subject => leaveReservation punctual reservationId subject
  | .cancel reservationId subject => cancelReservation punctual reservationId subject
  | .listReservations => listReservations punctual

/-- Besides the calls, time passes. -/
def service : System Store Lock Request ReservationError Answer where
  body := body punctual fingerprint
  env s t := ∃ now, s.now ≤ now ∧ t = { s with now := now }

/-- No reservation has been made yet, at whatever time. -/
def Initial (s : Store) : Prop :=
  s.reservations = Table.empty ∧ s.participants = Table.empty ∧ s.keys = Table.empty

end Tag2now.Reservations
