import Tag2now.Idempotency.Rules
import Tag2now.Reservation.Service

/-! # What the reservation writes leave

Rows, seats and keys after each write of a statement, for the proofs that follow
transactions through their statements.
-/
namespace Tag2now.Reservations
open ReadCommitted Idempotency

section Writes
variable {db : Store} {id k : ℕ} {now : ℤ} {ids : ℕ → Bool} {p : ParticipantRow} {row : ReservationRow}

theorem mem_seats : p ∈ seats db id ↔ p ∈ db.participants.rows ∧ p.reservationId = id ∧ p.cancelledAt = none := by
  simp [seats]

theorem seats_congr {s t : Store} (h : t.participants = s.participants) (id : ℕ) : seats t id = seats s id := by
  simp only [seats,h]

@[simp] theorem seats_modifyRow (f hf) : seats (modifyRow id f hf db) k = seats db k := rfl
@[simp] theorem seats_insertRow : seats (insertRow row db) k = seats db k := rfl
@[simp] theorem seats_endRows : seats (endRows now ids db) k = seats db k := rfl

theorem seats_insertSeat (hnew : db.participants.get? p.id = none) (hactive : p.cancelledAt = none) :
    seats (insertSeat p db) k = seats db k ++ if p.reservationId = k then [p] else [] := by
  have hrows : (insertSeat p db).participants.rows = db.participants.rows ++ [p] := Table.insert_rows hnew
  simp only [seats,hrows,List.filter_append]
  congr 1
  by_cases hk : p.reservationId = k <;> simp [hk,hactive]

theorem seats_cancelSeats : seats (cancelSeats now ids db) k = (seats db k).filter fun p => !ids p.id := by
  have hrows : (cancelSeats now ids db).participants.rows = db.participants.rows.map (releaseIf now ids) := rfl
  simp only [seats,hrows]
  induction db.participants.rows with
  | nil => rfl
  | cons p rows ih =>
    simp only [List.map_cons,List.filter_cons,ih]
    by_cases hids : ids p.id
    · simp only [releaseIf,hids,if_true,released]
      by_cases hp : p.reservationId = k ∧ p.cancelledAt = none <;> simp [hp,hids]
    · simp only [releaseIf,hids,Bool.false_eq_true,if_false]
      by_cases hp : p.reservationId = k ∧ p.cancelledAt = none <;> simp [hp,hids]

theorem get?_modifyRow (f hf) : (modifyRow id f hf db).reservations.get? k =
    if k = id then (db.reservations.get? k).map f else db.reservations.get? k := Table.get?_modify _ _ _ hf

theorem get?_insertRow (hnew : db.reservations.get? row.id = none) :
    (insertRow row db).reservations.get? k = if k = row.id then some row else db.reservations.get? k :=
  Table.get?_insert hnew k

theorem get?_endRows : (endRows now ids db).reservations.get? k =
    (db.reservations.get? k).map (endIf now ids) := Table.get?_update _ (endIf_id now ids) _

theorem get?_insertSeat (hnew : db.participants.get? p.id = none) :
    (insertSeat p db).participants.get? k = if k = p.id then some p else db.participants.get? k :=
  Table.get?_insert hnew k

theorem get?_cancelSeats : (cancelSeats now ids db).participants.get? k =
    (db.participants.get? k).map (releaseIf now ids) := Table.get?_update _ (releaseIf_id now ids) _

theorem get?_cancelSeats_of_not (h : ids k = false) :
    (cancelSeats now ids db).participants.get? k = db.participants.get? k := by
  rw [get?_cancelSeats]
  cases hp : db.participants.get? k with
  | none => rfl
  | some p =>
    have hid := Table.key_of_get? hp
    rw [Option.map_some,releaseIf,if_neg (by simp [hid,h])]

theorem get?_seat (hp : p ∈ seats db id) : db.participants.get? p.id = some p :=
  Table.get?_of_mem (mem_seats.mp hp).1

/-- The count and the list of an answer agree. -/
def Counted (r : Reservation) : Prop := r.participantCount = r.participants.length

theorem counted_withParticipantCount : Counted (withParticipantCount db row) := by
  simp [Counted,withParticipantCount,reservation]

theorem counted_fresh : Counted (reservation row 0 []) := rfl

end Writes

section Creation
variable (fingerprint : String → CreateRequest → String) (subject key : String) (request : CreateRequest)
  (values : Values) (id : ℕ) (createdAt : ℤ) (db : Store)

def keyRow (response : Reservation) : KeyRow Reservation :=
  ⟨subject,key,fingerprint createScope request,some response⟩

/-- The key, its answer and the row of one creation. -/
def afterCreate : Store :=
  keyStore.respond (subject,key) (reservation (newRow values id createdAt) 0 [])
    (insertRow (newRow values id createdAt)
      (keyStore.insert (claimed fingerprint subject key createScope request) db))

variable {subject key db}

theorem get?_afterCreate {id : ℕ} (hfree : db.reservations.get? id = none) (k : ℕ) :
    (afterCreate fingerprint subject key request values id createdAt db).reservations.get? k =
      if k = id then some (newRow values id createdAt) else db.reservations.get? k :=
  @get?_insertRow (keyStore.insert (claimed fingerprint subject key createScope request) db) k
    (newRow values id createdAt) hfree

theorem keys_afterCreate (hnone : db.keys.get? (subject,key) = none) (o : String × String) :
    (afterCreate fingerprint subject key request values id createdAt db).keys.get? o =
      if o = (subject,key) then
        some (keyRow fingerprint subject key request (reservation (newRow values id createdAt) 0 []))
      else db.keys.get? o := by
  have hinsert := @KeyStore.lookup_insert _ _ _ _ keyStore
    (claimed fingerprint subject key createScope request) db hnone o
  have hrespond := @KeyStore.lookup_respond _ _ _ _ keyStore (subject,key)
    (reservation (newRow values id createdAt) 0 []) (insertRow (newRow values id createdAt)
      (keyStore.insert (claimed fingerprint subject key createScope request) db)) o
  refine hrespond.trans ?_
  rw [show keyStore.lookup (insertRow (newRow values id createdAt) (keyStore.insert
    (claimed fingerprint subject key createScope request) db)) o = keyStore.lookup (keyStore.insert
      (claimed fingerprint subject key createScope request) db) o from rfl,hinsert]
  by_cases ho : o = (subject,key)
  · subst ho
    rw [if_pos rfl,if_pos rfl]
    exact congrArg (Option.map _) (if_pos rfl)
  · rw [if_neg ho,if_neg ho]
    exact if_neg ho

end Creation

end Tag2now.Reservations
