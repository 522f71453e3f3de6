import Tag2now.Reservation.Writes
import Tag2now.Transactions.Alone

/-! # Reservation operations that run alone

How a creation, a join and an edit end when nothing else happens meanwhile.
-/
namespace Tag2now.Reservations
open ReadCommitted Idempotency

section Statements
variable {punctual : Prop} {β : Type} {h : Held Store Lock}
  {v : Option ((ReservationError → Program Answer) × Held Store Lock)} {db t : Store}
  {out : Except ReservationError Answer}

theorem eval_clock {k : ℤ → Program Answer} : Eval ⟨clock punctual >>= k,h,v⟩ db out t ↔
    Eval ⟨k (h.pending db).now,
      h.within fun db' => punctual → db'.now ≤ (h.pending db).now + listingGrace,v⟩ db out t := by
  unfold clock
  rw [Prog.bind_assoc,eval_query]
  exact eval_deadline

theorem eval_lockReservation {k : ReservationRow → Program Answer} {id : ℕ} {row : ReservationRow}
    (hrow : (h.pending db).reservations.get? id = some row) :
    Eval ⟨lockReservation id >>= k,h,v⟩ db out t ↔
      Eval ⟨k row,⟨h.pending,h.locks ∪ {.reservation id},h.due⟩,v⟩ db out t := by
  unfold lockReservation
  rw [Prog.bind_assoc,eval_execute,hrow]
  rfl

theorem eval_readOne {k : Reservation → Program Answer} {id : ℕ} {row : ReservationRow}
    {missing : ReservationError} (hrow : (h.pending db).reservations.get? id = some row) :
    Eval ⟨readOne id missing >>= k,h,v⟩ db out t ↔
      Eval ⟨k (withParticipantCount (h.pending db) row),h,v⟩ db out t := by
  unfold readOne
  rw [Prog.bind_assoc,eval_query,hrow]
  rfl

end Statements

variable (punctual : Prop) (fingerprint : String → CreateRequest → String)

section Creation
variable {subject displayName key : String} {request : CreateRequest} {db t : Store} {response : Reservation}
  {out : Except ReservationError Answer}

/-- A first creation writes the row under any free id, and its key. -/
theorem runs_create {x : ℤ} {id : ℕ} (createdAt : ℤ)
    (hvalid : ensureConditionsValid request.matchType request.ranks request.capacity = .ok ())
    (hx : startAtFrom request.startTime db.now = .ok x) (hnone : db.keys.get? (subject,key) = none)
    (hfree : db.reservations.get? id = none) :
    Runs (createReservation punctual fingerprint subject displayName key request) db
      (.ok (.created ⟨reservation (newRow (request.values subject displayName x) id createdAt) 0 [],true⟩))
      (afterCreate fingerprint subject key request (request.values subject displayName x) id createdAt db) := by
  unfold createReservation Runs
  rw [hvalid,Prog.ofExcept_ok,Prog.ret_bind,eval_clock]
  rw [Held.empty_pending,hx,Prog.ofExcept_ok,Prog.ret_bind]
  refine (eval_runOnce_new (S := keyStore) rfl hnone).mpr ?_
  unfold create complete
  refine eval_perform.mpr ⟨_,⟨id,createdAt,hfree,rfl⟩,?_⟩
  exact eval_execute.mpr (eval_ret.mpr ⟨⟨trivial,fun _ => le_grace _⟩,rfl,rfl⟩)

/-- A creation whose key has its answer makes the checks of its request and answers that. -/
theorem runs_create_stored (hkey : db.keys.get? (subject,key) =
      some (keyRow fingerprint subject key request response)) :
    Runs (createReservation punctual fingerprint subject displayName key request) db out t ↔
      t = db ∧ out = do
        ensureConditionsValid request.matchType request.ranks request.capacity
        let _ ← startAtFrom request.startTime db.now
        return .created ⟨response,false⟩ := by
  unfold createReservation Runs
  cases ensureConditionsValid request.matchType request.ranks request.capacity with
  | error e =>
    rw [Prog.ofExcept_error,Prog.raise_bind,eval_raise]
    exact and_comm
  | ok u =>
    rw [Prog.ofExcept_ok,Prog.ret_bind,eval_clock]
    rw [Held.empty_pending]
    cases startAtFrom request.startTime db.now with
    | error e =>
      rw [Prog.ofExcept_error,Prog.raise_bind,eval_raise]
      exact and_comm
    | ok x =>
      rw [Prog.ofExcept_ok,Prog.ret_bind]
      refine (eval_runOnce_stored (S := keyStore) rfl hkey rfl rfl).trans (eval_ret.trans ?_)
      constructor
      · rintro ⟨_,rfl,rfl⟩
        exact ⟨rfl,rfl⟩
      · rintro ⟨rfl,rfl⟩
        exact ⟨⟨trivial,fun _ => le_grace _⟩,rfl,rfl⟩

end Creation

/-- A join takes a free seat id, and sets the status its seat makes. -/
theorem runs_join {db : Store} {id seatId : ℕ} {subject displayName : String} {ranks : List String}
    {row : ReservationRow} (joinedAt : ℤ) {f hf}
    (heq : f = setStatus db.now (statusFor ((seats db id).length + 1) row.capacity))
    (hrow : db.reservations.get? id = some row) (hhost : row.hostSubject ≠ some subject)
    (hnone : (seats db id).find? (fun p => p.subject = some subject) = none)
    (hjoin : ensureJoinable row.status row.startAt (seats db id).length row.capacity db.now = .ok ())
    (hfree : db.participants.get? seatId = none) {t : Store}
    (ht : t = insertSeat (newSeat seatId id subject displayName ranks joinedAt) (modifyRow id f hf db)) :
    Runs (joinReservation punctual id subject displayName ranks) db
      (.ok (.joined (withParticipantCount t (f row)))) t := by
  have hby : ensureJoinableBy row.hostSubject subject false = .ok () := ensureJoinableBy_ok.mpr ⟨hhost,rfl⟩
  have hget : t.reservations.get? id = some (f row) := by
    rw [ht]
    refine (get?_modifyRow f hf).trans ?_
    rw [if_pos rfl,hrow]
    rfl
  subst heq
  unfold joinReservation join Runs
  rw [eval_clock,Held.empty_pending,Prog.bind_assoc]
  refine (eval_lockReservation hrow).mpr ?_
  unfold activeParticipantCount setRow addSeat activeParticipation
  simp only [Prog.bind_assoc]
  refine eval_query.mpr (eval_query.mpr ?_)
  simp only [Held.within_pending,Held.empty_pending,hnone,Option.isSome_none]
  rw [hby,hjoin,Prog.ofExcept_ok,Prog.ret_bind,Prog.ret_bind]
  refine eval_execute.mpr (eval_query.mpr ?_)
  refine (eval_ensure hnone).mpr ?_
  refine eval_perform.mpr ⟨_,⟨seatId,joinedAt,hfree,rfl⟩,?_⟩
  refine (eval_readOne (ht ▸ hget)).mpr (eval_ret.mpr ⟨⟨trivial,fun _ => le_grace _⟩,?_,ht⟩)
  rw [ht]
  rfl

/-- The row cancelled, and its seats released. -/
def afterCancel (id : ℕ) (db : Store) : Store :=
  cancelSeats db.now (picksSeat (fun _ k => k = id) (modifyRow id (cancelledRow db.now) (cancelledRow_id _) db))
    (modifyRow id (cancelledRow db.now) (cancelledRow_id _) db)

theorem runs_cancel {db : Store} {id : ℕ} {subject : String} {row : ReservationRow}
    (hrow : db.reservations.get? id = some row)
    (hcheck : ensureCancellable row.hostSubject subject row.status row.startAt db.now = .ok ()) :
    Runs (cancelReservation punctual id subject) db (.ok .cancelled) (afterCancel id db) := by
  unfold cancelReservation cancel Runs
  rw [eval_clock,Held.empty_pending,Prog.bind_assoc]
  refine (eval_lockReservation hrow).mpr ?_
  rw [Prog.bind_assoc,hcheck,Prog.ofExcept_ok,Prog.ret_bind]
  unfold setRow releaseParticipants releaseSeats
  rw [Prog.bind_assoc]
  refine eval_execute.mpr (eval_execute.mpr ?_)
  exact eval_ret.mpr ⟨⟨trivial,fun _ => le_grace _⟩,rfl,rfl⟩

/-- An edit after its unlocked read. -/
def afterRead (id : ℕ) (subject : String) (patch : UpdateRequest) (current : Reservation) : Program Answer := do
  .ofExcept (patch.ensureValid current)
  let startAt ← newStart punctual patch.startTime
  let now ← clock punctual
  let result ← update id subject now (patch.changes startAt)
  pure (.updated current result)

/-- An edit that leaves the time alone is checked against its read, and writes to the row as it is now. -/
theorem eval_afterRead {db : Store} {id : ℕ} {subject : String} {patch : UpdateRequest} {current : Reservation}
    {row : ReservationRow} (hvalid : patch.ensureValid current = .ok ()) (htime : patch.startTime = none)
    (hrow : db.reservations.get? id = some row) (hhost : row.hostSubject = some subject)
    (hedit : ensureEditable row.status row.startAt (seats db id).length db.now = .ok ()) :
    Eval ⟨afterRead punctual id subject patch current,.empty,none⟩ db
      (.ok (.updated current
        (reservation ((patch.changes none).apply db.now row) (seats db id).length [])))
      (modifyRow id ((patch.changes none).apply db.now) (Changes.apply_id _ _) db) := by
  have hby : ensureEditedByHost row.hostSubject subject = .ok () := ensureEditedByHost_ok.mpr hhost
  unfold afterRead update
  rw [hvalid,Prog.ofExcept_ok,Prog.ret_bind,htime]
  refine eval_clock.mpr ?_
  simp only [Prog.bind_assoc]
  refine (eval_lockReservation hrow).mpr ?_
  rw [hby,Prog.ofExcept_ok,Prog.ret_bind]
  unfold activeParticipantCount setRow
  refine eval_query.mpr ?_
  simp only [Held.within_pending,Held.empty_pending]
  rw [hedit,Prog.ofExcept_ok,Prog.ret_bind]
  exact eval_execute.mpr (eval_ret.mpr ⟨⟨trivial,fun _ => le_grace _⟩,rfl,rfl⟩)

/-! ## A first reservation -/

/-- Nine in the morning in Seoul, with nothing in the tables. -/
def nothingYet : Store := ⟨0,Table.empty,Table.empty,Table.empty⟩

def noon : TimeOfDay := ⟨12 * hour,by decide,by decide⟩

def anyAtNoon : CreateRequest :=
  ⟨noon,[],.any,1,"",by decide,by decide,Nat.one_pos,by decide,by decide⟩

def digest (scope : String) (request : CreateRequest) : String := String.join (scope :: request.memo :: request.ranks)

def noonRow : ReservationRow := newRow (anyAtNoon.values "alice" "Alice" (3 * hour)) 1 0

def opened : Store :=
  afterCreate digest "alice" "k" anyAtNoon (anyAtNoon.values "alice" "Alice" (3 * hour)) 1 0 nothingYet

def openedLog : List (Request × Except ReservationError Answer) :=
  [(.create "alice" "Alice" "k" anyAtNoon,.ok (.created ⟨reservation noonRow 0 [],true⟩))]

theorem opened_row : opened.reservations.get? 1 = some noonRow :=
  (get?_afterCreate _ _ _ _ rfl 1).trans (if_pos rfl)

theorem reachable_opened : Reachable (service punctual digest) (fun _ _ _ => True) Initial
    ⟨opened,fun _ => none,openedLog⟩ := by
  have hinit : Reachable (service punctual digest) (fun _ _ _ => True) Initial
    ⟨nothingYet,fun _ => none,[]⟩ := .init ⟨rfl,rfl,rfl⟩
  have hnoon : startAtFrom noon nothingYet.now = .ok (3 * hour) := by decide
  exact hinit.call (fun _ => rfl) (c := .create "alice" "Alice" "k" anyAtNoon)
    (runs_create punctual digest 0 rfl hnoon rfl rfl) fun _ _ => trivial

end Tag2now.Reservations
