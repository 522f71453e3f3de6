import Tag2now.Reservation.Seats
import Tag2now.Transactions.Serial

/-! # The listing window

What an accepted start, the bounds of the listing and the expiry have to do with each other. A
start is accepted up to the next dawn, which only moves on; the listing reaches back as far as the
expiry leaves a reservation alone.
-/
namespace Tag2now.Reservations
open ReadCommitted Idempotency

def Elapsed (s t : Store) : Prop := ∃ now, s.now ≤ now ∧ t = { s with now := now }

theorem elapsed_refl (s : Store) : Elapsed s s := ⟨s.now,le_rfl,rfl⟩

theorem elapsed_trans (s t u : Store) (h : Elapsed s t) (k : Elapsed t u) : Elapsed s u := by
  obtain ⟨n,hn,rfl⟩ := h
  obtain ⟨m,hm,rfl⟩ := k
  exact ⟨m,hn.trans hm,rfl⟩

theorem Elapsed.now {s t : Store} (h : Elapsed s t) : s.now ≤ t.now := by
  obtain ⟨n,hn,rfl⟩ := h
  exact hn

theorem Elapsed.reservations {s t : Store} (h : Elapsed s t) : t.reservations = s.reservations := by
  obtain ⟨n,_,rfl⟩ := h
  rfl

theorem Elapsed.get? {s t : Store} (h : Elapsed s t) (id : ℕ) :
    t.reservations.get? id = s.reservations.get? id := by rw [h.reservations]

theorem Elapsed.seats {s t : Store} (h : Elapsed s t) (id : ℕ) :
    Reservations.seats t id = Reservations.seats s id := by
  obtain ⟨n,_,rfl⟩ := h
  rfl

theorem Elapsed.participants {s t : Store} (h : Elapsed s t) : t.participants = s.participants := by
  obtain ⟨n,_,rfl⟩ := h
  rfl

theorem windowEnd_mono {a b : ℤ} (h : a ≤ b) : windowEnd a ≤ windowEnd b := by
  simp only [windowEnd]
  split <;> split <;> simp only [seoulMidnight,seoulOffset,dayEndHour,day,hour,minute,second] at * <;> omega

/-! ## What the calls do to a reservation -/

/-- The call has edited the start of this reservation. -/
def EditsStart (id : ℕ) : Request × Except ReservationError Answer → Prop
  | (.update id' _ patch,.ok _) => id' = id ∧ patch.startTime ≠ none
  | _ => False

def Cancels (id : ℕ) : Request × Except ReservationError Answer → Prop
  | (.cancel id' _,.ok _) => id' = id
  | _ => False

/-- The call has made the reservation, or edited its start, and the start is now `x`. -/
def Accepts (id : ℕ) (x : ℤ) : Request × Except ReservationError Answer → Prop
  | (.create _ _ _ _,.ok (.created once)) => once.wrote = true ∧ once.answer.id = id ∧ once.answer.startAt = x
  | (.update id' _ patch,.ok (.updated _ result)) => id' = id ∧ patch.startTime ≠ none ∧ result.startAt = x
  | _ => False

/-- What becomes of a reservation and its seats in one call. -/
inductive Fate (edited cancelled : Prop) (time : ℤ) (row : ReservationRow) (taken : List ParticipantRow) :
    ReservationRow → List ParticipantRow → Prop
  | same : Fate edited cancelled time row taken row taken
  | live {row' : ReservationRow} {taken' : List ParticipantRow} : Live row.status → Live row'.status →
      edited ∨ row'.startAt = row.startAt → Fate edited cancelled time row taken row' taken'
  | cancelled (now : ℤ) : cancelled → Fate edited cancelled time row taken (cancelledRow now row) []
  | ended (now : ℤ) : row.startAt + listingGrace ≤ now → now ≤ time →
      Fate edited cancelled time row taken (endedRow now row) []

structure Passes (c : Request) (s : Store) (a : Answer) (t : Store) : Prop where
  now : s.now ≤ t.now
  fate : ∀ id row, s.reservations.get? id = some row → ∃ row', t.reservations.get? id = some row' ∧
    Fate (EditsStart id (c,.ok a)) (Cancels id (c,.ok a)) t.now row (seats s id) row' (seats t id)
  accepted : ∀ id x, Accepts id x (c,.ok a) → ∃ row, t.reservations.get? id = some row ∧ row.startAt = x ∧
    Live row.status ∧ x < windowEnd t.now

theorem Passes.single {c : Request} {a : Answer} {s t : Store} {id : ℕ} (hnow : s.now ≤ t.now)
    (hother : ∀ k, k ≠ id → t.reservations.get? k = s.reservations.get? k ∧ seats t k = seats s k)
    (hid : ∀ row, s.reservations.get? id = some row → ∃ row', t.reservations.get? id = some row' ∧
      Fate (EditsStart id (c,.ok a)) (Cancels id (c,.ok a)) t.now row (seats s id) row' (seats t id))
    (haccepted : ∀ k x, Accepts k x (c,.ok a) → ∃ row, t.reservations.get? k = some row ∧ row.startAt = x ∧
      Live row.status ∧ x < windowEnd t.now) : Passes c s a t := by
  refine ⟨hnow,?_,haccepted⟩
  intro k row hrow
  by_cases hk : k = id
  · subst hk
    exact hid row hrow
  · obtain ⟨hsame,hseats⟩ := hother k hk
    refine ⟨row,hsame.trans hrow,?_⟩
    rw [hseats]
    exact .same

/-! ## Statements with nobody else running -/

section Statements
variable {punctual : Prop} {β : Type} {Q : Answer → Store → Prop} {h : Held Store Lock} {s : Store}

theorem solo_clock {k : ℤ → Program Answer} (hk : ∀ s', Elapsed s s' →
    Solo Elapsed Q (k (h.pending s').now) (h.within fun db => punctual →
      db.now ≤ (h.pending s').now + listingGrace) s') :
    Solo Elapsed Q (clock punctual >>= k) h s := by
  unfold clock
  rw [Prog.bind_assoc,solo_query]
  exact hk

theorem solo_lockReservation {k : ReservationRow → Program Answer} {id : ℕ} (hk : ∀ s' row locks, Elapsed s s' →
    (h.pending s').reservations.get? id = some row → Solo Elapsed Q (k row) ⟨h.pending,locks,h.due⟩ s') :
    Solo Elapsed Q (lockReservation id >>= k) h s := by
  unfold lockReservation
  rw [Prog.bind_assoc,solo_execute]
  intro s' hs'
  cases hrow : (h.pending s').reservations.get? id with
  | none => trivial
  | some row => exact hk s' row _ hs' hrow

theorem solo_readOne {k : Reservation → Program Answer} {id : ℕ} {missing : ReservationError}
    (hk : ∀ s' row, Elapsed s s' → (h.pending s').reservations.get? id = some row →
      Solo Elapsed Q (k (withParticipantCount (h.pending s') row)) h s') :
    Solo Elapsed Q (readOne id missing >>= k) h s := by
  unfold readOne
  rw [Prog.bind_assoc,solo_query]
  intro s' hs'
  cases hrow : (h.pending s').reservations.get? id with
  | none => trivial
  | some row => exact hk s' row hs' hrow

end Statements

/-! ## Operations with nobody else running -/

section Operations
variable {punctual : Prop} {fingerprint : String → CreateRequest → String} {s : Store} {id : ℕ} {subject : String}

/-- The locked row is rewritten and stays live, and no other is touched. -/
theorem passes_modified {c : Request} {a : Answer} {t u : Store} {row : ReservationRow}
    {f : ReservationRow → ReservationRow} (ht : Elapsed s t)
    (hget : ∀ k, u.reservations.get? k = if k = id then (t.reservations.get? k).map f else t.reservations.get? k)
    (hrow : s.reservations.get? id = some row) (hlive : Live row.status) (hlive' : Live (f row).status)
    (hstart : EditsStart id (c,.ok a) ∨ (f row).startAt = row.startAt)
    (hnow : u.now = t.now) (hseats : ∀ k, k ≠ id → seats u k = seats t k)
    (haccepted : ∀ k x, Accepts k x (c,.ok a) → k = id ∧ (f row).startAt = x ∧ x < windowEnd t.now) :
    Passes c s a u := by
  have hnew : u.reservations.get? id = some (f row) := by
    rw [hget,if_pos rfl,ht.get?,hrow,Option.map_some]
  refine @Passes.single _ _ _ _ id (hnow ▸ ht.now) ?_ ?_ ?_
  · intro k hk
    exact ⟨(hget k).trans ((if_neg hk).trans (ht.get? k)),(hseats k hk).trans (ht.seats k)⟩
  · intro row₀ hrow₀
    rw [hrow] at hrow₀
    cases hrow₀
    exact ⟨f row,hnew,.live hlive hlive' hstart⟩
  · intro k x hx
    obtain ⟨rfl,hx',hend⟩ := haccepted k x hx
    exact ⟨f row,hnew,hx',hlive',hnow ▸ hend⟩

theorem solo_join (displayName : String) (ranks : List String) :
    Solo Elapsed (Passes (.join id subject displayName ranks) s)
      (joinReservation punctual id subject displayName ranks) .empty s := by
  unfold joinReservation join
  apply solo_clock
  intro s₁ h₁
  simp only [Prog.bind_assoc]
  apply solo_lockReservation
  intro s₂ row L h₂ hrow
  unfold activeParticipantCount activeParticipation setRow addSeat activeParticipation
  simp only [Prog.bind_assoc]
  refine solo_query.mpr fun s₃ h₃ => solo_query.mpr fun s₄ h₄ => ?_
  refine solo_ofExcept fun _ _ => solo_ofExcept fun _ hjoin => ?_
  obtain ⟨hopen,_,_⟩ := ensureJoinable_ok.mp hjoin
  refine solo_execute.mpr fun s₅ h₅ => solo_query.mpr fun s₆ h₆ => solo_ensure (solo_perform.mpr ?_)
  rintro s₇ h₇ o ⟨pid,joinedAt,hfresh,rfl⟩
  apply solo_readOne
  intro s₈ _ h₈ _ s₉ h₉ _
  have h₂' := elapsed_trans _ _ _ h₁ h₂
  have h₇' := elapsed_trans _ _ _ (elapsed_trans _ _ _ (elapsed_trans _ _ _ h₃ h₄) (elapsed_trans _ _ _ h₅ h₆)) h₇
  have h₉' := elapsed_trans _ _ _ h₈ h₉
  have hs₉ := elapsed_trans _ _ _ (elapsed_trans _ _ _ h₂' h₇') h₉'
  have hfree : s₉.participants.get? pid = none := by
    rw [h₉'.participants]
    exact hfresh
  refine passes_modified hs₉ (fun _ => get?_modifyRow _ (setStatus_id _ _)) ((h₂'.get? id).symm.trans hrow)
    (.inl hopen) (live_statusFor _ _) (.inr rfl) rfl ?_ fun _ _ h => h.elim
  intro k hk
  refine (seats_insertSeat hfree rfl).trans ?_
  rw [if_neg fun hid => hk hid.symm,List.append_nil]
  rfl

theorem solo_leave : Solo Elapsed (Passes (.cancelParticipation id subject) s)
    (leaveReservation punctual id subject) .empty s := by
  unfold leaveReservation cancelParticipation
  apply solo_clock
  intro s₁ h₁
  simp only [Prog.bind_assoc]
  apply solo_lockReservation
  intro s₂ row L h₂ hrow
  unfold activeParticipation
  refine solo_query.mpr fun s₃ h₃ => solo_ofExcept fun _ hcheck => ?_
  obtain ⟨hlive,_,_⟩ := ensureParticipationCancellable_ok.mp hcheck
  cases hfind : (seats s₃ id).find? fun p => p.subject = some subject with
  | none =>
    have hnone : (seats s₃ id).find? (fun p => p.subject = some subject) = none := hfind
    simp only [Held.within_pending,Held.empty_pending,hnone]
    trivial
  | some p =>
    have hsome : (seats s₃ id).find? (fun p => p.subject = some subject) = some p := hfind
    have hp := (mem_seats.mp (List.mem_of_find?_eq_some hfind))
    unfold cancelSeat activeParticipantCount setRow
    simp only [Held.within_pending,Held.empty_pending,hsome,Prog.bind_assoc]
    refine solo_execute.mpr fun s₄ h₄ => solo_query.mpr fun s₅ h₅ => solo_execute.mpr fun s₆ h₆ => ?_
    apply solo_readOne
    intro s₇ _ h₇ _ s₈ h₈ _
    have h₂' := elapsed_trans _ _ _ h₁ h₂
    have h₃' := elapsed_trans _ _ _ h₂' h₃
    have h₈' := elapsed_trans _ _ _ (elapsed_trans _ _ _ h₄ h₅) (elapsed_trans _ _ _ h₆ (elapsed_trans _ _ _ h₇ h₈))
    refine passes_modified (elapsed_trans _ _ _ h₃' h₈') (fun _ => get?_modifyRow _ (setStatus_id _ _))
      ((h₂'.get? id).symm.trans hrow) hlive (live_statusFor _ _) (.inr rfl) rfl ?_ fun _ _ h => h.elim
    intro k hk
    refine seats_cancelSeats.trans (List.filter_eq_self.mpr ?_)
    intro q hq
    have hne : q.id ≠ p.id := by
      intro hid
      have hq₈ : q ∈ s₈.participants.rows := (mem_seats.mp hq).1
      rw [h₈'.participants] at hq₈
      have hqp := Table.eq_of_key hq₈ hp.1 hid
      exact hk ((mem_seats.mp hq).2.1.symm.trans (hqp ▸ hp.2.1))
    simpa using hne

theorem passes_cancelled {now : ℤ} {t v : Store} (ht : Elapsed s t) (hv : v.participants = t.participants) :
    Passes (.cancel id subject) s .cancelled (cancelSeats now (picksSeat (fun _ other => other = id) v)
      (modifyRow id (cancelledRow now) (cancelledRow_id now) t)) := by
  have hpicks (q : ParticipantRow) (k : ℕ) (hq : q ∈ seats t k) :
      picksSeat (fun _ other => other = id) v q.id = decide (k = id) := by
    obtain ⟨hmem,rfl,hactive⟩ := mem_seats.mp hq
    have hget : v.participants.get? q.id = some q := hv ▸ Table.get?_of_mem hmem
    unfold picksSeat
    rw [hget]
    simp [hactive]
  refine @Passes.single _ _ _ _ id ht.now ?_ ?_ fun _ _ h => h.elim
  · intro k hk
    refine ⟨(get?_modifyRow _ (cancelledRow_id _)).trans ((if_neg hk).trans (ht.get? k)),?_⟩
    refine seats_cancelSeats.trans ((List.filter_eq_self.mpr ?_).trans (ht.seats k))
    intro q hq
    rw [hpicks q k hq,decide_eq_false hk]
    rfl
  · intro row hrow
    have hgone : seats (cancelSeats now (picksSeat (fun _ other => other = id) v)
        (modifyRow id (cancelledRow now) (cancelledRow_id now) t)) id = [] := by
      refine seats_cancelSeats.trans (List.filter_eq_nil_iff.mpr ?_)
      intro q hq
      rw [hpicks q id hq,decide_eq_true rfl]
      exact Bool.false_ne_true
    refine ⟨cancelledRow now row,?_,?_⟩
    · refine (get?_modifyRow _ (cancelledRow_id _)).trans ((if_pos rfl).trans ?_)
      rw [ht.get?,hrow,Option.map_some]
    · rw [hgone]
      exact .cancelled _ rfl

theorem solo_cancel : Solo Elapsed (Passes (.cancel id subject) s)
    (cancelReservation punctual id subject) .empty s := by
  unfold cancelReservation cancel
  apply solo_clock
  intro s₁ h₁
  simp only [Prog.bind_assoc]
  apply solo_lockReservation
  intro s₂ row L h₂ _
  refine solo_ofExcept fun _ _ => ?_
  unfold setRow releaseParticipants releaseSeats
  refine solo_execute.mpr fun s₃ h₃ => solo_execute.mpr fun s₄ h₄ => ?_
  intro s₅ h₅ _
  have h₄' := elapsed_trans _ _ _ (elapsed_trans _ _ _ h₁ h₂) (elapsed_trans _ _ _ h₃ h₄)
  exact passes_cancelled (elapsed_trans _ _ _ h₄' h₅) h₅.participants.symm

theorem solo_newStart {Q : Answer → Store → Prop} {due : Store → Prop} {s₀ : Store}
    {k : Option ℤ → Program Answer} {startTime : Option TimeOfDay}
    (hk : ∀ s' startAt due, Elapsed s₀ s' → (startTime = none ↔ startAt = none) →
      (∀ x, startAt = some x → x < windowEnd s'.now) → Solo Elapsed Q (k startAt) ⟨fun db => db,∅,due⟩ s') :
    Solo Elapsed Q (newStart punctual startTime >>= k) ⟨fun db => db,∅,due⟩ s₀ := by
  cases startTime with
  | none => exact hk s₀ none due (elapsed_refl s₀) (by simp) nofun
  | some t =>
    unfold newStart
    simp only [Prog.bind_assoc]
    apply solo_clock
    intro s₁ h₁
    refine solo_ofExcept fun x hx => ?_
    refine hk s₁ (some x) _ h₁ (by simp) ?_
    rintro _ ⟨⟩
    exact (startAtFrom_ok_iff.mp hx).2.2

theorem solo_update (patch : UpdateRequest) : Solo Elapsed (Passes (.update id subject patch) s)
    (updateReservation punctual id subject patch) .empty s := by
  unfold updateReservation Reservations.get
  apply solo_readOne
  intro s₁ current h₁ _
  refine solo_ofExcept fun _ _ => ?_
  apply solo_newStart
  intro s₂ startAt due h₂ hnone hend
  apply solo_clock
  intro s₃ h₃
  unfold update
  simp only [Prog.bind_assoc]
  apply solo_lockReservation
  intro s₄ row L h₄ hrow
  refine solo_ofExcept fun _ _ => ?_
  unfold activeParticipantCount setRow
  refine solo_query.mpr fun s₅ h₅ => solo_ofExcept fun _ hcheck => solo_execute.mpr fun s₆ h₆ => ?_
  obtain ⟨hlive,_,_⟩ := ensureEditable_ok.mp hcheck
  intro s₇ h₇ _
  have h₄' := elapsed_trans _ _ _ h₃ h₄
  have h₇' := elapsed_trans _ _ _ h₄' (elapsed_trans _ _ _ (elapsed_trans _ _ _ h₅ h₆) h₇)
  have h₂' := elapsed_trans _ _ _ h₁ h₂
  have hrow' : s.reservations.get? id = some row := by
    rw [← (elapsed_trans _ _ _ h₂' h₄').get?]
    exact hrow
  refine passes_modified (elapsed_trans _ _ _ h₂' h₇') (fun _ => get?_modifyRow _ (Changes.apply_id _ _)) hrow'
    hlive hlive ?_ rfl (fun _ _ => rfl) ?_
  · by_cases hedit : patch.startTime = none
    · right
      rw [hnone.mp hedit]
      rfl
    · exact .inl ⟨rfl,hedit⟩
  · rintro k x ⟨rfl,hedit,hx⟩
    obtain ⟨y,hy⟩ := Option.ne_none_iff_exists'.mp fun h => hedit (hnone.mpr h)
    subst hy
    have hyx : y = x := hx
    subst hyx
    exact ⟨rfl,rfl,lt_of_lt_of_le (hend y rfl) (windowEnd_mono h₇'.now)⟩

theorem Passes.untouched {c : Request} {a : Answer} {t : Store} (hnow : s.now ≤ t.now)
    (hkept : ∀ id row, s.reservations.get? id = some row → t.reservations.get? id = some row)
    (hseats : ∀ id, seats t id = seats s id)
    (haccepted : ∀ k x, Accepts k x (c,.ok a) → ∃ row, t.reservations.get? k = some row ∧ row.startAt = x ∧
      Live row.status ∧ x < windowEnd t.now) : Passes c s a t := by
  refine ⟨hnow,?_,haccepted⟩
  intro id row hrow
  refine ⟨row,hkept id row hrow,?_⟩
  rw [hseats]
  exact .same

theorem passes_inserted {c : Request} {a : Answer} {t u : Store} {row : ReservationRow} (ht : Elapsed s t)
    (hfree : t.reservations.get? id = none)
    (hget : ∀ k, u.reservations.get? k = if k = id then some row else t.reservations.get? k)
    (hnow : u.now = t.now) (hparticipants : u.participants = t.participants)
    (haccepted : ∀ k x, Accepts k x (c,.ok a) → k = id ∧ row.startAt = x ∧ Live row.status ∧ x < windowEnd t.now) :
    Passes c s a u := by
  refine .untouched (hnow ▸ ht.now) ?_ ?_ ?_
  · intro k old hold
    have hold' : t.reservations.get? k = some old := (ht.get? k).trans hold
    refine (hget k).trans ((if_neg ?_).trans hold')
    rintro rfl
    rw [hfree] at hold'
    cases hold'
  · exact fun k => (seats_congr hparticipants k).trans (ht.seats k)
  · intro k x hk
    obtain ⟨rfl,hstart,hlive,hend⟩ := haccepted k x hk
    exact ⟨row,(hget k).trans (if_pos rfl),hstart,hlive,hnow.symm ▸ hend⟩

theorem solo_create (displayName key : String) (request : CreateRequest) :
    Solo Elapsed (Passes (.create subject displayName key request) s)
      (createReservation punctual fingerprint subject displayName key request) .empty s := by
  unfold createReservation
  refine solo_ofExcept fun _ _ => ?_
  apply solo_clock
  intro s₁ h₁
  refine solo_ofExcept fun x hx => ?_
  apply solo_runOnce elapsed_trans
  · intro s₂ response pending locks h₂ hpending s₃ h₃ _
    have h₃' := elapsed_trans _ _ _ (elapsed_trans _ _ _ h₁ h₂) h₃
    have hsame : pending s₃ = s₃ := hpending s₃
    show Passes _ s _ (pending s₃)
    rw [hsame]
    refine .untouched h₃'.now (fun id row hrow => (h₃'.get? id).trans hrow) h₃'.seats ?_
    rintro k y ⟨hwrote,_⟩
    cases hwrote
  · intro s₂ pending locks h₂ hpending
    -- so far only the key is written, and that is another table
    have hreservations (db : Store) : (pending db).reservations = db.reservations := by
      rcases hpending db with h | ⟨_,h⟩ <;> rw [h] <;> rfl
    have hparticipants (db : Store) : (pending db).participants = db.participants := by
      rcases hpending db with h | ⟨_,h⟩ <;> rw [h] <;> rfl
    have hclock (db : Store) : (pending db).now = db.now := by
      rcases hpending db with h | ⟨_,h⟩ <;> rw [h] <;> rfl
    unfold create complete
    refine solo_perform.mpr ?_
    rintro s₃ h₃ o ⟨id,createdAt,hfree,rfl⟩
    refine solo_execute.mpr fun s₄ h₄ => ?_
    intro s₅ h₅ _
    have h₅' := elapsed_trans _ _ _ h₄ h₅
    have hfinal := elapsed_trans _ _ _ (elapsed_trans _ _ _ h₂ h₃) h₅'
    have hfree' : s₅.reservations.get? id = none := by
      rw [h₅'.get?,← hreservations]
      exact hfree
    refine @passes_inserted _ id _ _ s₅ _ (newRow (request.values subject displayName x) id createdAt)
      (elapsed_trans _ _ _ h₁ hfinal) hfree' ?_ (hclock s₅) (hparticipants s₅) ?_
    · intro k
      rw [← hreservations s₅] at hfree' ⊢
      exact get?_insertRow hfree'
    · rintro k y ⟨_,rfl,rfl⟩
      exact ⟨rfl,rfl,.inl rfl,lt_of_lt_of_le (startAtFrom_ok_iff.mp hx).2.2 (windowEnd_mono hfinal.now)⟩

end Operations

/-! ## The listing -/

def listingAt (now : ℤ) : Program Answer := do
  expireFinished now
  let result ← .choose fun db answer => ∃ rows, Listing now db rows ∧ answer = rows.map (withParticipantCount db)
  pure (.listed result)

theorem listReservations_eq (punctual : Prop) : listReservations punctual = Prog.query Store.now >>= fun now =>
    .deadline (fun db => punctual → db.now ≤ now + listingGrace) (listingAt now) := by
  unfold listReservations listUpcoming clock listingAt
  simp only [Prog.bind_assoc,Prog.deadline_bind,Prog.pure_eq,Prog.ret_bind]

/-- A listing that reads `now` on the clock answers this and leaves `t`. -/
def Lists (punctual : Prop) (s : Store) (now : ℤ) (result : List Reservation) (t : Store) : Prop :=
  ∃ s', Elapsed s s' ∧ s'.now = now ∧ Ends Elapsed
    ⟨.deadline (fun db => punctual → db.now ≤ now + listingGrace) (listingAt now),.empty,none⟩ s'
    (.ok (.listed result)) t

/-- A listing is one that reads the clock at some moment. -/
theorem calls_listReservations {punctual : Prop} {fingerprint : String → CreateRequest → String} {s t : Store}
    {result : List Reservation} : Calls (service punctual fingerprint) s .listReservations (.ok (.listed result)) t ↔
      ∃ now, Lists punctual s now result t := by
  unfold Calls Lists
  change Ends Elapsed ⟨listReservations punctual,.empty,none⟩ s _ t ↔ _
  rw [listReservations_eq,ends_query elapsed_refl elapsed_trans]
  constructor
  · rintro ⟨s',hs',hends⟩
    exact ⟨s'.now,s',hs',rfl,hends⟩
  · rintro ⟨_,s',hs',rfl,hends⟩
    exact ⟨s',hs',hends⟩

/-- The reservations and seats once those over at `now` have ended. -/
structure Expired (now : ℤ) (s t : Store) : Prop where
  row : ∀ id, t.reservations.get? id =
    (s.reservations.get? id).map fun row => if Finished now row then endedRow now row else row
  seats : ∀ id, Reservations.seats t id = if isFinished now s id then [] else Reservations.seats s id

theorem isFinished_eq {now : ℤ} {db : Store} {id : ℕ} {row : ReservationRow}
    (h : db.reservations.get? id = some row) : isFinished now db id = decide (Finished now row) := by
  unfold isFinished
  rw [h,Option.any_some]

theorem expired {now : ℤ} {s t u : Store} (ht : t.reservations = s.reservations)
    (hp : t.participants = s.participants) (hu : u.participants = s.participants)
    (hur : u.reservations = s.reservations) :
    Expired now s (endRows now (isFinished now s) (cancelSeats now (picksSeat (isFinished now) u) t)) := by
  have hfinished (id : ℕ) : isFinished now u id = isFinished now s id := by
    unfold isFinished
    rw [hur]
  constructor
  · intro id
    refine get?_endRows.trans ?_
    have hget : (cancelSeats now (picksSeat (isFinished now) u) t).reservations.get? id = s.reservations.get? id := by
      rw [← ht]
      rfl
    rw [hget]
    cases hrow : s.reservations.get? id with
    | none => rfl
    | some row =>
      rw [Option.map_some,Option.map_some,endIf,Table.key_of_get? hrow,isFinished_eq hrow]
      simp only [decide_eq_true_eq]
  · intro id
    rw [seats_endRows,seats_cancelSeats,seats_congr hp]
    have hpicks : ∀ q ∈ Reservations.seats s id, picksSeat (isFinished now) u q.id = isFinished now s id := by
      intro q hq
      obtain ⟨hmem,rfl,hactive⟩ := mem_seats.mp hq
      have hget : u.participants.get? q.id = some q := hu ▸ Table.get?_of_mem hmem
      unfold picksSeat
      rw [hget,Option.any_some,hfinished]
      simp [hactive]
    split
    · rename_i hend
      refine List.filter_eq_nil_iff.mpr fun q hq => ?_
      rw [hpicks q hq,hend]
      exact Bool.false_ne_true
    · rename_i hend
      refine List.filter_eq_self.mpr fun q hq => ?_
      rw [hpicks q hq,Bool.eq_false_iff.mpr hend]
      rfl

theorem Expired.passes {now : ℤ} {s t : Store} {result : List Reservation} (h : Expired now s t) (hnow : s.now ≤ t.now)
    (hle : now ≤ t.now) : Passes .listReservations s (.listed result) t := by
  refine ⟨hnow,?_,fun _ _ h => h.elim⟩
  intro id row hrow
  have hrow' := h.row id
  have hseats := h.seats id
  rw [isFinished_eq hrow] at hseats
  rw [hrow,Option.map_some] at hrow'
  refine ⟨_,hrow',?_⟩
  rw [hseats]
  by_cases hend : Finished now row
  · rw [if_pos hend,decide_eq_true hend,if_pos rfl]
    obtain ⟨_,hstart⟩ := hend
    exact .ended now (by omega) hle
  · rw [if_neg hend,decide_eq_false hend,if_neg Bool.false_ne_true]
    exact .same

/-- What a listing answers and leaves, for the moment it read on the clock. -/
structure Listed (now : ℤ) (s : Store) (a : Answer) (t : Store) : Prop where
  now_le : s.now ≤ t.now ∧ now ≤ t.now
  expired : Expired now s t
  answer : ∃ rows view, Listing now view rows ∧ view.reservations = t.reservations ∧
    a = .listed (rows.map (withParticipantCount view))

theorem solo_listingAt {now : ℤ} {s s' : Store} {due : Store → Prop} (hs : Elapsed s s') (hnow : now ≤ s'.now) :
    Solo Elapsed (Listed now s) (listingAt now) ⟨fun db => db,∅,due⟩ s' := by
  unfold listingAt expireFinished releaseSeats endFinished
  simp only [Prog.bind_assoc]
  refine solo_execute.mpr fun s₁ h₁ => solo_execute.mpr fun s₂ h₂ => solo_choose.mpr fun s₃ h₃ => ?_
  rintro _ ⟨rows,hrows,rfl⟩ s₄ h₄ _
  have h₁' := elapsed_trans _ _ _ hs h₁
  have h₂' := elapsed_trans _ _ _ h₁' h₂
  have h₃' := elapsed_trans _ _ _ h₂' h₃
  have h₄' := elapsed_trans _ _ _ h₃' h₄
  have hlate := ((h₁.now.trans h₂.now).trans h₃.now).trans h₄.now
  have hends : isFinished now (cancelSeats now (picksSeat (isFinished now) s₁) s₂) = isFinished now s := by
    funext id
    unfold isFinished
    rw [← h₂'.reservations]
    rfl
  have hexpired : Expired now s (endRows now (isFinished now (cancelSeats now (picksSeat (isFinished now) s₁) s₂))
      (cancelSeats now (picksSeat (isFinished now) s₁) s₄)) := by
    rw [hends]
    exact expired h₄'.reservations h₄'.participants h₁'.participants h₁'.reservations
  refine ⟨⟨h₄'.now,hnow.trans hlate⟩,hexpired,rows,_,hrows,?_,rfl⟩
  obtain ⟨n,_,rfl⟩ := h₄
  rfl

theorem Lists.listed {punctual : Prop} {s t : Store} {now : ℤ} {result : List Reservation}
    (h : Lists punctual s now result t) : Listed now s (.listed result) t := by
  obtain ⟨s',hs',rfl,hends⟩ := h
  have hsolo : Solo Elapsed (Listed s'.now s)
      (.deadline (fun db => punctual → db.now ≤ s'.now + listingGrace) (listingAt s'.now)) .empty s' :=
    solo_listingAt hs' le_rfl
  exact hends.solo elapsed_refl elapsed_trans hsolo nofun _ rfl

theorem solo_list {punctual : Prop} {s : Store} :
    Solo Elapsed (Passes .listReservations s) (listReservations punctual) .empty s := by
  have hpasses (now : ℤ) (a : Answer) (t : Store) (h : Listed now s a t) : Passes .listReservations s a t := by
    obtain ⟨_,_,_,_,rfl⟩ := h.answer
    exact h.expired.passes h.now_le.1 h.now_le.2
  rw [listReservations_eq,solo_query]
  intro s' hs'
  exact Solo.mono (hpasses s'.now) (solo_listingAt hs' le_rfl)

/-! ## Runs -/

section Runs
variable {punctual : Prop} {fingerprint : String → CreateRequest → String} {s t : Store} {c : Request} {a : Answer}
  {id : ℕ} {x : ℤ} {later : List (Request × Except ReservationError Answer)}

theorem calls_passes (h : Calls (service punctual fingerprint) s c (.ok a) t) : Passes c s a t := by
  cases c with
  | create subject displayName key request =>
    exact h.solo elapsed_refl elapsed_trans rfl (solo_create displayName key request)
  | update id subject patch => exact h.solo elapsed_refl elapsed_trans rfl (solo_update patch)
  | join id subject displayName ranks => exact h.solo elapsed_refl elapsed_trans rfl (solo_join displayName ranks)
  | cancelParticipation id subject => exact h.solo elapsed_refl elapsed_trans rfl solo_leave
  | cancel id subject => exact h.solo elapsed_refl elapsed_trans rfl solo_cancel
  | listReservations => exact h.solo elapsed_refl elapsed_trans rfl solo_list

/-- A reservation with this start: live, or over and ended, or cancelled. -/
inductive Standing (x time : ℤ) (cancelled : Prop) (row : ReservationRow) (taken : List ParticipantRow) : Prop
  | live : Live row.status → x < windowEnd time → Standing x time cancelled row taken
  | ended : row.status = .ended → taken = [] → x + listingGrace ≤ time → Standing x time cancelled row taken
  | cancelled : cancelled → row.status = .cancelled → taken = [] → Standing x time cancelled row taken

def Stands (id : ℕ) (x : ℤ) (cancelled : Prop) (s : Store) : Prop :=
  ∃ row, s.reservations.get? id = some row ∧ row.startAt = x ∧ Standing x s.now cancelled row (seats s id)

theorem Standing.mono {time time' : ℤ} {cancelled cancelled' : Prop} {row : ReservationRow}
    {taken : List ParticipantRow} (h : Standing x time cancelled row taken) (hle : time ≤ time')
    (hcancelled : cancelled → cancelled') : Standing x time' cancelled' row taken := by
  cases h with
  | live hlive hend => exact .live hlive (lt_of_lt_of_le hend (windowEnd_mono hle))
  | ended hstatus htaken hover => exact .ended hstatus htaken (hover.trans hle)
  | cancelled hc hstatus htaken => exact .cancelled (hcancelled hc) hstatus htaken

theorem Stands.mono {cancelled cancelled' : Prop} (h : Stands id x cancelled s) (hc : cancelled → cancelled') :
    Stands id x cancelled' s := by
  obtain ⟨row,hrow,hstart,hstanding⟩ := h
  exact ⟨row,hrow,hstart,hstanding.mono le_rfl hc⟩

theorem Stands.elapsed {cancelled : Prop} (h : Stands id x cancelled s) (ht : Elapsed s t) :
    Stands id x cancelled t := by
  obtain ⟨row,hrow,hstart,hstanding⟩ := h
  refine ⟨row,(ht.get? id).trans hrow,hstart,?_⟩
  rw [ht.seats]
  exact hstanding.mono ht.now fun hc => hc

theorem Stands.passes {cancelled : Prop} (h : Stands id x cancelled s) (hpasses : Passes c s a t)
    (hedit : ¬ EditsStart id (c,.ok a)) : Stands id x (cancelled ∨ Cancels id (c,.ok a)) t := by
  obtain ⟨row,hrow,rfl,hstanding⟩ := h
  obtain ⟨row',hrow',hfate⟩ := hpasses.fate id row hrow
  have hlater : Standing row.startAt t.now (cancelled ∨ Cancels id (c,.ok a)) row (seats s id) :=
    hstanding.mono hpasses.now .inl
  unfold Stands
  generalize seats t id = taken' at hfate ⊢
  cases hfate with
  | same => exact ⟨row,hrow',rfl,hlater⟩
  | live hlive hlive' hstart =>
    refine ⟨row',hrow',hstart.resolve_left hedit,?_⟩
    cases hlater with
    | live _ hend => exact .live hlive' hend
    | ended hstatus _ _ =>
      rw [hstatus] at hlive
      exact absurd hlive not_live_ended
    | cancelled _ hstatus _ =>
      rw [hstatus] at hlive
      exact absurd hlive not_live_cancelled
  | cancelled now hc => exact ⟨_,hrow',rfl,.cancelled (.inr hc) rfl rfl⟩
  | ended now hover hle => exact ⟨_,hrow',rfl,.ended rfl rfl (hover.trans hle)⟩

/-- The calls made since then have not edited the start. -/
theorem Stands.serial (h : Stands id x False s) (hrun : Serial (service punctual fingerprint) s later t)
    (hedit : ∀ e ∈ later, ¬ EditsStart id e) : Stands id x (∃ e ∈ later, Cancels id e) t := by
  induction hrun with
  | nil => exact h.mono nofun
  | env _ henv ih => exact (ih hedit).elapsed henv
  | @call log t u c out _ hcall ih =>
    have hstands := ih fun e he => hedit e (List.mem_append_left _ he)
    have hlast := hedit (c,out) (List.mem_append_right _ (List.mem_singleton.mpr rfl))
    cases out with
    | error e =>
      have helapsed : Elapsed t u := hcall.failed elapsed_refl elapsed_trans
      refine (hstands.elapsed helapsed).mono ?_
      rintro ⟨e,he,hc⟩
      exact ⟨e,List.mem_append_left _ he,hc⟩
    | ok a =>
      refine (hstands.passes (calls_passes hcall) hlast).mono ?_
      rintro (⟨e,he,hc⟩ | hc)
      · exact ⟨e,List.mem_append_left _ he,hc⟩
      · exact ⟨_,List.mem_append_right _ (List.mem_singleton.mpr rfl),hc⟩

theorem Accepts.stands (h : Calls (service punctual fingerprint) s c (.ok a) t) (ha : Accepts id x (c,.ok a)) :
    Stands id x False t := by
  obtain ⟨row,hrow,hstart,hlive,hend⟩ := (calls_passes h).accepted id x ha
  exact ⟨row,hrow,hstart,.live hlive hend⟩

/-! ## The window -/

/-- In the order of their starts, open ones first among equal starts. -/
def Sorted (result : List Reservation) : Prop :=
  result.Pairwise fun r q => r.startAt < q.startAt ∨
    (r.startAt = q.startAt ∧ (q.status = .open_ → r.status = .open_))

theorem Listed.mem {now : ℤ} {result : List Reservation} (h : Listed now s (.listed result) t) {r : Reservation} :
    r ∈ result → ∃ row, t.reservations.get? r.id = some row ∧ row.startAt = r.startAt ∧
      now - listingGrace < r.startAt := by
  obtain ⟨rows,view,⟨hperm,_⟩,hview,hresult⟩ := h.answer
  cases hresult
  intro hr
  obtain ⟨row,hrow,rfl⟩ := List.mem_map.mp hr
  obtain ⟨hmem,hpicked⟩ := List.mem_filter.mp (hperm.mem_iff.mp hrow)
  obtain ⟨hlow,_,_⟩ := of_decide_eq_true hpicked
  refine ⟨row,?_,rfl,hlow⟩
  rw [← hview]
  exact Table.get?_of_mem hmem

theorem Listed.shown {now : ℤ} {result : List Reservation} (h : Listed now s (.listed result) t) {row : ReservationRow}
    (hrow : t.reservations.get? id = some row) (hlow : now - listingGrace < row.startAt)
    (hend : row.startAt < windowEnd now) (hlive : Live row.status) :
    ∃ r ∈ result, r.id = id ∧ r.startAt = row.startAt := by
  obtain ⟨rows,view,⟨hperm,_⟩,hview,hresult⟩ := h.answer
  cases hresult
  have hget : view.reservations.get? id = some row := by rw [hview,hrow]
  have hmem : row ∈ rows := by
    refine hperm.mem_iff.mpr (List.mem_filter.mpr ⟨Table.mem_of_get? hget,?_⟩)
    exact decide_eq_true ⟨hlow,hend,hlive⟩
  have hid : row.id = id := Table.key_of_get? hget
  exact ⟨_,List.mem_map_of_mem hmem,hid,rfl⟩

theorem Listed.sorted {now : ℤ} {result : List Reservation} (h : Listed now s (.listed result) t) : Sorted result := by
  obtain ⟨rows,view,⟨_,hsorted⟩,_,hresult⟩ := h.answer
  cases hresult
  exact List.pairwise_map.mpr hsorted

def listedBefore (r q : ReservationRow) : Bool :=
  r.startAt < q.startAt ∨ (r.startAt = q.startAt ∧ (q.status = .open_ → r.status = .open_))

theorem exists_listing (now : ℤ) (db : Store) : ∃ rows, Listing now db rows := by
  have htrans : ∀ a b c, listedBefore a b = true → listedBefore b c = true → listedBefore a c = true := by
    intro a b c hab hbc
    simp only [listedBefore,decide_eq_true_eq] at hab hbc ⊢
    rcases hab with hab | ⟨hab,hopen⟩ <;> rcases hbc with hbc | ⟨hbc,hopen'⟩
    · exact .inl (hab.trans hbc)
    · exact .inl (hbc ▸ hab)
    · exact .inl (hab ▸ hbc)
    · exact .inr ⟨hab.trans hbc,fun hc => hopen (hopen' hc)⟩
  have htotal : ∀ a b, (listedBefore a b || listedBefore b a) = true := by
    intro a b
    simp only [listedBefore,Bool.or_eq_true,decide_eq_true_eq]
    rcases lt_trichotomy a.startAt b.startAt with h | h | h
    · exact .inl (.inl h)
    · by_cases hopen : a.status = .open_
      · exact .inl (.inr ⟨h,fun _ => hopen⟩)
      · exact .inr (.inr ⟨h.symm,fun ha => absurd ha hopen⟩)
    · exact .inr (.inl h)
  refine ⟨_,List.mergeSort_perm _ listedBefore,?_⟩
  refine (List.pairwise_mergeSort htrans htotal _).imp ?_
  intro a b hab
  exact of_decide_eq_true hab

theorem exists_lists {now : ℤ} (hnow : s.now ≤ now) : ∃ result t, Lists punctual s now result t := by
  let view := endRows now (isFinished now (cancelSeats now (picksSeat (isFinished now) { s with now := now })
    { s with now := now })) (cancelSeats now (picksSeat (isFinished now) { s with now := now }) { s with now := now })
  obtain ⟨rows,hrows⟩ := exists_listing now view
  refine ⟨rows.map (withParticipantCount view),view,{ s with now := now },⟨now,hnow,rfl⟩,rfl,.deadline ?_⟩
  refine .stmt _ rfl (.stmt _ rfl (.stmt _ ⟨_,⟨rows,hrows,rfl⟩,rfl⟩ ?_))
  exact .ret ⟨trivial,fun _ => le_grace now⟩

/-- A reservation accepted with the start `x`, whose start has not been edited since: every listing can
be answered; until an hour after the start it shows the reservation unless that was cancelled, and from
then on it does not and leaves it ended. -/
theorem listing_window {s₁ s₂ : Store} (hcall : Calls (service punctual fingerprint) s c (.ok a) s₁)
    (haccepted : Accepts id x (c,.ok a)) (hrun : Serial (service punctual fingerprint) s₁ later s₂)
    (hedit : ∀ e ∈ later, ¬ EditsStart id e) {now : ℤ} (hnow : s₂.now ≤ now) :
    (∃ result t, Lists punctual s₂ now result t) ∧ ∀ result t, Lists punctual s₂ now result t →
      (now < x + listingGrace → (∀ e ∈ later, ¬ Cancels id e) → ∃ r ∈ result, r.id = id ∧ r.startAt = x) ∧
      (x + listingGrace ≤ now → (∀ r ∈ result, r.id ≠ id) ∧ ((∀ e ∈ later, ¬ Cancels id e) →
        ∃ row, t.reservations.get? id = some row ∧ row.status = .ended ∧ seats t id = [])) ∧
      Sorted result := by
  refine ⟨exists_lists hnow,?_⟩
  intro result t hlists
  have hlisted := hlists.listed
  obtain ⟨row,hrow,rfl,hstanding⟩ := (haccepted.stands hcall).serial hrun hedit
  have hrow' := hlisted.expired.row id
  have hseats := hlisted.expired.seats id
  rw [isFinished_eq hrow] at hseats
  rw [hrow,Option.map_some] at hrow'
  refine ⟨?_,?_,hlisted.sorted⟩
  · intro hearly hcancels
    have hlive : Live row.status ∧ row.startAt < windowEnd now := by
      cases hstanding with
      | live hlive hend => exact ⟨hlive,lt_of_lt_of_le hend (windowEnd_mono hnow)⟩
      | ended _ _ hover => omega
      | cancelled hc _ _ =>
        obtain ⟨e,he,hcancel⟩ := hc
        exact absurd hcancel (hcancels e he)
    have hopen : ¬ Finished now row := by
      rintro ⟨_,hover⟩
      omega
    rw [if_neg hopen] at hrow'
    exact hlisted.shown hrow' (by omega) hlive.2 hlive.1
  · intro hlate
    have hstart : ∀ r ∈ result, r.id ≠ id := by
      rintro r hr rfl
      obtain ⟨found,hfound,hsame,hlow⟩ := hlisted.mem hr
      rw [hrow'] at hfound
      cases hfound
      have hunchanged : (if Finished now row then endedRow now row else row).startAt = row.startAt := by
        split <;> rfl
      omega
    refine ⟨hstart,fun hcancels => ⟨_,hrow',?_⟩⟩
    cases hstanding with
    | live hlive _ =>
      have hover : Finished now row := ⟨hlive,by omega⟩
      rw [decide_eq_true hover,if_pos rfl] at hseats
      rw [if_pos hover]
      exact ⟨rfl,hseats⟩
    | ended hstatus htaken _ =>
      have hover : ¬ Finished now row := by
        rintro ⟨hlive,_⟩
        rw [hstatus] at hlive
        exact absurd hlive not_live_ended
      rw [decide_eq_false hover,if_neg Bool.false_ne_true] at hseats
      rw [if_neg hover]
      exact ⟨hstatus,hseats.trans htaken⟩
    | cancelled hc _ _ =>
      obtain ⟨e,he,hcancel⟩ := hc
      exact absurd hcancel (hcancels e he)

end Runs

/-- Alice's reservation for noon, listed at half past. -/
theorem listing_window_opened : ∃ result t, Lists True opened (3 * hour + 30 * minute) result t ∧
    ∃ r ∈ result, r.id = 1 ∧ r.startAt = 3 * hour := by
  have hcall : Calls (service True digest) nothingYet (.create "alice" "Alice" "k" anyAtNoon)
      (.ok (.created ⟨reservation noonRow 0 [],true⟩)) opened :=
    (runs_create True digest 0 rfl (by decide) rfl rfl).ends _
  have haccepted : Accepts 1 (3 * hour) (.create "alice" "Alice" "k" anyAtNoon,
      .ok (.created ⟨reservation noonRow 0 [],true⟩)) := ⟨rfl,rfl,rfl⟩
  have hlater : opened.now ≤ 3 * hour + 30 * minute := by decide
  obtain ⟨⟨result,t,hlists⟩,hall⟩ := listing_window hcall haccepted .nil (by simp) hlater
  exact ⟨result,t,hlists,(hall result t hlists).1 (by decide) (by simp)⟩

end Tag2now.Reservations
