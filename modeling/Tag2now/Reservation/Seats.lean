import Tag2now.Reservation.Alone
import Tag2now.Reservation.Discipline

/-! # Every operation keeps the seats

Each operation keeps to the discipline, so the interleaved service refines the machine
of single reservations, and the invariant of the machine holds of every committed
database.
-/
namespace Tag2now.Reservations
open ReadCommitted Idempotency

/-! ## Rules -/

/-- What the holder of a reservation's lock has read stays true. -/
structure Locked (L : Set Lock) (s : Store) (id : ℕ) (row : ReservationRow) (taken : List ParticipantRow) :
    Prop where
  lock : Lock.reservation id ∈ L
  row : s.reservations.get? id = some row
  seats : seats s id = taken

theorem Locked.rely {L : Set Lock} {s t : Store} {id : ℕ} {row : ReservationRow}
    {taken : List ParticipantRow} (h : Locked L s id row taken) (hr : Rely L s t) :
    Locked L t id row taken :=
  ⟨h.lock,(hr.held h.lock).1.trans h.row,(hr.held h.lock).2.trans h.seats⟩

theorem Locked.mono {K L : Set Lock} {s : Store} {id : ℕ} {row : ReservationRow}
    {taken : List ParticipantRow} (h : Locked K s id row taken) (hsub : K ⊆ L) :
    Locked L s id row taken := ⟨hsub h.lock,h.row,h.seats⟩

theorem lenient {c : Request} : discipline.Lenient c := fun _ _ => trivial

section Rules
variable {β : Type} {c : Request} {h : Held Store Lock}
  {s : Store}

theorem safe_clock {k : ℤ → Program Answer} (hview : ∀ s, (h.pending s).now = s.now)
    (hk : ∀ s', Rely h.locks s s' → Consistent s' →
      Safe discipline.toAgreement c (k s'.now) (h.within fun db => True → db.now ≤ s'.now + listingGrace) s') :
    Safe discipline.toAgreement c (clock True >>= k) h s := by
  unfold clock
  simp only [Prog.bind_assoc,safe_query]
  intro s₁ hr₁ hi₁
  rw [hview s₁]
  exact hk s₁ hr₁ hi₁

theorem safe_lockReservation {k : ReservationRow → Program Answer} {id : ℕ}
    (hview : ∀ s, (h.pending s).reservations = s.reservations)
    (hk : ∀ s' row, Consistent s' → Locked (h.locks ∪ {.reservation id}) s' id row (seats s' id) →
      Safe discipline.toAgreement c (k row) ⟨h.pending,h.locks ∪ {.reservation id},h.due⟩ s') :
    Safe discipline.toAgreement c (lockReservation id >>= k) h s := by
  unfold lockReservation
  simp only [Prog.bind_assoc,safe_execute]
  intro s₁ _ hi₁
  rw [hview s₁]
  cases hrow : s₁.reservations.get? id with
  | none => exact fun _ _ _ => trivial
  | some row => simpa using hk s₁ row hi₁ ⟨.inr rfl,hrow,rfl⟩

theorem safe_activeParticipantCount {k : ℕ → Program Answer} {id : ℕ} {row : ReservationRow}
    {taken : List ParticipantRow} (hl : Locked h.locks s id row taken)
    (hview : ∀ s, seats (h.pending s) id = seats s id)
    (hk : ∀ s', Locked h.locks s' id row taken → Safe discipline.toAgreement c (k taken.length) h s') :
    Safe discipline.toAgreement c (activeParticipantCount id >>= k) h s := by
  unfold activeParticipantCount
  rw [safe_query]
  intro s₁ hr₁ _
  have hl₁ := hl.rely hr₁
  rw [hview,hl₁.seats]
  exact hk s₁ hl₁

theorem safe_activeParticipation {k : Option ParticipantRow → Program Answer} {id : ℕ}
    {row : ReservationRow} {taken : List ParticipantRow} {subject : String}
    (hl : Locked h.locks s id row taken) (hview : ∀ s, seats (h.pending s) id = seats s id)
    (hk : ∀ s', Locked h.locks s' id row taken →
      Safe discipline.toAgreement c (k (taken.find? fun p => p.subject = some subject)) h s') :
    Safe discipline.toAgreement c (activeParticipation id subject >>= k) h s := by
  unfold activeParticipation
  rw [safe_query]
  intro s₁ hr₁ _
  have hl₁ := hl.rely hr₁
  rw [hview,hl₁.seats]
  exact hk s₁ hl₁

theorem safe_setRow {k : Unit → Program Answer} {id : ℕ} {row : ReservationRow}
    {taken : List ParticipantRow} {f hf} (hl : Locked h.locks s id row taken)
    (hk : ∀ s', Locked (h.locks ∪ {.reservation id}) s' id row taken →
      Safe discipline.toAgreement c (k ())
        ⟨modifyRow id f hf ∘ h.pending,h.locks ∪ {.reservation id},h.due⟩ s') :
    Safe discipline.toAgreement c (setRow id f hf >>= k) h s := by
  unfold setRow
  rw [safe_execute]
  intro s₁ hr₁ _
  exact hk s₁ ((hl.rely hr₁).mono Set.subset_union_left)

theorem safe_readOne {k : Reservation → Program Answer} {id : ℕ} {e : ReservationError}
    (hk : ∀ s' row, Rely h.locks s s' → Consistent s' →
      (h.pending s').reservations.get? id = some row →
      Safe discipline.toAgreement c (k (withParticipantCount (h.pending s') row)) h s') :
    Safe discipline.toAgreement c (readOne id e >>= k) h s := by
  unfold readOne
  simp only [Prog.bind_assoc,safe_query]
  intro s₁ hr₁ hi₁
  cases hrow : (h.pending s₁).reservations.get? id with
  | none => exact fun _ _ _ => trivial
  | some row => exact hk s₁ row hr₁ hi₁ hrow

end Rules

theorem not_overdue {now time : ℤ} {row : ReservationRow} (hstart : now < row.startAt)
    (hdue : time ≤ now + listingGrace) : ¬ Overdue time row := by
  unfold Overdue
  omega

theorem Effect.single {L : Set Lock} {s t : Store} {id : ℕ} (hlock : Lock.reservation id ∈ L)
    (hnow : t.now = s.now)
    (hmove : Move s.now (s.reservations.get? id) (seats s id) (t.reservations.get? id) (seats t id))
    (hother : ∀ k, k ≠ id → t.reservations.get? k = s.reservations.get? k ∧ seats t k = seats s k)
    (hseat : ∀ k, Lock.participant k ∉ L → t.participants.get? k = s.participants.get? k) :
    Effect L s t := by
  refine ⟨hnow,fun k => ?_,fun {k} => hseat k⟩
  by_cases hk : k = id
  · subst hk
    exact .inr ⟨hlock,hmove⟩
  · exact .inl (hother k hk)

/-! ## Operations -/

section Operations
variable {c : Request} {s : Store} {id : ℕ} {row : ReservationRow} {taken : List ParticipantRow} {L : Set Lock}

/-- The commit of a join, from what it read under the lock. -/
theorem commit_joined {now : ℤ} {p : ParticipantRow} {r : Reservation}
    (hl : Locked L s id row taken) (hstart : now < row.startAt) (hdue : s.now ≤ now + listingGrace)
    (hopen : row.status = .open_) (hlt : taken.length < row.capacity)
    (hfresh : s.participants.get? p.id = none) (hpl : Lock.participant p.id ∈ L)
    (hres : p.reservationId = id) (hactive : p.cancelledAt = none)
    (hsubject : ∀ q ∈ taken, q.subject ≠ p.subject) (hhost : p.subject ≠ row.hostSubject)
    (hr : Counted r) {f} (hf : f = setStatus now (statusFor (taken.length + 1) row.capacity)) {hid} :
    Commit L s (.joined r) (insertSeat p (modifyRow id f hid s)) := by
  have hnew : (insertSeat p (modifyRow id f hid s)).reservations.get? id = some (f row) := by
    change (modifyRow id f hid s).reservations.get? id = _
    rw [get?_modifyRow,if_pos rfl,hl.row]
    rfl
  have hseats (k : ℕ) : seats (insertSeat p (modifyRow id f hid s)) k =
      seats s k ++ if p.reservationId = k then [p] else [] := seats_insertSeat hfresh hactive
  have hother (k : ℕ) (hk : k ≠ id) :
      (insertSeat p (modifyRow id f hid s)).reservations.get? k = s.reservations.get? k := by
    change (modifyRow id f hid s).reservations.get? k = _
    rw [get?_modifyRow,if_neg hk]
  subst hf
  refine ⟨?_,fun _ => .inl rfl,by simpa [Answer.reservations] using hr⟩
  refine .single hl.lock rfl ?_ (fun k hk => ⟨hother k hk,?_⟩) fun k hk => ?_
  · rw [hnew,hl.row,hseats,if_pos hres,hl.seats]
    exact .joined now (not_overdue hstart hdue) hopen hlt hsubject hhost
  · rw [hseats,if_neg (by rw [hres]; exact fun h => hk h.symm),List.append_nil]
  · refine (get?_insertSeat hfresh).trans (if_neg ?_)
    rintro rfl
    exact hk hpl

theorem safe_join (subject displayName : String) (ranks : List String) (s : Store) :
    Safe discipline.toAgreement c (joinReservation True id subject displayName ranks) .empty s := by
  unfold joinReservation join
  refine safe_clock (fun _ => rfl) fun s₁ _ _ => ?_
  simp only [Prog.bind_assoc]
  refine safe_lockReservation (fun _ => rfl) fun s₂ row _ hl => ?_
  generalize seats s₂ id = taken at hl
  refine safe_activeParticipantCount hl (fun _ => rfl) fun s₃ hl => ?_
  refine safe_activeParticipation hl (fun _ => rfl) fun s₄ hl => ?_
  refine safe_ofExcept lenient fun _ hby => safe_ofExcept lenient fun _ hjoin => ?_
  obtain ⟨hhost,halready⟩ := ensureJoinableBy_ok.mp hby
  obtain ⟨hopen,hstart,hlt⟩ := ensureJoinable_ok.mp hjoin
  refine safe_setRow hl fun s₅ hl => ?_
  unfold addSeat
  simp only [Prog.bind_assoc]
  refine safe_activeParticipation hl (fun _ => rfl) fun s₆ hl => safe_ensure lenient fun _ => ?_
  rw [safe_perform]
  rintro s₇ hr₇ _ o ⟨pid,joinedAt,hfresh,rfl⟩
  have hl := (hl.rely hr₇).mono (Set.subset_union_left (t := {Lock.participant pid}))
  refine safe_readOne fun s₈ found hr₈ _ _ => ?_
  intro s₉ hr₉ _ hdue
  have hfresh₉ := ((hr₈.trans hr₉).seat (.inr rfl)).trans hfresh
  have hnone : ∀ q ∈ taken, q.subject ≠ some subject := by simpa using halready
  exact commit_joined (p := newSeat pid id subject displayName ranks joinedAt) ((hl.rely hr₈).rely hr₉)
    hstart (hdue.2 trivial) hopen hlt hfresh₉ (.inr rfl) rfl rfl hnone (fun h => hhost h.symm)
    counted_withParticipantCount rfl

theorem commit_left {now : ℤ} {p : ParticipantRow} {r : Reservation}
    (hl : Locked L s id row taken) (hstart : now < row.startAt) (hdue : s.now ≤ now + listingGrace)
    (hlive : Live row.status) (hp : p ∈ taken) (hpl : Lock.participant p.id ∈ L) (hr : Counted r)
    {f} (hf : f = setStatus now (statusFor (taken.filter fun q => !decide (q.id = p.id)).length row.capacity))
    {hid} : Commit L s (.left r)
      (modifyRow id f hid (cancelSeats now (fun k => decide (k = p.id)) s)) := by
  have hnew : (modifyRow id f hid (cancelSeats now (fun k => decide (k = p.id)) s)).reservations.get? id =
      some (f row) := by
    rw [get?_modifyRow,if_pos rfl,show (cancelSeats _ _ s).reservations = s.reservations from rfl,hl.row]
    rfl
  have hother (k : ℕ) (hk : k ≠ id) : (modifyRow id f hid
      (cancelSeats now (fun k => decide (k = p.id)) s)).reservations.get? k = s.reservations.get? k := by
    rw [get?_modifyRow,if_neg hk]
    rfl
  have hps : p ∈ seats s id := hl.seats ▸ hp
  have hrest : (taken.filter fun q => !decide (q.id = p.id)).length < taken.length := by
    refine List.length_filter_lt_length_iff_exists.mpr ⟨p,hp,by simp⟩
  subst hf
  refine ⟨?_,fun _ => .inl rfl,by simpa [Answer.reservations] using hr⟩
  refine .single hl.lock rfl ?_ (fun k hk => ⟨hother k hk,?_⟩) fun k hk => ?_
  · rw [hnew,hl.row,seats_modifyRow,seats_cancelSeats,hl.seats]
    exact .left now (not_overdue hstart hdue) hlive List.filter_sublist hrest
  · rw [seats_modifyRow,seats_cancelSeats,List.filter_eq_self]
    intro q hq
    have hne : q.id ≠ p.id := by
      intro hid
      have hqp := Table.eq_of_key (mem_seats.mp hq).1 (mem_seats.mp hps).1 hid
      exact hk ((mem_seats.mp hq).2.1.symm.trans (hqp ▸ (mem_seats.mp hps).2.1))
    simpa using hne
  · refine get?_cancelSeats_of_not (decide_eq_false ?_)
    rintro rfl
    exact hk hpl

theorem safe_leave (subject : String) (s : Store) :
    Safe discipline.toAgreement c (leaveReservation True id subject) .empty s := by
  unfold leaveReservation cancelParticipation
  refine safe_clock (fun _ => rfl) fun s₁ _ _ => ?_
  simp only [Prog.bind_assoc]
  refine safe_lockReservation (fun _ => rfl) fun s₂ row _ hl => ?_
  generalize seats s₂ id = taken at hl
  refine safe_activeParticipation hl (fun _ => rfl) fun s₃ hl => safe_ofExcept lenient fun _ hcheck => ?_
  obtain ⟨hlive,hstart,_⟩ := ensureParticipationCancellable_ok.mp hcheck
  cases hfind : taken.find? fun p => p.subject = some subject with
  | none => exact fun _ _ _ => trivial
  | some p =>
    have hp := List.mem_of_find?_eq_some hfind
    unfold cancelSeat
    simp only [Prog.bind_assoc,safe_execute]
    intro s₄ hr₄ _
    have hl := (hl.rely hr₄).mono (Set.subset_union_left (t := {Lock.participant p.id}))
    unfold activeParticipantCount
    rw [safe_query]
    intro s₅ hr₅ _
    have hl := hl.rely hr₅
    have hcount : seats (cancelSeats s₁.now (fun k => decide (k = p.id)) s₅) id =
        taken.filter fun q => !decide (q.id = p.id) := by rw [seats_cancelSeats,hl.seats]
    refine safe_setRow hl fun s₆ hl => ?_
    refine safe_readOne fun s₇ found hr₇ _ _ => ?_
    intro s₈ hr₈ _ hdue
    exact commit_left ((hl.rely hr₇).rely hr₈) hstart (hdue.2 trivial) hlive hp (.inl (.inr rfl))
      counted_withParticipantCount (congrArg (fun l => setStatus s₁.now (statusFor (List.length l) _)) hcount)

/-- The seats a release picks are the active ones of the picked reservations. -/
theorem picksSeat_iff {db : Store} {picked : Store → ℕ → Bool} {pid : ℕ} : picksSeat picked db pid = true ↔
    ∃ q, q ∈ seats db q.reservationId ∧ picked db q.reservationId = true ∧ q.id = pid := by
  unfold picksSeat
  constructor
  · intro h
    cases hq : db.participants.get? pid with
    | none => simp [hq] at h
    | some q =>
      rw [hq] at h
      obtain ⟨hactive,hpicked⟩ := of_decide_eq_true h
      exact ⟨q,mem_seats.mpr ⟨Table.mem_of_get? hq,rfl,hactive⟩,hpicked,Table.key_of_get? hq⟩
  · rintro ⟨q,hq,hpicked,rfl⟩
    rw [get?_seat hq]
    exact decide_eq_true ⟨(mem_seats.mp hq).2.2,hpicked⟩

theorem commit_cancelled {now : ℤ} {ids : ℕ → Bool} (hl : Locked L s id row taken)
    (hstart : now < row.startAt) (hdue : s.now ≤ now + listingGrace) (hlive : Live row.status)
    (hids : ∀ k, ids k = true ↔ ∃ q ∈ taken, q.id = k) (hpl : ∀ k, ids k = true → Lock.participant k ∈ L) :
    Commit L s .cancelled
      (cancelSeats now ids (modifyRow id (cancelledRow now) (cancelledRow_id now) s)) := by
  have hget (k : ℕ) :
      (cancelSeats now ids (modifyRow id (cancelledRow now) (cancelledRow_id now) s)).reservations.get? k =
      if k = id then (s.reservations.get? k).map (cancelledRow now) else s.reservations.get? k :=
    get?_modifyRow _ (cancelledRow_id now)
  have hnew : (cancelSeats now ids (modifyRow id (cancelledRow now) (cancelledRow_id now) s)).reservations.get? id =
      some (cancelledRow now row) := by
    rw [hget,if_pos rfl,hl.row]
    rfl
  have hother (k : ℕ) (hk : k ≠ id) : (cancelSeats now ids
      (modifyRow id (cancelledRow now) (cancelledRow_id now) s)).reservations.get? k = s.reservations.get? k := by
    rw [hget,if_neg hk]
  refine ⟨?_,fun _ => .inl rfl,nofun⟩
  refine .single hl.lock rfl ?_ (fun k hk => ⟨hother k hk,?_⟩) fun k hk => ?_
  · have hgone : seats (cancelSeats now ids (modifyRow id (cancelledRow now) (cancelledRow_id now) s)) id = [] := by
      rw [seats_cancelSeats,seats_modifyRow,hl.seats,List.filter_eq_nil_iff]
      intro q hq
      simp [(hids q.id).mpr ⟨q,hq,rfl⟩]
    rw [hnew,hl.row,hgone,hl.seats]
    exact .cancelled now (not_overdue hstart hdue) hlive
  · rw [seats_cancelSeats,seats_modifyRow,List.filter_eq_self]
    intro q hq
    by_contra hpicked
    obtain ⟨q',hq',hid⟩ := (hids q.id).mp (by simpa using hpicked)
    have hqs : q' ∈ seats s id := hl.seats ▸ hq'
    have hqq := Table.eq_of_key (mem_seats.mp hqs).1 (mem_seats.mp hq).1 hid
    exact hk ((mem_seats.mp hq).2.1.symm.trans (hqq ▸ (mem_seats.mp hqs).2.1))
  · refine get?_cancelSeats_of_not ?_
    cases hk' : ids k with
    | false => rfl
    | true => exact absurd (hpl k hk') hk

theorem safe_cancel (subject : String) (s : Store) :
    Safe discipline.toAgreement c (cancelReservation True id subject) .empty s := by
  unfold cancelReservation cancel
  refine safe_clock (fun _ => rfl) fun s₁ _ _ => ?_
  simp only [Prog.bind_assoc]
  refine safe_lockReservation (fun _ => rfl) fun s₂ row _ hl => ?_
  generalize seats s₂ id = taken at hl
  refine safe_ofExcept lenient fun _ hcheck => ?_
  obtain ⟨_,hlive,hstart⟩ := ensureCancellable_ok.mp hcheck
  refine safe_setRow hl fun s₃ hl => ?_
  unfold releaseParticipants releaseSeats
  rw [safe_execute]
  intro s₄ hr₄ _
  have hl := hl.rely hr₄
  intro s₅ hr₅ _ hdue
  refine commit_cancelled ((hl.mono Set.subset_union_left).rely hr₅) hstart (hdue.2 trivial) hlive (fun k => ?_)
    fun k hk => .inr ⟨k,hk,rfl⟩
  refine picksSeat_iff.trans ?_
  rw [← hl.seats]
  constructor
  · rintro ⟨q,hq,hpicked,rfl⟩
    have hid : q.reservationId = id := of_decide_eq_true hpicked
    exact ⟨q,hid ▸ hq,rfl⟩
  · rintro ⟨q,hq,rfl⟩
    have hid := (mem_seats.mp hq).2.1
    exact ⟨q,hid.symm ▸ hq,decide_eq_true hid,rfl⟩

/-- The start an edit or a creation sets is not overdue when it commits. -/
def FreshStart (startAt : Option ℤ) (time : ℤ) : Prop := ∀ x ∈ startAt, time < x + listingGrace

theorem fresh_of_startAtFrom {t : TimeOfDay} {now time x : ℤ} (h : startAtFrom t now = .ok x)
    (hdue : time ≤ now + listingGrace) : time < x + listingGrace := by
  have hlead := leadTime_le_of_startAtFrom h
  have hpos : 0 < leadTime := by decide
  omega

theorem commit_updated {now : ℤ} {patch : UpdateRequest} {current : Reservation} {startAt : Option ℤ}
    (hl : Locked L s id row []) (hok : SeatsOk row []) (hstart : now < row.startAt)
    (hdue : s.now ≤ now + listingGrace) (hlive : Live row.status) (hfresh : FreshStart startAt s.now) :
    Commit L s (.updated current (reservation ((patch.changes startAt).apply now row) 0 []))
      (modifyRow id ((patch.changes startAt).apply now) (Changes.apply_id _ now) s) := by
  have hnew : (modifyRow id ((patch.changes startAt).apply now) (Changes.apply_id _ now) s).reservations.get? id =
      some ((patch.changes startAt).apply now row) := by
    rw [get?_modifyRow,if_pos rfl,hl.row]
    rfl
  have hother (k : ℕ) (hk : k ≠ id) : (modifyRow id ((patch.changes startAt).apply now)
      (Changes.apply_id _ now) s).reservations.get? k = s.reservations.get? k := by
    rw [get?_modifyRow,if_neg hk]
  refine ⟨?_,fun _ => .inl rfl,fun r hr => List.mem_singleton.mp hr ▸ counted_fresh⟩
  refine .single hl.lock rfl ?_ (fun k hk => ⟨hother k hk,rfl⟩) fun _ _ => rfl
  rw [hnew,hl.row,seats_modifyRow,hl.seats]
  refine .updated (not_overdue hstart hdue) hlive rfl rfl ?_ ?_
  · change 1 ≤ patch.capacity.getD row.capacity
    cases hcap : patch.capacity with
    | none => exact hok.capacity
    | some n => exact patch.capacity_pos n hcap
  · unfold Overdue
    change ¬ startAt.getD row.startAt + listingGrace ≤ s.now
    cases startAt with
    | none => exact not_overdue hstart hdue
    | some x =>
      have hx := hfresh x rfl
      simp only [Option.getD_some]
      omega

theorem safe_newStart {h : Held Store Lock} {k : Option ℤ → Program Answer} {startTime : Option TimeOfDay}
    (hview : ∀ s, (h.pending s).now = s.now)
    (hk : ∀ s' startAt due, (∀ t : Store, due t → h.due t ∧ FreshStart startAt t.now) →
      Safe discipline.toAgreement c (k startAt) ⟨h.pending,h.locks,due⟩ s') :
    Safe discipline.toAgreement c (newStart True startTime >>= k) h s := by
  cases startTime with
  | none => exact hk s none h.due fun _ ht => ⟨ht,nofun⟩
  | some t =>
    unfold newStart
    simp only [Prog.bind_assoc]
    refine safe_clock hview fun s₁ _ _ => safe_ofExcept lenient fun x hx => ?_
    refine hk s₁ (some x) _ fun u hu => ⟨hu.1,?_⟩
    rintro _ ⟨⟩
    exact fresh_of_startAtFrom hx (hu.2 trivial)

theorem safe_update (subject : String) (patch : UpdateRequest) (s : Store) :
    Safe discipline.toAgreement (.update id subject patch) (updateReservation True id subject patch) .empty s := by
  unfold updateReservation Reservations.get
  refine safe_readOne fun s₁ found _ _ _ => safe_ofExcept lenient fun u hvalid => ?_
  refine safe_newStart (fun _ => rfl) fun s₂ startAt due hdue => ?_
  refine safe_clock (fun _ => rfl) fun s₃ _ _ => ?_
  unfold update
  simp only [Prog.bind_assoc]
  refine safe_lockReservation (fun _ => rfl) fun s₄ row hi hl => ?_
  have hok := hi.seatsOk hl.row
  generalize seats s₄ id = taken at hl hok
  refine safe_ofExcept lenient fun _ _ => safe_activeParticipantCount hl (fun _ => rfl) fun s₅ hl => ?_
  refine safe_ofExcept lenient fun _ hcheck => ?_
  obtain ⟨hlive,hstart,hzero⟩ := ensureEditable_ok.mp hcheck
  have hnone := List.length_eq_zero_iff.mp hzero
  subst hnone
  refine safe_setRow hl fun s₆ hl => ?_
  intro s₇ hr₇ _ hd
  exact commit_updated (hl.rely hr₇) hok hstart (hd.2 trivial) hlive (hdue s₇ hd.1).2

/-- The commit of a creation: the key, its answer and the row at once. -/
theorem commit_created {fingerprint : String → CreateRequest → String} {subject key : String}
    {request : CreateRequest} {values : Values} {createdAt : ℤ} (hs : Consistent s)
    (hnone : s.keys.get? (subject,key) = none) (hkey : Lock.key (subject,key) ∈ L)
    (hlock : Lock.reservation id ∈ L) (hfree : s.reservations.get? id = none) (hcap : 1 ≤ values.capacity)
    (hfresh : s.now < values.startAt + listingGrace) :
    Commit L s (.created ⟨reservation (newRow values id createdAt) 0 [],true⟩)
      (afterCreate fingerprint subject key request values id createdAt s) := by
  have hget := @get?_afterCreate fingerprint subject key request values createdAt s id hfree
  have hkeys := keys_afterCreate fingerprint request values id createdAt hnone
  refine ⟨?_,fun o => ?_,fun r hr => List.mem_singleton.mp hr ▸ counted_fresh⟩
  · refine .single hlock rfl ?_ (fun k hk => ⟨(hget k).trans (if_neg hk),rfl⟩) fun _ _ => rfl
    rw [hget,if_pos rfl,hfree,hs.orphan hfree]
    change Move s.now none [] (some (newRow values id createdAt)) (seats s id)
    rw [hs.orphan hfree]
    refine .created rfl hcap ?_
    unfold Overdue
    exact not_le.mpr hfresh
  · by_cases ho : o = (subject,key)
    · subst ho
      exact .inr ⟨hnone,hkey,_,_,(hkeys _).trans (if_pos rfl),rfl,rfl⟩
    · exact .inl ((hkeys o).trans (if_neg ho))

theorem safe_create {fingerprint : String → CreateRequest → String} (subject displayName key : String)
    (request : CreateRequest) (s : Store) :
    Safe discipline.toAgreement c (createReservation True fingerprint subject displayName key request) .empty s := by
  unfold createReservation
  refine safe_ofExcept lenient fun u hvalid => safe_clock (fun _ => rfl) fun s₁ _ _ => ?_
  refine safe_ofExcept lenient fun x hx => ?_
  refine safe_runOnce respects (fun _ => rfl) ?_ (fun _ _ _ _ _ _ => trivial) ?_
  · intro s₂ row response _ _ hrow _ hresponse s₃ hr₃ hi₃ _
    obtain ⟨response',hresponse',hcounted⟩ := hi₃.answered (hr₃.kept hrow)
    rw [hresponse] at hresponse'
    cases hresponse'
    exact ⟨.refl _ _,fun _ => .inl rfl,fun r hr => List.mem_singleton.mp hr ▸ hcounted⟩
  · intro s₂ _ _ hnone
    unfold create complete
    simp only [safe_perform]
    rintro s₃ hr₃ _ o ⟨id,createdAt,hfree,rfl⟩
    simp only [safe_execute]
    intro s₄ hr₄ _ s₅ hr₅ hi₅ hdue
    have hnone₃ := hr₃.absent (.inr rfl) hnone
    have hnone₅ := hr₅.absent (.inl (.inl (.inr rfl))) (hr₄.absent (.inl (.inr rfl)) hnone₃)
    have hfree₄ := (hr₄.held (.inr rfl)).1.trans hfree
    have hfree₅ := (hr₅.held (.inl (.inr rfl))).1.trans hfree₄
    exact commit_created hi₅ hnone₅ (.inl (.inl (.inr rfl))) (.inl (.inr rfl)) hfree₅
      request.capacity_pos (fresh_of_startAtFrom hx (hdue.2 trivial))

theorem isFinished_iff {now : ℤ} {db : Store} {k : ℕ} : isFinished now db k = true ↔
    ∃ row, db.reservations.get? k = some row ∧ Live row.status ∧ Overdue now row := by
  have hover (row : ReservationRow) : Overdue now row ↔ row.startAt ≤ now - listingGrace := by
    unfold Overdue
    omega
  unfold isFinished
  cases db.reservations.get? k with
  | none => simp
  | some row =>
    rw [Option.any_some,decide_eq_true_iff]
    simp [Finished,hover]

section Expiry
variable {now : ℤ} {s₁ s₂ : Store} {K : Set Lock} {k : ℕ} {p : ParticipantRow}

/-- The seats of a reservation that is ended have all been picked. -/
theorem picked_of_ended (hnow : now ≤ s₁.now) (hr : Rely K s₁ s) (hrow : s.reservations.get? k = some row)
    (hlive : Live row.status) (hover : Overdue now row) (hp : p ∈ seats s k) :
    picksSeat (isFinished now) s₁ p.id = true := by
  have hover₁ : Overdue s₁.now row := le_trans hover hnow
  obtain ⟨row₁,hrow₁,hstart⟩ := hr.found hrow hover₁
  have hsame : Overdue s₁.now row₁ := by
    unfold Overdue
    rw [hstart]
    exact hover₁
  rcases hr.past hrow₁ hsame with ⟨hkept,hseats⟩ | ⟨_,row',hrow',_,hdead⟩
  · rw [hrow] at hkept
    cases hkept
    have hp₁ : p ∈ seats s₁ k := hseats ▸ hp
    have hid := (mem_seats.mp hp₁).2.1
    exact picksSeat_iff.mpr ⟨p,hid.symm ▸ hp₁,isFinished_iff.mpr ⟨row,hid.symm ▸ hrow₁,hlive,hover⟩,rfl⟩
  · rw [hrow] at hrow'
    cases hrow'
    exact absurd hlive hdead

/-- A picked seat is one of a reservation that is ended. -/
theorem ended_of_picked (hnow : now ≤ s₁.now) (hr₁ : Rely K s₁ s₂) (hr : Rely K s₁ s)
    (hlock : Lock.participant p.id ∈ K) (hp : p ∈ seats s k)
    (hpicked : picksSeat (isFinished now) s₁ p.id = true) : isFinished now s₂ k = true := by
  obtain ⟨q,hq,hfinished,hid⟩ := picksSeat_iff.mp hpicked
  have hq₁ := get?_seat hq
  have hqp : q = p := by
    have hps := (hr.seat hlock).symm.trans (get?_seat hp)
    rw [← hid,hq₁] at hps
    exact Option.some.inj hps
  subst hqp
  have hk := (mem_seats.mp hp).2.1
  subst hk
  obtain ⟨row,hrow,hlive,hover⟩ := isFinished_iff.mp hfinished
  rcases hr₁.past hrow (le_trans hover hnow) with ⟨hkept,_⟩ | ⟨hgone,_⟩
  · exact isFinished_iff.mpr ⟨row,hkept,hlive,hover⟩
  · have hq₂ : q ∈ seats s₂ q.reservationId :=
      mem_seats.mpr ⟨Table.mem_of_get? ((hr₁.seat hlock).trans hq₁),rfl,(mem_seats.mp hp).2.2⟩
    rw [hgone] at hq₂
    cases hq₂

/-- The seats the expiry cancelled and the reservations it ended, seen from its commit.
Between its two statements nobody else touches a reservation that is overdue. -/
theorem commit_listed {rs : List Reservation} (hnow : now ≤ s₁.now) (hr₁ : Rely K s₁ s₂)
    (hr : Rely K s₁ s) (hr₂ : Rely L s₂ s)
    (hseat : ∀ k, picksSeat (isFinished now) s₁ k = true → Lock.participant k ∈ K ∧ Lock.participant k ∈ L)
    (hlock : ∀ k, isFinished now s₂ k = true → Lock.reservation k ∈ L)
    (hcounted : ∀ r ∈ rs, Counted r) :
    Commit L s (.listed rs) (endRows now (isFinished now s₂)
      (cancelSeats now (picksSeat (isFinished now) s₁) s)) := by
  set t := endRows now (isFinished now s₂) (cancelSeats now (picksSeat (isFinished now) s₁) s) with ht
  have hget (k : ℕ) : t.reservations.get? k = (s.reservations.get? k).map (endIf now (isFinished now s₂)) :=
    get?_endRows
  have hseats (k : ℕ) : seats t k =
      (seats s k).filter fun p => !picksSeat (isFinished now) s₁ p.id := by
    rw [ht,seats_endRows,seats_cancelSeats]
  refine ⟨⟨rfl,fun k => ?_,fun {k} hk => ?_⟩,fun _ => .inl rfl,hcounted⟩
  · by_cases hend : isFinished now s₂ k = true
    · have hl := hlock k hend
      obtain ⟨row,hrow,hlive,hover⟩ := isFinished_iff.mp hend
      have hrow_s := (hr₂.held hl).1.trans hrow
      have hgone : seats t k = [] := by
        rw [hseats,List.filter_eq_nil_iff]
        intro p hp
        simp [picked_of_ended hnow hr hrow_s hlive hover hp]
      have hended : endIf now (isFinished now s₂) row = endedRow now row := by
        unfold endIf
        rw [Table.key_of_get? hrow,hend,if_pos rfl]
      refine .inr ⟨hl,?_⟩
      rw [hget,hrow_s,hgone,Option.map_some,hended]
      exact .ended now (le_trans hover (le_trans hnow hr.now)) hlive
    · refine .inl ⟨?_,?_⟩
      · rw [hget]
        cases hrow : s.reservations.get? k with
        | none => rfl
        | some row => rw [Option.map_some,endIf,Table.key_of_get? hrow,if_neg hend]
      · rw [hseats,List.filter_eq_self]
        intro p hp
        by_contra hpicked
        rw [Bool.not_eq_true',Bool.not_eq_false] at hpicked
        exact hend (ended_of_picked hnow hr₁ hr (hseat _ hpicked).1 hp hpicked)
  · refine get?_cancelSeats_of_not ?_
    cases hpicked : picksSeat (isFinished now) s₁ k with
    | false => rfl
    | true => exact absurd (hseat k hpicked).2 hk

end Expiry

theorem safe_list (s : Store) : Safe discipline.toAgreement c (listReservations True) .empty s := by
  unfold listReservations listUpcoming
  simp only [Prog.bind_assoc]
  refine safe_clock (fun _ => rfl) fun s₁ _ _ => ?_
  unfold expireFinished releaseSeats endFinished
  simp only [Prog.bind_assoc,safe_execute,safe_choose]
  rintro s₂ hr₂ _ s₃ hr₃ _ s₄ hr₄ _ rs ⟨rows,_,rfl⟩ s₅ hr₅ _ _
  have hr : Rely _ s₂ s₅ :=
    hr₃.trans ((hr₄.trans hr₅).mono (K := ∅ ∪ {l | ∃ k, picksSeat (isFinished s₁.now) s₂ k = true ∧
      l = .participant k}) Set.subset_union_left)
  change Commit _ s₅ (.listed _) (endRows s₁.now (isFinished s₁.now s₃)
    (cancelSeats s₁.now (picksSeat (isFinished s₁.now) s₂) s₅))
  refine commit_listed hr₂.now hr₃ hr (hr₄.trans hr₅) (fun k hk => ⟨.inr ⟨k,hk,rfl⟩,.inl (.inr ⟨k,hk,rfl⟩)⟩)
    (fun k hk => .inr ⟨k,hk,rfl⟩) fun r hrs => ?_
  obtain ⟨row,_,rfl⟩ := List.mem_map.mp hrs
  exact counted_withParticipantCount

end Operations

/-! ## Every committed state -/

variable (fingerprint : String → CreateRequest → String)

theorem consistent_initial {s : Store} (h : Initial s) : Consistent s := by
  obtain ⟨hr,hp,hk⟩ := h
  constructor
  · intro id row hrow
    rw [hr] at hrow
    cases hrow
  · intro id _
    simp [seats,hp,Table.empty]
  · intro o row hrow
    rw [hk] at hrow
    cases hrow

theorem discipline_sound : discipline.Sound (service True fingerprint) Initial where
  init h := consistent_initial h
  env := by
    rintro s _ hs ⟨now,hle,rfl⟩
    refine ⟨⟨hs.seatsOk,hs.orphan,hs.answered⟩,fun L => ?_⟩
    exact ⟨hle,fun h => h,fun _ h => h,fun _ => ⟨rfl,rfl⟩,fun _ => rfl,fun h _ => .inl ⟨h,rfl⟩,
      fun h _ => ⟨_,h,rfl⟩⟩
  body c s := by
    cases c with
    | create subject displayName key request => exact safe_create subject displayName key request s
    | update id subject patch => exact safe_update subject patch s
    | join id subject displayName ranks => exact safe_join subject displayName ranks s
    | cancelParticipation id subject => exact safe_leave subject s
    | cancel id subject => exact safe_cancel subject s
    | listReservations => exact safe_list s

abbrev Log := List (Request × Except ReservationError Answer)

/-- Every reservation an operation has answered counts the participants it lists. -/
def AnswersCounted (log : Log) : Prop := ∀ c a, (c,.ok a) ∈ log → ∀ r ∈ a.reservations, Counted r

theorem answersCounted {ok} {db : Store} {log : Log}
    (h : Atomic (service True fingerprint) ok discipline Initial db log) : AnswersCounted log := by
  induction h with
  | init _ => exact fun _ _ hmem => absurd hmem List.not_mem_nil
  | env _ _ _ ih => exact ih
  | commit _ _ _ hc ih =>
    intro c a hmem
    rcases List.mem_cons.mp hmem with heq | hold
    · cases heq
      exact hc.counted
    · exact ih c a hold
  | raise _ _ _ ih =>
    intro c a hmem
    rcases List.mem_cons.mp hmem with heq | hold
    · cases heq
    · exact ih c a hold

/-- At every committed state every reservation has its seats in order, and every answer
given so far counts the participants it lists. -/
structure StoreOk (s : State Store Lock Request ReservationError Answer) : Prop where
  length_le : ∀ row ∈ s.db.reservations.rows, (seats s.db row.id).length ≤ row.capacity
  vacant : ∀ row ∈ s.db.reservations.rows, row.status = .open_ → (seats s.db row.id).length < row.capacity
  full : ∀ row ∈ s.db.reservations.rows, row.status = .matched → (seats s.db row.id).length = row.capacity
  emptied : ∀ row ∈ s.db.reservations.rows, row.status = .cancelled ∨ row.status = .ended → seats s.db row.id = []
  distinct : ∀ row ∈ s.db.reservations.rows, ((seats s.db row.id).map (·.subject)).Nodup
  host : ∀ row ∈ s.db.reservations.rows, ∀ p ∈ seats s.db row.id, p.subject ≠ row.hostSubject
  counted : ∀ c a, (c,.ok a) ∈ s.log → ∀ r ∈ a.reservations, r.participantCount = r.participants.length

theorem reservations_storeOk {s : State Store Lock Request ReservationError Answer}
    (h : Reachable (service True fingerprint) (fun _ _ _ => True) Initial s) : StoreOk s := by
  obtain ⟨hatom,hcons,_⟩ := h.refines (discipline_sound fingerprint)
  have hok {row : ReservationRow} (hrow : row ∈ s.db.reservations.rows) : SeatsOk row (seats s.db row.id) :=
    hcons.seatsOk (Table.get?_of_mem hrow)
  constructor
  · exact fun row hrow => (hok hrow).length_le
  · exact fun row hrow => (hok hrow).vacant
  · exact fun row hrow => (hok hrow).full
  · intro row hrow hs
    refine (hok hrow).emptied ?_
    rcases hs with hs | hs <;> rw [hs]
    · exact not_live_cancelled
    · exact not_live_ended
  · exact fun row hrow => (hok hrow).distinct
  · exact fun row hrow => (hok hrow).host
  · exact answersCounted fingerprint hatom

def joinedByBob : Store :=
  insertSeat (newSeat 1 1 "bob" "Bob" [] 0) (modifyRow 1 (setStatus 0 (statusFor 1 1)) (setStatus_id 0 _) opened)

theorem reservations_storeOk_joinedByBob : StoreOk ⟨joinedByBob,fun _ => none,
    (.join 1 "bob" "Bob" [],.ok (.joined (withParticipantCount joinedByBob (setStatus 0 (statusFor 1 1) noonRow)))) ::
      openedLog⟩ :=
  reservations_storeOk digest ((reachable_opened True).call (fun _ => rfl) (c := .join 1 "bob" "Bob" [])
    (runs_join True 0 rfl opened_row (by decide) rfl (by decide) rfl rfl) fun _ _ => trivial)

end Tag2now.Reservations
