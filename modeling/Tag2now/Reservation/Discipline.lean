import Tag2now.Reservation.Moves
import Tag2now.Reservation.Writes

/-! # What a reservation transaction may count on

The discipline of the reservation service. The holder of a reservation's lock counts
on its row and its seats; everybody counts on an overdue reservation, which nobody
changes any more but to end it. A commit moves each reservation by one move of the
machine, and under its lock.
-/
namespace Tag2now.Reservations
open ReadCommitted Idempotency

structure Consistent (db : Store) : Prop where
  seatsOk : ∀ {id row}, db.reservations.get? id = some row → SeatsOk row (seats db id)
  orphan : ∀ {id}, db.reservations.get? id = none → seats db id = []
  answered : ∀ {o row}, db.keys.get? o = some row → ∃ response, row.response = some response ∧ Counted response

structure Rely (L : Set Lock) (s t : Store) : Prop where
  now : s.now ≤ t.now
  kept : ∀ {o row}, s.keys.get? o = some row → t.keys.get? o = some row
  absent : ∀ {o}, Lock.key o ∈ L → s.keys.get? o = none → t.keys.get? o = none
  held : ∀ {id}, Lock.reservation id ∈ L →
    t.reservations.get? id = s.reservations.get? id ∧ seats t id = seats s id
  seat : ∀ {id}, Lock.participant id ∈ L → t.participants.get? id = s.participants.get? id
  past : ∀ {id row}, s.reservations.get? id = some row → Overdue s.now row →
    (t.reservations.get? id = some row ∧ seats t id = seats s id) ∨
    (seats t id = [] ∧ ∃ row', t.reservations.get? id = some row' ∧ row'.startAt = row.startAt ∧
      ¬ Live row'.status)
  found : ∀ {id row'}, t.reservations.get? id = some row' → Overdue s.now row' →
    ∃ row, s.reservations.get? id = some row ∧ row.startAt = row'.startAt

theorem Rely.refl (L : Set Lock) (s : Store) : Rely L s s :=
  ⟨le_rfl,fun h => h,fun _ h => h,fun _ => ⟨rfl,rfl⟩,fun _ => rfl,fun h _ => .inl ⟨h,rfl⟩,
    fun h _ => ⟨_,h,rfl⟩⟩

theorem Rely.trans {L : Set Lock} {s t u : Store} (h : Rely L s t) (k : Rely L t u) : Rely L s u := by
  refine ⟨h.now.trans k.now,fun hr => k.kept (h.kept hr),fun hl ha => k.absent hl (h.absent hl ha),
    fun hl => ⟨(k.held hl).1.trans (h.held hl).1,(k.held hl).2.trans (h.held hl).2⟩,
    fun hl => (k.seat hl).trans (h.seat hl),fun {id row} hrow hover => ?_,fun {id row} hrow hover => ?_⟩
  · rcases h.past hrow hover with ⟨hrow',hseats⟩ | ⟨hseats,row',hrow',hstart,hlive⟩
    · rcases k.past hrow' (le_trans hover h.now) with ⟨hrow'',hseats'⟩ | hend
      · exact .inl ⟨hrow'',hseats'.trans hseats⟩
      · exact .inr hend
    · have hover' : Overdue t.now row' := by
        rw [Overdue,hstart]
        exact le_trans hover h.now
      rcases k.past hrow' hover' with ⟨hrow'',hseats'⟩ | ⟨hseats',row'',hrow'',hstart',hlive'⟩
      · exact .inr ⟨hseats'.trans hseats,row',hrow'',hstart,hlive⟩
      · exact .inr ⟨hseats',row'',hrow'',hstart'.trans hstart,hlive'⟩
  · obtain ⟨row',hrow',hstart⟩ := k.found hrow (le_trans hover h.now)
    obtain ⟨row'',hrow'',hstart'⟩ := h.found hrow' (by rw [Overdue,hstart]; exact hover)
    exact ⟨row'',hrow'',hstart'.trans hstart⟩

theorem Rely.mono {K L : Set Lock} {s t : Store} (hsub : K ⊆ L) (h : Rely L s t) : Rely K s t :=
  ⟨h.now,h.kept,fun hl => h.absent (hsub hl),fun hl => h.held (hsub hl),fun hl => h.seat (hsub hl),
    h.past,h.found⟩

/-- What a commit does to the reservations and their seats. -/
structure Effect (L : Set Lock) (s t : Store) : Prop where
  now : t.now = s.now
  moved : ∀ id, (t.reservations.get? id = s.reservations.get? id ∧ seats t id = seats s id) ∨
    (Lock.reservation id ∈ L ∧
      Move s.now (s.reservations.get? id) (seats s id) (t.reservations.get? id) (seats t id))
  seat : ∀ {id}, Lock.participant id ∉ L → t.participants.get? id = s.participants.get? id

theorem Effect.refl (L : Set Lock) (s : Store) : Effect L s s :=
  ⟨rfl,fun _ => .inl ⟨rfl,rfl⟩,fun _ => rfl⟩

/-- The effect of an operation, seen from the database it committed on. -/
structure Commit (L : Set Lock) (s : Store) (a : Answer) (t : Store) : Prop where
  effect : Effect L s t
  keys : ∀ o, t.keys.get? o = s.keys.get? o ∨ (s.keys.get? o = none ∧ Lock.key o ∈ L ∧
    ∃ row response, t.keys.get? o = some row ∧ row.response = some response ∧ Counted response)
  counted : ∀ r ∈ a.reservations, Counted r

theorem Move.isSome {time : ℤ} {row? row'? : Option ReservationRow} {taken taken' : List ParticipantRow}
    (h : Move time row? taken row'? taken') : row'? ≠ none := by
  cases h <;> simp

theorem Effect.consistent {L : Set Lock} {s t : Store} (h : Effect L s t) (hs : Consistent s) {id : ℕ} :
    (∀ row, t.reservations.get? id = some row → SeatsOk row (seats t id)) ∧
      (t.reservations.get? id = none → seats t id = []) := by
  rcases h.moved id with ⟨hrow,hseats⟩ | ⟨_,hmove⟩
  · rw [hrow,hseats]
    exact ⟨fun _ => hs.seatsOk,hs.orphan⟩
  · exact ⟨hmove.seatsOk fun _ => hs.seatsOk,fun hnone => absurd hnone hmove.isSome⟩

theorem Commit.consistent {L : Set Lock} {s t : Store} {a : Answer} (h : Commit L s a t) (hs : Consistent s) :
    Consistent t := by
  refine ⟨(h.effect.consistent hs).1 _,(h.effect.consistent hs).2,fun {o row} hrow => ?_⟩
  rcases h.keys o with hsame | ⟨_,_,row',response,hrow',hresponse⟩
  · exact hs.answered (hsame ▸ hrow)
  · rw [hrow] at hrow'
    cases hrow'
    exact ⟨response,hresponse⟩

theorem Effect.held {K L : Set Lock} {s t : Store} (h : Effect L s t) (hdisj : Disjoint K L) {id : ℕ}
    (hl : Lock.reservation id ∈ K) :
    t.reservations.get? id = s.reservations.get? id ∧ seats t id = seats s id := by
  rcases h.moved id with hsame | ⟨hlock,_⟩
  · exact hsame
  · exact absurd hlock (Set.disjoint_left.mp hdisj hl)

theorem Effect.past {L : Set Lock} {s t : Store} (h : Effect L s t) {id : ℕ} {row : ReservationRow}
    (hrow : s.reservations.get? id = some row) (hover : Overdue s.now row) :
    (t.reservations.get? id = some row ∧ seats t id = seats s id) ∨
    (seats t id = [] ∧ ∃ row', t.reservations.get? id = some row' ∧ row'.startAt = row.startAt ∧
      ¬ Live row'.status) := by
  rcases h.moved id with ⟨hsame,hseats⟩ | ⟨_,hmove⟩
  · exact .inl ⟨hsame.trans hrow,hseats⟩
  · rw [hrow] at hmove
    exact .inr (hmove.overdue le_rfl hover)

theorem Effect.found {L : Set Lock} {s t : Store} (h : Effect L s t) {id : ℕ} {row' : ReservationRow}
    (hrow' : t.reservations.get? id = some row') (hover : Overdue s.now row') :
    ∃ row, s.reservations.get? id = some row ∧ row.startAt = row'.startAt := by
  rcases h.moved id with ⟨hsame,_⟩ | ⟨_,hmove⟩
  · exact ⟨row',hsame ▸ hrow',rfl⟩
  · rw [hrow'] at hmove
    exact hmove.found_overdue le_rfl hover

theorem Commit.rely {K L : Set Lock} {s t : Store} {a : Answer} (h : Commit L s a t)
    (hdisj : Disjoint K L) : Rely K s t where
  now := h.effect.now.ge
  kept {o _} hrow := Idempotency.writtenOnce_kept (h.keys o) hrow
  absent {o} hl hnone := Idempotency.writtenOnce_absent (h.keys o) (Set.disjoint_left.mp hdisj hl) hnone
  held := h.effect.held hdisj
  seat hl := h.effect.seat (Set.disjoint_left.mp hdisj hl)
  past := h.effect.past
  found := h.effect.found

def discipline : Discipline Store Lock Request ReservationError Answer where
  Inv := Consistent
  Rely := Rely
  Commit _ a L s t := Commit L s a t
  Fail _ _ _ := True
  rely_refl := Rely.refl
  rely_trans := Rely.trans
  rely_mono := Rely.mono
  inv_commit hs h := h.consistent hs
  rely_commit _ h hdisj := h.rely hdisj

theorem respects : Respects keyStore discipline.toAgreement where
  kept h := h.kept
  absent hl h := h.absent hl
  answered hi hrow := by
    obtain ⟨response,hresponse,_⟩ := hi.answered hrow
    exact ⟨response,hresponse⟩

end Tag2now.Reservations
