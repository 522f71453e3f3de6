import Tag2now.Reservation.Service

/-! # One reservation as a machine

What a committed operation may do to a single reservation and its seats, apart from
how the statements get there: six moves, and the invariant that ties the status, the
capacity and the seats together. No move but the end touches a reservation that is
overdue, which is what an expiry running beside the others rests on.
-/
namespace Tag2now.Reservations
open ReadCommitted

/-- The relation between a reservation and its active participants. -/
structure SeatsOk (row : ReservationRow) (taken : List ParticipantRow) : Prop where
  capacity : 1 ≤ row.capacity
  vacant : row.status = .open_ → taken.length < row.capacity
  full : row.status = .matched → taken.length = row.capacity
  emptied : ¬ Live row.status → taken = []
  distinct : (taken.map (·.subject)).Nodup
  host : ∀ p ∈ taken, p.subject ≠ row.hostSubject

theorem SeatsOk.length_le {row : ReservationRow} {taken : List ParticipantRow} (h : SeatsOk row taken) :
    taken.length ≤ row.capacity := by
  by_cases hlive : Live row.status
  · rcases hlive with hs | hs
    · exact (h.vacant hs).le
    · exact (h.full hs).le
  · rw [h.emptied hlive]
    exact Nat.zero_le _

/-- The hour after the start has run out. -/
def Overdue (time : ℤ) (row : ReservationRow) : Prop := row.startAt + listingGrace ≤ time

/-- What one committed operation does to one reservation, at `time`. -/
inductive Move (time : ℤ) : Option ReservationRow → List ParticipantRow →
    Option ReservationRow → List ParticipantRow → Prop
  | created {row : ReservationRow} : row.status = .open_ → 1 ≤ row.capacity → ¬ Overdue time row →
      Move time none [] (some row) []
  | updated {row row' : ReservationRow} : ¬ Overdue time row → Live row.status →
      row'.status = row.status → row'.hostSubject = row.hostSubject → 1 ≤ row'.capacity →
      ¬ Overdue time row' → Move time (some row) [] (some row') []
  | joined {row : ReservationRow} {taken : List ParticipantRow} {p : ParticipantRow} (now : ℤ) :
      ¬ Overdue time row → row.status = .open_ → taken.length < row.capacity →
      (∀ q ∈ taken, q.subject ≠ p.subject) → p.subject ≠ row.hostSubject →
      Move time (some row) taken (some (setStatus now (statusFor (taken.length + 1) row.capacity) row))
        (taken ++ [p])
  | left {row : ReservationRow} {taken rest : List ParticipantRow} (now : ℤ) :
      ¬ Overdue time row → Live row.status → rest.Sublist taken → rest.length < taken.length →
      Move time (some row) taken (some (setStatus now (statusFor rest.length row.capacity) row)) rest
  | cancelled {row : ReservationRow} {taken : List ParticipantRow} (now : ℤ) :
      ¬ Overdue time row → Live row.status →
      Move time (some row) taken (some (cancelledRow now row)) []
  | ended {row : ReservationRow} {taken : List ParticipantRow} (now : ℤ) :
      Overdue time row → Live row.status →
      Move time (some row) taken (some (endedRow now row)) []

theorem statusFor_vacant {count capacity : ℕ} : statusFor count capacity = .open_ ↔ count < capacity := by
  simp only [statusFor]
  split <;> simp <;> omega

theorem statusFor_full {count capacity : ℕ} : statusFor count capacity = .matched ↔ capacity ≤ count := by
  simp only [statusFor]
  split <;> simp <;> omega

theorem live_statusFor (count capacity : ℕ) : Live (statusFor count capacity) := by
  simp only [statusFor,Live]
  split <;> simp

theorem not_live_cancelled : ¬ Live .cancelled := by simp [Live]
theorem not_live_ended : ¬ Live .ended := by simp [Live]

theorem SeatsOk.empty {row : ReservationRow} (hcap : 1 ≤ row.capacity) (hs : row.status ≠ .matched) :
    SeatsOk row [] :=
  ⟨hcap,fun _ => hcap,fun h => absurd h hs,fun _ => rfl,List.nodup_nil,by simp⟩

/-- The step lemma of the machine: every move keeps the seats in order. -/
theorem Move.seatsOk {time : ℤ} {row? row'? : Option ReservationRow} {taken taken' : List ParticipantRow}
    (h : Move time row? taken row'? taken') (hs : ∀ row, row? = some row → SeatsOk row taken) :
    ∀ row', row'? = some row' → SeatsOk row' taken' := by
  intro new hnew
  cases h with
  | created hopen hcap _ =>
    cases hnew
    exact .empty hcap (by rw [hopen]; decide)
  | @updated row row' _ hlive hstatus _ hcap _ =>
    cases hnew
    have hok := hs row rfl
    refine .empty hcap fun hm => ?_
    have hfull := hok.full (hstatus ▸ hm)
    have hpos := hok.capacity
    simp at hfull
    omega
  | @joined row taken p now _ _ hlt hnew' hhost =>
    cases hnew
    have hok := hs row rfl
    refine ⟨hok.capacity,fun h => ?_,fun h => ?_,fun h => absurd (live_statusFor _ _) h,?_,?_⟩
    · have hlt := statusFor_vacant.mp h
      simpa [setStatus] using hlt
    · have hle := statusFor_full.mp h
      simp only [List.length_append,List.length_singleton,setStatus]
      omega
    · rw [List.map_append,List.nodup_append]
      refine ⟨hok.distinct,List.nodup_singleton _,?_⟩
      intro a ha b hb
      obtain ⟨q,hq,rfl⟩ := List.mem_map.mp ha
      rw [List.map_singleton,List.mem_singleton] at hb
      subst hb
      exact hnew' q hq
    · intro q hq
      rcases List.mem_append.mp hq with hq | hq
      · exact hok.host q hq
      · rw [List.mem_singleton.mp hq]
        exact hhost
  | @left row taken rest now _ _ hsub hlt =>
    cases hnew
    have hok := hs row rfl
    have hle := hok.length_le
    refine ⟨hok.capacity,fun h => statusFor_vacant.mp h,fun h => ?_,fun h => absurd (live_statusFor _ _) h,
      hok.distinct.sublist (hsub.map _),fun p hp => hok.host p (hsub.subset hp)⟩
    have hge := statusFor_full.mp h
    omega
  | @cancelled row taken now _ _ =>
    cases hnew
    exact .empty (hs row rfl).capacity nofun
  | @ended row taken now _ _ =>
    cases hnew
    exact .empty (hs row rfl).capacity nofun

theorem Move.overdue {time earlier : ℤ} {row : ReservationRow} {row'? : Option ReservationRow}
    {taken taken' : List ParticipantRow} (h : Move time (some row) taken row'? taken')
    (hle : earlier ≤ time) (hover : Overdue earlier row) :
    taken' = [] ∧ ∃ row', row'? = some row' ∧ row'.startAt = row.startAt ∧ ¬ Live row'.status := by
  have hover : Overdue time row := le_trans hover hle
  cases h with
  | updated h => exact absurd hover h
  | joined _ h => exact absurd hover h
  | left _ h => exact absurd hover h
  | cancelled _ h => exact absurd hover h
  | ended now => exact ⟨rfl,_,rfl,rfl,not_live_ended⟩

/-- No move makes a reservation that is overdue already. -/
theorem Move.found_overdue {time earlier : ℤ} {row?: Option ReservationRow} {row' : ReservationRow}
    {taken taken' : List ParticipantRow} (h : Move time row? taken (some row') taken')
    (hle : earlier ≤ time) (hover : Overdue earlier row') :
    ∃ row, row? = some row ∧ row.startAt = row'.startAt := by
  have hover : Overdue time row' := le_trans hover hle
  cases h with
  | created _ _ h => exact absurd hover h
  | updated _ _ _ _ _ h => exact absurd hover h
  | joined _ _ => exact ⟨_,rfl,rfl⟩
  | left _ _ => exact ⟨_,rfl,rfl⟩
  | cancelled _ _ => exact ⟨_,rfl,rfl⟩
  | ended _ => exact ⟨_,rfl,rfl⟩

end Tag2now.Reservations
