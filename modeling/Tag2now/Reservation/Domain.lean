import Tag2now.Idempotency.Store
import Tag2now.Shared.Basics

/-! # Reservation types and rules

The statuses, the listing window and the checks of each operation, with the texts
they raise. A day of play ends at 06:00 in Seoul, and a reservation is over an hour
after it starts.
-/
namespace Tag2now.Reservations
open Idempotency

inductive MatchType
  | rank
  | player
  | any
  deriving DecidableEq

inductive ReservationStatus
  | open_
  | matched
  | cancelled
  | ended
  deriving DecidableEq

inductive ReservationError
  | notFound (detail : String)
  | access (detail : String)
  | state (detail : String)
  | key (e : KeyError)
  /-- `one()` of a result that has no row. -/
  | noResult
  deriving DecidableEq

abbrev Check := Except ReservationError

structure ParticipantSummary where
  id : ℕ
  displayName : String
  username : Option String
  deriving DecidableEq

/-- A reservation as every operation answers it. -/
structure Reservation where
  id : ℕ
  startAt : ℤ
  hostDisplayName : String
  hostRanks : List String
  matchType : MatchType
  capacity : ℕ
  memo : String
  status : ReservationStatus
  participantCount : ℕ
  createdAt : ℤ
  participants : List ParticipantSummary
  hostUsername : Option String
  deriving DecidableEq

structure Participant where
  id : ℕ
  reservationId : ℕ
  displayName : String
  ranks : List String
  joinedAt : ℤ
  deriving DecidableEq

/-- One of `LIVE_STATUSES`. -/
def Live (status : ReservationStatus) : Prop := status = .open_ ∨ status = .matched

instance (status : ReservationStatus) : Decidable (Live status) := inferInstanceAs (Decidable (_ ∨ _))

def leadTime : ℤ := 10 * minute
def dayEndHour : ℤ := 6
def listingGrace : ℤ := hour

theorem le_grace (now : ℤ) : now ≤ now + listingGrace := by
  have hpos : 0 ≤ listingGrace := by decide
  omega

/-- The next 06:00 in Seoul: today's if dawn has not come yet, tomorrow's otherwise. -/
def windowEnd (now : ℤ) : ℤ :=
  let endAt := seoulMidnight now + dayEndHour * hour
  if endAt ≤ now then endAt + day else endAt

/-- Resolve a wall-clock time in Seoul to the next instant it denotes. -/
def startAtFrom (startTime : TimeOfDay) (now : ℤ) : Check ℤ :=
  let today := seoulMidnight now + startTime.micros
  let startAt := if today < now then today + day else today
  if startAt < now + leadTime then .error (.state "지금부터 10분 이후 시각으로 예약할 수 있습니다.")
  else if windowEnd now ≤ startAt then
    .error (.state "지금부터 다음 날 오전 6시 사이의 시각만 예약할 수 있습니다.")
  else .ok startAt

/-- Rank matches are one-on-one and rank-scoped; player matches are neither. -/
def ensureConditionsValid (matchType : MatchType) (ranks : List String) (capacity : ℕ) : Check Unit :=
  match matchType with
  | .rank =>
    if ranks = [] then .error (.state "랭크매치는 보유 계급을 하나 이상 선택해야 합니다.")
    else if capacity ≠ 1 then .error (.state "랭크매치는 1명만 모집할 수 있습니다.")
    else .ok ()
  | .player => if ranks = [] then .ok () else .error (.state "플레이어 매치는 계급을 선택하지 않습니다.")
  | .any => .ok ()

/-- A live reservation is matched once its participants fill the capacity. -/
def statusFor (participantCount capacity : ℕ) : ReservationStatus :=
  if capacity ≤ participantCount then .matched else .open_

def ensureJoinableBy (hostSubject : Option String) (subject : String) (alreadyJoined : Bool) : Check Unit :=
  if hostSubject = some subject then .error (.state "내가 만든 예약에는 참가할 수 없습니다.")
  else if alreadyJoined then .error (.state "이미 참가한 예약입니다.")
  else .ok ()

def ensureJoinable (status : ReservationStatus) (startAt : ℤ) (participantCount capacity : ℕ)
    (now : ℤ) : Check Unit :=
  if status ≠ .open_ ∨ startAt ≤ now then .error (.state "지금은 참가할 수 없는 예약입니다.")
  else if capacity ≤ participantCount then .error (.state "모집이 완료된 예약입니다.")
  else .ok ()

/-- A row from before login has no host, and None equals no one. -/
def ensureEditedByHost (hostSubject : Option String) (subject : String) : Check Unit :=
  if hostSubject ≠ some subject then .error (.access "예약한 사람만 수정할 수 있습니다.") else .ok ()

/-- A reservation may be edited only while nobody is committed to it. -/
def ensureEditable (status : ReservationStatus) (startAt : ℤ) (participantCount : ℕ)
    (now : ℤ) : Check Unit :=
  if ¬ Live status then .error (.state "이미 취소되었거나 종료된 예약입니다.")
  else if startAt ≤ now then .error (.state "이미 시작된 예약은 변경할 수 없습니다.")
  else if 0 < participantCount then
    .error (.state "참가자가 있는 예약은 수정할 수 없습니다. 삭제 후 다시 등록해 주세요.")
  else .ok ()

/-- Anything but a cancelled reservation can be talked about. -/
def ensureCommentable (status : ReservationStatus) : Check Unit :=
  if status = .cancelled then .error (.state "취소된 예약에는 댓글을 쓸 수 없습니다.") else .ok ()

/-- Its author, or any admin. -/
def ensureCommentDeletableBy (authorSubject : Option String) (subject : String) (admin : Bool) : Check Unit :=
  if authorSubject ≠ some subject ∧ admin = false then .error (.access "작성한 사람만 삭제할 수 있습니다.") else .ok ()

def ensureParticipationCancellable (status : ReservationStatus) (startAt now : ℤ)
    (participating : Bool) : Check Unit :=
  if ¬ Live status then .error (.state "이미 취소되었거나 종료된 예약입니다.")
  else if startAt ≤ now then .error (.state "이미 시작된 예약은 변경할 수 없습니다.")
  else if ¬ participating then .error (.access "참가 중인 예약이 아닙니다.")
  else .ok ()

/-- Only the host, and only before the start. -/
def ensureCancellable (hostSubject : Option String) (subject : String) (status : ReservationStatus)
    (startAt now : ℤ) : Check Unit :=
  if hostSubject ≠ some subject then .error (.access "예약한 사람만 취소할 수 있습니다.")
  else if ¬ Live status ∨ startAt ≤ now then
    .error (.access "이미 시작했거나 끝난 예약은 취소할 수 없습니다.")
  else .ok ()

/-! ## What a passed check says -/

/-- The next instant with this wall-clock time, today in Seoul or tomorrow. -/
def nextAt (t : TimeOfDay) (now : ℤ) : ℤ :=
  let today := seoulMidnight now + t.micros
  if today < now then today + day else today

theorem startAtFrom_eq (t : TimeOfDay) (now : ℤ) : startAtFrom t now =
    if nextAt t now < now + leadTime then
      .error (.state "지금부터 10분 이후 시각으로 예약할 수 있습니다.")
    else if windowEnd now ≤ nextAt t now then
      .error (.state "지금부터 다음 날 오전 6시 사이의 시각만 예약할 수 있습니다.")
    else .ok (nextAt t now) := rfl

theorem windowEnd_le (now : ℤ) : windowEnd now ≤ now + day := by
  simp only [windowEnd]
  split <;> simp only [seoulMidnight,seoulOffset,dayEndHour,day,hour,minute,second] at * <;> omega

/-- The next instant is the one within a day from now that shows the time. -/
theorem nextAt_eq_iff (t : TimeOfDay) {now x : ℤ} (hlow : now ≤ x) (hhigh : x < now + day) :
    nextAt t now = x ↔ seoulTime x = t.micros := by
  have hnonneg := t.nonneg
  have hlt := t.lt_day
  simp only [nextAt]
  split <;> simp only [seoulTime,seoulMidnight,seoulOffset,day,hour,minute,second] at * <;> omega

/-- The accepted start is the one instant that shows the time within the window. -/
theorem startAtFrom_ok_iff {t : TimeOfDay} {now x : ℤ} : startAtFrom t now = .ok x ↔
    seoulTime x = t.micros ∧ now + leadTime ≤ x ∧ x < windowEnd now := by
  have hlead : 0 < leadTime := by decide
  have hend := windowEnd_le now
  rw [startAtFrom_eq]
  constructor
  · intro h
    split at h
    · cases h
    · split at h
      · cases h
      · cases h
        exact ⟨(nextAt_eq_iff t (by omega) (by omega)).mp rfl,by omega,by omega⟩
  · rintro ⟨htime,hlow,hhigh⟩
    rw [(nextAt_eq_iff t (by omega) (by omega)).mpr htime,if_neg (by omega),if_neg (by omega)]

/-- The instants a host may mean by a time of day. -/
def Denotes (t : TimeOfDay) (now x : ℤ) : Prop := seoulTime x = t.micros ∧ now + leadTime ≤ x ∧ x < windowEnd now

/-- There is one at most, and a request is turned down just where there is none. -/
theorem startAtFrom_resolves (t : TimeOfDay) (now : ℤ) :
    (∀ x, startAtFrom t now = .ok x ↔ Denotes t now x ∧ ∀ y, Denotes t now y → y = x) ∧
      ((∃ detail, startAtFrom t now = .error (.state detail)) ↔ ¬ ∃ x, Denotes t now x) := by
  constructor
  · intro x
    constructor
    · intro h
      refine ⟨startAtFrom_ok_iff.mp h,?_⟩
      intro y hy
      have hsame := (startAtFrom_ok_iff.mpr hy).symm.trans h
      exact Except.ok.inj hsame
    · exact fun h => startAtFrom_ok_iff.mpr h.1
  · constructor
    · rintro ⟨detail,hrefused⟩ ⟨x,hx⟩
      rw [startAtFrom_ok_iff.mpr hx] at hrefused
      cases hrefused
    · intro hnone
      have hnot : ∀ x, startAtFrom t now ≠ .ok x := fun x h => hnone ⟨x,startAtFrom_ok_iff.mp h⟩
      rw [startAtFrom_eq] at hnot ⊢
      by_cases hlead : nextAt t now < now + leadTime
      · exact ⟨_,if_pos hlead⟩
      · rw [if_neg hlead] at hnot ⊢
        by_cases hend : windowEnd now ≤ nextAt t now
        · exact ⟨_,if_pos hend⟩
        · rw [if_neg hend] at hnot
          exact absurd rfl (hnot _)

theorem leadTime_le_of_startAtFrom {t : TimeOfDay} {now x : ℤ} (h : startAtFrom t now = .ok x) :
    now + leadTime ≤ x := (startAtFrom_ok_iff.mp h).2.1

theorem ensureConditionsValid_ok {matchType : MatchType} {ranks : List String} {capacity : ℕ} :
    ensureConditionsValid matchType ranks capacity = .ok () ↔
      (matchType = .rank → ranks ≠ [] ∧ capacity = 1) ∧ (matchType = .player → ranks = []) := by
  cases matchType with
  | rank =>
    simp only [ensureConditionsValid]
    split
    · simp [*]
    · split <;> simp_all
  | player =>
    simp only [ensureConditionsValid]
    split <;> simp [*]
  | any => simp [ensureConditionsValid]

theorem ensureJoinableBy_ok {hostSubject : Option String} {subject : String} {alreadyJoined : Bool}
    {u : Unit} : ensureJoinableBy hostSubject subject alreadyJoined = .ok u ↔
      hostSubject ≠ some subject ∧ alreadyJoined = false := by
  simp only [ensureJoinableBy]
  split
  · simp [*]
  · split <;> simp [*]

theorem ensureJoinable_ok {status : ReservationStatus} {startAt now : ℤ} {count capacity : ℕ}
    {u : Unit} : ensureJoinable status startAt count capacity now = .ok u ↔
      status = .open_ ∧ now < startAt ∧ count < capacity := by
  simp only [ensureJoinable]
  split
  · rename_i h
    simp only [reduceCtorEq,false_iff]
    rintro ⟨hs,hn,_⟩
    exact h.elim (fun h => h hs) (fun h => absurd hn (not_lt.mpr h))
  · rename_i h
    rw [not_or,not_not,not_le] at h
    split
    · simp only [reduceCtorEq,false_iff]
      omega
    · simp only [true_iff]
      exact ⟨h.1,h.2,by omega⟩

theorem ensureEditedByHost_ok {hostSubject : Option String} {subject : String} {u : Unit} :
    ensureEditedByHost hostSubject subject = .ok u ↔ hostSubject = some subject := by
  simp only [ensureEditedByHost]
  split <;> simp_all

theorem ensureEditable_ok {status : ReservationStatus} {startAt now : ℤ} {count : ℕ} {u : Unit} :
    ensureEditable status startAt count now = .ok u ↔ Live status ∧ now < startAt ∧ count = 0 := by
  simp only [ensureEditable]
  split
  · simp [*]
  · split
    · simp only [reduceCtorEq,false_iff]
      rintro ⟨_,hn,_⟩
      omega
    · split
      · simp only [reduceCtorEq,false_iff]
        rintro ⟨_,_,hc⟩
        omega
      · simp only [true_iff]
        exact ⟨not_not.mp (by assumption),by omega,by omega⟩

theorem ensureCommentable_ok {status : ReservationStatus} {u : Unit} :
    ensureCommentable status = .ok u ↔ status ≠ .cancelled := by
  simp only [ensureCommentable]
  split <;> simp [*]

theorem ensureParticipationCancellable_ok {status : ReservationStatus} {startAt now : ℤ}
    {participating : Bool} {u : Unit} :
    ensureParticipationCancellable status startAt now participating = .ok u ↔
      Live status ∧ now < startAt ∧ participating = true := by
  simp only [ensureParticipationCancellable]
  split
  · simp [*]
  · split
    · simp only [reduceCtorEq,false_iff]
      rintro ⟨_,hn,_⟩
      omega
    · rename_i hl hn
      split
      · simp [*]
      · rename_i hp
        simp only [true_iff]
        exact ⟨not_not.mp hl,by omega,not_not.mp hp⟩

theorem ensureCancellable_ok {hostSubject : Option String} {subject : String}
    {status : ReservationStatus} {startAt now : ℤ} {u : Unit} :
    ensureCancellable hostSubject subject status startAt now = .ok u ↔
      hostSubject = some subject ∧ Live status ∧ now < startAt := by
  simp only [ensureCancellable]
  split
  · simp [*]
  · split
    · rename_i h
      simp only [reduceCtorEq,false_iff]
      rintro ⟨_,hl,hn⟩
      exact h.elim (fun h => h hl) (fun h => absurd hn (not_lt.mpr h))
    · rename_i h₁ h₂
      rw [not_or,not_not,not_le] at h₂
      simp only [true_iff]
      exact ⟨not_not.mp h₁,h₂⟩

end Tag2now.Reservations
