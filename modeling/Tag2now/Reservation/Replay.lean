import Tag2now.Reservation.Alone
import Tag2now.Reservation.Edits

/-! # Retrying a creation

A creation reads the clock and checks its start before it asks for its key. A retry
therefore gets the stored answer just when the requested time of day still names an
instant of the window at the moment of the retry.
-/
namespace Tag2now.Reservations
open ReadCommitted Idempotency

variable {punctual : Prop} {fingerprint : String → CreateRequest → String}
  {subject displayName displayName' key : String} {request : CreateRequest} {once once' : Once Reservation}

/-- A creation that has answered has left its key, with that answer in it. -/
theorem stored_of_atomic {ok} {db : Store} {log : List (Request × Except ReservationError Answer)}
    (h : Atomic (service punctual fingerprint) ok (edits fingerprint) Initial db log)
    (hlog : (.create subject displayName key request,.ok (.created once)) ∈ log) :
    db.keys.get? (subject,key) = some (keyRow fingerprint subject key request once.answer) ∧
      ensureConditionsValid request.matchType request.ranks request.capacity = .ok () := by
  induction h with
  | init _ => cases hlog
  | env _ _ henv ih =>
    obtain ⟨now,_,rfl⟩ := henv
    exact ih hlog
  | @commit s t log c a L _ _ _ hc ih =>
    rcases List.mem_cons.mp hlog with heq | hold
    · cases heq
      cases hc with
      | replayed hvalid hkey => exact ⟨hkey,hvalid⟩
      | created hvalid hnone _ _ _ => exact ⟨(keys_afterCreate _ _ _ _ _ hnone _).trans (if_pos rfl),hvalid⟩
      | light hc _ => exact hc.elim
    · have hkept : Kept ∅ s t := Edit.kept hc (Set.empty_disjoint L)
      exact ⟨hkept.key (ih hold).1,(ih hold).2⟩
  | raise _ _ _ ih =>
    rcases List.mem_cons.mp hlog with heq | hold
    · cases heq
    · exact ih hold

variable {s : State Store Lock Request ReservationError Answer}

/-- In any interleaving, the calls that do answer one key and request give one answer. -/
theorem create_same_answer
    (h : Reachable (service punctual fingerprint) (fun _ _ _ => True) Initial s)
    (hlog : (.create subject displayName key request,.ok (.created once)) ∈ s.log)
    (hlog' : (.create subject displayName' key request,.ok (.created once')) ∈ s.log) :
    once.answer = once'.answer := by
  have hatom := (h.refines (edits_sound fingerprint punctual)).1
  have hkey := (stored_of_atomic hatom hlog).1
  rw [(stored_of_atomic hatom hlog').1] at hkey
  simpa [keyRow] using hkey.symm

variable (punctual fingerprint subject displayName key request) in
/-- The call ends, in the stored answer, and writes nothing. -/
def Replays (answer : Reservation) (db : Store) : Prop :=
  (∃ out t, Runs (createReservation punctual fingerprint subject displayName key request) db out t) ∧
  ∀ out t, Runs (createReservation punctual fingerprint subject displayName key request) db out t →
    out = .ok (.created ⟨answer,false⟩) ∧ t = db

theorem replays_iff_startAtFrom {answer : Reservation} {db : Store}
    (hkey : db.keys.get? (subject,key) = some (keyRow fingerprint subject key request answer))
    (hvalid : ensureConditionsValid request.matchType request.ranks request.capacity = .ok ()) :
    Replays punctual fingerprint subject displayName key request answer db ↔
      ∃ x, startAtFrom request.startTime db.now = .ok x := by
  unfold Replays
  simp only [runs_create_stored punctual fingerprint hkey,hvalid]
  cases hstart : startAtFrom request.startTime db.now with
  | error e =>
    simp only [reduceCtorEq,exists_false,iff_false,not_and]
    intro _ hall
    cases (hall _ db ⟨rfl,rfl⟩).1
  | ok x =>
    refine iff_of_true ⟨⟨_,db,rfl,rfl⟩,?_⟩ ⟨x,rfl⟩
    rintro out t ⟨rfl,rfl⟩
    exact ⟨rfl,rfl⟩

/-- Whatever has happened since, the retry replays just when its time of day still names an
instant from ten minutes from now up to the next dawn. -/
theorem create_replays_iff (h : Reachable (service punctual fingerprint) (fun _ _ _ => True) Initial s)
    (hfirst : (.create subject displayName key request,.ok (.created once)) ∈ s.log) (displayName' : String) :
    Replays punctual fingerprint subject displayName' key request once.answer s.db ↔
      ∃ x, seoulTime x = request.startTime.micros ∧ s.db.now + leadTime ≤ x ∧ x < windowEnd s.db.now := by
  have hatom := (h.refines (edits_sound fingerprint punctual)).1
  obtain ⟨hkey,hvalid⟩ := stored_of_atomic hatom hfirst
  simp only [replays_iff_startAtFrom hkey hvalid,startAtFrom_ok_iff]

/-- Retried at once, the first reservation replays. -/
theorem create_replays_iff_opened :
    Replays True digest "alice" "Alice" "k" anyAtNoon (reservation noonRow 0 []) opened ↔
      ∃ x, seoulTime x = noon.micros ∧ opened.now + leadTime ≤ x ∧ x < windowEnd opened.now :=
  create_replays_iff (s := ⟨opened,fun _ => none,openedLog⟩) (reachable_opened True) (List.mem_singleton.mpr rfl)
    "Alice"

/-- Retried five minutes before noon, it is refused. -/
theorem create_refused : ¬ ∀ (s : State Store Lock Request ReservationError Answer) (once : Once Reservation),
    Reachable (service True digest) (fun _ _ _ => True) Initial s →
    (.create "alice" "Alice" "k" anyAtNoon,.ok (.created once)) ∈ s.log →
    Replays True digest "alice" "Alice" "k" anyAtNoon once.answer s.db := by
  intro h
  have hlate : Reachable (service True digest) (fun _ _ _ => True) Initial
      ⟨{ opened with now := 3 * hour - 5 * minute },fun _ => none,openedLog⟩ :=
    (reachable_opened True).environment _ ⟨_,by decide,rfl⟩
  have hreplays := h _ ⟨reservation noonRow 0 [],true⟩ hlate (List.mem_singleton.mpr rfl)
  have hatom := (hlate.refines (edits_sound digest True)).1
  obtain ⟨hkey,hvalid⟩ := stored_of_atomic hatom (List.mem_singleton.mpr rfl)
  obtain ⟨x,hx⟩ := (replays_iff_startAtFrom hkey hvalid).mp hreplays
  have herror : startAtFrom noon (3 * hour - 5 * minute) =
      .error (.state "지금부터 10분 이후 시각으로 예약할 수 있습니다.") := by decide
  cases herror.symm.trans hx

end Tag2now.Reservations
