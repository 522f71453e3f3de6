import Tag2now.Reservation.Alone
import Tag2now.Reservation.Edits

/-! # The conditions of a reservation

An edit is validated against a reservation read without its lock, and written to the row
as it is once locked. The conditions of every reservation stay valid in exactly the runs
in which every committed edit would have passed the same validation on the locked row.
-/
namespace Tag2now.Reservations
open ReadCommitted Idempotency

def ConditionsOk (db : Store) : Prop :=
  ∀ row ∈ db.reservations.rows, ensureConditionsValid row.matchType row.hostRanks row.capacity = .ok ()

/-- The validation of an edit, made on the row it finds when it holds the lock. -/
def ValidWhenLocked : Request → Answer → Store → Prop
  | .update id _ patch,_,db =>
    ∀ row, db.reservations.get? id = some row → patch.ensureValid (withParticipantCount db row) = .ok ()
  | _,_,_ => True

theorem conditionsOk_iff {db : Store} : ConditionsOk db ↔ ∀ id row, db.reservations.get? id = some row →
    ensureConditionsValid row.matchType row.hostRanks row.capacity = .ok () := by
  constructor
  · exact fun h id row hrow => h row (Table.mem_of_get? hrow)
  · exact fun h row hrow => h row.id row (Table.get?_of_mem hrow)

theorem valid_of_conditions {row row' : ReservationRow} (h : conditions row' = conditions row)
    (hvalid : ensureConditionsValid row.matchType row.hostRanks row.capacity = .ok ()) :
    ensureConditionsValid row'.matchType row'.hostRanks row'.capacity = .ok () := by
  simp only [conditions,Prod.mk.injEq] at h
  rw [h.1,h.2.1,h.2.2]
  exact hvalid

section Commits
variable {fingerprint : String → CreateRequest → String} {L : Set Lock} {s t : Store} {c : Request} {a : Answer}

/-- A commit from valid conditions leaves valid conditions just when an edit was valid on the locked row. -/
theorem Edit.conditionsOk_iff (h : Edit fingerprint L s c a t) (hs : ConditionsOk s) :
    ConditionsOk t ↔ ValidWhenLocked c a s := by
  cases h with
  | replayed => exact iff_of_true hs trivial
  | @created subject displayName key request x id createdAt hvalid _ _ hfree _ =>
    refine iff_of_true (Reservations.conditionsOk_iff.mpr fun k row hrow => ?_) trivial
    rw [get?_afterCreate _ _ _ _ hfree] at hrow
    split at hrow
    · cases hrow
      exact hvalid
    · exact Reservations.conditionsOk_iff.mp hs k row hrow
  | @updated id subject patch current result row startAt now hrow _ _ =>
    rw [Reservations.conditionsOk_iff]
    constructor
    · intro ht row' hrow'
      rw [hrow] at hrow'
      cases hrow'
      exact ht id _ ((get?_modifyRow _ (Changes.apply_id _ now)).trans (by rw [if_pos rfl,hrow]; rfl))
    · intro hvalid k row' hrow'
      rw [get?_modifyRow] at hrow'
      split at hrow'
      · subst k
        rw [hrow] at hrow'
        cases hrow'
        exact hvalid row hrow
      · exact Reservations.conditionsOk_iff.mp hs k row' hrow'
  | @light _ _ f hc hf =>
    refine iff_of_true (Reservations.conditionsOk_iff.mpr fun k row' hrow' => ?_) (by cases c <;> trivial)
    rcases hf.row s k with hsame | ⟨_,row,row'',hrow,hrow'',hcond⟩
    · exact Reservations.conditionsOk_iff.mp hs k row' (hsame ▸ hrow')
    · rw [hrow'] at hrow''
      cases hrow''
      exact valid_of_conditions hcond (Reservations.conditionsOk_iff.mp hs k row hrow)

/-- An edit that finds the conditions it was validated against is valid on the locked row. -/
theorem Edit.validWhenLocked {id : ℕ} {subject : String} {patch : UpdateRequest} {current result : Reservation}
    (h : Edit fingerprint L s (.update id subject patch) (.updated current result) t)
    (hsame : ∀ row, s.reservations.get? id = some row →
      conditions row = (current.matchType,current.hostRanks,current.capacity)) :
    ValidWhenLocked (.update id subject patch) (.updated current result) s := by
  cases h with
  | updated _ _ hvalid =>
    intro row hrow
    have hcond := hsame row hrow
    simp only [conditions,Prod.mk.injEq] at hcond
    simpa only [UpdateRequest.ensureValid,withParticipantCount,reservation,hcond.1,hcond.2.1,hcond.2.2] using hvalid
  | light hc => exact hc.elim

end Commits

variable (punctual : Prop) (fingerprint : String → CreateRequest → String)
  {s : State Store Lock Request ReservationError Answer}

theorem conditionsOk_of_atomic {db : Store} {log : List (Request × Except ReservationError Answer)}
    (h : Atomic (service punctual fingerprint) ValidWhenLocked (edits fingerprint) Initial db log) :
    ConditionsOk db := by
  induction h with
  | init h =>
    intro row hrow
    rw [h.1] at hrow
    cases hrow
  | env _ _ henv ih =>
    obtain ⟨now,_,rfl⟩ := henv
    exact ih
  | commit _ _ hok hc ih => exact (hc.conditionsOk_iff ih).mpr hok
  | raise _ _ _ ih => exact ih

/-- Where every edit is valid on the row it locks, the conditions of every reservation are valid
at every committed state; and the runs that keep them valid throughout are no others. -/
theorem conditions_valid :
    (Reachable (service punctual fingerprint) ValidWhenLocked Initial s → ConditionsOk s.db) ∧
    (Throughout (service punctual fingerprint) ConditionsOk Initial s ↔
      Reachable (service punctual fingerprint) ValidWhenLocked Initial s) := by
  have hsound := edits_sound fingerprint punctual
  have hvalid {s} (h : Reachable (service punctual fingerprint) ValidWhenLocked Initial s) : ConditionsOk s.db :=
    conditionsOk_of_atomic punctual fingerprint (h.refines hsound).1
  refine ⟨hvalid,fun h => ?_,fun h => ?_⟩
  · induction h with
    | init h _ => exact .init h
    | step _ hstep hs' ih =>
      refine ih.step (hstep.restrict fun t c r a ht hp hdue hdb => ?_)
      have hc : Edit _ _ _ _ _ _ := ih.commits hsound ht hp hdue
      exact (hc.conditionsOk_iff (hvalid ih)).mp (hdb ▸ hs')
  · induction h with
    | init h => exact .init h (hvalid (.init h))
    | step hs hstep ih => exact ih.step hstep.relax (hvalid (hs.step hstep))

/-! Two edits of a reservation open to either game, each of them valid against it. -/

def toPlayer : UpdateRequest where
  startTime := none
  ranks := none
  matchType := some .player
  capacity := none
  memo := none
  ranks_length := nofun
  ranks_nodup := nofun
  capacity_pos := nofun
  capacity_le := nofun
  memo_length := nofun

def toRanked : UpdateRequest where
  startTime := none
  ranks := some ["Tekken God"]
  matchType := none
  capacity := none
  memo := none
  ranks_length := by simp
  ranks_nodup := by simp
  capacity_pos := nofun
  capacity_le := nofun
  memo_length := nofun

def playerRow : ReservationRow := (toPlayer.changes none).apply 0 noonRow

def madePlayer : Store := modifyRow 1 ((toPlayer.changes none).apply 0) (Changes.apply_id _ _) opened

def madeBoth : Store := modifyRow 1 ((toRanked.changes none).apply 0) (Changes.apply_id _ _) madePlayer

theorem madePlayer_row : madePlayer.reservations.get? 1 = some playerRow :=
  (get?_modifyRow _ _).trans (by rw [if_pos rfl,opened_row]; rfl)

/-- An edit of Alice's reservation that has read it and locked nothing yet. -/
def hasRead (patch : UpdateRequest) : Running Store Lock ReservationError Answer :=
  ⟨afterRead True 1 "alice" patch (withParticipantCount opened noonRow),.empty,none⟩

def bothRead : State Store Lock Request ReservationError Answer :=
  (State.put ⟨opened,fun _ => none,openedLog⟩ 1 (.update 1 "alice" toPlayer) (hasRead toPlayer)).put 2
    (.update 1 "alice" toRanked) (hasRead toRanked)

theorem lockless_bothRead (u : ℕ) : bothRead.Lockless u := by
  intro t c r _ ht
  simp only [bothRead,State.put_running] at ht
  split at ht
  · cases ht
    rfl
  · split at ht
    · cases ht
      rfl
    · cases ht

theorem reachable_bothRead : Reachable (service True digest) (fun _ _ _ => True) Initial bothRead := by
  have hplayer := (reachable_opened True).opens (u := 1) (c := .update 1 "alice" toPlayer) rfl
    (Prog.bind_assoc _ _ _)
  exact hplayer.opens (u := 2) (c := .update 1 "alice" toRanked) rfl (Prog.bind_assoc _ _ _)

theorem reachable_madeBoth :
    ∃ s, Reachable (service True digest) (fun _ _ _ => True) Initial s ∧ s.db = madeBoth := by
  have hplayer : Eval (hasRead toPlayer) bothRead.db _ madePlayer :=
    eval_afterRead True rfl rfl opened_row rfl (by decide)
  have hfirst : ∃ log, Reachable (service True digest) (fun _ _ _ => True) Initial
      ⟨madePlayer,(bothRead.drop 1).running,log⟩ :=
    ⟨_,hplayer.finish (u := 1) (c := .update 1 "alice" toPlayer) (lockless_bothRead 1)
      (fun _ _ => trivial) (by rw [State.put_self rfl]; exact reachable_bothRead)⟩
  obtain ⟨log,hfirst⟩ := hfirst
  have hranked : Eval (hasRead toRanked) madePlayer _ madeBoth :=
    eval_afterRead True rfl rfl madePlayer_row rfl (by decide)
  have hfree : State.Lockless ⟨madePlayer,(bothRead.drop 1).running,log⟩ 2 := by
    intro t c r hne ht
    simp only [State.drop_running] at ht
    split at ht
    · cases ht
    · exact lockless_bothRead 2 t c r hne ht
  exact ⟨_,hranked.finish (s := ⟨madePlayer,(bothRead.drop 1).running,log⟩) (c := .update 1 "alice" toRanked)
    hfree (fun _ _ => trivial) (by rw [State.put_self rfl]; exact hfirst),rfl⟩

/-- Together they leave a player match with a rank. -/
theorem conditions_mixed : ¬ ∀ s : State Store Lock Request ReservationError Answer,
    Reachable (service True digest) (fun _ _ _ => True) Initial s → ConditionsOk s.db := by
  intro h
  obtain ⟨s,hs,hdb⟩ := reachable_madeBoth
  have hrow : madeBoth.reservations.get? 1 = some ((toRanked.changes none).apply 0 playerRow) := by
    refine (get?_modifyRow _ _).trans ?_
    rw [if_pos rfl,madePlayer_row]
    rfl
  have hok := conditionsOk_iff.mp (h s hs) 1 _ (hdb ▸ hrow)
  cases hok

end Tag2now.Reservations
