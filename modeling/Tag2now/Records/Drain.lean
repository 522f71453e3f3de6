import Mathlib.Algebra.Order.BigOperators.Group.List
import Mathlib.Algebra.Order.Ring.Nat
import Tag2now.Records.Queue

/-! # The queue drains

A consumer goes on as long as it is told there was something to do. Every such answer is one
attempt that failed or the one that finished its event, so over all consumers there are never
more of them than five for each event, and once they are used up nothing waits any longer.
-/
namespace Tag2now.Records
open History ReadCommitted

/-! ## Sums over a table -/

section
variable {α κ : Type} [DecidableEq κ] {key : α → κ} {f : α → α} (weight : α → ℕ)

theorem sum_map_changed {rows : List α} (hnodup : (rows.map key).Nodup) {a : α} (ha : a ∈ rows) :
    (rows.map fun b => weight (if key b = key a then f b else b)).sum + weight a =
      (rows.map weight).sum + weight (f a) := by
  induction rows with
  | nil => cases ha
  | cons b rows ih =>
    simp only [List.map_cons,List.nodup_cons,List.mem_map,not_exists,not_and] at hnodup
    obtain ⟨hnew,hrest⟩ := hnodup
    simp only [List.map_cons,List.sum_cons]
    rcases List.mem_cons.mp ha with rfl | ha
    · have hothers : (rows.map fun b => weight (if key b = key a then f b else b)) = rows.map weight :=
        List.map_congr_left fun b hb => by rw [if_neg (hnew b hb)]
      rw [if_pos rfl,hothers]
      omega
    · have hne : key b ≠ key a := fun h => hnew a ha h.symm
      have htail := ih hrest ha
      rw [if_neg hne]
      omega

end

/-! ## What is worked for an event -/

/-- The caller was told there was something to do. -/
def isWork : Unit × Except String Processed → Bool
  | (_,.ok p) => p.answer
  | (_,.error _) => false

def worked (log : Log) : ℕ := log.countP isWork

/-- The attempts that failed, and the one that finished it. -/
def effort (row : MatchEventRow) : ℕ := row.attempts + if row.status = .done then 1 else 0

def efforts (db : Store) : ℕ := (db.events.rows.map effort).sum

@[simp] theorem worked_cons (log : Log) (p : Processed) :
    worked (((),.ok p) :: log) = worked log + if p.answer then 1 else 0 := by
  cases p <;> simp [worked,isWork,Processed.answer,List.countP_cons]

theorem efforts_setEvent {db : Store} {row : MatchEventRow} (hrow : db.events.get? row.id = some row)
    (f : MatchEventRow → MatchEventRow) (hf) :
    efforts (setEvent row.id f hf db) + effort row = efforts db + effort (f row) := by
  have hsum := sum_map_changed effort (f := f) db.events.nodup (Table.mem_of_get? hrow)
  have hrows : (setEvent row.id f hf db).events.rows =
      db.events.rows.map fun old => if old.id = row.id then f old else old := rfl
  rw [efforts,hrows,List.map_map]
  exact hsum

theorem efforts_addEvent {db : Store} {row : MatchEventRow} (h : Queued db row) :
    efforts (addEvent row db) = efforts db := by
  obtain ⟨hfresh,hpending,hattempts,-⟩ := h
  have hnew : effort row = 0 := by simp [effort,hpending,hattempts]
  have hrows : (addEvent row db).events.rows = db.events.rows ++ [row] := Table.insert_rows hfresh
  simp [efforts,hrows,hnew]

theorem effort_finished {row : MatchEventRow} (hpending : row.status = .pending) :
    effort (finished row) = effort row + 1 := by
  simp [effort,finished,hpending]

theorem effort_failed {row : MatchEventRow} (error : String) (now : ℤ) (hpending : row.status = .pending) :
    effort (failed (toEvent row) error now row) = effort row + 1 := by
  have hdone : (failed (toEvent row) error now row).status ≠ .done := by
    simp only [failed]
    split <;> decide
  simp only [effort,if_neg hdone,hpending]
  simp [failed,toEvent]

variable {resolves : MatchEvent → Option RankRoom → Prop}

theorem Commit.efforts {L : Set Lock} {s t : Store} {p : Processed} (h : Commit resolves L s p t) :
    efforts t = efforts s + if p.answer then 1 else 0 := by
  cases h with
  | idle => rfl
  | @finished row _ t hrow hpending _ _ ha =>
    have hsame : Records.efforts t = Records.efforts s := by
      unfold Records.efforts
      rw [ha.events]
    have hsum := efforts_setEvent (ha.events ▸ hrow) Records.finished finished_id
    rw [effort_finished hpending,hsame] at hsum
    simp only [Processed.answer,if_true]
    omega
  | @failed row error now hrow hpending _ =>
    have hsum := efforts_setEvent hrow (Records.failed (toEvent row) error now) (failed_id _ error now)
    rw [effort_failed error now hpending] at hsum
    simp only [Processed.answer,if_true]
    omega

/-- Every answer that there was something to do is in the efforts. -/
theorem worked_eq {db : Store} {log : Log} (h : Atomic (queue resolves) (fun _ _ _ => True)
    (discipline resolves) (· = Store.empty) db log) : worked log = efforts db := by
  induction h with
  | init h =>
    subst h
    rfl
  | env _ _ henv ih =>
    obtain ⟨row,hrow,rfl⟩ := henv
    rw [ih,efforts_addEvent hrow]
  | commit _ _ _ hc ih => rw [worked_cons,ih,Commit.efforts hc]
  | raise _ _ hf _ => exact hf.elim

/-! ## How long the consumers go on -/

/-- What is left of the attempts, over the events that wait. -/
def left (row : MatchEventRow) : ℕ := if row.status = .pending then maxAttempts - row.attempts else 0

theorem RowAccounted.effort {log : Log} {row : MatchEventRow} (h : RowAccounted log row) :
    effort row + left row ≤ maxAttempts ∧ (row.status = .pending ↔ left row ≠ 0) := by
  obtain ⟨-,hbound,hdead⟩ := h
  unfold Records.effort left
  cases hstatus : row.status with
  | pending =>
    have hne : row.attempts ≠ maxAttempts := fun h => by simp [hdead.mpr h] at hstatus
    simp
    omega
  | done =>
    have hne : row.attempts ≠ maxAttempts := fun h => by simp [hdead.mpr h] at hstatus
    simp
    omega
  | dead => simp [hbound]

structure Drains (s : State Store Lock Unit String Processed) : Prop where
  answered : worked s.log = efforts s.db
  bounded : worked s.log + (s.db.events.rows.map left).sum ≤ maxAttempts * s.db.events.rows.length
  waiting : ∀ row ∈ s.db.events.rows, row.status = .pending ↔ left row ≠ 0
  settled : worked s.log = maxAttempts * s.db.events.rows.length → ∀ row ∈ s.db.events.rows, row.status ≠ .pending

theorem sum_add_sum_le {rows : List MatchEventRow} {bound : ℕ} {f g : MatchEventRow → ℕ}
    (h : ∀ row ∈ rows, f row + g row ≤ bound) : (rows.map f).sum + (rows.map g).sum ≤ bound * rows.length := by
  induction rows with
  | nil => simp
  | cons row rows ih =>
    have hrow := h row List.mem_cons_self
    have hrest := ih fun row hrow => h row (List.mem_cons_of_mem _ hrow)
    simp only [List.map_cons,List.sum_cons,List.length_cons,Nat.mul_succ]
    omega

/-- In any run of any number of consumers, whatever fails. -/
theorem queue_drains {s : State Store Lock Unit String Processed}
    (h : Reachable (queue resolves) (fun _ _ _ => True) (· = Store.empty) s) : Drains s := by
  obtain ⟨hatom,-,-⟩ := h.refines (discipline_sound resolves)
  have hworked := worked_eq hatom
  have hrows : ∀ row ∈ s.db.events.rows, RowAccounted s.log row := fun _ hrow => (accounted resolves hatom).rows hrow
  have hbounded : worked s.log + (s.db.events.rows.map left).sum ≤ maxAttempts * s.db.events.rows.length := by
    rw [hworked]
    exact sum_add_sum_le fun row hrow => (hrows row hrow).effort.1
  have hwaiting : ∀ row ∈ s.db.events.rows, row.status = .pending ↔ left row ≠ 0 :=
    fun row hrow => (hrows row hrow).effort.2
  refine ⟨hworked,hbounded,hwaiting,?_⟩
  intro hall row hrow hpending
  have hle : left row ≤ (s.db.events.rows.map left).sum := List.le_sum_of_mem (List.mem_map.mpr ⟨row,hrow,rfl⟩)
  have hne := (hwaiting row hrow).mp hpending
  omega

theorem queue_drains_afterBoth : Drains afterBoth := by
  have hreach : Reachable (queue inRoom9) (fun _ _ _ => True) (· = Store.empty) afterBoth := reachable_afterBoth rfl rfl
  exact queue_drains hreach

end Tag2now.Records
